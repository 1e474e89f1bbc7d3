import YieldManager.Proofs.Manager.Service
import YieldManager.Proofs.Relay.Calls
import YieldManager.Reward.Forwarder
import YieldManager.Reward.Gauge

/-
  Exits that cash covers, at any share price.  Nothing is
  pulled for them, and the debits succeed; but the rebalance
  that follows decides about the whole call.  It can fail in
  one way only: the value has fallen below the band of what
  is left, and the vault does not take what is missing.

  Main declarations:
    * `Relay.Operating`
    * `Relay.exists_exit_of_cash`
    * `Relay.exitPool_of_cash`
    * `Relay.dearPool`
-/

------------------------------------------------------------
-- Operating Pools
------------------------------------------------------------

namespace YieldManager

namespace Relay

variable {κ G F : Type} [DecidableEq κ] [Zero κ]

/-
  A pool in operation: its manager is live and registered for
  its token, and its shares in a consistent vault are worth
  the given value.  Cash and value fit together; the balance
  in the ledger may be out of date.
-/
structure Operating
    (relayer poolId : κ)
    (e : Entry κ)
    (value : UInt64)
    (g : Guarded (ManagedPool κ (ShareVault κ) G F)) :
    Prop where
  lock : g.lock = .idle
  live : g.pool.manager.live = true
  targets : g.pool.manager.targets.validate = .ok ()
  pool : g.pool.manager.poolId = poolId
  ledgerPool : g.pool.ledger.poolId = poolId
  ledgerRelayer : g.pool.ledger.relayer = relayer
  entry :
    g.pool.ledger.entry g.pool.manager.token = .ok e
  someManager : e.manager ≠ 0
  registered : e.manager = g.pool.managerKey
  vault : g.pool.vault.IsConsistent
  worth :
    Manager.aum g.pool.managerKey g.pool.vault = .ok value
  fits : e.cash.toNat + value.toNat < UInt64.size

/- The cash of every token covers what is requested of it. -/
def CashCovers
    (l : Ledger κ)
    (r : ExitRequest κ) : Prop :=
  ∀ mint d, l.entry mint = .ok d →
    Request.total (r.assets.zip r.minAmounts) mint ≤
      d.cash.toNat

variable {relayer poolId : κ}
variable {e : Entry κ} {value : UInt64}
variable {r : ExitRequest κ}
variable {g : Guarded (ManagedPool κ (ShareVault κ) G F)}

------------------------------------------------------------
-- The Payment
------------------------------------------------------------

/-
  An exit that cash covers is short of nothing and is paid
  out of cash; the manager's entry loses what was requested
  of its token.
-/
theorem exists_exit_of_cash
    (hOperating : Operating relayer poolId e value g)
    (hLength : r.assets.length = r.minAmounts.length)
    (hListed : ∀ a ∈ r.assets, a ∈ g.pool.ledger.mints)
    (hCash : CashCovers g.pool.ledger r) :
    g.pool.shortfall poolId r = .ok 0 ∧
      ∃ l cash,
        Ledger.exit relayer poolId r g.pool.ledger =
            .ok () l ∧
          cash.toNat +
              Request.total (r.assets.zip r.minAmounts)
                g.pool.manager.token =
            e.cash.toNat ∧
          l.managedEntry g.pool.managerKey poolId
              g.pool.manager.token =
            .ok { e with cash := cash } := by
  have hOwn := hCash _ e hOperating.entry
  have hBound := e.cash.toNat_lt_size
  rcases FixedPoint.exists_toNat_eq
      (Nat.lt_of_le_of_lt hOwn hBound) with
    ⟨requested, hRequested⟩
  have hAmount :
      r.amountOut g.pool.manager.token = .ok requested :=
    ExitRequest.amountOut_eq_ok_iff.mpr ⟨hLength, hRequested⟩
  have hShort : g.pool.shortfall poolId r = .ok 0 := by
    rw [ManagedPool.shortfall_eq_ok_iff]
    refine
      ⟨hOperating.ledgerPool, requested, e, hAmount,
        hOperating.entry, ?_⟩
    rw [UInt64.toNat_zero]
    omega
  refine ⟨hShort, ?_⟩
  have hDebits :
      ∃ l,
        (r.assets.zip r.minAmounts).forM
            (fun line => Ledger.debit line.1 line.2)
            g.pool.ledger = .ok () l := by
    apply Ledger.exists_debits
    · intro line hLine
      exact hListed line.1 (List.of_mem_zip hLine).1
    · exact hCash
  rcases hDebits with ⟨l, hRun⟩
  have hPaid := Ledger.paid_of_debits hRun
  have hBefore :
      g.pool.ledger.managedEntry g.pool.managerKey poolId
        g.pool.manager.token = .ok e :=
    Ledger.managedEntry_eq_ok_iff.mpr
      ⟨hOperating.ledgerPool, hOperating.entry,
        hOperating.registered ▸ hOperating.someManager,
        hOperating.registered⟩
  rcases hPaid.exists_managedEntry hBefore with
    ⟨cash, hLeft, hEntry⟩
  refine ⟨l, cash, ?_, by omega, hEntry⟩
  rw [Ledger.exit_eq_ok_iff]
  exact
    ⟨hOperating.ledgerRelayer.symm, hOperating.ledgerPool,
      hLength, hRun⟩

------------------------------------------------------------
-- The Call
------------------------------------------------------------

variable [RewardGauge κ G] [RewardSink κ F]

/-
  A paid exit succeeds together with the rebalance of what is
  left.
-/
private theorem exitPool_succeeds_iff
    {l : Ledger κ}
    (hLock : g.lock = .idle)
    (hShort : g.pool.shortfall poolId r = .ok 0)
    (hExit :
      Ledger.exit relayer poolId r g.pool.ledger = .ok () l) :
    (∃ report h,
        exitPool relayer poolId r g = .ok report h) ↔
      ∃ outcome t,
        g.pool.manager.rebalance g.pool.managerKey poolId
            false { g.pool.capital with ledger := l } =
          .ok outcome t := by
  constructor
  · intro hRuns
    rcases hRuns with ⟨report, h, hRun⟩
    rcases exitPool_eq_ok_iff.mp hRun with
      ⟨-, short, s, t, l', hShort', hPull, hExit', hMove, -⟩
    rw [hShort, Except.ok.injEq] at hShort'
    subst hShort'
    rw [if_neg (by decide)] at hPull
    rcases hPull with ⟨-, rfl⟩
    have hSame : l' = l := by
      rw [ManagedPool.capital, hExit] at hExit'
      cases hExit'
      rfl
    subst hSame
    exact ⟨_, t, hMove⟩
  · intro hRuns
    rcases hRuns with ⟨outcome, t, hMove⟩
    refine
      ⟨{ pulled := 0, rebalance := outcome }, _,
        exitPool_eq_ok_iff.mpr
          ⟨hLock, 0, g.pool.capital, t, l, hShort, ?_, hExit,
            hMove, rfl⟩⟩
    rw [if_neg (by decide)]
    exact ⟨rfl, rfl⟩

/-
  An exit that cash covers succeeds if and only if the value
  is not below the band of what is left, or what is missing
  can be invested.  So it succeeds in any case if the value
  was not below the band before the exit.
-/
theorem exitPool_of_cash
    (hOperating : Operating relayer poolId e value g)
    (hLength : r.assets.length = r.minAmounts.length)
    (hListed : ∀ a ∈ r.assets, a ∈ g.pool.ledger.mints)
    (hCash : CashCovers g.pool.ledger r) :
    ∃ (total left : UInt64) (before after : Band),
      total.toNat = e.cash.toNat + value.toNat ∧
        left.toNat +
            Request.total (r.assets.zip r.minAmounts)
              g.pool.manager.token = total.toNat ∧
        g.pool.manager.targets.band total = .ok before ∧
        g.pool.manager.targets.band left = .ok after ∧
        ((∃ report h,
            exitPool relayer poolId r g = .ok report h) ↔
          after.lower ≤ value ∨
            Manager.CanInvest g.pool.managerKey e
              (after.desired - value) g.pool.vault) ∧
        (before.lower ≤ value →
          ∃ report h,
            exitPool relayer poolId r g =
              .ok report h) := by
  rcases exists_exit_of_cash hOperating hLength hListed hCash
    with ⟨hShort, l, cash, hExit, hPaid, hEntry⟩
  have hFits := hOperating.fits
  rcases FixedPoint.exists_toNat_eq hFits with
    ⟨total, hTotal⟩
  rcases FixedPoint.exists_toNat_eq
      (n := cash.toNat + value.toNat) (by omega) with
    ⟨left, hLeft⟩
  rcases Targets.exists_band hOperating.targets total with
    ⟨before, hBefore, -⟩
  rcases Targets.exists_band hOperating.targets left with
    ⟨after, hAfter, -⟩
  rcases Targets.band_ordered hOperating.targets hAfter with
    ⟨hOrdered, -⟩
  have hRebalance :=
    Manager.rebalance_succeeds_iff
      (s := { g.pool.capital with ledger := l })
      hOperating.vault hOperating.pool hOperating.live
      hOperating.targets hEntry hOperating.worth hLeft hAfter
      false
  have hIff :
      (∃ report h,
          exitPool relayer poolId r g = .ok report h) ↔
        after.lower ≤ value ∨
          Manager.CanInvest g.pool.managerKey e
            (after.desired - value) g.pool.vault := by
    rw [exitPool_succeeds_iff hOperating.lock hShort hExit,
      hRebalance]
    constructor
    · intro hCan
      by_cases hBelow : value < after.lower
      · have hLow : value < after.desired :=
          UInt64.lt_of_lt_of_le hBelow hOrdered
        rcases hCan (.inr hBelow) hLow with ⟨hTaken, hRoom⟩
        exact .inr ⟨hTaken, hRoom⟩
      · exact .inl (UInt64.not_lt.mp hBelow)
    · intro hOpen hActs hLow
      rcases hOpen with hInside | ⟨hTaken, hRoom⟩
      · rcases hActs with hForced | hBelow
        · cases hForced
        · exact absurd hBelow (UInt64.not_lt.mpr hInside)
      · exact ⟨hTaken, hRoom⟩
  refine
    ⟨total, left, before, after, hTotal, by omega, hBefore,
      hAfter, hIff, ?_⟩
  intro hInside
  apply hIff.mpr
  apply Or.inl
  have hLess : left ≤ total := by
    rw [UInt64.le_iff_toNat_le]
    omega
  exact
    UInt64.le_trans (Targets.lower_mono hLess hAfter hBefore)
      hInside

------------------------------------------------------------
-- A Vault With Dear Shares
------------------------------------------------------------

/-
  A pool with 10 in cash that has invested nothing yet.  The
  shares of its vault cost 10 each and belong to another
  owner.
-/
def dearPool :
    Guarded
      (ManagedPool Nat (ShareVault Nat) (Gauge Nat)
        (Forwarder Nat)) where
  lock := .idle
  pool :=
    { manager :=
        { poolId := 1, token := 2, custodian := 3, vault := 4
          forwarder := 5, gauge := none, rebalancer := 6
          authority := 7, live := true, bump := 0
          targets :=
            { target := 500000000000000000
              upper := 600000000000000000
              lower := 400000000000000000 } }
      managerKey := 8
      ledger :=
        { poolId := 1, authority := 7, relayer := 6
          entries :=
            [{ mint := 2, cash := 10, managed := 0
               manager := 8 }]
          bump := 0 }
      vault :=
        { asset := 2, authority := 7, assets := 100
          supply := 10, feeBps := 0, fees := 0
          holdings := [{ owner := 9, shares := 10 }]
          bump := 0 }
      gauge := none
      sink := none }

/- An exit with some of the managed token. -/
def dearExit (amount : UInt64) : ExitRequest Nat where
  assets := [2]
  minAmounts := [amount]

/- The pool is in operation, with nothing invested. -/
private theorem operating_dearPool :
    Operating 6 1
      { mint := 2, cash := 10, managed := 0, manager := 8 } 0
      dearPool where
  lock := by decide
  live := by decide
  targets := by decide +kernel
  pool := by decide
  ledgerPool := by decide
  ledgerRelayer := by decide
  entry := by decide +kernel
  someManager := by decide
  registered := by decide
  vault := ⟨by decide, by decide⟩
  worth := by decide +kernel
  fits := by decide

/- Its cash covers every exit with at most 10. -/
private theorem cashCovers_dearPool
    {amount : UInt64}
    (hAmount : amount.toNat ≤ 10) :
    CashCovers dearPool.pool.ledger (dearExit amount) := by
  intro mint d hEntry
  have hListed :
      d ∈ [({ mint := 2, cash := 10, managed := 0
              manager := 8 } : Entry Nat)] :=
    Ledger.mem_of_entry hEntry
  rw [List.mem_singleton] at hListed
  rw [← Ledger.mint_of_entry hEntry, hListed]
  simpa [dearExit, Request.total] using hAmount

/-
  An exit with 2 leaves 8, of which 4 should be invested.
  They do not buy a share, and the exit is refused although
  the cash covers it.
-/
theorem refused_dearPool :
    Operating 6 1
        { mint := 2, cash := 10, managed := 0, manager := 8 }
        0 dearPool ∧
      dearPool.pool.vault.isValid = true ∧
      dearPool.pool.vault.supply ≤
        dearPool.pool.vault.assets ∧
      (dearExit 2).assets.length =
        (dearExit 2).minAmounts.length ∧
      (∀ a ∈ (dearExit 2).assets,
        a ∈ dearPool.pool.ledger.mints) ∧
      CashCovers dearPool.pool.ledger (dearExit 2) ∧
      ((exitPool 6 1 (dearExit 2)).perform dearPool).1 =
        .error .noSharesReceived := by
  have hCash : CashCovers dearPool.pool.ledger (dearExit 2) :=
    cashCovers_dearPool (by decide)
  exact
    ⟨operating_dearPool, by decide, by decide, by decide,
      by decide, hCash, by decide +kernel⟩

/-
  An exit with 10 leaves nothing to invest, and succeeds.
-/
theorem exitPool_dearPool :
    Operating 6 1
        { mint := 2, cash := 10, managed := 0, manager := 8 }
        0 dearPool ∧
      CashCovers dearPool.pool.ledger (dearExit 10) ∧
      ∃ report h,
        exitPool 6 1 (dearExit 10) dearPool =
          .ok report h := by
  have hCash :
      CashCovers dearPool.pool.ledger (dearExit 10) :=
    cashCovers_dearPool (by decide)
  refine ⟨operating_dearPool, hCash, ?_⟩
  rcases exitPool_of_cash operating_dearPool
      (r := dearExit 10) (by decide) (by decide) hCash with
    ⟨total, left, before, after, hTotal, hLeft, -, hAfter,
      hIff, -⟩
  have hNothing : left = 0 := by
    have hOut :
        Request.total
            ((dearExit 10).assets.zip
              (dearExit 10).minAmounts)
            dearPool.pool.manager.token = 10 := by
      decide
    have hAll : total.toNat = 10 := hTotal
    rw [← UInt64.toNat_inj, UInt64.toNat_zero]
    omega
  have hBand :
      dearPool.pool.manager.targets.band 0 =
        .ok { desired := 0, upper := 0, lower := 0 } := by
    decide +kernel
  rw [hNothing, hBand, Except.ok.injEq] at hAfter
  apply hIff.mpr
  apply Or.inl
  rw [← hAfter]
  exact UInt64.le_refl 0

end Relay

end YieldManager

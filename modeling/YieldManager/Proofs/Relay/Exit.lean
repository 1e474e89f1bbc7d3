import YieldManager.Proofs.Manager.Service
import YieldManager.Proofs.Manager.Untrusted
import YieldManager.Proofs.Relay.Calls
import YieldManager.Reward.Forwarder
import YieldManager.Reward.Gauge

/-
  Exits on demand.  A pool in service pays out whatever its
  cash and its managed balance cover: the manager pulls what
  is short, and the rebalance that follows has no reason to
  fail.

  Main declarations:
    * `Relay.InService`
    * `Relay.Covers`
    * `Relay.covers_of_exitPool`
    * `Relay.exists_exitPool`
    * `Relay.exitPool_on_demand`
-/

------------------------------------------------------------
-- Pools in Service
------------------------------------------------------------

namespace YieldManager

namespace Relay

variable {κ G F : Type} [DecidableEq κ] [Zero κ]
variable {relayer poolId : κ}
variable {e : Entry κ}
variable
  {g h : Guarded (ManagedPool κ (ShareVault κ) G F)}

/-
  A pool ready for exits: its manager is live, works for the
  relayer, is registered for its token, and has reported what
  its shares in a vault at par are worth.  The vault accepts
  deposits of all the cash there is, and no sum overflows.
-/
structure InService
    (relayer poolId : κ)
    (e : Entry κ)
    (g : Guarded (ManagedPool κ (ShareVault κ) G F)) :
    Prop where
  lock : g.lock = .idle
  live : g.pool.manager.live = true
  targets : g.pool.manager.targets.validate = .ok ()
  pool : g.pool.manager.poolId = poolId
  rebalancer : g.pool.manager.rebalancer = relayer
  ledgerPool : g.pool.ledger.poolId = poolId
  ledgerRelayer : g.pool.ledger.relayer = relayer
  entry :
    g.pool.ledger.entry g.pool.manager.token = .ok e
  someManager : e.manager ≠ 0
  registered : e.manager = g.pool.managerKey
  reported :
    Manager.aum g.pool.managerKey g.pool.vault =
      .ok e.managed
  par : g.pool.vault.IsPar
  accepts :
    ShareVault.Accepts g.pool.managerKey e.cash.toNat
      g.pool.vault
  fits : e.cash.toNat + e.managed.toNat < UInt64.size

/-
  Cash and managed balance cover what is requested of the
  managed token, and cash covers what is requested of every
  other token.
-/
structure Covers
    (p : ManagedPool κ (ShareVault κ) G F)
    (e : Entry κ)
    (lines : List (κ × UInt64)) : Prop where
  own :
    Request.total lines p.manager.token ≤
      e.cash.toNat + e.managed.toNat
  others :
    ∀ mint d, mint ≠ p.manager.token →
      p.ledger.entry mint = .ok d →
        Request.total lines mint ≤ d.cash.toNat

namespace InService

/- A pool in service is settled. -/
theorem settled
    (hService : InService relayer poolId e g) :
    Manager.Settled g.pool.manager g.pool.managerKey
      g.pool.capital := by
  exact
    ⟨hService.par, e, hService.entry,
      hService.par.eq_balanceOf_of_worth hService.reported⟩

/- A pool in service opens its entry to its manager. -/
theorem managedEntry
    (hService : InService relayer poolId e g) :
    g.pool.ledger.managedEntry g.pool.managerKey poolId
      g.pool.manager.token = .ok e :=
  Ledger.managedEntry_eq_ok_iff.mpr
    ⟨hService.ledgerPool, hService.entry,
      hService.registered ▸ hService.someManager,
      hService.registered⟩

end InService

------------------------------------------------------------
-- The Steps of an Exit
------------------------------------------------------------

variable {r : ExitRequest κ}

/-
  What a covered request is short of in cash can be told, and
  is the exact difference.
-/
private theorem exists_shortfall
    (hService : InService relayer poolId e g)
    (hLength : r.assets.length = r.minAmounts.length)
    (hOwn :
      Request.total (r.assets.zip r.minAmounts)
          g.pool.manager.token ≤
        e.cash.toNat + e.managed.toNat) :
    ∃ short : UInt64,
      g.pool.shortfall poolId r = .ok short ∧
        short.toNat =
          Request.total (r.assets.zip r.minAmounts)
              g.pool.manager.token -
            e.cash.toNat := by
  rcases FixedPoint.exists_toNat_eq
      (Nat.lt_of_le_of_lt hOwn hService.fits) with
    ⟨requested, hRequested⟩
  have hManaged := e.managed.toNat_lt_size
  rcases FixedPoint.exists_toNat_eq
      (n := requested.toNat - e.cash.toNat) (by omega) with
    ⟨short, hShort⟩
  have hShortfall : g.pool.shortfall poolId r = .ok short :=
    ManagedPool.shortfall_eq_ok_iff.mpr
      ⟨hService.ledgerPool, requested, e,
        ExitRequest.amountOut_eq_ok_iff.mpr
          ⟨hLength, hRequested⟩,
        hService.entry, hShort⟩
  exact ⟨short, hShortfall, hRequested ▸ hShort⟩

/-
  What is short can be pulled: the cash grows by just that, and a
  vault that is not asked for anything stays as it is.
-/
private theorem exists_pull
    (short : UInt64)
    (hService : InService relayer poolId e g)
    (hShort : short.toNat ≤ e.managed.toNat)
    (hFits : e.cash.toNat + short.toNat < UInt64.size) :
    ∃ pulled s,
      (if 0 < short then
        g.pool.manager.capitalOut relayer g.pool.managerKey
            poolId short g.pool.capital = .ok pulled s
      else
        pulled = 0 ∧ g.pool.capital = s) ∧
      ∃ cash managed : UInt64,
        s.ledger.entry g.pool.manager.token =
            .ok { e with cash := cash, managed := managed } ∧
          cash.toNat = e.cash.toNat + short.toNat ∧
          (short = 0 → s.vault = g.pool.vault) := by
  by_cases hPos : 0 < short
  · rcases Manager.exists_divest_of_worth
        (s := g.pool.capital)
        hService.par.toIsConsistent hService.managedEntry
        hService.reported hPos
        (UInt64.le_iff_toNat_le.mpr hShort) hFits with
      ⟨s, hDivest⟩
    rcases (Manager.divested_of_divest hDivest).books with
      ⟨d, cash, managed, -, hCash, hRewritten⟩
    have hSame : d = e :=
      Except.ok.inj
        (hRewritten.found.symm.trans hService.entry)
    subst hSame
    refine
      ⟨short, s, ?_, cash, managed, hRewritten.rewritten,
        hCash, ?_⟩
    · rw [if_pos hPos]
      exact
        Manager.capitalOut_eq_ok_iff.mpr
          ⟨hService.rebalancer.symm, hService.pool,
            hService.live, hDivest⟩
    · intro hZero
      rw [hZero] at hPos
      exact absurd hPos (UInt64.lt_irrefl 0)
  · have hZero : short = 0 :=
      UInt64.le_antisymm (UInt64.not_lt.mp hPos)
        UInt64.zero_le
    refine
      ⟨0, g.pool.capital, ?_, e.cash, e.managed,
        hService.entry, ?_, fun _ => rfl⟩
    · rw [if_neg hPos]
      exact ⟨rfl, rfl⟩
    · rw [hZero]
      rfl

/- A covered request for supported assets can be debited. -/
private theorem exists_exit
    {s : Position κ (ShareVault κ)}
    {cash managed : UInt64}
    (hService : InService relayer poolId e g)
    (hLength : r.assets.length = r.minAmounts.length)
    (hListed : ∀ a ∈ r.assets, a ∈ g.pool.ledger.mints)
    (hCovers : Covers g.pool e (r.assets.zip r.minAmounts))
    (hMoved :
      Manager.Advanced g.pool.manager g.pool.managerKey
        (fun _ => 0) g.pool.capital s)
    (hEntry :
      s.ledger.entry g.pool.manager.token =
        .ok { e with cash := cash, managed := managed })
    (hCash :
      Request.total (r.assets.zip r.minAmounts)
        g.pool.manager.token ≤ cash.toNat) :
    ∃ l, Ledger.exit relayer poolId r s.ledger = .ok () l := by
  have hMints := hMoved.books.mints
  have hDebits :
      ∃ l,
        (r.assets.zip r.minAmounts).forM
            (fun line => Ledger.debit line.1 line.2)
            s.ledger = .ok () l := by
    apply Ledger.exists_debits
    · intro line hLine
      rw [hMints]
      exact hListed line.1 (List.of_mem_zip hLine).1
    · intro mint d hFound
      by_cases hMint : mint = g.pool.manager.token
      · subst hMint
        rw [hEntry] at hFound
        cases hFound
        exact hCash
      · have hMem : mint ∈ g.pool.ledger.mints := by
          rw [← Ledger.mint_of_entry hFound]
          have hOld :=
            List.mem_map_of_mem (f := Entry.mint)
              (Ledger.mem_of_entry hFound)
          exact hMints ▸ hOld
        rcases Ledger.exists_entry hMem with ⟨d₀, hOld⟩
        rcases hMoved.others mint d₀ hMint hOld with
          ⟨cash₀, hSame, hNow⟩
        rw [hNow] at hFound
        cases hFound
        have hTotal := hCovers.others mint d₀ hMint hOld
        simp only
        omega
  rcases hDebits with ⟨l, hRun⟩
  refine ⟨l, Ledger.exit_eq_ok_iff.mpr ?_⟩
  refine ⟨?_, ?_, hLength, hRun⟩
  · exact
      (hMoved.books.relayer.trans
        hService.ledgerRelayer).symm
  · exact hMoved.books.poolId.trans hService.ledgerPool

------------------------------------------------------------
-- Exits on Demand
------------------------------------------------------------

variable [RewardGauge κ G] [RewardSink κ F]
variable {report : ExitReport}

/- An exit that succeeds was covered. -/
theorem covers_of_exitPool
    (hService : InService relayer poolId e g)
    (hRun : exitPool relayer poolId r g = .ok report h) :
    Covers g.pool e (r.assets.zip r.minAmounts) := by
  rcases exitPool_eq_ok_iff.mp hRun with
    ⟨-, short, s, t, l, -, hPull, hExit, -, -⟩
  have hPulled := (advanced_of_pull hService.settled hPull).2
  rcases Ledger.exit_eq_ok_iff.mp hExit with
    ⟨-, -, -, hDebits⟩
  have hPaid := Ledger.paid_of_debits hDebits
  refine ⟨?_, ?_⟩
  · rcases hPulled.own e hService.entry with
      ⟨cash₁, managed₁, hEntry₁, hSum⟩
    rcases hPaid.entries _ _ hEntry₁ with
      ⟨cash₂, hCash₂, -⟩
    have hFees := hPulled.fees
    simp only at hCash₂
    omega
  · intro mint d hMint hEntry
    rcases hPulled.others mint d hMint hEntry with
      ⟨cash₁, hCash₁, hEntry₁⟩
    rcases hPaid.entries mint _ hEntry₁ with
      ⟨cash₂, hCash₂, -⟩
    simp only at hCash₂
    omega

/- A covered exit succeeds. -/
theorem exists_exitPool
    (hService : InService relayer poolId e g)
    (hLength : r.assets.length = r.minAmounts.length)
    (hListed : ∀ a ∈ r.assets, a ∈ g.pool.ledger.mints)
    (hCovers : Covers g.pool e (r.assets.zip r.minAmounts)) :
    ∃ report h,
      exitPool relayer poolId r g = .ok report h := by
  have hOwn := hCovers.own
  have hFits := hService.fits
  rcases exists_shortfall hService hLength hOwn with
    ⟨short, hShortfall, hShort⟩
  rcases exists_pull short hService (by omega)
      (by omega) with
    ⟨pulled, s, hPull, cash, managed, hEntry, hCash, hKept⟩
  rcases advanced_of_pull hService.settled hPull with
    ⟨-, hPulled⟩
  rcases exists_exit hService hLength hListed hCovers hPulled
      hEntry (by omega) with
    ⟨l, hExit⟩
  rcases Ledger.exit_eq_ok_iff.mp hExit with
    ⟨-, -, -, hDebits⟩
  have hPaid :=
    Manager.advanced_of_paid hPulled.settled
      (Ledger.paid_of_debits hDebits)
  have hBefore :
      s.ledger.managedEntry g.pool.managerKey poolId
          g.pool.manager.token =
        .ok { e with cash := cash, managed := managed } :=
    Ledger.managedEntry_eq_ok_iff.mpr
      ⟨hPulled.books.poolId.trans hService.ledgerPool,
        hEntry, hService.registered ▸ hService.someManager,
        hService.registered⟩
  rcases (Ledger.paid_of_debits hDebits).exists_managedEntry
      hBefore with
    ⟨rest, hRest, hManaged⟩
  simp only at hRest
  have hHolds :
      cash.toNat + managed.toNat < UInt64.size := by
    rcases hPulled.own e hService.entry with
      ⟨cash', managed', hEntry', hSum⟩
    rw [hEntry] at hEntry'
    cases hEntry'
    have hFees := hPulled.fees
    omega
  have hAccepts :
      rest.toNat ≠ 0 →
        ShareVault.Accepts g.pool.managerKey rest.toNat
          s.vault := by
    intro hSome
    have hNone : short = 0 := by
      rw [← UInt64.toNat_inj, UInt64.toNat_zero]
      omega
    rw [hKept hNone]
    exact hService.accepts.mono (by omega)
  rcases Manager.exists_rebalance hPaid.settled hService.pool
      hService.live hService.targets hManaged
      (by simp only; omega) hAccepts false with
    ⟨outcome, t, hMove⟩
  exact
    ⟨{ pulled := pulled, rebalance := outcome }, _,
      exitPool_eq_ok_iff.mpr
        ⟨hService.lock, short, s, t, l, hShortfall, hPull,
          hExit, hMove, rfl⟩⟩

/-
  An exit from a pool in service succeeds exactly when it is
  covered.  It pulls what cash leaves open, and takes the
  requested amount, and vault fees besides, from cash and
  managed balance.
-/
theorem exitPool_on_demand
    (hService : InService relayer poolId e g)
    (hLength : r.assets.length = r.minAmounts.length)
    (hListed : ∀ a ∈ r.assets, a ∈ g.pool.ledger.mints) :
    ((∃ report h,
        exitPool relayer poolId r g = .ok report h) ↔
      Covers g.pool e (r.assets.zip r.minAmounts)) ∧
    ∀ report h,
      exitPool relayer poolId r g = .ok report h →
        report.pulled.toNat =
            Request.total (r.assets.zip r.minAmounts)
              g.pool.manager.token - e.cash.toNat ∧
          g.pool.vault.fees ≤ h.pool.vault.fees ∧
          ∃ e',
            h.pool.ledger.entry g.pool.manager.token =
                .ok e' ∧
              e'.cash.toNat + e'.managed.toNat +
                  (h.pool.vault.fees.toNat -
                    g.pool.vault.fees.toNat) =
                e.cash.toNat + e.managed.toNat -
                  Request.total
                    (r.assets.zip r.minAmounts)
                    g.pool.manager.token := by
  refine ⟨⟨?_, ?_⟩, ?_⟩
  · intro hSteps
    rcases hSteps with ⟨report, h, hRun⟩
    exact covers_of_exitPool hService hRun
  · exact exists_exitPool hService hLength hListed
  · intro report h hRun
    have hCovers := covers_of_exitPool hService hRun
    have hExited := advanced_of_exitPool hService.settled hRun
    rcases exitPool_eq_ok_iff.mp hRun with
      ⟨-, short, s, t, l, hShort, hPull, -, -, -⟩
    rcases ManagedPool.shortfall_eq_ok_iff.mp hShort with
      ⟨-, requested, d, hRequested, hEntry, hDiff⟩
    have hSame : d = e :=
      Except.ok.inj (hEntry.symm.trans hService.entry)
    subst hSame
    rcases ExitRequest.amountOut_eq_ok_iff.mp hRequested with
      ⟨-, hTotal⟩
    rcases hExited.own d hService.entry with
      ⟨cash, managed, hAfter, hSum⟩
    have hOwn := hCovers.own
    have hFees := hExited.fees
    simp only [ManagedPool.capital] at hSum hFees
    refine
      ⟨?_, UInt64.le_iff_toNat_le.mpr hFees, _, hAfter, ?_⟩
    · rw [(advanced_of_pull hService.settled hPull).1]
      omega
    · simp only
      omega

/- A pool in service with 10 in cash and 30 in its vault. -/
def smallPool :
    Guarded
      (ManagedPool Nat (ShareVault Nat) (Gauge Nat)
        (Forwarder Nat)) where
  lock := .idle
  pool :=
    { manager :=
        { poolId := 1, token := 2, custodian := 3, vault := 4
          forwarder := 5, gauge := none, rebalancer := 6
          authority := 7, live := true, bump := 0
          targets :=
            { target := 500000000000000000
              upper := 600000000000000000
              lower := 400000000000000000 } }
      managerKey := 8
      ledger :=
        { poolId := 1, authority := 7, relayer := 6
          entries :=
            [{ mint := 2, cash := 10, managed := 30
               manager := 8 },
             { mint := 9, cash := 5, managed := 0
               manager := 0 }]
          bump := 0 }
      vault :=
        { asset := 2, authority := 7, assets := 30
          supply := 30, feeBps := 100, fees := 1
          holdings := [{ owner := 8, shares := 30 }]
          bump := 0 }
      gauge := none
      sink := none }

/- An exit with 15 of the managed token in two lines. -/
def smallExit : ExitRequest Nat where
  assets := [2, 9, 2]
  minAmounts := [7, 5, 8]

/- The exit pulls the 5 that cash does not cover. -/
theorem exitPool_smallPool :
    ∃ report h,
      exitPool 6 1 smallExit smallPool = .ok report h ∧
        report.pulled.toNat = 5 := by
  have hService :
      InService 6 1
        { mint := 2, cash := 10, managed := 30, manager := 8 }
        smallPool :=
    { lock := rfl
      live := rfl
      targets := by decide +kernel
      pool := rfl
      rebalancer := rfl
      ledgerPool := rfl
      ledgerRelayer := rfl
      entry := by decide +kernel
      someManager := by decide
      registered := rfl
      reported := by decide +kernel
      par :=
        { nodup := by decide
          issued := by decide
          par := rfl }
      accepts :=
        { fee := by decide
          assets := by decide
          fees := by decide
          room := Or.inl (by decide) }
      fits := by decide }
  have hCovers :
      Covers smallPool.pool
        { mint := 2, cash := 10, managed := 30, manager := 8 }
        (smallExit.assets.zip smallExit.minAmounts) := by
    refine ⟨by decide, ?_⟩
    intro mint d hMint hEntry
    have hOwn := Ledger.mint_of_entry hEntry
    have hListed :
        d ∈ [({ mint := 2, cash := 10, managed := 30
                manager := 8 } : Entry Nat),
             { mint := 9, cash := 5, managed := 0
               manager := 0 }] :=
      Ledger.mem_of_entry hEntry
    simp only [List.mem_cons, List.not_mem_nil,
      or_false] at hListed
    rcases hListed with rfl | rfl
    · exact absurd hOwn.symm hMint
    · subst hOwn
      decide
  rcases exitPool_on_demand hService (r := smallExit)
      (by decide) (by decide) with
    ⟨hIff, hReport⟩
  rcases hIff.mpr hCovers with ⟨report, h, hRun⟩
  refine ⟨report, h, hRun, ?_⟩
  have hPulled := (hReport report h hRun).1
  rw [hPulled]
  decide

end Relay

end YieldManager

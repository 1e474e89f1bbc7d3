import YieldManager.Proofs.Manager.Target
import YieldManager.Proofs.Relay.Exit

/-
  What a pool's manager has invested after a relayed call.
  Over a vault at par that takes no fee, payments change the
  total by what is paid, and moves of capital do not change
  it.  The rebalance at the end of a call leaves what is
  managed between the ends of the band that the targets have
  for the new total.

  Main declarations:
    * `Manager.Holds`
    * `Manager.Allocated`
    * `Manager.Holds.paid`
    * `Manager.Holds.divested`
    * `Manager.Holds.rebalanced`
    * `Relay.relayed_calls_end_in_band`
-/

------------------------------------------------------------
-- Totals and Bands
------------------------------------------------------------

namespace YieldManager

namespace Manager

variable {κ : Type} [DecidableEq κ] [Zero κ]
variable {m : Manager κ} {key : κ}
variable {s t : Position κ (ShareVault κ)}
variable {total : Nat}

/-
  A pool has a total: its manager is registered and invests in
  a vault at par without a fee, the managed balance is the
  value there, and with the cash that makes the total.
-/
structure Holds
    (m : Manager κ)
    (key : κ)
    (total : Nat)
    (s : Position κ (ShareVault κ)) : Prop where
  par : s.vault.IsPar
  noFee : s.vault.feeBps = 0
  booked :
    ∃ e,
      s.ledger.managedEntry key m.poolId m.token = .ok e ∧
        aum key s.vault = .ok e.managed ∧
        e.cash.toNat + e.managed.toNat = total

/-
  A pool has a total, and what of it is in the vault lies in
  the band that the manager's targets have for the total.
-/
structure Allocated
    (m : Manager κ)
    (key : κ)
    (total : Nat)
    (s : Position κ (ShareVault κ)) : Prop
    extends Holds m key total s where
  inBand :
    ∃ value,
      aum key s.vault = .ok value ∧
        total * m.targets.lower.toNat / 10 ^ 18 ≤
          value.toNat ∧
        value.toNat ≤
          total * m.targets.upper.toNat / 10 ^ 18

namespace Holds

/- Payments change the total by what flows of the token. -/
theorem paid
    {flow : κ → Int}
    {l : Ledger κ}
    (hHolds : m.Holds key total s)
    (hPaid : Ledger.Paid flow s.ledger l) :
    ∃ total' : Nat,
      (total' : Int) = total + flow m.token ∧
        m.Holds key total' { s with ledger := l } := by
  rcases hHolds.booked with ⟨e, hEntry, hManaged, hTotal⟩
  rcases hPaid.exists_managedEntry hEntry with
    ⟨cash, hCash, hAfter⟩
  refine
    ⟨cash.toNat + e.managed.toNat, by omega,
      { par := hHolds.par
        noFee := hHolds.noFee
        booked := ⟨_, hAfter, hManaged, rfl⟩ }⟩

/- A divestment keeps the total. -/
theorem divested
    {amount received : UInt64}
    (hHolds : m.Holds key total s)
    (hRun :
      m.divest key m.poolId amount s = .ok received t) :
    m.Holds key total t := by
  rcases hHolds.booked with ⟨e, hEntry, hManaged, hTotal⟩
  have hBefore :=
    hHolds.par.eq_balanceOf_of_worth hManaged
  have hDealt := dealt_of_divest hHolds.par hRun
  have hOwn := hDealt.shifted.own
  rw [← hBefore] at hOwn
  rcases reached_of_dealt hHolds.par hEntry hBefore hDealt
      hOwn with
    ⟨hPar, -, cash, hKept, hAfter⟩
  exact
    { par := hPar
      noFee := hDealt.shifted.terms.feeBps.trans hHolds.noFee
      booked :=
        ⟨_, hAfter, hPar.worth key, hKept.trans hTotal⟩ }

/- A value that the band of the total does not exclude. -/
theorem allocated
    {sum value : UInt64}
    {band : Band}
    (hHolds : m.Holds key sum.toNat s)
    (hValue : aum key s.vault = .ok value)
    (hBand : m.targets.band sum = .ok band)
    (hLower : band.lower ≤ value)
    (hUpper : value ≤ band.upper) :
    m.Allocated key sum.toNat s := by
  rcases Targets.band_eq_ok_iff.mp hBand with
    ⟨-, hHigh, hLow⟩
  have hHighNat := (FixedPoint.mulDivDown_eq_ok_iff.mp hHigh).2
  have hLowNat := (FixedPoint.mulDivDown_eq_ok_iff.mp hLow).2
  rw [UInt64.le_iff_toNat_le, hLowNat] at hLower
  rw [UInt64.le_iff_toNat_le, hHighNat] at hUpper
  exact ⟨hHolds, value, hValue, hLower, hUpper⟩

/- A rebalance keeps the total and ends in its band. -/
theorem rebalanced
    {force : Bool}
    {outcome : Outcome}
    (hHolds : m.Holds key total s)
    (hValid : m.targets.validate = .ok ())
    (hRun :
      m.rebalance key m.poolId force s = .ok outcome t) :
    m.Allocated key total t := by
  rcases hHolds.booked with ⟨e, hEntry, hManaged, hTotal⟩
  rcases Ledger.managedEntry_eq_ok_iff.mp hEntry with
    ⟨-, hFound, -, -⟩
  rcases rebalance_cases hFound hManaged hRun with
    ⟨sum, band, hSum, hBand, hCases⟩
  have hSame : sum.toNat = total := hSum.trans hTotal
  subst hSame
  rcases hCases with ⟨hInside, rfl⟩ | hMove
  · rcases Band.isBreached_eq_false_iff.mp hInside with
      ⟨hLower, hUpper⟩
    exact hHolds.allocated hManaged hBand hLower hUpper
  · have hOwn := hHolds.par.eq_balanceOf_of_worth hManaged
    rcases reached_of_moveTo hHolds.par hHolds.noFee hEntry
        hOwn hMove with
      ⟨hPar, hReached, cash, hKept, hAfter⟩
    have hWorth : aum key t.vault = .ok band.desired :=
      hReached ▸ hPar.worth key
    have hTerms :=
      (advanced_of_rebalance ⟨hHolds.par, e, hFound, hOwn⟩
        hRun).terms
    have hAfterHolds : m.Holds key sum.toNat t :=
      { par := hPar
        noFee := hTerms.feeBps.trans hHolds.noFee
        booked :=
          ⟨_, hAfter, hWorth, hKept.trans hSum.symm⟩ }
    -- What is desired is in the band, whatever it is.
    rcases Targets.band_ordered hValid hBand with
      ⟨hLower, hUpper⟩
    exact
      hAfterHolds.allocated hWorth hBand hLower hUpper

end Holds

end Manager

------------------------------------------------------------
-- Relayed Calls
------------------------------------------------------------

namespace Relay

variable {κ G F : Type} [DecidableEq κ] [Zero κ]
variable [RewardGauge κ G] [RewardSink κ F]
variable {relayer poolId : κ}
variable {total : Nat}
variable {g : Guarded (ManagedPool κ (ShareVault κ) G F)}

/- The pull before an exit keeps the total. -/
private theorem holds_of_pull
    {m : Manager κ}
    {key : κ}
    {s t : Position κ (ShareVault κ)}
    {short pulled : UInt64}
    (hHolds : m.Holds key total s)
    (hPull :
      if 0 < short then
        m.capitalOut relayer key m.poolId short s =
          .ok pulled t
      else
        pulled = 0 ∧ s = t) :
    m.Holds key total t := by
  rcases pull_cases hPull with hOut | ⟨-, -, rfl⟩
  · rcases Manager.capitalOut_eq_ok_iff.mp hOut with
      ⟨-, -, -, hDivest⟩
    exact hHolds.divested hDivest
  · exact hHolds

/-
  A relayed join or exit that succeeds leaves a pool with
  valid targets, over a vault at par without a fee, inside the
  band of its new total: that is what was there before, and
  what is joined of the managed token, or less what is exited.
-/
theorem relayed_calls_end_in_band
    (hValid : g.pool.manager.targets.validate = .ok ())
    (hHolds :
      g.pool.manager.Holds g.pool.managerKey total
        g.pool.capital) :
    (∀ r outcome h,
      joinPool relayer poolId r g = .ok outcome h →
        g.pool.manager.Allocated g.pool.managerKey
          (total +
            Request.total (r.assets.zip r.maxAmounts)
              g.pool.manager.token)
          h.pool.capital) ∧
      ∀ r report h,
        exitPool relayer poolId r g = .ok report h →
          Request.total (r.assets.zip r.minAmounts)
              g.pool.manager.token ≤ total ∧
            g.pool.manager.Allocated g.pool.managerKey
              (total -
                Request.total (r.assets.zip r.minAmounts)
                  g.pool.manager.token)
              h.pool.capital := by
  constructor
  · intro r outcome h hRun
    rcases joinPool_eq_ok_iff.mp hRun with
      ⟨-, l, t, hJoin, hMove, rfl⟩
    rcases Manager.rebalance_eq_ok_iff.mp hMove with
      ⟨rfl, -⟩
    rcases Ledger.join_eq_ok_iff.mp hJoin with
      ⟨-, -, -, hCredits⟩
    rcases hHolds.paid (Ledger.paid_of_credits hCredits) with
      ⟨sum, hSum, hPaid⟩
    have hTotal :
        sum =
          total +
            Request.total (r.assets.zip r.maxAmounts)
              g.pool.manager.token := by
      omega
    exact hTotal ▸ hPaid.rebalanced hValid hMove
  · intro r report h hRun
    rcases exitPool_eq_ok_iff.mp hRun with
      ⟨-, short, s, t, l, -, hPull, hExit, hMove, rfl⟩
    rcases Manager.rebalance_eq_ok_iff.mp hMove with
      ⟨rfl, -⟩
    have hPulled := holds_of_pull hHolds hPull
    rcases Ledger.exit_eq_ok_iff.mp hExit with
      ⟨-, -, -, hDebits⟩
    rcases hPulled.paid (Ledger.paid_of_debits hDebits) with
      ⟨rest, hRest, hPaid⟩
    have hTotal :
        rest =
          total -
            Request.total (r.assets.zip r.minAmounts)
              g.pool.manager.token := by
      omega
    exact
      ⟨by omega, hTotal ▸ hPaid.rebalanced hValid hMove⟩

/- The small pool, over a vault that takes no fee. -/
def freePool :
    Guarded
      (ManagedPool Nat (ShareVault Nat) (Gauge Nat)
        (Forwarder Nat)) :=
  { smallPool with
    pool :=
      { smallPool.pool with
        vault := { smallPool.pool.vault with feeBps := 0 } } }

/- A join with 60 of the managed token. -/
def largeJoin : JoinRequest Nat where
  assets := [2, 9, 2]
  maxAmounts := [20, 1, 40]

/-
  Of 40 in total, the exit takes 15, and 12 of what remains
  are left in the vault after two divestments.  The join adds
  60, and brings the vault from 30 to 50.
-/
theorem relayed_calls_end_in_band_freePool :
    (∃ left,
      exitPool 6 1 smallExit freePool =
          .ok { pulled := 5, rebalance := .divested 13 }
            left ∧
        freePool.pool.manager.Allocated 8 25
          left.pool.capital) ∧
      ∃ joined,
        joinPool 6 1 largeJoin freePool =
            .ok (.invested 20 20) joined ∧
          freePool.pool.manager.Allocated 8 100
            joined.pool.capital := by
  have hHolds :
      freePool.pool.manager.Holds freePool.pool.managerKey 40
        freePool.pool.capital :=
    { par := ⟨⟨by decide, by decide⟩, rfl⟩
      noFee := rfl
      booked := ⟨_, rfl, rfl, rfl⟩ }
  have hExits :
      ∃ left,
        exitPool 6 1 smallExit freePool =
          .ok { pulled := 5, rebalance := .divested 13 }
            left :=
    ⟨_, rfl⟩
  have hJoins :
      ∃ joined,
        joinPool 6 1 largeJoin freePool =
          .ok (.invested 20 20) joined :=
    ⟨_, rfl⟩
  rcases hExits with ⟨left, hExit⟩
  rcases hJoins with ⟨joined, hJoin⟩
  rcases (relayed_calls_end_in_band rfl hHolds).2 _ _ _ hExit
    with ⟨-, hLeft⟩
  exact
    ⟨⟨left, hExit, hLeft⟩, joined, hJoin,
      (relayed_calls_end_in_band rfl hHolds).1 _ _ _ hJoin⟩

end Relay

end YieldManager

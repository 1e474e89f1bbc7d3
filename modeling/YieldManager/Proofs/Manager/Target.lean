import YieldManager.Proofs.Manager.Service
import YieldManager.Proofs.Manager.Sharing

/-
  Managers that are on target: they have as much invested as
  their targets ask for, and rebalances find nothing to do.
  Over a vault at par that takes no fee, one forced rebalance
  gets a manager there, whatever it has invested before.

  Main declarations:
    * `Manager.OnTarget`
    * `Manager.onTarget_of_managedEntry`
    * `Manager.OnTarget.maxInvestable`
    * `Manager.OnTarget.rebalance`
    * `ShareVault.IsPar.takes_of_noFee`
    * `Manager.rebalance_reaches_target`
-/

------------------------------------------------------------
-- On Target
------------------------------------------------------------

namespace YieldManager

namespace Manager

section OnTarget

variable {κ V : Type} [DecidableEq κ] [YieldVault κ V]

/- What is managed is what the targets desire. -/
def OnTarget
    (m : Manager κ)
    (key poolId : κ)
    (s : Position κ V) : Prop :=
  ∃ held total band,
    m.poolBalances key poolId s = .ok held ∧
      held.total = .ok total ∧
      m.targets.band total = .ok band ∧
      held.managed = band.desired

variable {m : Manager κ}
variable {key poolId : κ}
variable {s : Position κ V}

/- On target, as an entry that agrees with the vault tells. -/
theorem onTarget_of_managedEntry
    [Zero κ]
    {e : Entry κ}
    {total : UInt64}
    {band : Band}
    (hPool : m.poolId = poolId)
    (hEntry :
      s.ledger.managedEntry key poolId m.token = .ok e)
    (hValue : aum key s.vault = .ok e.managed)
    (hTotal :
      total.toNat = e.cash.toNat + e.managed.toNat)
    (hBand : m.targets.band total = .ok band)
    (hDesired : e.managed = band.desired) :
    m.OnTarget key poolId s :=
  ⟨_, total, band,
    poolBalances_of_managedEntry hPool hEntry hValue,
    FixedPoint.add_eq_ok_iff.mpr hTotal, hBand, hDesired⟩

/- On target, nothing is left to invest. -/
theorem OnTarget.maxInvestable
    (hOnTarget : m.OnTarget key poolId s) :
    m.maxInvestable key poolId s = .ok 0 := by
  rcases hOnTarget with
    ⟨held, total, band, hHeld, hTotal, hBand, hManaged⟩
  rw [maxInvestable_of_band hHeld hTotal hBand, hManaged,
    FixedPoint.difference, Int.sub_self]

/-
  On target, a live manager rebalances without touching its
  position, whether it is forced to or not.
-/
theorem OnTarget.rebalance
    [Zero κ]
    (hOnTarget : m.OnTarget key poolId s)
    (hLive : m.live = true)
    (hValid : m.targets.validate = .ok ())
    (force : Bool) :
    m.rebalance key poolId force s =
      .ok (if force then .balanced else .skipped) s := by
  rcases hOnTarget with
    ⟨held, total, band, hHeld, hTotal, hBand, hManaged⟩
  rcases Targets.band_ordered hValid hBand with
    ⟨hLower, hUpper⟩
  have hInside : band.isBreached band.desired = false :=
    Band.isBreached_eq_false_iff.mpr ⟨hLower, hUpper⟩
  rw [rebalance_of_band hLive hHeld hTotal hBand force,
    hManaged, hInside, Action.atomically_eq_ok_iff]
  cases force with
  | false => rfl
  | true =>
      exact
        moveTo_eq_ok_iff.mpr (.inr (.inr ⟨rfl, rfl, rfl⟩))

end OnTarget

end Manager

------------------------------------------------------------
-- Vaults without a Fee
------------------------------------------------------------

namespace ShareVault

variable {κ : Type}
variable {v : ShareVault κ}
variable {amount : UInt64}

/- Without a fee, all of an amount is net. -/
theorem splits_of_noFee
    (hNoFee : v.feeBps = 0)
    {fee net : UInt64} :
    Splits v amount fee net ↔ fee = 0 ∧ net = amount := by
  have hScale : FixedPoint.bpsScale ≠ 0 := by decide
  simp only [Splits, hNoFee, FixedPoint.bpsOf,
    FixedPoint.mulDivDown_eq_ok_iff, UInt64.toNat_zero,
    Nat.mul_zero, Nat.zero_div, hScale, ne_eq,
    not_false_eq_true, true_and, ← UInt64.toNat_inj]
  omega

/- At par and without a fee, any amount that fits is taken. -/
theorem IsPar.takes_of_noFee
    {owner : κ}
    (hPar : v.IsPar)
    (hNoFee : v.feeBps = 0)
    (hAmount : 0 < amount)
    (hFits : v.assets.toNat + amount.toNat < UInt64.size)
    (hRoom : HasRoom v owner) :
    Takes owner amount v := by
  have hFees := v.fees.toNat_lt_size
  have hSupply := congrArg UInt64.toNat hPar.par
  exact
    ⟨0, amount, amount,
      (splits_of_noFee hNoFee).mpr ⟨rfl, rfl⟩,
      hPar.toShares amount, hAmount, hFits, by omega,
      by simpa using hFees, hRoom⟩

end ShareVault

------------------------------------------------------------
-- Reaching the Target
------------------------------------------------------------

namespace Manager

variable {κ : Type} [DecidableEq κ] [Zero κ]
variable {m : Manager κ}
variable {key poolId : κ}
variable {s t : Position κ (ShareVault κ)}
variable {e : Entry κ}

/- Dealings with the vault rewrite the manager's entry. -/
theorem Dealt.exists_managedEntry
    {paid change : Int}
    {fee : Nat}
    (hDealt : m.Dealt key poolId paid change fee s t)
    (hEntry :
      s.ledger.managedEntry key poolId m.token = .ok e) :
    ∃ cash : UInt64,
      (cash.toNat : Int) + paid = e.cash.toNat ∧
        t.ledger.managedEntry key poolId m.token =
          .ok
            { e with
              cash := cash
              managed := t.vault.balanceOf key } := by
  rcases hDealt.booked with ⟨d, cash, hFound, hCash, hLedger⟩
  rw [hEntry, Except.ok.injEq] at hFound
  subst hFound
  refine ⟨cash, hCash, ?_⟩
  rw [hLedger]
  exact Ledger.managedEntry_setEntry _ hEntry rfl rfl

/- Dealings without a fee that reach a desired balance. -/
theorem reached_of_dealt
    {desired : UInt64}
    {change : Int}
    {fee : Nat}
    (hPar : s.vault.IsPar)
    (hEntry :
      s.ledger.managedEntry key poolId m.token = .ok e)
    (hManaged : e.managed = s.vault.balanceOf key)
    (hDealt : m.Dealt key poolId change change fee s t)
    (hChange :
      (desired.toNat : Int) = e.managed.toNat + change) :
    t.vault.IsPar ∧
      t.vault.balanceOf key = desired ∧
      ∃ cash : UInt64,
        cash.toNat + desired.toNat =
            e.cash.toNat + e.managed.toNat ∧
          t.ledger.managedEntry key poolId m.token =
            .ok
              { e with cash := cash, managed := desired } := by
  rcases hDealt.exists_managedEntry hEntry with
    ⟨cash, hCash, hAfter⟩
  have hOwn := hDealt.shifted.own
  rw [← hManaged] at hOwn
  have hReached : t.vault.balanceOf key = desired := by
    rw [← UInt64.toNat_inj]
    omega
  rw [hReached] at hAfter
  exact
    ⟨hDealt.shifted.isPar hPar, hReached, cash, by omega,
      hAfter⟩

/-
  A manager moves to what is desired, and takes the
  difference from cash or adds it there.
-/
theorem reached_of_moveTo
    {desired : UInt64}
    {outcome : Outcome}
    (hPar : s.vault.IsPar)
    (hNoFee : s.vault.feeBps = 0)
    (hEntry :
      s.ledger.managedEntry key poolId m.token = .ok e)
    (hManaged : e.managed = s.vault.balanceOf key)
    (hRun :
      m.moveTo key poolId desired e.managed s =
        .ok outcome t) :
    t.vault.IsPar ∧
      t.vault.balanceOf key = desired ∧
      ∃ cash : UInt64,
        cash.toNat + desired.toNat =
            e.cash.toNat + e.managed.toNat ∧
          t.ledger.managedEntry key poolId m.token =
            .ok
              { e with cash := cash, managed := desired } := by
  rcases moveTo_eq_ok_iff.mp hRun with
    ⟨hLow, shares, hInvest, -⟩ |
      ⟨hHigh, received, hDivest, -⟩ | ⟨rfl, rfl, -⟩
  · have hAmount :=
      UInt64.toNat_sub_of_le _ _ (UInt64.le_of_lt hLow)
    have hLess := UInt64.lt_iff_toNat_lt.mp hLow
    rcases dealt_of_invest hPar hInvest with
      ⟨-, fee, net, hSplit, hDealt⟩
    rcases (ShareVault.splits_of_noFee hNoFee).mp hSplit with
      ⟨-, rfl⟩
    exact
      reached_of_dealt hPar hEntry hManaged hDealt (by omega)
  · have hAmount :=
      UInt64.toNat_sub_of_le _ _ (UInt64.le_of_lt hHigh)
    have hLess := UInt64.lt_iff_toNat_lt.mp hHigh
    exact
      reached_of_dealt hPar hEntry hManaged
        (dealt_of_divest hPar hDivest) (by omega)
  · exact ⟨hPar, hManaged.symm, e.cash, rfl, hEntry⟩

/- A forced rebalance moves to what is desired. -/
theorem moveTo_of_forced
    {total : UInt64}
    {band : Band}
    {outcome : Outcome}
    (hEntry :
      s.ledger.managedEntry key poolId m.token = .ok e)
    (hValue : aum key s.vault = .ok e.managed)
    (hTotal :
      total.toNat = e.cash.toNat + e.managed.toNat)
    (hBand : m.targets.band total = .ok band)
    (hRun :
      m.rebalance key poolId true s = .ok outcome t) :
    m.moveTo key poolId band.desired e.managed s =
      .ok outcome t := by
  rcases rebalance_eq_ok_iff.mp hRun with
    ⟨hPool, hLive, -⟩
  have hHeld :=
    poolBalances_of_managedEntry hPool hEntry hValue
  rw [rebalance_of_band hLive hHeld
    (FixedPoint.add_eq_ok_iff.mpr hTotal) hBand,
    Action.atomically_eq_ok_iff] at hRun
  exact hRun

/-
  Over a vault at par that takes no fee, a forced rebalance of
  a live manager succeeds if the totals fit and there is a
  holding for the manager.  Afterwards the managed balance and
  the value in the vault are the target's fraction of the
  unchanged total, rounded down; nothing is left to invest,
  and further rebalances touch neither ledger nor vault.
-/
theorem rebalance_reaches_target
    (hLive : m.live = true)
    (hValid : m.targets.validate = .ok ())
    (hEntry :
      s.ledger.managedEntry key m.poolId m.token = .ok e)
    (hManaged : aum key s.vault = .ok e.managed)
    (hPar : s.vault.IsPar)
    (hNoFee : s.vault.feeBps = 0)
    (hRoom : ShareVault.HasRoom s.vault key)
    (hTotal :
      e.cash.toNat + e.managed.toNat < UInt64.size)
    (hAssets :
      s.vault.assets.toNat + e.cash.toNat < UInt64.size) :
    ∃ outcome t d,
      m.rebalance key m.poolId true s = .ok outcome t ∧
        t.ledger.managedEntry key m.poolId m.token = .ok d ∧
        aum key t.vault = .ok d.managed ∧
        d.managed.toNat =
          (e.cash.toNat + e.managed.toNat) *
            m.targets.target.toNat / 10 ^ 18 ∧
        d.cash.toNat + d.managed.toNat =
          e.cash.toNat + e.managed.toNat ∧
        m.maxInvestable key m.poolId t = .ok 0 ∧
        m.rebalance key m.poolId true t = .ok .balanced t ∧
        m.rebalance key m.poolId false t =
          .ok .skipped t := by
  rcases FixedPoint.exists_toNat_eq hTotal with
    ⟨total, hTotalNat⟩
  rcases Targets.exists_band hValid total with
    ⟨band, hBand, hWithin⟩
  have hWithinNat := UInt64.le_iff_toNat_le.mp hWithin
  have hOwn : e.managed = s.vault.balanceOf key := by
    have hWorth := hPar.worth key
    exact Except.ok.inj (hManaged.symm.trans hWorth)
  have hCan :
      e.managed < band.desired →
        CanInvest key e (band.desired - e.managed)
          s.vault := by
    intro hLow
    have hLess := UInt64.lt_iff_toNat_lt.mp hLow
    have hAmount :=
      UInt64.toNat_sub_of_le _ _ (UInt64.le_of_lt hLow)
    have hSome : 0 < band.desired - e.managed := by
      rw [UInt64.lt_iff_toNat_lt, UInt64.toNat_zero]
      omega
    exact
      ⟨hPar.takes_of_noFee hNoFee hSome (by omega) hRoom,
        by omega⟩
  rcases (rebalance_succeeds_iff hPar.toIsConsistent rfl
      hLive hValid hEntry hManaged hTotalNat hBand
      true).mpr (fun _ => hCan) with
    ⟨outcome, t, hRun⟩
  have hMoved :
      m.moveTo key m.poolId band.desired e.managed s =
        .ok outcome t :=
    moveTo_of_forced hEntry hManaged hTotalNat hBand hRun
  rcases reached_of_moveTo hPar hNoFee hEntry hOwn hMoved with
    ⟨hParAfter, hOwnAfter, cash, hSum, hAfter⟩
  have hWorth : aum key t.vault = .ok band.desired :=
    hOwnAfter ▸ hParAfter.worth key
  have hReached :
      band.desired.toNat =
        (e.cash.toNat + e.managed.toNat) *
          m.targets.target.toNat / 10 ^ 18 := by
    have hPart := (Targets.band_eq_ok_iff.mp hBand).1
    rw [← hTotalNat]
    exact (FixedPoint.mulDivDown_eq_ok_iff.mp hPart).2
  have hOnTarget : m.OnTarget key m.poolId t :=
    onTarget_of_managedEntry rfl hAfter hWorth
      (hTotalNat.trans hSum.symm) hBand rfl
  exact
    ⟨outcome, t, _, hRun, hAfter, hWorth, hReached, hSum,
      hOnTarget.maxInvestable,
      hOnTarget.rebalance hLive hValid true,
      hOnTarget.rebalance hLive hValid false⟩

/- A third of the total is to be invested. -/
def thirdManager : Manager Nat :=
  neighbour 1 333333333333333333

/- A pool with 100 in cash and 20 in a vault without a fee. -/
def freePosition : Position Nat (ShareVault Nat) :=
  neighbourPosition 1 9 100 20
    { neighbourVault 20 0 [{ owner := 9, shares := 20 }] with
      feeBps := 0 }

/- Of 120 in total, 39 are invested and 81 are left. -/
theorem rebalance_reaches_target_freePosition :
    ∃ outcome t d,
      thirdManager.rebalance 9 1 true freePosition =
          .ok outcome t ∧
        t.ledger.managedEntry 9 1 2 = .ok d ∧
        d.managed.toNat = 39 ∧ d.cash.toNat = 81 ∧
        thirdManager.rebalance 9 1 true t =
          .ok .balanced t ∧
        thirdManager.rebalance 9 1 false t =
          .ok .skipped t := by
  have hLive : thirdManager.live = true := rfl
  have hEntry :
      freePosition.ledger.managedEntry 9 thirdManager.poolId
          thirdManager.token =
        .ok
          { mint := 2, cash := 100, managed := 20
            manager := 9 } :=
    rfl
  have hPar : freePosition.vault.IsPar :=
    ⟨⟨by decide, by decide⟩, rfl⟩
  rcases rebalance_reaches_target hLive rfl hEntry rfl hPar
      rfl (.inl (by decide)) (by decide) (by decide) with
    ⟨outcome, t, d, hRun, hAfter, -, hManaged, hSum, -,
      hForced, hLazy⟩
  have hThird : d.managed.toNat = 39 := hManaged
  have hRest : d.cash.toNat + d.managed.toNat = 120 := hSum
  exact
    ⟨outcome, t, d, hRun, hAfter, hThird, by omega, hForced,
      hLazy⟩

end Manager

end YieldManager

import YieldManager.Proofs.Manager.Total
import YieldManager.Proofs.Vault.Access

/-
  When a manager can follow its targets, at any share price.
  Divesting never fails for lack of value; investing does if
  the vault does not take the deposit.  So a rebalance of a
  pool whose total fits succeeds unless it has to invest what
  the vault does not take.

  Main declarations:
    * `Manager.CanInvest`
    * `Manager.invest_succeeds_iff`
    * `Manager.exists_divest_of_worth`
    * `Manager.rebalance_succeeds_iff`
    * `Manager.exists_rebalance`
-/

------------------------------------------------------------
-- Investing and Divesting
------------------------------------------------------------

namespace YieldManager

namespace Manager

variable {κ : Type} [DecidableEq κ]

/-
  An amount can be invested if the vault takes it and the
  managed balance in the ledger has room for it.
-/
structure CanInvest
    (key : κ)
    (e : Entry κ)
    (amount : UInt64)
    (v : ShareVault κ) : Prop where
  taken : ShareVault.Takes key amount v
  fits : e.managed.toNat + amount.toNat < UInt64.size

variable [Zero κ]
variable {m : Manager κ} {key poolId : κ}
variable {s : Position κ (ShareVault κ)}
variable {e : Entry κ} {amount value : UInt64}

/- Cash that can be invested is what investing takes. -/
theorem invest_succeeds_iff
    (hVault : s.vault.IsConsistent)
    (hEntry :
      s.ledger.managedEntry key poolId m.token = .ok e) :
    (∃ shares t,
        m.invest key poolId amount s = .ok shares t) ↔
      amount ≤ e.cash ∧ CanInvest key e amount s.vault := by
  constructor
  · intro hRuns
    rcases hRuns with ⟨shares, t, hRun⟩
    rcases invest_eq_ok_iff.mp hRun with
      ⟨d, cash, managed, -, hManaged, hCash, hSum, hMeasured,
        -, -⟩
    rw [hEntry, Except.ok.injEq] at hManaged
    subst hManaged
    refine ⟨?_, ?_, ?_⟩
    · rw [UInt64.le_iff_toNat_le]
      omega
    · exact
        hVault.depositMeasured_succeeds_iff.mp
          ⟨shares, _, hMeasured⟩
    · rw [← hSum]
      exact managed.toNat_lt_size
  · intro hCan
    rcases hCan with ⟨hCovered, hTaken, hFits⟩
    have hLe := UInt64.le_iff_toNat_le.mp hCovered
    have hBound := e.cash.toNat_lt_size
    rcases hVault.depositMeasured_succeeds_iff.mpr hTaken with
      ⟨gained, w, hMeasured⟩
    rcases YieldVault.depositMeasured_eq_ok_iff.mp hMeasured
      with ⟨⟨claimed, hDeposit⟩, -, -⟩
    rcases ShareVault.deposited_of_deposit hDeposit with
      ⟨fee, net, -, -, hDeposited⟩
    rcases (hVault.deposited hDeposited).exists_worth key with
      ⟨worth, hWorth⟩
    rcases FixedPoint.exists_toNat_eq
        (n := e.cash.toNat - amount.toNat) (by omega) with
      ⟨cash, hCash⟩
    rcases FixedPoint.exists_toNat_eq hFits with
      ⟨managed, hManaged⟩
    exact
      ⟨gained,
        { ledger :=
            s.ledger.setEntry
              { e with cash := cash, managed := worth }
          vault := w },
        invest_eq_ok_iff.mpr
          ⟨e, cash, managed, worth, hEntry, by omega,
            hManaged, hMeasured, hWorth, rfl⟩⟩

/- What the shares are worth can be divested. -/
theorem exists_divest_of_worth
    (hVault : s.vault.IsConsistent)
    (hEntry :
      s.ledger.managedEntry key poolId m.token = .ok e)
    (hValue : YieldVault.worth s.vault key = .ok value)
    (hAmount : 0 < amount)
    (hCovered : amount ≤ value)
    (hFits : e.cash.toNat + amount.toNat < UInt64.size) :
    ∃ t, m.divest key poolId amount s = .ok amount t := by
  rcases hVault.exists_withdrawMeasured hValue hAmount
      hCovered with
    ⟨w, hMeasured⟩
  rcases YieldVault.withdrawMeasured_eq_ok_iff.mp hMeasured
    with ⟨hWithdraw, -, -⟩
  rcases ShareVault.withdrawn_of_withdraw hWithdraw with
    ⟨-, burned, -, hWithdrawn⟩
  rcases (hVault.withdrawn hWithdrawn).exists_worth key with
    ⟨left, hLeft⟩
  rcases FixedPoint.exists_toNat_eq hFits with ⟨cash, hCash⟩
  exact
    ⟨{ ledger :=
         s.ledger.setEntry
           { e with cash := cash, managed := left }
       vault := w },
      divest_eq_ok_iff.mpr
        ⟨e, value, cash, left, hEntry, hValue, hCovered,
          hMeasured, hCash, hLeft, rfl⟩⟩

------------------------------------------------------------
-- Rebalancing
------------------------------------------------------------

/- Moving to what is desired fails only where it invests. -/
theorem moveTo_succeeds_iff
    (desired : UInt64)
    (hVault : s.vault.IsConsistent)
    (hEntry :
      s.ledger.managedEntry key poolId m.token = .ok e)
    (hValue : YieldVault.worth s.vault key = .ok value)
    (hFits : e.cash.toNat + value.toNat < UInt64.size)
    (hDesired :
      desired.toNat ≤ e.cash.toNat + value.toNat) :
    (∃ outcome t,
        m.moveTo key poolId desired value s =
          .ok outcome t) ↔
      (value < desired →
        CanInvest key e (desired - value) s.vault) := by
  constructor
  · intro hRuns hLow
    rcases hRuns with ⟨outcome, t, hRun⟩
    have hNotHigh :=
      UInt64.not_lt.mpr (UInt64.le_of_lt hLow)
    rcases moveTo_eq_ok_iff.mp hRun with
      ⟨-, shares, hInvest, -⟩ | ⟨hHigh, -⟩ | ⟨hEq, -, -⟩
    · exact
        ((invest_succeeds_iff hVault hEntry).mp
          ⟨shares, t, hInvest⟩).2
    · exact absurd hHigh hNotHigh
    · exact absurd hEq.symm (UInt64.ne_of_lt hLow)
  · intro hCan
    by_cases hLow : value < desired
    · have hLess := UInt64.lt_iff_toNat_lt.mp hLow
      have hAmount :=
        UInt64.toNat_sub_of_le _ _ (UInt64.le_of_lt hLow)
      have hCovered : desired - value ≤ e.cash := by
        rw [UInt64.le_iff_toNat_le]
        omega
      rcases (invest_succeeds_iff hVault hEntry).mpr
          ⟨hCovered, hCan hLow⟩ with
        ⟨shares, t, hInvest⟩
      exact
        ⟨_, t,
          moveTo_eq_ok_iff.mpr
            (.inl ⟨hLow, shares, hInvest, rfl⟩)⟩
    by_cases hHigh : desired < value
    · have hLess := UInt64.lt_iff_toNat_lt.mp hHigh
      have hAmount :=
        UInt64.toNat_sub_of_le _ _ (UInt64.le_of_lt hHigh)
      have hSome : 0 < value - desired := by
        rw [UInt64.lt_iff_toNat_lt, UInt64.toNat_zero]
        omega
      have hCovered : value - desired ≤ value := by
        rw [UInt64.le_iff_toNat_le]
        omega
      rcases exists_divest_of_worth hVault hEntry hValue hSome
          hCovered (by omega) with
        ⟨t, hDivest⟩
      exact
        ⟨_, t,
          moveTo_eq_ok_iff.mpr
            (.inr (.inl ⟨hHigh, _, hDivest, rfl⟩))⟩
    · have hEq : desired = value :=
        UInt64.le_antisymm (UInt64.not_lt.mp hLow)
          (UInt64.not_lt.mp hHigh)
      exact
        ⟨_, s,
          moveTo_eq_ok_iff.mpr (.inr (.inr ⟨hEq, rfl, rfl⟩))⟩

/-
  Of all that the rebalance of a live manager looks up, only
  the move to what is desired can still fail.
-/
private theorem rebalance_runs_iff
    {total : UInt64}
    {band : Band}
    {force : Bool}
    (hPool : m.poolId = poolId)
    (hLive : m.live = true)
    (hEntry :
      s.ledger.managedEntry key poolId m.token = .ok e)
    (hValue : YieldVault.worth s.vault key = .ok value)
    (hTotal : total.toNat = e.cash.toNat + value.toNat)
    (hBand : m.targets.band total = .ok band) :
    (∃ outcome t,
        m.rebalance key poolId force s = .ok outcome t) ↔
      (!force && !band.isBreached value) = true ∨
        ∃ outcome t,
          m.moveTo key poolId band.desired value s =
            .ok outcome t := by
  have hHeld :=
    poolBalances_of_managedEntry hPool hEntry hValue
  rw [rebalance_of_band hLive hHeld
    (FixedPoint.add_eq_ok_iff.mpr hTotal) hBand]
  simp only [Action.atomically_eq_ok_iff]
  split
  · next hInside =>
      simp only [hInside, true_or, iff_true]
      exact ⟨.skipped, s, rfl⟩
  · next hOutside => exact (or_iff_right hOutside).symm

/-
  A live manager with valid targets rebalances a pool whose
  total fits, unless it is forced or has fallen below the
  band, and then cannot invest what is missing.
-/
theorem rebalance_succeeds_iff
    {total : UInt64}
    {band : Band}
    (hVault : s.vault.IsConsistent)
    (hPool : m.poolId = poolId)
    (hLive : m.live = true)
    (hValid : m.targets.validate = .ok ())
    (hEntry :
      s.ledger.managedEntry key poolId m.token = .ok e)
    (hValue : YieldVault.worth s.vault key = .ok value)
    (hTotal : total.toNat = e.cash.toNat + value.toNat)
    (hBand : m.targets.band total = .ok band)
    (force : Bool) :
    (∃ outcome t,
        m.rebalance key poolId force s = .ok outcome t) ↔
      (force = true ∨ value < band.lower →
        value < band.desired →
          CanInvest key e (band.desired - value)
            s.vault) := by
  rcases Targets.band_ordered hValid hBand with
    ⟨-, hUpper⟩
  have hWithin : band.desired.toNat ≤ total.toNat := by
    rcases Targets.exists_band hValid total with
      ⟨band', hBand', hLe⟩
    rw [hBand, Except.ok.injEq] at hBand'
    rw [hBand']
    exact UInt64.le_iff_toNat_le.mp hLe
  have hBound := total.toNat_lt_size
  have hMoves :=
    moveTo_succeeds_iff band.desired hVault hEntry hValue
      (by omega) (by omega)
  rw [rebalance_runs_iff hPool hLive hEntry hValue hTotal
      hBand, hMoves]
  simp only [Band.isBreached, Bool.and_eq_true,
    Bool.not_eq_true', Bool.or_eq_false_iff,
    decide_eq_false_iff_not]
  constructor
  · intro hOpen hActs hLow
    rcases hOpen with ⟨hLazy, -, hNotLow⟩ | hCan
    · rcases hActs with hForced | hBelow
      · rw [hLazy] at hForced
        cases hForced
      · exact absurd hBelow hNotLow
    · exact hCan hLow
  · intro hCan
    by_cases hActs : force = true ∨ value < band.lower
    · exact .inr (hCan hActs)
    · rcases not_or.mp hActs with ⟨hLazy, hNotLow⟩
      by_cases hHigh : band.upper < value
      · -- Above the band, the value exceeds what is desired.
        refine .inr fun hLow => ?_
        have hNotHigh :=
          UInt64.not_lt.mpr
            (UInt64.le_trans (UInt64.le_of_lt hLow) hUpper)
        exact absurd hHigh hNotHigh
      · exact
          .inl
            ⟨Bool.eq_false_iff.mpr hLazy, hHigh, hNotLow⟩

/-
  Over a vault at par that accepts whatever cash there is,
  nothing can fail: a live manager with valid targets can
  rebalance a settled position whose total fits.
-/
theorem exists_rebalance
    (hSettled : Settled m key s)
    (hPool : m.poolId = poolId)
    (hLive : m.live = true)
    (hValid : m.targets.validate = .ok ())
    (hEntry :
      s.ledger.managedEntry key poolId m.token = .ok e)
    (hFits :
      e.cash.toNat + e.managed.toNat < UInt64.size)
    (hAccepts :
      e.cash.toNat ≠ 0 →
        ShareVault.Accepts key e.cash.toNat s.vault)
    (force : Bool) :
    ∃ outcome t,
      m.rebalance key poolId force s = .ok outcome t := by
  have hPar := hSettled.par
  rcases hSettled.managed with ⟨d, hFound, hManaged⟩
  rcases Ledger.managedEntry_eq_ok_iff.mp hEntry with
    ⟨-, hOwn, -, -⟩
  rw [hOwn, Except.ok.injEq] at hFound
  subst hFound
  have hValue :
      YieldVault.worth s.vault key = .ok e.managed :=
    hManaged ▸ hPar.worth key
  rcases FixedPoint.exists_toNat_eq hFits with
    ⟨total, hTotal⟩
  rcases Targets.exists_band hValid total with
    ⟨band, hBand, hWithin⟩
  have hWithinNat := UInt64.le_iff_toNat_le.mp hWithin
  apply (rebalance_succeeds_iff hPar.toIsConsistent hPool
    hLive hValid hEntry hValue hTotal hBand force).mpr
  intro _ hLow
  have hLess := UInt64.lt_iff_toNat_lt.mp hLow
  have hAmount :=
    UInt64.toNat_sub_of_le _ _ (UInt64.le_of_lt hLow)
  exact
    ⟨hPar.takes (hAccepts (by omega)) (by omega)
      (by omega), by omega⟩

end Manager

end YieldManager

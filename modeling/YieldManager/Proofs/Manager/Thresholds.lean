import YieldManager.Proofs.Manager.Total
import YieldManager.Vault.Faulty

/-
  When a rebalance acts, over any vault.  Inside the critical
  band an unforced rebalance does nothing.  Outside of it, it
  does what a forced one does, and moves toward what is
  desired: the band lies around that, so a value above the
  band cannot call for an investment, nor one below it for a
  divestment, and there is always something to move.

  Main declarations:
    * `Manager.moveTo_down`
    * `Manager.moveTo_up`
    * `Manager.rebalance_inside`
    * `Manager.rebalance_outside`
    * `Manager.FollowsBand`
    * `Manager.rebalance_follows_band`
-/

------------------------------------------------------------
-- Moving Toward What Is Desired
------------------------------------------------------------

namespace YieldManager

namespace Manager

variable {κ V : Type} [DecidableEq κ] [YieldVault κ V]
variable {m : Manager κ} {key poolId : κ}
variable {s t : Position κ V} {outcome : Outcome}

section Moves

variable [Zero κ] {desired value : UInt64}

/- From above, the excess is divested. -/
theorem moveTo_down
    (hHigh : desired < value)
    (hRun :
      m.moveTo key poolId desired value s =
        .ok outcome t) :
    ∃ amount,
      outcome = .divested amount ∧ 0 < amount ∧
        amount.toNat + desired.toNat = value.toNat := by
  have hLess := UInt64.lt_iff_toNat_lt.mp hHigh
  have hAmount :=
    UInt64.toNat_sub_of_le _ _ (UInt64.le_of_lt hHigh)
  rcases moveTo_eq_ok_iff.mp hRun with
    ⟨hLow, -⟩ | ⟨-, received, -, rfl⟩ | ⟨hEq, -⟩
  · exact absurd hLow (UInt64.lt_asymm hHigh)
  · refine ⟨_, rfl, ?_, by omega⟩
    rw [UInt64.lt_iff_toNat_lt, UInt64.toNat_zero]
    omega
  · exact absurd hEq (UInt64.ne_of_lt hHigh)

/- From below, what is missing is invested. -/
theorem moveTo_up
    (hLow : value < desired)
    (hRun :
      m.moveTo key poolId desired value s =
        .ok outcome t) :
    ∃ amount shares,
      outcome = .invested amount shares ∧ 0 < amount ∧
        amount.toNat + value.toNat = desired.toNat := by
  have hLess := UInt64.lt_iff_toNat_lt.mp hLow
  have hAmount :=
    UInt64.toNat_sub_of_le _ _ (UInt64.le_of_lt hLow)
  rcases moveTo_eq_ok_iff.mp hRun with
    ⟨-, shares, -, rfl⟩ | ⟨hHigh, -⟩ | ⟨hEq, -⟩
  · refine ⟨_, _, rfl, ?_, by omega⟩
    rw [UInt64.lt_iff_toNat_lt, UInt64.toNat_zero]
    omega
  · exact absurd hHigh (UInt64.lt_asymm hLow)
  · exact absurd hEq.symm (UInt64.ne_of_lt hLow)

/- A move is never skipped. -/
theorem moveTo_ne_skipped :
    m.moveTo key poolId desired value s ≠
      .ok .skipped t := by
  intro hRun
  rcases moveTo_eq_ok_iff.mp hRun with
    ⟨-, shares, -, hOutcome⟩ | ⟨-, received, -, hOutcome⟩ |
      ⟨-, -, hOutcome⟩ <;>
    cases hOutcome

end Moves

------------------------------------------------------------
-- Inside and Outside the Band
------------------------------------------------------------

variable [Zero κ]
variable {held : Balances} {total : UInt64} {band : Band}

/- Inside the band, nothing happens without force. -/
theorem rebalance_inside
    (hLive : m.live = true)
    (hHeld : m.poolBalances key poolId s = .ok held)
    (hTotal : held.total = .ok total)
    (hBand : m.targets.band total = .ok band)
    (hInside : band.isBreached held.managed = false) :
    m.rebalance key poolId false s = .ok .skipped s := by
  rw [rebalance_of_band hLive hHeld hTotal hBand false,
    hInside, Action.atomically_eq_ok_iff]
  rfl

/- Outside the band, force makes no difference. -/
theorem rebalance_outside
    (hLive : m.live = true)
    (hHeld : m.poolBalances key poolId s = .ok held)
    (hTotal : held.total = .ok total)
    (hBand : m.targets.band total = .ok band)
    (hBreached : band.isBreached held.managed = true)
    (force : Bool) :
    m.rebalance key poolId force s =
      Action.atomically
        (m.moveTo key poolId band.desired held.managed)
        s := by
  rw [rebalance_of_band hLive hHeld hTotal hBand force,
    hBreached, Bool.not_true, Bool.and_false]
  rfl

/-
  Without force, a rebalance is not balanced: it is skipped,
  or else the value is too far off to be what is desired.
-/
theorem rebalance_lazy_ne_balanced
    (hLive : m.live = true)
    (hValid : m.targets.validate = .ok ())
    (hHeld : m.poolBalances key poolId s = .ok held)
    (hTotal : held.total = .ok total)
    (hBand : m.targets.band total = .ok band) :
    m.rebalance key poolId false s ≠ .ok .balanced t := by
  intro hRun
  rcases Targets.band_ordered hValid hBand with
    ⟨hLower, hUpper⟩
  cases hBreached : band.isBreached held.managed with
  | false =>
      rw [rebalance_inside hLive hHeld hTotal hBand
        hBreached] at hRun
      cases hRun
  | true =>
      rw [rebalance_outside hLive hHeld hTotal hBand
        hBreached false, Action.atomically_eq_ok_iff] at hRun
      rcases Band.isBreached_iff.mp hBreached with
        hAbove | hBelow
      · rcases moveTo_down
            (UInt64.lt_of_le_of_lt hUpper hAbove) hRun with
          ⟨amount, hOutcome, -⟩
        cases hOutcome
      · rcases moveTo_up
            (UInt64.lt_of_lt_of_le hBelow hLower) hRun with
          ⟨amount, shares, hOutcome, -⟩
        cases hOutcome

/- A forced rebalance is not skipped. -/
theorem rebalance_forced_ne_skipped :
    m.rebalance key poolId true s ≠ .ok .skipped t := by
  intro hRun
  rcases rebalance_eq_ok_iff.mp hRun with
    ⟨-, -, _, _, _, _, -, -, -, -, hMove⟩
  exact moveTo_ne_skipped hMove

------------------------------------------------------------
-- Rebalances That Follow a Band
------------------------------------------------------------

/-
  What rebalances do at a value, given the band of the total.
  Where the value has left the band, at most one outcome is
  possible, and force does not change anything.
-/
structure FollowsBand
    (m : Manager κ)
    (key poolId : κ)
    (s : Position κ V)
    (value : UInt64)
    (band : Band) : Prop where
  inside :
    band.lower ≤ value → value ≤ band.upper →
      m.rebalance key poolId false s = .ok .skipped s
  above :
    band.upper < value →
      ∀ outcome t,
        m.rebalance key poolId false s = .ok outcome t →
          ∃ amount,
            outcome = .divested amount ∧ 0 < amount ∧
              amount.toNat + band.desired.toNat =
                value.toNat
  below :
    value < band.lower →
      ∀ outcome t,
        m.rebalance key poolId false s = .ok outcome t →
          ∃ amount shares,
            outcome = .invested amount shares ∧
              0 < amount ∧
              amount.toNat + value.toNat =
                band.desired.toNat
  outside :
    band.upper < value ∨ value < band.lower →
      m.rebalance key poolId false s =
        m.rebalance key poolId true s
  lazy :
    ∀ t, m.rebalance key poolId false s ≠ .ok .balanced t
  forced :
    ∀ t, m.rebalance key poolId true s ≠ .ok .skipped t

/-
  A live manager with valid targets follows the band of its
  pool's total, whatever its vault does, as long as the vault
  tells the value and the total fits.
-/
theorem rebalance_follows_band
    {books : Balances}
    {value : UInt64}
    (hLive : m.live = true)
    (hValid : m.targets.validate = .ok ())
    (hPool : m.poolId = poolId)
    (hBooks : s.ledger.balances poolId m.token = .ok books)
    (hValue : aum key s.vault = .ok value)
    (hFits :
      books.cash.toNat + value.toNat < UInt64.size) :
    ∃ total band,
      total.toNat = books.cash.toNat + value.toNat ∧
        m.targets.band total = .ok band ∧
        m.FollowsBand key poolId s value band := by
  rcases exists_poolBalances hPool hBooks hValue with
    ⟨held, hHeld, hCash, rfl⟩
  rw [← hCash] at hFits ⊢
  rcases Targets.exists_band_of_fits hValid hFits with
    ⟨total, band, hTotal, hBand⟩
  rcases Targets.band_ordered hValid hBand with
    ⟨hLower, hUpper⟩
  have hOutside :=
    fun hBreached =>
      rebalance_outside hLive hHeld hTotal hBand
        (Band.isBreached_iff.mpr hBreached)
  -- A success outside the band is a move to what is desired.
  have hMoved :
      band.upper < held.managed ∨ held.managed < band.lower →
        ∀ outcome t,
          m.rebalance key poolId false s = .ok outcome t →
            m.moveTo key poolId band.desired held.managed s =
              .ok outcome t := by
    intro hBreached outcome t hRun
    rw [hOutside hBreached false,
      Action.atomically_eq_ok_iff] at hRun
    exact hRun
  refine
    ⟨total, band, FixedPoint.add_eq_ok_iff.mp hTotal, hBand,
      { inside := ?_, above := ?_, below := ?_
        outside := ?_, lazy := ?_, forced := ?_ }⟩
  · intro hLow hHigh
    apply rebalance_inside hLive hHeld hTotal hBand
    exact Band.isBreached_eq_false_iff.mpr ⟨hLow, hHigh⟩
  · intro hAbove outcome t hRun
    exact
      moveTo_down (UInt64.lt_of_le_of_lt hUpper hAbove)
        (hMoved (.inl hAbove) outcome t hRun)
  · intro hBelow outcome t hRun
    exact
      moveTo_up (UInt64.lt_of_lt_of_le hBelow hLower)
        (hMoved (.inr hBelow) outcome t hRun)
  · intro hBreached
    rw [hOutside hBreached false, hOutside hBreached true]
  · intro t
    exact
      rebalance_lazy_ne_balanced hLive hValid hHeld hTotal
        hBand
  · intro t
    exact rebalance_forced_ne_skipped

/- A manager that should have invested half of the total. -/
def bandedManager : Manager Nat where
  poolId := 1
  token := 2
  custodian := 3
  vault := 4
  forwarder := 5
  gauge := none
  rebalancer := 6
  authority := 7
  targets :=
    { target := 500000000000000000
      upper := 600000000000000000
      lower := 400000000000000000 }
  live := true
  bump := 0

/-
  Its pool has 10 in cash, and 90 in a vault that delivers 7
  on top of what it is asked for.
-/
def generousPosition : Position Nat (FaultyVault Nat) where
  ledger :=
    { poolId := 1, authority := 7, relayer := 6
      entries :=
        [{ mint := 2, cash := 10, managed := 90
           manager := 8 }]
      bump := 0 }
  vault :=
    { shares :=
        { asset := 2, authority := 7, assets := 95
          supply := 95, feeBps := 0, fees := 0
          holdings :=
            [{ owner := 8, shares := 90 },
             { owner := 9, shares := 5 }]
          bump := 0 }
      issuesShares := true, deliversAll := true
      burnsShares := true, bonus := 7 }

/- With or without force, 40 of the 90 are divested. -/
theorem rebalance_follows_band_generousPosition :
    ∃ t : Position Nat (FaultyVault Nat),
      bandedManager.rebalance 8 1 false generousPosition =
          .ok (.divested 40) t ∧
        bandedManager.rebalance 8 1 true generousPosition =
          .ok (.divested 40) t ∧
        t.ledger.balances 1 2 =
          .ok { cash := 50, managed := 50 } := by
  have hLazy :
      ∃ t : Position Nat (FaultyVault Nat),
        bandedManager.rebalance 8 1 false generousPosition =
            .ok (.divested 40) t ∧
          t.ledger.balances 1 2 =
            .ok { cash := 50, managed := 50 } :=
    ⟨_, rfl, rfl⟩
  rcases hLazy with ⟨t, hRun, hBalances⟩
  have hBooks :
      generousPosition.ledger.balances 1
          bandedManager.token =
        .ok { cash := 10, managed := 90 } :=
    rfl
  have hValue : aum 8 generousPosition.vault = .ok 90 := rfl
  rcases rebalance_follows_band (m := bandedManager) rfl rfl
      rfl hBooks hValue (by decide) with
    ⟨total, band, hTotal, hBand, hFollows⟩
  have hHundred : total = 100 := UInt64.toNat_inj.mp hTotal
  have hAbove : band.upper < 90 := by
    rw [hHundred] at hBand
    cases hBand
    decide
  have hSame := hFollows.outside (.inl hAbove)
  exact ⟨t, hRun, hSame.symm.trans hRun, hBalances⟩

end Manager

end YieldManager

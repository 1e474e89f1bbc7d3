import Mathlib.Algebra.Ring.Nat
import YieldManager.Band
import YieldManager.Proofs.Action
import YieldManager.Proofs.FixedPoint

/-
  Bands of valid targets.  Against every total they resolve,
  and none asks for more than the total.

  Main declarations:
    * `Targets.validate_eq_ok_iff`
    * `Targets.band_eq_ok_iff`
    * `Targets.exists_band`
    * `Targets.band_ordered`
    * `Targets.band_rises`
    * `Targets.desired_near`
    * `Targets.lower_mono`
    * `Targets.band_floors`
    * `Targets.levels_follow_total`
    * `Band.isBreached_iff`
-/

------------------------------------------------------------
-- Valid Targets
------------------------------------------------------------

namespace YieldManager

/- Every level rises, by no more than the given number. -/
structure Band.Rises
    (more : Nat)
    (before after : Band) : Prop where
  desired :
    FixedPoint.Rises more before.desired after.desired
  upper : FixedPoint.Rises more before.upper after.upper
  lower : FixedPoint.Rises more before.lower after.lower

namespace Targets

/- Targets are valid when they are ordered up to 1.0. -/
theorem validate_eq_ok_iff
    {targets : Targets}
    {u : Unit} :
    targets.validate = .ok u ↔
      targets.upper ≤ FixedPoint.one ∧
        targets.target ≤ targets.upper ∧
        targets.lower ≤ targets.target := by
  simp [validate]

/- A band is made of the three fractions of the total. -/
theorem band_eq_ok_iff
    {targets : Targets}
    {total : UInt64}
    {band : Band} :
    targets.band total = .ok band ↔
      FixedPoint.portion total targets.target =
          .ok band.desired ∧
        FixedPoint.portion total targets.upper =
          .ok band.upper ∧
        FixedPoint.portion total targets.lower =
          .ok band.lower := by
  simp only [Targets.band, Except.bind_eq_ok_iff,
    Except.pure_eq_ok_iff]
  constructor
  · intro hSteps
    rcases hSteps with
      ⟨desired, hDesired, upper, hUpper, lower, hLower, rfl⟩
    exact ⟨hDesired, hUpper, hLower⟩
  · intro hSteps
    rcases hSteps with ⟨hDesired, hUpper, hLower⟩
    exact
      ⟨band.desired, hDesired, band.upper, hUpper,
        band.lower, hLower, rfl⟩

/- Valid targets resolve within every total. -/
theorem exists_band
    {targets : Targets}
    (hValid : targets.validate = .ok ())
    (total : UInt64) :
    ∃ band,
      targets.band total = .ok band ∧
        band.desired ≤ total := by
  rcases validate_eq_ok_iff.mp hValid with
    ⟨hUpper, hTarget, hLower⟩
  have hTargetOne := UInt64.le_trans hTarget hUpper
  have hLowerOne := UInt64.le_trans hLower hTargetOne
  rcases FixedPoint.exists_portion total hTargetOne with
    ⟨desired, hDesired, hWithin⟩
  rcases FixedPoint.exists_portion total hUpper with
    ⟨upper, hUpperPart, -⟩
  rcases FixedPoint.exists_portion total hLowerOne with
    ⟨lower, hLowerPart, -⟩
  exact
    ⟨{ desired := desired, upper := upper, lower := lower },
      band_eq_ok_iff.mpr
        ⟨hDesired, hUpperPart, hLowerPart⟩,
      hWithin⟩

/- The band of valid targets lies around what is desired. -/
theorem band_ordered
    {targets : Targets}
    {total : UInt64}
    {band : Band}
    (hValid : targets.validate = .ok ())
    (hBand : targets.band total = .ok band) :
    band.lower ≤ band.desired ∧
      band.desired ≤ band.upper := by
  rcases validate_eq_ok_iff.mp hValid with
    ⟨-, hUpper, hLower⟩
  rcases band_eq_ok_iff.mp hBand with
    ⟨hDesired, hHigh, hLow⟩
  have hSame := UInt64.le_refl total
  exact
    ⟨FixedPoint.portion_mono hSame hLower hLow hDesired,
      FixedPoint.portion_mono hSame hUpper hDesired hHigh⟩

/- A band rises no more than the total that it is of. -/
theorem band_rises
    {targets : Targets}
    {total total' : UInt64}
    {band band' : Band}
    {more : Nat}
    (hValid : targets.validate = .ok ())
    (hTotal : FixedPoint.Rises more total total')
    (hBand : targets.band total = .ok band)
    (hBand' : targets.band total' = .ok band') :
    Band.Rises more band band' := by
  rcases validate_eq_ok_iff.mp hValid with
    ⟨hUpper, hTarget, hLower⟩
  have hTargetOne := UInt64.le_trans hTarget hUpper
  have hLowerOne := UInt64.le_trans hLower hTargetOne
  rcases band_eq_ok_iff.mp hBand with
    ⟨hDesired, hHigh, hLow⟩
  rcases band_eq_ok_iff.mp hBand' with
    ⟨hDesired', hHigh', hLow'⟩
  exact
    { desired :=
        FixedPoint.portion_rises hTargetOne hTotal
          hDesired hDesired'
      upper :=
        FixedPoint.portion_rises hUpper hTotal hHigh hHigh'
      lower :=
        FixedPoint.portion_rises hLowerOne hTotal hLow hLow' }

/- With less in total, less is desired, by no more. -/
theorem desired_near
    {targets : Targets}
    {total total' : UInt64}
    {band band' : Band}
    {less : Nat}
    (hValid : targets.validate = .ok ())
    (hTotal : total'.toNat + less = total.toNat)
    (hBand : targets.band total = .ok band)
    (hBand' : targets.band total' = .ok band') :
    band'.desired ≤ band.desired ∧
      band.desired.toNat ≤ band'.desired.toNat + less := by
  have hLess : total' ≤ total := by
    rw [UInt64.le_iff_toNat_le]
    omega
  have hRises : FixedPoint.Rises less total' total :=
    ⟨hLess, Nat.le_of_eq hTotal.symm⟩
  exact (band_rises hValid hRises hBand' hBand).desired

/- With less in total, the lower end of the band sinks. -/
theorem lower_mono
    {targets : Targets}
    {total total' : UInt64}
    {band band' : Band}
    (hTotal : total ≤ total')
    (hBand : targets.band total = .ok band)
    (hBand' : targets.band total' = .ok band') :
    band.lower ≤ band'.lower :=
  FixedPoint.portion_mono hTotal
    (UInt64.le_refl targets.lower)
    (band_eq_ok_iff.mp hBand).2.2
    (band_eq_ok_iff.mp hBand').2.2

------------------------------------------------------------
-- Levels
------------------------------------------------------------

/- Targets are valid when they are ordered below 10^18. -/
theorem validate_eq_ok_iff_ordered
    {targets : Targets} :
    targets.validate = .ok () ↔
      targets.lower ≤ targets.target ∧
        targets.target ≤ targets.upper ∧
        targets.upper.toNat ≤ 10 ^ 18 := by
  have hOne : FixedPoint.one.toNat = 10 ^ 18 := rfl
  rw [validate_eq_ok_iff, ← hOne,
    ← UInt64.le_iff_toNat_le]
  exact ⟨fun h => ⟨h.2.2, h.2.1, h.1⟩,
    fun h => ⟨h.2.2, h.2.1, h.1⟩⟩

/- The levels of a band are exact fractions, rounded down. -/
theorem band_floors
    {targets : Targets}
    {total : UInt64}
    {band : Band}
    (hBand : targets.band total = .ok band) :
    band.lower.toNat =
        total.toNat * targets.lower.toNat / 10 ^ 18 ∧
      band.desired.toNat =
        total.toNat * targets.target.toNat / 10 ^ 18 ∧
      band.upper.toNat =
        total.toNat * targets.upper.toNat / 10 ^ 18 := by
  rcases band_eq_ok_iff.mp hBand with
    ⟨hDesired, hHigh, hLow⟩
  exact
    ⟨(FixedPoint.mulDivDown_eq_ok_iff.mp hLow).2,
      (FixedPoint.mulDivDown_eq_ok_iff.mp hDesired).2,
      (FixedPoint.mulDivDown_eq_ok_iff.mp hHigh).2⟩

/- No level of a band of valid targets exceeds the total. -/
theorem upper_le_total
    {targets : Targets}
    {total : UInt64}
    {band : Band}
    (hValid : targets.validate = .ok ())
    (hBand : targets.band total = .ok band) :
    band.upper ≤ total := by
  rcases validate_eq_ok_iff.mp hValid with ⟨hUpper, -, -⟩
  rcases FixedPoint.exists_portion total hUpper with
    ⟨upper, hPart, hWithin⟩
  have hSame := hPart.symm.trans (band_eq_ok_iff.mp hBand).2.1
  cases hSame
  exact UInt64.le_iff_toNat_le.mpr hWithin

/-
  Targets are valid when they are ordered up to 1.0.  Valid
  targets have a band within every total: its levels are the
  exact fractions rounded down, in order and within the
  total.  With less in total no level rises, and none sinks
  by more than the total does.
-/
theorem levels_follow_total
    (targets : Targets) :
    (targets.validate = .ok () ↔
      targets.lower ≤ targets.target ∧
        targets.target ≤ targets.upper ∧
        targets.upper.toNat ≤ 10 ^ 18) ∧
      (targets.validate = .ok () →
        ∀ total, ∃ band,
          targets.band total = .ok band ∧
            (band.lower.toNat =
                total.toNat * targets.lower.toNat / 10 ^ 18 ∧
              band.desired.toNat =
                total.toNat * targets.target.toNat / 10 ^ 18 ∧
              band.upper.toNat =
                total.toNat * targets.upper.toNat /
                  10 ^ 18) ∧
            (band.lower ≤ band.desired ∧
              band.desired ≤ band.upper ∧
              band.upper ≤ total) ∧
            ∀ d ≤ total, ∃ band',
              targets.band (total - d) = .ok band' ∧
                Band.Rises d.toNat band' band) := by
  refine ⟨validate_eq_ok_iff_ordered, ?_⟩
  intro hValid total
  rcases exists_band hValid total with ⟨band, hBand, -⟩
  rcases band_ordered hValid hBand with ⟨hLower, hUpper⟩
  have hWithin := upper_le_total hValid hBand
  refine
    ⟨band, hBand, band_floors hBand,
      ⟨hLower, hUpper, hWithin⟩, ?_⟩
  intro d hLess
  rcases exists_band hValid (total - d) with
    ⟨band', hBand', -⟩
  exact
    ⟨band', hBand',
      band_rises hValid (FixedPoint.rises_of_sub hLess)
        hBand' hBand⟩

/- Invest 80% of a total, or between 10% and 90% of it. -/
private def mostly : Targets where
  target := 800000000000000000
  upper := 900000000000000000
  lower := 100000000000000000

/- Of nine, seven are invested; of eight, only six. -/
theorem levels_follow_total_mostly :
    mostly.validate = .ok () ∧
      mostly.band 9 =
        .ok { desired := 7, upper := 8, lower := 0 } ∧
      Band.Rises 1
        { desired := 6, upper := 7, lower := 0 }
        { desired := 7, upper := 8, lower := 0 } := by
  have hValid : mostly.validate = .ok () :=
    validate_eq_ok_iff_ordered.mpr (by decide)
  rcases (levels_follow_total mostly).2 hValid 9 with
    ⟨band, hBand, -, -, hNear⟩
  rcases hNear 1 (by decide) with ⟨band', hBand', hRises⟩
  cases hBand
  cases hBand'
  exact ⟨hValid, rfl, hRises⟩

end Targets

------------------------------------------------------------
-- Breaches
------------------------------------------------------------

namespace Band

variable {band : Band} {value : UInt64}

/- A band is breached above or below. -/
theorem isBreached_iff :
    band.isBreached value = true ↔
      band.upper < value ∨ value < band.lower := by
  simp [isBreached]

/- What is not breached lies between the two ends. -/
theorem isBreached_eq_false_iff :
    band.isBreached value = false ↔
      band.lower ≤ value ∧ value ≤ band.upper := by
  simp [isBreached, and_comm]

end Band

end YieldManager

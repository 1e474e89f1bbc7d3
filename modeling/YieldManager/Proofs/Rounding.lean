import Mathlib.Algebra.Order.Floor.Div
import Mathlib.Algebra.Order.Floor.Semifield
import Mathlib.Data.Rat.Floor
import YieldManager.Proofs.FixedPoint

/-
  Quotients of amounts are compared with the fractions that
  they stand for.  Rounding is the only thing that separates
  the two: a quotient is refused when its divisor is zero or
  when the rounded fraction is not an amount, and never for
  the product that it starts from.  Rounding down and rounding
  up are adjoint to each other.

  Main declarations:
    * `FixedPoint.fraction`
    * `FixedPoint.Rounds`
    * `FixedPoint.rounds_mulDivDown`
    * `FixedPoint.rounds_mulDivUp`
    * `FixedPoint.le_floor_iff_ceil_le`
    * `FixedPoint.quotients_exact`
-/

------------------------------------------------------------
-- Fractions
------------------------------------------------------------

namespace YieldManager

namespace FixedPoint

/- The fraction `a * b / c`, as it is. -/
def fraction (a b c : UInt64) : ℚ :=
  (a.toNat : ℚ) * b.toNat / c.toNat

/- The floor of a fraction is a quotient of numbers. -/
theorem floor_fraction (a b c : UInt64) :
    ⌊fraction a b c⌋₊ = a.toNat * b.toNat / c.toNat := by
  rw [fraction, ← Nat.cast_mul, Nat.floor_div_eq_div]

/- The ceiling of a fraction is a quotient of numbers. -/
theorem ceil_fraction
    (a b : UInt64)
    {c : UInt64}
    (hDivisor : c ≠ 0) :
    ⌈fraction a b c⌉₊ =
      (a.toNat * b.toNat + c.toNat - 1) / c.toNat := by
  have hPos := toNat_pos hDivisor
  have hCast : (0 : ℚ) < c.toNat := Nat.cast_pos.mpr hPos
  rw [← Nat.ceilDiv_eq_add_pred_div]
  apply eq_of_forall_ge_iff
  intro n
  rw [Nat.ceil_le, ceilDiv_le_iff_le_mul hPos, fraction,
    div_le_iff₀ hCast, Nat.mul_comm c.toNat]
  exact_mod_cast Iff.rfl

/-
  The two roundings are adjoint: an amount is at most the
  floor of `s * b / c` exactly when the ceiling of its own
  fraction the other way, `x * c / b`, is at most `s`.
-/
theorem le_floor_iff_ceil_le
    {s x b c : UInt64}
    (hLeft : 0 < b)
    (hRight : 0 < c) :
    x.toNat ≤ ⌊fraction s b c⌋₊ ↔
      ⌈fraction x c b⌉₊ ≤ s.toNat := by
  have hb : (0 : ℚ) < b.toNat :=
    Nat.cast_pos.mpr (UInt64.lt_iff_toNat_lt.mp hLeft)
  have hc : (0 : ℚ) < c.toNat :=
    Nat.cast_pos.mpr (UInt64.lt_iff_toNat_lt.mp hRight)
  have hNonneg : 0 ≤ fraction s b c := by
    unfold fraction
    positivity
  rw [Nat.le_floor_iff hNonneg, Nat.ceil_le, fraction,
    fraction, le_div_iff₀ hc, div_le_iff₀ hb]

------------------------------------------------------------
-- Rounded Quotients
------------------------------------------------------------

/-
  A quotient of amounts is the fraction, rounded in the given
  way.  It is answered exactly when the divisor is positive
  and the rounded fraction fits in 64 bits; otherwise there is
  an overflow.
-/
structure Rounds
    (round : ℚ → Nat)
    (quotient :
      UInt64 → UInt64 → UInt64 → Except Error UInt64) :
    Prop where
  succeeds_iff :
    ∀ a b c,
      (∃ q, quotient a b c = .ok q) ↔
        0 < c ∧ round (fraction a b c) < 2 ^ 64
  answers :
    ∀ a b c q,
      quotient a b c = .ok q →
        q.toNat = round (fraction a b c)
  overflows :
    ∀ a b c e,
      quotient a b c = .error e → e = .mathOverflow

/- A number is an amount exactly when it fits in 64 bits. -/
private theorem ofNat_succeeds_iff
    {n : Nat} :
    (∃ q, ofNat n = .ok q) ↔ n < 2 ^ 64 := by
  constructor
  · intro hAnswer
    rcases hAnswer with ⟨q, hAnswer⟩
    rw [← ofNat_eq_ok_iff.mp hAnswer]
    exact q.toNat_lt
  · intro hFits
    rcases exists_toNat_eq hFits with ⟨q, hNat⟩
    exact ⟨q, ofNat_eq_ok_iff.mpr hNat⟩

/-
  A quotient is rounded if it refuses a divisor of zero and
  otherwise makes an amount of the rounded fraction.
-/
private theorem rounds_of_eq
    {round : ℚ → Nat}
    {quotient :
      UInt64 → UInt64 → UInt64 → Except Error UInt64}
    (hZero : ∀ a b, quotient a b 0 = .error .mathOverflow)
    (hDivides :
      ∀ a b c,
        c ≠ 0 →
          quotient a b c = ofNat (round (fraction a b c))) :
    Rounds round quotient := by
  have hCases :
      ∀ a b c,
        c = 0 ∧ quotient a b c = .error .mathOverflow ∨
          0 < c ∧
            quotient a b c =
              ofNat (round (fraction a b c)) := by
    intro a b c
    rcases eq_or_ne c 0 with rfl | hDivisor
    · exact .inl ⟨rfl, hZero a b⟩
    · exact
        .inr
          ⟨UInt64.pos_iff_ne_zero.mpr hDivisor,
            hDivides a b c hDivisor⟩
  constructor
  · intro a b c
    rcases hCases a b c with ⟨rfl, hError⟩ | ⟨hc, hEq⟩
    · simp [hError]
    · rw [hEq, ofNat_succeeds_iff]
      exact (and_iff_right hc).symm
  · intro a b c q hAnswer
    rcases hCases a b c with ⟨-, hError⟩ | ⟨-, hEq⟩
    · rw [hError] at hAnswer
      cases hAnswer
    · rw [hEq] at hAnswer
      exact ofNat_eq_ok_iff.mp hAnswer
  · intro a b c e hError
    rcases hCases a b c with ⟨-, hZero⟩ | ⟨-, hEq⟩
    · rw [hZero] at hError
      cases hError
      rfl
    · rw [hEq] at hError
      exact List.mem_singleton.mp (failsFor_ofNat _ e hError)

/- Rounding down gives the floor of the fraction. -/
theorem rounds_mulDivDown : Rounds Nat.floor mulDivDown := by
  apply rounds_of_eq
  · intro a b
    rfl
  · intro a b c hDivisor
    rw [mulDivDown_eq a b hDivisor, floor_fraction]

/- Rounding up gives the ceiling of the fraction. -/
theorem rounds_mulDivUp : Rounds Nat.ceil mulDivUp := by
  apply rounds_of_eq
  · intro a b
    rfl
  · intro a b c hDivisor
    rw [mulDivUp_eq a b hDivisor, ceil_fraction a b hDivisor]

/-
  The two quotients of amounts are exact: one is the floor and
  the other the ceiling of the fraction, whenever that fits.
  The product they start from always fits in 128 bits.  Where
  both are answered they are adjoint: rounding down stays at
  or above an amount exactly when rounding up the other way
  stays at or below what was divided.
-/
theorem quotients_exact :
    Rounds Nat.floor mulDivDown ∧
      Rounds Nat.ceil mulDivUp ∧
      (∀ a b, ∃ p,
        product a b = .ok p ∧
          p.toNat = a.toNat * b.toNat) ∧
      ∀ s x b c d u,
        0 < b → 0 < c →
          mulDivDown s b c = .ok d →
            mulDivUp x c b = .ok u → (x ≤ d ↔ u ≤ s) := by
  refine
    ⟨rounds_mulDivDown, rounds_mulDivUp, exists_product, ?_⟩
  intro s x b c d u hb hc hDown hUp
  rw [UInt64.le_iff_toNat_le, UInt64.le_iff_toNat_le,
    rounds_mulDivDown.answers s b c d hDown,
    rounds_mulDivUp.answers x c b u hUp]
  exact le_floor_iff_ceil_le hb hc

/-
  Three quarters of 2^64 - 2 are 13835058055282163710 and a
  half.  One more than the floor takes 2^64 - 1.
-/
theorem quotients_exact_threeQuarters :
    mulDivDown 18446744073709551614 3 4 =
        .ok 13835058055282163710 ∧
      mulDivUp 13835058055282163711 4 3 =
        .ok 18446744073709551615 ∧
      ((13835058055282163711 : UInt64) ≤
          13835058055282163710 ↔
        (18446744073709551615 : UInt64) ≤
          18446744073709551614) :=
  ⟨rfl, rfl,
    quotients_exact.2.2.2 _ _ 3 4 _ _ (by decide) (by decide)
      rfl rfl⟩

end FixedPoint

end YieldManager

import Mathlib.Algebra.Ring.Nat
import YieldManager.FixedPoint
import YieldManager.Proofs.Action

/-
  The arithmetic of amounts, seen in the natural numbers.  An
  operation succeeds exactly when some amount is the exact
  result, and then it answers that amount; so each operation
  is characterised by one equation.

  Main declarations:
    * `FixedPoint.ofNat_eq_ok_iff`
    * `FixedPoint.add_eq_ok_iff`
    * `FixedPoint.sub_eq_ok_iff`
    * `FixedPoint.exists_product`
    * `FixedPoint.mulDivDown_eq_ok_iff`
    * `FixedPoint.mulDivUp_eq_ok_iff`
    * `FixedPoint.mulDivDown_self`
    * `FixedPoint.mulDivUp_self`
    * `FixedPoint.portion_mono`
    * `FixedPoint.portion_le_add`
    * `FixedPoint.Rises`
    * `FixedPoint.portion_rises`
    * `FixedPoint.failsFor_add`
    * `FixedPoint.failsFor_mulDivDown`
-/

------------------------------------------------------------
-- Exact Results
------------------------------------------------------------

namespace YieldManager

namespace FixedPoint

/- Every number below the bound is an amount. -/
theorem exists_toNat_eq
    {n : Nat}
    (hFits : n < UInt64.size) :
    ∃ w : UInt64, w.toNat = n :=
  ⟨UInt64.ofNat n, UInt64.toNat_ofNat_of_lt' hFits⟩

/- A number becomes the amount that it is. -/
theorem ofNat_eq_ok_iff
    {n : Nat}
    {w : UInt64} :
    ofNat n = .ok w ↔ w.toNat = n := by
  unfold ofNat
  by_cases hFits : n < UInt64.size
  · have hNat : (UInt64.ofNat n).toNat = n :=
      UInt64.toNat_ofNat_of_lt' hFits
    rw [if_pos hFits]
    constructor
    · intro hEq
      cases hEq
      exact hNat
    · intro hEq
      rw [UInt64.toNat_inj.mp (hEq.trans hNat.symm)]
  · rw [if_neg hFits]
    have hBound := w.toNat_lt_size
    constructor
    · intro hEq
      cases hEq
    · intro hEq
      omega

/- A sum succeeds with the exact sum. -/
theorem add_eq_ok_iff
    {a b c : UInt64} :
    add a b = .ok c ↔ c.toNat = a.toNat + b.toNat :=
  ofNat_eq_ok_iff

/- A difference succeeds with the exact difference. -/
theorem sub_eq_ok_iff
    {a b c : UInt64}
    {e : Error} :
    sub a b e = .ok c ↔ c.toNat + b.toNat = a.toNat := by
  unfold sub
  by_cases hLe : b ≤ a
  · have hNat : (a - b).toNat = a.toNat - b.toNat :=
      UInt64.toNat_sub_of_le a b hLe
    have hLeNat : b.toNat ≤ a.toNat :=
      UInt64.le_iff_toNat_le.mp hLe
    rw [if_pos hLe]
    constructor
    · intro hEq
      cases hEq
      omega
    · intro hEq
      have hVal : c.toNat = (a - b).toNat := by omega
      rw [UInt64.toNat_inj.mp hVal]
  · rw [if_neg hLe]
    have hLt : ¬ b.toNat ≤ a.toNat :=
      fun h => hLe (UInt64.le_iff_toNat_le.mpr h)
    constructor
    · intro hEq
      cases hEq
    · intro hEq
      omega

------------------------------------------------------------
-- Wide Words
------------------------------------------------------------

/- An amount keeps its value in 128 bits. -/
theorem toNat_widen (a : UInt64) :
    (widen a).toNat = a.toNat := by
  have hLess := a.toNat_lt
  rw [widen, BitVec.toNat_setWidth, UInt64.toNat_toBitVec]
  exact Nat.mod_eq_of_lt (by omega)

/- The product of two amounts is below 2^128. -/
theorem mul_lt_wide (a b : UInt64) :
    a.toNat * b.toNat < 2 ^ 128 :=
  calc
    a.toNat * b.toNat
        < 2 ^ 64 * 2 ^ 64 :=
        Nat.mul_lt_mul'' a.toNat_lt b.toNat_lt
    _ = 2 ^ 128 := by decide

/- Every product of two amounts is formed, and exact. -/
theorem exists_product (a b : UInt64) :
    ∃ p, product a b = .ok p ∧
      p.toNat = a.toNat * b.toNat := by
  have hFits := mul_lt_wide a b
  have hExact :
      (widen a * widen b).toNat = a.toNat * b.toNat := by
    rw [BitVec.toNat_mul, toNat_widen, toNat_widen]
    exact Nat.mod_eq_of_lt hFits
  have hNone : ¬ (widen a).umulOverflow (widen b) = true := by
    rw [BitVec.umulOverflow, toNat_widen, toNat_widen,
      decide_eq_true_eq]
    omega
  exact ⟨widen a * widen b, if_neg hNone, hExact⟩

/- A ceiling is one above the floor where a rest is left. -/
private theorem ceil_eq
    (p : Nat)
    {c : Nat}
    (hPos : 0 < c) :
    (p + c - 1) / c =
      if p % c = 0 then p / c else p / c + 1 := by
  have hSplit := Nat.div_add_mod p c
  have hRest := Nat.mod_lt p hPos
  by_cases hExact : p % c = 0
  · have hSum : p + c - 1 = c * (p / c) + (c - 1) := by omega
    have hLess : (c - 1) / c = 0 :=
      Nat.div_eq_of_lt (Nat.sub_one_lt_of_lt hPos)
    rw [if_pos hExact, hSum, Nat.mul_add_div hPos, hLess,
      Nat.add_zero]
  · have hSum :
        p + c - 1 = c * (p / c + 1) + (p % c - 1) := by
      rw [Nat.mul_succ]
      omega
    have hLess : (p % c - 1) / c = 0 :=
      Nat.div_eq_of_lt (by omega)
    rw [if_neg hExact, hSum, Nat.mul_add_div hPos, hLess,
      Nat.add_zero]

/- Rounding a quotient up stays within 128 bits. -/
theorem toNat_divUp
    {p c : BitVec 128}
    (hPos : 0 < c.toNat) :
    (divUp p c).toNat =
      (p.toNat + c.toNat - 1) / c.toNat := by
  have hZero : p % c = 0 ↔ p.toNat % c.toNat = 0 := by
    rw [← BitVec.toNat_inj, BitVec.toNat_umod]
    rfl
  unfold divUp
  rw [ceil_eq p.toNat hPos]
  by_cases hExact : p % c = 0
  · rw [if_pos hExact, if_pos (hZero.mp hExact),
      BitVec.toNat_udiv]
  · have hRest := mt hZero.mpr hExact
    -- A divisor that leaves a rest is at least 2, so that the
    -- floor is below 2^127.
    have hTwo : 2 ≤ c.toNat := by
      rcases Nat.lt_or_ge 1 c.toNat with hTwo | hOne
      · exact hTwo
      · have hEq : c.toNat = 1 := Nat.le_antisymm hOne hPos
        exact absurd (hEq ▸ Nat.mod_one p.toNat) hRest
    have hHalf : p.toNat / c.toNat ≤ p.toNat / 2 :=
      Nat.div_le_div_left hTwo (by decide)
    have hWord := p.isLt
    have hFits : p.toNat / c.toNat + 1 < 2 ^ 128 := by omega
    rw [if_neg hExact, if_neg hRest, BitVec.toNat_add,
      BitVec.toNat_udiv]
    exact Nat.mod_eq_of_lt hFits

------------------------------------------------------------
-- Quotients
------------------------------------------------------------

/- A divisor other than zero is positive. -/
theorem toNat_pos
    {c : UInt64}
    (hDivisor : c ≠ 0) :
    0 < c.toNat := by
  apply Nat.pos_of_ne_zero
  intro hZero
  exact hDivisor (UInt64.toNat_inj.mp hZero)

/- The quotient taken in 128 bits is the exact floor. -/
theorem mulDivDown_eq
    (a b : UInt64)
    {c : UInt64}
    (hDivisor : c ≠ 0) :
    mulDivDown a b c =
      ofNat (a.toNat * b.toNat / c.toNat) := by
  rcases exists_product a b with ⟨p, hProduct, hExact⟩
  unfold mulDivDown
  rw [if_neg hDivisor, hProduct, ← hExact, ← toNat_widen c]
  rfl

/- The quotient taken in 128 bits is the exact ceiling. -/
theorem mulDivUp_eq
    (a b : UInt64)
    {c : UInt64}
    (hDivisor : c ≠ 0) :
    mulDivUp a b c =
      ofNat
        ((a.toNat * b.toNat + c.toNat - 1) / c.toNat) := by
  rcases exists_product a b with ⟨p, hProduct, hExact⟩
  have hPos : 0 < (widen c).toNat := by
    rw [toNat_widen]
    exact toNat_pos hDivisor
  unfold mulDivUp
  rw [if_neg hDivisor, hProduct, ← hExact, ← toNat_widen c,
    ← toNat_divUp hPos]
  rfl
/- A quotient is rounded down. -/
theorem mulDivDown_eq_ok_iff
    {a b c d : UInt64} :
    mulDivDown a b c = .ok d ↔
      c ≠ 0 ∧ d.toNat = a.toNat * b.toNat / c.toNat := by
  by_cases hDivisor : c = 0
  · simp [mulDivDown, hDivisor]
  · rw [mulDivDown_eq a b hDivisor, ofNat_eq_ok_iff]
    simp [hDivisor]

/- A quotient is rounded up. -/
theorem mulDivUp_eq_ok_iff
    {a b c d : UInt64} :
    mulDivUp a b c = .ok d ↔
      c ≠ 0 ∧
        d.toNat =
          (a.toNat * b.toNat + c.toNat - 1) / c.toNat := by
  by_cases hDivisor : c = 0
  · simp [mulDivUp, hDivisor]
  · rw [mulDivUp_eq a b hDivisor, ofNat_eq_ok_iff]
    simp [hDivisor]

/- Nothing is rounded off when the factors cancel. -/
theorem mulDivDown_self
    (a : UInt64)
    {c : UInt64}
    (hDivisor : c ≠ 0) :
    mulDivDown a c c = .ok a := by
  rw [mulDivDown_eq_ok_iff]
  exact
    ⟨hDivisor,
      (Nat.mul_div_cancel _ (toNat_pos hDivisor)).symm⟩

/- Nothing is rounded up when the factors cancel. -/
theorem mulDivUp_self
    (a : UInt64)
    {c : UInt64}
    (hDivisor : c ≠ 0) :
    mulDivUp a c c = .ok a := by
  have hPos := toNat_pos hDivisor
  rw [mulDivUp_eq_ok_iff]
  refine ⟨hDivisor, ?_⟩
  rw [Nat.add_sub_assoc hPos, Nat.mul_comm,
    Nat.mul_add_div hPos, Nat.div_eq_of_lt (by omega)]
  rfl

/- A larger fraction of a larger amount is no smaller. -/
theorem portion_mono
    {amount amount' fraction fraction' part part' : UInt64}
    (hAmount : amount ≤ amount')
    (hFraction : fraction ≤ fraction')
    (hPart : portion amount fraction = .ok part)
    (hPart' : portion amount' fraction' = .ok part') :
    part ≤ part' := by
  rw [portion, mulDivDown_eq_ok_iff] at hPart hPart'
  rw [UInt64.le_iff_toNat_le, hPart.2, hPart'.2]
  apply Nat.div_le_div_right
  apply Nat.mul_le_mul
  · exact UInt64.le_iff_toNat_le.mp hAmount
  · exact UInt64.le_iff_toNat_le.mp hFraction

/-
  If an amount shrinks, a fraction of at most 1.0 of it
  shrinks by no more: what is rounded off makes up for itself.
-/
theorem portion_le_add
    {amount amount' fraction part part' : UInt64}
    {less : Nat}
    (hFraction : fraction ≤ one)
    (hAmount : amount.toNat ≤ amount'.toNat + less)
    (hPart : portion amount fraction = .ok part)
    (hPart' : portion amount' fraction = .ok part') :
    part.toNat ≤ part'.toNat + less := by
  rw [portion, mulDivDown_eq_ok_iff] at hPart hPart'
  have hOne : 0 < one.toNat := by decide
  have hLe := UInt64.le_iff_toNat_le.mp hFraction
  calc
    part.toNat
        = amount.toNat * fraction.toNat / one.toNat := hPart.2
    _ ≤ (amount'.toNat + less) * fraction.toNat /
          one.toNat :=
        Nat.div_le_div_right (Nat.mul_le_mul_right _ hAmount)
    _ ≤ (amount'.toNat * fraction.toNat +
          less * one.toNat) / one.toNat := by
        apply Nat.div_le_div_right
        rw [Nat.add_mul]
        exact
          Nat.add_le_add_left (Nat.mul_le_mul_left _ hLe) _
    _ = amount'.toNat * fraction.toNat / one.toNat + less :=
        Nat.add_mul_div_right _ _ hOne
    _ = part'.toNat + less := by rw [hPart'.2]

/-
  An amount becomes another one that is no less, and no more
  than the given number above it.
-/
def Rises
    (more : Nat)
    (before after : UInt64) : Prop :=
  before ≤ after ∧ after.toNat ≤ before.toNat + more

/- A fraction of at most 1.0 rises no more than the whole. -/
theorem portion_rises
    {amount amount' fraction part part' : UInt64}
    {more : Nat}
    (hFraction : fraction ≤ one)
    (hAmount : Rises more amount amount')
    (hPart : portion amount fraction = .ok part)
    (hPart' : portion amount' fraction = .ok part') :
    Rises more part part' := by
  rcases hAmount with ⟨hLess, hMore⟩
  exact
    ⟨portion_mono hLess (UInt64.le_refl fraction) hPart hPart',
      portion_le_add hFraction hMore hPart' hPart⟩

/- Taking an amount away is what adding it back makes up. -/
theorem rises_of_sub
    {total d : UInt64}
    (hLess : d ≤ total) :
    Rises d.toNat (total - d) total := by
  have hNat := UInt64.toNat_sub_of_le total d hLess
  have hLessNat := UInt64.le_iff_toNat_le.mp hLess
  refine ⟨UInt64.le_iff_toNat_le.mpr ?_, ?_⟩ <;> omega

/- Less than 100% of an amount is less than the amount. -/
theorem bps_lt
    {bps : UInt64}
    {amount : Nat}
    (hBps : bps < bpsScale)
    (hAmount : 0 < amount) :
    amount * bps.toNat / 10000 < amount := by
  have hLess : bps.toNat < 10000 :=
    UInt64.lt_iff_toNat_lt.mp hBps
  apply Nat.div_lt_of_lt_mul
  rw [Nat.mul_comm 10000]
  exact Nat.mul_lt_mul_of_pos_left hLess hAmount

/-
  A fraction of at most 1.0 of an amount is an amount, and
  not larger.
-/
theorem exists_portion
    (amount : UInt64)
    {fraction : UInt64}
    (hFraction : fraction ≤ one) :
    ∃ part : UInt64,
      portion amount fraction = .ok part ∧
        part.toNat ≤ amount.toNat := by
  have hOne : one.toNat = 1000000000000000000 := rfl
  have hLe : fraction.toNat ≤ one.toNat :=
    UInt64.le_iff_toNat_le.mp hFraction
  have hPart :
      amount.toNat * fraction.toNat / one.toNat ≤
        amount.toNat := by
    apply Nat.div_le_of_le_mul
    rw [Nat.mul_comm one.toNat]
    exact Nat.mul_le_mul_left _ hLe
  rcases exists_toNat_eq
      (Nat.lt_of_le_of_lt hPart amount.toNat_lt_size) with
    ⟨part, hNat⟩
  refine ⟨part, ?_, by omega⟩
  unfold portion
  rw [mulDivDown_eq_ok_iff]
  exact ⟨by decide, hNat⟩

------------------------------------------------------------
-- Overflows
------------------------------------------------------------

/- A number that does not fit is an overflow. -/
theorem failsFor_ofNat
    (n : Nat) :
    Except.FailsFor [.mathOverflow] (ofNat n) := by
  intro e hFails
  unfold ofNat at hFails
  split at hFails
  · cases hFails
  · cases hFails
    exact List.mem_singleton_self _

/- Sums can overflow, and that is all. -/
theorem failsFor_add
    (a b : UInt64) :
    Except.FailsFor [.mathOverflow] (add a b) :=
  failsFor_ofNat _

/- Differences fail for the reason that they are given. -/
theorem failsFor_sub
    (a b : UInt64)
    (e : Error) :
    Except.FailsFor [e] (sub a b e) := by
  intro d hFails
  unfold sub at hFails
  split at hFails
  · cases hFails
  · cases hFails
    exact List.mem_singleton_self e

/- Quotients can overflow, and that is all. -/
theorem failsFor_mulDivDown
    (a b c : UInt64) :
    Except.FailsFor [.mathOverflow] (mulDivDown a b c) := by
  by_cases hDivisor : c = 0
  · intro e hFails
    rw [mulDivDown, if_pos hDivisor] at hFails
    cases hFails
    exact List.mem_singleton_self _
  · rw [mulDivDown_eq a b hDivisor]
    exact failsFor_ofNat _

end FixedPoint

end YieldManager

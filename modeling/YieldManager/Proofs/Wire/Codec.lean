import Mathlib.Algebra.Order.Group.Nat
import Mathlib.Algebra.Ring.Nat
import YieldManager.Wire.Codec

/-
  Layouts that read back exactly what they write.  What is
  read off the front of a byte string is a value that fits the
  layout, and the bytes that were used up are those that the
  layout writes for it: so there is one byte string for every
  value that fits, and none for any other.

  Main declarations:
    * `Codec.Faithful`
    * `Codec.Faithful.decodeAll_eq_some_iff`
    * `Codec.faithful_byte`
    * `Codec.faithful_word`
    * `Codec.faithful_amount`
    * `Codec.faithful_key`
    * `Codec.faithful_bool`
    * `Codec.Faithful.pair`
    * `Codec.Faithful.iso`
    * `Codec.Faithful.option`
    * `Codec.Faithful.list`
-/

------------------------------------------------------------
-- Faithful Layouts
------------------------------------------------------------

namespace YieldManager

namespace Codec

variable {α β : Type}

/-
  What is read is what fits, and the bytes used up for it are
  those that are written for it.
-/
def Faithful
    (c : Codec α)
    (fits : α → Prop) : Prop :=
  ∀ bytes x rest,
    c.decode bytes = some (x, rest) ↔
      fits x ∧ c.encode x ++ rest = bytes

namespace Faithful

variable {c : Codec α} {d : Codec β}
variable {fits fits' : α → Prop} {fitsToo : β → Prop}

/- It does not matter how it is said what fits. -/
theorem congr
    (hFaithful : c.Faithful fits)
    (hSame : ∀ x, fits x ↔ fits' x) :
    c.Faithful fits' := by
  intro bytes x rest
  rw [hFaithful bytes x rest, hSame x]

/- Where all bytes are used up, they are those written. -/
theorem decodeAll_eq_some_iff
    (hFaithful : c.Faithful fits)
    {bytes : List UInt8}
    {x : α} :
    c.decodeAll bytes = some x ↔
      fits x ∧ c.encode x = bytes := by
  have hWhole := hFaithful bytes x []
  rw [List.append_nil] at hWhole
  rw [← hWhole]
  unfold decodeAll
  split
  · next y hRead => simp [hRead]
  · next hNone =>
      constructor
      · intro hSome
        cases hSome
      · intro hRead
        exact absurd hRead (hNone x)

------------------------------------------------------------
-- Parts
------------------------------------------------------------

/- One value after another. -/
theorem pair
    (hFirst : c.Faithful fits)
    (hSecond : d.Faithful fitsToo) :
    (c.pair d).Faithful fun p => fits p.1 ∧ fitsToo p.2 := by
  intro bytes p rest
  rcases p with ⟨x, y⟩
  simp only [Codec.pair, Option.bind_eq_bind,
    Option.bind_eq_some_iff, Option.pure_def,
    Option.some.injEq, Prod.mk.injEq, Prod.exists,
    hFirst _ _ _, hSecond _ _ _]
  constructor
  · intro hSteps
    rcases hSteps with
      ⟨_, middle, ⟨hFits, rfl⟩, _, _, ⟨hFitsToo, rfl⟩,
        ⟨rfl, rfl⟩, rfl⟩
    exact ⟨⟨hFits, hFitsToo⟩, List.append_assoc _ _ _⟩
  · intro hSteps
    rcases hSteps with ⟨⟨hFits, hFitsToo⟩, rfl⟩
    exact
      ⟨x, d.encode y ++ rest,
        ⟨hFits, (List.append_assoc _ _ _).symm⟩, y, rest,
        ⟨hFitsToo, rfl⟩, ⟨rfl, rfl⟩, rfl⟩

/- The same layout for other values, one for one. -/
theorem iso
    {pack : α → β}
    {unpack : β → α}
    (hFaithful : c.Faithful fits)
    (hPack : ∀ x, fits x → unpack (pack x) = x)
    (hUnpack : ∀ y, pack (unpack y) = y) :
    (c.iso pack unpack).Faithful fun y => fits (unpack y) := by
  intro bytes y rest
  simp only [Codec.iso, Option.bind_eq_bind,
    Option.bind_eq_some_iff, Option.pure_def,
    Option.some.injEq, Prod.mk.injEq, Prod.exists,
    hFaithful _ _ _]
  constructor
  · intro hSteps
    rcases hSteps with
      ⟨x, _, ⟨hFits, rfl⟩, rfl, rfl⟩
    rw [hPack x hFits]
    exact ⟨hFits, rfl⟩
  · intro hSteps
    rcases hSteps with ⟨hFits, rfl⟩
    exact
      ⟨unpack y, rest, ⟨hFits, rfl⟩, hUnpack y, rfl⟩

/- An optional value fits if there is none that does not. -/
theorem option
    (hFaithful : c.Faithful fits) :
    c.option.Faithful fun o => ∀ x, o = some x → fits x := by
  intro bytes o rest
  cases bytes with
  | nil => cases o <;> simp [Codec.option]
  | cons b bytes =>
      simp only [Codec.option]
      by_cases hNone : b = 0
      · rw [if_pos hNone, hNone]
        cases o <;> simp [eq_comm]
      rw [if_neg hNone]
      by_cases hSome : b = 1
      · rw [if_pos hSome, hSome]
        simp only [Option.bind_eq_bind,
          Option.bind_eq_some_iff, Option.pure_def,
          Option.some.injEq, Prod.mk.injEq, Prod.exists,
          hFaithful _ _ _]
        cases o <;> simp
      · rw [if_neg hSome]
        cases o with
        | none => simp [Ne.symm hNone]
        | some x => simp [Ne.symm hSome]

end Faithful

------------------------------------------------------------
-- Bytes and Words
------------------------------------------------------------

/- A byte is itself. -/
theorem faithful_byte :
    byte.Faithful fun _ => True := by
  intro bytes x rest
  cases bytes with
  | nil => simp [byte]
  | cons b bytes => simp [byte, eq_comm]

/- A truth value is read from 0 and 1 only. -/
theorem faithful_bool :
    bool.Faithful fun _ => True := by
  intro bytes x rest
  cases bytes with
  | nil => simp [bool]
  | cons b bytes =>
      simp only [bool]
      by_cases hFalse : b = 0
      · rw [if_pos hFalse, hFalse]
        cases x <;> simp [eq_comm]
      rw [if_neg hFalse]
      by_cases hTrue : b = 1
      · rw [if_pos hTrue, hTrue]
        cases x <;> simp [eq_comm]
      · rw [if_neg hTrue]
        cases x with
        | false => simp [Ne.symm hFalse]
        | true => simp [Ne.symm hTrue]

/-
  The digits of a number, read back lowest first: the first
  byte is the number modulo 256, and the rest is what the
  number is divided by 256.
-/
theorem faithful_word
    (width : Nat) :
    (word width).Faithful fun n => n < 256 ^ width := by
  change
    ∀ bytes n rest,
      readDigits width bytes = some (n, rest) ↔
        n < 256 ^ width ∧ digits width n ++ rest = bytes
  induction width with
  | zero =>
      intro bytes n rest
      simp only [readDigits, digits, Option.some.injEq,
        Prod.mk.injEq, pow_zero, Nat.lt_one_iff,
        List.nil_append]
      exact and_congr eq_comm eq_comm
  | succ width ih =>
      intro bytes n rest
      cases bytes with
      | nil => simp [readDigits, digits]
      | cons b bytes =>
          have hByte := b.toNat_lt
          simp only [readDigits, digits, Option.bind_eq_bind,
            Option.bind_eq_some_iff, Option.pure_def,
            Option.some.injEq, Prod.mk.injEq, Prod.exists,
            ih, List.cons_append, List.cons.injEq, pow_succ,
            ← UInt8.toNat_inj, UInt8.toNat_ofNat']
          constructor
          · intro hSteps
            rcases hSteps with
              ⟨high, _, ⟨hHigh, rfl⟩, rfl, rfl⟩
            have hRest :
                (b.toNat + 256 * high) / 256 = high := by
              omega
            rw [hRest]
            exact ⟨by omega, by omega, rfl⟩
          · intro hSteps
            rcases hSteps with ⟨hFits, hLow, rfl⟩
            exact
              ⟨n / 256, rest, ⟨by omega, rfl⟩, by omega,
                rfl⟩

/- Eight digits are enough for every amount. -/
theorem faithful_amount :
    amount.Faithful fun _ => True := by
  have hFaithful :
      amount.Faithful fun x => x.toNat < 256 ^ 8 :=
    (faithful_word 8).iso
      (fun n hFits => UInt64.toNat_ofNat_of_lt' hFits)
      (fun x => UInt64.ofNat_toNat)
  apply hFaithful.congr
  intro x
  exact iff_of_true x.toNat_lt trivial

/- A key is its 32 bytes. -/
theorem faithful_key :
    key.Faithful fun _ => True := by
  intro bytes k rest
  simp only [key, Option.bind_eq_bind,
    Option.bind_eq_some_iff, Option.pure_def,
    Option.some.injEq, Prod.mk.injEq, true_and]
  constructor
  · intro hSteps
    rcases hSteps with ⟨_, hRead, rfl, rfl⟩
    rw [Key.toBytes_of_ofBytes? hRead]
    exact List.take_append_drop 32 bytes
  · intro hBytes
    subst hBytes
    rw [List.take_left' k.length_toBytes,
      List.drop_left' k.length_toBytes]
    exact ⟨k, Key.ofBytes?_toBytes k, rfl, rfl⟩

------------------------------------------------------------
-- Lists
------------------------------------------------------------

/- The members of a list are read one by one. -/
private theorem decodeMany_eq_some_iff
    {c : Codec α}
    {fits : α → Prop}
    (hFaithful : c.Faithful fits)
    {n : Nat}
    {bytes rest : List UInt8}
    {xs : List α} :
    decodeMany c n bytes = some (xs, rest) ↔
      xs.length = n ∧ (∀ x ∈ xs, fits x) ∧
        xs.flatMap c.encode ++ rest = bytes := by
  induction n generalizing bytes rest xs with
  | zero =>
      simp only [decodeMany, Option.some.injEq,
        Prod.mk.injEq, List.length_eq_zero_iff]
      constructor
      · intro hSteps
        rcases hSteps with ⟨rfl, rfl⟩
        simp
      · intro hSteps
        rcases hSteps with ⟨rfl, -, rfl⟩
        simp
  | succ n ih =>
      simp only [decodeMany, Option.bind_eq_bind,
        Option.bind_eq_some_iff, Option.pure_def,
        Option.some.injEq, Prod.mk.injEq, Prod.exists, ih,
        hFaithful _ _ _]
      constructor
      · intro hSteps
        rcases hSteps with
          ⟨x, _, ⟨hFits, rfl⟩, ys, _, ⟨rfl, hAll, rfl⟩, rfl,
            rfl⟩
        refine ⟨rfl, ?_, ?_⟩
        · exact List.forall_mem_cons.mpr ⟨hFits, hAll⟩
        · rw [List.flatMap_cons, List.append_assoc]
      · intro hSteps
        rcases hSteps with ⟨hLength, hAll, rfl⟩
        cases xs with
        | nil => cases hLength
        | cons x ys =>
            rcases List.forall_mem_cons.mp hAll with
              ⟨hFits, hAll⟩
            rw [List.flatMap_cons, List.append_assoc]
            exact
              ⟨x, _, ⟨hFits, rfl⟩, ys, rest,
                ⟨Nat.succ.inj hLength, hAll, rfl⟩, rfl, rfl⟩

/-
  A list fits if its length can be written in four bytes and
  its members fit.
-/
theorem Faithful.list
    {c : Codec α}
    {fits : α → Prop}
    (hFaithful : c.Faithful fits) :
    c.list.Faithful fun xs =>
      xs.length < 2 ^ 32 ∧ ∀ x ∈ xs, fits x := by
  intro bytes xs rest
  have hCount :
      ∀ bytes n rest,
        readDigits 4 bytes = some (n, rest) ↔
          n < 256 ^ 4 ∧ digits 4 n ++ rest = bytes :=
    faithful_word 4
  simp only [Codec.list, Option.bind_eq_bind,
    Option.bind_eq_some_iff, Prod.exists, hCount,
    decodeMany_eq_some_iff hFaithful]
  constructor
  · intro hSteps
    rcases hSteps with
      ⟨_, _, ⟨hLength, rfl⟩, rfl, hAll, rfl⟩
    exact ⟨⟨hLength, hAll⟩, List.append_assoc _ _ _⟩
  · intro hSteps
    rcases hSteps with ⟨⟨hLength, hAll⟩, rfl⟩
    exact
      ⟨_, _, ⟨hLength, (List.append_assoc _ _ _).symm⟩, rfl,
        hAll, rfl⟩

end Codec

end YieldManager

/-
  Hexadecimal text of byte strings: two digits for a byte,
  the higher one first.  Small letters are written; capital
  letters are read as well.

  Key definitions include:
    * `Hex.encode`
    * `Hex.decode?`
-/

------------------------------------------------------------
-- Digits
------------------------------------------------------------

namespace YieldManager

namespace Hex

/- The sixteen digits in order. -/
def alphabet : List Char :=
  "0123456789abcdef".toList

/- The digit of a number below 16. -/
def digit (n : Nat) : Char :=
  alphabet.getD n '0'

/- The number that a digit stands for. -/
def value? (c : Char) : Option Nat :=
  alphabet.idxOf? c.toLower

------------------------------------------------------------
-- Byte Strings
------------------------------------------------------------

/- The digits of a byte string. -/
def digits (bytes : List UInt8) : List Char :=
  bytes.flatMap fun b =>
    [digit (b.toNat / 16), digit (b.toNat % 16)]

/- The byte string that some digits spell. -/
def ofDigits? : List Char → Option (List UInt8)
  | [] => some []
  | [_] => none
  | c :: d :: rest => do
      let high ← value? c
      let low ← value? d
      let bytes ← ofDigits? rest
      return UInt8.ofNat (16 * high + low) :: bytes

/- A digit stands for its number. -/
private theorem value?_digit
    {n : Nat}
    (hDigit : n < 16) :
    value? (digit n) = some n := by
  have hAll : ∀ m < 16, value? (digit m) = some m := by
    decide
  exact hAll n hDigit

/- The digits of a byte string spell the byte string. -/
theorem ofDigits?_digits (bytes : List UInt8) :
    ofDigits? (digits bytes) = some bytes := by
  induction bytes with
  | nil => rfl
  | cons b bytes ih =>
      have hByte : b.toNat < 256 := b.toNat_lt
      have hHigh := value?_digit
        (show b.toNat / 16 < 16 by omega)
      have hLow := value?_digit
        (show b.toNat % 16 < 16 by omega)
      have hWhole :
          16 * (b.toNat / 16) + b.toNat % 16 = b.toNat := by
        omega
      have hCons :
          digits (b :: bytes) =
            digit (b.toNat / 16) :: digit (b.toNat % 16) ::
              digits bytes := rfl
      rw [hCons, ofDigits?, hHigh, hLow, ih]
      simp only [Option.bind_eq_bind, Option.bind_some,
        Option.pure_def, hWhole, UInt8.ofNat_toNat]

/- The hexadecimal text of a byte string. -/
def encode (bytes : List UInt8) : String :=
  String.ofList (digits bytes)

/- The byte string of a hexadecimal text. -/
def decode? (text : String) : Option (List UInt8) :=
  ofDigits? text.toList

/- Hexadecimal text reads back as the byte string. -/
theorem decode?_encode (bytes : List UInt8) :
    decode? (encode bytes) = some bytes := by
  simp [decode?, encode, ofDigits?_digits]

end Hex

end YieldManager

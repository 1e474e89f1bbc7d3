/-
  Base-58 text of byte strings.  The bytes are read as one
  number, highest byte first, and written in base 58; each
  leading zero byte is written as the digit for zero.

  Key definitions include:
    * `Base58.alphabet`
    * `Base58.encode`
-/

------------------------------------------------------------
-- Base 58
------------------------------------------------------------

namespace YieldManager

namespace Base58

/-
  The digits in order: no zero, no capital I or O, and no
  small l, which are easily mistaken for each other.
-/
def alphabet : List Char :=
  "123456789ABCDEFGHJKLMNPQRSTUVWXYZabcdefghijkmnopqrstuvwxyz".toList

/- The digit of a number below 58. -/
def digit (n : Nat) : Char :=
  alphabet.getD n '1'

/- The number that the bytes spell. -/
def value (bytes : List UInt8) : Nat :=
  bytes.foldl (fun n b => 256 * n + b.toNat) 0

/- The digits of a number, put before the ones given. -/
def digits (n : Nat) (low : List Char) : List Char :=
  if n = 0 then low
  else digits (n / 58) (digit (n % 58) :: low)
termination_by n
decreasing_by omega

/- The base-58 text of a byte string. -/
def encode (bytes : List UInt8) : String :=
  let zeros := bytes.takeWhile (· = 0)
  String.ofList
    (digits (value bytes) [] |>
      (zeros.map (fun _ => digit 0) ++ ·))

end Base58

end YieldManager

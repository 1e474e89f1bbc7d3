import YieldManager.Error

/-
  Amounts are 64-bit words, and fractions are 64-bit words
  in units of 10^-18.  Every operation is exact or refused:
  a product is taken in 128 bits, a quotient is rounded in
  the direction its name gives, and a result that does not
  fit is an overflow.

  Key definitions include:
    * `FixedPoint.one`
    * `FixedPoint.bpsScale`
    * `FixedPoint.add`
    * `FixedPoint.sub`
    * `FixedPoint.product`
    * `FixedPoint.mulDivDown`
    * `FixedPoint.mulDivUp`
    * `FixedPoint.portion`
    * `FixedPoint.bpsOf`
    * `FixedPoint.difference`
-/

------------------------------------------------------------
-- Checked Arithmetic
------------------------------------------------------------

namespace YieldManager

namespace FixedPoint

/- The fraction 1.0. -/
def one : UInt64 := 1000000000000000000

/- Basis points in a whole. -/
def bpsScale : UInt64 := 10000

/- A natural number as an amount, if it fits in 64 bits. -/
def ofNat (n : Nat) : Except Error UInt64 :=
  if n < UInt64.size then
    .ok (UInt64.ofNat n)
  else
    .error .mathOverflow

/- The exact sum of two amounts. -/
def add (a b : UInt64) : Except Error UInt64 :=
  ofNat (a.toNat + b.toNat)

/-
  The exact difference of two amounts, or the given reason
  when the second exceeds the first.
-/
def sub
    (a b : UInt64)
    (e : Error) : Except Error UInt64 :=
  if b ≤ a then .ok (a - b) else .error e

------------------------------------------------------------
-- Products and Quotients
------------------------------------------------------------

/- An amount as a 128-bit word. -/
def widen (a : UInt64) : BitVec 128 :=
  a.toBitVec.setWidth 128

/- A 128-bit word as an amount, if it fits in 64 bits. -/
def narrow (w : BitVec 128) : Except Error UInt64 :=
  ofNat w.toNat

/- The product of two amounts, if it fits in 128 bits. -/
def product (a b : UInt64) : Except Error (BitVec 128) :=
  if (widen a).umulOverflow (widen b) then
    .error .mathOverflow
  else
    .ok (widen a * widen b)

/- A quotient of 128-bit words, rounded up. -/
def divUp (p c : BitVec 128) : BitVec 128 :=
  if p % c = 0 then p / c else p / c + 1

/- The quotient `a * b / c`, rounded down. -/
def mulDivDown (a b c : UInt64) : Except Error UInt64 :=
  if c = 0 then
    .error .mathOverflow
  else do
    let p ← product a b
    narrow (p / widen c)

/- The quotient `a * b / c`, rounded up. -/
def mulDivUp (a b c : UInt64) : Except Error UInt64 :=
  if c = 0 then
    .error .mathOverflow
  else do
    let p ← product a b
    narrow (divUp p (widen c))

/- The given fraction of an amount, rounded down. -/
def portion
    (amount fraction : UInt64) : Except Error UInt64 :=
  mulDivDown amount fraction one

/- The given basis points of an amount, rounded down. -/
def bpsOf (amount bps : UInt64) : Except Error UInt64 :=
  mulDivDown amount bps bpsScale

/- The signed difference of two amounts. -/
def difference (a b : UInt64) : Int :=
  (a.toNat : Int) - (b.toNat : Int)

end FixedPoint

end YieldManager

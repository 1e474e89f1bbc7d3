import YieldManager.Key

/-
  Byte layouts.  A codec writes a value as bytes and reads
  one value off the front of a byte string, leaving the rest.
  Integers are little-endian, a list is preceded by its
  length in four bytes, an option and a truth value begin
  with a byte that is 0 or 1.

  Key definitions include:
    * `Codec`
    * `Codec.byte`
    * `Codec.word`
    * `Codec.amount`
    * `Codec.key`
    * `Codec.pair`
    * `Codec.iso`
    * `Codec.list`
    * `Codec.option`
    * `Codec.bool`
    * `Codec.decodeAll`
-/

------------------------------------------------------------
-- Codecs
------------------------------------------------------------

namespace YieldManager

/- A way to write values as bytes and to read them back. -/
structure Codec (α : Type) where
  encode : α → List UInt8
  decode : List UInt8 → Option (α × List UInt8)

namespace Codec

variable {α β : Type}

/- Read one value that uses all the bytes up. -/
def decodeAll
    (c : Codec α)
    (bytes : List UInt8) : Option α :=
  match c.decode bytes with
  | some (x, []) => some x
  | _ => none

/- One value after another. -/
def pair
    (c : Codec α)
    (d : Codec β) : Codec (α × β) where
  encode p := c.encode p.1 ++ d.encode p.2
  decode bytes := do
    let (x, rest) ← c.decode bytes
    let (y, rest) ← d.decode rest
    return ((x, y), rest)

/- The same layout for another type of values. -/
def iso
    (c : Codec α)
    (pack : α → β)
    (unpack : β → α) : Codec β where
  encode y := c.encode (unpack y)
  decode bytes := do
    let (x, rest) ← c.decode bytes
    return (pack x, rest)

------------------------------------------------------------
-- Bytes and Words
------------------------------------------------------------

/- One byte. -/
def byte : Codec UInt8 where
  encode b := [b]
  decode
    | [] => none
    | b :: rest => some (b, rest)

/- The lowest `width` base-256 digits, lowest first. -/
def digits : Nat → Nat → List UInt8
  | 0, _ => []
  | width + 1, n =>
      UInt8.ofNat n :: digits width (n / 256)

/- Read `width` base-256 digits, lowest first. -/
def readDigits :
    Nat → List UInt8 → Option (Nat × List UInt8)
  | 0, bytes => some (0, bytes)
  | _ + 1, [] => none
  | width + 1, b :: bytes => do
      let (high, rest) ← readDigits width bytes
      return (b.toNat + 256 * high, rest)

/- A natural number below `256 ^ width`. -/
def word (width : Nat) : Codec Nat where
  encode := digits width
  decode := readDigits width

/- An amount takes eight bytes. -/
def amount : Codec UInt64 :=
  (word 8).iso UInt64.ofNat UInt64.toNat

/- A raw key takes its 32 bytes. -/
def key : Codec Key where
  encode := Key.toBytes
  decode bytes := do
    let k ← Key.ofBytes? (bytes.take 32)
    return (k, bytes.drop 32)

------------------------------------------------------------
-- Choices and Lists
------------------------------------------------------------

/- A truth value is the byte 1 or 0. -/
def bool : Codec Bool where
  encode b := [if b then 1 else 0]
  decode
    | [] => none
    | b :: rest =>
        if b = 0 then some (false, rest)
        else if b = 1 then some (true, rest)
        else none

/- An option is the byte 0, or 1 followed by the value. -/
def option (c : Codec α) : Codec (Option α) where
  encode
    | none => [0]
    | some x => 1 :: c.encode x
  decode
    | [] => none
    | b :: rest =>
        if b = 0 then some (none, rest)
        else if b = 1 then do
          let (x, rest) ← c.decode rest
          return (some x, rest)
        else none

/- Read the given number of values, one after another. -/
def decodeMany
    (c : Codec α) :
    Nat → List UInt8 → Option (List α × List UInt8)
  | 0, bytes => some ([], bytes)
  | n + 1, bytes => do
      let (x, rest) ← c.decode bytes
      let (xs, rest) ← decodeMany c n rest
      return (x :: xs, rest)

/- A list is its length and then its members. -/
def list (c : Codec α) : Codec (List α) where
  encode xs :=
    digits 4 xs.length ++ xs.flatMap c.encode
  decode bytes := do
    let (n, rest) ← readDigits 4 bytes
    decodeMany c n rest

end Codec

end YieldManager

import YieldManager.Program.Fault

/-
  Mints are accounts of the token program.  Only their shape
  matters here: 82 bytes, with two optional keys, each behind
  a four-byte mark, and a byte that says whether the mint is
  ready for use.

  Key definitions include:
    * `Mint.length`
    * `Mint.check`
    * `Mint.toBytes`
-/

------------------------------------------------------------
-- Mints
------------------------------------------------------------

namespace YieldManager

namespace Mint

/- The length of a mint. -/
def length : Nat := 82

/- An optional key is present, or absent. -/
def isMark (bytes : List UInt8) : Bool :=
  bytes = [0, 0, 0, 0] || bytes = [1, 0, 0, 0]

/- The mark of the key that may issue the token. -/
def issuerMark (bytes : List UInt8) : List UInt8 :=
  bytes.take 4

/- The mark of the key that may freeze accounts. -/
def freezerMark (bytes : List UInt8) : List UInt8 :=
  (bytes.drop 46).take 4

/- The byte that says whether the mint is ready. -/
def readyByte (bytes : List UInt8) : UInt8 :=
  bytes.getD 45 0

/- Check that bytes are those of a mint ready for use. -/
def check (bytes : List UInt8) : Except Refusal Unit :=
  if bytes.length ≠ length then
    .error .badMint
  else if !isMark (issuerMark bytes) then
    .error .badMint
  else if 1 < readyByte bytes then
    .error .badMint
  else if !isMark (freezerMark bytes) then
    .error .badMint
  else if readyByte bytes = 0 then
    .error .mintNotReady
  else
    .ok ()

/- The bytes of a mint with nothing but the ready byte set. -/
def toBytes (ready : Bool) : List UInt8 :=
  List.replicate 45 0 ++
    [if ready then 1 else 0] ++
    List.replicate 36 0

/- A mint passes the check exactly when it is ready. -/
theorem check_toBytes (ready : Bool) :
    check (toBytes ready) =
      if ready then .ok () else .error .mintNotReady := by
  cases ready <;> rfl

end Mint

end YieldManager

import YieldManager.Key
import YieldManager.Text.Hex

/-
  The text of raw keys.  A key whose bytes are printable, up
  to the zero bytes at its end, is written as a name; any
  other key is written in hexadecimal behind `0x`.

  Key definitions include:
    * `Key.ofName?`
    * `Key.ofText?`
    * `Key.text`
-/

------------------------------------------------------------
-- Reading
------------------------------------------------------------

namespace YieldManager

namespace Key

/- The key that a name of up to 32 bytes stands for. -/
def ofName? (name : String) : Option Key :=
  let bytes := name.toUTF8.toList
  ofBytes? (bytes ++ List.replicate (32 - bytes.length) 0)

/- The key that a text stands for. -/
def ofText? (text : String) : Option Key :=
  match text.toList with
  | '0' :: 'x' :: digits =>
      if digits.length = 64 then
        (Hex.ofDigits? digits).bind ofBytes?
      else
        ofName? text
  | _ => ofName? text

------------------------------------------------------------
-- Writing
------------------------------------------------------------

/- The bytes of a key without the zero bytes at its end. -/
def trimmed (key : Key) : List UInt8 :=
  (key.toBytes.reverse.dropWhile (· = 0)).reverse

/- A byte of a plain name: not blank, and within ASCII. -/
def isPrintable (b : UInt8) : Bool :=
  0x21 ≤ b && b ≤ 0x7e

/- A name that could be taken for something else. -/
def isTaken : List Char → Bool
  | '0' :: 'x' :: _ => true
  | '@' :: _ => true
  | _ => false

/- The text of a key. -/
def text (key : Key) : String :=
  let name := key.trimmed.map fun b => Char.ofNat b.toNat
  if key.trimmed.all isPrintable && !isTaken name then
    String.ofList name
  else
    "0x" ++ Hex.encode key.toBytes

end Key

end YieldManager

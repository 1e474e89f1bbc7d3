import YieldManager.Program.Address
import YieldManager.Text.KeyName

/-
  The text of addresses.  A raw key is written as keys are;
  a derived address is written as its seed behind `@`, with
  its arguments in parentheses.  The programs that have an
  address of their own have a word for it.

  Key definitions include:
    * `Address.ofText?`
    * `Address.mentions`
    * `Address.text`
-/

------------------------------------------------------------
-- Parts of a Text
------------------------------------------------------------

namespace YieldManager

namespace Address

/- The words for the addresses of programs. -/
def words : List (String × Address) :=
  [("@program", program), ("@token_program", tokenProgram)]

/- The word for an address, if there is one. -/
def word? (a : Address) : Option String :=
  (words.find? fun w => w.2 = a).map Prod.fst

/- The depth of parentheses after a character. -/
def depthAfter (depth : Nat) (c : Char) : Nat :=
  if c = '(' then depth + 1
  else if c = ')' then depth - 1
  else depth

/- Cut a text at the commas outside of parentheses. -/
def arguments (depth : Nat) : List Char → List (List Char)
  | [] => [[]]
  | c :: cs =>
      if c = ',' ∧ depth = 0 then
        [] :: arguments 0 cs
      else
        match arguments (depthAfter depth c) cs with
        | [] => [[c]]
        | arg :: args => (c :: arg) :: args

/- The seed with a given word. -/
def seed? (word : List Char) : Option Seed :=
  Seed.all.find? fun seed => seed.text.toList = word

/- The seed and the arguments of a derived address. -/
def derivation?
    (text : List Char) : Option (Seed × List (List Char)) :=
  match text.dropWhile (· ≠ '(') with
  | '(' :: rest => do
      let seed ← seed? (text.takeWhile (· ≠ '('))
      if rest.getLast? = some ')' then
        return (seed, arguments 0 rest.dropLast)
      else
        none
  | _ => none

------------------------------------------------------------
-- Reading
------------------------------------------------------------

/-
  Read an address.  The fuel bounds how deep derivations are
  nested in each other.
-/
def read? : Nat → List Char → Option Address
  | 0, _ => none
  | fuel + 1, '@' :: body =>
      match words.lookup (String.ofList ('@' :: body)) with
      | some a => some a
      | none => do
          let (seed, args) ← derivation? body
          return .derived seed (← args.mapM (read? fuel))
  | _ + 1, text => do
      return .raw (← Key.ofText? (String.ofList text))

/- The address that a text stands for. -/
def ofText? (text : String) : Option Address :=
  read? (text.length + 1) text.toList

/-
  The addresses, other than raw keys, that are named in a
  text down to some depth, each with its part of the text.
-/
def mentionsWithin :
    Nat → List Char → List (Address × String)
  | fuel + 1, '@' :: body =>
      let text := String.ofList ('@' :: body)
      let whole :=
        match ofText? text with
        | some a => [(a, text)]
        | none => []
      let args :=
        match derivation? body with
        | some (_, args) => args
        | none => []
      whole ++ args.flatMap (mentionsWithin fuel)
  | _, _ => []

/- The addresses, other than raw keys, named in a text. -/
def mentions (text : String) : List (Address × String) :=
  mentionsWithin (text.length + 1) text.toList

------------------------------------------------------------
-- Writing
------------------------------------------------------------

mutual

/-
  The text of an address, given the texts under which some
  addresses are known already.
-/
def text (known : Address → Option String) :
    Address → String
  | .raw key =>
      match known (.raw key) <|> word? (.raw key) with
      | some s => s
      | none => key.text
  | .derived seed args =>
      match known (.derived seed args) with
      | some s => s
      | none =>
          "@" ++ seed.text ++ "(" ++
            ",".intercalate (texts known args) ++ ")"

/- The texts of some addresses. -/
def texts (known : Address → Option String) :
    List Address → List String
  | [] => []
  | a :: as => text known a :: texts known as

end

end Address

end YieldManager

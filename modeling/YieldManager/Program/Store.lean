import YieldManager.Program.Address
import YieldManager.Program.Fault
import YieldManager.Table

/-
  The store of accounts that a program runs on.  Accounts of
  the program hold a record and have a fixed number of bytes
  set aside; accounts of other programs are bytes.

  Key definitions include:
    * `Account`
    * `Account.owner`
    * `Account.isVacant`
    * `Account.record`
    * `Account.state?`
    * `Store`
    * `Store.find?`
    * `Store.isTaken`
    * `Store.insert`
-/

------------------------------------------------------------
-- Accounts
------------------------------------------------------------

namespace YieldManager

/-
  An account with a record of the program in the given space,
  or the bytes of an account that another program wrote.
-/
inductive Account where
  | stored (space : Nat) (state : State Address)
  | bytes (owner : Address) (data : List UInt8)
deriving DecidableEq

namespace Account

/- The program that an account belongs to. -/
def owner : Account → Address
  | .stored _ _ => Address.program
  | .bytes owner _ => owner

/-
  An account of the system program without data.  Whoever
  holds its address may still open an account there.
-/
def isVacant : Account → Bool
  | .stored _ _ => false
  | .bytes owner data =>
      owner = Address.system && data.isEmpty

/- The number of bytes set aside for an account. -/
def space : Account → Nat
  | .stored space _ => space
  | .bytes _ data => data.length

/- The record of an account that the program owns. -/
def record
    (R : Type → Type) [Stored R] :
    Account → Except Refusal (R Address)
  | .stored _ state =>
      match Stored.unwrap? state with
      | some r => .ok r
      | none => .error .otherTag
  | .bytes owner data =>
      if owner = Address.program then
        match Stored.ofBytes R Address.blank data with
        | .ok r => .ok r
        | .error e => .error (.ofUnreadable e)
      else
        .error .foreignOwner

/- What an account of the program holds, if it is readable. -/
def state? : Account → Option (State Address)
  | .stored _ state => some state
  | .bytes owner data =>
      if owner = Address.program then
        State.ofBytes? Address.blank data
      else
        none

end Account

------------------------------------------------------------
-- Stores
------------------------------------------------------------

/- Accounts by address, in the order they were opened. -/
structure Store where
  accounts : List (Address × Account)
  nodup : (accounts.map Prod.fst).Nodup

namespace Store

/- The store without accounts. -/
def empty : Store where
  accounts := []
  nodup := by simp

/- The account at an address. -/
def find?
    (s : Store)
    (key : Address) : Option Account :=
  (Table.find? Prod.fst key s.accounts).map Prod.snd

/-
  An account that is not vacant rules out opening another
  one at its address.
-/
def isTaken
    (s : Store)
    (key : Address) : Bool :=
  match s.find? key with
  | some account => !account.isVacant
  | none => false

/- Put an account at an address. -/
def insert
    (s : Store)
    (key : Address)
    (account : Account) : Store :=
  if h : key ∈ s.accounts.map Prod.fst then
    { accounts :=
        Table.replace Prod.fst (key, account) s.accounts
      nodup := by
        rw [Table.map_key_replace]
        exact s.nodup }
  else
    { accounts := s.accounts ++ [(key, account)]
      nodup := by
        rw [List.map_append, List.nodup_append]
        refine ⟨s.nodup, by simp, ?_⟩
        intro a ha b hb hab
        have hbKey : b = key := by simpa using hb
        exact h (hbKey ▸ hab ▸ ha) }

/- Put several accounts, one after another. -/
def insertAll
    (s : Store)
    (writes : List (Address × Account)) : Store :=
  writes.foldl (fun s w => s.insert w.1 w.2) s

end Store

end YieldManager

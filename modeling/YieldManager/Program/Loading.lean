import YieldManager.Program.Mint
import YieldManager.Program.Store

/-
  How an instruction gets at its accounts.  They are taken
  off the list that came with the instruction, one by one,
  and each is checked for what it is to be: a signer, the
  system program, a mint, a record, or a new account.  Once
  all are taken, further conditions on them are checked.

  Key definitions include:
    * `Meta`
    * `Meta.merge`
    * `Loader`
    * `Loader.signer`
    * `Loader.record`
    * `Loaded`
    * `Loaded.expect`
    * `Opening`
-/

------------------------------------------------------------
-- Listed Accounts
------------------------------------------------------------

namespace YieldManager

/- An account as an instruction lists it. -/
structure Meta where
  key : Address
  signer : Bool
  writable : Bool
deriving DecidableEq

namespace Meta

/-
  An account that is listed more than once signs, and is
  writable, at every position if it does so at one.
-/
def merge (metas : List Meta) : List Meta :=
  metas.map fun m =>
    { key := m.key
      signer := metas.any fun n =>
        n.key = m.key && n.signer
      writable := metas.any fun n =>
        n.key = m.key && n.writable }

end Meta

/- A record loaded from the store, under a field's name. -/
structure Loaded (R : Type → Type) where
  field : String
  key : Address
  writable : Bool
  space : Nat
  value : R Address

------------------------------------------------------------
-- Taking Accounts
------------------------------------------------------------

/- Take accounts off the list, looking at the store. -/
abbrev Loader (α : Type) :=
  ReaderT Store (StateT (List Meta) (Except Fault)) α

namespace Loader

/- The next account of the list. -/
def next (missing : Fault) : Loader Meta := fun _ metas =>
  match metas with
  | [] => .error missing
  | m :: rest => .ok (m, rest)

/- The next account, loaded into a field. -/
def field (name : String) : Loader Meta :=
  next (.due .missingAccount name)

/- An account that has to sign. -/
def signer (name : String) : Loader Meta := do
  let m ← field name
  if m.signer then
    return m
  else
    throw (.due .notSigned name)

/- The system program. -/
def system (name : String) : Loader Unit := do
  let m ← field name
  if m.key = Address.system then
    return ()
  else
    throw (.due .notSystemProgram name)

/-
  An account that exists.  One that is not in the store
  belongs to the system program, and has never been opened
  unless it signs.
-/
def existing
    (name : String)
    (m : Meta) : Loader Account := do
  match (← read).find? m.key with
  | some account => return account
  | none =>
      if m.signer then
        throw (.due .foreignOwner name)
      else
        throw (.due .notOpened name)

/- A mint that is ready for use. -/
def mint (name : String) : Loader Address := do
  let m ← field name
  match ← existing name m with
  | .stored _ _ => throw (.due .foreignOwner name)
  | .bytes owner data =>
      if owner = Address.tokenProgram then
        match Mint.check data with
        | .ok () => return m.key
        | .error r => throw (.general r)
      else
        throw (.due .foreignOwner name)

/- The record in a listed account. -/
def recordOf
    (R : Type → Type) [Stored R]
    (name : String)
    (m : Meta) : Loader (Loaded R) := do
  let account ← existing name m
  match account.record R with
  | .ok r =>
      return { field := name
               key := m.key
               writable := m.writable
               space := account.space
               value := r }
  | .error r => throw (.due r name)

/- A record of the program. -/
def record
    (R : Type → Type) [Stored R]
    (name : String) : Loader (Loaded R) := do
  recordOf R name (← field name)

/-
  A record that may be left out, which the address of the
  program in its place says.
-/
def record?
    (R : Type → Type) [Stored R]
    (name : String) : Loader (Option (Loaded R)) := do
  let m ← field name
  if m.key = Address.program then
    return none
  else
    some <$> recordOf R name m

/- The place of an account that is to be opened. -/
def place : Loader Meta :=
  next (.general .missingAccount)

/- Load from the list that came with an instruction. -/
def load
    {α : Type}
    (loader : Loader α)
    (store : Store)
    (metas : List Meta) : Except Fault α := do
  let (x, _) ← (loader.run store).run (Meta.merge metas)
  return x

end Loader

------------------------------------------------------------
-- Conditions
------------------------------------------------------------

/- Check that an account which pays can be written. -/
def Meta.expectWritable
    (m : Meta)
    (name : String) : Except Fault Unit :=
  if m.writable then .ok ()
  else .error (.due .notWritable name)

/- The account for a record, if the record fits. -/
def Account.ofRecord
    {R : Type → Type} [Stored R]
    (name : String)
    (space : Nat)
    (record : R Address) : Except Fault Account :=
  let bytes := Stored.toBytes Address.blank record
  if bytes.length ≤ space then
    .ok (.stored space (Stored.wrap record))
  else
    .error (.due .outOfSpace name)

namespace Loaded

variable {R : Type → Type} [Stored R]

/- The account lies where its record says it should. -/
def expectDerived
    (x : Loaded R)
    (seed : Seed)
    (args : List Address) : Except Fault Unit :=
  if x.key = .derived seed args ∧
      Stored.bump x.value = Address.bump then
    .ok ()
  else
    .error (.due .wrongAddress x.field)

omit [Stored R] in
/- The account can be written. -/
def expectWritable (x : Loaded R) : Except Fault Unit :=
  if x.writable then .ok ()
  else .error (.due .notWritable x.field)

omit [Stored R] in
/- A rule about the account holds. -/
def expect
    (x : Loaded R)
    (p : Prop) [Decidable p]
    (e : Error) : Except Fault Unit :=
  if p then .ok ()
  else .error (.due (.rule e) x.field)

/- Write a new record into the account. -/
def write
    (x : Loaded R)
    (record : R Address) :
    Except Fault (Address × Account) := do
  let account ← Account.ofRecord x.field x.space record
  return (x.key, account)

end Loaded

------------------------------------------------------------
-- New Accounts
------------------------------------------------------------

/- An account that is being opened for a field. -/
structure Opening where
  field : String
  key : Address

namespace Opening

/-
  Open an account at the address derived for it, at the cost
  of the payer.
-/
def begin
    (store : Store)
    (payer place : Meta)
    (name : String)
    (seed : Seed)
    (args : List Address) : Except Fault Opening :=
  if place.key ≠ .derived seed args then
    .error (.due .wrongAddress name)
  else if place.key = payer.key then
    .error (.general .payerIsTarget)
  else if store.isTaken place.key then
    .error (.general .addressTaken)
  else if !place.writable then
    .error (.due .notWritable name)
  else
    .ok { field := name, key := place.key }

/- Write the first record of the account. -/
def write
    {R : Type → Type} [Stored R]
    (x : Opening)
    (record : R Address) :
    Except Fault (Address × Account) := do
  let account ←
    Account.ofRecord x.field (Stored.kind R).space record
  return (x.key, account)

end Opening

end YieldManager

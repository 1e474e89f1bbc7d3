import YieldManager.Ledger.Request
import YieldManager.Table
import YieldManager.Token

/-
  The ledger of a pool.  It records, token by token, what the
  pool holds as cash and what it has handed to the token's
  asset manager.  Only the pool's relayer joins and exits;
  only the manager registered for a token moves its managed
  balance.

  Key definitions include:
    * `Entry`
    * `Ledger`
    * `Ledger.isValid`
    * `Ledger.entry`
    * `Ledger.balances`
    * `Ledger.addToken`
    * `Ledger.join`
    * `Ledger.exit`
    * `Ledger.register`
    * `Ledger.toManager`
    * `Ledger.fromManager`
    * `Ledger.reportManaged`
-/

------------------------------------------------------------
-- The Ledger
------------------------------------------------------------

namespace YieldManager

/-
  What a pool holds of one token.  The manager is the zero
  key as long as none is registered.
-/
structure Entry (κ : Type) where
  mint : κ
  cash : UInt64
  managed : UInt64
  manager : κ
deriving DecidableEq, Repr

/-
  The ledger of a pool.  The authority configures the pool;
  the relayer joins and exits it.
-/
structure Ledger (κ : Type) where
  poolId : κ
  authority : κ
  relayer : κ
  entries : List (Entry κ)
  bump : UInt8
deriving DecidableEq, Repr

namespace Ledger

variable {κ : Type} [DecidableEq κ]

/- The number of tokens a ledger has room for. -/
def capacity : Nat := 8

/- The mints of the ledger, in the order they were added. -/
def mints (l : Ledger κ) : List κ :=
  l.entries.map Entry.mint

/-
  The ledger lists no mint twice, belongs to a pool with an
  authority and a relayer, and is within its capacity.
-/
def isValid [Zero κ] (l : Ledger κ) : Bool :=
  Table.distinct l.mints &&
    l.poolId ≠ 0 &&
    l.authority ≠ 0 &&
    l.relayer ≠ 0 &&
    l.entries.length ≤ capacity

/- The ledger is that of the given pool. -/
def ensurePool
    (l : Ledger κ)
    (poolId : κ) : Except Error Unit :=
  require (l.poolId = poolId) .incorrectPoolId

------------------------------------------------------------
-- Entries
------------------------------------------------------------

/- The entry of a token the pool supports. -/
def entry
    (l : Ledger κ)
    (mint : κ) : Except Error (Entry κ) :=
  match Table.find? Entry.mint mint l.entries with
  | some e => .ok e
  | none => .error .unsupportedToken

/- Replace the entry of a token. -/
def setEntry
    (l : Ledger κ)
    (e : Entry κ) : Ledger κ :=
  { l with entries := Table.replace Entry.mint e l.entries }

/- The entry of a token, opened to its manager only. -/
def managedEntry
    [Zero κ]
    (l : Ledger κ)
    (manager poolId mint : κ) :
    Except Error (Entry κ) := do
  l.ensurePool poolId
  let e ← l.entry mint
  require (e.manager ≠ 0 ∧ e.manager = manager)
    .onlyAssetManager
  return e

/- The balances of a token. -/
def balances
    (l : Ledger κ)
    (poolId mint : κ) : Except Error Balances := do
  l.ensurePool poolId
  let e ← l.entry mint
  return { cash := e.cash, managed := e.managed }

/- Add a token, with no balance and no manager. -/
def addToken
    [Zero κ]
    (mint : κ) : Action (Ledger κ) Unit := do
  require (mint ∉ (← get).mints) .tokenAlreadyRegistered
  require ((← get).entries.length < capacity)
    .capacityReached
  modify fun l =>
    { l with
      entries := l.entries ++
        [{ mint := mint, cash := 0, managed := 0,
           manager := 0 }] }

------------------------------------------------------------
-- Joins and Exits
------------------------------------------------------------

/- Add an amount to the cash of a token. -/
def credit
    (mint : κ)
    (amount : UInt64) : Action (Ledger κ) Unit := do
  let e ← (← get).entry mint
  let cash ← FixedPoint.add e.cash amount
  modify fun l => l.setEntry { e with cash := cash }

/- Take an amount from the cash of a token. -/
def debit
    (mint : κ)
    (amount : UInt64) : Action (Ledger κ) Unit := do
  let e ← (← get).entry mint
  let cash ← FixedPoint.sub e.cash amount .insufficientCash
  modify fun l => l.setEntry { e with cash := cash }

/-
  Credit every line of a request.  A refused line leaves the
  lines before it credited.
-/
def join
    (sender poolId : κ)
    (request : JoinRequest κ) : Action (Ledger κ) Unit := do
  require (sender = (← get).relayer) .onlyRelayerJoin
  (← get).ensurePool poolId
  let lines ← request.amounts
  lines.forM fun line => credit line.1 line.2

/-
  Debit every line of a request.  A refused line leaves the
  lines before it debited.
-/
def exit
    (sender poolId : κ)
    (request : ExitRequest κ) : Action (Ledger κ) Unit := do
  require (sender = (← get).relayer) .onlyRelayerExit
  (← get).ensurePool poolId
  let lines ← request.amounts
  lines.forM fun line => debit line.1 line.2

------------------------------------------------------------
-- The Manager's Side
------------------------------------------------------------

variable [Zero κ]

/- Register the manager of a token that has no other one. -/
def register
    (poolId mint manager : κ) : Action (Ledger κ) Unit := do
  (← get).ensurePool poolId
  let e ← (← get).entry mint
  require (e.manager = 0 ∨ e.manager = manager)
    .assetManagerAlreadyRegistered
  modify fun l => l.setEntry { e with manager := manager }

/- Hand cash to the manager. -/
def toManager
    (manager poolId mint : κ)
    (amount : UInt64) : Action (Ledger κ) Unit := do
  let e ← (← get).managedEntry manager poolId mint
  let cash ← FixedPoint.sub e.cash amount .insufficientCash
  let managed ← FixedPoint.add e.managed amount
  modify fun l =>
    l.setEntry { e with cash := cash, managed := managed }

/- Take cash back from the manager. -/
def fromManager
    (manager poolId mint : κ)
    (amount : UInt64) : Action (Ledger κ) Unit := do
  let e ← (← get).managedEntry manager poolId mint
  let managed ←
    FixedPoint.sub e.managed amount .insufficientManaged
  let cash ← FixedPoint.add e.cash amount
  modify fun l =>
    l.setEntry { e with cash := cash, managed := managed }

/- Overwrite the managed balance with the manager's report. -/
def reportManaged
    (manager poolId mint : κ)
    (managed : UInt64) : Action (Ledger κ) Unit := do
  let e ← (← get).managedEntry manager poolId mint
  modify fun l => l.setEntry { e with managed := managed }

end Ledger

end YieldManager

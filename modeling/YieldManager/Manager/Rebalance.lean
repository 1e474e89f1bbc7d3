import YieldManager.Manager.Basic

/-
  How a manager moves capital between the pool's cash and the
  vault.  Each move calls the vault first and checks what it
  did, then writes the ledger, and last reports the value of
  the shares held afterwards as the managed balance.  A move
  that fails leaves ledger and vault as they were.

  Key definitions include:
    * `Outcome`
    * `Position`
    * `Position.onLedger`
    * `Position.onVault`
    * `Manager.aum`
    * `Manager.poolBalances`
    * `Manager.maxInvestable`
    * `Manager.rebalance`
    * `Manager.capitalIn`
    * `Manager.capitalOut`
    * `Manager.reportBalance`
-/

------------------------------------------------------------
-- Outcomes and Positions
------------------------------------------------------------

namespace YieldManager

/- What a rebalance did. -/
inductive Outcome where
  | skipped
  | balanced
  | invested (amount shares : UInt64)
  | divested (amount : UInt64)
deriving DecidableEq, Repr

namespace Outcome

/- The amount moved into the vault. -/
def amountInvested : Outcome → UInt64
  | .invested amount _ => amount
  | _ => 0

/- The amount moved out of the vault. -/
def amountDivested : Outcome → UInt64
  | .divested amount => amount
  | _ => 0

end Outcome

/- The two books between which capital moves. -/
structure Position (κ V : Type) where
  ledger : Ledger κ
  vault : V

namespace Position

variable {κ V : Type}

/- An action on the ledger of a position. -/
def onLedger
    {α : Type}
    (a : Action (Ledger κ) α) : Action (Position κ V) α :=
  Action.within
    { get := fun s => s.ledger
      put := fun l s => { s with ledger := l } }
    a

/- An action on the vault of a position. -/
def onVault
    {α : Type}
    (a : Action V α) : Action (Position κ V) α :=
  Action.within
    { get := fun s => s.vault
      put := fun v s => { s with vault := v } }
    a

end Position

namespace Manager

variable {κ V : Type} [DecidableEq κ] [YieldVault κ V]

------------------------------------------------------------
-- Views
------------------------------------------------------------

/- The assets under management of the manager at a key. -/
def aum
    (key : κ)
    (vault : V) : Except Error UInt64 :=
  YieldVault.worth vault key

/- Cash as the ledger has it, managed as the vault has it. -/
def poolBalances
    (m : Manager κ)
    (key poolId : κ)
    (s : Position κ V) : Except Error Balances := do
  m.ensurePool poolId
  let cash := (← s.ledger.balances poolId m.token).cash
  let managed ← aum key s.vault
  return { cash := cash, managed := managed }

/-
  What the targets leave to invest, negative when too much
  is invested.
-/
def maxInvestable
    (m : Manager κ)
    (key poolId : κ)
    (s : Position κ V) : Except Error Int := do
  let held ← m.poolBalances key poolId s
  let band ← m.targets.band (← held.total)
  return FixedPoint.difference band.desired held.managed

------------------------------------------------------------
-- Moves
------------------------------------------------------------

variable [Zero κ]

/- Move cash into the vault.  Answers the shares gained. -/
def invest
    (m : Manager κ)
    (key poolId : κ)
    (amount : UInt64) : Action (Position κ V) UInt64 := do
  let held ← (← get).ledger.balances poolId m.token
  require (amount ≤ held.cash) .insufficientCash
  let shares ← Position.onVault
    (YieldVault.depositMeasured key amount)
  let value ← aum key (← get).vault
  Position.onLedger
    (Ledger.toManager key poolId m.token amount)
  Position.onLedger
    (Ledger.reportManaged key poolId m.token value)
  return shares

/-
  Move an amount out of the vault into cash.  The value held
  before is reported first, so that yield earned since the
  last report counts; what the vault delivers on top of the
  amount stays with the manager.  Answers the delivery.
-/
def divest
    (m : Manager κ)
    (key poolId : κ)
    (amount : UInt64) : Action (Position κ V) UInt64 := do
  let before ← aum key (← get).vault
  let received ← Position.onVault
    (YieldVault.withdrawMeasured key amount)
  let after ← aum key (← get).vault
  Position.onLedger
    (Ledger.reportManaged key poolId m.token before)
  Position.onLedger
    (Ledger.fromManager key poolId m.token amount)
  Position.onLedger
    (Ledger.reportManaged key poolId m.token after)
  return received

/- Move what is needed to reach the desired amount. -/
def moveTo
    (m : Manager κ)
    (key poolId : κ)
    (desired value : UInt64) :
    Action (Position κ V) Outcome := do
  if value < desired then
    let amount := desired - value
    let shares ← m.invest key poolId amount
    return .invested amount shares
  else if desired < value then
    let amount := value - desired
    let _ ← m.divest key poolId amount
    return .divested amount
  else
    return .balanced

/-
  Move the position to its target.  Unless forced, nothing
  happens while the value is inside the critical band.
-/
def rebalance
    (m : Manager κ)
    (key poolId : κ)
    (force : Bool) : Action (Position κ V) Outcome := do
  m.ensureLive poolId
  Action.atomically do
    let s ← get
    let cash := (← s.ledger.balances poolId m.token).cash
    let value ← aum key s.vault
    let held : Balances := { cash := cash, managed := value }
    let band ← m.targets.band (← held.total)
    if !force && !band.isBreached value then
      return .skipped
    else
      m.moveTo key poolId band.desired value

/- Invest an amount at the rebalancer's request. -/
def capitalIn
    (m : Manager κ)
    (caller key poolId : κ)
    (amount : UInt64) : Action (Position κ V) UInt64 := do
  require (caller = m.rebalancer) .onlyRebalancer
  m.ensureLive poolId
  Action.atomically (m.invest key poolId amount)

/- Divest an amount at the rebalancer's request. -/
def capitalOut
    (m : Manager κ)
    (caller key poolId : κ)
    (amount : UInt64) : Action (Position κ V) UInt64 := do
  require (caller = m.rebalancer) .onlyRebalancer
  m.ensureLive poolId
  Action.atomically (m.divest key poolId amount)

/- Report the current value as the managed balance. -/
def reportBalance
    (m : Manager κ)
    (key poolId : κ) : Action (Position κ V) UInt64 := do
  m.ensureLive poolId
  let value ← aum key (← get).vault
  Position.onLedger
    (Ledger.reportManaged key poolId m.token value)
  return value

end Manager

end YieldManager

import YieldManager.Manager.Reward
import YieldManager.Relay.Basic

/-
  A pool with one managed token: its ledger, the manager, the
  vault, and, where rewards are claimed, gauge and sink.

  Key definitions include:
    * `ManagedPool`
    * `ManagedPool.shortfall`
    * `ManagedPool.restore`
-/

------------------------------------------------------------
-- Managed Pools
------------------------------------------------------------

namespace YieldManager

/- A pool whose manager sits at `managerKey`. -/
structure ManagedPool (κ V G F : Type) where
  manager : Manager κ
  managerKey : κ
  ledger : Ledger κ
  vault : V
  gauge : Option G
  sink : Option F

namespace ManagedPool

variable {κ V G F : Type}

/- The pool's ledger, in a pool behind a lock. -/
def books :
    Part (Guarded (ManagedPool κ V G F)) (Ledger κ) where
  get s := s.pool.ledger
  put l s := { s with pool := { s.pool with ledger := l } }

/- Ledger and vault, in a pool behind a lock. -/
def position :
    Part (Guarded (ManagedPool κ V G F)) (Position κ V) where
  get s :=
    { ledger := s.pool.ledger, vault := s.pool.vault }
  put p s :=
    { s with
      pool :=
        { s.pool with ledger := p.ledger, vault := p.vault } }

/- A collaborator is put back if one is there to take it. -/
def putBack {α : Type} : Option α → Option α → Option α
  | some saved, some _ => some saved
  | none, current => current
  | some _, none => none

/-
  Put ledger, vault, gauge and sink back.  The manager, which
  no operation writes, is not part of the checkpoint.
-/
def restore
    (saved current : ManagedPool κ V G F) :
    ManagedPool κ V G F :=
  { current with
    ledger := saved.ledger
    vault := saved.vault
    gauge := putBack saved.gauge current.gauge
    sink := putBack saved.sink current.sink }

variable [DecidableEq κ]

/- The part of an exit of the token that cash leaves open. -/
def shortfall
    (p : ManagedPool κ V G F)
    (poolId : κ)
    (request : ExitRequest κ) : Except Error UInt64 := do
  let requested ← request.amountOut p.manager.token
  let held ← p.ledger.balances poolId p.manager.token
  return if held.cash ≤ requested then requested - held.cash
    else 0

/- Claim rewards, which takes a sink to forward them to. -/
def claim
    [RewardGauge κ G] [RewardSink κ F]
    (poolId : κ) :
    Action (Guarded (ManagedPool κ V G F))
      (List (TokenAmount κ)) := do
  let p := (← get).pool
  match p.sink with
  | none => throw .invalidDependency
  | some sink =>
      Action.within
        { get := fun s =>
            ({ gauge := s.pool.gauge, sink := sink } :
              RewardDesk G F)
          put := fun d s =>
            { s with
              pool :=
                { s.pool with
                  gauge := d.gauge
                  sink := some d.sink } } }
        (p.manager.claimRewards p.managerKey poolId)

instance
    [Zero κ] [YieldVault κ V]
    [RewardGauge κ G] [RewardSink κ F] :
    RelayedPool κ (ManagedPool κ V G F) where
  join sender poolId request :=
    Action.within books (Ledger.join sender poolId request)
  exit sender poolId request :=
    Action.within books (Ledger.exit sender poolId request)
  shortfall := shortfall
  capitalOut caller poolId amount := do
    let p := (← get).pool
    Action.within position
      (p.manager.capitalOut caller p.managerKey poolId amount)
  rebalance poolId force := do
    let p := (← get).pool
    Action.within position
      (p.manager.rebalance p.managerKey poolId force)
  claim := claim
  restore := restore

end ManagedPool

end YieldManager

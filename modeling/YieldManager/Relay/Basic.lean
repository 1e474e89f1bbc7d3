import YieldManager.Manager.Rebalance
import YieldManager.Relay.Account

/-
  The relayer fronts the joins, exits and reward claims of a
  managed pool.  A relayed call holds the relayer's lock for
  its whole duration, and one that fails puts the pool back
  as it was.  The pool's operations see the lock, since a
  pool may try to call the relayer again.

  Key definitions include:
    * `Guarded`
    * `RelayedPool`
    * `ExitReport`
    * `Relay.relayed`
    * `Relay.joinPool`
    * `Relay.exitPool`
    * `Relay.claimRewards`
-/

------------------------------------------------------------
-- Pools
------------------------------------------------------------

namespace YieldManager

/- A pool behind the lock of its relayer. -/
structure Guarded (P : Type) where
  lock : Lock
  pool : P

/-
  A type of pools that a relayer can operate.  `restore`
  puts a pool back to an earlier state of it, given that and
  the present one.
-/
class RelayedPool
    (κ : outParam Type)
    (P : Type) where
  join : κ → κ → JoinRequest κ → Action (Guarded P) Unit
  exit : κ → κ → ExitRequest κ → Action (Guarded P) Unit
  shortfall : P → κ → ExitRequest κ → Except Error UInt64
  capitalOut : κ → κ → UInt64 → Action (Guarded P) UInt64
  rebalance : κ → Bool → Action (Guarded P) Outcome
  claim : κ → Action (Guarded P) (List (TokenAmount κ))
  restore : P → P → P

/- The result of a relayed exit. -/
structure ExitReport where
  pulled : UInt64
  rebalance : Outcome
deriving DecidableEq, Repr

------------------------------------------------------------
-- Relayed Calls
------------------------------------------------------------

namespace Relay

variable {κ P α : Type} [RelayedPool κ P]

/-
  Run an operation under the lock.  A lock that is taken
  refuses the call before anything is touched.
-/
def relayed
    (op : Action (Guarded P) α) : Action (Guarded P) α :=
  fun s =>
    match s.lock with
    | .locked => .error .relayerReentered s
    | .idle =>
        match op { s with lock := .locked } with
        | .ok x t => .ok x { t with lock := .idle }
        | .error e t =>
            .error e
              { lock := .idle
                pool := RelayedPool.restore s.pool t.pool }

/- Join, then let the manager follow the new balance. -/
def joinPool
    (relayer poolId : κ)
    (request : JoinRequest κ) :
    Action (Guarded P) Outcome :=
  relayed do
    RelayedPool.join relayer poolId request
    RelayedPool.rebalance poolId false

/-
  Exit, after pulling from the manager whatever cash does not
  cover; then let the manager follow the new balance.
-/
def exitPool
    (relayer poolId : κ)
    (request : ExitRequest κ) :
    Action (Guarded P) ExitReport :=
  relayed do
    let s ← get
    let short ← RelayedPool.shortfall s.pool poolId request
    let pulled ←
      if 0 < short then
        RelayedPool.capitalOut relayer poolId short
      else
        pure 0
    RelayedPool.exit relayer poolId request
    let outcome ← RelayedPool.rebalance poolId false
    return { pulled := pulled, rebalance := outcome }

/- Claim the manager's rewards. -/
def claimRewards
    (poolId : κ) :
    Action (Guarded P) (List (TokenAmount κ)) :=
  relayed (RelayedPool.claim poolId)

end Relay

end YieldManager

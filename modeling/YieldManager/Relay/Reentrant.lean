import YieldManager.Relay.Basic

/-
  A pool that calls its relayer back.  After one of its own
  operations has succeeded it starts another relayed call on
  the pool inside it, and either swallows the error it gets
  or passes it on.  The answers to these calls are kept.

  Key definitions include:
    * `CallPoint`
    * `CallBack`
    * `RelayAnswer`
    * `ReentrantPool`
    * `ReentrantPool.callBack`
-/

------------------------------------------------------------
-- Call-Backs
------------------------------------------------------------

namespace YieldManager

/- An operation after which a pool may call back. -/
inductive CallPoint where
  | join
  | exit
  | capitalOut
  | rebalance
  | claim
deriving DecidableEq, Repr

/- What a pool calls back for. -/
inductive CallBack (κ : Type) where
  | join (request : JoinRequest κ)
  | exit (request : ExitRequest κ)
  | claim
deriving DecidableEq, Repr

/- What a relayed call answers. -/
inductive RelayAnswer (κ : Type) where
  | joined (outcome : Outcome)
  | exited (report : ExitReport)
  | claimed (rewards : List (TokenAmount κ))
deriving DecidableEq, Repr

/- The answer to a nested call, and the lock right after. -/
structure NestedAnswer (κ : Type) where
  answer : Except Error (RelayAnswer κ)
  lock : Lock

/- A pool that calls back, and the answers it got. -/
structure ReentrantPool (κ P : Type) where
  inner : P
  relayer : κ
  point : CallPoint
  call : CallBack κ
  propagates : Bool
  nested : List (NestedAnswer κ)

namespace ReentrantPool

variable {κ P α : Type} [RelayedPool κ P]

/- The pool inside, behind the same lock. -/
def guardedInner :
    Part (Guarded (ReentrantPool κ P)) (Guarded P) where
  get s := { lock := s.lock, pool := s.pool.inner }
  put t s :=
    { lock := t.lock
      pool := { s.pool with inner := t.pool } }

/- The nested call on the pool inside. -/
def nestedCall
    (relayer poolId : κ) :
    CallBack κ → Action (Guarded P) (RelayAnswer κ)
  | .join request => do
      let outcome ← Relay.joinPool relayer poolId request
      return .joined outcome
  | .exit request => do
      let report ← Relay.exitPool relayer poolId request
      return .exited report
  | .claim => do
      let rewards ← Relay.claimRewards poolId
      return .claimed rewards

/-
  Make the nested call if this is the point for it, note its
  answer, and pass on its error if the pool does so.
-/
def callBack
    (point : CallPoint)
    (poolId : κ) :
    Action (Guarded (ReentrantPool κ P)) Unit := do
  let p := (← get).pool
  if p.point = point then
    let done :=
      Action.perform
        (Action.within guardedInner
          (nestedCall p.relayer poolId p.call))
        (← get)
    set done.2
    modify fun s =>
      { s with
        pool :=
          { s.pool with
            nested := s.pool.nested ++
              [{ answer := done.1, lock := s.lock }] } }
    match done.1 with
    | .ok _ => pure ()
    | .error e => if p.propagates then throw e else pure ()
  else
    pure ()

/- An operation of the pool inside, and then the call-back. -/
def thenCallBack
    (point : CallPoint)
    (poolId : κ)
    (op : Action (Guarded P) α) :
    Action (Guarded (ReentrantPool κ P)) α := do
  let x ← Action.within guardedInner op
  callBack point poolId
  return x

instance : RelayedPool κ (ReentrantPool κ P) where
  join sender poolId request :=
    thenCallBack .join poolId
      (RelayedPool.join sender poolId request)
  exit sender poolId request :=
    thenCallBack .exit poolId
      (RelayedPool.exit sender poolId request)
  shortfall p poolId request :=
    RelayedPool.shortfall p.inner poolId request
  capitalOut caller poolId amount :=
    thenCallBack .capitalOut poolId
      (RelayedPool.capitalOut caller poolId amount)
  rebalance poolId force :=
    thenCallBack .rebalance poolId
      (RelayedPool.rebalance poolId force)
  claim poolId :=
    thenCallBack .claim poolId (RelayedPool.claim poolId)
  restore saved current :=
    { current with
      inner :=
        RelayedPool.restore saved.inner current.inner }

end ReentrantPool

end YieldManager

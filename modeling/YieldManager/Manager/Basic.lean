import YieldManager.Band
import YieldManager.Ledger.Basic
import YieldManager.Vault.Basic

/-
  The asset manager of one token of one pool: whom it works
  for, which vault it invests in, and how much.  A manager is
  created from terms, bound to its pool, and activated once;
  from then on it is live.

  Key definitions include:
    * `Terms`
    * `Manager`
    * `Manager.create`
    * `Manager.bind`
    * `Manager.activate`
    * `Manager.setTargets`
-/

------------------------------------------------------------
-- Managers
------------------------------------------------------------

namespace YieldManager

/- The terms on which a manager is created. -/
structure Terms (κ : Type) where
  poolId : κ
  token : κ
  custodian : κ
  vault : κ
  forwarder : κ
  gauge : Option κ
deriving DecidableEq, Repr

/-
  A manager.  The custodian is the pool's ledger.  The
  rebalancer may move capital, and the authority sets the
  targets.
-/
structure Manager (κ : Type) where
  poolId : κ
  token : κ
  custodian : κ
  vault : κ
  forwarder : κ
  gauge : Option κ
  rebalancer : κ
  authority : κ
  targets : Targets
  live : Bool
  bump : UInt8
deriving DecidableEq, Repr

namespace Manager

variable {κ : Type} [DecidableEq κ]

/- The manager works for the given pool. -/
def ensurePool
    (m : Manager κ)
    (poolId : κ) : Except Error Unit :=
  require (m.poolId = poolId) .incorrectPoolId

/- The manager works for the given pool and is live. -/
def ensureLive
    (m : Manager κ)
    (poolId : κ) : Except Error Unit := do
  m.ensurePool poolId
  require (m.live = true) .notInitialized

------------------------------------------------------------
-- Life Cycle
------------------------------------------------------------

/- A new manager, unbound, not live, and investing nothing. -/
def create
    [Zero κ]
    (terms : Terms κ)
    (bump : UInt8) : Except Error (Manager κ) := do
  require (terms.custodian ≠ 0) .zeroCustodian
  require (terms.vault ≠ 0) .zeroYieldVault
  require (terms.token ≠ 0) .zeroToken
  require (terms.forwarder ≠ 0) .zeroRewardForwarder
  return { poolId := terms.poolId
           token := terms.token
           custodian := terms.custodian
           vault := terms.vault
           forwarder := terms.forwarder
           gauge := terms.gauge
           rebalancer := 0
           authority := 0
           targets := Targets.none
           live := false
           bump := bump }

/-
  Tie a manager to its pool at the request of the pool's
  authority.  Ledger and vault have to be those of the terms,
  and the vault has to take the managed token.
-/
def bind
    {V : Type} [YieldVault κ V]
    (creator ledgerKey : κ)
    (ledger : Ledger κ)
    (vaultKey : κ)
    (vault : V) : Action (Manager κ) Unit := do
  let m ← get
  require (creator = ledger.authority) .onlyPool
  require (m.custodian = ledgerKey) .invalidDependency
  m.ensurePool ledger.poolId
  require (m.vault = vaultKey) .invalidDependency
  require (YieldVault.asset vault = m.token)
    .vaultAssetMismatch
  modify fun m =>
    { m with
      authority := ledger.authority
      rebalancer := ledger.relayer }

/-
  Register the manager under its key as the token's manager
  and make it live.  This succeeds once.
-/
def activate
    [Zero κ]
    (key poolId : κ) :
    Action (Manager κ × Ledger κ) Unit := do
  let m := (← get).1
  require (m.live = false) .alreadyInitialized
  require (poolId ≠ 0) .emptyPoolId
  m.ensurePool poolId
  Action.within .second
    (Ledger.register poolId m.token key)
  modify fun s => ({ s.1 with live := true }, s.2)

/- Set the targets at the request of the pool's authority. -/
def setTargets
    (caller poolId : κ)
    (targets : Targets) : Action (Manager κ) Unit := do
  let m ← get
  require (caller = m.authority) .onlyPool
  m.ensurePool poolId
  targets.validate
  modify fun m => { m with targets := targets }

end Manager

end YieldManager

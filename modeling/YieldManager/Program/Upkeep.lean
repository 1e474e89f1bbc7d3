import YieldManager.Program.Execution

/-
  The instructions by which an authority, or anyone where no
  authority is needed, tends accounts that are open: adding
  tokens and rewards, activating a manager, and setting its
  targets.

  Key definitions include:
    * `Upkeep.registerToken`
    * `Upkeep.accrueRewards`
    * `Upkeep.activate`
    * `Upkeep.setTargets`
-/

------------------------------------------------------------
-- Ledgers and Gauges
------------------------------------------------------------

namespace YieldManager

namespace Upkeep

/- The authority of a ledger, the ledger, and a mint. -/
def ledgerAndMint :
    Loader (Meta × Loaded Ledger × Address) := do
  let authority ← Loader.signer "authority"
  let ledger ← Loader.record Ledger "pool_ledger"
  let mint ← Loader.mint "mint"
  return (authority, ledger, mint)

/- Add a token to a ledger. -/
def registerToken
    (store : Store)
    (metas : List Meta) : Except Fault Effect := do
  let (authority, ledger, mint) ←
    ledgerAndMint.load store metas
  ledger.expectDerived .ledger [ledger.value.poolId]
  ledger.expectWritable
  ledger.expect (ledger.value.authority = authority.key)
    .onlyPool
  let (_, book) ←
    Fault.ofAction (Ledger.addToken mint) ledger.value
  Fault.ofRule
    (require (book.isValid = true) .invalidLedgerConfig)
  return { writes := [← ledger.write book]
           receipt :=
             { answer := .nothing
               log := [.tokenRegistered mint]
               events := [] } }

/- The authority of a gauge, and the gauge. -/
def gaugeAccounts : Loader (Meta × Loaded Gauge) := do
  let authority ← Loader.signer "authority"
  let gauge ← Loader.record Gauge "gauge"
  return (authority, gauge)

/- Let rewards accrue to a holder. -/
def accrueRewards
    (holder : Address)
    (amount : UInt64)
    (store : Store)
    (metas : List Meta) : Except Fault Effect := do
  let (authority, gauge) ← gaugeAccounts.load store metas
  gauge.expectDerived .gauge [gauge.value.vault]
  gauge.expectWritable
  gauge.expect (gauge.value.authority = authority.key)
    .invalidDependency
  let (_, accrued) ←
    Fault.ofAction (Gauge.accrue holder amount) gauge.value
  return { writes := [← gauge.write accrued]
           receipt :=
             { answer := .nothing
               log := [.rewardsAccrued amount holder]
               events := [] } }

------------------------------------------------------------
-- Managers
------------------------------------------------------------

/- A caller, a manager, and its ledger. -/
def managerAndLedger :
    Loader (Loaded Manager × Loaded Ledger) := do
  let _ ← Loader.signer "caller"
  let manager ← Loader.record Manager "asset_manager"
  let ledger ← Loader.record Ledger "pool_ledger"
  return (manager, ledger)

/- Make a manager live. -/
def activate
    (poolId : Address)
    (store : Store)
    (metas : List Meta) : Except Fault Effect := do
  let (manager, ledger) ← managerAndLedger.load store metas
  manager.expectDerived .manager
    [manager.value.poolId, manager.value.token]
  manager.expectWritable
  ledger.expectWritable
  ledger.expect (ledger.key = manager.value.custodian)
    .invalidDependency
  let (_, after) ← Fault.ofAction
    (Manager.activate manager.key poolId)
    (manager.value, ledger.value)
  return { writes :=
             [← manager.write after.1, ← ledger.write after.2]
           receipt :=
             { answer := .nothing
               log := [.managerActivated]
               events :=
                 [.managerActivated manager.key poolId] } }

/- The authority of a pool, and a manager. -/
def managerAccounts : Loader (Meta × Loaded Manager) := do
  let authority ← Loader.signer "authority"
  let manager ← Loader.record Manager "asset_manager"
  return (authority, manager)

/- Set the targets of a manager. -/
def setTargets
    (poolId : Address)
    (targets : Targets)
    (store : Store)
    (metas : List Meta) : Except Fault Effect := do
  let (authority, manager) ← managerAccounts.load store metas
  manager.expectDerived .manager
    [manager.value.poolId, manager.value.token]
  manager.expectWritable
  let (_, set) ← Fault.ofAction
    (Manager.setTargets authority.key poolId targets)
    manager.value
  return { writes := [← manager.write set]
           receipt :=
             { answer := .nothing
               log := []
               events := [.targetsSet manager.key targets] } }

end Upkeep

end YieldManager

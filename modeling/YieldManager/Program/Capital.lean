import YieldManager.Program.Execution

/-
  The instructions that move the capital of a manager or
  report its value, and the views of it.

  Key definitions include:
    * `Capital.rebalance`
    * `Capital.capitalIn`
    * `Capital.capitalOut`
    * `Capital.reportBalance`
    * `Capital.viewAum`
    * `Capital.viewBalances`
    * `Capital.viewMaxInvestable`
    * `Capital.viewToken`
-/

------------------------------------------------------------
-- Accounts
------------------------------------------------------------

namespace YieldManager

namespace Capital

/- A manager, its ledger, and its vault. -/
structure Desk where
  manager : Loaded Manager
  ledger : Loaded Ledger
  vault : Loaded ShareVault

namespace Desk

/- The books between which the manager moves capital. -/
def position (d : Desk) :
    Position Address (ShareVault Address) where
  ledger := d.ledger.value
  vault := d.vault.value

/- Take manager, ledger and vault off the list. -/
def take : Loader Desk := do
  let manager ← Loader.record Manager "asset_manager"
  let ledger ← Loader.record Ledger "pool_ledger"
  let vault ← Loader.record ShareVault "share_vault"
  return { manager := manager, ledger := ledger,
           vault := vault }

/- The manager lies at the address derived for it. -/
def expectManager (d : Desk) : Except Fault Unit :=
  d.manager.expectDerived .manager
    [d.manager.value.poolId, d.manager.value.token]

/- The ledger is the one the manager works with. -/
def expectLedger (d : Desk) : Except Fault Unit :=
  d.ledger.expect
    (d.ledger.key = d.manager.value.custodian)
    .invalidDependency

/- The vault is the one the manager invests in. -/
def expectVault (d : Desk) : Except Fault Unit :=
  d.vault.expect
    (d.vault.key = d.manager.value.vault)
    .invalidDependency

/- Ledger and vault are the manager's, and can be written. -/
def expectBooks (d : Desk) : Except Fault Unit := do
  d.ledger.expectWritable
  d.expectLedger
  d.vault.expectWritable
  d.expectVault

/- Write ledger and vault. -/
def write
    (d : Desk)
    (p : Position Address (ShareVault Address)) :
    Except Fault (List (Address × Account)) := do
  return [← d.ledger.write p.ledger, ← d.vault.write p.vault]

end Desk

/- A caller, and a manager with its books. -/
def callerDesk : Loader Desk := do
  let _ ← Loader.signer "caller"
  Desk.take

/- The authority of a relayer, the relayer, and the desk. -/
def relayerDesk :
    Loader (Meta × Loaded RelayerAccount × Desk) := do
  let authority ← Loader.signer "authority"
  let relayer ← Loader.record RelayerAccount "relayer"
  let desk ← Desk.take
  return (authority, relayer, desk)

------------------------------------------------------------
-- Moves
------------------------------------------------------------

/- Rebalance a manager at anyone's request. -/
def rebalance
    (poolId : Address)
    (force : Bool)
    (store : Store)
    (metas : List Meta) : Except Fault Effect := do
  let d ← callerDesk.load store metas
  d.expectManager
  d.expectBooks
  let m := d.manager.value
  let (outcome, after) ← Fault.ofAction
    (m.rebalance d.manager.key poolId force) d.position
  let balances ←
    Fault.ofRule (after.ledger.balances poolId m.token)
  return { writes := ← d.write after
           receipt :=
             { answer := .nothing
               log := [.rebalanced outcome]
               events :=
                 [.rebalanced d.manager.key force
                   outcome.amountInvested
                   outcome.amountDivested balances] } }

/- The relayer's authority may act for the relayer. -/
def expectRelayer
    (authority : Meta)
    (relayer : Loaded RelayerAccount)
    (d : Desk) : Except Fault Unit := do
  relayer.expectDerived .relayer [relayer.value.poolId]
  relayer.expect (relayer.value.authority = authority.key)
    .onlyRebalancer
  d.expectManager
  d.manager.expect
    (d.manager.value.poolId = relayer.value.poolId)
    .incorrectPoolId
  d.expectBooks

/- Invest an amount for the relayer. -/
def capitalIn
    (poolId : Address)
    (amount : UInt64)
    (store : Store)
    (metas : List Meta) : Except Fault Effect := do
  let (authority, relayer, d) ← relayerDesk.load store metas
  expectRelayer authority relayer d
  let m := d.manager.value
  let (shares, after) ← Fault.ofAction
    (m.capitalIn relayer.key d.manager.key poolId amount)
    d.position
  return { writes := ← d.write after
           receipt :=
             { answer := .amount shares
               log := [.capitalIn amount shares]
               events := [] } }

/- Divest an amount for the relayer. -/
def capitalOut
    (poolId : Address)
    (amount : UInt64)
    (store : Store)
    (metas : List Meta) : Except Fault Effect := do
  let (authority, relayer, d) ← relayerDesk.load store metas
  expectRelayer authority relayer d
  let m := d.manager.value
  let (received, after) ← Fault.ofAction
    (m.capitalOut relayer.key d.manager.key poolId amount)
    d.position
  return { writes := ← d.write after
           receipt :=
             { answer := .amount received
               log := [.capitalOut received]
               events := [] } }

/- Report the value of a manager at anyone's request. -/
def reportBalance
    (poolId : Address)
    (store : Store)
    (metas : List Meta) : Except Fault Effect := do
  let d ← callerDesk.load store metas
  d.expectManager
  d.ledger.expectWritable
  d.expectLedger
  d.expectVault
  let m := d.manager.value
  let (managed, after) ← Fault.ofAction
    (m.reportBalance d.manager.key poolId) d.position
  return { writes := [← d.ledger.write after.ledger]
           receipt :=
             { answer := .nothing
               log := []
               events :=
                 [.balanceReported d.manager.key managed] } }

------------------------------------------------------------
-- Views
------------------------------------------------------------

/- Answer a question about a manager and its books. -/
def view
    (question : Desk → Except Error Answer)
    (store : Store)
    (metas : List Meta) : Except Fault Effect := do
  let d ← Desk.take.load store metas
  d.expectLedger
  d.expectVault
  let answer ← Fault.ofRule (question d)
  return { writes := []
           receipt :=
             { answer := answer, log := [], events := [] } }

/- The value of the manager's shares. -/
def viewAum
    (store : Store)
    (metas : List Meta) : Except Fault Effect :=
  view
    (fun d =>
      return .amount
        (← Manager.aum d.manager.key d.vault.value))
    store metas

/- The pool's cash, and the value of the manager's shares. -/
def viewBalances
    (poolId : Address)
    (store : Store)
    (metas : List Meta) : Except Fault Effect :=
  view
    (fun d =>
      return .balances
        (← d.manager.value.poolBalances d.manager.key poolId
          d.position))
    store metas

/- What the targets leave to invest. -/
def viewMaxInvestable
    (poolId : Address)
    (store : Store)
    (metas : List Meta) : Except Fault Effect :=
  view
    (fun d =>
      return .signed
        (← d.manager.value.maxInvestable d.manager.key poolId
          d.position))
    store metas

/- The managed token. -/
def viewToken
    (store : Store)
    (metas : List Meta) : Except Fault Effect :=
  view (fun d => return .key d.manager.value.token)
    store metas

end Capital

end YieldManager

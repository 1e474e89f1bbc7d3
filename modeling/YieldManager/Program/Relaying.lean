import YieldManager.Program.Execution
import YieldManager.Relay.Pool

/-
  The instructions that go through a relayer: joining and
  exiting a pool, and claiming the rewards of its manager.

  Key definitions include:
    * `Relaying.joinPool`
    * `Relaying.exitPool`
    * `Relaying.claimRewards`
-/

------------------------------------------------------------
-- Accounts
------------------------------------------------------------

namespace YieldManager

namespace Relaying

/- A sender, a relayer, and the pool it fronts. -/
structure Desk where
  sender : Meta
  relayer : Loaded RelayerAccount
  ledger : Loaded Ledger
  manager : Loaded Manager
  vault : Loaded ShareVault

/- The pool as instructions relay to it. -/
abbrev Pool :=
  ManagedPool Address (ShareVault Address) (Gauge Address)
    (Forwarder Address)

namespace Desk

/- Take sender, relayer and pool off the list. -/
def take (sender : String) : Loader Desk := do
  let sender ← Loader.signer sender
  let relayer ← Loader.record RelayerAccount "relayer"
  let ledger ← Loader.record Ledger "pool_ledger"
  let manager ← Loader.record Manager "asset_manager"
  let vault ← Loader.record ShareVault "share_vault"
  return { sender := sender, relayer := relayer,
           ledger := ledger, manager := manager,
           vault := vault }

/- The pool behind the relayer's lock. -/
def guarded
    (d : Desk)
    (gauge : Option (Gauge Address))
    (sink : Option (Forwarder Address)) : Guarded Pool where
  lock := d.relayer.value.lock
  pool :=
    { manager := d.manager.value
      managerKey := d.manager.key
      ledger := d.ledger.value
      vault := d.vault.value
      gauge := gauge
      sink := sink }

/- Relayer and ledger belong together, and are writable. -/
def expectRelayer
    (d : Desk)
    (poolId : Address) : Except Fault Unit := do
  d.relayer.expectDerived .relayer [poolId]
  d.relayer.expectWritable
  d.ledger.expectWritable
  d.ledger.expect (d.ledger.key = d.relayer.value.ledger)
    .invalidDependency

/- The manager works with the ledger. -/
def expectManager (d : Desk) : Except Fault Unit := do
  d.manager.expectDerived .manager
    [d.manager.value.poolId, d.manager.value.token]
  d.manager.expect
    (d.manager.value.custodian = d.ledger.key)
    .invalidDependency

/- The manager takes capital moves from the relayer. -/
def expectRebalancer (d : Desk) : Except Fault Unit :=
  d.manager.expect
    (d.manager.value.rebalancer = d.relayer.key)
    .onlyRebalancer

/- The vault is the manager's, and is writable. -/
def expectVault (d : Desk) : Except Fault Unit := do
  d.vault.expectWritable
  d.vault.expect (d.vault.key = d.manager.value.vault)
    .invalidDependency

/- Write relayer, ledger and vault. -/
def write
    (d : Desk)
    (s : Guarded Pool) :
    Except Fault (List (Address × Account)) := do
  return [← d.relayer.write
            { d.relayer.value with lock := s.lock },
          ← d.ledger.write s.pool.ledger,
          ← d.vault.write s.pool.vault]

end Desk

------------------------------------------------------------
-- Joins and Exits
------------------------------------------------------------

/- Join a pool. -/
def joinPool
    (poolId recipient : Address)
    (request : JoinRequest Address)
    (store : Store)
    (metas : List Meta) : Except Fault Effect := do
  let d ← (Desk.take "sender").load store metas
  d.expectRelayer poolId
  d.expectManager
  d.expectRebalancer
  d.expectVault
  let (outcome, after) ← Fault.ofAction
    (Relay.joinPool d.relayer.key poolId request)
    (d.guarded none none)
  return { writes := ← d.write after
           receipt :=
             { answer := .nothing
               log := [.poolJoined outcome]
               events :=
                 [.poolJoined poolId d.sender.key recipient
                   outcome.amountInvested
                   outcome.amountDivested] } }

/- Exit a pool. -/
def exitPool
    (poolId recipient : Address)
    (request : ExitRequest Address)
    (store : Store)
    (metas : List Meta) : Except Fault Effect := do
  let d ← (Desk.take "sender").load store metas
  d.expectRelayer poolId
  d.expectManager
  d.expectRebalancer
  d.expectVault
  let (report, after) ← Fault.ofAction
    (Relay.exitPool d.relayer.key poolId request)
    (d.guarded none none)
  return { writes := ← d.write after
           receipt :=
             { answer := .nothing
               log := [.poolExited report.pulled]
               events :=
                 [.poolExited poolId d.sender.key recipient
                   report.pulled
                   report.rebalance.amountInvested
                   report.rebalance.amountDivested] } }

------------------------------------------------------------
-- Rewards
------------------------------------------------------------

/- A desk, its gauge if one is given, and its forwarder. -/
def rewardDesk :
    Loader
      (Desk × Option (Loaded Gauge) × Loaded Forwarder) := do
  let d ← Desk.take "caller"
  let gauge ← Loader.record? Gauge "gauge"
  let forwarder ← Loader.record Forwarder "reward_forwarder"
  return (d, gauge, forwarder)

/- A gauge that is given is the manager's, and writable. -/
def expectGauge
    (d : Desk) :
    Option (Loaded Gauge) → Except Fault Unit
  | none => .ok ()
  | some gauge => do
      gauge.expectWritable
      gauge.expect (d.manager.value.gauge = some gauge.key)
        .invalidDependency

/- Write the gauge, if one was given. -/
def writeGauge :
    Option (Loaded Gauge) → Option (Gauge Address) →
      Except Fault (List (Address × Account))
  | some loaded, some gauge => do
      return [← loaded.write gauge]
  | _, _ => .ok []

/- Write the forwarder. -/
def writeForwarder
    (loaded : Loaded Forwarder) :
    Option (Forwarder Address) →
      Except Fault (List (Address × Account))
  | some forwarder => do
      return [← loaded.write forwarder]
  | none => .ok []

/- Claim the rewards of a pool's manager. -/
def claimRewards
    (poolId : Address)
    (store : Store)
    (metas : List Meta) : Except Fault Effect := do
  let (d, gauge, forwarder) ← rewardDesk.load store metas
  d.expectRelayer poolId
  d.expectManager
  d.expectVault
  expectGauge d gauge
  forwarder.expectWritable
  forwarder.expect
    (forwarder.key = d.manager.value.forwarder)
    .invalidDependency
  let (rewards, after) ← Fault.ofAction
    (Relay.claimRewards poolId)
    (d.guarded (gauge.map Loaded.value) (some forwarder.value))
  return { writes :=
             (← d.write after) ++
               (← writeGauge gauge after.pool.gauge) ++
               (← writeForwarder forwarder after.pool.sink)
           receipt :=
             { answer := .nothing
               log := [.rewardsClaimed rewards.length]
               events := rewards.map
                 (.rewardForwarded d.manager.key
                   forwarder.key) } }

end Relaying

end YieldManager

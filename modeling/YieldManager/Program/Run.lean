import YieldManager.Program.Capital
import YieldManager.Program.Creation
import YieldManager.Program.Instruction
import YieldManager.Program.Relaying
import YieldManager.Program.Upkeep

/-
  The program: what an instruction does to a store, and what
  a sequence of them does.  An instruction that fails leaves
  the store as it was.

  Key definitions include:
    * `Instruction.effect`
    * `Program.execute`
    * `Program.executeBytes`
    * `Call`
    * `Program.step`
    * `Program.run`
-/

------------------------------------------------------------
-- Instructions
------------------------------------------------------------

namespace YieldManager

namespace Instruction

/- The effect of an instruction on the listed accounts. -/
def effect :
    Instruction Address → Store → List Meta →
      Except Fault Effect
  | createLedger poolId => Creation.ledger poolId
  | registerToken => Upkeep.registerToken
  | createShareVault feeBps => Creation.shareVault feeBps
  | createGauge => Creation.gauge
  | accrueRewards holder amount =>
      Upkeep.accrueRewards holder amount
  | createForwarder => Creation.forwarder
  | createManager terms => Creation.manager terms
  | activate poolId => Upkeep.activate poolId
  | setTargets poolId targets =>
      Upkeep.setTargets poolId targets
  | rebalance poolId force => Capital.rebalance poolId force
  | capitalIn poolId amount =>
      Capital.capitalIn poolId amount
  | capitalOut poolId amount =>
      Capital.capitalOut poolId amount
  | reportBalance poolId => Capital.reportBalance poolId
  | viewAum => Capital.viewAum
  | viewBalances poolId => Capital.viewBalances poolId
  | viewMaxInvestable poolId =>
      Capital.viewMaxInvestable poolId
  | viewToken => Capital.viewToken
  | createRelayer poolId => Creation.relayer poolId
  | joinPool poolId recipient request =>
      Relaying.joinPool poolId recipient request
  | exitPool poolId recipient request =>
      Relaying.exitPool poolId recipient request
  | claimRewards poolId => Relaying.claimRewards poolId

end Instruction

------------------------------------------------------------
-- Execution
------------------------------------------------------------

/- A call of the program as the host makes it. -/
structure Call where
  programId : Address
  metas : List Meta
  instruction : Instruction Address

namespace Program

/- The host runs the program under its own address. -/
def expectProgram (programId : Address) : Except Fault Unit :=
  if programId = Address.program then .ok ()
  else .error (.general .otherProgram)

/- Execute a call: its receipt, and the store afterwards. -/
def execute
    (store : Store)
    (call : Call) : Except Fault (Receipt × Store) := do
  expectProgram call.programId
  let effect ← call.instruction.effect store call.metas
  return (effect.receipt, store.insertAll effect.writes)

/- Execute an instruction that is given as bytes. -/
def executeBytes
    (store : Store)
    (programId : Address)
    (metas : List Meta)
    (bytes : List UInt8) :
    Except Fault (Receipt × Store) := do
  expectProgram programId
  match Instruction.ofBytes Address.blank bytes with
  | .error r => .error (.general r)
  | .ok instruction =>
      execute store
        { programId := programId
          metas := metas
          instruction := instruction }

/- The store after a call, whether it succeeds or fails. -/
def step
    (store : Store)
    (call : Call) : Store :=
  match execute store call with
  | .ok (_, after) => after
  | .error _ => store

/- The store after a sequence of calls. -/
def run
    (store : Store)
    (calls : List Call) : Store :=
  calls.foldl step store

end Program

end YieldManager

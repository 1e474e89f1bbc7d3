import YieldManager.Program.Address
import YieldManager.Program.Fault

/-
  The instructions of the program and their byte layout: an
  eight-byte tag that names the instruction, and then its
  arguments.  Bytes after the arguments are not looked at.

  Key definitions include:
    * `Instruction`
    * `Instruction.readers`
    * `Instruction.eventTag`
    * `Instruction.ofBytes`
-/

------------------------------------------------------------
-- Instructions
------------------------------------------------------------

namespace YieldManager

/- An instruction with its arguments. -/
inductive Instruction (κ : Type) where
  -- pools
  | createLedger (poolId : κ)
  | registerToken
  -- vaults and rewards
  | createShareVault (feeBps : UInt64)
  | createGauge
  | accrueRewards (holder : κ) (amount : UInt64)
  | createForwarder
  -- managers
  | createManager (terms : Terms κ)
  | activate (poolId : κ)
  | setTargets (poolId : κ) (targets : Targets)
  | rebalance (poolId : κ) (force : Bool)
  | capitalIn (poolId : κ) (amount : UInt64)
  | capitalOut (poolId : κ) (amount : UInt64)
  | reportBalance (poolId : κ)
  -- views
  | viewAum
  | viewBalances (poolId : κ)
  | viewMaxInvestable (poolId : κ)
  | viewToken
  -- relayers
  | createRelayer (poolId : κ)
  | joinPool
      (poolId recipient : κ)
      (request : JoinRequest κ)
  | exitPool
      (poolId recipient : κ)
      (request : ExitRequest κ)
  | claimRewards (poolId : κ)
deriving DecidableEq, Repr

namespace Instruction

variable {κ : Type}

------------------------------------------------------------
-- Instruction Bytes
------------------------------------------------------------

/- A reader of the arguments of one instruction. -/
abbrev Reader (κ : Type) :=
  List UInt8 → Option (Instruction κ)

/- Read arguments in a layout. -/
def reader
    {α : Type}
    (c : Codec α)
    (build : α → Instruction κ) : Reader κ := fun bytes =>
  (c.decode bytes).map fun p => build p.1

/- An instruction without arguments. -/
def plain (i : Instruction κ) : Reader κ := fun _ =>
  some i

/- The readers of the instructions on pools and vaults. -/
def poolReaders
    (key : Codec κ) : List (List UInt8 × Reader κ) :=
  [ ([0x79, 0x33, 0x7a, 0xa4, 0x27, 0x7c, 0x40, 0x8b],
      reader key createLedger),
    ([0x67, 0x00, 0x4d, 0x4b, 0x0e, 0xfe, 0x5c, 0xa5],
      plain registerToken),
    ([0x77, 0x5c, 0xf9, 0xca, 0x9e, 0x28, 0xe1, 0xf0],
      reader .amount createShareVault),
    ([0x24, 0x5c, 0x94, 0x66, 0xb9, 0xe0, 0x8d, 0x7e],
      plain createGauge),
    ([0xd5, 0x91, 0xed, 0xa3, 0xc8, 0x45, 0x65, 0xa6],
      reader (key.pair .amount)
        fun (holder, amount) => accrueRewards holder amount),
    ([0x9f, 0x8b, 0x4d, 0xf7, 0x33, 0x37, 0xb1, 0x46],
      plain createForwarder) ]

/- The readers of the instructions on managers. -/
def managerReaders
    (key : Codec κ) : List (List UInt8 × Reader κ) :=
  [ ([0x1e, 0xed, 0xff, 0x32, 0x44, 0xd2, 0x14, 0x1e],
      reader (Wire.terms key) createManager),
    ([0xaf, 0xaf, 0x6d, 0x1f, 0x0d, 0x98, 0x9b, 0xed],
      reader key activate),
    ([0x6c, 0x9e, 0x9a, 0xaf, 0xd4, 0x62, 0x34, 0x42],
      reader (key.pair Wire.targets)
        fun (poolId, targets) => setTargets poolId targets),
    ([0x6c, 0x9e, 0x4d, 0x09, 0xd2, 0x34, 0x58, 0x3e],
      reader (key.pair .bool)
        fun (poolId, force) => rebalance poolId force),
    ([0x97, 0x2f, 0x72, 0xa3, 0x95, 0x1d, 0xec, 0x69],
      reader (key.pair .amount)
        fun (poolId, amount) => capitalIn poolId amount),
    ([0x37, 0x5a, 0xe2, 0xda, 0x90, 0x91, 0x8e, 0x89],
      reader (key.pair .amount)
        fun (poolId, amount) => capitalOut poolId amount),
    ([0x17, 0x4d, 0xd8, 0x4e, 0xac, 0x8c, 0xae, 0xcc],
      reader key reportBalance) ]

/- The readers of the views. -/
def viewReaders
    (key : Codec κ) : List (List UInt8 × Reader κ) :=
  [ ([0x31, 0x3e, 0x55, 0x44, 0xec, 0x47, 0x7b, 0xde],
      plain viewAum),
    ([0xd9, 0x95, 0x30, 0xc7, 0xc3, 0xe9, 0x36, 0x35],
      reader key viewBalances),
    ([0xed, 0x41, 0x35, 0xa4, 0xf1, 0xce, 0x89, 0xbd],
      reader key viewMaxInvestable),
    ([0xfd, 0x6b, 0xbf, 0x1d, 0x27, 0x4d, 0x27, 0xa0],
      plain viewToken) ]

/- The readers of the instructions on relayers. -/
def relayerReaders
    (key : Codec κ) : List (List UInt8 × Reader κ) :=
  [ ([0xed, 0x8c, 0xf2, 0x9e, 0xdf, 0x19, 0x8a, 0xa5],
      reader key createRelayer),
    ([0x0e, 0x41, 0x3e, 0x10, 0x74, 0x11, 0xc3, 0x6b],
      reader (key.pair (key.pair (Wire.joinRequest key)))
        fun (poolId, recipient, request) =>
          joinPool poolId recipient request),
    ([0x06, 0x9c, 0x57, 0xbb, 0xc3, 0x65, 0xde, 0x8f],
      reader (key.pair (key.pair (Wire.exitRequest key)))
        fun (poolId, recipient, request) =>
          exitPool poolId recipient request),
    ([0xb3, 0x50, 0xa3, 0x3f, 0xf7, 0xbb, 0x3e, 0xc7],
      reader key claimRewards) ]

/- The tags of all instructions, each with its reader. -/
def readers
    (key : Codec κ) : List (List UInt8 × Reader κ) :=
  poolReaders key ++ managerReaders key ++
    viewReaders key ++ relayerReaders key

/-
  The tag under which a program calls itself to record its
  events.  This program hands its events to the host instead
  and refuses such calls.
-/
def eventTag : List UInt8 :=
  [0xe4, 0x45, 0xa5, 0x2e, 0x51, 0xcb, 0x9a, 0x1d]

/- Read an instruction. -/
def ofBytes
    (key : Codec κ)
    (bytes : List UInt8) :
    Except Refusal (Instruction κ) :=
  match (readers key).find?
      fun r => r.1.isPrefixOf bytes with
  | none =>
      if eventTag.isPrefixOf bytes then
        .error .eventCall
      else
        .error .unknownInstruction
  | some (tag, read) =>
      match read (bytes.drop tag.length) with
      | some i => .ok i
      | none => .error .badArguments

------------------------------------------------------------
-- What Clients Mark
------------------------------------------------------------

/- How a client marks one account of an instruction. -/
inductive Role where
  | reads
  | writes
  | signs
  | pays
deriving DecidableEq, Repr

/- The accounts of an instruction, as clients mark them. -/
def roles : Instruction κ → List Role
  | createLedger _ => [.pays, .writes, .reads]
  | registerToken => [.signs, .writes, .reads]
  | createShareVault _ => [.pays, .reads, .writes, .reads]
  | createGauge => [.pays, .reads, .reads, .writes, .reads]
  | accrueRewards _ _ => [.signs, .writes]
  | createForwarder => [.pays, .writes, .reads]
  | createManager _ =>
      [.pays, .reads, .reads, .writes, .reads]
  | activate _ => [.signs, .writes, .writes]
  | setTargets _ _ => [.signs, .writes]
  | rebalance _ _ => [.signs, .reads, .writes, .writes]
  | capitalIn _ _ =>
      [.signs, .reads, .reads, .writes, .writes]
  | capitalOut _ _ =>
      [.signs, .reads, .reads, .writes, .writes]
  | reportBalance _ => [.signs, .reads, .writes, .reads]
  | viewAum => [.reads, .reads, .reads]
  | viewBalances _ => [.reads, .reads, .reads]
  | viewMaxInvestable _ => [.reads, .reads, .reads]
  | viewToken => [.reads, .reads, .reads]
  | createRelayer _ => [.pays, .reads, .writes, .reads]
  | joinPool _ _ _ =>
      [.signs, .writes, .writes, .reads, .writes]
  | exitPool _ _ _ =>
      [.signs, .writes, .writes, .reads, .writes]
  | claimRewards _ =>
      [.signs, .writes, .writes, .reads, .writes, .writes,
        .writes]

end Instruction

end YieldManager

import YieldManager.Manager.Rebalance
import YieldManager.Program.Address

/-
  What a successful instruction tells the world: an answer,
  lines of the log, and events.

  Key definitions include:
    * `Answer`
    * `Answer.toBytes?`
    * `LogLine`
    * `LogLine.render`
    * `Event`
    * `Event.name`
    * `Receipt`
-/

------------------------------------------------------------
-- Answers
------------------------------------------------------------

namespace YieldManager

/- The value that an instruction returns. -/
inductive Answer where
  | nothing
  | amount (n : UInt64)
  | balances (b : Balances)
  | signed (z : Int)
  | key (a : Address)
deriving DecidableEq

namespace Answer

/-
  The bytes of an answer, if there is one.  A signed number
  takes sixteen bytes in two's complement.
-/
def toBytes?
    (key : Codec Address) : Answer → Option (List UInt8)
  | .nothing => none
  | .amount n => some (Codec.amount.encode n)
  | .balances b =>
      some (Codec.amount.encode b.cash ++
        Codec.amount.encode b.managed)
  | .signed z =>
      some (Codec.digits 16 (z % Int.pow 256 16).toNat)
  | .key a => some (key.encode a)

end Answer

------------------------------------------------------------
-- Log
------------------------------------------------------------

namespace Outcome

/- An outcome as a line of the log shows it. -/
def render : Outcome → String
  | .skipped => "Skipped"
  | .balanced => "Balanced"
  | .invested amount shares =>
      "Invested \x7b amount: " ++ toString amount ++
        ", shares: " ++ toString shares ++ " \x7d"
  | .divested amount =>
      "Divested \x7b amount: " ++ toString amount ++ " \x7d"

end Outcome

/- A line of the log. -/
inductive LogLine where
  | ledgerCreated (relayer : Address)
  | tokenRegistered (mint : Address)
  | shareVaultCreated (feeBps : UInt64)
  | gaugeCreated
  | rewardsAccrued (amount : UInt64) (holder : Address)
  | forwarderCreated
  | managerCreated
  | managerActivated
  | rebalanced (outcome : Outcome)
  | capitalIn (amount shares : UInt64)
  | capitalOut (received : UInt64)
  | relayerCreated
  | poolJoined (outcome : Outcome)
  | poolExited (pulled : UInt64)
  | rewardsClaimed (count : Nat)
deriving DecidableEq

namespace LogLine

/- The text of a line, given that of an address. -/
def render
    (address : Address → String) : LogLine → String
  | .ledgerCreated relayer =>
      "Pool ledger created, relayer " ++ address relayer
  | .tokenRegistered mint =>
      "Pool token registered: " ++ address mint
  | .shareVaultCreated feeBps =>
      "Share vault created with " ++ toString feeBps ++
        " bps deposit fee"
  | .gaugeCreated => "Gauge created"
  | .rewardsAccrued amount holder =>
      "Accrued " ++ toString amount ++ " rewards to " ++
        address holder
  | .forwarderCreated => "Reward forwarder created"
  | .managerCreated => "Asset manager created"
  | .managerActivated => "Asset manager initialised"
  | .rebalanced outcome => "Rebalance: " ++ outcome.render
  | .capitalIn amount shares =>
      "Capital in: " ++ toString amount ++ " for " ++
        toString shares ++ " shares"
  | .capitalOut received =>
      "Capital out: " ++ toString received ++ " received"
  | .relayerCreated => "Relayer created"
  | .poolJoined outcome =>
      "Pool joined, rebalance: " ++ outcome.render
  | .poolExited pulled =>
      "Pool exited, pulled " ++ toString pulled ++
        " from asset manager"
  | .rewardsClaimed count =>
      "Claimed " ++ toString count ++ " reward mints"

end LogLine

------------------------------------------------------------
-- Events
------------------------------------------------------------

/- What an observer of the program is told. -/
inductive Event where
  | managerCreated (manager poolId token vault : Address)
  | managerActivated (manager poolId : Address)
  | targetsSet (manager : Address) (targets : Targets)
  | rebalanced
      (manager : Address)
      (force : Bool)
      (invested divested : UInt64)
      (balances : Balances)
  | balanceReported
      (manager : Address)
      (managed : UInt64)
  | poolJoined
      (poolId sender recipient : Address)
      (invested divested : UInt64)
  | poolExited
      (poolId sender recipient : Address)
      (pulled invested divested : UInt64)
  | rewardForwarded
      (manager forwarder : Address)
      (reward : TokenAmount Address)
deriving DecidableEq

namespace Event

/- The name under which observers know an event. -/
def name : Event → String
  | .managerCreated .. => "AssetManagerCreatedEvent"
  | .managerActivated .. => "AssetManagerInitializedEvent"
  | .targetsSet .. => "InvestmentConfigSetEvent"
  | .rebalanced .. => "RebalancedEvent"
  | .balanceReported .. => "ManagedBalanceUpdatedEvent"
  | .poolJoined .. => "PoolJoinedEvent"
  | .poolExited .. => "PoolExitedEvent"
  | .rewardForwarded .. => "RewardsForwardedEvent"

end Event

------------------------------------------------------------
-- Receipts
------------------------------------------------------------

/- All that a successful instruction tells. -/
structure Receipt where
  answer : Answer
  log : List LogLine
  events : List Event
deriving DecidableEq

end YieldManager

import YieldManager.Action
import YieldManager.Token

/-
  Rewards: a gauge pays out what has accrued to a holder, and
  a sink receives it.

  Key definitions include:
    * `RewardGauge`
    * `RewardSink`
    * `claimAndForward`
-/

------------------------------------------------------------
-- Gauges and Sinks
------------------------------------------------------------

namespace YieldManager

/- A type of gauge states: `claim` pays a holder out. -/
class RewardGauge
    (κ : outParam Type)
    (G : Type) where
  claim : κ → Action G (List (TokenAmount κ))

/- A type of sink states: `receive` takes an amount in. -/
class RewardSink
    (κ : outParam Type)
    (F : Type) where
  receive : κ → UInt64 → Action F Unit
  balanceOf : F → κ → UInt64

------------------------------------------------------------
-- Claiming
------------------------------------------------------------

/-
  Claim for a holder and hand every amount that is not zero
  to the sink.  Answers these amounts.  If the claim or any
  hand-over fails, gauge and sink are as before.
-/
def claimAndForward
    {κ G F : Type}
    [RewardGauge κ G] [RewardSink κ F]
    (holder : κ) :
    Action (G × F) (List (TokenAmount κ)) :=
  Action.atomically do
    let claimed ←
      Action.within .first (RewardGauge.claim holder)
    let rewards := claimed.filter fun r => r.amount ≠ 0
    rewards.forM fun r =>
      Action.within .second
        (RewardSink.receive r.mint r.amount)
    return rewards

end YieldManager

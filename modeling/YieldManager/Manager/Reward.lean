import YieldManager.Manager.Basic
import YieldManager.Reward.Basic

/-
  How a manager claims the rewards of its vault.

  Key definitions include:
    * `RewardDesk`
    * `Manager.claimRewards`
-/

------------------------------------------------------------
-- Claims
------------------------------------------------------------

namespace YieldManager

/- The gauge handed over for a claim, if any, and the sink. -/
structure RewardDesk (G F : Type) where
  gauge : Option G
  sink : F

namespace Manager

variable {κ G F : Type} [DecidableEq κ]
variable [RewardGauge κ G] [RewardSink κ F]

/-
  Claim for the manager at a key and forward the rewards.  A
  manager without a gauge has nothing to claim; one with a
  gauge needs it handed over.
-/
def claimRewards
    (m : Manager κ)
    (key poolId : κ) :
    Action (RewardDesk G F) (List (TokenAmount κ)) := do
  m.ensurePool poolId
  if m.gauge.isNone then
    return []
  else
    match (← get).gauge with
    | none => throw .gaugeNotProvided
    | some gauge =>
        Action.within
          { get := fun d => (gauge, d.sink)
            put := fun s d =>
              { d with gauge := some s.1, sink := s.2 } }
          (claimAndForward key)

end Manager

end YieldManager

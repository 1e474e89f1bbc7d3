import YieldManager.Reward.Basic
import YieldManager.Table

/-
  The gauge of a vault: rewards of one mint that accrue to
  holders.  A scripted gauge pays out a list fixed in advance
  instead.

  Key definitions include:
    * `Accrual`
    * `Gauge`
    * `Gauge.accrue`
    * `Gauge.accruedTo`
    * `Gauge.claim`
    * `ScriptedGauge`
-/

------------------------------------------------------------
-- Gauges
------------------------------------------------------------

namespace YieldManager

/- The rewards that wait for one holder. -/
structure Accrual (κ : Type) where
  holder : κ
  amount : UInt64
deriving DecidableEq, Repr

/- A gauge of the given vault.  The authority accrues. -/
structure Gauge (κ : Type) where
  vault : κ
  rewardMint : κ
  authority : κ
  accruals : List (Accrual κ)
  bump : UInt8
deriving DecidableEq, Repr

namespace Gauge

variable {κ : Type} [DecidableEq κ]

/- The number of holders a gauge has room for. -/
def capacity : Nat := 16

/- The accrual of a holder, if there is one. -/
def accrual?
    (g : Gauge κ)
    (holder : κ) : Option (Accrual κ) :=
  Table.find? Accrual.holder holder g.accruals

/- What waits for a holder. -/
def accruedTo
    (g : Gauge κ)
    (holder : κ) : UInt64 :=
  match g.accrual? holder with
  | some a => a.amount
  | none => 0

/- Replace the accrual of a holder. -/
def setAccrual
    (g : Gauge κ)
    (a : Accrual κ) : Gauge κ :=
  { g with
    accruals := Table.replace Accrual.holder a g.accruals }

/- Add to what waits for a holder. -/
def accrue
    (holder : κ)
    (amount : UInt64) : Action (Gauge κ) Unit := do
  match (← get).accrual? holder with
  | some a =>
      let waiting ← FixedPoint.add a.amount amount
      modify fun g =>
        g.setAccrual { a with amount := waiting }
  | none =>
      require ((← get).accruals.length < capacity)
        .capacityReached
      modify fun g =>
        { g with
          accruals := g.accruals ++
            [{ holder := holder, amount := amount }] }

/-
  Pay out what waits for a holder.  Nothing is paid when
  nothing waits; the holder's accrual stays listed, at zero.
-/
def claim (holder : κ) :
    Action (Gauge κ) (List (TokenAmount κ)) := do
  match (← get).accrual? holder with
  | none => return []
  | some a =>
      modify fun g => g.setAccrual { a with amount := 0 }
      if a.amount = 0 then
        return []
      else
        return [{ mint := (← get).rewardMint,
                  amount := a.amount }]

instance : RewardGauge κ (Gauge κ) where
  claim := claim

end Gauge

------------------------------------------------------------
-- Scripted Gauges
------------------------------------------------------------

/- A gauge that may follow a script. -/
structure ScriptedGauge (κ : Type) where
  gauge : Gauge κ
  script : Option (List (TokenAmount κ))
deriving DecidableEq, Repr

namespace ScriptedGauge

variable {κ : Type} [DecidableEq κ]

/- The gauge inside. -/
def inner : Part (ScriptedGauge κ) (Gauge κ) where
  get g := g.gauge
  put h g := { g with gauge := h }

/- A script is paid out once, in full, to whoever asks. -/
def claim (holder : κ) :
    Action (ScriptedGauge κ) (List (TokenAmount κ)) := do
  match (← get).script with
  | none => Action.within inner (Gauge.claim holder)
  | some rewards =>
      modify fun g => { g with script := some [] }
      return rewards

instance : RewardGauge κ (ScriptedGauge κ) where
  claim := claim

end ScriptedGauge

end YieldManager

import YieldManager.Reward.Basic
import YieldManager.Table

/-
  The forwarder receives claimed rewards and keeps a running
  total for each mint.

  Key definitions include:
    * `Forwarder`
    * `Forwarder.receive`
    * `Forwarder.balanceOf`
-/

------------------------------------------------------------
-- Forwarders
------------------------------------------------------------

namespace YieldManager

/- The totals received so far, mint by mint. -/
structure Forwarder (κ : Type) where
  received : List (TokenAmount κ)
  bump : UInt8
deriving DecidableEq, Repr

namespace Forwarder

variable {κ : Type} [DecidableEq κ]

/- The number of mints a forwarder has room for. -/
def capacity : Nat := 8

/- The total of a mint, if any was received. -/
def total?
    (f : Forwarder κ)
    (mint : κ) : Option (TokenAmount κ) :=
  Table.find? TokenAmount.mint mint f.received

/- What was received of a mint. -/
def balanceOf
    (f : Forwarder κ)
    (mint : κ) : UInt64 :=
  match f.total? mint with
  | some t => t.amount
  | none => 0

/- Take an amount of a mint in. -/
def receive
    (mint : κ)
    (amount : UInt64) : Action (Forwarder κ) Unit := do
  match (← get).total? mint with
  | some t =>
      let total ← FixedPoint.add t.amount amount
      modify fun f =>
        { f with
          received :=
            Table.replace TokenAmount.mint
              { t with amount := total } f.received }
  | none =>
      require ((← get).received.length < capacity)
        .capacityReached
      modify fun f =>
        { f with
          received := f.received ++
            [{ mint := mint, amount := amount }] }

instance : RewardSink κ (Forwarder κ) where
  receive := receive
  balanceOf := balanceOf

end Forwarder

end YieldManager

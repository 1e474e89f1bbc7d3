import YieldManager.Action
import YieldManager.Program.Loading
import YieldManager.Program.Receipt

/-
  What an instruction does to the store: it either fails, or
  yields a receipt together with the accounts it writes.

  Key definitions include:
    * `Effect`
    * `Fault.ofAction`
-/

------------------------------------------------------------
-- Effects
------------------------------------------------------------

namespace YieldManager

/- The accounts an instruction writes, and its receipt. -/
structure Effect where
  writes : List (Address × Account)
  receipt : Receipt

/- Run an action for its answer and the new state. -/
def Fault.ofAction
    {σ α : Type}
    (a : Action σ α)
    (s : σ) : Except Fault (α × σ) :=
  match a s with
  | .ok x t => .ok (x, t)
  | .error e _ => .error (.general (.rule e))

end YieldManager

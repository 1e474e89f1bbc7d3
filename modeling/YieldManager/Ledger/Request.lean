import YieldManager.Action
import YieldManager.FixedPoint

/-
  Requests to join or exit a pool name assets and amounts in
  two lists, which have to be equally long.  An asset may
  occur more than once; its amounts add up.

  Key definitions include:
    * `JoinRequest`
    * `JoinRequest.amounts`
    * `ExitRequest`
    * `ExitRequest.amounts`
    * `ExitRequest.amountOut`
-/

------------------------------------------------------------
-- Requests
------------------------------------------------------------

namespace YieldManager

/- Tokens that a caller adds to a pool. -/
structure JoinRequest (κ : Type) where
  assets : List κ
  maxAmounts : List UInt64
deriving DecidableEq, Repr

/- Tokens that a caller takes out of a pool. -/
structure ExitRequest (κ : Type) where
  assets : List κ
  minAmounts : List UInt64
deriving DecidableEq, Repr

namespace JoinRequest

variable {κ : Type}

/- Each asset with its amount, in order. -/
def amounts
    (r : JoinRequest κ) :
    Except Error (List (κ × UInt64)) := do
  require (r.assets.length = r.maxAmounts.length)
    .invalidRequest
  return r.assets.zip r.maxAmounts

end JoinRequest

namespace ExitRequest

variable {κ : Type}

/- Each asset with its amount, in order. -/
def amounts
    (r : ExitRequest κ) :
    Except Error (List (κ × UInt64)) := do
  require (r.assets.length = r.minAmounts.length)
    .invalidRequest
  return r.assets.zip r.minAmounts

/- All that is requested of one token. -/
def amountOut
    [DecidableEq κ]
    (r : ExitRequest κ)
    (token : κ) : Except Error UInt64 := do
  let own := (← r.amounts).filter fun line => line.1 = token
  own.foldlM (fun total line => FixedPoint.add total line.2) 0

end ExitRequest

end YieldManager

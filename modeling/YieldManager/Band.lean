import YieldManager.Action
import YieldManager.FixedPoint

/-
  How much of a token should be invested.  Targets are
  fractions of the pool's total; against a total they resolve
  to a band of amounts, each rounded down.  Inside the band
  nothing has to move.

  Key definitions include:
    * `Targets`
    * `Targets.validate`
    * `Targets.band`
    * `Band`
    * `Band.isBreached`
-/

------------------------------------------------------------
-- Targets and Bands
------------------------------------------------------------

namespace YieldManager

/- The fraction to invest and the critical ones around it. -/
structure Targets where
  target : UInt64
  upper : UInt64
  lower : UInt64
deriving DecidableEq, Repr

/- The amounts that targets stand for. -/
structure Band where
  desired : UInt64
  upper : UInt64
  lower : UInt64
deriving DecidableEq, Repr

namespace Targets

/- Invest nothing. -/
def none : Targets where
  target := 0
  upper := 0
  lower := 0

/- The fractions are ordered, and none exceeds 1.0. -/
def validate (t : Targets) : Except Error Unit := do
  require (t.upper ≤ FixedPoint.one) .upperCriticalTooHigh
  require (t.target ≤ t.upper) .targetAboveUpperCritical
  require (t.lower ≤ t.target) .lowerCriticalAboveTarget

/- The band of amounts for a total. -/
def band
    (t : Targets)
    (total : UInt64) : Except Error Band := do
  let desired ← FixedPoint.portion total t.target
  let upper ← FixedPoint.portion total t.upper
  let lower ← FixedPoint.portion total t.lower
  return { desired := desired, upper := upper, lower := lower }

end Targets

namespace Band

/- An invested amount lies outside the critical band. -/
def isBreached
    (b : Band)
    (invested : UInt64) : Bool :=
  b.upper < invested || invested < b.lower

end Band

end YieldManager

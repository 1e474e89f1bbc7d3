import YieldManager.Error

/-
  Operations on a state.  An action returns a value or an
  error, and in both cases the state it leaves behind: a
  failing action may have changed something before it failed.
  Undoing such changes is the business of `Action.atomically`,
  which the operations that promise it use explicitly.

  Key definitions include:
    * `Action`
    * `require`
    * `Action.atomically`
    * `Part`
    * `Action.within`
-/

------------------------------------------------------------
-- Actions
------------------------------------------------------------

namespace YieldManager

/- A stateful operation that may be refused. -/
abbrev Action (σ α : Type) :=
  EStateM Error σ α

/- Check a condition, or give the reason it must hold. -/
def require
    (p : Prop) [Decidable p]
    (e : Error) : Except Error Unit :=
  if p then .ok () else .error e

/- A pure check leaves the state alone. -/
instance {σ : Type} :
    MonadLift (Except Error) (EStateM Error σ) where
  monadLift
    | .ok a => fun s => .ok a s
    | .error e => fun s => .error e s

namespace Action

variable {σ τ α : Type}

/- Run an action: its answer, and the state afterwards. -/
def perform
    (a : Action σ α)
    (s : σ) : Except Error α × σ :=
  match a s with
  | .ok x t => (.ok x, t)
  | .error e t => (.error e, t)

/- Run an action so that a failure changes nothing. -/
def atomically (a : Action σ α) : Action σ α := fun s =>
  match a s with
  | .ok x t => .ok x t
  | .error e _ => .error e s

end Action

------------------------------------------------------------
-- Actions on a Part of the State
------------------------------------------------------------

/- A part of a state that can be read and replaced. -/
structure Part (σ τ : Type) where
  get : σ → τ
  put : τ → σ → σ

namespace Part

variable {σ τ : Type}

/- The first of two states. -/
def first : Part (σ × τ) σ where
  get s := s.1
  put x s := (x, s.2)

/- The second of two states. -/
def second : Part (σ × τ) τ where
  get s := s.2
  put x s := (s.1, x)

end Part

namespace Action

variable {σ τ α : Type}

/- Run an action on a part; the rest stays as it is. -/
def within
    (part : Part σ τ)
    (a : Action τ α) : Action σ α := fun s =>
  match a (part.get s) with
  | .ok x t => .ok x (part.put t s)
  | .error e t => .error e (part.put t s)

end Action

end YieldManager

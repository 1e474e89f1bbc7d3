import YieldManager.Action

/-
  When actions succeed and when they fail.  Each way of
  building an action has one lemma for its successes and one
  for its failures; an operation is opened by rewriting with
  them, which leaves the conditions that its steps check.

  Main declarations:
    * `Except.bind_eq_ok_iff`
    * `Except.bind_eq_error_iff`
    * `require_eq_ok_iff`
    * `Action.bind_eq_ok_iff`
    * `Action.bind_eq_error_iff`
    * `Action.lift_eq_ok_iff`
    * `Action.within_eq_ok_iff`
    * `Action.atomically_eq_ok_iff`
    * `Action.FailsAt`
    * `Action.IsAtomic`
    * `Action.FailsFor`
    * `Action.Keeps`
-/

------------------------------------------------------------
-- Checks
------------------------------------------------------------

namespace YieldManager

/- A sequence of checks succeeds when each of them does. -/
@[simp] theorem Except.bind_eq_ok_iff
    {ε α β : Type}
    {a : Except ε α}
    {f : α → Except ε β}
    {y : β} :
    (a >>= f) = .ok y ↔ ∃ x, a = .ok x ∧ f x = .ok y := by
  cases a <;> simp [bind, Except.bind]

/- A sequence of checks fails at the first that fails. -/
theorem Except.bind_eq_error_iff
    {ε α β : Type}
    {a : Except ε α}
    {f : α → Except ε β}
    {e : ε} :
    (a >>= f) = .error e ↔
      a = .error e ∨ ∃ x, a = .ok x ∧ f x = .error e := by
  cases a <;> simp [bind, Except.bind]

/- A function of the answer is applied to it. -/
@[simp] theorem Except.map_eq_ok_iff
    {ε α β : Type}
    {a : Except ε α}
    {f : α → β}
    {y : β} :
    (f <$> a) = .ok y ↔ ∃ x, a = .ok x ∧ f x = y := by
  cases a <;> simp [Functor.map, Except.map]

/- A value is answered as it is. -/
@[simp] theorem Except.pure_eq_ok_iff
    {ε α : Type}
    {x y : α} :
    (pure x : Except ε α) = .ok y ↔ x = y := by
  simp [pure, Except.pure]

/- A requirement succeeds when its condition holds. -/
@[simp] theorem require_eq_ok_iff
    {p : Prop} [Decidable p]
    {e : Error}
    {u : Unit} :
    require p e = .ok u ↔ p := by
  by_cases hp : p <;> simp [require, hp]

/- Every error of a check is one of the given reasons. -/
def Except.FailsFor
    {α : Type}
    (reasons : List Error)
    (c : Except Error α) : Prop :=
  ∀ e, c = .error e → e ∈ reasons

namespace Except.FailsFor

variable {α : Type} {c : Except Error α}
variable {reasons more : List Error}

/- A check that succeeds has no errors. -/
theorem of_ok
    {x : α}
    (hOk : c = .ok x) :
    Except.FailsFor reasons c := by
  intro e hFails
  rw [hOk] at hFails
  cases hFails

/- More reasons may be given. -/
theorem mono
    (hFails : Except.FailsFor reasons c)
    (hMore : reasons ⊆ more) :
    Except.FailsFor more c :=
  fun e hError => hMore (hFails e hError)

/- A requirement fails for its own reason. -/
theorem of_require
    {p : Prop} [Decidable p]
    (e : Error) :
    Except.FailsFor [e] (require p e) := by
  intro d hFails
  unfold require at hFails
  split at hFails
  · cases hFails
  · cases hFails
    exact List.mem_singleton_self e

end Except.FailsFor

------------------------------------------------------------
-- Successful Actions
------------------------------------------------------------

namespace Action

variable {σ τ α β : Type}

/- A sequence succeeds when its steps succeed in turn. -/
@[simp] theorem bind_eq_ok_iff
    {a : Action σ α}
    {f : α → Action σ β}
    {s u : σ}
    {y : β} :
    (a >>= f) s = .ok y u ↔
      ∃ x t, a s = .ok x t ∧ f x t = .ok y u := by
  change EStateM.bind a f s = .ok y u ↔ _
  unfold EStateM.bind
  cases a s <;> simp [and_assoc]

/- A function of the answer leaves the state alone. -/
@[simp] theorem map_eq_ok_iff
    {a : Action σ α}
    {f : α → β}
    {s t : σ}
    {y : β} :
    (f <$> a) s = .ok y t ↔
      ∃ x, a s = .ok x t ∧ f x = y := by
  change EStateM.map f a s = .ok y t ↔ _
  unfold EStateM.map
  cases a s with
  | ok x u =>
      constructor
      · intro hEq
        cases hEq
        exact ⟨x, rfl, rfl⟩
      · intro hSteps
        rcases hSteps with ⟨z, hRun, rfl⟩
        cases hRun
        rfl
  | error e u => simp

/- A value is answered without touching the state. -/
@[simp] theorem pure_eq_ok_iff
    {s t : σ}
    {x y : α} :
    (pure x : Action σ α) s = .ok y t ↔ x = y ∧ s = t := by
  change EStateM.Result.ok x s = .ok y t ↔ _
  simp

/- The state is read without touching it. -/
@[simp] theorem get_eq_ok_iff
    {s t u : σ} :
    (get : Action σ σ) s = .ok u t ↔ s = u ∧ s = t := by
  change EStateM.Result.ok s s = .ok u t ↔ _
  simp

/- A change of the state succeeds. -/
@[simp] theorem modify_eq_ok_iff
    {f : σ → σ}
    {s t : σ}
    {u : Unit} :
    (modify f : Action σ Unit) s = .ok u t ↔ f s = t := by
  change EStateM.Result.ok () (f s) = .ok u t ↔ _
  simp

/- An error is no success. -/
@[simp] theorem throw_ne_ok
    {e : Error}
    {s t : σ}
    {x : α} :
    ((throw e : Action σ α) s = .ok x t) ↔ False := by
  change (EStateM.Result.error e s = .ok x t) ↔ False
  simp

/- A check leaves the state alone. -/
@[simp] theorem lift_eq_ok_iff
    {c : Except Error α}
    {s t : σ}
    {x : α} :
    (liftM c : Action σ α) s = .ok x t ↔
      c = .ok x ∧ s = t := by
  cases c with
  | ok y =>
      change EStateM.Result.ok y s = .ok x t ↔ _
      simp
  | error e =>
      change EStateM.Result.error e s = .ok x t ↔ _
      simp

/- An action on a part changes that part and nothing else. -/
@[simp] theorem within_eq_ok_iff
    {part : Part σ τ}
    {a : Action τ α}
    {s t : σ}
    {x : α} :
    within part a s = .ok x t ↔
      ∃ p, a (part.get s) = .ok x p ∧ part.put p s = t := by
  unfold within
  cases a (part.get s) <;> simp [and_assoc]

/- Undoing failures does not affect successes. -/
@[simp] theorem atomically_eq_ok_iff
    {a : Action σ α}
    {s t : σ}
    {x : α} :
    atomically a s = .ok x t ↔ a s = .ok x t := by
  unfold atomically
  cases a s <;> simp

/- Doing nothing changes nothing. -/
theorem forM_nil_eq_ok_iff
    {f : β → Action σ Unit}
    {s t : σ}
    {u : Unit} :
    [].forM f s = .ok u t ↔ s = t := by
  change (pure () : Action σ Unit) s = .ok u t ↔ _
  simp

/- A list of actions runs from its head to its end. -/
theorem forM_cons_eq_ok_iff
    {f : β → Action σ Unit}
    {y : β}
    {ys : List β}
    {s u : σ}
    {v : Unit} :
    (y :: ys).forM f s = .ok v u ↔
      ∃ t, f y s = .ok () t ∧ ys.forM f t = .ok v u := by
  change (f y >>= fun _ => ys.forM f) s = .ok v u ↔ _
  rw [bind_eq_ok_iff]
  constructor
  · intro hSteps
    rcases hSteps with ⟨⟨⟩, t, hHead, hTail⟩
    exact ⟨t, hHead, hTail⟩
  · intro hSteps
    rcases hSteps with ⟨t, hHead, hTail⟩
    exact ⟨(), t, hHead, hTail⟩

------------------------------------------------------------
-- Failing Actions
------------------------------------------------------------

/- A sequence fails at its first or at a later step. -/
@[simp] theorem bind_eq_error_iff
    {a : Action σ α}
    {f : α → Action σ β}
    {s u : σ}
    {e : Error} :
    (a >>= f) s = .error e u ↔
      a s = .error e u ∨
        ∃ x t, a s = .ok x t ∧ f x t = .error e u := by
  change EStateM.bind a f s = .error e u ↔ _
  unfold EStateM.bind
  cases a s <;> simp [and_assoc]

/- An action fails when it does not succeed. -/
theorem exists_error_iff
    {a : Action σ α}
    {s : σ} :
    (∃ e t, a s = .error e t) ↔ ¬ ∃ x t, a s = .ok x t := by
  cases a s <;> simp

/- A failing check leaves the state alone. -/
@[simp] theorem lift_eq_error_iff
    {c : Except Error α}
    {s t : σ}
    {e : Error} :
    (liftM c : Action σ α) s = .error e t ↔
      c = .error e ∧ s = t := by
  cases c with
  | ok y =>
      change EStateM.Result.ok y s = .error e t ↔ _
      simp
  | error d =>
      change EStateM.Result.error d s = .error e t ↔ _
      simp

/- A failure is undone. -/
theorem atomically_of_error
    {a : Action σ α}
    {s t : σ}
    {e : Error}
    (hRun : a s = .error e t) :
    atomically a s = .error e s := by
  unfold atomically
  rw [hRun]

/- What actions do at a state is all that counts. -/
theorem atomically_congr
    {a b : Action σ α}
    {s : σ}
    (hSame : a s = b s) :
    atomically a s = atomically b s := by
  unfold atomically
  rw [hSame]

------------------------------------------------------------
-- Steps of an Action
------------------------------------------------------------

/- After a success, the rest goes on from what is left. -/
theorem bind_of_ok
    {a : Action σ α}
    {k : α → Action σ β}
    {s t : σ}
    {x : α}
    (hRun : a s = .ok x t) :
    (a >>= k) s = k x t := by
  change EStateM.bind a k s = k x t
  simp only [EStateM.bind, hRun]

/- After a failure, the rest is not reached. -/
theorem bind_of_error
    {a : Action σ α}
    {k : α → Action σ β}
    {s t : σ}
    {e : Error}
    (hRun : a s = .error e t) :
    (a >>= k) s = .error e t := by
  change EStateM.bind a k s = .error e t
  simp only [EStateM.bind, hRun]

/- After a check, the rest has its result. -/
theorem lift_bind_eq
    {c : Except Error α}
    {x : α}
    (hCheck : c = .ok x)
    (k : α → Action σ β)
    (s : σ) :
    ((liftM c : Action σ α) >>= k) s = k x s :=
  bind_of_ok (lift_eq_ok_iff.mpr ⟨hCheck, rfl⟩)

/- After a check that fails, the rest is not reached. -/
theorem lift_bind_of_error
    {c : Except Error α}
    {e : Error}
    (hCheck : c = .error e)
    (k : α → Action σ β)
    (s : σ) :
    ((liftM c : Action σ α) >>= k) s = .error e s :=
  bind_of_error (lift_eq_error_iff.mpr ⟨hCheck, rfl⟩)

/- After reading the state, the rest has it. -/
theorem get_bind_eq
    (k : σ → Action σ β)
    (s : σ) :
    ((get : Action σ σ) >>= k) s = k s s :=
  bind_of_ok rfl

/- After setting the state, the rest starts from it. -/
theorem set_bind_eq
    (k : PUnit → Action σ β)
    (s t : σ) :
    ((set t : Action σ PUnit) >>= k) s = k ⟨⟩ t :=
  bind_of_ok rfl

/- After a change, the rest starts from what it gives. -/
theorem modify_bind_eq
    (change : σ → σ)
    (k : PUnit → Action σ β)
    (s : σ) :
    ((modify change : Action σ PUnit) >>= k) s =
      k ⟨⟩ (change s) :=
  bind_of_ok rfl

/- A function of the answer is applied to it. -/
theorem perform_bind_pure
    (a : Action σ α)
    (f : α → β)
    (s : σ) :
    (do
        let x ← a
        return f x : Action σ β).perform s =
      ((a.perform s).1.map f, (a.perform s).2) := by
  unfold perform
  cases hRun : a s with
  | ok x t => rw [bind_of_ok hRun]; rfl
  | error e t => rw [bind_of_error hRun]; rfl

------------------------------------------------------------
-- Where Actions Fail
------------------------------------------------------------

/-
  All failures of an action, started at the last state, leave
  the first state behind.
-/
def FailsAt
    (r : σ)
    (a : Action σ α)
    (s : σ) : Prop :=
  ∀ e t, a s = .error e t → t = r

/- However the action fails, it leaves all as it was. -/
def IsAtomic (a : Action σ α) : Prop :=
  ∀ s, FailsAt s a s

/- An action that succeeds has no failures. -/
theorem FailsAt.of_ok
    {a : Action σ α}
    {r s t : σ}
    {x : α}
    (hRun : a s = .ok x t) :
    FailsAt r a s := by
  intro e u hFails
  rw [hRun] at hFails
  cases hFails

/- Failures come from the first step or from the rest. -/
theorem FailsAt.bind
    {a : Action σ α}
    {k : α → Action σ β}
    {r s : σ}
    (hFirst : FailsAt r a s)
    (hRest : ∀ x t, a s = .ok x t → FailsAt r (k x) t) :
    FailsAt r (a >>= k) s := by
  intro e u hFails
  rcases bind_eq_error_iff.mp hFails with
    hA | ⟨x, t, hA, hK⟩
  · exact hFirst e u hA
  · exact hRest x t hA e u hK

/- A check fails where it stands. -/
theorem FailsAt.lift_bind
    {c : Except Error α}
    {k : α → Action σ β}
    {s : σ}
    (hRest : ∀ x, c = .ok x → FailsAt s (k x) s) :
    FailsAt s ((liftM c : Action σ α) >>= k) s := by
  apply FailsAt.bind
  · intro e t hFails
    exact (lift_eq_error_iff.mp hFails).2.symm
  · intro x t hCheck
    rcases lift_eq_ok_iff.mp hCheck with ⟨hOk, rfl⟩
    exact hRest x hOk

/- Reading the state does not fail. -/
theorem FailsAt.get_bind
    {k : σ → Action σ α}
    {r s : σ}
    (hRest : FailsAt r (k s) s) :
    FailsAt r ((get : Action σ σ) >>= k) s :=
  hRest

/- Changing the state does not fail. -/
theorem FailsAt.modify_bind
    {change : σ → σ}
    {k : PUnit → Action σ α}
    {r s : σ}
    (hRest : FailsAt r (k ⟨⟩) (change s)) :
    FailsAt r ((modify change : Action σ PUnit) >>= k) s :=
  hRest

/- An undone failure is where the action started. -/
theorem FailsAt.atomically
    (a : Action σ α)
    (s : σ) :
    FailsAt s (atomically a) s := by
  intro e t hFails
  unfold Action.atomically at hFails
  cases hRun : a s with
  | ok x u => simp [hRun] at hFails
  | error d u =>
      simp only [hRun, EStateM.Result.error.injEq] at hFails
      exact hFails.2.symm

/- An action on a part fails where it fails on the part. -/
theorem FailsAt.within
    {part : Part σ τ}
    {a : Action τ α}
    {s : σ}
    (hSame : part.put (part.get s) s = s)
    (hPart : FailsAt (part.get s) a (part.get s)) :
    FailsAt s (within part a) s := by
  intro e t hFails
  unfold Action.within at hFails
  cases hRun : a (part.get s) with
  | ok x u => simp [hRun] at hFails
  | error d u =>
      simp only [hRun, EStateM.Result.error.injEq] at hFails
      rw [← hFails.2, hPart d u hRun, hSame]

------------------------------------------------------------
-- Why Actions Fail
------------------------------------------------------------

/-
  Every error of an action, started at a state, is one of the
  given reasons.
-/
def FailsFor
    (reasons : List Error)
    (a : Action σ α)
    (s : σ) : Prop :=
  ∀ e t, a s = .error e t → e ∈ reasons

section FailsFor

variable {reasons more : List Error}

/- An action that succeeds has no errors. -/
theorem FailsFor.of_ok
    {a : Action σ α}
    {s t : σ}
    {x : α}
    (hRun : a s = .ok x t) :
    FailsFor reasons a s := by
  intro e u hFails
  rw [hRun] at hFails
  cases hFails

/- More reasons may be given. -/
theorem FailsFor.mono
    {a : Action σ α}
    {s : σ}
    (hFails : FailsFor reasons a s)
    (hMore : reasons ⊆ more) :
    FailsFor more a s :=
  fun e t hError => hMore (hFails e t hError)

/- Errors come from the first step or from the rest. -/
theorem FailsFor.bind
    {a : Action σ α}
    {k : α → Action σ β}
    {s : σ}
    (hFirst : FailsFor reasons a s)
    (hRest : ∀ x t, a s = .ok x t → FailsFor reasons (k x) t) :
    FailsFor reasons (a >>= k) s := by
  intro e u hFails
  rcases bind_eq_error_iff.mp hFails with
    hA | ⟨x, t, hA, hK⟩
  · exact hFirst e u hA
  · exact hRest x t hA e u hK

/- Errors come from the check or from the rest. -/
theorem FailsFor.lift_bind
    {c : Except Error α}
    {k : α → Action σ β}
    {s : σ}
    (hCheck : Except.FailsFor reasons c)
    (hRest : ∀ x, c = .ok x → FailsFor reasons (k x) s) :
    FailsFor reasons ((liftM c : Action σ α) >>= k) s := by
  apply FailsFor.bind
  · intro e t hFails
    exact hCheck e (lift_eq_error_iff.mp hFails).1
  · intro x t hRun
    rcases lift_eq_ok_iff.mp hRun with ⟨hOk, rfl⟩
    exact hRest x hOk

/- Reading the state does not fail. -/
theorem FailsFor.get_bind
    {k : σ → Action σ α}
    {s : σ}
    (hRest : FailsFor reasons (k s) s) :
    FailsFor reasons ((get : Action σ σ) >>= k) s :=
  hRest

/- An action on a part fails as it does on the part. -/
theorem FailsFor.within
    {part : Part σ τ}
    {a : Action τ α}
    {s : σ}
    (hPart : FailsFor reasons a (part.get s)) :
    FailsFor reasons (within part a) s := by
  intro e t hFails
  unfold Action.within at hFails
  cases hRun : a (part.get s) with
  | ok x u => simp [hRun] at hFails
  | error d u =>
      simp only [hRun, EStateM.Result.error.injEq] at hFails
      rw [← hFails.1]
      exact hPart d u hRun

/- Undoing failures does not change their reasons. -/
theorem FailsFor.atomically
    {a : Action σ α}
    {s : σ}
    (hFails : FailsFor reasons a s) :
    FailsFor reasons (atomically a) s := by
  intro e t hError
  unfold Action.atomically at hError
  cases hRun : a s with
  | ok x u => simp [hRun] at hError
  | error d u =>
      simp only [hRun, EStateM.Result.error.injEq] at hError
      rw [← hError.1]
      exact hFails d u hRun

end FailsFor

------------------------------------------------------------
-- What Actions Keep
------------------------------------------------------------

variable {ρ : Type} {f : σ → ρ}

/-
  An action keeps what a function reads off its state if that
  is the same afterwards, whether the action succeeds or not.
-/
def Keeps
    (f : σ → ρ)
    (a : Action σ α) : Prop :=
  ∀ s, f (a.perform s).2 = f s

/- What is kept is the same after a success. -/
theorem Keeps.of_ok
    {a : Action σ α}
    (hKeeps : Keeps f a)
    {s t : σ}
    {x : α}
    (hRun : a s = .ok x t) :
    f t = f s := by
  have hSame := hKeeps s
  rw [perform, hRun] at hSame
  exact hSame

/- What is kept is the same after a failure. -/
theorem Keeps.of_error
    {a : Action σ α}
    (hKeeps : Keeps f a)
    {s t : σ}
    {e : Error}
    (hRun : a s = .error e t) :
    f t = f s := by
  have hSame := hKeeps s
  rw [perform, hRun] at hSame
  exact hSame

/- Failures that change nothing keep everything. -/
theorem Keeps.of_runs
    {a : Action σ α}
    (hSucceeds : ∀ s x t, a s = .ok x t → f t = f s)
    (hFails : ∀ s, FailsAt s a s) :
    Keeps f a := by
  intro s
  unfold perform
  cases hRun : a s with
  | ok x t => exact hSucceeds s x t hRun
  | error e t => exact congrArg f (hFails s e t hRun)

/- A value is answered without touching the state. -/
theorem Keeps.pure
    (x : α) :
    Keeps f (pure x : Action σ α) :=
  fun _ => rfl

/- A check leaves the state alone. -/
theorem Keeps.lift
    (c : Except Error α) :
    Keeps f (liftM c : Action σ α) := by
  intro s
  cases c <;> rfl

/- What every step keeps, the sequence keeps. -/
theorem Keeps.bind
    {a : Action σ α}
    {k : α → Action σ β}
    (hFirst : Keeps f a)
    (hRest : ∀ x, Keeps f (k x)) :
    Keeps f (a >>= k) := by
  intro s
  unfold perform
  cases hRun : (a >>= k) s with
  | ok y u =>
      rcases bind_eq_ok_iff.mp hRun with ⟨x, t, hA, hK⟩
      exact ((hRest x).of_ok hK).trans (hFirst.of_ok hA)
  | error e u =>
      rcases bind_eq_error_iff.mp hRun with
        hA | ⟨x, t, hA, hK⟩
      · exact hFirst.of_error hA
      · exact ((hRest x).of_error hK).trans (hFirst.of_ok hA)

/- What is kept at every element is kept along a list. -/
theorem Keeps.forM
    {β : Type}
    {body : β → Action σ Unit}
    (hBody : ∀ x, Keeps f (body x))
    (xs : List β) :
    Keeps f (xs.forM body) := by
  induction xs with
  | nil => exact Keeps.pure ()
  | cons x xs ih => exact (hBody x).bind fun _ => ih

/- A step may depend on the state it starts from. -/
theorem Keeps.get_bind
    {k : σ → Action σ α}
    (hRest : ∀ s, f ((k s).perform s).2 = f s) :
    Keeps f ((get : Action σ σ) >>= k) :=
  hRest

------------------------------------------------------------
-- Actions on a Part
------------------------------------------------------------

/- However it ends, an action on a part replaces that part. -/
theorem perform_within
    (part : Part σ τ)
    (a : Action τ α)
    (s : σ) :
    (within part a).perform s =
      ((a.perform (part.get s)).1,
        part.put (a.perform (part.get s)).2 s) := by
  unfold perform Action.within
  cases a (part.get s) <;> rfl

/- What is read off elsewhere, an action on a part keeps. -/
theorem Keeps.within
    {part : Part σ τ}
    (hElsewhere : ∀ p s, f (part.put p s) = f s)
    (a : Action τ α) :
    Keeps f (within part a) := by
  intro s
  rw [perform_within]
  exact hElsewhere _ s

end Action

end YieldManager

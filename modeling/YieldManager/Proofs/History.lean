import YieldManager.Proofs.Action

/-
  Histories of requests.  Each request is an action on one
  state, and any of them may be refused on the way.  What each
  request keeps, the history keeps; what each request adds to
  a measure of the state, the history adds in total.

  Main declarations:
    * `Action.after`
    * `Action.after_of_step`
    * `Action.tally`
    * `Action.tally_balance`
    * `Action.accepted`
    * `Action.mem_after_iff`
-/

------------------------------------------------------------
-- States after a History
------------------------------------------------------------

namespace YieldManager

namespace Action

variable {σ α ε : Type} {act : ε → Action σ α}

/- The state after some requests in a row, refused or not. -/
def after
    (act : ε → Action σ α)
    (s : σ)
    (requests : List ε) : σ :=
  requests.foldl (fun s r => ((act r).perform s).2) s

/- What every request keeps holds after a history. -/
theorem after_of_step
    (act : ε → Action σ α)
    {P : σ → Prop}
    {s : σ}
    {requests : List ε}
    (hStep :
      ∀ r ∈ requests, ∀ s, P s → P ((act r).perform s).2)
    (hStart : P s) :
    P (after act s requests) := by
  induction requests generalizing s with
  | nil => exact hStart
  | cons r rs ih =>
      apply ih
      · intro r' hLater
        exact hStep r' (List.mem_cons_of_mem r hLater)
      · exact hStep r List.mem_cons_self s hStart

------------------------------------------------------------
-- Totals of a History
------------------------------------------------------------

/-
  What the requests of a history that are not refused count,
  each with its answer, in total.
-/
def tally
    (act : ε → Action σ α)
    (count : ε → α → Nat)
    (s : σ) : List ε → Nat
  | [] => 0
  | r :: rs =>
      (match act r s with
        | .ok answer _ => count r answer
        | .error _ _ => 0) +
        tally act count ((act r).perform s).2 rs

/- Where nothing is counted, the total is nothing. -/
theorem tally_zero
    (s : σ)
    (requests : List ε) :
    tally act (fun _ _ => 0) s requests = 0 := by
  induction requests generalizing s with
  | nil => rfl
  | cons r rs ih =>
      unfold tally
      rw [ih]
      cases act r s <;> rfl

/- Counting two things adds their totals. -/
theorem tally_add
    (count count' : ε → α → Nat)
    (s : σ)
    (requests : List ε) :
    tally act (fun r answer =>
        count r answer + count' r answer) s requests =
      tally act count s requests +
        tally act count' s requests := by
  induction requests generalizing s with
  | nil => rfl
  | cons r rs ih =>
      unfold tally
      rw [ih]
      cases act r s with
      | ok answer t => exact Nat.add_add_add_comm _ _ _ _
      | error e t => exact Nat.add_add_add_comm 0 0 _ _

/-
  A measure of the state that every request raises by its
  gain and lowers by its loss, and that no refusal changes:
  the history raises and lowers it by the totals.
-/
theorem tally_balance
    (measure : σ → Nat)
    (gain loss : ε → α → Nat)
    {P : σ → Prop}
    {s : σ}
    (hKeeps : ∀ r s, P s → P ((act r).perform s).2)
    (hDone :
      ∀ r s answer t, P s → act r s = .ok answer t →
        measure t + loss r answer =
          measure s + gain r answer)
    (hRefused :
      ∀ r s e t, P s → act r s = .error e t →
        measure t = measure s)
    (hStart : P s)
    (requests : List ε) :
    measure (after act s requests) +
        tally act loss s requests =
      measure s + tally act gain s requests := by
  induction requests generalizing s with
  | nil => rfl
  | cons r rs ih =>
      have hRest := ih (hKeeps r s hStart)
      have hAfter :
          after act s (r :: rs) =
            after act ((act r).perform s).2 rs :=
        rfl
      rw [hAfter]
      simp only [tally]
      unfold perform at hRest ⊢
      cases hRun : act r s with
      | ok answer t =>
          have hStep := hDone r s answer t hStart hRun
          simp only [hRun] at hRest ⊢
          omega
      | error e t =>
          have hStep := hRefused r s e t hStart hRun
          simp only [hRun] at hRest ⊢
          omega

------------------------------------------------------------
-- Accepted Requests
------------------------------------------------------------

/- The requests of a history that are not refused. -/
def accepted
    (act : ε → Action σ α)
    (s : σ) : List ε → List ε
  | [] => []
  | r :: rs =>
      (match act r s with
        | .ok _ _ => [r]
        | .error _ _ => []) ++
        accepted act ((act r).perform s).2 rs

/- What is accepted later follows what was accepted before. -/
theorem accepted_append
    (act : ε → Action σ α)
    (s : σ)
    (earlier later : List ε) :
    accepted act s (earlier ++ later) =
      accepted act s earlier ++
        accepted act (after act s earlier) later := by
  induction earlier generalizing s with
  | nil => rfl
  | cons r rs ih =>
      simp only [List.cons_append, accepted, ih,
        List.append_assoc]
      rfl

/-
  If a request lists what it names when it is accepted, and
  nothing is listed or crossed out otherwise, then the history
  lists what its accepted requests name.
-/
theorem mem_after_iff
    {κ : Type}
    (listed : σ → List κ)
    (named : ε → Option κ)
    {P : σ → Prop}
    {s : σ}
    (hKeeps : ∀ r s, P s → P ((act r).perform s).2)
    (hDone :
      ∀ r s answer t, P s → act r s = .ok answer t →
        ∀ x, x ∈ listed t ↔ x ∈ listed s ∨ named r = some x)
    (hRefused :
      ∀ r s e t, P s → act r s = .error e t →
        listed t = listed s)
    (hStart : P s)
    (requests : List ε)
    (x : κ) :
    x ∈ listed (after act s requests) ↔
      x ∈ listed s ∨
        x ∈ (accepted act s requests).filterMap named := by
  induction requests generalizing s with
  | nil => simp [after, accepted]
  | cons r rs ih =>
      have hRest := ih (hKeeps r s hStart)
      have hAfter :
          after act s (r :: rs) =
            after act ((act r).perform s).2 rs :=
        rfl
      rw [hAfter, hRest]
      simp only [accepted, List.filterMap_append,
        List.mem_append]
      unfold perform
      cases hRun : act r s with
      | ok answer t =>
          have hStep := hDone r s answer t hStart hRun x
          simp only [hStep, List.mem_filterMap,
            List.mem_singleton, exists_eq_left, or_assoc]
      | error e t =>
          have hStep := hRefused r s e t hStart hRun
          simp [hStep]

end Action

end YieldManager

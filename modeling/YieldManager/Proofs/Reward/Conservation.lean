import YieldManager.Proofs.History
import YieldManager.Proofs.Reward.Accounts

/-
  Rewards are neither lost nor duplicated.  A claim moves what
  waits for a holder from the gauge to the forwarder, or moves
  nothing; so what has accrued to a holder either still waits
  or was paid out, and the forwarder has all that was paid
  out.

  Main declarations:
    * `Forwarded`
    * `forwarded_of_claimAndForward`
    * `claimAndForward_of_nothing`
    * `RewardRequest`
    * `RewardRequest.failsAt_action`
    * `RewardRequest.accrued_of_action`
    * `RewardRequest.received_of_action`
    * `rewards_conserved`
-/

------------------------------------------------------------
-- Claiming and Forwarding
------------------------------------------------------------

namespace YieldManager

/- The amounts of some rewards, added up. -/
def rewardTotal
    {κ : Type}
    (rewards : List (TokenAmount κ)) : Nat :=
  (rewards.map fun r => r.amount.toNat).sum

variable {κ : Type} [DecidableEq κ]
variable {s t : Gauge κ × Forwarder κ} {holder : κ}

/-
  What a claim moves: all that waits for the holder, from the
  gauge to the forwarder, and nothing else.
-/
structure Forwarded
    (holder : κ)
    (rewards : List (TokenAmount κ))
    (s t : Gauge κ × Forwarder κ) : Prop where
  emptied : Gauge.Emptied holder s.1 t.1
  total :
    rewardTotal rewards = (s.1.accruedTo holder).toNat
  received :
    (t.2.balanceOf s.1.rewardMint).toNat =
      (s.2.balanceOf s.1.rewardMint).toNat +
        rewardTotal rewards

/- Where nothing waits, a claim answers and moves nothing. -/
theorem claimAndForward_of_nothing
    (hNothing : s.1.accruedTo holder = 0) :
    claimAndForward holder s = .ok [] s := by
  apply claimAndForward_eq_ok_iff.mpr
  exact ⟨[], Gauge.claim_of_nothing hNothing, rfl, rfl⟩

/- A claim that succeeds has moved all that waited. -/
theorem forwarded_of_claimAndForward
    {rewards : List (TokenAmount κ)}
    (hRun : claimAndForward holder s = .ok rewards t) :
    Forwarded holder rewards s t := by
  by_cases hNothing : s.1.accruedTo holder = 0
  · rw [claimAndForward_of_nothing hNothing] at hRun
    cases hRun
    exact
      { emptied := ⟨rfl, hNothing, fun _ _ => rfl⟩
        total := by
          rw [hNothing]
          rfl
        received := rfl }
  · rcases Gauge.exists_claim hNothing with
      ⟨g, hClaim, hEmptied⟩
    rcases claimAndForward_eq_ok_iff.mp hRun with
      ⟨claimed, hAnswer, rfl, hReceive⟩
    have hSame := hClaim.symm.trans hAnswer
    rw [EStateM.Result.ok.injEq] at hSame
    rcases hSame with ⟨rfl, rfl⟩
    have hKept :
        [({ mint := s.1.rewardMint,
            amount := s.1.accruedTo holder } :
            TokenAmount κ)].filter
              (fun r => r.amount ≠ 0) =
          [{ mint := s.1.rewardMint,
             amount := s.1.accruedTo holder }] := by
      simp [hNothing]
    rw [hKept] at hReceive ⊢
    rcases Action.forM_cons_eq_ok_iff.mp hReceive with
      ⟨f, hOne, hNone⟩
    cases Action.forM_nil_eq_ok_iff.mp hNone
    have hReceived :=
      Forwarder.balanceOf_of_receive hOne s.1.rewardMint
    rw [if_pos rfl] at hReceived
    have hTotal :
        rewardTotal
            [({ mint := s.1.rewardMint,
                amount := s.1.accruedTo holder } :
                TokenAmount κ)] =
          (s.1.accruedTo holder).toNat := by
      simp [rewardTotal]
    exact
      { emptied := hEmptied
        total := hTotal
        received := hTotal.symm ▸ hReceived }

/- A claim is the business of its holder alone. -/
theorem accruedTo_of_claimAndForward
    (s : Gauge κ × Forwarder κ)
    {other : κ}
    (hOther : other ≠ holder) :
    ((claimAndForward holder).perform s).2.1.accruedTo other =
      s.1.accruedTo other := by
  unfold Action.perform
  cases hRun : claimAndForward holder s with
  | ok rewards t =>
      have hMoved := forwarded_of_claimAndForward hRun
      exact hMoved.emptied.others other hOther
  | error e t =>
      rw [Action.FailsAt.atomically _ s e t hRun]

------------------------------------------------------------
-- Requests
------------------------------------------------------------

/- What is asked of a gauge and its forwarder. -/
inductive RewardRequest (κ : Type) where
  | accrue (holder : κ) (amount : UInt64)
  | claim (holder : κ)

namespace RewardRequest

/- A request as an action; accruing answers no rewards. -/
def action :
    RewardRequest κ →
      Action (Gauge κ × Forwarder κ) (List (TokenAmount κ))
  | .accrue holder amount => do
      Action.within .first (Gauge.accrue holder amount)
      return []
  | .claim holder => claimAndForward holder

/- What a request accrues to a holder. -/
def accruedBy
    (holder : κ) :
    RewardRequest κ → List (TokenAmount κ) → Nat
  | .accrue other amount, _ =>
      if holder = other then amount.toNat else 0
  | .claim _, _ => 0

/- What a request pays out for a holder. -/
def claimedBy
    (holder : κ) :
    RewardRequest κ → List (TokenAmount κ) → Nat
  | .accrue _ _, _ => 0
  | .claim other, rewards =>
      if holder = other then rewardTotal rewards else 0

omit [DecidableEq κ] in
/- What a request pays out, for whomever. -/
def claimed : RewardRequest κ → List (TokenAmount κ) → Nat
  | .accrue _ _, _ => 0
  | .claim _, rewards => rewardTotal rewards

/- An accrual leaves the forwarder alone. -/
theorem accrue_action_eq_ok_iff
    {amount : UInt64}
    {rewards : List (TokenAmount κ)} :
    (accrue holder amount).action s = .ok rewards t ↔
      ∃ g,
        Gauge.accrue holder amount s.1 = .ok () g ∧
          [] = rewards ∧ (g, s.2) = t := by
  change
    (Action.within .first (Gauge.accrue holder amount) >>=
      fun _ => pure []) s = _ ↔ _
  simp only [Action.bind_eq_ok_iff, Action.within_eq_ok_iff,
    Action.pure_eq_ok_iff]
  constructor
  · intro hSteps
    rcases hSteps with ⟨_, _, ⟨g, hRun, rfl⟩, rfl, rfl⟩
    exact ⟨g, hRun, rfl, rfl⟩
  · intro hSteps
    rcases hSteps with ⟨g, hRun, rfl, rfl⟩
    exact ⟨(), (g, s.2), ⟨g, hRun, rfl⟩, rfl, rfl⟩

/- A refused request changes nothing. -/
theorem failsAt_action
    (r : RewardRequest κ)
    (s : Gauge κ × Forwarder κ) :
    Action.FailsAt s r.action s := by
  cases r with
  | accrue holder amount =>
      apply Action.FailsAt.bind
      · exact
          Action.FailsAt.within rfl
            (Gauge.failsAt_accrue holder amount s.1)
      · intro _ _ _
        exact Action.FailsAt.of_ok rfl
  | claim holder => exact Action.FailsAt.atomically _ s

/-
  What waits for a holder grows by what a request accrues to
  it, and shrinks by what it pays out for it.
-/
theorem accrued_of_action
    {r : RewardRequest κ}
    {rewards : List (TokenAmount κ)}
    (hRun : r.action s = .ok rewards t)
    (holder : κ) :
    (t.1.accruedTo holder).toNat +
        r.claimedBy holder rewards =
      (s.1.accruedTo holder).toNat +
        r.accruedBy holder rewards := by
  cases r with
  | accrue other amount =>
      rcases accrue_action_eq_ok_iff.mp hRun with
        ⟨g, hAccrue, rfl, rfl⟩
      exact (Gauge.accruedTo_of_accrue hAccrue).2 holder
  | claim other =>
      have hMoved := forwarded_of_claimAndForward hRun
      simp only [claimedBy, accruedBy]
      by_cases hHolder : holder = other
      · subst hHolder
        rw [if_pos rfl, hMoved.emptied.own, hMoved.total]
        exact Nat.zero_add _
      · rw [if_neg hHolder,
          hMoved.emptied.others holder hHolder]

/-
  The forwarder's balance of the gauge's mint grows by what a
  request pays out.
-/
theorem received_of_action
    {r : RewardRequest κ}
    {rewards : List (TokenAmount κ)}
    (hRun : r.action s = .ok rewards t) :
    t.1.rewardMint = s.1.rewardMint ∧
      (t.2.balanceOf s.1.rewardMint).toNat =
        (s.2.balanceOf s.1.rewardMint).toNat +
          r.claimed rewards := by
  cases r with
  | accrue other amount =>
      rcases accrue_action_eq_ok_iff.mp hRun with
        ⟨g, hAccrue, rfl, rfl⟩
      exact ⟨(Gauge.accruedTo_of_accrue hAccrue).1, rfl⟩
  | claim other =>
      have hMoved := forwarded_of_claimAndForward hRun
      exact ⟨hMoved.emptied.rewardMint, hMoved.received⟩

/- A request keeps the mint in which the gauge rewards. -/
theorem rewardMint_of_perform
    (r : RewardRequest κ)
    (s : Gauge κ × Forwarder κ) :
    (r.action.perform s).2.1.rewardMint =
      s.1.rewardMint := by
  unfold Action.perform
  cases hRun : r.action s with
  | ok rewards t => exact (received_of_action hRun).1
  | error e t => rw [failsAt_action r s e t hRun]

/-
  Once nothing waits for a holder, nothing does until some
  request accrues to it again.
-/
theorem accruedTo_of_perform
    {r : RewardRequest κ}
    (hNone : ∀ amount, r ≠ .accrue holder amount)
    (hNothing : s.1.accruedTo holder = 0) :
    (r.action.perform s).2.1.accruedTo holder = 0 := by
  unfold Action.perform
  cases hRun : r.action s with
  | error e t =>
      rw [failsAt_action r s e t hRun]
      exact hNothing
  | ok rewards t =>
      have hNoGain : r.accruedBy holder rewards = 0 := by
        cases r with
        | accrue other amount =>
            apply if_neg
            intro hHolder
            exact hNone amount (hHolder ▸ rfl)
        | claim other => rfl
      have hSum := accrued_of_action hRun holder
      rw [hNothing, hNoGain] at hSum
      apply UInt64.toNat_inj.mp
      exact (Nat.add_eq_zero_iff.mp hSum).1

end RewardRequest

------------------------------------------------------------
-- Histories
------------------------------------------------------------

section Histories

open RewardRequest

variable (requests : List (RewardRequest κ))

/- The gauge rewards in one mint all along. -/
theorem rewardMint_of_history
    (s : Gauge κ × Forwarder κ) :
    (Action.after action s requests).1.rewardMint =
      s.1.rewardMint := by
  apply Action.after_of_step action
    (P := fun t : Gauge κ × Forwarder κ =>
      t.1.rewardMint = s.1.rewardMint)
  · intro r _ t hSame
    exact (rewardMint_of_perform r t).trans hSame
  · rfl

/-
  What waits for a holder is what waited, and what accrued,
  less what was paid out.
-/
theorem accrued_of_history
    (s : Gauge κ × Forwarder κ)
    (holder : κ) :
    ((Action.after action s requests).1.accruedTo
          holder).toNat +
        Action.tally action (claimedBy holder) s requests =
      (s.1.accruedTo holder).toNat +
        Action.tally action (accruedBy holder) s
          requests := by
  apply Action.tally_balance
    (fun s : Gauge κ × Forwarder κ =>
      (s.1.accruedTo holder).toNat)
    _ _
    (P := fun _ => True)
  · exact fun _ _ _ => trivial
  · intro r s rewards t _ hRun
    exact accrued_of_action hRun holder
  · intro r s e t _ hRun
    rw [failsAt_action r s e t hRun]
  · trivial

/- The forwarder has gained all that was paid out. -/
theorem received_of_history
    (s : Gauge κ × Forwarder κ) :
    ((Action.after action s requests).2.balanceOf
          s.1.rewardMint).toNat =
      (s.2.balanceOf s.1.rewardMint).toNat +
        Action.tally action claimed s requests := by
  have hBalance :=
    Action.tally_balance
      (fun t : Gauge κ × Forwarder κ =>
        (t.2.balanceOf s.1.rewardMint).toNat)
      claimed (fun _ _ => 0)
      (P := fun t => t.1.rewardMint = s.1.rewardMint)
      (fun r t hSame =>
        (rewardMint_of_perform r t).trans hSame)
      (fun r t rewards u hSame hRun =>
        hSame ▸ (received_of_action hRun).2)
      (fun r t e u _ hRun => by
        rw [failsAt_action r t e u hRun])
      rfl requests
  rw [Action.tally_zero] at hBalance
  exact hBalance

/-
  After a claim, another one answers and changes nothing as
  long as nothing accrues.
-/
theorem claimAndForward_again
    {rewards : List (TokenAmount κ)}
    (hRun : claimAndForward holder s = .ok rewards t)
    (hNone : ∀ amount, .accrue holder amount ∉ requests) :
    claimAndForward holder (Action.after action t requests) =
      .ok [] (Action.after action t requests) := by
  apply claimAndForward_of_nothing
  apply Action.after_of_step action
    (P := fun s : Gauge κ × Forwarder κ =>
      s.1.accruedTo holder = 0)
  · intro r hLater s hNothing
    apply accruedTo_of_perform _ hNothing
    intro amount hEq
    exact hNone amount (hEq ▸ hLater)
  · exact (forwarded_of_claimAndForward hRun).emptied.own

/-
  From an empty gauge and an empty forwarder, after any
  requests, refused or not: what has accrued to a holder
  waits for it or was paid out for it, and the forwarder has
  all that was paid out.  A claim never touches what waits for
  others, and once it has succeeded, another one answers
  nothing and changes nothing until something accrues.
-/
theorem rewards_conserved
    {g : Gauge κ}
    {f : Forwarder κ}
    (hGauge : g.accruals = [])
    (hForwarder : f.received = []) :
    (∀ holder,
      Action.tally action (accruedBy holder) (g, f)
          requests =
        ((Action.after action (g, f) requests).1.accruedTo
            holder).toNat +
          Action.tally action (claimedBy holder) (g, f)
            requests) ∧
      (Action.after action (g, f) requests).1.rewardMint =
        g.rewardMint ∧
      ((Action.after action (g, f) requests).2.balanceOf
          g.rewardMint).toNat =
        Action.tally action claimed (g, f) requests ∧
      (∀ holder other, other ≠ holder →
        ((claimAndForward holder).perform
            (Action.after action (g, f) requests)).2.1.accruedTo
            other =
          (Action.after action (g, f) requests).1.accruedTo
            other) ∧
      ∀ holder rewards t later,
        claimAndForward holder
            (Action.after action (g, f) requests) =
          .ok rewards t →
        (∀ amount, .accrue holder amount ∉ later) →
          claimAndForward holder
              (Action.after action t later) =
            .ok [] (Action.after action t later) := by
  refine
    ⟨?_, rewardMint_of_history requests (g, f), ?_, ?_, ?_⟩
  · intro holder
    have hStart : g.accruedTo holder = 0 := by
      unfold Gauge.accruedTo Gauge.accrual?
      rw [hGauge]
      rfl
    have hBalance := accrued_of_history requests (g, f) holder
    rw [hStart] at hBalance
    exact (hBalance.trans (Nat.zero_add _)).symm
  · have hStart : f.balanceOf g.rewardMint = 0 := by
      unfold Forwarder.balanceOf Forwarder.total?
      rw [hForwarder]
      rfl
    have hBalance := received_of_history requests (g, f)
    rw [hStart] at hBalance
    exact hBalance.trans (Nat.zero_add _)
  · intro holder other hOther
    exact accruedTo_of_claimAndForward _ hOther
  · intro holder rewards t later hRun hNone
    exact claimAndForward_again later hRun hNone

end Histories

/- A gauge to which nothing has accrued. -/
def emptyGauge : Gauge Nat where
  vault := 1
  rewardMint := 2
  authority := 7
  accruals := []
  bump := 0

/- A forwarder that has received nothing. -/
def emptyForwarder : Forwarder Nat where
  received := []
  bump := 0

/-
  Two holders; the claim of the second one would overflow the
  forwarder, so its rewards go on waiting.
-/
def overfullRequests : List (RewardRequest Nat) :=
  [.accrue 8 18446744073709551000, .accrue 9 600, .claim 8,
   .accrue 8 300, .claim 8, .claim 9]

/- All 600 of the second holder are accounted for. -/
theorem rewards_conserved_overfull :
    emptyGauge.accruals = [] ∧
      emptyForwarder.received = [] ∧
      Action.tally RewardRequest.action
          (RewardRequest.accruedBy 9)
          (emptyGauge, emptyForwarder) overfullRequests =
        ((Action.after RewardRequest.action
            (emptyGauge, emptyForwarder)
            overfullRequests).1.accruedTo 9).toNat +
          Action.tally RewardRequest.action
            (RewardRequest.claimedBy 9)
            (emptyGauge, emptyForwarder) overfullRequests ∧
      (Action.after RewardRequest.action
          (emptyGauge, emptyForwarder)
          overfullRequests).1.accruedTo 9 = 600 :=
  ⟨rfl, rfl,
    (rewards_conserved overfullRequests rfl rfl).1 9,
    by decide +kernel⟩

end YieldManager

import Mathlib.Data.List.Nodup
import YieldManager.Proofs.Relay.Atomicity
import YieldManager.Relay.Reentrant

/-
  Calling the relayer back does no harm.  A call on a pool
  that calls back runs in step with the same call on the pool
  inside: a nested call is refused and touches nothing, and
  afterwards the two either go on together or, if the pool
  passes the refusal on, the outer call ends there and is
  undone.

  Main declarations:
    * `Relay.completed`
    * `Relay.completed_sublist`
    * `ReentrantPool.nestedCall_of_locked`
    * `ReentrantPool.Follows`
    * `ReentrantPool.Follows.step`
    * `ReentrantPool.Harmless`
    * `ReentrantPool.reentrancy_harmless`
-/

------------------------------------------------------------
-- The Operations of a Call
------------------------------------------------------------

namespace YieldManager

namespace Relay

variable {κ P α : Type} [RelayedPool κ P]

/-
  The operations completed by one operation and what follows
  it: none if it fails, and otherwise itself and then the
  others.
-/
def completing
    (point : CallPoint)
    (op : Action (Guarded P) α)
    (rest : Guarded P → List CallPoint)
    (g : Guarded P) : List CallPoint :=
  match op g with
  | .ok _ t => point :: rest t
  | .error _ _ => []

/- The last operation of a join or an exit. -/
def completedRebalance
    (poolId : κ) : Guarded P → List CallPoint :=
  completing .rebalance
    (RelayedPool.rebalance (P := P) poolId false)
    fun _ => []

/- The operations of an exit once the cash is there. -/
def completedExit
    (relayer poolId : κ)
    (r : ExitRequest κ) : Guarded P → List CallPoint :=
  completing .exit (RelayedPool.exit relayer poolId r)
    (completedRebalance poolId)

/- The operations of an exit that is short of some cash. -/
def completedPull
    (relayer poolId : κ)
    (r : ExitRequest κ)
    (short : UInt64) : Guarded P → List CallPoint :=
  if 0 < short then
    completing .capitalOut
      (RelayedPool.capitalOut relayer poolId short)
      (completedExit relayer poolId r)
  else
    completedExit relayer poolId r

/- The operations after a check of the pool. -/
def checking
    {β : Type}
    (check : P → Except Error β)
    (rest : β → Guarded P → List CallPoint)
    (g : Guarded P) : List CallPoint :=
  match check g.pool with
  | .ok y => rest y g
  | .error _ => []

/-
  The operations that a relayed call completes on a pool it
  has locked, in order.
-/
def completed
    (relayer poolId : κ) :
    CallBack κ → Guarded P → List CallPoint
  | .join r =>
      completing .join (RelayedPool.join relayer poolId r)
        (completedRebalance poolId)
  | .exit r =>
      checking
        (fun p => RelayedPool.shortfall p poolId r)
        (completedPull relayer poolId r)
  | .claim =>
      completing .claim (RelayedPool.claim (P := P) poolId)
        (fun _ => [])

/- The operations that a relayed call is made of. -/
def operations : CallBack κ → List CallPoint
  | .join _ => [.join, .rebalance]
  | .exit _ => [.capitalOut, .exit, .rebalance]
  | .claim => [.claim]

/- One more operation is completed at most. -/
theorem completing_sublist
    {point : CallPoint}
    {op : Action (Guarded P) α}
    {rest : Guarded P → List CallPoint}
    {points : List CallPoint}
    (hRest : ∀ t, (rest t).Sublist points)
    (g : Guarded P) :
    (completing point op rest g).Sublist
      (point :: points) := by
  unfold completing
  split
  · exact (hRest _).cons_cons point
  · exact List.nil_sublist _

/- A call completes some of its operations, each once. -/
theorem completed_sublist
    (relayer poolId : κ)
    (call : CallBack κ)
    (g : Guarded P) :
    (completed relayer poolId call g).Sublist
      (operations call) := by
  have hRebalance :
      ∀ t : Guarded P,
        (completedRebalance poolId t).Sublist
          [.rebalance] :=
    completing_sublist fun _ => List.Sublist.refl _
  cases call with
  | join r => exact completing_sublist hRebalance g
  | claim =>
      exact completing_sublist (fun _ => List.Sublist.refl _) g
  | exit r =>
      have hExit :
          ∀ t : Guarded P,
            (completedExit relayer poolId r t).Sublist
              [.exit, .rebalance] :=
        completing_sublist hRebalance
      simp only [completed, checking, completedPull]
      split
      · split
        · exact completing_sublist hExit g
        · exact (hExit g).cons _
      · exact List.nil_sublist _

/- No operation is completed twice. -/
theorem nodup_completed
    (relayer poolId : κ)
    (call : CallBack κ)
    (g : Guarded P) :
    (completed relayer poolId call g).Nodup := by
  apply (completed_sublist relayer poolId call g).nodup
  cases call <;> simp [operations]

end Relay

------------------------------------------------------------
-- Nested Calls
------------------------------------------------------------

namespace ReentrantPool

section NestedCalls

variable {κ P : Type}
variable {p : ReentrantPool κ P} {n : Nat}
variable {g : Guarded P}

/- The answer to a nested call that is refused. -/
def refusal : NestedAnswer κ where
  answer := .error .relayerReentered
  lock := .locked

/-
  A pool that calls back, around a pool as it is now, after a
  number of refusals.
-/
def around
    (p : ReentrantPool κ P)
    (n : Nat)
    (g : Guarded P) : Guarded (ReentrantPool κ P) where
  lock := g.lock
  pool :=
    { p with
      inner := g.pool
      nested := p.nested ++ List.replicate n refusal }

/- Before any nested call, nothing is noted. -/
theorem around_zero
    (p : ReentrantPool κ P)
    (lock : Lock) :
    around p 0 { lock := lock, pool := p.inner } =
      { lock := lock, pool := p } := by
  simp only [around, List.replicate_zero, List.append_nil]

/- One more refusal goes to the end of the list. -/
theorem around_succ :
    around p (n + 1) g =
      { lock := g.lock
        pool :=
          { p with
            inner := g.pool
            nested :=
              (around p n g).pool.nested ++ [refusal] } } := by
  simp only [around, List.replicate_succ', List.append_assoc]

variable [RelayedPool κ P]

/- A call under a taken lock touches nothing. -/
theorem nestedCall_of_locked
    (hLock : g.lock = .locked)
    (relayer poolId : κ)
    (call : CallBack κ) :
    nestedCall relayer poolId call g =
      .error .relayerReentered g := by
  cases call with
  | join r =>
      exact
        Action.bind_eq_error_iff.mpr
          (.inl (Relay.relayed_of_locked hLock _))
  | exit r =>
      exact
        Action.bind_eq_error_iff.mpr
          (.inl (Relay.relayed_of_locked hLock _))
  | claim =>
      exact
        Action.bind_eq_error_iff.mpr
          (.inl (Relay.relayed_of_locked hLock _))

variable {s : Guarded (ReentrantPool κ P)}

/- A pool does not call back after other operations. -/
theorem callBack_of_ne
    {point : CallPoint}
    (hPoint : s.pool.point ≠ point)
    (poolId : κ) :
    callBack point poolId s = .ok () s := by
  unfold callBack
  rw [Action.get_bind_eq]
  simp only [if_neg hPoint]
  rfl

/- A nested call that is refused is noted as refused. -/
theorem callBack_of_locked
    {point : CallPoint}
    (hPoint : s.pool.point = point)
    (hLock : s.lock = .locked)
    (poolId : κ) :
    let t : Guarded (ReentrantPool κ P) :=
      { s with
        pool :=
          { s.pool with
            nested := s.pool.nested ++ [refusal] } }
    callBack point poolId s =
      if s.pool.propagates then
        .error .relayerReentered t
      else
        .ok () t := by
  have hRefused :
      Action.perform
          (Action.within guardedInner
            (nestedCall s.pool.relayer poolId s.pool.call))
          s =
        (.error .relayerReentered, s) := by
    rw [Action.perform_within, Action.perform,
      nestedCall_of_locked (g := guardedInner.get s) hLock]
    rfl
  unfold callBack
  rw [Action.get_bind_eq]
  simp only [if_pos hPoint, Action.get_bind_eq,
    Action.set_bind_eq, Action.modify_bind_eq, hRefused]
  rw [hLock]
  split <;> rfl

variable {α : Type} {op : Action (Guarded P) α}
variable {point : CallPoint} {t : Guarded P}

/- An operation that fails is not followed by a call. -/
theorem thenCallBack_of_error
    {e : Error}
    (hOp : op g = .error e t)
    (poolId : κ) :
    thenCallBack point poolId op (around p n g) =
      .error e (around p n t) := by
  have hInner : guardedInner.get (around p n g) = g := rfl
  apply Action.bind_of_error
  unfold Action.within
  rw [hInner, hOp]
  rfl

/-
  An operation that succeeds and keeps the lock is followed
  by a refusal at the point for it, and by nothing elsewhere.
-/
theorem thenCallBack_of_ok
    {x : α}
    (hOp : op g = .ok x t)
    (hLock : t.lock = .locked)
    (point : CallPoint)
    (poolId : κ) :
    thenCallBack point poolId op (around p n g) =
      if p.point = point then
        if p.propagates then
          .error .relayerReentered (around p (n + 1) t)
        else
          .ok x (around p (n + 1) t)
      else
        .ok x (around p n t) := by
  have hWithin :
      Action.within guardedInner op (around p n g) =
        .ok x (around p n t) :=
    Action.within_eq_ok_iff.mpr ⟨t, hOp, rfl⟩
  unfold thenCallBack
  rw [Action.bind_of_ok hWithin]
  split
  · next hPoint =>
      have hCall :=
        callBack_of_locked (s := around p n t) hPoint hLock
          poolId
      rw [around_succ]
      split
      · next hPropagates =>
          apply Action.bind_of_error
          exact hCall.trans (if_pos hPropagates)
      · next hSwallows =>
          apply Action.bind_of_ok
          exact hCall.trans (if_neg hSwallows)
  · next hPoint =>
      exact
        Action.bind_of_ok
          (callBack_of_ne (s := around p n t) hPoint poolId)

end NestedCalls

------------------------------------------------------------
-- Running in Step
------------------------------------------------------------

variable {κ V G F α β : Type}

/- A result, with another view of the state it leaves. -/
def along
    {σ τ : Type}
    (f : σ → τ) :
    EStateM.Result Error σ α → EStateM.Result Error τ α
  | .ok x s => .ok x (f s)
  | .error e s => .error e (f s)

/-
  Under a taken lock, an action of a pool that calls back
  follows an action of the pool inside, which completes the
  given operations.  Unless a refusal is passed on, the two
  differ in the refusals noted; otherwise the outer one ends
  in the midst, with a pool that has kept its frame.
-/
structure Follows
    (outer :
      Action (Guarded (ReentrantPool κ (ManagedPool κ V G F)))
        α)
    (inner : Action (Guarded (ManagedPool κ V G F)) α)
    (points :
      Guarded (ManagedPool κ V G F) → List CallPoint) :
    Prop where
  together :
    ∀ {p n g}, g.lock = .locked →
      (p.propagates = false ∨ p.point ∉ points g) →
      outer (around p n g) =
        along (around p (n + (points g).count p.point))
          (inner g)
  stopped :
    ∀ {p n g}, g.lock = .locked →
      p.propagates = true →
      p.point ∈ points g →
      ∃ t,
        ManagedPool.frame t = ManagedPool.frame g ∧
          outer (around p n g) =
            .error .relayerReentered (around p (n + 1) t)

/- An answer is the same for both. -/
theorem Follows.pure
    (x : α) :
    Follows
      (pure x :
        Action (Guarded (ReentrantPool κ (ManagedPool κ V G F)))
          α)
      (pure x) (fun _ => []) where
  together := fun _ _ => rfl
  stopped := fun _ _ hPoint => by simp at hPoint

/-
  A check that reads the pool inside comes out the same for
  both.
-/
theorem Follows.check
    {c : ManagedPool κ V G F → Except Error β}
    {d :
      ReentrantPool κ (ManagedPool κ V G F) →
        Except Error β}
    {outer :
      β →
        Action
          (Guarded (ReentrantPool κ (ManagedPool κ V G F))) α}
    {inner : β → Action (Guarded (ManagedPool κ V G F)) α}
    {rest :
      β → Guarded (ManagedPool κ V G F) → List CallPoint}
    (hSame : ∀ p, d p = c p.inner)
    (hRest : ∀ y, Follows (outer y) (inner y) (rest y)) :
    Follows
      (do
        let s ← get
        let y ← d s.pool
        outer y)
      (do
        let s ← get
        let y ← c s.pool
        inner y)
      (Relay.checking c rest) where
  together := by
    intro p n g hLock hApart
    have hInner : d (around p n g).pool = c g.pool :=
      hSame _
    unfold Relay.checking at hApart ⊢
    rw [Action.get_bind_eq, Action.get_bind_eq, hInner]
    cases hCheck : c g.pool with
    | error e => rfl
    | ok y =>
        simp only [hCheck] at hApart
        exact (hRest y).together hLock hApart
  stopped := by
    intro p n g hLock hPropagates hReached
    have hInner : d (around p n g).pool = c g.pool :=
      hSame _
    unfold Relay.checking at hReached
    rw [Action.get_bind_eq, hInner]
    cases hCheck : c g.pool with
    | error e => simp [hCheck] at hReached
    | ok y =>
        simp only [hCheck] at hReached
        exact (hRest y).stopped hLock hPropagates hReached

variable [DecidableEq κ] [Zero κ] [YieldVault κ V]
variable [RewardGauge κ G] [RewardSink κ F]

/-
  One operation, with the call-back after it, follows the
  operation of the pool inside.
-/
theorem Follows.step
    {op : Action (Guarded (ManagedPool κ V G F)) α}
    {outer :
      α →
        Action
          (Guarded (ReentrantPool κ (ManagedPool κ V G F))) β}
    {inner : α → Action (Guarded (ManagedPool κ V G F)) β}
    {rest : Guarded (ManagedPool κ V G F) → List CallPoint}
    (hKeeps : Action.Keeps ManagedPool.frame op)
    (hRest : ∀ x, Follows (outer x) (inner x) rest)
    (point : CallPoint)
    (poolId : κ) :
    Follows
      (thenCallBack point poolId op >>= outer)
      (op >>= inner)
      (Relay.completing point op rest) where
  together := by
    intro p n g hLock hApart
    unfold Relay.completing at hApart ⊢
    cases hOp : op g with
    | error e t =>
        rw [Action.bind_of_error hOp,
          Action.bind_of_error
            (thenCallBack_of_error hOp poolId)]
        rfl
    | ok x t =>
        have hFrame := hKeeps.of_ok hOp
        have hLocked :=
          (ManagedPool.lock_of_frame hFrame).trans hLock
        have hCall :=
          thenCallBack_of_ok (p := p) (n := n) hOp hLocked
            point poolId
        simp only [hOp] at hApart
        rw [Action.bind_of_ok hOp]
        by_cases hPoint : p.point = point
        · have hSwallows : p.propagates = false := by
            simpa [hPoint] using hApart
          simp only [if_pos hPoint, hSwallows,
            Bool.false_eq_true, if_false] at hCall
          rw [Action.bind_of_ok hCall,
            (hRest x).together hLocked (.inl hSwallows),
            hPoint, List.count_cons_self, Nat.add_assoc,
            Nat.add_comm 1]
        · have hLater :
              p.propagates = false ∨ p.point ∉ rest t := by
            simpa [hPoint] using hApart
          rw [if_neg hPoint] at hCall
          rw [Action.bind_of_ok hCall,
            (hRest x).together hLocked hLater,
            List.count_cons_of_ne (Ne.symm hPoint)]
  stopped := by
    intro p n g hLock hPropagates hReached
    unfold Relay.completing at hReached
    cases hOp : op g with
    | error e t => simp [hOp] at hReached
    | ok x t =>
        have hFrame := hKeeps.of_ok hOp
        have hLocked :=
          (ManagedPool.lock_of_frame hFrame).trans hLock
        have hCall :=
          thenCallBack_of_ok (p := p) (n := n) hOp hLocked
            point poolId
        simp only [hOp, List.mem_cons] at hReached
        by_cases hPoint : p.point = point
        · rw [if_pos hPoint, if_pos hPropagates] at hCall
          exact ⟨t, hFrame, Action.bind_of_error hCall⟩
        · rw [if_neg hPoint] at hCall
          rcases
              (hRest x).stopped (n := n) hLocked hPropagates
                (hReached.resolve_left hPoint)
            with ⟨u, hKept, hStopped⟩
          rw [Action.bind_of_ok hCall]
          exact ⟨u, hKept.trans hFrame, hStopped⟩

/- The last operation of a call. -/
theorem Follows.last
    {op : Action (Guarded (ManagedPool κ V G F)) α}
    (hKeeps : Action.Keeps ManagedPool.frame op)
    (point : CallPoint)
    (poolId : κ) :
    Follows (thenCallBack point poolId op) op
      (Relay.completing point op fun _ => []) := by
  have hStep :=
    Follows.step hKeeps (fun x => Follows.pure x) point
      poolId
  rw [bind_pure, bind_pure] at hStep
  exact hStep

------------------------------------------------------------
-- Relayed Calls
------------------------------------------------------------

/-
  What calling back does to a call: next to it stands the
  same call on the pool inside, which is one without any
  call-back.  A refusal that is swallowed changes nothing,
  and one that is passed on undoes the call.
-/
structure Harmless
    (p : ReentrantPool κ (ManagedPool κ V G F))
    (reached : Prop)
    (plain : Except Error α × Guarded (ManagedPool κ V G F))
    (run :
      Except Error α ×
        Guarded (ReentrantPool κ (ManagedPool κ V G F))) :
    Prop where
  nested :
    reached → run.2.pool.nested = p.nested ++ [refusal]
  swallowed :
    p.propagates = false →
      run.1 = plain.1 ∧ run.2.pool.inner = plain.2.pool
  propagated :
    p.propagates = true → reached →
      run.1 = .error .relayerReentered ∧
        run.2.pool.inner = p.inner
  unreached :
    ¬ reached →
      run.1 = plain.1 ∧ run.2.pool.inner = plain.2.pool ∧
        run.2.pool.nested = p.nested
  released : run.2.lock = .idle

variable
  {outer :
    Action (Guarded (ReentrantPool κ (ManagedPool κ V G F)))
      α}
  {inner : Action (Guarded (ManagedPool κ V G F)) α}
  {points : Guarded (ManagedPool κ V G F) → List CallPoint}
  {p : ReentrantPool κ (ManagedPool κ V G F)}

/-
  A call that passes no refusal on ends like the call on the
  pool inside, with the refusals noted.
-/
theorem perform_relayed_of_apart
    (hFollows : Follows outer inner points)
    (hApart :
      p.propagates = false ∨
        p.point ∉
          points { lock := .locked, pool := p.inner }) :
    (Relay.relayed outer).perform
        { lock := .idle, pool := p } =
      (((Relay.relayed inner).perform
          { lock := .idle, pool := p.inner }).1,
        around p
          ((points
              { lock := .locked, pool := p.inner }).count
            p.point)
          ((Relay.relayed inner).perform
            { lock := .idle, pool := p.inner }).2) := by
  have hTogether :=
    hFollows.together (p := p) (n := 0) rfl hApart
  rw [around_zero, Nat.zero_add] at hTogether
  rw [Relay.perform_relayed, Relay.perform_relayed,
    hTogether]
  cases inner { lock := .locked, pool := p.inner } <;> rfl

/- A call that passes a refusal on is undone. -/
theorem perform_relayed_of_stopped
    (hFollows : Follows outer inner points)
    (hPropagates : p.propagates = true)
    (hReached :
      p.point ∈
        points { lock := .locked, pool := p.inner }) :
    (Relay.relayed outer).perform
        { lock := .idle, pool := p } =
      (.error .relayerReentered,
        around p 1 { lock := .idle, pool := p.inner }) := by
  rcases
      hFollows.stopped (n := 0) rfl hPropagates hReached
    with ⟨t, hFrame, hStopped⟩
  rw [around_zero, Nat.zero_add] at hStopped
  have hInner := ManagedPool.restore_of_frame hFrame
  rw [Relay.perform_relayed, hStopped]
  change
    (_, around p 1 { lock := .idle, pool :=
      ManagedPool.restore p.inner t.pool }) = _
  rw [hInner]

/-
  A relayed call whose outer operations follow the inner ones
  is harmless.
-/
theorem harmless_relayed
    (points :
      Guarded (ManagedPool κ V G F) → List CallPoint)
    (hFollows : Follows outer inner points)
    (hNodup : ∀ g, (points g).Nodup) :
    Harmless p
      (p.point ∈
        points { lock := .locked, pool := p.inner })
      ((Relay.relayed inner).perform
        { lock := .idle, pool := p.inner })
      ((Relay.relayed outer).perform
        { lock := .idle, pool := p }) := by
  have hReleased :
      ((Relay.relayed inner).perform
        { lock := .idle, pool := p.inner }).2.lock = .idle := by
    rw [Relay.perform_relayed]
    cases inner { lock := .locked, pool := p.inner } <;> rfl
  by_cases hReached :
      p.point ∈ points { lock := .locked, pool := p.inner }
  · have hOnce := List.count_eq_one_of_mem (hNodup _) hReached
    cases hPropagates : p.propagates with
    | false =>
        rw [perform_relayed_of_apart hFollows
          (.inl hPropagates), hOnce]
        exact
          { nested := fun _ => rfl
            swallowed := fun _ => ⟨rfl, rfl⟩
            propagated := fun h => by simp [hPropagates] at h
            unreached := fun h => absurd hReached h
            released := hReleased }
    | true =>
        rw [perform_relayed_of_stopped hFollows hPropagates
          hReached]
        exact
          { nested := fun _ => rfl
            swallowed := fun h => by simp [hPropagates] at h
            propagated := fun _ _ => ⟨rfl, rfl⟩
            unreached := fun h => absurd hReached h
            released := rfl }
  · have hNone := List.count_eq_zero_of_not_mem hReached
    rw [perform_relayed_of_apart hFollows (.inr hReached),
      hNone]
    exact
      { nested := fun h => absurd h hReached
        swallowed := fun _ => ⟨rfl, rfl⟩
        propagated := fun _ h => absurd h hReached
        unreached := fun _ =>
          ⟨rfl, rfl, List.append_nil _⟩
        released := hReleased }

omit [DecidableEq κ] [Zero κ] [YieldVault κ V]
  [RewardGauge κ G] [RewardSink κ F] in
/- Naming the answer does no harm. -/
theorem Harmless.map
    {reached : Prop}
    {plain : Action (Guarded (ManagedPool κ V G F)) α}
    {run :
      Action (Guarded (ReentrantPool κ (ManagedPool κ V G F)))
        α}
    {g : Guarded (ManagedPool κ V G F)}
    {h : Guarded (ReentrantPool κ (ManagedPool κ V G F))}
    (hHarmless :
      Harmless p reached (plain.perform g) (run.perform h))
    (f : α → β) :
    Harmless p reached
      (Action.perform
        (do
          let x ← plain
          return f x) g)
      (Action.perform
        (do
          let x ← run
          return f x) h) := by
  rw [Action.perform_bind_pure, Action.perform_bind_pure]
  exact
    { nested := hHarmless.nested
      swallowed := fun hSwallows =>
        (hHarmless.swallowed hSwallows).imp_left
          (congrArg (Except.map f))
      propagated := fun hPropagates hReached =>
        (hHarmless.propagated hPropagates hReached).imp_left
          (congrArg (Except.map f))
      unreached := fun hUnreached =>
        (hHarmless.unreached hUnreached).imp_left
          (congrArg (Except.map f))
      released := hHarmless.released }

------------------------------------------------------------
-- The Entry Points
------------------------------------------------------------

variable {relayer poolId : κ}

/-
  Pulling, debiting the ledger and rebalancing follow the
  same on the pool inside.
-/
theorem follows_exitShort
    (relayer poolId : κ)
    (r : ExitRequest κ)
    (short : UInt64) :
    Follows
      (Relay.exitShort
        (P := ReentrantPool κ (ManagedPool κ V G F))
        relayer poolId r short)
      (Relay.exitShort (P := ManagedPool κ V G F)
        relayer poolId r short)
      (Relay.completedPull relayer poolId r short) := by
  have hTail :=
    fun pulled : UInt64 =>
      Follows.step
        (ManagedPool.frame_exit (V := V) (G := G) (F := F)
          relayer poolId r)
        (fun _ =>
          Follows.step
            (ManagedPool.frame_rebalance poolId false)
            (fun outcome =>
              Follows.pure
                ({ pulled, rebalance := outcome } :
                  ExitReport))
            .rebalance poolId)
        .exit poolId
  unfold Relay.exitShort Relay.completedPull
  split
  · exact
      Follows.step
        (ManagedPool.frame_capitalOut relayer poolId short)
        hTail _ _
  · exact hTail 0

/- A relayed join is harmless. -/
theorem harmless_joinPool
    (r : JoinRequest κ) :
    Harmless p
      (p.point ∈
        Relay.completed relayer poolId (.join r)
          { lock := .locked, pool := p.inner })
      ((Relay.joinPool relayer poolId r).perform
        { lock := .idle, pool := p.inner })
      ((Relay.joinPool relayer poolId r).perform
        { lock := .idle, pool := p }) := by
  refine
    harmless_relayed
      (Relay.completed relayer poolId (.join r)) ?_
      (Relay.nodup_completed relayer poolId (.join r))
  exact
    Follows.step (ManagedPool.frame_join _ _ r)
      (fun _ =>
        Follows.last (ManagedPool.frame_rebalance _ _) _ _)
      _ _

/- A relayed exit is harmless. -/
theorem harmless_exitPool
    (r : ExitRequest κ) :
    Harmless p
      (p.point ∈
        Relay.completed relayer poolId (.exit r)
          { lock := .locked, pool := p.inner })
      ((Relay.exitPool relayer poolId r).perform
        { lock := .idle, pool := p.inner })
      ((Relay.exitPool relayer poolId r).perform
        { lock := .idle, pool := p }) := by
  refine
    harmless_relayed
      (Relay.completed relayer poolId (.exit r)) ?_
      (Relay.nodup_completed relayer poolId (.exit r))
  have hRest :=
    follows_exitShort (V := V) (G := G) (F := F)
      relayer poolId r
  exact
    Follows.check
      (c := fun q => RelayedPool.shortfall q poolId r)
      (d := fun q => RelayedPool.shortfall q poolId r)
      (fun _ => rfl) hRest

/- A relayed claim is harmless. -/
theorem harmless_claimRewards :
    Harmless p
      (p.point ∈
        Relay.completed relayer poolId .claim
          { lock := .locked, pool := p.inner })
      ((Relay.claimRewards poolId).perform
        { lock := .idle, pool := p.inner })
      ((Relay.claimRewards poolId).perform
        { lock := .idle, pool := p }) := by
  refine
    harmless_relayed
      (Relay.completed relayer poolId .claim) ?_
      (Relay.nodup_completed relayer poolId .claim)
  exact Follows.last (ManagedPool.frame_claim _) _ _

/-
  Whatever a pool calls back for, and after whichever of its
  operations, the nested call is refused and touches nothing,
  and calling back is harmless to the outer call.
-/
theorem reentrancy_harmless
    (relayer poolId : κ)
    (call : CallBack κ)
    (p : ReentrantPool κ (ManagedPool κ V G F)) :
    (∀ q : ManagedPool κ V G F,
        nestedCall p.relayer poolId p.call
            { lock := .locked, pool := q } =
          .error .relayerReentered
            { lock := .locked, pool := q }) ∧
      Harmless p
        (p.point ∈
          Relay.completed relayer poolId call
            { lock := .locked, pool := p.inner })
        ((nestedCall relayer poolId call).perform
          { lock := .idle, pool := p.inner })
        ((nestedCall relayer poolId call).perform
          { lock := .idle, pool := p }) := by
  constructor
  · intro q
    exact nestedCall_of_locked rfl p.relayer poolId p.call
  · cases call with
    | join r => exact (harmless_joinPool r).map _
    | exit r => exact (harmless_exitPool r).map _
    | claim => exact harmless_claimRewards.map _

end ReentrantPool

end YieldManager

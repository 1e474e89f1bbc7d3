import YieldManager.Proofs.Action
import YieldManager.Relay.Pool

/-
  A relayed call happens in full or not at all.  The pool's
  operations may fail half way, with part of a request
  already booked, but none of them writes the manager, takes
  a collaborator away, or touches the lock.  That is enough
  for the checkpoint of a relayed call to undo any of them.

  Main declarations:
    * `ManagedPool.Frame`
    * `ManagedPool.restore_of_frame`
    * `Relay.AllOrNothing`
    * `Relay.relayed_eq_error_iff`
    * `Relay.allOrNothing_relayed`
    * `Relay.calls_all_or_nothing`
-/

------------------------------------------------------------
-- The Frame of a Pool
------------------------------------------------------------

namespace YieldManager

namespace ManagedPool

/- What no operation of a pool ever changes. -/
structure Frame (κ : Type) where
  lock : Lock
  manager : Manager κ
  managerKey : κ
  hasGauge : Bool
  hasSink : Bool

variable {κ V G F : Type}
variable {g h : Guarded (ManagedPool κ V G F)}

/- The frame of a pool behind its lock. -/
def frame (g : Guarded (ManagedPool κ V G F)) : Frame κ where
  lock := g.lock
  manager := g.pool.manager
  managerKey := g.pool.managerKey
  hasGauge := g.pool.gauge.isSome
  hasSink := g.pool.sink.isSome

/- The lock is part of the frame. -/
theorem lock_of_frame
    (hFrame : frame h = frame g) :
    h.lock = g.lock :=
  congrArg Frame.lock hFrame

/-
  A collaborator that neither came nor went is put back as it
  was saved.
-/
theorem putBack_of_isSome
    {α : Type}
    {saved current : Option α}
    (hPresent : current.isSome = saved.isSome) :
    putBack saved current = saved := by
  cases saved with
  | none =>
      cases current with
      | none => rfl
      | some y => simp at hPresent
  | some x =>
      cases current with
      | none => simp at hPresent
      | some y => rfl

/- A checkpoint puts a pool with the same frame back. -/
theorem restore_of_frame
    (hFrame : frame h = frame g) :
    restore g.pool h.pool = g.pool := by
  have hManager := congrArg Frame.manager hFrame
  have hKey := congrArg Frame.managerKey hFrame
  have hGauge := congrArg Frame.hasGauge hFrame
  have hSink := congrArg Frame.hasSink hFrame
  simp only [frame] at hManager hKey hGauge hSink
  unfold restore
  rw [putBack_of_isSome hGauge, putBack_of_isSome hSink,
    hManager, hKey]

------------------------------------------------------------
-- Operations of a Pool
------------------------------------------------------------

/- Whatever is done to the ledger stays within the frame. -/
theorem frame_within_books
    {α : Type}
    (a : Action (Ledger κ) α) :
    Action.Keeps (frame (V := V) (G := G) (F := F))
      (Action.within books a) :=
  Action.Keeps.within (fun _ _ => rfl) a

/- Whatever is done to the capital stays within the frame. -/
theorem frame_within_position
    {α : Type}
    (a : Action (Position κ V) α) :
    Action.Keeps (frame (G := G) (F := F))
      (Action.within position a) :=
  Action.Keeps.within (fun _ _ => rfl) a

variable [DecidableEq κ]
variable [RewardGauge κ G] [RewardSink κ F]

/- A gauge handed over for a claim is handed back. -/
theorem isSome_gauge_of_claimRewards
    (m : Manager κ)
    (key poolId : κ) :
    Action.Keeps
      (fun d : RewardDesk G F => d.gauge.isSome)
      (m.claimRewards key poolId) := by
  unfold Manager.claimRewards
  refine Action.Keeps.bind (Action.Keeps.lift _) fun _ => ?_
  split
  · exact Action.Keeps.pure _
  · apply Action.Keeps.get_bind
    intro d
    cases hGauge : d.gauge with
    | none => exact congrArg Option.isSome hGauge
    | some gauge =>
        simp only [Action.perform_within, Option.isSome_some]

/- A claim hands the desk's gauge and sink back. -/
theorem frame_claim
    (poolId : κ) :
    Action.Keeps (frame (V := V))
      (claim poolId :
        Action (Guarded (ManagedPool κ V G F)) _) := by
  unfold claim
  apply Action.Keeps.get_bind
  intro g
  simp only
  cases hSink : g.pool.sink with
  | none => rfl
  | some sink =>
      have hDesk :=
        isSome_gauge_of_claimRewards g.pool.manager
          g.pool.managerKey poolId
          { gauge := g.pool.gauge, sink := sink }
      simp only [Action.perform_within, frame, hSink, hDesk,
        Option.isSome_some]

variable [Zero κ] [YieldVault κ V]

/- A join stays within the frame. -/
theorem frame_join
    (sender poolId : κ)
    (r : JoinRequest κ) :
    Action.Keeps frame
      (RelayedPool.join sender poolId r :
        Action (Guarded (ManagedPool κ V G F)) Unit) :=
  frame_within_books _

/- An exit stays within the frame. -/
theorem frame_exit
    (sender poolId : κ)
    (r : ExitRequest κ) :
    Action.Keeps frame
      (RelayedPool.exit sender poolId r :
        Action (Guarded (ManagedPool κ V G F)) Unit) :=
  frame_within_books _

/- A pull of capital stays within the frame. -/
theorem frame_capitalOut
    (caller poolId : κ)
    (amount : UInt64) :
    Action.Keeps frame
      (RelayedPool.capitalOut caller poolId amount :
        Action (Guarded (ManagedPool κ V G F)) UInt64) :=
  Action.Keeps.get_bind fun g => frame_within_position _ g

/- A rebalance stays within the frame. -/
theorem frame_rebalance
    (poolId : κ)
    (force : Bool) :
    Action.Keeps frame
      (RelayedPool.rebalance poolId force :
        Action (Guarded (ManagedPool κ V G F)) Outcome) :=
  Action.Keeps.get_bind fun g => frame_within_position _ g

end ManagedPool

------------------------------------------------------------
-- Relayed Calls
------------------------------------------------------------

namespace Relay

/-
  A call that happens in full or not at all: its failures
  change nothing, it hands the lock back as it found it, and
  a lock that is taken refuses it.
-/
structure AllOrNothing
    {P α : Type}
    (call : Action (Guarded P) α) : Prop where
  undone : ∀ {g h e}, call g = .error e h → h = g
  lock : ∀ g, (call.perform g).2.lock = g.lock
  refused :
    ∀ {g}, g.lock = .locked →
      call g = .error .relayerReentered g

section Relayed

variable {κ P α : Type} [RelayedPool κ P]

/- A relayed call under a taken lock touches nothing. -/
theorem relayed_of_locked
    {g : Guarded P}
    (hLock : g.lock = .locked)
    (op : Action (Guarded P) α) :
    relayed op g = .error .relayerReentered g := by
  unfold relayed
  rw [hLock]

/-
  A relayed call under an idle lock is its operation, with
  the lock released, and the pool put back upon a failure.
-/
theorem perform_relayed
    (op : Action (Guarded P) α)
    (p : P) :
    (relayed op).perform { lock := .idle, pool := p } =
      match op { lock := .locked, pool := p } with
      | .ok x t => (.ok x, { t with lock := .idle })
      | .error e t =>
          (.error e,
            { lock := .idle
              pool := RelayedPool.restore p t.pool }) := by
  unfold Action.perform relayed
  cases op { lock := .locked, pool := p } <;> rfl

/-
  A relayed call fails because the lock is taken, or because
  its operation does; the pool is then put back.
-/
theorem relayed_eq_error_iff
    {op : Action (Guarded P) α}
    {g h : Guarded P}
    {e : Error} :
    relayed op g = .error e h ↔
      (g.lock = .locked ∧ .relayerReentered = e ∧ g = h) ∨
        (g.lock = .idle ∧
          ∃ t,
            op { g with lock := .locked } = .error e t ∧
              { lock := .idle
                pool := RelayedPool.restore g.pool t.pool } =
                h) := by
  unfold relayed
  cases hLock : g.lock with
  | locked => simp
  | idle =>
      cases op { g with lock := .locked } <;>
        simp [and_assoc]

/- An exit that is short of the given cash. -/
def exitShort
    (relayer poolId : κ)
    (r : ExitRequest κ)
    (short : UInt64) : Action (Guarded P) ExitReport := do
  let pulled ←
    if 0 < short then
      RelayedPool.capitalOut relayer poolId short
    else
      pure 0
  RelayedPool.exit relayer poolId r
  let outcome ← RelayedPool.rebalance poolId false
  return { pulled := pulled, rebalance := outcome }

/- An exit finds out what it is short of and goes on so. -/
theorem exitPool_eq
    (relayer poolId : κ)
    (r : ExitRequest κ) :
    exitPool (P := P) relayer poolId r =
      relayed (do
        let s ← get
        let short ←
          RelayedPool.shortfall s.pool poolId r
        exitShort relayer poolId r short) :=
  rfl

end Relayed

variable {κ V G F α : Type} [DecidableEq κ] [Zero κ]
variable [YieldVault κ V]
variable [RewardGauge κ G] [RewardSink κ F]

/- Pulling, debiting and rebalancing stay in the frame. -/
theorem frame_exitShort
    (relayer poolId : κ)
    (r : ExitRequest κ)
    (short : UInt64) :
    Action.Keeps ManagedPool.frame
      (exitShort (P := ManagedPool κ V G F)
        relayer poolId r short) := by
  have hTail :=
    fun pulled : UInt64 =>
      Action.Keeps.bind
        (ManagedPool.frame_exit (V := V) (G := G) (F := F)
          relayer poolId r)
        fun _ =>
          Action.Keeps.bind
            (ManagedPool.frame_rebalance poolId false)
            fun outcome =>
              Action.Keeps.pure
                ({ pulled, rebalance := outcome } :
                  ExitReport)
  unfold exitShort
  split
  · exact
      Action.Keeps.bind
        (ManagedPool.frame_capitalOut _ _ _) hTail
  · exact hTail 0

/-
  Under the lock, operations that stay within the frame are
  all or nothing.
-/
theorem allOrNothing_relayed
    {op : Action (Guarded (ManagedPool κ V G F)) α}
    (hKeeps : Action.Keeps ManagedPool.frame op) :
    AllOrNothing (relayed op) where
  undone := by
    intro g h e hRun
    rcases relayed_eq_error_iff.mp hRun with
      ⟨-, -, rfl⟩ | ⟨hIdle, t, hOp, rfl⟩
    · rfl
    · have hPool :=
        ManagedPool.restore_of_frame (hKeeps.of_error hOp)
      change
        ({ lock := .idle
           pool := ManagedPool.restore g.pool t.pool } :
          Guarded (ManagedPool κ V G F)) = g
      rw [hPool, ← hIdle]
  lock := by
    intro g
    rcases g with ⟨_ | _, p⟩
    · rw [perform_relayed]
      cases op { lock := .locked, pool := p } <;> rfl
    · rw [Action.perform, relayed_of_locked rfl]
  refused := fun hLock => relayed_of_locked hLock op

/-
  Joins, exits and claims are all or nothing, whatever the
  vault, the gauge and the sink do.
-/
theorem calls_all_or_nothing
    (relayer poolId : κ) :
    (∀ r : JoinRequest κ,
        AllOrNothing
          (joinPool (P := ManagedPool κ V G F)
            relayer poolId r)) ∧
      (∀ r : ExitRequest κ,
        AllOrNothing
          (exitPool (P := ManagedPool κ V G F)
            relayer poolId r)) ∧
      AllOrNothing
        (claimRewards (P := ManagedPool κ V G F)
          poolId) := by
  refine ⟨fun r => ?_, fun r => ?_, ?_⟩
  · exact
      allOrNothing_relayed
        (Action.Keeps.bind (ManagedPool.frame_join _ _ r)
          fun _ => ManagedPool.frame_rebalance _ _)
  · rw [exitPool_eq]
    exact
      allOrNothing_relayed
        (Action.Keeps.get_bind fun g =>
          Action.Keeps.bind (Action.Keeps.lift _)
            (frame_exitShort relayer poolId r) g)
  · exact allOrNothing_relayed (ManagedPool.frame_claim _)

end Relay

end YieldManager

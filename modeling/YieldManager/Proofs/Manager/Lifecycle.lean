import YieldManager.Manager.Basic
import YieldManager.Proofs.Ledger.Entries
import YieldManager.Proofs.Manager.Moves

/-
  The life of a manager, opened up: what a manager is when it
  is created and bound, and what making it live or setting
  its targets changes.

  Main declarations:
    * `Manager.create_eq_ok_iff`
    * `Manager.bind_eq_ok_iff`
    * `Manager.activate_eq_ok_iff`
    * `Manager.sameBooks_of_activate`
    * `Manager.setTargets_eq_ok_iff`
    * `Manager.isAtomic_bind`
    * `Manager.isAtomic_activate`
    * `Manager.isAtomic_setTargets`
-/

------------------------------------------------------------
-- Creation
------------------------------------------------------------

namespace YieldManager

namespace Manager

variable {κ : Type} [DecidableEq κ]

/- A new manager has the terms it was created on. -/
theorem create_eq_ok_iff
    [Zero κ]
    {terms : Terms κ}
    {bump : UInt8}
    {m : Manager κ} :
    create terms bump = .ok m ↔
      terms.custodian ≠ 0 ∧ terms.vault ≠ 0 ∧
        terms.token ≠ 0 ∧ terms.forwarder ≠ 0 ∧
        { poolId := terms.poolId
          token := terms.token
          custodian := terms.custodian
          vault := terms.vault
          forwarder := terms.forwarder
          gauge := terms.gauge
          rebalancer := 0
          authority := 0
          targets := Targets.none
          live := false
          bump := bump } = m := by
  simp [create]

/- A manager is bound to the ledger and vault of its terms. -/
theorem bind_eq_ok_iff
    {V : Type} [YieldVault κ V]
    {creator ledgerKey vaultKey : κ}
    {l : Ledger κ}
    {v : V}
    {m n : Manager κ}
    {u : Unit} :
    bind creator ledgerKey l vaultKey v m = .ok u n ↔
      creator = l.authority ∧ m.custodian = ledgerKey ∧
        m.poolId = l.poolId ∧ m.vault = vaultKey ∧
        YieldVault.asset v = m.token ∧
        { m with
          authority := l.authority
          rebalancer := l.relayer } = n := by
  simp [bind]

------------------------------------------------------------
-- Activation and Targets
------------------------------------------------------------

/- A manager becomes live by being registered. -/
theorem activate_eq_ok_iff
    [Zero κ]
    {key poolId : κ}
    {m n : Manager κ}
    {l l' : Ledger κ}
    {u : Unit} :
    activate key poolId (m, l) = .ok u (n, l') ↔
      m.live = false ∧ poolId ≠ 0 ∧ m.poolId = poolId ∧
        Ledger.register poolId m.token key l = .ok () l' ∧
        { m with live := true } = n := by
  simp only [activate, Action.bind_eq_ok_iff,
    Action.get_eq_ok_iff, Action.lift_eq_ok_iff,
    Action.within_eq_ok_iff, Action.modify_eq_ok_iff,
    require_eq_ok_iff, ensurePool_eq_ok_iff]
  constructor
  · intro hRun
    rcases hRun with
      ⟨_, _, ⟨rfl, rfl⟩, _, _, ⟨hLive, rfl⟩, _, _,
        ⟨hZero, rfl⟩, _, _, ⟨hPool, rfl⟩, _, _,
        ⟨book, hRegister, rfl⟩, hWrite⟩
    cases hWrite
    exact ⟨hLive, hZero, hPool, hRegister, rfl⟩
  · intro hRun
    rcases hRun with ⟨hLive, hZero, hPool, hRegister, rfl⟩
    exact
      ⟨(m, l), (m, l), ⟨rfl, rfl⟩, (), (m, l), ⟨hLive, rfl⟩,
        (), (m, l), ⟨hZero, rfl⟩, (), (m, l), ⟨hPool, rfl⟩,
        (), (m, l'), ⟨l', hRegister, rfl⟩, rfl⟩

/- Becoming live is all that happens to a manager. -/
theorem sameBooks_of_activate
    [Zero κ]
    {key poolId : κ}
    {m n : Manager κ}
    {l l' : Ledger κ}
    {u : Unit}
    (hRun :
      activate key poolId (m, l) = .ok u (n, l')) :
    { m with live := true } = n ∧ l.SameBooks l' := by
  rcases activate_eq_ok_iff.mp hRun with
    ⟨-, -, -, hRegister, hLive⟩
  rcases Ledger.register_eq_ok_iff.mp hRegister with
    ⟨-, e, -, -, rfl⟩
  exact ⟨hLive, .setEntry l _⟩

/- Targets are checked before they are set. -/
theorem setTargets_eq_ok_iff
    {caller poolId : κ}
    {targets : Targets}
    {m n : Manager κ}
    {u : Unit} :
    setTargets caller poolId targets m = .ok u n ↔
      caller = m.authority ∧ m.poolId = poolId ∧
        targets.validate = .ok () ∧
        { m with targets := targets } = n := by
  simp only [setTargets, Action.bind_eq_ok_iff,
    Action.get_eq_ok_iff, Action.lift_eq_ok_iff,
    Action.modify_eq_ok_iff, require_eq_ok_iff,
    ensurePool_eq_ok_iff]
  constructor
  · intro hRun
    rcases hRun with
      ⟨_, _, ⟨rfl, rfl⟩, _, _, ⟨hCaller, rfl⟩, _, _,
        ⟨hPool, rfl⟩, _, _, ⟨hValid, rfl⟩, hWrite⟩
    exact ⟨hCaller, hPool, hValid, hWrite⟩
  · intro hRun
    rcases hRun with ⟨hCaller, hPool, hValid, hWrite⟩
    exact
      ⟨m, m, ⟨rfl, rfl⟩, (), m, ⟨hCaller, rfl⟩, (), m,
        ⟨hPool, rfl⟩, (), m, ⟨hValid, rfl⟩, hWrite⟩

------------------------------------------------------------
-- Refusals
------------------------------------------------------------

/- A manager that is not bound stays as it is. -/
theorem isAtomic_bind
    {V : Type} [YieldVault κ V]
    (creator ledgerKey : κ)
    (l : Ledger κ)
    (vaultKey : κ)
    (v : V) :
    Action.IsAtomic
      (bind creator ledgerKey l vaultKey v) := by
  intro m
  apply Action.FailsAt.get_bind
  apply Action.FailsAt.lift_bind
  intro _ _
  apply Action.FailsAt.lift_bind
  intro _ _
  apply Action.FailsAt.lift_bind
  intro _ _
  apply Action.FailsAt.lift_bind
  intro _ _
  apply Action.FailsAt.lift_bind
  intro _ _
  exact Action.FailsAt.of_ok rfl

/-
  The ledger is written before the manager becomes live, but
  nothing can fail between the two.
-/
theorem isAtomic_activate
    [Zero κ]
    (key poolId : κ) :
    Action.IsAtomic
      (activate key poolId :
        Action (Manager κ × Ledger κ) Unit) := by
  intro s
  apply Action.FailsAt.get_bind
  apply Action.FailsAt.lift_bind
  intro _ _
  apply Action.FailsAt.lift_bind
  intro _ _
  apply Action.FailsAt.lift_bind
  intro _ _
  apply Action.FailsAt.bind
  · apply Action.FailsAt.within rfl
    exact Ledger.isAtomic_register _ _ _ s.2
  · intro _ written _
    exact Action.FailsAt.of_ok rfl

/- Targets that are refused are not set. -/
theorem isAtomic_setTargets
    (caller poolId : κ)
    (targets : Targets) :
    Action.IsAtomic
      (setTargets caller poolId targets :
        Action (Manager κ) Unit) := by
  intro m
  apply Action.FailsAt.get_bind
  apply Action.FailsAt.lift_bind
  intro _ _
  apply Action.FailsAt.lift_bind
  intro _ _
  apply Action.FailsAt.lift_bind
  intro _ _
  exact Action.FailsAt.of_ok rfl

end Manager

end YieldManager

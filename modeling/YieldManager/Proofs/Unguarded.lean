import YieldManager.Proofs.Ledger.Postings
import YieldManager.Proofs.Manager.Lifecycle
import YieldManager.Proofs.Reward.Accounts
import YieldManager.Proofs.Vault.Dealings

/-
  Operations whose failures nobody undoes.  Some of them write
  before their last check: a deposit opens a holding before it
  adds to it, a withdrawal debits its owner before the supply,
  a manager is registered before it becomes live.  What they
  write first is such that no later check can fail.

  Main declarations:
    * `ShareVault.isAtomic_deposit`
    * `ShareVault.IsConsistent.failsAt_withdraw`
    * `Manager.isAtomic_reportBalance`
    * `refusals_change_nothing`
-/

------------------------------------------------------------
-- Refused Operations
------------------------------------------------------------

namespace YieldManager

variable {κ : Type} [DecidableEq κ]

/- A refused deposit changes no vault. -/
theorem ShareVault.isAtomic_deposit
    (owner : κ)
    (amount : UInt64) :
    Action.IsAtomic (ShareVault.deposit owner amount) :=
  fun _ _ _ hRun => ShareVault.eq_of_deposit_error hRun

/- A refused withdrawal changes no consistent vault. -/
theorem ShareVault.IsConsistent.failsAt_withdraw
    {v : ShareVault κ}
    (hVault : v.IsConsistent)
    (owner : κ)
    (amount : UInt64) :
    Action.FailsAt v (ShareVault.withdraw owner amount) v :=
  fun _ _ hRun => hVault.eq_of_withdraw_error hRun

/- A refused report changes neither ledger nor vault. -/
theorem Manager.isAtomic_reportBalance
    {V : Type} [YieldVault κ V] [Zero κ]
    (m : Manager κ)
    (key poolId : κ) :
    Action.IsAtomic
      (m.reportBalance key poolId :
        Action (Position κ V) UInt64) :=
  fun _ _ _ hRun => Manager.reportBalance_eq_error hRun

/-
  Whatever is refused leaves everything as it was, with no
  need to undo it: deposits in any vault, withdrawals from one
  whose owners are distinct and own the supply together, what
  accrues and is received, new tokens and all postings of a
  manager, and what happens to a manager together with the
  ledger that it writes.
-/
theorem refusals_change_nothing
    {V : Type} [YieldVault κ V] [Zero κ] :
    (∀ (owner : κ) amount,
      Action.IsAtomic (ShareVault.deposit owner amount)) ∧
      (∀ v : ShareVault κ,
        v.owners.Nodup → v.issued = v.supply.toNat →
          ∀ owner amount,
            Action.FailsAt v
              (ShareVault.withdraw owner amount) v) ∧
      (∀ (holder : κ) amount,
        Action.IsAtomic (Gauge.accrue holder amount)) ∧
      (∀ (mint : κ) amount,
        Action.IsAtomic (Forwarder.receive mint amount)) ∧
      (∀ mint : κ, Action.IsAtomic (Ledger.addToken mint)) ∧
      (∀ poolId mint manager : κ,
        Action.IsAtomic
          (Ledger.register poolId mint manager)) ∧
      (∀ (manager poolId mint : κ) amount,
        Action.IsAtomic
            (Ledger.toManager manager poolId mint amount) ∧
          Action.IsAtomic
            (Ledger.fromManager manager poolId mint amount) ∧
          Action.IsAtomic
            (Ledger.reportManaged manager poolId mint
              amount)) ∧
      (∀ (creator ledgerKey vaultKey : κ) l (v : V),
        Action.IsAtomic
          (Manager.bind creator ledgerKey l vaultKey v)) ∧
      (∀ key poolId : κ,
        Action.IsAtomic
          (Manager.activate key poolId :
            Action (Manager κ × Ledger κ) Unit)) ∧
      (∀ (caller poolId : κ) targets,
        Action.IsAtomic
          (Manager.setTargets caller poolId targets)) ∧
      ∀ (m : Manager κ) key poolId,
        Action.IsAtomic
          (m.reportBalance key poolId :
            Action (Position κ V) UInt64) := by
  refine ⟨?_, ?_, ?_, ?_, ?_, ?_, ?_, ?_, ?_, ?_, ?_⟩
  · exact ShareVault.isAtomic_deposit
  · intro v hNodup hIssued owner amount
    have hVault : v.IsConsistent := ⟨hNodup, hIssued⟩
    exact hVault.failsAt_withdraw owner amount
  · exact Gauge.failsAt_accrue
  · exact Forwarder.isAtomic_receive
  · exact Ledger.isAtomic_addToken
  · exact Ledger.isAtomic_register
  · intro manager poolId mint amount
    exact
      ⟨Ledger.isAtomic_toManager manager poolId mint amount,
        Ledger.isAtomic_fromManager manager poolId mint amount,
        Ledger.isAtomic_reportManaged manager poolId mint
          amount⟩
  · intro creator ledgerKey vaultKey l v
    exact
      Manager.isAtomic_bind creator ledgerKey l vaultKey v
  · exact Manager.isAtomic_activate
  · exact Manager.isAtomic_setTargets
  · exact Manager.isAtomic_reportBalance

/-
  An owner with 12 shares that cost 31/20 cannot take out 20;
  the vault is as it was.
-/
theorem refusals_change_nothing_sharedVault :
    (ShareVault.sharedVault.owners.Nodup ∧
        ShareVault.sharedVault.issued =
          ShareVault.sharedVault.supply.toNat) ∧
      ∃ v,
        ShareVault.withdraw 8 20 ShareVault.sharedVault =
            .error .insufficientShares v ∧
          v = ShareVault.sharedVault := by
  have hNodup : ShareVault.sharedVault.owners.Nodup := by
    decide
  have hIssued :
      ShareVault.sharedVault.issued =
        ShareVault.sharedVault.supply.toNat := by
    decide
  have hRefused :
      ShareVault.withdraw 8 20 ShareVault.sharedVault =
        .error .insufficientShares ShareVault.sharedVault := by
    rfl
  exact
    ⟨⟨hNodup, hIssued⟩, _, hRefused,
      (refusals_change_nothing (V := ShareVault Nat)).2.1
        ShareVault.sharedVault hNodup hIssued 8 20
        .insufficientShares _ hRefused⟩

/-
  An owner of more shares than there are is debited before
  the supply turns out to be short.
-/
example :
    ∃ v,
      ShareVault.withdraw 8 12
          { ShareVault.sharedVault with supply := 0 } =
        .error .insufficientShares v ∧
        v.balanceOf 8 = 0 :=
  ⟨_, rfl, rfl⟩

end YieldManager

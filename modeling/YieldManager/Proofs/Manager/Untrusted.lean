import YieldManager.Proofs.Manager.Moves
import YieldManager.Vault.Faulty

/-
  Managers of untrusted vaults.  Nothing is assumed of the
  vault: it may issue and burn what it likes and answer any
  value.  A move that it spoils fails and leaves both books
  alone; a move that succeeds has been measured, and changes
  cash and managed balance of one entry accordingly.

  Main declarations:
    * `Ledger.Rewritten`
    * `Manager.Invested`
    * `Manager.Divested`
    * `Manager.Accounted`
    * `Manager.untrusted_vault_accounted`
-/

------------------------------------------------------------
-- Rewritten Ledgers
------------------------------------------------------------

namespace YieldManager

namespace Ledger

variable {κ : Type} [DecidableEq κ]

/-
  The entry of a token has new balances, and that is all that
  has changed: the other entries stand where they stood, and
  the ledger belongs to whom it belonged.
-/
structure Rewritten
    (mint : κ)
    (e : Entry κ)
    (cash managed : UInt64)
    (l l' : Ledger κ) : Prop where
  found : l.entry mint = .ok e
  rewritten :
    l'.entry mint =
      .ok { e with cash := cash, managed := managed }
  others :
    ∃ before after,
      l.entries = before ++ e :: after ∧
        l'.entries =
          before ++
            { e with cash := cash, managed := managed } ::
              after
  poolId : l'.poolId = l.poolId
  authority : l'.authority = l.authority
  relayer : l'.relayer = l.relayer
  bump : l'.bump = l.bump

/- Writing new balances into an entry rewrites the ledger. -/
theorem rewritten_setEntry
    {l : Ledger κ}
    {mint : κ}
    {e : Entry κ}
    (hEntry : l.entry mint = .ok e)
    (cash managed : UInt64) :
    Rewritten mint e cash managed l
      (l.setEntry
        { e with cash := cash, managed := managed }) := by
  have hMint := mint_of_entry hEntry
  exact
    { found := hEntry
      rewritten := entry_setEntry_self _ hEntry hMint
      others := entries_setEntry hEntry rfl
      poolId := rfl
      authority := rfl
      relayer := rfl
      bump := rfl }

end Ledger

------------------------------------------------------------
-- Measured Moves
------------------------------------------------------------

namespace Manager

variable {κ V : Type} [DecidableEq κ] [YieldVault κ V]

/-
  The amount has gone from cash to the vault, the manager has
  gained the shares, and the managed balance is what the vault
  now says that all of the manager's shares are worth.
-/
structure Invested
    (m : Manager κ)
    (key : κ)
    (amount shares : UInt64)
    (s t : Position κ V) : Prop where
  some : 0 < shares.toNat
  gained :
    (YieldVault.balanceOf t.vault key).toNat =
      (YieldVault.balanceOf s.vault key).toNat +
        shares.toNat
  books :
    ∃ (e : Entry κ) (cash value : UInt64),
      YieldVault.worth t.vault key = .ok value ∧
        cash.toNat + amount.toNat = e.cash.toNat ∧
        Ledger.Rewritten m.token e cash value
          s.ledger t.ledger

/-
  The vault has claimed to deliver at least the amount and has
  burned shares of the manager for it.  The amount, and not
  the delivery, has gone to cash, and the managed balance is
  what the manager's remaining shares are worth.
-/
structure Divested
    (m : Manager κ)
    (key : κ)
    (amount received : UInt64)
    (s t : Position κ V) : Prop where
  delivered :
    YieldVault.withdraw key amount s.vault =
      .ok received t.vault
  enough : amount ≤ received
  lost :
    YieldVault.balanceOf t.vault key <
      YieldVault.balanceOf s.vault key
  books :
    ∃ (e : Entry κ) (cash value : UInt64),
      YieldVault.worth t.vault key = .ok value ∧
        cash.toNat = e.cash.toNat + amount.toNat ∧
        Ledger.Rewritten m.token e cash value
          s.ledger t.ledger

variable [Zero κ]

/- An investment that succeeds is a measured one. -/
theorem invested_of_invest
    {m : Manager κ}
    {key poolId : κ}
    {amount shares : UInt64}
    {s t : Position κ V}
    (hRun : m.invest key poolId amount s = .ok shares t) :
    Invested m key amount shares s t := by
  rcases invest_eq_ok_iff.mp hRun with
    ⟨e, cash, managed, value, hEntry, hCash, -, hDeposit,
      hValue, hLedger⟩
  rcases Ledger.managedEntry_eq_ok_iff.mp hEntry with
    ⟨-, hFound, -, -⟩
  rcases YieldVault.depositMeasured_eq_ok_iff.mp hDeposit with
    ⟨-, hGain, hShares⟩
  have hLt := UInt64.lt_iff_toNat_lt.mp hGain
  have hDiff :
      shares.toNat =
        (YieldVault.balanceOf t.vault key).toNat -
          (YieldVault.balanceOf s.vault key).toNat := by
    rw [hShares]
    exact UInt64.toNat_sub_of_le _ _ (UInt64.le_of_lt hGain)
  refine
    ⟨by omega, by omega, e, cash, value, hValue, hCash, ?_⟩
  rw [← hLedger]
  exact Ledger.rewritten_setEntry hFound cash value

/- A divestment that succeeds is a measured one. -/
theorem divested_of_divest
    {m : Manager κ}
    {key poolId : κ}
    {amount received : UInt64}
    {s t : Position κ V}
    (hRun : m.divest key poolId amount s = .ok received t) :
    Divested m key amount received s t := by
  rcases divest_eq_ok_iff.mp hRun with
    ⟨e, before, cash, value, hEntry, -, -, hWithdraw, hCash,
      hValue, hLedger⟩
  rcases Ledger.managedEntry_eq_ok_iff.mp hEntry with
    ⟨-, hFound, -, -⟩
  rcases YieldVault.withdrawMeasured_eq_ok_iff.mp
      hWithdraw with
    ⟨hDelivered, hLost, hEnough⟩
  refine
    ⟨hDelivered, hEnough, hLost, e, cash, value, hValue,
      hCash, ?_⟩
  rw [← hLedger]
  exact Ledger.rewritten_setEntry hFound cash value

------------------------------------------------------------
-- Every Operation Accounted For
------------------------------------------------------------

/- What the outcome of a rebalance says of the position. -/
def Accounted
    (m : Manager κ)
    (key : κ)
    (s t : Position κ V) : Outcome → Prop
  | .skipped => t = s
  | .balanced => t = s
  | .invested amount shares =>
      Invested m key amount shares s t
  | .divested amount =>
      ∃ received, Divested m key amount received s t

/- A rebalance does what its outcome says. -/
theorem accounted_of_rebalance
    {m : Manager κ}
    {key poolId : κ}
    {force : Bool}
    {s t : Position κ V}
    {outcome : Outcome}
    (hRun :
      m.rebalance key poolId force s = .ok outcome t) :
    Accounted m key s t outcome := by
  rcases rebalance_eq_ok_iff.mp hRun with
    ⟨-, -, held, value, total, band, -, -, -, -, hMove⟩
  split at hMove
  · rcases hMove with ⟨rfl, rfl⟩
    rfl
  · rcases moveTo_eq_ok_iff.mp hMove with
      ⟨-, shares, hInvest, rfl⟩ |
        ⟨-, received, hDivest, rfl⟩ | ⟨-, rfl, rfl⟩
    · exact invested_of_invest hInvest
    · exact ⟨received, divested_of_divest hDivest⟩
    · rfl

/-
  Over any vault whatever, an operation of a manager either
  fails and leaves ledger and vault as they were, or has done
  to them exactly what it answers.
-/
theorem untrusted_vault_accounted
    (m : Manager κ)
    (caller key poolId : κ)
    (amount : UInt64)
    (force : Bool)
    (s : Position κ V) :
    (match m.rebalance key poolId force s with
      | .error _ t => t = s
      | .ok outcome t => Accounted m key s t outcome) ∧
    (match m.capitalIn caller key poolId amount s with
      | .error _ t => t = s
      | .ok shares t => Invested m key amount shares s t) ∧
    (match m.capitalOut caller key poolId amount s with
      | .error _ t => t = s
      | .ok received t =>
          Divested m key amount received s t) := by
  refine ⟨?_, ?_, ?_⟩
  · cases hRun : m.rebalance key poolId force s with
    | error e t => exact rebalance_eq_error hRun
    | ok outcome t => exact accounted_of_rebalance hRun
  · cases hRun : m.capitalIn caller key poolId amount s with
    | error e t => exact capitalIn_eq_error hRun
    | ok shares t =>
        rcases capitalIn_eq_ok_iff.mp hRun with
          ⟨-, -, -, hInvest⟩
        exact invested_of_invest hInvest
  · cases hRun : m.capitalOut caller key poolId amount s with
    | error e t => exact capitalOut_eq_error hRun
    | ok received t =>
        rcases capitalOut_eq_ok_iff.mp hRun with
          ⟨-, -, -, hDivest⟩
        exact divested_of_divest hDivest

/-
  A vault that delivers 7 on top of what it is asked for: of
  the 9 received for 2, the pool's cash grows by 2.
-/
example :
    let m : Manager Nat :=
      { poolId := 1, token := 2, custodian := 3, vault := 4
        forwarder := 5, gauge := none, rebalancer := 6
        authority := 7, targets := Targets.none, live := true
        bump := 0 }
    let l : Ledger Nat :=
      { poolId := 1, authority := 7, relayer := 6
        entries :=
          [{ mint := 2, cash := 10, managed := 5
             manager := 8 }]
        bump := 0 }
    let v : FaultyVault Nat :=
      { shares :=
          { asset := 2, authority := 7, assets := 5
            supply := 5, feeBps := 0, fees := 0
            holdings := [{ owner := 8, shares := 5 }]
            bump := 0 }
        issuesShares := true, deliversAll := true
        burnsShares := true, bonus := 7 }
    let after :=
      (m.capitalOut 6 8 1 2).perform
        { ledger := l, vault := v }
    after.1 = .ok 9 ∧
      after.2.ledger.balances 1 2 =
        .ok { cash := 12, managed := 3 } := by
  decide +kernel

end Manager

end YieldManager

import YieldManager.Proofs.Ledger.Requests
import YieldManager.Proofs.Manager.Moves
import YieldManager.Proofs.Vault.Par

/-
  Managers of share vaults at par.  A position is settled when
  its vault is at par and the managed balance is the number of
  the manager's shares.  Whatever a manager does to a settled
  position settles it again, and neither creates nor destroys
  value: what leaves cash and managed balance is a fee of the
  vault.

  Main declarations:
    * `Manager.Settled`
    * `Manager.Advanced`
    * `Manager.advanced_of_invest`
    * `Manager.advanced_of_divest`
    * `Manager.advanced_of_rebalance`
    * `Manager.advanced_of_capitalIn`
    * `Manager.advanced_of_capitalOut`
    * `Manager.advanced_of_reportBalance`
    * `Manager.advanced_of_paid`
-/

------------------------------------------------------------
-- Settled Positions
------------------------------------------------------------

namespace YieldManager

namespace Manager

variable {κ : Type} [DecidableEq κ]

/-
  The vault is at par, and the managed balance of the token is
  the number of the manager's shares.
-/
structure Settled
    (m : Manager κ)
    (key : κ)
    (s : Position κ (ShareVault κ)) : Prop where
  par : s.vault.IsPar
  managed :
    ∃ e,
      s.ledger.entry m.token = .ok e ∧
        e.managed = s.vault.balanceOf key

/-
  A position that a manager has taken from one settled state
  to another.  The flow of a token is what was paid in, less
  what was paid out.  Only the manager's own shares and the
  balances of its own token have changed beyond the flow, and
  these only between cash, managed balance and vault fees.
-/
structure Advanced
    (m : Manager κ)
    (key : κ)
    (flow : κ → Int)
    (s t : Position κ (ShareVault κ)) : Prop where
  settled : Settled m key t
  books : Ledger.SameBooks s.ledger t.ledger
  terms : ShareVault.SameTerms s.vault t.vault
  shares :
    ShareVault.Reassigned key (t.vault.balanceOf key)
      s.vault t.vault
  fees : s.vault.fees.toNat ≤ t.vault.fees.toNat
  others :
    ∀ mint e, mint ≠ m.token →
      s.ledger.entry mint = .ok e →
        ∃ cash : UInt64,
          (cash.toNat : Int) = e.cash.toNat + flow mint ∧
            t.ledger.entry mint = .ok { e with cash := cash }
  own :
    ∀ e, s.ledger.entry m.token = .ok e →
      ∃ cash managed : UInt64,
        t.ledger.entry m.token =
            .ok { e with cash := cash, managed := managed } ∧
          (cash.toNat : Int) + managed.toNat +
              t.vault.fees.toNat =
            e.cash.toNat + e.managed.toNat +
              s.vault.fees.toNat + flow m.token
  held :
    ∀ mint,
      (t.ledger.held mint : Int) +
          (if m.token = mint then
            t.vault.fees.toNat else 0) =
        s.ledger.held mint +
          (if m.token = mint then
            s.vault.fees.toNat else 0) + flow mint

namespace Advanced

variable {m : Manager κ}
variable {key : κ}

/- A settled position is where it is. -/
theorem refl
    {s : Position κ (ShareVault κ)}
    (hSettled : Settled m key s) :
    Advanced m key (fun _ => 0) s s where
  settled := hSettled
  books := Ledger.SameBooks.refl s.ledger
  terms := ShareVault.SameTerms.refl s.vault
  shares := ShareVault.Reassigned.refl s.vault key
  fees := Nat.le_refl _
  others _ e _ hEntry := ⟨e.cash, by omega, hEntry⟩
  own e hEntry := ⟨e.cash, e.managed, hEntry, by omega⟩
  held _ := by omega

/- The flows of two advances in a row add up. -/
private theorem trans
    {first second total : κ → Int}
    {s t u : Position κ (ShareVault κ)}
    (hFirst : Advanced m key first s t)
    (hSecond : Advanced m key second t u)
    (hTotal : ∀ mint, total mint = first mint + second mint) :
    Advanced m key total s u := by
  refine
    { settled := hSecond.settled
      books := hFirst.books.trans hSecond.books
      terms := hFirst.terms.trans hSecond.terms
      shares := hFirst.shares.trans hSecond.shares
      fees := Nat.le_trans hFirst.fees hSecond.fees
      others := ?_
      own := ?_
      held := ?_ }
  · intro mint e hMint hEntry
    rcases hFirst.others mint e hMint hEntry with
      ⟨cash₁, hCash₁, hEntry₁⟩
    rcases hSecond.others mint _ hMint hEntry₁ with
      ⟨cash₂, hCash₂, hEntry₂⟩
    refine ⟨cash₂, ?_, hEntry₂⟩
    have hSum := hTotal mint
    simp only at hCash₂
    omega
  · intro e hEntry
    rcases hFirst.own e hEntry with
      ⟨cash₁, managed₁, hEntry₁, hSum₁⟩
    rcases hSecond.own _ hEntry₁ with
      ⟨cash₂, managed₂, hEntry₂, hSum₂⟩
    refine ⟨cash₂, managed₂, hEntry₂, ?_⟩
    have hSum := hTotal m.token
    simp only at hSum₂
    omega
  · intro mint
    have hOne := hFirst.held mint
    have hTwo := hSecond.held mint
    have hSum := hTotal mint
    omega

variable {flow : κ → Int}
variable {s t u : Position κ (ShareVault κ)}

/- A move before payments adds nothing to their flow. -/
theorem zero_trans
    (hMove : Advanced m key (fun _ => 0) s t)
    (hPay : Advanced m key flow t u) :
    Advanced m key flow s u :=
  hMove.trans hPay fun _ => (Int.zero_add _).symm

/- A move after payments adds nothing to their flow. -/
theorem trans_zero
    (hPay : Advanced m key flow s t)
    (hMove : Advanced m key (fun _ => 0) t u) :
    Advanced m key flow s u :=
  hPay.trans hMove fun _ => (Int.add_zero _).symm

/- Vaults only take, so the flow bounds what is gained. -/
theorem held_le
    (hAdvanced : Advanced m key flow s t)
    (mint : κ) :
    (t.ledger.held mint : Int) ≤
      s.ledger.held mint + flow mint := by
  have hHeld := hAdvanced.held mint
  have hFees := hAdvanced.fees
  split at hHeld <;> omega

end Advanced

------------------------------------------------------------
-- Moves of Capital
------------------------------------------------------------

variable {m : Manager κ}
variable {key poolId : κ}
variable {s t : Position κ (ShareVault κ)}

/-
  Rewriting the balances of the manager's token advances the
  position if nothing is lost between cash, managed balance
  and fees, and the managed balance is the number of shares.
-/
private theorem advanced_of_setEntry
    {e : Entry κ}
    {cash managed : UInt64}
    (hEntry : s.ledger.entry m.token = .ok e)
    (hLedger :
      s.ledger.setEntry
        { e with cash := cash, managed := managed } =
          t.ledger)
    (hPar : t.vault.IsPar)
    (hTerms : ShareVault.SameTerms s.vault t.vault)
    (hShares :
      ShareVault.Reassigned key (t.vault.balanceOf key)
        s.vault t.vault)
    (hFees : s.vault.fees.toNat ≤ t.vault.fees.toNat)
    (hManaged : managed = t.vault.balanceOf key)
    (hSum :
      cash.toNat + managed.toNat + t.vault.fees.toNat =
        e.cash.toNat + e.managed.toNat +
          s.vault.fees.toNat) :
    Advanced m key (fun _ => 0) s t := by
  have hOwn := Ledger.mint_of_entry hEntry
  have hSelf :
      t.ledger.entry m.token =
        .ok { e with cash := cash, managed := managed } := by
    rw [← hLedger]
    exact Ledger.entry_setEntry_self _ hEntry hOwn
  refine
    { settled := ⟨hPar, _, hSelf, hManaged⟩
      books := ?_
      terms := hTerms
      shares := hShares
      fees := hFees
      others := ?_
      own := ?_
      held := ?_ }
  · rw [← hLedger]
    exact Ledger.SameBooks.setEntry _ _
  · intro mint d hMint hFound
    refine ⟨d.cash, by omega, ?_⟩
    rw [← hLedger, Ledger.entry_setEntry_of_ne]
    · exact hFound
    · simpa only [hOwn] using hMint
  · intro d hFound
    rw [hEntry] at hFound
    cases hFound
    exact ⟨cash, managed, hSelf, by omega⟩
  · intro mint
    have hHeld :=
      Ledger.held_setEntry
        { e with cash := cash, managed := managed } hEntry
        rfl mint
    rw [hLedger] at hHeld
    simp only at hHeld
    split at hHeld
    · next hMint =>
        simp only [if_pos hMint]
        omega
    · next hMint =>
        simp only [if_neg hMint]
        omega

/- Payments of others leave a settled position settled. -/
theorem advanced_of_paid
    {flow : κ → Int}
    {l : Ledger κ}
    (hSettled : Settled m key s)
    (hPaid : Ledger.Paid flow s.ledger l) :
    Advanced m key flow s { s with ledger := l } := by
  rcases hSettled.managed with ⟨e, hEntry, hManaged⟩
  rcases hPaid.entries m.token e hEntry with
    ⟨cash, hCash, hAfter⟩
  refine
    { settled := ⟨hSettled.par, _, hAfter, hManaged⟩
      books := hPaid.books
      terms := ShareVault.SameTerms.refl s.vault
      shares := ShareVault.Reassigned.refl s.vault key
      fees := Nat.le_refl _
      others := fun mint e _ => hPaid.entries mint e
      own := ?_
      held := ?_ }
  · intro d hFound
    rw [hEntry] at hFound
    cases hFound
    refine ⟨cash, e.managed, hAfter, ?_⟩
    simp only
    omega
  · intro mint
    have hHeld := hPaid.held mint
    simp only
    omega

variable [Zero κ]

/- An investment at par moves value, except for the fee. -/
theorem advanced_of_invest
    {amount shares : UInt64}
    (hSettled : Settled m key s)
    (hRun : m.invest key poolId amount s = .ok shares t) :
    Advanced m key (fun _ => 0) s t := by
  rcases hSettled with ⟨hPar, d, hFound, hManaged⟩
  rcases invest_eq_ok_iff.mp hRun with
    ⟨e, cash, managed, value, hManagedEntry, hCash, -,
      hMeasured, hValue, hLedger⟩
  rcases Ledger.managedEntry_eq_ok_iff.mp hManagedEntry with
    ⟨-, hEntry, -, -⟩
  rw [hEntry] at hFound
  cases hFound
  rcases YieldVault.depositMeasured_eq_ok_iff.mp
      hMeasured with
    ⟨⟨claimed, hDeposit⟩, -, -⟩
  rcases ShareVault.deposited_of_deposit hDeposit with
    ⟨fee, net, hSplit, hBought, hDeposited⟩
  rcases hPar.deposited hBought hDeposited with
    ⟨rfl, hParAfter⟩
  have hWorth := hParAfter.eq_balanceOf_of_worth hValue
  have hGain := hDeposited.gain
  have hFees := hDeposited.fees
  have hParts := hSplit.2
  apply advanced_of_setEntry hEntry hLedger hParAfter
    hDeposited.terms hDeposited.reassigned _ hWorth
  · rw [hWorth, hManaged]
    omega
  · omega

/- A divestment at par moves value, and costs no fee. -/
theorem advanced_of_divest
    {amount received : UInt64}
    (hSettled : Settled m key s)
    (hRun : m.divest key poolId amount s = .ok received t) :
    received = amount ∧
      Advanced m key (fun _ => 0) s t := by
  rcases hSettled with ⟨hPar, d, hFound, hManaged⟩
  rcases divest_eq_ok_iff.mp hRun with
    ⟨e, before, cash, value, hManagedEntry, -, -, hMeasured,
      hCash, hValue, hLedger⟩
  rcases Ledger.managedEntry_eq_ok_iff.mp hManagedEntry with
    ⟨-, hEntry, -, -⟩
  rw [hEntry] at hFound
  cases hFound
  rcases YieldVault.withdrawMeasured_eq_ok_iff.mp
      hMeasured with
    ⟨hWithdraw, -, -⟩
  rcases ShareVault.withdrawn_of_withdraw hWithdraw with
    ⟨hReceived, shares, hCost, hWithdrawn⟩
  rcases hPar.withdrawn hCost hWithdrawn with
    ⟨rfl, hParAfter⟩
  have hWorth := hParAfter.eq_balanceOf_of_worth hValue
  have hLoss := hWithdrawn.loss
  have hFees := congrArg UInt64.toNat hWithdrawn.fees
  refine ⟨hReceived, ?_⟩
  apply advanced_of_setEntry hEntry hLedger hParAfter
    hWithdrawn.terms hWithdrawn.reassigned _ hWorth
  · rw [hWorth, hManaged]
    omega
  · omega

------------------------------------------------------------
-- Operations of a Manager
------------------------------------------------------------

/- A rebalance advances a settled position. -/
theorem advanced_of_rebalance
    {force : Bool}
    {outcome : Outcome}
    (hSettled : Settled m key s)
    (hRun :
      m.rebalance key poolId force s = .ok outcome t) :
    Advanced m key (fun _ => 0) s t := by
  rcases rebalance_eq_ok_iff.mp hRun with
    ⟨-, -, held, value, total, band, -, -, -, -, hMove⟩
  split at hMove
  · rcases hMove with ⟨-, rfl⟩
    exact Advanced.refl hSettled
  · rcases moveTo_eq_ok_iff.mp hMove with
      ⟨-, shares, hInvest, -⟩ |
        ⟨-, received, hDivest, -⟩ | ⟨-, rfl, -⟩
    · exact advanced_of_invest hSettled hInvest
    · exact (advanced_of_divest hSettled hDivest).2
    · exact Advanced.refl hSettled

/- A requested investment advances a settled position. -/
theorem advanced_of_capitalIn
    {caller : κ}
    {amount shares : UInt64}
    (hSettled : Settled m key s)
    (hRun :
      m.capitalIn caller key poolId amount s =
        .ok shares t) :
    Advanced m key (fun _ => 0) s t := by
  rcases capitalIn_eq_ok_iff.mp hRun with
    ⟨-, -, -, hInvest⟩
  exact advanced_of_invest hSettled hInvest

/- A requested divestment advances a settled position. -/
theorem advanced_of_capitalOut
    {caller : κ}
    {amount received : UInt64}
    (hSettled : Settled m key s)
    (hRun :
      m.capitalOut caller key poolId amount s =
        .ok received t) :
    received = amount ∧
      Advanced m key (fun _ => 0) s t := by
  rcases capitalOut_eq_ok_iff.mp hRun with
    ⟨-, -, -, hDivest⟩
  exact advanced_of_divest hSettled hDivest

/- A report of a settled position reports what is known. -/
theorem advanced_of_reportBalance
    {value : UInt64}
    (hSettled : Settled m key s)
    (hRun : m.reportBalance key poolId s = .ok value t) :
    Advanced m key (fun _ => 0) s t := by
  rcases hSettled with ⟨hPar, d, hFound, hManaged⟩
  rcases reportBalance_eq_ok_iff.mp hRun with
    ⟨-, -, hVault, hValue, e, hManagedEntry, hLedger⟩
  rcases Ledger.managedEntry_eq_ok_iff.mp hManagedEntry with
    ⟨-, hEntry, -, -⟩
  rw [hEntry] at hFound
  cases hFound
  have hWorth := hPar.eq_balanceOf_of_worth hValue
  apply advanced_of_setEntry hEntry hLedger
  · exact hVault ▸ hPar
  · exact hVault ▸ ShareVault.SameTerms.refl s.vault
  · exact hVault ▸ ShareVault.Reassigned.refl s.vault key
  · exact hVault ▸ Nat.le_refl _
  · rw [hWorth, hVault]
  · rw [hWorth, hManaged, hVault]

end Manager

end YieldManager

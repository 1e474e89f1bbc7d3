import YieldManager.Proofs.Program.Runs

/-
  Conservation over runs.  What all ledgers hold of a token
  and the fees of all vaults over it change by the flow of the
  changes only: no instruction creates value, and none loses
  any but to the fees of vaults.

  Main declarations:
    * `State.held`
    * `State.fees`
    * `Change.total`
    * `Changes.total`
    * `Program.held_add_fees_add_exited_of_run`
-/

------------------------------------------------------------
-- Holdings and Fees
------------------------------------------------------------

namespace YieldManager

namespace State

/- What a ledger holds of a token, as cash or managed. -/
def held
    (mint : Address) : State Address → Nat
  | .ledger l => l.held mint
  | _ => 0

/- The fees of a vault over a token. -/
def fees
    (mint : Address) : State Address → Nat
  | .shareVault v =>
      if v.asset = mint then v.fees.toNat else 0
  | _ => 0

/- What a record holds of a token, or has taken as fees. -/
def total
    (mint : Address)
    (state : State Address) : Nat :=
  state.held mint + state.fees mint

end State

variable {signed : Address → Prop}
variable {s t : Store}
variable {flow : Address → Int}

/- A record that is opened holds nothing yet. -/
theorem Opened.total
    {key : Address}
    {state : State Address}
    (hOpened : Opened signed s key state)
    (mint : Address) :
    state.total mint = 0 := by
  cases hOpened with
  | ledger => rfl
  | shareVault =>
      simp [State.total, State.held, State.fees,
        Creation.newShareVault]
  | gauge => rfl
  | forwarder => rfl
  | manager => rfl
  | relayer => rfl

/- Registering a manager moves no balance. -/
theorem held_of_activate
    {key poolId : Address}
    {m m' : Manager Address}
    {l l' : Ledger Address}
    {u : Unit}
    (hRun :
      Manager.activate key poolId (m, l) =
        .ok u (m', l'))
    (mint : Address) :
    l'.held mint = l.held mint := by
  rcases Manager.activate_eq_ok_iff.mp hRun with
    ⟨-, -, -, hRegister, -⟩
  rcases Ledger.register_eq_ok_iff.mp hRegister with
    ⟨-, e, hEntry, -, rfl⟩
  have hHeld :=
    Ledger.held_setEntry { e with manager := key } hEntry
      rfl mint
  simp only at hHeld
  omega

------------------------------------------------------------
-- Changes
------------------------------------------------------------

/- A change adds its flow to what is held and taken. -/
theorem Change.total
    (hChange : Change signed flow s t)
    (hWired : s.IsWired)
    (mint : Address) :
    (t.sum (State.total mint) : Int) =
      s.sum (State.total mint) + flow mint := by
  cases hChange with
  | opened hFree hOpened =>
      rw [Store.sum_insert_of_free _ hFree,
        hOpened.total mint, Nat.add_zero, Int.add_zero]
  | @tokenAdded _ key _ space l l' hLedger hRun hValid =>
      have hSum :=
        Store.sum_replace (State.total mint)
          (Store.state?_of_find? hLedger) space (.ledger l')
      have hHeld := Ledger.held_of_addToken hRun mint
      simp only [State.total, State.held, State.fees]
        at hSum ⊢
      omega
  | @gaugeSet _ key space g g' hGauge =>
      have hSum :=
        Store.sum_replace (State.total mint)
          (Store.state?_of_find? hGauge) space (.gauge g')
      simp only [State.total, State.held, State.fees]
        at hSum ⊢
      omega
  | @forwarderSet _ key space f f' hForwarder =>
      have hSum :=
        Store.sum_replace (State.total mint)
          (Store.state?_of_find? hForwarder) space
          (.forwarder f')
      simp only [State.total, State.held, State.fees]
        at hSum ⊢
      omega
  | @activated _ key _ _ space ledgerSpace m m' l l' hManager
      hLedger hCustodian hRun =>
      have hSum :=
        Store.sum_replace_replace (State.total mint)
          (Store.state?_of_find? hManager)
          (Store.state?_of_find? hLedger) (by simp) space
          ledgerSpace (.manager m') (.ledger l')
      have hHeld := held_of_activate hRun mint
      simp only [State.total, State.held, State.fees]
        at hSum ⊢
      omega
  | @targetsSet _ key _ _ space _ m m' hManager hRun =>
      have hSum :=
        Store.sum_replace (State.total mint)
          (Store.state?_of_find? hManager) space
          (.manager m')
      simp only [State.total, State.held, State.fees]
        at hSum ⊢
      omega
  | @operated _ _ key m _ p q hRebooked hOperated =>
      rcases hRebooked.state? with ⟨hOld, hBook, hSafe⟩
      have hAdvanced := hRebooked.advanced hWired hOperated
      rcases hRebooked.books with
        ⟨ledgerSpace, vaultSpace, -, -, rfl⟩
      have hSum :=
        Store.sum_replace_replace (State.total mint) hBook
          hSafe (by simp) ledgerSpace vaultSpace
          (.ledger q.ledger) (.shareVault q.vault)
      have hHeld := hAdvanced.held mint
      have hAsset : p.vault.asset = m.token :=
        hWired.asset hOld hSafe
      have hSame : q.vault.asset = m.token :=
        hAdvanced.terms.asset.trans hAsset
      simp only [State.total, State.held, State.fees, hAsset,
        hSame] at hSum ⊢
      omega

/- Changes add their flow to what is held and taken. -/
theorem Changes.total
    (hChanges : Changes signed flow s t)
    (hWired : s.IsWired)
    (mint : Address) :
    (t.sum (State.total mint) : Int) =
      s.sum (State.total mint) + flow mint := by
  induction hChanges with
  | refl s => exact (Int.add_zero _).symm
  | head hChange hRest hTotal ih =>
      rw [ih (hChange.isWired hWired),
        hChange.total hWired mint, hTotal mint, Int.add_assoc]

------------------------------------------------------------
-- Runs
------------------------------------------------------------

namespace Program

/-
  From a store without accounts of the program, what pools
  hold of a token, what vaults over it have taken as fees, and
  what successful exits have paid out add up to what has been
  paid in by successful joins.
-/
theorem held_add_fees_add_exited_of_run
    {s : Store}
    (hForeign :
      ∀ key account, s.find? key = some account →
        account.owner ≠ Address.program)
    (calls : List Call)
    (mint : Address) :
    (run s calls).sum (State.held mint) +
        (run s calls).sum (State.fees mint) +
        exited mint s calls =
      joined mint s calls := by
  have hWired := Store.isWired_of_foreign hForeign
  have hTotal :=
    (changes_of_run hWired.plain calls).total hWired mint
  have hStart : s.sum (State.total mint) = 0 :=
    Store.sum_eq_zero _ (Store.state?_of_foreign hForeign)
  have hSplit :
      (run s calls).sum (State.total mint) =
        (run s calls).sum (State.held mint) +
          (run s calls).sum (State.fees mint) :=
    Store.sum_add (State.held mint) (State.fees mint) _
  omega

/- The small run leaves cash, managed balance and fees. -/
theorem held_add_fees_add_exited_smallCalls :
    (∀ key account,
        smallStore.find? key = some account →
          account.owner ≠ Address.program) ∧
      joined (smallKey 1) smallStore smallCalls = 1000 ∧
      exited (smallKey 1) smallStore smallCalls = 600 ∧
      (run smallStore smallCalls).sum
          (State.fees (smallKey 1)) = 5 ∧
      (run smallStore smallCalls).sum
            (State.held (smallKey 1)) +
          (run smallStore smallCalls).sum
            (State.fees (smallKey 1)) +
          exited (smallKey 1) smallStore smallCalls =
        joined (smallKey 1) smallStore smallCalls :=
  ⟨owner_of_smallStore, by decide +kernel,
    by decide +kernel, by decide +kernel,
    held_add_fees_add_exited_of_run owner_of_smallStore
      smallCalls (smallKey 1)⟩

end Program

end YieldManager

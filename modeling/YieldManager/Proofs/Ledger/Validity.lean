import YieldManager.Key
import YieldManager.Proofs.Ledger.Postings

/-
  Valid ledgers.  The check of a ledger accepts exactly the
  ledgers that have a pool, an authority and a relayer, are
  within their capacity and list no mint twice.  No posting
  makes a valid ledger invalid; a new token, if it is
  accepted, is one more entry, and all other entries are read
  and written as before.

  Main declarations:
    * `Ledger.Posted.isValid`
    * `Ledger.isValid_after`
    * `Ledger.Enlarged`
    * `Ledger.enlarged_of_addToken`
    * `Ledger.validity_exact`
-/

------------------------------------------------------------
-- Postings to Valid Ledgers
------------------------------------------------------------

namespace YieldManager

namespace Ledger

variable {κ : Type} [DecidableEq κ] [Zero κ]
variable {l l' : Ledger κ} {mint : κ}

/- Postings keep a ledger valid. -/
theorem Posted.isValid
    {p : Posting κ}
    (hPosted : Posted p l l')
    (hValid : l.isValid = true) :
    l'.isValid = true := by
  rcases isValid_eq_true_iff.mp hValid with
    ⟨hPool, hAuthority, hRelayer, hRoom, hNodup⟩
  have hOrderly : l'.IsOrderly :=
    hPosted.isOrderly { nodup := hNodup, room := hRoom }
  rw [isValid_eq_true_iff, hPosted.poolId,
    hPosted.authority, hPosted.relayer]
  exact
    ⟨hPool, hAuthority, hRelayer, hOrderly.room,
      hOrderly.nodup⟩

/- A run of postings keeps a ledger valid. -/
theorem isValid_after
    (hValid : l.isValid = true)
    (postings : List (Posting κ)) :
    (Action.after Posting.action l postings).isValid =
      true := by
  apply Action.after_of_step Posting.action
    (P := fun l => l.isValid = true)
  · intro p _ l hValid
    exact (posted_of_perform p l).isValid hValid
  · exact hValid

------------------------------------------------------------
-- New Tokens
------------------------------------------------------------

/-
  A ledger has got one more token: a last entry without
  balances and without a manager.  Nothing else about it has
  changed, it is valid, and the entries of other tokens are
  read and rewritten as before.
-/
structure Enlarged
    (mint : κ)
    (l l' : Ledger κ) : Prop where
  valid : l'.isValid = true
  added :
    l' =
      { l with
        entries := l.entries ++
          [{ mint := mint, cash := 0, managed := 0,
             manager := 0 }] }
  read :
    ∀ token, token ≠ mint → l'.entry token = l.entry token
  rewritten :
    ∀ e : Entry κ,
      e.mint ≠ mint →
        addToken mint (l.setEntry e) = .ok () (l'.setEntry e)

/- A token is accepted if it is new and there is room. -/
theorem addToken_succeeds_iff :
    (∃ l', addToken mint l = .ok () l') ↔
      mint ∉ l.mints ∧ l.entries.length < capacity := by
  simp [addToken_eq_ok_iff]

/- A new token may as well come after another rewrite. -/
theorem addToken_setEntry
    {e : Entry κ}
    (hRun : addToken mint l = .ok () l')
    (hOther : e.mint ≠ mint) :
    addToken mint (l.setEntry e) =
      .ok () (l'.setEntry e) := by
  have hSame := SameBooks.setEntry l e
  rcases addToken_eq_ok_iff.mp hRun with ⟨hNew, hRoom, rfl⟩
  rw [addToken_eq_ok_iff, hSame.mints, hSame.length_entries]
  refine ⟨hNew, hRoom, ?_⟩
  simp only [setEntry]
  rw [Table.replace_append_singleton l.entries hOther.symm]

/- A valid ledger that accepts a token is enlarged by it. -/
theorem enlarged_of_addToken
    (hValid : l.isValid = true)
    (hRun : addToken mint l = .ok () l') :
    Enlarged mint l l' := by
  have hPosted : Posted (.addToken mint) l l' :=
    posted_of_addToken hRun
  rcases addToken_eq_ok_iff.mp hRun with ⟨-, -, hAdded⟩
  exact
    { valid := hPosted.isValid hValid
      added := hAdded.symm
      read := fun token hOther => by
        rw [entry_of_addToken hRun, if_neg hOther]
      rewritten := fun e hOther =>
        addToken_setEntry hRun hOther }

/-
  The check of a ledger accepts exactly the ledgers of a pool
  with an authority and a relayer that are within the capacity
  and list no mint twice; a raw key names no pool exactly when
  all its bytes are zero.  A valid ledger accepts a token
  exactly when it is new and there is room, and then it is
  enlarged by it.
-/
theorem validity_exact :
    (∀ l : Ledger κ,
      l.isValid = true ↔
        l.poolId ≠ 0 ∧ l.authority ≠ 0 ∧ l.relayer ≠ 0 ∧
          l.entries.length ≤ capacity ∧ l.mints.Nodup) ∧
      (∀ k : Key, k = 0 ↔ ∀ b ∈ k.toBytes, b = 0) ∧
      ∀ (l : Ledger κ) mint,
        l.isValid = true →
          ((∃ l', addToken mint l = .ok () l') ↔
            mint ∉ l.mints ∧ l.entries.length < capacity) ∧
            ∀ l', addToken mint l = .ok () l' →
              Enlarged mint l l' := by
  refine
    ⟨fun _ => isValid_eq_true_iff, fun _ => Key.eq_zero_iff,
      ?_⟩
  intro l mint hValid
  exact
    ⟨addToken_succeeds_iff,
      fun _ hRun => enlarged_of_addToken hValid hRun⟩

/- A ledger with room for one more token. -/
def nearlyFull : Ledger Nat where
  poolId := 1
  authority := 7
  relayer := 6
  entries :=
    [20, 21, 22, 23, 24, 25, 26].map fun mint =>
      { mint := mint, cash := 10, managed := 5, manager := 8 }
  bump := 0

/- The last token leaves the first one as it is. -/
theorem validity_exact_nearlyFull :
    nearlyFull.isValid = true ∧
      ∃ l',
        addToken 27 nearlyFull = .ok () l' ∧
          l'.isValid = true ∧
          l'.entry 20 =
            .ok { mint := 20, cash := 10, managed := 5
                  manager := 8 } := by
  have hValid : nearlyFull.isValid = true := by decide
  rcases validity_exact.2.2 nearlyFull 27 hValid with
    ⟨hAccepts, hEnlarges⟩
  rcases hAccepts.mpr ⟨by decide, by decide⟩ with ⟨l', hRun⟩
  have hEnlarged := hEnlarges l' hRun
  exact
    ⟨hValid, l', hRun, hEnlarged.valid,
      hEnlarged.read 20 (by decide)⟩

end Ledger

end YieldManager

import YieldManager.Proofs.History
import YieldManager.Proofs.Ledger.Requests

/-
  Who may write what into a ledger.  Anybody may post to it,
  and any posting may be refused, some of them half-way; but
  balances move at the hands of the token's manager and of the
  relayer only, a manager once registered stays, and tokens
  are only ever appended.

  Main declarations:
    * `Posting`
    * `Posting.IsByManager`
    * `Posting.IsByRelayer`
    * `Ledger.Permitted`
    * `Ledger.Posted`
    * `Ledger.posted_of_perform`
    * `Ledger.Extends`
    * `Ledger.fromManager_of_toManager`
    * `Ledger.toManager_of_fromManager`
    * `Ledger.postings_permitted`
-/

------------------------------------------------------------
-- Postings
------------------------------------------------------------

namespace YieldManager

/- What can be posted to a ledger, by whomever. -/
inductive Posting (κ : Type) where
  | addToken (mint : κ)
  | join (sender poolId : κ) (request : JoinRequest κ)
  | exit (sender poolId : κ) (request : ExitRequest κ)
  | register (poolId mint manager : κ)
  | toManager (manager poolId mint : κ) (amount : UInt64)
  | fromManager (manager poolId mint : κ) (amount : UInt64)
  | reportManaged
      (manager poolId mint : κ) (managed : UInt64)

namespace Posting

variable {κ : Type} [Zero κ]

/- A posting as an action of the ledger. -/
def action [DecidableEq κ] :
    Posting κ → Action (Ledger κ) Unit
  | .addToken mint => Ledger.addToken mint
  | .join sender poolId request =>
      Ledger.join sender poolId request
  | .exit sender poolId request =>
      Ledger.exit sender poolId request
  | .register poolId mint manager =>
      Ledger.register poolId mint manager
  | .toManager manager poolId mint amount =>
      Ledger.toManager manager poolId mint amount
  | .fromManager manager poolId mint amount =>
      Ledger.fromManager manager poolId mint amount
  | .reportManaged manager poolId mint managed =>
      Ledger.reportManaged manager poolId mint managed

/-
  The key given is that of the manager registered for the
  entry, and token and pool are the entry's.
-/
def ManagerIs
    (manager poolId mint : κ)
    (l : Ledger κ)
    (e : Entry κ) : Prop :=
  manager = e.manager ∧ e.manager ≠ 0 ∧
    poolId = l.poolId ∧ mint = e.mint

/- The posting is one of the manager of an entry. -/
def IsByManager
    (p : Posting κ)
    (l : Ledger κ)
    (e : Entry κ) : Prop :=
  match p with
  | .toManager manager poolId mint _ =>
      ManagerIs manager poolId mint l e
  | .fromManager manager poolId mint _ =>
      ManagerIs manager poolId mint l e
  | .reportManaged manager poolId mint _ =>
      ManagerIs manager poolId mint l e
  | _ => False

/- The posting is a join or exit of the ledger's relayer. -/
def IsByRelayer
    (p : Posting κ)
    (l : Ledger κ) : Prop :=
  match p with
  | .join sender poolId _ =>
      sender = l.relayer ∧ l.poolId = poolId
  | .exit sender poolId _ =>
      sender = l.relayer ∧ l.poolId = poolId
  | _ => False

end Posting

namespace Ledger

variable {κ : Type} [DecidableEq κ] [Zero κ]

------------------------------------------------------------
-- What a Posting Changes
------------------------------------------------------------

/- What a posting to a ledger may make of an entry. -/
structure Permitted
    (p : Posting κ)
    (l : Ledger κ)
    (e e' : Entry κ) : Prop where
  mint : e'.mint = e.mint
  manager : e.manager ≠ 0 → e'.manager = e.manager
  managed : e'.managed ≠ e.managed → p.IsByManager l e
  cash :
    e'.cash ≠ e.cash → p.IsByManager l e ∨ p.IsByRelayer l

/-
  What a posting may make of a ledger: the entries of all its
  tokens are kept or changed as permitted, and a token may
  join them.
-/
structure Posted
    (p : Posting κ)
    (l l' : Ledger κ) : Prop where
  poolId : l'.poolId = l.poolId
  authority : l'.authority = l.authority
  relayer : l'.relayer = l.relayer
  bump : l'.bump = l.bump
  mints :
    l'.mints = l.mints ∨
      ∃ mint, mint ∉ l.mints ∧
        l.entries.length < capacity ∧
        l'.mints = l.mints ++ [mint]
  entries :
    ∀ mint e, l.entry mint = .ok e →
      ∃ e', l'.entry mint = .ok e' ∧ Permitted p l e e'

variable {p : Posting κ} {l l' l'' : Ledger κ}

omit [DecidableEq κ] in
/- Keeping an entry is always permitted. -/
theorem Permitted.refl (e : Entry κ) : Permitted p l e e where
  mint := rfl
  manager _ := rfl
  managed hChange := absurd rfl hChange
  cash hChange := absurd rfl hChange

/- With the same books, only entries are to be permitted. -/
theorem Posted.of_sameBooks
    (hBooks : l.SameBooks l')
    (hEntries :
      ∀ mint e, l.entry mint = .ok e →
        ∃ e', l'.entry mint = .ok e' ∧ Permitted p l e e') :
    Posted p l l' where
  poolId := hBooks.poolId
  authority := hBooks.authority
  relayer := hBooks.relayer
  bump := hBooks.bump
  mints := .inl hBooks.mints
  entries := hEntries

/- Keeping the ledger is permitted as well. -/
theorem Posted.refl
    (p : Posting κ)
    (l : Ledger κ) :
    Posted p l l :=
  .of_sameBooks (.refl l) fun _ e hEntry =>
    ⟨e, hEntry, .refl e⟩

/- Rewriting one entry as permitted leaves all others. -/
theorem posted_setEntry
    {mint : κ}
    {e new : Entry κ}
    (hEntry : l.entry mint = .ok e)
    (hPermitted : Permitted p l e new) :
    Posted p l (l.setEntry new) := by
  have hMint : new.mint = mint :=
    hPermitted.mint.trans (mint_of_entry hEntry)
  apply Posted.of_sameBooks (SameBooks.setEntry l new)
  intro token d hFound
  by_cases hToken : token = mint
  · subst hToken
    have hSame : e = d := by
      rw [hEntry] at hFound
      exact Except.ok.inj hFound
    subst hSame
    exact
      ⟨new, entry_setEntry_self new hEntry hMint, hPermitted⟩
  · refine ⟨d, ?_, .refl d⟩
    rw [entry_setEntry_of_ne l (hMint ▸ hToken)]
    exact hFound

/- The relayer may change the cash of all entries. -/
theorem posted_of_uncashed
    (hSame : l'.uncashed = l.uncashed)
    (hRelayer : p.IsByRelayer l) :
    Posted p l l' := by
  apply Posted.of_sameBooks (SameBooks.of_uncashed hSame)
  intro mint e hEntry
  rcases entry_of_uncashed hSame hEntry with ⟨cash, hFound⟩
  exact
    ⟨_, hFound,
      { mint := rfl
        manager := fun _ => rfl
        managed := fun hChange => absurd rfl hChange
        cash := fun _ => .inr hRelayer }⟩

/- A new token leaves the entries before it alone. -/
theorem posted_of_addToken
    {mint : κ}
    {u : Unit}
    (hRun : addToken mint l = .ok u l') :
    Posted p l l' := by
  have hFound := entry_of_addToken hRun
  rcases addToken_eq_ok_iff.mp hRun with ⟨hNew, hRoom, rfl⟩
  refine
    { poolId := rfl
      authority := rfl
      relayer := rfl
      bump := rfl
      mints := .inr ⟨mint, hNew, hRoom, by simp [mints]⟩
      entries := ?_ }
  intro token e hEntry
  have hOld : token ≠ mint := by
    intro hToken
    exact hNew (hToken ▸ mem_mints_of_entry hEntry)
  refine ⟨e, ?_, .refl e⟩
  rw [hFound token, if_neg hOld]
  exact hEntry

/- Registering a manager settles who it is. -/
private theorem posted_of_register
    {poolId mint manager : κ}
    {u : Unit}
    (hRun : register poolId mint manager l = .ok u l') :
    Posted p l l' := by
  rcases register_eq_ok_iff.mp hRun with
    ⟨-, e, hEntry, hFree, rfl⟩
  apply posted_setEntry hEntry
  exact
    { mint := rfl
      manager := fun hSome =>
        (hFree.resolve_left hSome).symm
      managed := fun hChange => absurd rfl hChange
      cash := fun hChange => absurd rfl hChange }

/- An entry opened to its manager may get new balances. -/
private theorem posted_of_managed
    {manager poolId mint : κ}
    {e : Entry κ}
    (cash managed : UInt64)
    (hManaged : l.managedEntry manager poolId mint = .ok e)
    (hPosting :
      Posting.ManagerIs manager poolId mint l e →
        p.IsByManager l e) :
    Posted p l
      (l.setEntry
        { e with cash := cash, managed := managed }) := by
  rcases managedEntry_eq_ok_iff.mp hManaged with
    ⟨hPool, hEntry, hZero, hOwn⟩
  have hByManager : p.IsByManager l e :=
    hPosting
      ⟨hOwn.symm, hOwn ▸ hZero, hPool.symm,
        (mint_of_entry hEntry).symm⟩
  apply posted_setEntry hEntry
  exact
    { mint := rfl
      manager := fun _ => rfl
      managed := fun _ => hByManager
      cash := fun _ => .inl hByManager }

------------------------------------------------------------
-- Refused Postings
------------------------------------------------------------

/-
  A posting changes nothing if it is refused, except that the
  relayer's joins and exits may stop half-way instead.
-/
theorem failsAt_action
    (p : Posting κ)
    (l : Ledger κ)
    (hOthers : ¬ p.IsByRelayer l) :
    Action.FailsAt l p.action l := by
  cases p with
  | addToken mint => exact isAtomic_addToken mint l
  | join sender poolId request =>
      exact failsAt_join request hOthers
  | exit sender poolId request =>
      exact failsAt_exit request hOthers
  | register poolId mint manager =>
      exact isAtomic_register poolId mint manager l
  | toManager manager poolId mint amount =>
      exact isAtomic_toManager manager poolId mint amount l
  | fromManager manager poolId mint amount =>
      exact isAtomic_fromManager manager poolId mint amount l
  | reportManaged manager poolId mint managed =>
      exact
        isAtomic_reportManaged manager poolId mint managed l

/- A posting that succeeds changes what is permitted. -/
private theorem posted_of_ok
    {u : Unit}
    (hOthers : ¬ p.IsByRelayer l)
    (hRun : p.action l = .ok u l') :
    Posted p l l' := by
  cases p with
  | addToken mint => exact posted_of_addToken hRun
  | join sender poolId request =>
      rcases join_eq_ok_iff.mp hRun with
        ⟨hSender, hPool, -⟩
      exact absurd ⟨hSender, hPool⟩ hOthers
  | exit sender poolId request =>
      rcases exit_eq_ok_iff.mp hRun with
        ⟨hSender, hPool, -⟩
      exact absurd ⟨hSender, hPool⟩ hOthers
  | register poolId mint manager =>
      exact posted_of_register hRun
  | toManager manager poolId mint amount =>
      rcases toManager_eq_ok_iff.mp hRun with
        ⟨e, cash, managed, hManaged, -, -, rfl⟩
      exact posted_of_managed cash managed hManaged id
  | fromManager manager poolId mint amount =>
      rcases fromManager_eq_ok_iff.mp hRun with
        ⟨e, managed, cash, hManaged, -, -, rfl⟩
      exact posted_of_managed cash managed hManaged id
  | reportManaged manager poolId mint managed =>
      rcases reportManaged_eq_ok_iff.mp hRun with
        ⟨e, hManaged, rfl⟩
      exact posted_of_managed e.cash managed hManaged id

/- The relayer's requests change cash, however far they get. -/
private theorem uncashed_of_perform
    (hRelayer : p.IsByRelayer l) :
    (p.action.perform l).2.uncashed = l.uncashed := by
  cases p with
  | join sender poolId request =>
      exact keeps_uncashed_join request l
  | exit sender poolId request =>
      exact keeps_uncashed_exit request l
  | _ => exact hRelayer.elim

/- However a posting ends, it changes what is permitted. -/
theorem posted_of_perform
    (p : Posting κ)
    (l : Ledger κ) :
    Posted p l (p.action.perform l).2 := by
  by_cases hRelayer : p.IsByRelayer l
  · exact
      posted_of_uncashed (uncashed_of_perform hRelayer)
        hRelayer
  · unfold Action.perform
    cases hRun : p.action l with
    | ok u l' => exact posted_of_ok hRelayer hRun
    | error e l' =>
        rw [failsAt_action p l hRelayer e l' hRun]
        exact Posted.refl p l

------------------------------------------------------------
-- Runs of Postings
------------------------------------------------------------

/- A ledger that lists no mint twice and has room for all. -/
structure IsOrderly (l : Ledger κ) : Prop where
  nodup : l.mints.Nodup
  room : l.entries.length ≤ capacity

/- Postings keep a ledger orderly. -/
theorem Posted.isOrderly
    (hPosted : Posted p l l')
    (hOrderly : l.IsOrderly) :
    l'.IsOrderly := by
  have hLength : ∀ l : Ledger κ,
      l.mints.length = l.entries.length :=
    fun _ => List.length_map _
  rcases hPosted.mints with
    hSame | ⟨mint, hNew, hRoom, hMore⟩
  · constructor
    · rw [hSame]
      exact hOrderly.nodup
    · rw [← hLength, hSame, hLength]
      exact hOrderly.room
  · constructor
    · rw [hMore, List.nodup_append]
      refine ⟨hOrderly.nodup, List.nodup_singleton mint, ?_⟩
      intro old hOld new hLast hEqual
      rw [List.mem_singleton.mp hLast] at hEqual
      exact hNew (hEqual ▸ hOld)
    · rw [← hLength, hMore, List.length_append, hLength]
      exact hRoom

/-
  The second ledger is a later state of the first: it belongs
  to the same pool and the same keys, its tokens follow those
  of the first, and no manager has been replaced.
-/
structure Extends (l l' : Ledger κ) : Prop where
  poolId : l'.poolId = l.poolId
  authority : l'.authority = l.authority
  relayer : l'.relayer = l.relayer
  bump : l'.bump = l.bump
  mints : l.mints <+: l'.mints
  managers :
    ∀ mint e, l.entry mint = .ok e →
      ∃ e', l'.entry mint = .ok e' ∧
        (e.manager ≠ 0 → e'.manager = e.manager)

namespace Extends

/- A ledger is a later state of itself. -/
theorem refl (l : Ledger κ) : Extends l l where
  poolId := rfl
  authority := rfl
  relayer := rfl
  bump := rfl
  mints := List.prefix_rfl
  managers _ e hEntry := ⟨e, hEntry, fun _ => rfl⟩

/- What is later than later is later. -/
theorem trans
    (hFirst : Extends l l')
    (hSecond : Extends l' l'') :
    Extends l l'' where
  poolId := hSecond.poolId.trans hFirst.poolId
  authority := hSecond.authority.trans hFirst.authority
  relayer := hSecond.relayer.trans hFirst.relayer
  bump := hSecond.bump.trans hFirst.bump
  mints := hFirst.mints.trans hSecond.mints
  managers mint e hEntry := by
    rcases hFirst.managers mint e hEntry with
      ⟨e', hEntry', hKept⟩
    rcases hSecond.managers mint e' hEntry' with
      ⟨e'', hEntry'', hKept'⟩
    refine ⟨e'', hEntry'', ?_⟩
    intro hSome
    have hMiddle := hKept hSome
    exact (hKept' (hMiddle ▸ hSome)).trans hMiddle

end Extends

/- A posting leads to a later state. -/
theorem Posted.extends
    (hPosted : Posted p l l') :
    Extends l l' where
  poolId := hPosted.poolId
  authority := hPosted.authority
  relayer := hPosted.relayer
  bump := hPosted.bump
  mints := by
    rcases hPosted.mints with hSame | ⟨mint, -, -, hMore⟩
    · exact hSame ▸ List.prefix_rfl
    · rw [hMore]
      exact List.prefix_append _ _
  managers mint e hEntry := by
    rcases hPosted.entries mint e hEntry with
      ⟨e', hEntry', hPermitted⟩
    exact ⟨e', hEntry', hPermitted.manager⟩

/- A run of postings keeps a ledger orderly. -/
theorem IsOrderly.after
    (hOrderly : l.IsOrderly)
    (postings : List (Posting κ)) :
    (Action.after Posting.action l postings).IsOrderly := by
  apply Action.after_of_step Posting.action
  · intro p _ l hOrderly
    exact (posted_of_perform p l).isOrderly hOrderly
  · exact hOrderly

/- A run of postings leads to a later state. -/
theorem extends_after
    (l : Ledger κ)
    (postings : List (Posting κ)) :
    Extends l (Action.after Posting.action l postings) := by
  apply Action.after_of_step Posting.action
    (P := fun l' => Extends l l')
  · intro p _ l' hLater
    exact hLater.trans (posted_of_perform p l').extends
  · exact .refl l

------------------------------------------------------------
-- Transfers
------------------------------------------------------------

/- All that the entry of a token shows stays the same. -/
def KeepsTotal
    (mint : κ)
    (l l' : Ledger κ) : Prop :=
  ∃ e e',
    l.entry mint = .ok e ∧ l'.entry mint = .ok e' ∧
      e'.cash.toNat + e'.managed.toNat =
        e.cash.toNat + e.managed.toNat

omit [Zero κ] in
/- Moving between the balances of an entry keeps the total. -/
private theorem keepsTotal_setEntry
    {mint : κ}
    {e : Entry κ}
    {cash managed : UInt64}
    (hEntry : l.entry mint = .ok e)
    (hSum :
      cash.toNat + managed.toNat =
        e.cash.toNat + e.managed.toNat) :
    KeepsTotal mint l
      (l.setEntry
        { e with cash := cash, managed := managed }) := by
  have hMint := mint_of_entry hEntry
  exact
    ⟨e, _, hEntry, entry_setEntry_self _ hEntry hMint, hSum⟩

omit [Zero κ] in
/- A rewritten entry can be written back. -/
private theorem setEntry_undo
    {mint : κ}
    {e new : Entry κ}
    (hEntry : l.entry mint = .ok e)
    (hMint : new.mint = e.mint) :
    (l.setEntry new).setEntry e = l := by
  rw [setEntry_setEntry l hMint]
  unfold setEntry
  rw [Table.replace_eq_self (find?_of_entry hEntry rfl)]

section

variable {manager poolId mint : κ} {amount : UInt64}

/- What was handed to the manager can be taken back. -/
theorem fromManager_of_toManager
    (hRun :
      toManager manager poolId mint amount l = .ok () l') :
    KeepsTotal mint l l' ∧
      fromManager manager poolId mint amount l' =
        .ok () l := by
  rcases toManager_eq_ok_iff.mp hRun with
    ⟨e, cash, managed, hManaged, hCash, hSum, rfl⟩
  rcases managedEntry_eq_ok_iff.mp hManaged with
    ⟨-, hEntry, -, -⟩
  constructor
  · exact keepsTotal_setEntry hEntry (by omega)
  · exact
      fromManager_eq_ok_iff.mpr
        ⟨_, e.managed, e.cash,
          managedEntry_setEntry _ hManaged rfl rfl, hSum.symm,
          hCash.symm, setEntry_undo hEntry rfl⟩

/- What was taken back can be handed over again. -/
theorem toManager_of_fromManager
    (hRun :
      fromManager manager poolId mint amount l = .ok () l') :
    KeepsTotal mint l l' ∧
      toManager manager poolId mint amount l' = .ok () l := by
  rcases fromManager_eq_ok_iff.mp hRun with
    ⟨e, managed, cash, hManaged, hRest, hCash, rfl⟩
  rcases managedEntry_eq_ok_iff.mp hManaged with
    ⟨-, hEntry, -, -⟩
  constructor
  · exact keepsTotal_setEntry hEntry (by omega)
  · exact
      toManager_eq_ok_iff.mpr
        ⟨_, e.cash, e.managed,
          managedEntry_setEntry _ hManaged rfl rfl,
          hCash.symm, hRest.symm, setEntry_undo hEntry rfl⟩

end

/-
  From a ledger without tokens, after any postings, refused or
  not: no mint is listed twice, all have found room, and so a
  look-up reaches every entry.  What comes later keeps the
  pool, its keys, the order of the tokens and every manager
  that is registered; and each posting changes balances only
  as permitted, and the rest of an entry only to register a
  first manager.  Handing cash to the manager and taking it
  back keep the total, and undo each other.
-/
theorem postings_permitted
    {l₀ l : Ledger κ}
    {postings : List (Posting κ)}
    (hEmpty : l₀.entries = [])
    (hRun : Action.after Posting.action l₀ postings = l) :
    l.mints.Nodup ∧
      l.entries.length ≤ capacity ∧
      (∀ e ∈ l.entries, l.entry e.mint = .ok e) ∧
      Extends l₀ l ∧
      (∀ later,
        Extends l (Action.after Posting.action l later)) ∧
      (∀ p : Posting κ, Posted p l (p.action.perform l).2) ∧
      (∀ manager poolId mint amount l',
        toManager manager poolId mint amount l = .ok () l' →
          KeepsTotal mint l l' ∧
            fromManager manager poolId mint amount l' =
              .ok () l) ∧
      ∀ manager poolId mint amount l',
        fromManager manager poolId mint amount l =
            .ok () l' →
          KeepsTotal mint l l' ∧
            toManager manager poolId mint amount l' =
              .ok () l := by
  subst hRun
  have hStart : l₀.IsOrderly := by
    constructor
    · unfold mints
      rw [hEmpty]
      exact List.nodup_nil
    · rw [hEmpty]
      exact Nat.zero_le _
  have hOrderly := hStart.after postings
  refine
    ⟨hOrderly.nodup, hOrderly.room, ?_,
      extends_after l₀ postings, ?_, ?_, ?_, ?_⟩
  · intro e hEntry
    rw [entry_eq_ok_iff,
      Table.find?_eq_some_iff hOrderly.nodup]
    exact ⟨hEntry, rfl⟩
  · intro later
    exact extends_after _ later
  · intro p
    exact posted_of_perform p _
  · intro manager poolId mint amount l' hHanded
    exact fromManager_of_toManager hHanded
  · intro manager poolId mint amount l' hTaken
    exact toManager_of_fromManager hTaken

/- A ledger of pool 1, without tokens. -/
def bareLedger : Ledger Nat where
  poolId := 1
  authority := 7
  relayer := 9
  entries := []
  bump := 0

/-
  Two tokens, of which the first one gets a manager.  The
  relayer's second join stops half-way, at a token that is
  not listed, and the other manager is refused.
-/
def mixedPostings : List (Posting Nat) :=
  [.addToken 2, .addToken 3, .addToken 2, .register 1 2 8,
   .join 9 1 { assets := [2, 3], maxAmounts := [50, 20] },
   .toManager 8 1 2 30, .register 1 2 6,
   .join 9 1 { assets := [3, 4], maxAmounts := [5, 1] },
   .reportManaged 6 1 2 99]

/- The ledger after these postings. -/
def mixedLedger : Ledger Nat :=
  { bareLedger with
    entries :=
      [{ mint := 2, cash := 20, managed := 30, manager := 8 },
       { mint := 3, cash := 25, managed := 0, manager := 0 }] }

/- Its manager takes 10 back, and can hand them over again. -/
theorem postings_permitted_mixed :
    bareLedger.entries = [] ∧
      Action.after Posting.action bareLedger mixedPostings =
        mixedLedger ∧
      ∃ l',
        fromManager 8 1 2 10 mixedLedger = .ok () l' ∧
          toManager 8 1 2 10 l' = .ok () mixedLedger := by
  have hRun :
      Action.after Posting.action bareLedger mixedPostings =
        mixedLedger := by
    decide +kernel
  rcases postings_permitted rfl hRun with
    ⟨-, -, -, -, -, -, -, hTaken⟩
  have hTake :
      fromManager 8 1 2 10 mixedLedger =
        .ok ()
          (mixedLedger.setEntry
            { mint := 2, cash := 30, managed := 20,
              manager := 8 }) :=
    rfl
  exact
    ⟨rfl, hRun, _, hTake, (hTaken 8 1 2 10 _ hTake).2⟩

end Ledger

end YieldManager

import YieldManager.Ledger.Basic
import YieldManager.Proofs.Action
import YieldManager.Proofs.FixedPoint
import YieldManager.Proofs.Table

/-
  The entries of a ledger: what a look-up answers, what
  rewriting an entry changes, and what each operation on one
  entry does.

  Main declarations:
    * `Ledger.held`
    * `Ledger.isValid_eq_true_iff`
    * `Ledger.SameBooks`
    * `Ledger.held_of_entry`
    * `Ledger.entry_setEntry_self`
    * `Ledger.entry_setEntry_of_ne`
    * `Ledger.held_setEntry`
    * `Ledger.uncashed`
    * `Ledger.entry_of_uncashed`
    * `Ledger.managedEntry_eq_ok_iff`
    * `Ledger.credit_eq_ok_iff`
    * `Ledger.debit_eq_ok_iff`
    * `Ledger.toManager_eq_ok_iff`
    * `Ledger.fromManager_eq_ok_iff`
    * `Ledger.reportManaged_eq_ok_iff`
    * `Ledger.register_eq_ok_iff`
    * `Ledger.addToken_eq_ok_iff`
    * `Ledger.isAtomic_register`
    * `Ledger.isAtomic_toManager`
    * `Ledger.isAtomic_fromManager`
    * `Ledger.isAtomic_reportManaged`
    * `Ledger.isAtomic_addToken`
-/

------------------------------------------------------------
-- Looking Entries Up
------------------------------------------------------------

namespace YieldManager

namespace Ledger

variable {κ : Type} [DecidableEq κ]

/- All that a ledger holds of a token, entry by entry. -/
def held (l : Ledger κ) (mint : κ) : Nat :=
  (l.entries.map fun e =>
    if e.mint = mint then
      e.cash.toNat + e.managed.toNat
    else 0).sum

/- A look-up answers the first entry of the token. -/
theorem entry_eq_ok_iff
    {l : Ledger κ}
    {mint : κ}
    {e : Entry κ} :
    l.entry mint = .ok e ↔
      Table.find? Entry.mint mint l.entries = some e := by
  unfold entry
  cases Table.find? Entry.mint mint l.entries <;> simp

/- The entry of a token is about that token. -/
theorem mint_of_entry
    {l : Ledger κ}
    {mint : κ}
    {e : Entry κ}
    (hEntry : l.entry mint = .ok e) :
    e.mint = mint :=
  Table.key_of_find? (entry_eq_ok_iff.mp hEntry)

/- An entry that is found is in the ledger. -/
theorem mem_of_entry
    {l : Ledger κ}
    {mint : κ}
    {e : Entry κ}
    (hEntry : l.entry mint = .ok e) :
    e ∈ l.entries :=
  Table.mem_of_find? (entry_eq_ok_iff.mp hEntry)

/- A token with an entry is listed. -/
theorem mem_mints_of_entry
    {l : Ledger κ}
    {mint : κ}
    {e : Entry κ}
    (hEntry : l.entry mint = .ok e) :
    mint ∈ l.mints := by
  rw [← mint_of_entry hEntry]
  exact List.mem_map_of_mem (mem_of_entry hEntry)

/- The tokens of a ledger have an entry. -/
theorem exists_entry
    {l : Ledger κ}
    {mint : κ}
    (hMint : mint ∈ l.mints) :
    ∃ e, l.entry mint = .ok e := by
  rcases Table.exists_find? hMint with ⟨e, hFound⟩
  exact ⟨e, entry_eq_ok_iff.mpr hFound⟩

/-
  A ledger is valid when it belongs to a pool, has an
  authority and a relayer, is within its capacity and lists
  no mint twice.
-/
theorem isValid_eq_true_iff
    [Zero κ]
    {l : Ledger κ} :
    l.isValid = true ↔
      l.poolId ≠ 0 ∧ l.authority ≠ 0 ∧ l.relayer ≠ 0 ∧
        l.entries.length ≤ capacity ∧ l.mints.Nodup := by
  simp only [isValid, Bool.and_eq_true, decide_eq_true_eq,
    Table.distinct_eq_true_iff]
  constructor
  · intro hChecks
    rcases hChecks with
      ⟨⟨⟨⟨hNodup, hPool⟩, hAuthority⟩, hRelayer⟩, hRoom⟩
    exact ⟨hPool, hAuthority, hRelayer, hRoom, hNodup⟩
  · intro hChecks
    rcases hChecks with
      ⟨hPool, hAuthority, hRelayer, hRoom, hNodup⟩
    exact ⟨⟨⟨⟨hNodup, hPool⟩, hAuthority⟩, hRelayer⟩, hRoom⟩

/- A valid ledger lists no mint twice. -/
theorem nodup_of_isValid
    [Zero κ]
    {l : Ledger κ}
    (hValid : l.isValid = true) :
    l.mints.Nodup := by
  rcases isValid_eq_true_iff.mp hValid with
    ⟨-, -, -, -, hNodup⟩
  exact hNodup

/- A ledger holds nothing of a token that is not listed. -/
theorem held_eq_zero
    {l : Ledger κ}
    {mint : κ}
    (hNot : mint ∉ l.mints) :
    l.held mint = 0 := by
  unfold held
  apply List.sum_eq_zero
  intro n hMem
  rcases List.mem_map.mp hMem with ⟨e, hEntry, rfl⟩
  have hOther : e.mint ≠ mint := by
    intro hSame
    exact hNot (hSame ▸ List.mem_map_of_mem hEntry)
  rw [if_neg hOther]

/-
  What a ledger without duplicates holds of a token stands in
  the entry of the token.
-/
theorem held_of_entry
    {l : Ledger κ}
    {mint : κ}
    {e : Entry κ}
    (hNodup : l.mints.Nodup)
    (hEntry : l.entry mint = .ok e) :
    l.held mint = e.cash.toNat + e.managed.toNat := by
  have hFound := entry_eq_ok_iff.mp hEntry
  have hSum :=
    Table.sum_map_find?
      (fun e : Entry κ =>
        if e.mint = mint then
          e.cash.toNat + e.managed.toNat else 0)
      hNodup (List.nodup_singleton mint)
      (by
        intro d _ hNonzero
        rw [List.mem_singleton]
        by_contra hOther
        exact hNonzero (if_neg hOther))
  rw [List.map_singleton, List.sum_singleton, hFound,
    Option.elim_some, if_pos (mint_of_entry hEntry)] at hSum
  exact hSum.symm

/- A ledger belongs to its own pool only. -/
@[simp] theorem ensurePool_eq_ok_iff
    {l : Ledger κ}
    {poolId : κ}
    {u : Unit} :
    l.ensurePool poolId = .ok u ↔ l.poolId = poolId :=
  require_eq_ok_iff

/- The balances of a token are those of its entry. -/
theorem balances_eq_ok_iff
    {l : Ledger κ}
    {poolId mint : κ}
    {b : Balances} :
    l.balances poolId mint = .ok b ↔
      l.poolId = poolId ∧
        ∃ e, l.entry mint = .ok e ∧
          { cash := e.cash, managed := e.managed } = b := by
  simp [balances]

------------------------------------------------------------
-- Rewriting an Entry
------------------------------------------------------------

/- A rewritten entry is found as it was written. -/
theorem entry_setEntry_self
    {l : Ledger κ}
    {mint : κ}
    {e : Entry κ}
    (new : Entry κ)
    (hEntry : l.entry mint = .ok e)
    (hMint : new.mint = mint) :
    (l.setEntry new).entry mint = .ok new := by
  subst hMint
  rw [entry_eq_ok_iff] at hEntry ⊢
  exact Table.find?_replace_self hEntry

/- Other tokens do not notice a rewritten entry. -/
theorem entry_setEntry_of_ne
    {mint : κ}
    {new : Entry κ}
    (l : Ledger κ)
    (hMint : mint ≠ new.mint) :
    (l.setEntry new).entry mint = l.entry mint := by
  unfold entry setEntry
  rw [Table.find?_replace_of_ne l.entries hMint]

/- An entry is found by the mint of what will rewrite it. -/
theorem find?_of_entry
    {l : Ledger κ}
    {mint : κ}
    {e new : Entry κ}
    (hEntry : l.entry mint = .ok e)
    (hMint : new.mint = e.mint) :
    Table.find? Entry.mint new.mint l.entries = some e := by
  rw [hMint, mint_of_entry hEntry]
  exact entry_eq_ok_iff.mp hEntry

/- A rewritten entry stands where the old one stood. -/
theorem entries_setEntry
    {l : Ledger κ}
    {mint : κ}
    {e new : Entry κ}
    (hEntry : l.entry mint = .ok e)
    (hMint : new.mint = e.mint) :
    ∃ before after,
      l.entries = before ++ e :: after ∧
        (l.setEntry new).entries =
          before ++ new :: after := by
  rcases Table.replace_eq_append
      (find?_of_entry hEntry hMint) with
    ⟨before, after, hSplit, -, hReplace⟩
  exact ⟨before, after, hSplit, hReplace⟩

/- Only the last of two rewrites remains. -/
theorem setEntry_setEntry
    {old new : Entry κ}
    (l : Ledger κ)
    (hMint : old.mint = new.mint) :
    (l.setEntry old).setEntry new = l.setEntry new := by
  unfold setEntry
  simp only
  rw [Table.replace_replace l.entries hMint]

/- Rewriting an entry keeps the mints in their order. -/
theorem mints_setEntry
    (l : Ledger κ)
    (e : Entry κ) :
    (l.setEntry e).mints = l.mints :=
  Table.map_key_replace Entry.mint e l.entries

/-
  Two ledgers of one pool with the same mints: they differ in
  the contents of their entries at most.
-/
structure SameBooks (l l' : Ledger κ) : Prop where
  poolId : l'.poolId = l.poolId
  authority : l'.authority = l.authority
  relayer : l'.relayer = l.relayer
  bump : l'.bump = l.bump
  mints : l'.mints = l.mints

namespace SameBooks

omit [DecidableEq κ] in
/- A ledger has the same books as itself. -/
theorem refl (l : Ledger κ) : SameBooks l l :=
  ⟨rfl, rfl, rfl, rfl, rfl⟩

omit [DecidableEq κ] in
/- Having the same books is transitive. -/
theorem trans
    {l l' l'' : Ledger κ}
    (hFirst : SameBooks l l')
    (hSecond : SameBooks l' l'') :
    SameBooks l l'' :=
  ⟨hSecond.poolId.trans hFirst.poolId,
    hSecond.authority.trans hFirst.authority,
    hSecond.relayer.trans hFirst.relayer,
    hSecond.bump.trans hFirst.bump,
    hSecond.mints.trans hFirst.mints⟩

/- Rewriting an entry keeps the books. -/
theorem setEntry
    (l : Ledger κ)
    (e : Entry κ) :
    SameBooks l (l.setEntry e) :=
  ⟨rfl, rfl, rfl, rfl, mints_setEntry l e⟩

omit [DecidableEq κ] in
/- The same books have as many entries. -/
theorem length_entries
    {l l' : Ledger κ}
    (hSame : SameBooks l l') :
    l'.entries.length = l.entries.length := by
  have hLength := congrArg List.length hSame.mints
  simpa only [Ledger.mints, List.length_map] using hLength

/- Whether a ledger is valid depends on its books only. -/
theorem isValid
    [Zero κ]
    {l l' : Ledger κ}
    (hSame : SameBooks l l') :
    l'.isValid = l.isValid := by
  unfold Ledger.isValid
  rw [hSame.mints, hSame.poolId, hSame.authority,
    hSame.relayer, hSame.length_entries]

end SameBooks

/- A rewritten entry changes what is held by its balances. -/
theorem held_setEntry
    {l : Ledger κ}
    {mint : κ}
    {e : Entry κ}
    (new : Entry κ)
    (hEntry : l.entry mint = .ok e)
    (hMint : new.mint = e.mint)
    (token : κ) :
    (l.setEntry new).held token +
        (if mint = token then
          e.cash.toNat + e.managed.toNat else 0) =
      l.held token +
        (if mint = token then
          new.cash.toNat + new.managed.toNat else 0) := by
  have hSum :=
    Table.sum_map_replace
      (fun e : Entry κ =>
        if e.mint = token then
          e.cash.toNat + e.managed.toNat else 0)
      (find?_of_entry hEntry hMint)
  simp only [hMint, mint_of_entry hEntry] at hSum
  exact hSum

------------------------------------------------------------
-- Ledgers That Differ in Cash
------------------------------------------------------------

omit [DecidableEq κ] in
/- A ledger as it would be without any cash. -/
def uncashed (l : Ledger κ) : Ledger κ :=
  { l with
    entries := l.entries.map fun e => { e with cash := 0 } }

omit [DecidableEq κ] in
/- Cash does not count for the mints. -/
theorem mints_uncashed (l : Ledger κ) :
    l.uncashed.mints = l.mints := by
  unfold mints uncashed
  rw [List.map_map]
  rfl

/- Without cash, a look-up finds the entry without cash. -/
theorem entry_uncashed
    (l : Ledger κ)
    (mint : κ) :
    l.uncashed.entry mint =
      (l.entry mint).map fun e => { e with cash := 0 } := by
  have hFound :
      Table.find? Entry.mint mint l.uncashed.entries =
        (Table.find? Entry.mint mint l.entries).map
          fun e => { e with cash := 0 } :=
    List.find?_map
  unfold entry
  rw [hFound]
  cases Table.find? Entry.mint mint l.entries <;> rfl

/- New cash in an entry is all that changes. -/
theorem uncashed_setEntry
    {l : Ledger κ}
    {mint : κ}
    {e : Entry κ}
    (hEntry : l.entry mint = .ok e)
    (cash : UInt64) :
    (l.setEntry { e with cash := cash }).uncashed =
      l.uncashed := by
  have hSplit :
      ∃ before after,
        l.entries = before ++ e :: after ∧
          (l.setEntry { e with cash := cash }).entries =
            before ++ { e with cash := cash } :: after :=
    entries_setEntry hEntry rfl
  rcases hSplit with ⟨before, after, hOld, hNew⟩
  unfold uncashed
  rw [hOld, hNew]
  simp [setEntry]

section

variable {l l' : Ledger κ}

omit [DecidableEq κ] in
/- Ledgers that differ in cash only have the same books. -/
theorem SameBooks.of_uncashed
    (hSame : l'.uncashed = l.uncashed) :
    SameBooks l l' := by
  have hMints : l'.mints = l.mints := by
    rw [← mints_uncashed l', hSame, mints_uncashed]
  simp only [uncashed, Ledger.mk.injEq] at hSame
  rcases hSame with ⟨hPool, hAuthority, hRelayer, -, hBump⟩
  exact ⟨hPool, hAuthority, hRelayer, hBump, hMints⟩

/- Ledgers that differ in cash only have the same entries. -/
theorem entry_of_uncashed
    {mint : κ}
    {e : Entry κ}
    (hSame : l'.uncashed = l.uncashed)
    (hEntry : l.entry mint = .ok e) :
    ∃ cash, l'.entry mint = .ok { e with cash := cash } := by
  have hBoth :
      (l'.entry mint).map (fun e => { e with cash := 0 }) =
        .ok { e with cash := 0 } := by
    rw [← entry_uncashed, hSame, entry_uncashed, hEntry]
    rfl
  cases hFound : l'.entry mint with
  | error d =>
      rw [hFound] at hBoth
      cases hBoth
  | ok d =>
      rw [hFound] at hBoth
      have hRest := Except.ok.inj hBoth
      refine ⟨d.cash, congrArg Except.ok ?_⟩
      cases d
      cases e
      simpa using hRest

end

------------------------------------------------------------
-- Joins and Exits, Line by Line
------------------------------------------------------------

/- A credit adds to the cash of a token. -/
theorem credit_eq_ok_iff
    {mint : κ}
    {amount : UInt64}
    {l l' : Ledger κ}
    {u : Unit} :
    credit mint amount l = .ok u l' ↔
      ∃ e cash,
        l.entry mint = .ok e ∧
          cash.toNat = e.cash.toNat + amount.toNat ∧
          l.setEntry { e with cash := cash } = l' := by
  simp [credit, FixedPoint.add_eq_ok_iff]

/- A debit takes from the cash of a token. -/
theorem debit_eq_ok_iff
    {mint : κ}
    {amount : UInt64}
    {l l' : Ledger κ}
    {u : Unit} :
    debit mint amount l = .ok u l' ↔
      ∃ e cash,
        l.entry mint = .ok e ∧
          cash.toNat + amount.toNat = e.cash.toNat ∧
          l.setEntry { e with cash := cash } = l' := by
  simp [debit, FixedPoint.sub_eq_ok_iff]

------------------------------------------------------------
-- The Manager's Side
------------------------------------------------------------

variable [Zero κ]

/- An entry opens to the manager registered for it. -/
theorem managedEntry_eq_ok_iff
    {l : Ledger κ}
    {manager poolId mint : κ}
    {e : Entry κ} :
    l.managedEntry manager poolId mint = .ok e ↔
      l.poolId = poolId ∧ l.entry mint = .ok e ∧
        manager ≠ 0 ∧ e.manager = manager := by
  simp only [managedEntry, Except.bind_eq_ok_iff,
    ensurePool_eq_ok_iff, require_eq_ok_iff,
    Except.pure_eq_ok_iff]
  constructor
  · intro hSteps
    rcases hSteps with
      ⟨-, hPool, d, hEntry, -, ⟨hZero, rfl⟩, rfl⟩
    exact ⟨hPool, hEntry, hZero, rfl⟩
  · intro hSteps
    rcases hSteps with ⟨hPool, hEntry, hZero, rfl⟩
    exact ⟨(), hPool, e, hEntry, (), ⟨hZero, rfl⟩, rfl⟩

/- A rewritten entry stays open to its manager. -/
theorem managedEntry_setEntry
    {l : Ledger κ}
    {manager poolId mint : κ}
    {e : Entry κ}
    (new : Entry κ)
    (hEntry : l.managedEntry manager poolId mint = .ok e)
    (hMint : new.mint = e.mint)
    (hManager : new.manager = e.manager) :
    (l.setEntry new).managedEntry manager poolId mint =
      .ok new := by
  rcases managedEntry_eq_ok_iff.mp hEntry with
    ⟨hPool, hFound, hZero, hOwn⟩
  have hSelf :=
    entry_setEntry_self new hFound
      (hMint.trans (mint_of_entry hFound))
  exact
    managedEntry_eq_ok_iff.mpr
      ⟨hPool, hSelf, hZero, hManager.trans hOwn⟩

/- Cash goes to the manager to the last unit. -/
theorem toManager_eq_ok_iff
    {manager poolId mint : κ}
    {amount : UInt64}
    {l l' : Ledger κ}
    {u : Unit} :
    toManager manager poolId mint amount l = .ok u l' ↔
      ∃ e cash managed,
        l.managedEntry manager poolId mint = .ok e ∧
          cash.toNat + amount.toNat = e.cash.toNat ∧
          managed.toNat =
            e.managed.toNat + amount.toNat ∧
          l.setEntry
            { e with cash := cash, managed := managed } =
              l' := by
  simp [toManager, FixedPoint.add_eq_ok_iff,
    FixedPoint.sub_eq_ok_iff]

/- Cash comes back from the manager to the last unit. -/
theorem fromManager_eq_ok_iff
    {manager poolId mint : κ}
    {amount : UInt64}
    {l l' : Ledger κ}
    {u : Unit} :
    fromManager manager poolId mint amount l = .ok u l' ↔
      ∃ e managed cash,
        l.managedEntry manager poolId mint = .ok e ∧
          managed.toNat + amount.toNat =
            e.managed.toNat ∧
          cash.toNat = e.cash.toNat + amount.toNat ∧
          l.setEntry
            { e with cash := cash, managed := managed } =
              l' := by
  simp [fromManager, FixedPoint.add_eq_ok_iff,
    FixedPoint.sub_eq_ok_iff]

/- A report overwrites the managed balance. -/
theorem reportManaged_eq_ok_iff
    {manager poolId mint : κ}
    {managed : UInt64}
    {l l' : Ledger κ}
    {u : Unit} :
    reportManaged manager poolId mint managed l = .ok u l' ↔
      ∃ e,
        l.managedEntry manager poolId mint = .ok e ∧
          l.setEntry { e with managed := managed } = l' := by
  simp [reportManaged]

/- A token without another manager can be registered. -/
theorem register_eq_ok_iff
    {poolId mint manager : κ}
    {l l' : Ledger κ}
    {u : Unit} :
    register poolId mint manager l = .ok u l' ↔
      l.poolId = poolId ∧
        ∃ e,
          l.entry mint = .ok e ∧
            (e.manager = 0 ∨ e.manager = manager) ∧
            l.setEntry { e with manager := manager } =
              l' := by
  simp [register]

------------------------------------------------------------
-- New Tokens
------------------------------------------------------------

/- A new token is appended, if there is room for it. -/
theorem addToken_eq_ok_iff
    {mint : κ}
    {l l' : Ledger κ}
    {u : Unit} :
    addToken mint l = .ok u l' ↔
      mint ∉ l.mints ∧ l.entries.length < capacity ∧
        { l with
          entries := l.entries ++
            [{ mint := mint, cash := 0, managed := 0,
               manager := 0 }] } = l' := by
  simp [addToken]

/- A new token is found next to the tokens before it. -/
theorem entry_of_addToken
    {mint : κ}
    {l l' : Ledger κ}
    {u : Unit}
    (hRun : addToken mint l = .ok u l')
    (token : κ) :
    l'.entry token =
      if token = mint then
        .ok { mint := mint, cash := 0, managed := 0,
              manager := 0 }
      else
        l.entry token := by
  rcases addToken_eq_ok_iff.mp hRun with ⟨hNew, -, rfl⟩
  have hFound :
      Table.find? Entry.mint token
          (l.entries ++
            [{ mint := mint, cash := 0, managed := 0,
               manager := 0 }]) =
        if token = mint then
          some { mint := mint, cash := 0, managed := 0,
                 manager := 0 }
        else
          Table.find? Entry.mint token l.entries :=
    Table.find?_append_singleton hNew token
  unfold entry
  simp only
  rw [hFound]
  by_cases hToken : token = mint
  · rw [if_pos hToken, if_pos hToken]
  · rw [if_neg hToken, if_neg hToken]

/- A new token has no balance yet. -/
theorem held_of_addToken
    {mint : κ}
    {l l' : Ledger κ}
    {u : Unit}
    (hRun : addToken mint l = .ok u l')
    (token : κ) :
    l'.held token = l.held token := by
  rcases addToken_eq_ok_iff.mp hRun with ⟨-, -, rfl⟩
  simp [held]

------------------------------------------------------------
-- Refusals
------------------------------------------------------------

/- A manager that is refused is not registered. -/
theorem isAtomic_register
    (poolId mint manager : κ) :
    Action.IsAtomic (register poolId mint manager) := by
  intro l
  apply Action.FailsAt.get_bind
  apply Action.FailsAt.lift_bind
  intro _ _
  apply Action.FailsAt.get_bind
  apply Action.FailsAt.lift_bind
  intro e _
  apply Action.FailsAt.lift_bind
  intro _ _
  exact Action.FailsAt.of_ok rfl

/- Cash that is refused stays with the pool. -/
theorem isAtomic_toManager
    (manager poolId mint : κ)
    (amount : UInt64) :
    Action.IsAtomic
      (toManager manager poolId mint amount) := by
  intro l
  apply Action.FailsAt.get_bind
  apply Action.FailsAt.lift_bind
  intro e _
  apply Action.FailsAt.lift_bind
  intro cash _
  apply Action.FailsAt.lift_bind
  intro managed _
  exact Action.FailsAt.of_ok rfl

/- Cash that is not taken back stays with the manager. -/
theorem isAtomic_fromManager
    (manager poolId mint : κ)
    (amount : UInt64) :
    Action.IsAtomic
      (fromManager manager poolId mint amount) := by
  intro l
  apply Action.FailsAt.get_bind
  apply Action.FailsAt.lift_bind
  intro e _
  apply Action.FailsAt.lift_bind
  intro managed _
  apply Action.FailsAt.lift_bind
  intro cash _
  exact Action.FailsAt.of_ok rfl

/- A report that is refused is not written. -/
theorem isAtomic_reportManaged
    (manager poolId mint : κ)
    (managed : UInt64) :
    Action.IsAtomic
      (reportManaged manager poolId mint managed) := by
  intro l
  apply Action.FailsAt.get_bind
  apply Action.FailsAt.lift_bind
  intro e _
  exact Action.FailsAt.of_ok rfl

/- A token that is refused is not listed. -/
theorem isAtomic_addToken
    (mint : κ) :
    Action.IsAtomic
      (addToken mint : Action (Ledger κ) Unit) := by
  intro l
  apply Action.FailsAt.get_bind
  apply Action.FailsAt.lift_bind
  intro _ _
  apply Action.FailsAt.get_bind
  apply Action.FailsAt.lift_bind
  intro _ _
  exact Action.FailsAt.of_ok rfl

end Ledger

end YieldManager

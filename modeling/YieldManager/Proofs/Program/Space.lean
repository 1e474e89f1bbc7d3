import YieldManager.Proofs.Program.Loading
import YieldManager.Proofs.Wire.Length

/-
  Space for records.  In a store whose accounts have the space
  of their kinds and no more lines than they may, whatever is
  loaded can be written back as long as its table keeps to its
  capacity.  A step of an instruction finds space if it never
  fails for want of it.

  Main declarations:
    * `Account.IsSized`
    * `Store.IsSized`
    * `FindsSpace`
    * `FindsSpace.bind`
    * `Loader.Yields`
    * `Loader.yields_record`
    * `Opening.findsSpace_write`
    * `Loaded.findsSpace_write`
-/

------------------------------------------------------------
-- Accounts of Their Size
------------------------------------------------------------

namespace YieldManager

/-
  An account of the program has the space of its kind, and no
  more lines than it may.
-/
def Account.IsSized : Account → Prop
  | .stored space state =>
      space = state.kind.space ∧ state.IsWithin
  | .bytes owner _ => owner ≠ Address.program

/- All accounts of a store are of their size. -/
def Store.IsSized (s : Store) : Prop :=
  ∀ key account,
    s.find? key = some account → account.IsSized

namespace Store

variable {s : Store}

/- A store whose accounts are of their size is plain. -/
theorem IsSized.isPlain
    (hSized : s.IsSized) :
    s.IsPlain :=
  fun key owner data hFound =>
    hSized key (.bytes owner data) hFound

/- Accounts of other programs need no space. -/
theorem isSized_of_foreign
    (hForeign :
      ∀ key account, s.find? key = some account →
        account.owner ≠ Address.program) :
    s.IsSized := by
  intro key account hFound
  have hOwner := hForeign key account hFound
  cases account with
  | stored space state => exact absurd rfl hOwner
  | bytes owner data => exact hOwner

/- Putting an account of its size keeps all of their size. -/
theorem IsSized.insert
    {key : Address}
    {account : Account}
    (hSized : s.IsSized)
    (hAccount : account.IsSized) :
    (s.insert key account).IsSized := by
  intro k other hFound
  rw [find?_insert] at hFound
  split at hFound
  · cases hFound
    exact hAccount
  · exact hSized k other hFound

/- Putting several accounts of their size does so, too. -/
theorem IsSized.insertAll
    {writes : List (Address × Account)}
    (hSized : s.IsSized)
    (hWrites : ∀ w ∈ writes, w.2.IsSized) :
    (s.insertAll writes).IsSized := by
  induction writes generalizing s with
  | nil => exact hSized
  | cons w writes ih =>
      rcases List.forall_mem_cons.mp hWrites with
        ⟨hFirst, hRest⟩
      exact ih (hSized.insert hFirst) hRest

end Store

------------------------------------------------------------
-- Steps That Find Space
------------------------------------------------------------

/-
  A step that does not fail for want of space.  If it
  succeeds, its answer is as wanted; other failures remain.
-/
def FindsSpace
    {α : Type}
    (wanted : α → Prop) : Except Fault α → Prop
  | .ok x => wanted x
  | .error fault => fault.refusal ≠ .outOfSpace

namespace FindsSpace

variable {α β : Type}
variable {wanted : α → Prop} {wantedToo : β → Prop}

/- An answer that is as wanted takes no space. -/
theorem pure
    {x : α}
    (hWanted : wanted x) :
    FindsSpace wanted (Pure.pure x) :=
  hWanted

/- Two steps find space if the second does after the first. -/
theorem bind
    {c : Except Fault α}
    {next : α → Except Fault β}
    (hFirst : FindsSpace wanted c)
    (hNext : ∀ x, wanted x → FindsSpace wantedToo (next x)) :
    FindsSpace wantedToo (c >>= next) := by
  cases c with
  | ok x => exact hNext x hFirst
  | error fault => exact hFirst

/- A check finds space, and so does what comes after it. -/
theorem check_bind
    {c : Except Fault α}
    {next : α → Except Fault β}
    (hCheck : FindsSpace (fun _ => True) c)
    (hNext : ∀ x, FindsSpace wantedToo (next x)) :
    FindsSpace wantedToo (c >>= next) :=
  hCheck.bind fun x _ => hNext x

/- A rule is not about space. -/
theorem ofRule
    (c : Except Error α) :
    FindsSpace (fun x => c = .ok x) (Fault.ofRule c) := by
  cases c with
  | ok x => rfl
  | error e => exact Refusal.noConfusion

/- An action fails for a rule only. -/
theorem ofAction
    {σ : Type}
    (a : Action σ α)
    (s : σ) :
    FindsSpace (fun r => a s = .ok r.1 r.2)
      (Fault.ofAction a s) := by
  unfold Fault.ofAction
  cases a s with
  | ok x t => rfl
  | error e t => exact Refusal.noConfusion

/- A condition that does not hold is not about space. -/
theorem ofCondition
    {p : Prop} [Decidable p]
    {fault : Fault}
    (hFault : fault.refusal ≠ .outOfSpace) :
    FindsSpace (fun _ => True)
      (if p then .ok () else .error fault) := by
  split
  · trivial
  · exact hFault

end FindsSpace

------------------------------------------------------------
-- Conditions
------------------------------------------------------------

/- Whether a mint is ready is not about space. -/
theorem Mint.check_ne_outOfSpace
    {data : List UInt8}
    {r : Refusal}
    (hRefused : Mint.check data = .error r) :
    r ≠ .outOfSpace := by
  unfold Mint.check at hRefused
  split_ifs at hRefused <;> cases hRefused <;>
    exact Refusal.noConfusion

/- Whether a payer is writable is not about space. -/
theorem Meta.findsSpace_expectWritable
    {m : Meta}
    {name : String} :
    FindsSpace (fun _ => True) (m.expectWritable name) :=
  .ofCondition Refusal.noConfusion

namespace Loaded

variable {R : Type → Type} [Stored R]

/- Where a record lies is not about space. -/
theorem findsSpace_expectDerived
    {x : Loaded R}
    {seed : Seed}
    {args : List Address} :
    FindsSpace (fun _ => True) (x.expectDerived seed args) :=
  .ofCondition Refusal.noConfusion

omit [Stored R] in
/- Whether a record is writable is not about space. -/
theorem findsSpace_expectWritable
    {x : Loaded R} :
    FindsSpace (fun _ => True) x.expectWritable :=
  .ofCondition Refusal.noConfusion

omit [Stored R] in
/- A rule about a record is not about space. -/
theorem findsSpace_expect
    {x : Loaded R}
    {p : Prop} [Decidable p]
    {e : Error} :
    FindsSpace (fun _ => True) (x.expect p e) :=
  .ofCondition Refusal.noConfusion

end Loaded

/- Whether a place can be opened is not about space. -/
theorem Opening.findsSpace_begin
    {s : Store}
    {payer place : Meta}
    {name : String}
    {seed : Seed}
    {args : List Address} :
    FindsSpace (fun _ => True)
      (Opening.begin s payer place name seed args) := by
  unfold Opening.begin
  split
  · exact Refusal.noConfusion
  split
  · exact Refusal.noConfusion
  split
  · exact Refusal.noConfusion
  split
  · exact Refusal.noConfusion
  · trivial

------------------------------------------------------------
-- Loading
------------------------------------------------------------

namespace Loader

variable {α β : Type}
variable {s : Store}
variable {wanted : α → Prop} {wantedToo : β → Prop}

/-
  A loader that finds space, whatever list it is given; what
  it loads is as wanted.
-/
def Yields
    (s : Store)
    (wanted : α → Prop)
    (loader : Loader α) : Prop :=
  ∀ ms, FindsSpace (fun r => wanted r.1) (loader s ms)

namespace Yields

/- A value that is as wanted may be loaded. -/
theorem pure
    {x : α}
    (hWanted : wanted x) :
    Yields s wanted (Pure.pure x) :=
  fun _ => hWanted

/- Loading goes on with what was loaded first. -/
theorem bind
    {loader : Loader α}
    {next : α → Loader β}
    (hFirst : Yields s wanted loader)
    (hNext : ∀ x, wanted x → Yields s wantedToo (next x)) :
    Yields s wantedToo (loader >>= next) := by
  intro ms
  change
    FindsSpace (fun r => wantedToo r.1)
      ((loader s ms : Except Fault (α × List Meta)) >>=
        fun r => next r.1 s r.2)
  exact (hFirst ms).bind fun r hWanted => hNext r.1 hWanted r.2

/- What is refused is not refused for want of space. -/
theorem throw
    {fault : Fault}
    (hFault : fault.refusal ≠ .outOfSpace) :
    Yields s wanted (MonadExcept.throw fault) :=
  fun _ => hFault

/- Loading from a whole list finds space. -/
theorem load
    {loader : Loader α}
    (hYields : Yields s wanted loader)
    (ms : List Meta) :
    FindsSpace wanted (loader.load s ms) :=
  (hYields (Meta.merge ms)).bind fun _ hWanted => hWanted

end Yields

/- The end of a list is not about space. -/
theorem yields_next
    {missing : Fault}
    (hMissing : missing.refusal ≠ .outOfSpace) :
    Yields s (fun _ => True) (next missing) := by
  intro ms
  cases ms with
  | nil => exact hMissing
  | cons m rest => trivial

/- A place takes no space yet. -/
theorem yields_place :
    Yields s (fun _ => True) place :=
  yields_next Refusal.noConfusion

/- Whether an account signs is not about space. -/
theorem yields_signer
    {name : String} :
    Yields s (fun _ => True) (signer name) := by
  refine (yields_next Refusal.noConfusion).bind ?_
  intro m _
  split
  · exact .pure trivial
  · exact .throw Refusal.noConfusion

/- Whether it is the system program is not about space. -/
theorem yields_system
    {name : String} :
    Yields s (fun _ => True) (system name) := by
  refine (yields_next Refusal.noConfusion).bind ?_
  intro m _
  split
  · exact .pure trivial
  · exact .throw Refusal.noConfusion

/- An account that exists lies in the store. -/
theorem yields_existing
    {name : String}
    {m : Meta} :
    Yields s (fun account => s.find? m.key = some account)
      (existing name m) := by
  have hRead : Yields s (fun t => t = s) read := fun _ => rfl
  refine hRead.bind ?_
  intro t hStore
  subst hStore
  cases hFound : t.find? m.key with
  | some account => exact .pure rfl
  | none =>
      simp only
      split
      · exact .throw Refusal.noConfusion
      · exact .throw Refusal.noConfusion

/- A mint takes no space of the program. -/
theorem yields_mint
    {name : String} :
    Yields s (fun _ => True) (mint name) := by
  refine (yields_next Refusal.noConfusion).bind ?_
  intro m _
  refine yields_existing.bind ?_
  intro account _
  cases account with
  | stored space state => exact .throw Refusal.noConfusion
  | bytes owner data =>
      simp only
      split
      · cases hMint : Mint.check data with
        | ok u => exact .pure trivial
        | error r =>
            exact .throw (Mint.check_ne_outOfSpace hMint)
      · exact .throw Refusal.noConfusion

end Loader

/- A record is not refused for want of space. -/
theorem Account.record_ne_outOfSpace
    {R : Type → Type} [Stored R]
    {account : Account}
    {r : Refusal}
    (hRefused : account.record R = .error r) :
    r ≠ .outOfSpace := by
  cases account with
  | stored space state =>
      simp only [Account.record] at hRefused
      split at hRefused
      · cases hRefused
      · cases hRefused
        exact Refusal.noConfusion
  | bytes owner data =>
      simp only [Account.record] at hRefused
      split at hRefused
      · split at hRefused
        · cases hRefused
        · next e _ =>
            cases hRefused
            cases e <;> exact Refusal.noConfusion
      · cases hRefused
        exact Refusal.noConfusion

/- A loaded record comes from an account of its size. -/
def Loaded.IsSized
    {R : Type → Type} [Stored R]
    (x : Loaded R) : Prop :=
  (Account.stored x.space (Stored.wrap x.value)).IsSized

namespace Loader

variable {s : Store}
variable {R : Type → Type} [Stored R] [LawfulStored R]

/- A record of a sized store is of its size. -/
theorem yields_recordOf
    {name : String}
    {m : Meta}
    (hSized : s.IsSized) :
    Yields s Loaded.IsSized (recordOf R name m) := by
  refine yields_existing.bind ?_
  intro account hFound
  cases hRecord : account.record R with
  | ok r =>
      apply Yields.pure
      rw [Account.record_eq_ok_iff hSized.isPlain hFound]
        at hRecord
      have hAccount := hSized _ account hFound
      rwa [hRecord] at hAccount
  | error r =>
      exact .throw (Account.record_ne_outOfSpace hRecord)

/- The next record is of its size. -/
theorem yields_record
    {name : String}
    (hSized : s.IsSized) :
    Yields s Loaded.IsSized (record R name) := by
  refine (yields_next Refusal.noConfusion).bind ?_
  intro m _
  exact yields_recordOf hSized

/- The next record is of its size, if it is given. -/
theorem yields_record?
    {name : String}
    (hSized : s.IsSized) :
    Yields s (fun given => ∀ x, given = some x → x.IsSized)
      (record? R name) := by
  refine (yields_next Refusal.noConfusion).bind ?_
  intro m _
  split
  · exact .pure nofun
  · rw [map_eq_pure_bind]
    refine (yields_recordOf hSized).bind ?_
    intro x hLoaded
    apply Yields.pure
    intro y hGiven
    exact Option.some.inj hGiven ▸ hLoaded

end Loader

------------------------------------------------------------
-- Writing
------------------------------------------------------------

section Writing

variable {R : Type → Type} [Stored R] [LawfulLayout R]

/- A record has the kind of its layout. -/
theorem Stored.kind_wrap
    (record : R Address) :
    (Stored.wrap record).kind = Stored.kind R :=
  LawfulLayout.kind_eq_iff.mpr ⟨record, rfl⟩

/-
  A record with no more lines than it may have fits into the
  space of its kind.
-/
theorem Account.findsSpace_ofRecord
    (name : String)
    {record : R Address}
    (hWithin : (Stored.wrap record).IsWithin) :
    FindsSpace Account.IsSized
      (Account.ofRecord name (Stored.kind R).space record) := by
  have hFits :
      (Stored.toBytes Address.blank record).length ≤
        (Stored.kind R).space := by
    rw [← LawfulLayout.toBytes_wrap,
      State.length_toBytes Address.takes_blank,
      ← Stored.kind_wrap record]
    exact State.length_le_space hWithin
  unfold Account.ofRecord
  rw [if_pos hFits]
  exact ⟨congrArg Kind.space (Stored.kind_wrap record).symm,
    hWithin⟩

/- The first record of an account finds space. -/
theorem Opening.findsSpace_write
    (x : Opening)
    {record : R Address}
    (hWithin : (Stored.wrap record).IsWithin) :
    FindsSpace (fun w => w.2.IsSized) (x.write record) :=
  (Account.findsSpace_ofRecord x.field hWithin).bind
    fun _ hAccount => hAccount

/- A record that is written back finds space. -/
theorem Loaded.findsSpace_write
    {x : Loaded R}
    {record : R Address}
    (hSized : x.IsSized)
    (hWithin : (Stored.wrap record).IsWithin) :
    FindsSpace (fun w => w.2.IsSized) (x.write record) := by
  have hSpace : x.space = (Stored.kind R).space :=
    hSized.1.trans
      (congrArg Kind.space (Stored.kind_wrap x.value))
  unfold Loaded.write
  rw [hSpace]
  exact
    (Account.findsSpace_ofRecord x.field hWithin).bind
      fun _ hAccount => hAccount

end Writing

end YieldManager

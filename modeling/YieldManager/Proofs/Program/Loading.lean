import YieldManager.Program.Execution
import YieldManager.Proofs.Action
import YieldManager.Proofs.Program.Store
import YieldManager.Proofs.Wire.Account

/-
  What a successful instruction has found its accounts to be.
  A record that is loaded is what the store holds at its
  address; in a plain store it lies there as it was loaded.
  An account that is opened held no record before.

  Main declarations:
    * `LawfulStored`
    * `Loaded.IsRead`
    * `Loaded.IsIn`
    * `Meta.Signs`
    * `Loader.bind_eq_ok_iff`
    * `Loader.signer_eq_ok_iff`
    * `Loader.record_eq_ok_iff`
    * `Loader.load_eq_ok_iff`
    * `Loaded.write_eq_ok_iff`
    * `Opening.begin_eq_ok_iff`
    * `Opening.state?_eq_none`
-/

------------------------------------------------------------
-- Records and States
------------------------------------------------------------

namespace YieldManager

/- A state is unwrapped to the record it was wrapped from. -/
class LawfulStored (R : Type → Type) [Stored R] : Prop where
  unwrap?_eq_some_iff
    {κ : Type}
    {state : State κ}
    {r : R κ} :
    Stored.unwrap? state = some r ↔ Stored.wrap r = state

instance : LawfulStored Manager where
  unwrap?_eq_some_iff {_ state _} := by
    cases state <;> simp [Stored.unwrap?, Stored.wrap, eq_comm]

instance : LawfulStored Ledger where
  unwrap?_eq_some_iff {_ state _} := by
    cases state <;> simp [Stored.unwrap?, Stored.wrap, eq_comm]

instance : LawfulStored ShareVault where
  unwrap?_eq_some_iff {_ state _} := by
    cases state <;> simp [Stored.unwrap?, Stored.wrap, eq_comm]

instance : LawfulStored Gauge where
  unwrap?_eq_some_iff {_ state _} := by
    cases state <;> simp [Stored.unwrap?, Stored.wrap, eq_comm]

instance : LawfulStored Forwarder where
  unwrap?_eq_some_iff {_ state _} := by
    cases state <;> simp [Stored.unwrap?, Stored.wrap, eq_comm]

instance : LawfulStored RelayerAccount where
  unwrap?_eq_some_iff {_ state _} := by
    cases state <;> simp [Stored.unwrap?, Stored.wrap, eq_comm]

/- A loaded record lies in a store as it was loaded. -/
def Loaded.IsIn
    {R : Type → Type} [Stored R]
    (x : Loaded R)
    (s : Store) : Prop :=
  s.find? x.key =
    some (.stored x.space (Stored.wrap x.value))

/- A record that lies in a store is found as a state. -/
theorem Loaded.IsIn.state?
    {R : Type → Type} [Stored R]
    {x : Loaded R}
    {s : Store}
    (hIn : x.IsIn s) :
    s.state? x.key = some (Stored.wrap x.value) :=
  Store.state?_of_find? hIn

/- A record is read from what the account holds. -/
theorem Account.state?_of_record
    {R : Type → Type} [Stored R]
    [LawfulStored R] [LawfulLayout R]
    {account : Account}
    {r : R Address}
    (hRecord : account.record R = .ok r) :
    account.state? = some (Stored.wrap r) := by
  cases account with
  | stored space state =>
      simp only [Account.record] at hRecord
      split at hRecord
      · next found hUnwrap =>
          cases hRecord
          exact
            congrArg some
              (LawfulStored.unwrap?_eq_some_iff.mp
                hUnwrap).symm
      · cases hRecord
  | bytes owner data =>
      simp only [Account.record] at hRecord
      split at hRecord
      · next hOwner =>
          rw [Account.state?, if_pos hOwner]
          split at hRecord
          · next found hRead =>
              cases hRecord
              exact State.ofBytes?_of_ofBytes hRead
          · cases hRecord
      · cases hRecord

/- In a plain store a record is read from its own state. -/
theorem Account.record_eq_ok_iff
    {R : Type → Type} [Stored R] [LawfulStored R]
    {s : Store}
    {key : Address}
    {account : Account}
    {r : R Address}
    (hPlain : s.IsPlain)
    (hFound : s.find? key = some account) :
    account.record R = .ok r ↔
      account = .stored account.space (Stored.wrap r) := by
  cases account with
  | stored space state =>
      have hRecord :
          (Account.stored space state).record R = .ok r ↔
            (Stored.unwrap? state : Option (R Address)) =
              some r := by
        simp only [Account.record]
        split
        · next found hUnwrap =>
            rw [hUnwrap]
            simp
        · next hUnwrap =>
            rw [hUnwrap]
            simp
      rw [hRecord, LawfulStored.unwrap?_eq_some_iff]
      simp [Account.space, eq_comm]
  | bytes owner data =>
      have hOwner := hPlain key owner data hFound
      simp [Account.record, hOwner]

/- A loaded record is read from an account of a store. -/
def Loaded.IsRead
    {R : Type → Type} [Stored R]
    (x : Loaded R)
    (s : Store) : Prop :=
  ∃ account,
    s.find? x.key = some account ∧
      account.record R = .ok x.value ∧
      account.space = x.space

namespace Loaded

variable {R : Type → Type} [Stored R] [LawfulStored R]
variable {x : Loaded R}
variable {s : Store}

/- What is read is what the store holds at the address. -/
theorem IsRead.state?
    [LawfulLayout R]
    (hRead : x.IsRead s) :
    s.state? x.key = some (Stored.wrap x.value) := by
  rcases hRead with ⟨account, hFound, hRecord, -⟩
  unfold Store.state?
  rw [hFound]
  exact Account.state?_of_record hRecord

/- In a plain store a record is read where it lies. -/
theorem isRead_iff_isIn
    (hPlain : s.IsPlain) :
    x.IsRead s ↔ x.IsIn s := by
  constructor
  · intro hRead
    rcases hRead with ⟨account, hFound, hRecord, hSpace⟩
    rw [Account.record_eq_ok_iff hPlain hFound, hSpace]
      at hRecord
    exact hFound.trans (congrArg some hRecord)
  · intro hIn
    exact
      ⟨_, hIn, (Account.record_eq_ok_iff hPlain hIn).mpr rfl,
        rfl⟩

end Loaded

------------------------------------------------------------
-- Loaders
------------------------------------------------------------

/- Merging leaves the keys of a list as they are. -/
theorem Meta.map_key_merge
    (metas : List Meta) :
    (Meta.merge metas).map Meta.key = metas.map Meta.key := by
  unfold Meta.merge
  rw [List.map_map]
  rfl

/- A key has signed if some account of a list signs as it. -/
def Meta.Signs
    (metas : List Meta)
    (key : Address) : Prop :=
  ∃ m ∈ metas, m.key = key ∧ m.signer = true

instance
    (metas : List Meta)
    (key : Address) :
    Decidable (Meta.Signs metas key) := by
  unfold Meta.Signs
  infer_instance

/- Merging makes nobody sign who has not signed. -/
theorem Meta.signs_of_mem_merge
    {metas : List Meta}
    {m : Meta}
    (hMem : m ∈ Meta.merge metas)
    (hSigner : m.signer = true) :
    Meta.Signs metas m.key := by
  rcases List.mem_map.mp hMem with ⟨n, -, rfl⟩
  rcases List.any_eq_true.mp hSigner with
    ⟨signer, hListed, hSigns⟩
  simp only [Bool.and_eq_true, decide_eq_true_eq] at hSigns
  exact ⟨signer, hListed, hSigns⟩

namespace Loader

variable {α β : Type}
variable {s : Store}
variable {ms rest : List Meta}

/- A sequence of loaders passes the list along. -/
@[simp] theorem bind_eq_ok_iff
    {a : Loader α}
    {f : α → Loader β}
    {y : β} :
    (a >>= f) s ms = .ok (y, rest) ↔
      ∃ x mid,
        a s ms = .ok (x, mid) ∧
          f x s mid = .ok (y, rest) := by
  change
    ((a s ms : Except Fault (α × List Meta)) >>=
      fun p => f p.1 s p.2) = .ok (y, rest) ↔ _
  rw [Except.bind_eq_ok_iff, Prod.exists]

/- A value is answered without taking an account. -/
@[simp] theorem pure_eq_ok_iff
    {x y : α} :
    (pure x : Loader α) s ms = .ok (y, rest) ↔
      x = y ∧ ms = rest := by
  change
    (Except.ok (x, ms) : Except Fault (α × List Meta)) =
      .ok (y, rest) ↔ _
  simp

/- A refusal is no success. -/
@[simp] theorem throw_eq_ok_iff
    {e : Fault}
    {y : α} :
    (throw e : Loader α) s ms = .ok (y, rest) ↔ False := by
  change
    (Except.error e : Except Fault (α × List Meta)) =
      .ok (y, rest) ↔ False
  simp

/- The next account is the first of the list. -/
@[simp] theorem next_eq_ok_iff
    {missing : Fault}
    {m : Meta} :
    next missing s ms = .ok (m, rest) ↔ ms = m :: rest := by
  unfold next
  cases ms with
  | nil => simp
  | cons n ns =>
      change
        (Except.ok (n, ns) :
          Except Fault (Meta × List Meta)) = _ ↔ _
      simp

/- A signer is the first of the list, and signs. -/
@[simp] theorem signer_eq_ok_iff
    {name : String}
    {m : Meta} :
    signer name s ms = .ok (m, rest) ↔
      ms = m :: rest ∧ m.signer = true := by
  rw [signer, bind_eq_ok_iff]
  constructor
  · intro hSteps
    rcases hSteps with ⟨n, mid, hNext, hSigns⟩
    rw [field, next_eq_ok_iff] at hNext
    split at hSigns
    · next hSigner =>
        rcases pure_eq_ok_iff.mp hSigns with ⟨rfl, rfl⟩
        exact ⟨hNext, hSigner⟩
    · exact absurd hSigns (by simp)
  · intro hSteps
    rcases hSteps with ⟨hNext, hSigner⟩
    refine ⟨m, rest, next_eq_ok_iff.mpr hNext, ?_⟩
    rw [if_pos hSigner]
    exact pure_eq_ok_iff.mpr ⟨rfl, rfl⟩

/- The signer that an instruction takes first has signed. -/
theorem signs_of_signer
    {name : String}
    {m : Meta}
    (hSigner :
      signer name s (Meta.merge ms) = .ok (m, rest)) :
    Meta.Signs ms m.key := by
  rcases signer_eq_ok_iff.mp hSigner with ⟨hMerged, hSigns⟩
  apply Meta.signs_of_mem_merge _ hSigns
  rw [hMerged]
  exact List.mem_cons_self

/- An account that exists is in the store. -/
@[simp] theorem existing_eq_ok_iff
    {name : String}
    {m : Meta}
    {account : Account} :
    existing name m s ms = .ok (account, rest) ↔
      s.find? m.key = some account ∧ ms = rest := by
  unfold existing
  rw [bind_eq_ok_iff]
  have hRead :
      ∀ t mid,
        (read : Loader Store) s ms = .ok (t, mid) ↔
          s = t ∧ ms = mid := by
    intro t mid
    change
      (Except.ok (s, ms) :
        Except Fault (Store × List Meta)) = _ ↔ _
    simp
  simp only [hRead]
  constructor
  · intro hSteps
    rcases hSteps with ⟨_, _, ⟨rfl, rfl⟩, hRun⟩
    cases hFound : s.find? m.key with
    | some found =>
        simp only [hFound, pure_eq_ok_iff] at hRun
        rcases hRun with ⟨rfl, rfl⟩
        exact ⟨rfl, rfl⟩
    | none =>
        simp only [hFound] at hRun
        split at hRun
        · exact absurd hRun (by simp)
        · exact absurd hRun (by simp)
  · intro hSteps
    rcases hSteps with ⟨hFound, rfl⟩
    refine ⟨s, ms, ⟨rfl, rfl⟩, ?_⟩
    rw [hFound]
    exact pure_eq_ok_iff.mpr ⟨rfl, rfl⟩

section Records

variable {R : Type → Type} [Stored R]
variable {name : String}
variable {x : Loaded R}

/- A listed record is read from the store. -/
theorem recordOf_eq_ok_iff_isRead
    {m : Meta} :
    recordOf R name m s ms = .ok (x, rest) ↔
      x.IsRead s ∧ x.field = name ∧ x.key = m.key ∧
        x.writable = m.writable ∧ ms = rest := by
  rw [recordOf, bind_eq_ok_iff]
  simp only [existing_eq_ok_iff]
  constructor
  · intro hSteps
    rcases hSteps with ⟨account, _, ⟨hFound, rfl⟩, hRun⟩
    cases hRecord : account.record R with
    | ok r =>
        simp only [hRecord, pure_eq_ok_iff] at hRun
        rcases hRun with ⟨rfl, rfl⟩
        exact
          ⟨⟨account, hFound, hRecord, rfl⟩, rfl, rfl, rfl,
            rfl⟩
    | error r => simp [hRecord] at hRun
  · intro hSteps
    rcases hSteps with
      ⟨⟨account, hFound, hRecord, hSpace⟩, rfl, hKey,
        hWritable, rfl⟩
    refine ⟨account, ms, ⟨hKey ▸ hFound, rfl⟩, ?_⟩
    simp only [hRecord, pure_eq_ok_iff, and_true]
    rw [← hKey, ← hWritable, hSpace]

/- A record is the first of the list, read from the store. -/
theorem record_eq_ok_iff_isRead :
    record R name s ms = .ok (x, rest) ↔
      ∃ m,
        ms = m :: rest ∧ x.IsRead s ∧ x.field = name ∧
          x.key = m.key ∧ x.writable = m.writable := by
  rw [record, bind_eq_ok_iff]
  simp only [field, next_eq_ok_iff,
    recordOf_eq_ok_iff_isRead]
  constructor
  · intro hSteps
    rcases hSteps with
      ⟨m, _, hNext, hRead, hField, hKey, hWritable, rfl⟩
    exact ⟨m, hNext, hRead, hField, hKey, hWritable⟩
  · intro hSteps
    rcases hSteps with
      ⟨m, hNext, hRead, hField, hKey, hWritable⟩
    exact
      ⟨m, rest, hNext, hRead, hField, hKey, hWritable, rfl⟩

end Records

variable {R : Type → Type} [Stored R] [LawfulStored R]

/- In a plain store, a listed record lies where it is read. -/
theorem recordOf_eq_ok_iff
    {name : String}
    {m : Meta}
    {x : Loaded R}
    (hPlain : s.IsPlain) :
    recordOf R name m s ms = .ok (x, rest) ↔
      x.IsIn s ∧ x.field = name ∧ x.key = m.key ∧
        x.writable = m.writable ∧ ms = rest := by
  rw [recordOf_eq_ok_iff_isRead,
    Loaded.isRead_iff_isIn hPlain]

/- A record is the first of the list, and in the store. -/
theorem record_eq_ok_iff
    {name : String}
    {x : Loaded R}
    (hPlain : s.IsPlain) :
    record R name s ms = .ok (x, rest) ↔
      ∃ m,
        ms = m :: rest ∧ x.IsIn s ∧ x.field = name ∧
          x.key = m.key ∧ x.writable = m.writable := by
  rw [record_eq_ok_iff_isRead,
    Loaded.isRead_iff_isIn hPlain]

/- A record that may be left out is in the store if given. -/
theorem isIn_of_record?
    {name : String}
    {x : Option (Loaded R)}
    (hPlain : s.IsPlain)
    (hRun : record? R name s ms = .ok (x, rest)) :
    ∀ y, x = some y → y.IsIn s := by
  rw [record?, bind_eq_ok_iff] at hRun
  rcases hRun with ⟨m, mid, -, hRun⟩
  intro y hSome
  subst hSome
  split at hRun
  · exact absurd (pure_eq_ok_iff.mp hRun).1 (by simp)
  · rw [map_eq_pure_bind, bind_eq_ok_iff] at hRun
    rcases hRun with ⟨z, last, hRecord, hPure⟩
    simp only [pure_eq_ok_iff] at hPure
    have hEq := Option.some.inj hPure.1
    subst hEq
    exact ((recordOf_eq_ok_iff hPlain).mp hRecord).1

/- Loading starts from the merged list. -/
theorem load_eq_ok_iff
    {loader : Loader α}
    {x : α} :
    loader.load s ms = .ok x ↔
      ∃ rest, loader s (Meta.merge ms) = .ok (x, rest) := by
  change
    ((loader s (Meta.merge ms) :
        Except Fault (α × List Meta)) >>=
      fun p => pure p.1) = .ok x ↔ _
  rw [Except.bind_eq_ok_iff, Prod.exists]
  constructor
  · intro hSteps
    rcases hSteps with ⟨y, rest, hRun, hPure⟩
    rw [Except.pure_eq_ok_iff] at hPure
    exact ⟨rest, hPure ▸ hRun⟩
  · intro hSteps
    rcases hSteps with ⟨rest, hRun⟩
    exact ⟨x, rest, hRun, rfl⟩

end Loader

------------------------------------------------------------
-- Conditions
------------------------------------------------------------

/- A rule that holds is passed. -/
@[simp] theorem Fault.ofRule_eq_ok_iff
    {α : Type}
    {c : Except Error α}
    {x : α} :
    Fault.ofRule c = .ok x ↔ c = .ok x := by
  cases c <;> simp [Fault.ofRule]

/- An action that succeeds gives its answer and its state. -/
@[simp] theorem Fault.ofAction_eq_ok_iff
    {σ α : Type}
    {a : Action σ α}
    {s t : σ}
    {x : α} :
    Fault.ofAction a s = .ok (x, t) ↔ a s = .ok x t := by
  unfold Fault.ofAction
  cases a s <;> simp

/- An account that pays has to be writable. -/
@[simp] theorem Meta.expectWritable_eq_ok_iff
    {m : Meta}
    {name : String}
    {u : Unit} :
    m.expectWritable name = .ok u ↔ m.writable = true := by
  unfold Meta.expectWritable
  split <;> simp_all

namespace Loaded

variable {R : Type → Type} [Stored R]
variable {x : Loaded R}

/- A record lies where it was derived. -/
@[simp] theorem expectDerived_eq_ok_iff
    {seed : Seed}
    {args : List Address}
    {u : Unit} :
    x.expectDerived seed args = .ok u ↔
      x.key = .derived seed args ∧
        Stored.bump x.value = Address.bump := by
  unfold expectDerived
  split <;> simp_all

omit [Stored R] in
/- A record that is to be written is writable. -/
@[simp] theorem expectWritable_eq_ok_iff
    {u : Unit} :
    x.expectWritable = .ok u ↔ x.writable = true := by
  unfold expectWritable
  split <;> simp_all

omit [Stored R] in
/- A condition on a record holds. -/
@[simp] theorem expect_eq_ok_iff
    {p : Prop} [Decidable p]
    {e : Error}
    {u : Unit} :
    x.expect p e = .ok u ↔ p := by
  unfold expect
  split <;> simp_all

/- A record is written back in place, if it fits. -/
theorem write_eq_ok_iff
    {record : R Address}
    {w : Address × Account} :
    x.write record = .ok w ↔
      (Stored.toBytes Address.blank record).length ≤
          x.space ∧
        (x.key, .stored x.space (Stored.wrap record)) =
          w := by
  simp only [write, Account.ofRecord, Except.bind_eq_ok_iff,
    Except.pure_eq_ok_iff]
  split <;> simp_all

end Loaded

------------------------------------------------------------
-- New Accounts
------------------------------------------------------------

namespace Opening

variable {s : Store}

/- A free and writable place can be opened. -/
theorem begin_eq_ok_iff
    {payer place : Meta}
    {name : String}
    {seed : Seed}
    {args : List Address}
    {x : Opening} :
    Opening.begin s payer place name seed args = .ok x ↔
      place.key = .derived seed args ∧
        place.key ≠ payer.key ∧
        s.isTaken place.key = false ∧
        place.writable = true ∧
        { field := name, key := place.key } = x := by
  unfold Opening.begin
  by_cases hKey : place.key = .derived seed args
  · rw [if_neg (not_not_intro hKey)]
    by_cases hPayer : place.key = payer.key
    · rw [if_pos hPayer]
      simp [hPayer]
    · have hOther : Address.derived seed args ≠ payer.key :=
        hKey ▸ hPayer
      rw [if_neg hPayer]
      cases hTaken : s.isTaken place.key with
      | true => simp
      | false =>
          cases hWritable : place.writable with
          | true => simp [hKey, hOther]
          | false => simp
  · simp [hKey]

/- A place that is not taken holds no record. -/
theorem state?_eq_none
    {key : Address}
    (hFree : s.isTaken key = false) :
    s.state? key = none := by
  unfold Store.isTaken at hFree
  unfold Store.state?
  cases hFound : s.find? key with
  | none => rfl
  | some account =>
      cases account with
      | stored space state =>
          simp [hFound, Account.isVacant] at hFree
      | bytes owner data =>
          simp only [hFound, Account.isVacant,
            Bool.not_eq_false', Bool.and_eq_true,
            decide_eq_true_eq] at hFree
          have hOwner : owner ≠ Address.program := by
            rw [hFree.1]
            decide
          simp [Account.state?, hOwner]

/- The first record of an account is written, if it fits. -/
theorem write_eq_ok_iff
    {R : Type → Type} [Stored R]
    {x : Opening}
    {record : R Address}
    {w : Address × Account} :
    x.write record = .ok w ↔
      (Stored.toBytes Address.blank record).length ≤
          (Stored.kind R).space ∧
        (x.key,
          .stored (Stored.kind R).space
            (Stored.wrap record)) = w := by
  simp only [write, Account.ofRecord, Except.bind_eq_ok_iff,
    Except.pure_eq_ok_iff]
  split <;> simp_all

end Opening

end YieldManager

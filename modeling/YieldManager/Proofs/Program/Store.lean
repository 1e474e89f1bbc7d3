import YieldManager.Program.Store
import YieldManager.Proofs.Table

/-
  Stores, looked at through the records they hold.  A store is
  plain when whatever belongs to the program was written by
  it; the program only ever works on such stores.

  Main declarations:
    * `Store.state?`
    * `Store.find?_insert`
    * `Store.state?_insert`
    * `Store.IsPlain`
    * `Store.sum`
    * `Store.sum_insert`
    * `Store.sum_replace`
-/

------------------------------------------------------------
-- Look-up
------------------------------------------------------------

namespace YieldManager

namespace Store

/- The record of the program at an address, if there is one. -/
def state?
    (s : Store)
    (key : Address) : Option (State Address) :=
  (s.find? key).bind Account.state?

/- An account is found where it was put. -/
theorem find?_insert
    (s : Store)
    (key : Address)
    (account : Account)
    (k : Address) :
    (s.insert key account).find? k =
      if k = key then some account else s.find? k := by
  unfold insert find?
  by_cases hKey : key ∈ s.accounts.map Prod.fst
  · rcases Table.exists_find? hKey with ⟨old, hOld⟩
    rw [dif_pos hKey]
    by_cases hSame : k = key
    · subst hSame
      have hFound :
          Table.find? Prod.fst k
              (Table.replace Prod.fst (k, account)
                s.accounts) = some (k, account) :=
        Table.find?_replace_self (y := (k, account)) hOld
      simp [hFound]
    · rw [Table.find?_replace_of_ne s.accounts hSame,
        if_neg hSame]
  · rw [dif_neg hKey]
    have hFound :
        Table.find? Prod.fst k
            (s.accounts ++ [(key, account)]) =
          if k = key then some (key, account)
          else Table.find? Prod.fst k s.accounts :=
      Table.find?_append_singleton hKey k
    rw [hFound]
    split <;> rfl

/- Putting an account where it lies changes nothing. -/
theorem insert_eq_self
    {s : Store}
    {key : Address}
    {account : Account}
    (hFound : s.find? key = some account) :
    s.insert key account = s := by
  unfold find? at hFound
  cases hPair : Table.find? Prod.fst key s.accounts with
  | none => simp [hPair] at hFound
  | some pair =>
      have hFirst := Table.key_of_find? hPair
      have hSecond : pair.2 = account := by
        simpa [hPair] using hFound
      have hEq : pair = (key, account) :=
        Prod.ext hFirst hSecond
      subst hEq
      have hKey : key ∈ s.accounts.map Prod.fst :=
        List.mem_map_of_mem (Table.mem_of_find? hPair)
      unfold insert
      rw [dif_pos hKey]
      congr 1
      exact Table.replace_eq_self hPair

/- A stored account is found with its record. -/
theorem state?_of_find?
    {s : Store}
    {key : Address}
    {space : Nat}
    {state : State Address}
    (hFound : s.find? key = some (.stored space state)) :
    s.state? key = some state := by
  unfold state?
  rw [hFound]
  rfl

/- An account that is found is in the list. -/
theorem mem_of_find?
    {s : Store}
    {key : Address}
    {account : Account}
    (hFound : s.find? key = some account) :
    (key, account) ∈ s.accounts := by
  unfold find? at hFound
  rcases Option.map_eq_some_iff.mp hFound with
    ⟨entry, hEntry, rfl⟩
  rw [← Table.key_of_find? hEntry]
  exact Table.mem_of_find? hEntry

/- An account in the list is the one at its address. -/
theorem state?_of_mem
    {s : Store}
    {entry : Address × Account}
    (hMem : entry ∈ s.accounts) :
    s.state? entry.1 = entry.2.state? := by
  have hFound :
      Table.find? Prod.fst entry.1 s.accounts =
        some entry :=
    (Table.find?_eq_some_iff s.nodup).mpr ⟨hMem, rfl⟩
  unfold state? find?
  rw [hFound]
  rfl

/- The address of a record is listed. -/
theorem mem_of_state?
    {s : Store}
    {key : Address}
    {state : State Address}
    (hState : s.state? key = some state) :
    key ∈ s.accounts.map Prod.fst := by
  by_contra hAbsent
  have hNone := Table.find?_eq_none_iff.mpr hAbsent
  unfold state? find? at hState
  rw [hNone] at hState
  cases hState

/- Accounts of other programs hold no record. -/
theorem state?_of_foreign
    {s : Store}
    (hForeign :
      ∀ key account, s.find? key = some account →
        account.owner ≠ Address.program)
    (key : Address) :
    s.state? key = none := by
  unfold state?
  cases hFound : s.find? key with
  | none => rfl
  | some account =>
      have hOwner := hForeign key account hFound
      cases account with
      | stored space old => exact absurd rfl hOwner
      | bytes owner data => exact if_neg hOwner

/- Different records lie at different addresses. -/
theorem ne_of_state?
    {s : Store}
    {key k : Address}
    {state other : State Address}
    (hState : s.state? key = some state)
    (hOther : s.state? k = some other)
    (hDiffer : state ≠ other) :
    key ≠ k := by
  intro hSame
  rw [hSame, hOther] at hState
  exact hDiffer (Option.some.inj hState).symm

/- Accounts are put in the order of the list. -/
theorem insertAll_append
    (s : Store)
    (first second : List (Address × Account)) :
    s.insertAll (first ++ second) =
      (s.insertAll first).insertAll second :=
  List.foldl_append

/- A record is found where it was put. -/
theorem state?_insert
    (s : Store)
    (key : Address)
    (space : Nat)
    (state : State Address)
    (k : Address) :
    (s.insert key (.stored space state)).state? k =
      if k = key then some state else s.state? k := by
  unfold state?
  rw [find?_insert]
  split <;> rfl

/- Putting a record in the place of another spares a third. -/
theorem state?_insert_of_differ
    {s : Store}
    {key k : Address}
    {old other : State Address}
    (hOld : s.state? key = some old)
    (hOther : s.state? k = some other)
    (hDiffer : old ≠ other)
    (space : Nat)
    (new : State Address) :
    (s.insert key (.stored space new)).state? k =
      some other := by
  rw [state?_insert,
    if_neg (ne_of_state? hOld hOther hDiffer).symm]
  exact hOther

------------------------------------------------------------
-- Plain Stores
------------------------------------------------------------

/-
  What belongs to the program is held as a record, and not as
  bytes that someone else could have written.
-/
def IsPlain (s : Store) : Prop :=
  ∀ key owner data,
    s.find? key = some (.bytes owner data) →
      owner ≠ Address.program

/- Records keep a store plain. -/
theorem IsPlain.insert
    {s : Store}
    (hPlain : s.IsPlain)
    (key : Address)
    (space : Nat)
    (state : State Address) :
    (s.insert key (.stored space state)).IsPlain := by
  intro k owner data hFound
  rw [find?_insert] at hFound
  split at hFound
  · simp at hFound
  · exact hPlain k owner data hFound

/- A plain store has records in stored accounts only. -/
theorem state?_eq_some_iff
    {s : Store}
    {key : Address}
    {state : State Address}
    (hPlain : s.IsPlain) :
    s.state? key = some state ↔
      ∃ space, s.find? key = some (.stored space state) := by
  unfold state?
  cases hFound : s.find? key with
  | none => simp
  | some account =>
      cases account with
      | stored space st => simp [Account.state?]
      | bytes owner data =>
          have hOwner := hPlain key owner data hFound
          simp [Account.state?, hOwner]

------------------------------------------------------------
-- Sums over a Store
------------------------------------------------------------

/- Add up a quantity over all records of a store. -/
def sum
    (f : State Address → Nat)
    (s : Store) : Nat :=
  (s.accounts.map fun entry =>
    entry.2.state?.elim 0 f).sum

/- A sum goes over the addresses of the accounts. -/
theorem sum_eq_sum_state?
    (f : State Address → Nat)
    (s : Store) :
    s.sum f =
      ((s.accounts.map Prod.fst).map fun key =>
        (s.state? key).elim 0 f).sum := by
  unfold sum
  rw [List.map_map]
  congr 1
  apply List.map_congr_left
  intro entry hMem
  simp only [Function.comp]
  rw [state?_of_mem hMem]

/- Without records, every sum is empty. -/
theorem sum_eq_zero
    {s : Store}
    (f : State Address → Nat)
    (hNone : ∀ key, s.state? key = none) :
    s.sum f = 0 := by
  rw [sum_eq_sum_state?]
  apply List.sum_eq_zero
  intro n hMem
  rcases List.mem_map.mp hMem with ⟨key, -, rfl⟩
  rw [hNone]
  rfl

/- Putting an account changes a sum by the difference. -/
theorem sum_insert
    (f : State Address → Nat)
    (s : Store)
    (key : Address)
    (account : Account) :
    (s.insert key account).sum f + (s.state? key).elim 0 f =
      s.sum f + account.state?.elim 0 f := by
  unfold sum state? insert find?
  by_cases hKey : key ∈ s.accounts.map Prod.fst
  · rcases Table.exists_find? hKey with ⟨old, hOld⟩
    have hSum :=
      Table.sum_map_replace
        (y := ((key, account) : Address × Account))
        (fun entry => entry.2.state?.elim 0 f) hOld
    rw [dif_pos hKey, hOld]
    exact hSum
  · have hNone := Table.find?_eq_none_iff.mpr hKey
    rw [dif_neg hKey, hNone]
    simp

/- A record put at a free address adds to a sum. -/
theorem sum_insert_of_free
    {s : Store}
    {key : Address}
    (f : State Address → Nat)
    (hFree : s.state? key = none)
    (space : Nat)
    (state : State Address) :
    (s.insert key (.stored space state)).sum f =
      s.sum f + f state := by
  have hSum := sum_insert f s key (.stored space state)
  simpa [hFree, Account.state?] using hSum

/- A replaced record counts no longer, and its heir does. -/
theorem sum_replace
    {s : Store}
    {key : Address}
    {old : State Address}
    (f : State Address → Nat)
    (hOld : s.state? key = some old)
    (space : Nat)
    (new : State Address) :
    (s.insert key (.stored space new)).sum f + f old =
      s.sum f + f new := by
  have hSum := sum_insert f s key (.stored space new)
  simpa [hOld, Account.state?] using hSum

/- Two replaced records count no longer. -/
theorem sum_replace_replace
    {s : Store}
    {k₁ k₂ : Address}
    {old₁ old₂ : State Address}
    (f : State Address → Nat)
    (hFirst : s.state? k₁ = some old₁)
    (hSecond : s.state? k₂ = some old₂)
    (hDiffer : old₁ ≠ old₂)
    (space₁ space₂ : Nat)
    (new₁ new₂ : State Address) :
    ((s.insert k₁ (.stored space₁ new₁)).insert k₂
        (.stored space₂ new₂)).sum f + f old₁ + f old₂ =
      s.sum f + f new₁ + f new₂ := by
  have hMiddle :=
    state?_insert_of_differ hFirst hSecond hDiffer space₁
      new₁
  have hOne := sum_replace f hFirst space₁ new₁
  have hTwo := sum_replace f hMiddle space₂ new₂
  omega

/- A sum of two quantities is the sum of their sums. -/
theorem sum_add
    (f g : State Address → Nat)
    (s : Store) :
    s.sum (fun state => f state + g state) =
      s.sum f + s.sum g := by
  unfold sum
  rw [← List.sum_map_add]
  congr 1
  apply List.map_congr_left
  intro entry _
  cases entry.2.state? <;> rfl

end Store

end YieldManager

import Mathlib.Algebra.Order.BigOperators.Group.List
import Mathlib.Algebra.Order.Group.Nat
import Mathlib.Algebra.Ring.Nat
import Mathlib.Data.List.Nodup
import YieldManager.Table

/-
  Laws of tables.  A record that is found splits the table
  around it, and a replacement takes its place between the
  same two parts; all else is read off from this.

  Main declarations:
    * `Table.mem_of_find?`
    * `Table.key_of_find?`
    * `Table.find?_eq_some_iff`
    * `Table.eq_of_find?`
    * `Table.distinct_eq_true_iff`
    * `Table.replace_eq_append`
    * `Table.find?_replace_self`
    * `Table.find?_replace_of_ne`
    * `Table.find?_replace`
    * `Table.replace_replace`
    * `Table.replace_append_singleton`
    * `Table.elim_find?_replace`
    * `Table.elim_find?_append_singleton`
    * `Table.sum_map_replace`
    * `Table.sum_map_find?`
-/

------------------------------------------------------------
-- Look-up
------------------------------------------------------------

namespace YieldManager

namespace Table

variable {α κ : Type} [DecidableEq κ]
variable {key : α → κ}

/- A record that is found is in the table. -/
theorem mem_of_find?
    {k : κ}
    {xs : List α}
    {x : α}
    (hFound : find? key k xs = some x) :
    x ∈ xs :=
  List.mem_of_find?_eq_some hFound

/- A record that is found has the key asked for. -/
theorem key_of_find?
    {k : κ}
    {xs : List α}
    {x : α}
    (hFound : find? key k xs = some x) :
    key x = k := by
  simpa using List.find?_some hFound

/- Nothing is found exactly when no record has the key. -/
theorem find?_eq_none_iff
    {k : κ}
    {xs : List α} :
    find? key k xs = none ↔ k ∉ xs.map key := by
  simp [find?]

/- A key that occurs is found. -/
theorem exists_find?
    {k : κ}
    {xs : List α}
    (hKey : k ∈ xs.map key) :
    ∃ x, find? key k xs = some x := by
  cases hFound : find? key k xs with
  | none => exact absurd hKey (find?_eq_none_iff.mp hFound)
  | some x => exact ⟨x, rfl⟩

/- A look-up passes over a record with another key. -/
private theorem find?_cons_of_ne
    {k : κ}
    {x : α}
    {xs : List α}
    (hKey : key x ≠ k) :
    find? key k (x :: xs) = find? key k xs := by
  unfold find?
  rw [List.find?_cons]
  simp [hKey]

/- Where no key occurs twice, every record is found. -/
theorem find?_eq_some_iff
    {k : κ}
    {xs : List α}
    {x : α}
    (hNodup : (xs.map key).Nodup) :
    find? key k xs = some x ↔ x ∈ xs ∧ key x = k := by
  constructor
  · intro hFound
    exact ⟨mem_of_find? hFound, key_of_find? hFound⟩
  · intro hSteps
    rcases hSteps with ⟨hMem, rfl⟩
    rcases exists_find?
        (List.mem_map_of_mem (f := key) hMem) with
      ⟨y, hFound⟩
    have hEq : y = x :=
      List.inj_on_of_nodup_map hNodup
        (mem_of_find? hFound) hMem (key_of_find? hFound)
    rw [hFound, hEq]

/- Tables with the same keys and look-ups are the same. -/
theorem eq_of_find?
    {xs ys : List α}
    (hNodup : (xs.map key).Nodup)
    (hKeys : ys.map key = xs.map key)
    (hSame :
      ∀ k ∈ xs.map key, find? key k ys = find? key k xs) :
    ys = xs := by
  induction xs generalizing ys with
  | nil => exact List.map_eq_nil_iff.mp hKeys
  | cons x xs ih =>
      cases ys with
      | nil => cases hKeys
      | cons y ys =>
          rw [List.map_cons, List.map_cons,
            List.cons.injEq] at hKeys
          rcases hKeys with ⟨hKey, hKeys⟩
          rw [List.map_cons, List.nodup_cons] at hNodup
          have hHead := hSame (key x) List.mem_cons_self
          have hEq : y = x := by
            simpa [find?, hKey] using hHead
          subst hEq
          rw [ih hNodup.2 hKeys]
          intro k hk
          have hOther : key y ≠ k := by
            intro hClash
            exact hNodup.1 (hClash ▸ hk)
          have hTail :=
            hSame k (List.mem_cons_of_mem _ hk)
          rwa [find?_cons_of_ne hOther,
            find?_cons_of_ne hOther] at hTail

/- Appending a record with a new key adds just that key. -/
theorem find?_append_singleton
    {y : α}
    {xs : List α}
    (hNew : key y ∉ xs.map key)
    (k : κ) :
    find? key k (xs ++ [y]) =
      if k = key y then some y else find? key k xs := by
  unfold find?
  rw [List.find?_append]
  by_cases hKey : k = key y
  · have hNone :
        xs.find? (fun x => key x = key y) = none :=
      find?_eq_none_iff.mpr hNew
    subst hKey
    simp [hNone]
  · have hOther : ¬ key y = k := fun h => hKey h.symm
    simp [hKey, hOther]

/-
  One step of the scan for repeated keys: the key at a place
  is none of the keys behind it.
-/
private theorem any_getElem?_eq_true_iff
    {ks : List κ}
    {i : Nat}
    (hi : i < ks.length) :
    (ks[i]?.any fun k => !(ks.drop (i + 1)).contains k) =
        true ↔
      ∀ j (hj : j < ks.length), i < j → ks[i] ≠ ks[j] := by
  rw [List.getElem?_eq_getElem hi, Option.any_some,
    List.contains_eq_mem, Bool.not_eq_true',
    decide_eq_false_iff_not, List.mem_drop_iff_getElem]
  constructor
  · intro hNone j hj hBehind hSame
    exact hNone ⟨j - (i + 1), by omega, by
      rw [hSame]
      congr 1
      omega⟩
  · intro hOther hSome
    rcases hSome with ⟨d, hd, hSame⟩
    exact hOther (i + 1 + d) (by omega) (by omega) hSame.symm

/-
  The scan for repeated keys does what it says: it stops one
  short of the last key, which has none behind it.
-/
theorem distinct_eq_true_iff
    {ks : List κ} :
    distinct ks = true ↔ ks.Nodup := by
  rw [List.Nodup, List.pairwise_iff_getElem, distinct,
    List.all_eq_true]
  constructor
  · intro hScan i j hi hj hBehind
    have hPlace : i + 1 ∈ List.range' 1 (ks.length - 1) :=
      List.mem_range'_1.mpr (by omega)
    exact
      (any_getElem?_eq_true_iff hi).mp (hScan _ hPlace)
        j hj hBehind
  · intro hPairs i hPlace
    rw [List.mem_range'_1] at hPlace
    rcases Nat.exists_eq_add_of_le' hPlace.1 with ⟨d, rfl⟩
    have hd : d < ks.length := by omega
    exact
      (any_getElem?_eq_true_iff hd).mpr fun j hj hBehind =>
        hPairs d j hd hj hBehind

------------------------------------------------------------
-- Replacement
------------------------------------------------------------

/-
  A replacement takes the place of the first record with its
  key.
-/
theorem replace_eq_append
    {xs : List α}
    {x y : α}
    (hFound : find? key (key y) xs = some x) :
    ∃ before after,
      xs = before ++ x :: after ∧
        (∀ z ∈ before, key z ≠ key y) ∧
          replace key y xs = before ++ y :: after := by
  induction xs with
  | nil => simp [find?] at hFound
  | cons z zs ih =>
      by_cases hKey : key z = key y
      · have hEq : z = x := by
          simpa [find?, hKey] using hFound
        subst hEq
        refine ⟨[], zs, rfl, by simp, ?_⟩
        simp [replace, hKey]
      · have hTail : find? key (key y) zs = some x := by
          simpa [find?, hKey] using hFound
        rcases ih hTail with
          ⟨before, after, hSplit, hBefore, hReplace⟩
        refine ⟨z :: before, after, ?_, ?_, ?_⟩
        · rw [hSplit, List.cons_append]
        · intro w hw
          rcases List.mem_cons.mp hw with rfl | hw
          · exact hKey
          · exact hBefore w hw
        · simp [replace, hKey, hReplace]

/- A record that replaced another one is found. -/
theorem find?_replace_self
    {xs : List α}
    {x y : α}
    (hFound : find? key (key y) xs = some x) :
    find? key (key y) (replace key y xs) = some y := by
  rcases replace_eq_append hFound with
    ⟨before, after, -, hBefore, hReplace⟩
  have hNone :
      before.find? (fun z => key z = key y) = none := by
    simpa using hBefore
  unfold find?
  simp [hReplace, List.find?_append, hNone]

/- Other keys do not notice a replacement. -/
theorem find?_replace_of_ne
    {k : κ}
    {y : α}
    (xs : List α)
    (hKey : k ≠ key y) :
    find? key k (replace key y xs) = find? key k xs := by
  induction xs with
  | nil => rfl
  | cons x xs ih =>
      unfold replace
      by_cases hSame : key x = key y
      · have hOther : ¬ key y = k := fun h => hKey h.symm
        simp [find?, hSame, hOther]
      · rw [if_neg hSame]
        unfold find? at ih ⊢
        rw [List.find?_cons, List.find?_cons, ih]

/- A replacement changes what is found under its key only. -/
theorem find?_replace
    {xs : List α}
    {x y : α}
    (hFound : find? key (key y) xs = some x)
    (k : κ) :
    find? key k (replace key y xs) =
      if k = key y then some y else find? key k xs := by
  by_cases hKey : k = key y
  · rw [if_pos hKey, hKey]
    exact find?_replace_self hFound
  · rw [if_neg hKey]
    exact find?_replace_of_ne xs hKey

/- Only the last of two replacements remains. -/
theorem replace_replace
    {y z : α}
    (xs : List α)
    (hKey : key y = key z) :
    replace key z (replace key y xs) =
      replace key z xs := by
  induction xs with
  | nil => rfl
  | cons x xs ih =>
      by_cases hSame : key x = key y
      · simp [replace, hSame, hKey]
      · have hOther : ¬ key x = key z := hKey ▸ hSame
        simp [replace, hSame, hOther, ih]

/- A replacement passes by a last record with another key. -/
theorem replace_append_singleton
    {y z : α}
    (xs : List α)
    (hKey : key z ≠ key y) :
    replace key y (xs ++ [z]) = replace key y xs ++ [z] := by
  induction xs with
  | nil => simp [replace, hKey]
  | cons x xs ih =>
      by_cases hSame : key x = key y
      · simp [replace, hSame]
      · simp [replace, hSame, ih]

/- Replacing a record by itself changes nothing. -/
theorem replace_eq_self
    {xs : List α}
    {x : α}
    (hFound : find? key (key x) xs = some x) :
    replace key x xs = xs := by
  rcases replace_eq_append hFound with
    ⟨before, after, hSplit, -, hReplace⟩
  rw [hReplace, ← hSplit]

------------------------------------------------------------
-- Amounts in Tables
------------------------------------------------------------

/-
  Replacing a record by one that counts more adds to what its
  key counts.
-/
theorem elim_find?_replace
    (f : α → Nat)
    {amount : Nat}
    {xs : List α}
    {x y : α}
    (hFound : find? key (key y) xs = some x)
    (hMore : f y = f x + amount)
    (k : κ) :
    (find? key k (replace key y xs)).elim 0 f =
      (find? key k xs).elim 0 f +
        if k = key y then amount else 0 := by
  rw [find?_replace hFound]
  by_cases hKey : k = key y
  · rw [if_pos hKey, if_pos hKey, hKey, hFound]
    exact hMore
  · rw [if_neg hKey, if_neg hKey, Nat.add_zero]

/- Appending a record with a new key adds what it counts. -/
theorem elim_find?_append_singleton
    (f : α → Nat)
    {xs : List α}
    {y : α}
    (hNew : key y ∉ xs.map key)
    (k : κ) :
    (find? key k (xs ++ [y])).elim 0 f =
      (find? key k xs).elim 0 f +
        if k = key y then f y else 0 := by
  rw [find?_append_singleton hNew]
  by_cases hKey : k = key y
  · rw [if_pos hKey, if_pos hKey, hKey,
      find?_eq_none_iff.mpr hNew]
    exact (Nat.zero_add _).symm
  · rw [if_neg hKey, if_neg hKey, Nat.add_zero]

------------------------------------------------------------
-- Sums over Tables
------------------------------------------------------------

/- A replacement changes a sum by the difference it makes. -/
theorem sum_map_replace
    (f : α → Nat)
    {xs : List α}
    {x y : α}
    (hFound : find? key (key y) xs = some x) :
    ((replace key y xs).map f).sum + f x =
      (xs.map f).sum + f y := by
  rcases replace_eq_append hFound with
    ⟨before, after, hSplit, -, hReplace⟩
  rw [hReplace, hSplit]
  simp only [List.map_append, List.map_cons,
    List.sum_append, List.sum_cons]
  omega

/- A record contributes at most the whole sum. -/
theorem le_sum_map
    (f : α → Nat)
    {xs : List α}
    {x : α}
    (hMem : x ∈ xs) :
    f x ≤ (xs.map f).sum :=
  List.le_sum_of_mem (List.mem_map_of_mem hMem)

/-
  Summing up what is found under distinct keys sums up the
  table, if the keys cover every record that contributes.
-/
theorem sum_map_find?
    (f : α → Nat)
    {xs : List α}
    {ks : List κ}
    (hXs : (xs.map key).Nodup)
    (hKs : ks.Nodup)
    (hCover : ∀ x ∈ xs, f x ≠ 0 → key x ∈ ks) :
    (ks.map fun k => (find? key k xs).elim 0 f).sum =
      (xs.map f).sum := by
  induction xs generalizing ks with
  | nil => simp [find?]
  | cons x xs ih =>
      rw [List.map_cons, List.nodup_cons] at hXs
      have hOther : ∀ y ∈ xs, key y ≠ key x := by
        intro y hy hEq
        exact hXs.1 (hEq ▸ List.mem_map_of_mem hy)
      by_cases hMem : key x ∈ ks
      · have hRest :
            ∀ k ∈ ks.erase (key x),
              find? key k (x :: xs) = find? key k xs := by
          intro k hk
          apply find?_cons_of_ne
          intro hSame
          subst hSame
          exact hKs.not_mem_erase hk
        have hErase :=
          ih hXs.2 (hKs.erase (key x)) (by
            intro y hy hNonzero
            rw [hKs.mem_erase_iff]
            exact
              ⟨hOther y hy,
                hCover y (List.mem_cons_of_mem x hy)
                  hNonzero⟩)
        rw [((List.perm_cons_erase hMem).map _).sum_eq,
          List.map_cons, List.sum_cons, List.map_cons,
          List.sum_cons, ← hErase,
          List.map_congr_left fun k hk => by
            rw [hRest k hk]]
        simp [find?]
      · have hZero : f x = 0 := by
          by_contra hNonzero
          exact hMem
            (hCover x List.mem_cons_self hNonzero)
        have hRest :
            ∀ k ∈ ks,
              find? key k (x :: xs) = find? key k xs := by
          intro k hk
          apply find?_cons_of_ne
          intro hSame
          subst hSame
          exact hMem hk
        rw [List.map_cons, List.sum_cons, hZero, Nat.zero_add,
          ← ih hXs.2 hKs fun y hy hNonzero =>
            hCover y (List.mem_cons_of_mem x hy) hNonzero,
          List.map_congr_left fun k hk => by
            rw [hRest k hk]]

end Table

end YieldManager

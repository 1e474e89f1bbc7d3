/-
  Tables are lists of records, looked up by a key that each
  record carries.  The first record with a key is the one
  that counts, for reading and for writing alike.

  Key definitions include:
    * `Table.find?`
    * `Table.replace`
    * `Table.distinct`
-/

------------------------------------------------------------
-- Look-up and Replacement
------------------------------------------------------------

namespace YieldManager

namespace Table

variable {α κ : Type} [DecidableEq κ]

/- The first record with the given key. -/
def find?
    (key : α → κ)
    (k : κ)
    (table : List α) : Option α :=
  table.find? fun x => key x = k

/- Put a record in the place of the first one with its key. -/
def replace
    (key : α → κ)
    (y : α) : List α → List α
  | [] => []
  | x :: xs =>
      if key x = key y then y :: xs
      else x :: replace key y xs

/-
  True when no key occurs twice in the list: each key but the
  last is compared with all the keys behind it.
-/
def distinct (ks : List κ) : Bool :=
  (List.range' 1 (ks.length - 1)).all fun i =>
    ks[i - 1]?.any fun k => !(ks.drop i).contains k

/- Replacing a record leaves the keys as they are. -/
theorem map_key_replace
    (key : α → κ)
    (y : α)
    (xs : List α) :
    (replace key y xs).map key = xs.map key := by
  induction xs with
  | nil => rfl
  | cons x xs ih =>
      unfold replace
      split
      · next hKey => simp [hKey]
      · simp [ih]

end Table

end YieldManager

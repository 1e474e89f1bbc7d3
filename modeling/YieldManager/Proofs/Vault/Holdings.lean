import YieldManager.Proofs.Action
import YieldManager.Proofs.FixedPoint
import YieldManager.Proofs.Table
import YieldManager.Vault.Shares

/-
  The holdings of a share vault.  Both deposits and
  withdrawals give one owner a new number of shares, opening
  a holding where there is none; this is one relation between
  vaults, of which everything else follows.

  Main declarations:
    * `ShareVault.owners`
    * `ShareVault.issued`
    * `ShareVault.IsConsistent`
    * `ShareVault.Reassigned`
    * `ShareVault.openHolding_eq_ok_iff`
    * `ShareVault.reassigned_of_openHolding`
    * `ShareVault.mem_owners_of_openHolding`
    * `ShareVault.sum_balanceOf`
-/

------------------------------------------------------------
-- Owners and Issued Shares
------------------------------------------------------------

namespace YieldManager

namespace ShareVault

variable {κ : Type}

/- The owners with a holding. -/
def owners (v : ShareVault κ) : List κ :=
  v.holdings.map Holding.owner

/- All shares that owners hold. -/
def issued (v : ShareVault κ) : Nat :=
  (v.holdings.map fun h => h.shares.toNat).sum

/-
  No owner has two holdings, and the supply counts the shares
  that owners hold.
-/
structure IsConsistent (v : ShareVault κ) : Prop where
  nodup : v.owners.Nodup
  issued : v.issued = v.supply.toNat

variable [DecidableEq κ]

/- A balance is what the look-up of the owner finds. -/
theorem toNat_balanceOf
    (v : ShareVault κ)
    (owner : κ) :
    (v.balanceOf owner).toNat =
      (Table.find? Holding.owner owner v.holdings).elim 0
        fun h => h.shares.toNat := by
  unfold balanceOf holding?
  cases Table.find? Holding.owner owner v.holdings <;> rfl

/- The balance of an owner with a holding is its shares. -/
theorem balanceOf_of_holding?
    {v : ShareVault κ}
    {owner : κ}
    {h : Holding κ}
    (hFound : v.holding? owner = some h) :
    v.balanceOf owner = h.shares := by
  unfold balanceOf
  rw [hFound]

/- Whoever has no holding has no shares. -/
theorem balanceOf_of_not_mem
    {v : ShareVault κ}
    {owner : κ}
    (hOwner : owner ∉ v.owners) :
    v.balanceOf owner = 0 := by
  unfold balanceOf holding?
  rw [Table.find?_eq_none_iff.mpr hOwner]

/- An owner with shares has a holding. -/
theorem mem_owners_of_pos
    {v : ShareVault κ}
    {owner : κ}
    (hShares : 0 < (v.balanceOf owner).toNat) :
    owner ∈ v.owners := by
  by_contra hNone
  rw [balanceOf_of_not_mem hNone] at hShares
  exact Nat.lt_irrefl 0 hShares

/- A balance is part of what is issued. -/
theorem balanceOf_le_issued
    (v : ShareVault κ)
    (owner : κ) :
    (v.balanceOf owner).toNat ≤ v.issued := by
  rw [toNat_balanceOf]
  cases hFound :
      Table.find? Holding.owner owner v.holdings with
  | none => exact Nat.zero_le _
  | some h =>
      exact Table.le_sum_map
        (fun h : Holding κ => h.shares.toNat)
        (Table.mem_of_find? hFound)

/-
  The balances of distinct keys add up to all shares, if the
  keys cover every owner who holds any.
-/
theorem sum_balanceOf
    {v : ShareVault κ}
    {keys : List κ}
    (hNodup : v.owners.Nodup)
    (hKeys : keys.Nodup)
    (hCover :
      ∀ h ∈ v.holdings, h.shares.toNat ≠ 0 →
        h.owner ∈ keys) :
    (keys.map fun k => (v.balanceOf k).toNat).sum =
      v.issued := by
  rw [List.map_congr_left fun k _ => toNat_balanceOf v k]
  exact
    Table.sum_map_find?
      (fun h : Holding κ => h.shares.toNat)
      hNodup hKeys hCover

------------------------------------------------------------
-- Reassigned Shares
------------------------------------------------------------

/-
  The second vault has the holdings of the first, but for one
  owner, who has the given shares.
-/
structure Reassigned
    (owner : κ)
    (shares : UInt64)
    (v w : ShareVault κ) : Prop where
  own : w.balanceOf owner = shares
  others : ∀ x, x ≠ owner → w.balanceOf x = v.balanceOf x
  owners : ∀ x ∈ w.owners, x ∈ v.owners ∨ x = owner
  kept : ∀ x ∈ v.owners, x ∈ w.owners
  nodup : v.owners.Nodup → w.owners.Nodup
  issued :
    w.issued + (v.balanceOf owner).toNat =
      v.issued + shares.toNat
  capacity :
    v.holdings.length ≤ capacity →
      w.holdings.length ≤ capacity

/- Opening a holding finds it, or appends an empty one. -/
theorem openHolding_eq_ok_iff
    {owner : κ}
    {v w : ShareVault κ}
    {h : Holding κ} :
    openHolding owner v = .ok h w ↔
      v.holding? owner = some h ∧ v = w ∨
        v.holding? owner = none ∧
          v.holdings.length < capacity ∧
          { owner := owner, shares := 0 } = h ∧
          { v with
            holdings :=
              v.holdings ++
                [{ owner := owner, shares := 0 }] } = w := by
  simp only [openHolding, Action.bind_eq_ok_iff,
    Action.get_eq_ok_iff]
  cases hFound : v.holding? owner with
  | some g =>
      constructor
      · intro hSteps
        rcases hSteps with ⟨_, _, ⟨rfl, rfl⟩, hRun⟩
        simpa [hFound] using hRun
      · intro hEq
        exact
          ⟨v, v, ⟨rfl, rfl⟩, by simpa [hFound] using hEq⟩
  | none =>
      constructor
      · intro hSteps
        rcases hSteps with ⟨_, _, ⟨rfl, rfl⟩, hRun⟩
        simpa [hFound, and_comm, and_assoc] using hRun
      · intro hEq
        refine ⟨v, v, ⟨rfl, rfl⟩, ?_⟩
        simpa [hFound, and_comm, and_assoc] using hEq

/- Setting the shares of a holding reassigns its owner. -/
private theorem reassigned_setHolding
    {v : ShareVault κ}
    {h : Holding κ}
    (new : Holding κ)
    (hFound : v.holding? new.owner = some h) :
    Reassigned new.owner new.shares v (v.setHolding new) := by
  have hKeys : (v.setHolding new).owners = v.owners :=
    Table.map_key_replace Holding.owner new v.holdings
  refine
    { own := ?_, others := ?_, owners := ?_, kept := ?_,
      nodup := ?_, issued := ?_, capacity := ?_ }
  · exact
      balanceOf_of_holding? (Table.find?_replace_self hFound)
  · intro x hx
    unfold balanceOf holding? setHolding
    rw [Table.find?_replace_of_ne v.holdings hx]
  · intro x hx
    exact Or.inl (hKeys ▸ hx)
  · intro x hx
    exact hKeys.symm ▸ hx
  · intro hNodup
    rwa [hKeys]
  · rw [balanceOf_of_holding? hFound]
    exact
      Table.sum_map_replace
        (fun h : Holding κ => h.shares.toNat) hFound
  · intro hLength
    have hSame :=
      congrArg List.length hKeys
    simp only [ShareVault.owners, List.length_map] at hSame
    omega

/- An empty holding adds an owner without shares. -/
private theorem reassigned_append
    {owner : κ}
    {v : ShareVault κ}
    (hNone : v.holding? owner = none)
    (hRoom : v.holdings.length < capacity) :
    Reassigned owner 0 v
      { v with
        holdings :=
          v.holdings ++
            [{ owner := owner, shares := 0 }] } := by
  have hNew : owner ∉ v.owners :=
    Table.find?_eq_none_iff.mp hNone
  have hLookUp :
      ∀ k,
        Table.find? Holding.owner k
            (v.holdings ++
              [{ owner := owner, shares := 0 }]) =
          if k = owner then
            some { owner := owner, shares := 0 }
          else
            Table.find? Holding.owner k v.holdings :=
    Table.find?_append_singleton hNew
  refine
    { own := ?_, others := ?_, owners := ?_, kept := ?_,
      nodup := ?_, issued := ?_, capacity := ?_ }
  · unfold balanceOf holding?
    simp only
    rw [hLookUp, if_pos rfl]
  · intro x hx
    unfold balanceOf holding?
    simp only
    rw [hLookUp, if_neg hx]
  · intro x hx
    simpa [ShareVault.owners] using hx
  · intro x hx
    have hOld : x ∈ v.owners ∨ x = owner := Or.inl hx
    simpa [ShareVault.owners] using hOld
  · intro hNodup
    simp only [ShareVault.owners, List.map_append,
      List.map_cons, List.map_nil]
    rw [List.nodup_append]
    refine ⟨hNodup, by simp, ?_⟩
    intro a ha b hb hab
    have hEq : b = owner := by simpa using hb
    exact hNew (hEq ▸ hab ▸ ha)
  · rw [balanceOf_of_not_mem hNew]
    simp [ShareVault.issued]
  · intro hLength
    simp only [List.length_append, List.length_singleton]
    omega

/- Every owner has the shares that it has. -/
theorem Reassigned.refl
    (v : ShareVault κ)
    (owner : κ) :
    Reassigned owner (v.balanceOf owner) v v where
  own := rfl
  others _ _ := rfl
  owners _ hx := Or.inl hx
  kept _ hx := hx
  nodup hNodup := hNodup
  issued := rfl
  capacity hLength := hLength

/- The last of two reassignments of one owner counts. -/
theorem Reassigned.trans
    {owner : κ}
    {first second : UInt64}
    {u v w : ShareVault κ}
    (hFirst : Reassigned owner first u v)
    (hSecond : Reassigned owner second v w) :
    Reassigned owner second u w := by
  refine
    { own := hSecond.own, others := ?_, owners := ?_,
      kept := ?_, nodup := ?_, issued := ?_,
      capacity := ?_ }
  · intro x hx
    exact (hSecond.others x hx).trans (hFirst.others x hx)
  · intro x hx
    rcases hSecond.owners x hx with hMiddle | rfl
    · exact hFirst.owners x hMiddle
    · exact Or.inr rfl
  · intro x hx
    exact hSecond.kept x (hFirst.kept x hx)
  · exact fun hNodup => hSecond.nodup (hFirst.nodup hNodup)
  · have hOne := hFirst.issued
    have hTwo := hSecond.issued
    rw [hFirst.own] at hTwo
    omega
  · exact fun hLength =>
      hSecond.capacity (hFirst.capacity hLength)

/-
  Opening a holding and then setting its shares reassigns the
  owner; the holding as opened has the owner's balance.
-/
theorem reassigned_of_openHolding
    {owner : κ}
    {v v₁ : ShareVault κ}
    {h : Holding κ}
    (hOpen : openHolding owner v = .ok h v₁)
    (shares : UInt64) :
    h.shares = v.balanceOf owner ∧
      Reassigned owner shares v
        (v₁.setHolding { h with shares := shares }) := by
  rcases openHolding_eq_ok_iff.mp hOpen with
    ⟨hFound, rfl⟩ | ⟨hNone, hRoom, rfl, rfl⟩
  · have hOwner : h.owner = owner := Table.key_of_find? hFound
    subst hOwner
    exact
      ⟨(balanceOf_of_holding? hFound).symm,
        reassigned_setHolding { h with shares := shares }
          hFound⟩
  · have hNew : owner ∉ v.owners :=
      Table.find?_eq_none_iff.mp hNone
    refine ⟨(balanceOf_of_not_mem hNew).symm, ?_⟩
    apply (reassigned_append hNone hRoom).trans
    apply reassigned_setHolding
      { owner := owner, shares := shares }
      (h := { owner := owner, shares := 0 })
    unfold holding?
    simp only
    rw [Table.find?_append_singleton hNew, if_pos rfl]

/- Setting the shares of a holding leaves its owner listed. -/
theorem mem_owners_of_openHolding
    {owner : κ}
    {v v₁ : ShareVault κ}
    {h : Holding κ}
    (hOpen : openHolding owner v = .ok h v₁)
    (new : Holding κ) :
    owner ∈ (v₁.setHolding new).owners := by
  have hKeys : (v₁.setHolding new).owners = v₁.owners :=
    Table.map_key_replace Holding.owner new v₁.holdings
  rw [hKeys]
  rcases openHolding_eq_ok_iff.mp hOpen with
    ⟨hFound, rfl⟩ | ⟨-, -, rfl, rfl⟩
  · rw [← Table.key_of_find? hFound]
    exact List.mem_map_of_mem (Table.mem_of_find? hFound)
  · simp [owners]

end ShareVault

end YieldManager

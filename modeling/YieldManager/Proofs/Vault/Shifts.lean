import YieldManager.Proofs.Vault.Par

/-
  What one owner's dealings do to a vault at par: its shares
  change, and the assets and the supply change with them.  Two
  owners' dealings can change places; afterwards only the
  order of the holdings can tell which came first.

  Main declarations:
    * `ShareVault.mem_holdings_iff`
    * `ShareVault.Shifted`
    * `ShareVault.Shifted.accepts`
    * `ShareVault.IsPar.shifted_of_deposited`
    * `ShareVault.IsPar.shifted_of_withdrawn`
    * `ShareVault.Alike`
    * `ShareVault.Shifted.alike`
-/

------------------------------------------------------------
-- Holdings as a Set
------------------------------------------------------------

namespace YieldManager

namespace ShareVault

variable {κ : Type} [DecidableEq κ]
variable {owner : κ}
variable {v w : ShareVault κ}

/- The holdings are the owners' balances. -/
theorem mem_holdings_iff
    {h : Holding κ}
    (hNodup : v.owners.Nodup) :
    h ∈ v.holdings ↔
      h.owner ∈ v.owners ∧
        v.balanceOf h.owner = h.shares := by
  have hLookUp :
      v.holding? h.owner = some h ↔ h ∈ v.holdings := by
    unfold holding?
    rw [Table.find?_eq_some_iff hNodup]
    exact and_iff_left rfl
  rw [← hLookUp]
  constructor
  · intro hFound
    exact
      ⟨List.mem_map_of_mem (hLookUp.mp hFound),
        balanceOf_of_holding? hFound⟩
  · intro hSteps
    rcases hSteps with ⟨hOwner, hShares⟩
    rcases Table.exists_find? hOwner with ⟨g, hFound⟩
    have hSame : g.owner = h.owner :=
      Table.key_of_find? hFound
    have hBalance : v.balanceOf h.owner = g.shares :=
      balanceOf_of_holding? hFound
    have hEq : g = h := by
      cases g
      cases h
      simp_all
    rw [← hEq] at hFound ⊢
    exact hFound

------------------------------------------------------------
-- Shifts
------------------------------------------------------------

/-
  The vault after one owner's dealings at par: the assets and
  the supply have changed by as much as the owner's shares,
  and a fee was set aside.  An owner that gained shares has a
  holding.
-/
structure Shifted
    (owner : κ)
    (change : Int)
    (fee : Nat)
    (v w : ShareVault κ) : Prop where
  terms : SameTerms v w
  assets : (w.assets.toNat : Int) = v.assets.toNat + change
  supply : (w.supply.toNat : Int) = v.supply.toNat + change
  fees : w.fees.toNat = v.fees.toNat + fee
  own :
    ((w.balanceOf owner).toNat : Int) =
      (v.balanceOf owner).toNat + change
  reassigned : Reassigned owner (w.balanceOf owner) v w
  opened : owner ∈ w.owners ↔ owner ∈ v.owners ∨ 0 < change

namespace Shifted

/- Nothing has been done to a vault that is what it was. -/
theorem refl
    (v : ShareVault κ)
    (owner : κ) :
    Shifted owner 0 0 v v where
  terms := SameTerms.refl v
  assets := (Int.add_zero _).symm
  supply := (Int.add_zero _).symm
  fees := rfl
  own := (Int.add_zero _).symm
  reassigned := Reassigned.refl v owner
  opened := by simp

variable {change : Int} {fee : Nat}

/- Dealings at par keep a vault at par. -/
theorem isPar
    (hShifted : Shifted owner change fee v w)
    (hPar : v.IsPar) :
    w.IsPar := by
  have hIssued := hShifted.reassigned.issued
  have hOwn := hShifted.own
  have hSupply := hShifted.supply
  have hAssets := hShifted.assets
  have hBefore := hPar.issued
  refine
    { nodup := hShifted.reassigned.nodup hPar.nodup
      issued := by omega
      par := ?_ }
  rw [hPar.par] at hAssets
  rw [← UInt64.toNat_inj]
  omega

/- Dealings with one owner open no holding of another. -/
theorem mem_owners_iff
    (hShifted : Shifted owner change fee v w)
    (x : κ) :
    x ∈ w.owners ↔
      x ∈ v.owners ∨ x = owner ∧ 0 < change := by
  by_cases hOwner : x = owner
  · subst hOwner
    rw [hShifted.opened, and_iff_right rfl]
  · constructor
    · intro hAfter
      rcases hShifted.reassigned.owners x hAfter with
        hBefore | hSame
      · exact .inl hBefore
      · exact absurd hSame hOwner
    · intro hBefore
      rcases hBefore with hBefore | ⟨hSame, -⟩
      · exact hShifted.reassigned.kept x hBefore
      · exact absurd hSame hOwner

/- The balances after the dealings of one owner. -/
theorem toNat_balanceOf
    (hShifted : Shifted owner change fee v w)
    (x : κ) :
    ((w.balanceOf x).toNat : Int) =
      (v.balanceOf x).toNat +
        if x = owner then change else 0 := by
  by_cases hOwner : x = owner
  · rw [if_pos hOwner, hOwner]
    exact hShifted.own
  · rw [if_neg hOwner, hShifted.reassigned.others x hOwner,
      Int.add_zero]

/-
  A vault that has taken a part of what it accepts accepts the
  rest, and the owner has its holding by now.
-/
theorem accepts
    {net limit rest : Nat}
    (hShifted : Shifted owner net fee v w)
    (hAccepts : Accepts owner limit v)
    (hSome : 0 < net)
    (hRest : rest + (net + fee) ≤ limit) :
    Accepts owner rest w := by
  have hAssets := hShifted.assets
  have hFees := hShifted.fees
  have hAssetsFit := hAccepts.assets
  have hFeesFit := hAccepts.fees
  refine
    { fee := ?_, assets := by omega, fees := by omega
      room := .inl (hShifted.opened.mpr (.inr ?_)) }
  · rw [hShifted.terms.feeBps]
    exact hAccepts.fee
  · exact Int.natCast_pos.mpr hSome

end Shifted

------------------------------------------------------------
-- Dealings at Par
------------------------------------------------------------

namespace IsPar

/- A deposit at par gains its net amount in shares. -/
theorem shifted_of_deposited
    {fee net shares : UInt64}
    (hPar : v.IsPar)
    (hShares : v.toShares net = .ok shares)
    (hSome : 0 < shares)
    (hDeposit : Deposited owner fee net shares v w) :
    Shifted owner net.toNat fee.toNat v w := by
  rcases hPar.deposited hShares hDeposit with ⟨rfl, -⟩
  have hGain := hDeposit.gain
  have hAssets := hDeposit.assets
  have hSupply := hDeposit.supply
  have hPos := UInt64.lt_iff_toNat_lt.mp hSome
  rw [UInt64.toNat_zero] at hPos
  refine
    { terms := hDeposit.terms
      assets := by omega
      supply := by omega
      fees := hDeposit.fees
      own := by omega
      reassigned := hDeposit.reassigned
      opened := ?_ }
  have hOwner : owner ∈ w.owners :=
    mem_owners_of_pos (by omega)
  exact iff_of_true hOwner (.inr (by omega))

/- A withdrawal at par costs its amount in shares. -/
theorem shifted_of_withdrawn
    {amount shares : UInt64}
    (hPar : v.IsPar)
    (hShares : v.sharesFor amount = .ok shares)
    (hSome : w.balanceOf owner < v.balanceOf owner)
    (hWithdrawal : Withdrawn owner amount shares v w) :
    Shifted owner (-amount.toNat) 0 v w := by
  rcases hPar.withdrawn hShares hWithdrawal with ⟨rfl, -⟩
  have hLoss := hWithdrawal.loss
  have hAssets := hWithdrawal.assets
  have hSupply := hWithdrawal.supply
  have hLess := UInt64.lt_iff_toNat_lt.mp hSome
  refine
    { terms := hWithdrawal.terms
      assets := by omega
      supply := by omega
      fees := congrArg UInt64.toNat hWithdrawal.fees
      own := by omega
      reassigned := hWithdrawal.reassigned
      opened := ?_ }
  have hOwner : owner ∈ v.owners :=
    mem_owners_of_pos (by omega)
  exact
    iff_of_true (hWithdrawal.reassigned.kept owner hOwner)
      (.inl hOwner)

end IsPar

------------------------------------------------------------
-- Two Owners
------------------------------------------------------------

/- Vaults that differ in the order of their holdings only. -/
structure Alike (v w : ShareVault κ) : Prop where
  terms : SameTerms v w
  assets : v.assets = w.assets
  supply : v.supply = w.supply
  fees : v.fees = w.fees
  balances : ∀ x, v.balanceOf x = w.balanceOf x
  holdings : v.holdings.Perm w.holdings

/-
  The dealings of two owners can change places: what either
  does to the vault, it does before and after the other.
-/
theorem Shifted.alike
    {first second : κ}
    {change₁ change₂ : Int}
    {fee₁ fee₂ : Nat}
    {v₁ v₂ w₁ w₂ : ShareVault κ}
    (hNodup : v.owners.Nodup)
    (hFirst : Shifted first change₁ fee₁ v v₁)
    (hThen : Shifted second change₂ fee₂ v₁ w₁)
    (hSecond : Shifted second change₂ fee₂ v v₂)
    (hLast : Shifted first change₁ fee₁ v₂ w₂) :
    Alike w₁ w₂ := by
  have hBalances :
      ∀ x, w₁.balanceOf x = w₂.balanceOf x := by
    intro x
    have hOne := hThen.toNat_balanceOf x
    have hTwo := hLast.toNat_balanceOf x
    rw [hFirst.toNat_balanceOf x] at hOne
    rw [hSecond.toNat_balanceOf x] at hTwo
    rw [← UInt64.toNat_inj]
    omega
  have hOwners : ∀ x, x ∈ w₁.owners ↔ x ∈ w₂.owners := by
    intro x
    rw [hThen.mem_owners_iff, hFirst.mem_owners_iff,
      hLast.mem_owners_iff, hSecond.mem_owners_iff,
      or_right_comm]
  have hNodup₁ :=
    hThen.reassigned.nodup (hFirst.reassigned.nodup hNodup)
  have hNodup₂ :=
    hLast.reassigned.nodup (hSecond.reassigned.nodup hNodup)
  refine
    { terms := ?_, assets := ?_, supply := ?_, fees := ?_,
      balances := hBalances, holdings := ?_ }
  · have hOne := hFirst.terms.trans hThen.terms
    have hTwo := hSecond.terms.trans hLast.terms
    exact
      ⟨hTwo.asset.trans hOne.asset.symm,
        hTwo.authority.trans hOne.authority.symm,
        hTwo.feeBps.trans hOne.feeBps.symm,
        hTwo.bump.trans hOne.bump.symm⟩
  · have hOne := hThen.assets
    have hTwo := hLast.assets
    rw [hFirst.assets] at hOne
    rw [hSecond.assets] at hTwo
    rw [← UInt64.toNat_inj]
    omega
  · have hOne := hThen.supply
    have hTwo := hLast.supply
    rw [hFirst.supply] at hOne
    rw [hSecond.supply] at hTwo
    rw [← UInt64.toNat_inj]
    omega
  · have hOne := hThen.fees
    have hTwo := hLast.fees
    rw [hFirst.fees] at hOne
    rw [hSecond.fees] at hTwo
    rw [← UInt64.toNat_inj]
    omega
  · rw [List.perm_ext_iff_of_nodup (hNodup₁.of_map _)
      (hNodup₂.of_map _)]
    intro h
    rw [mem_holdings_iff hNodup₁, mem_holdings_iff hNodup₂,
      hOwners, hBalances]

end ShareVault

end YieldManager

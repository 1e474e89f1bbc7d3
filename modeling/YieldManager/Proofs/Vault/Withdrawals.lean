import YieldManager.Proofs.Vault.Price

/-
  How much an owner can withdraw, at any share price.  Shares
  are valued rounded down and burned rounded up, and the two
  meet: an owner has the shares for an amount if and only if
  the amount is within the value of its shares.  So all of
  that value can be withdrawn, and not one unit more.

  Main declarations:
    * `ShareVault.exists_sharesFor_of_le`
    * `ShareVault.pos_of_sharesFor`
    * `ShareVault.IsConsistent.sharesFor_le_iff`
    * `ShareVault.IsConsistent.withdraw_succeeds_iff`
    * `ShareVault.IsConsistent.error_of_withdraw`
    * `ShareVault.withdrawals_up_to_worth`
-/

------------------------------------------------------------
-- The Shares for an Amount
------------------------------------------------------------

namespace YieldManager

namespace ShareVault

section Shares

variable {κ : Type} {v : ShareVault κ}
variable {amount shares : UInt64}

/- A vault without shares or without assets has no price. -/
private theorem unpriced_or_pos (v : ShareVault κ) :
    (v.supply = 0 ∨ v.assets = 0) ∨
      0 < v.supply.toNat ∧ 0 < v.assets.toNat := by
  simp only [← UInt64.toNat_inj, UInt64.toNat_zero]
  omega

/- Without a price, shares are burned one for one. -/
theorem sharesFor_of_unpriced
    (hUnpriced : v.supply = 0 ∨ v.assets = 0)
    (amount : UInt64) :
    v.sharesFor amount = .ok amount :=
  if_pos hUnpriced

/- The shares for what a vault has are part of its supply. -/
theorem exists_sharesFor_of_le
    (hCovered : amount ≤ v.assets) :
    ∃ shares, v.sharesFor amount = .ok shares := by
  have hLe := UInt64.le_iff_toNat_le.mp hCovered
  rcases unpriced_or_pos v with
    hUnpriced | ⟨hSupply, hAssets⟩
  · exact ⟨amount, sharesFor_of_unpriced hUnpriced amount⟩
  · have hPart :
        amount.toNat * v.supply.toNat ≤
          v.supply.toNat * v.assets.toNat := by
      rw [Nat.mul_comm v.supply.toNat]
      exact Nat.mul_le_mul_right _ hLe
    rcases exists_sharesFor hSupply hAssets hPart with
      ⟨shares, hShares, -⟩
    exact ⟨shares, hShares⟩

/- Nothing is released for free. -/
theorem pos_of_sharesFor
    (hAmount : 0 < amount)
    (hShares : v.sharesFor amount = .ok shares) :
    0 < shares := by
  rcases unpriced_or_pos v with
    hUnpriced | ⟨hSupply, hAssets⟩
  · rw [sharesFor_of_unpriced hUnpriced] at hShares
    cases hShares
    exact hAmount
  · have hSome := UInt64.lt_iff_toNat_lt.mp hAmount
    rw [UInt64.lt_iff_toNat_lt]
    apply (ceiling_of_sharesFor hSupply hAssets hShares).pos
    exact Nat.mul_pos hSome hSupply

end Shares

------------------------------------------------------------
-- Withdrawals That Succeed
------------------------------------------------------------

variable {κ : Type} [DecidableEq κ]
variable {owner : κ} {v w : ShareVault κ}
variable {amount shares value : UInt64}

namespace IsConsistent

/-
  An owner has the shares for an amount exactly when its
  shares are worth the amount.
-/
theorem sharesFor_le_iff
    (hVault : v.IsConsistent)
    (hAmount : 0 < amount)
    (hCovered : amount ≤ v.assets)
    (hShares : v.sharesFor amount = .ok shares)
    (hValue : YieldVault.worth v owner = .ok value) :
    shares ≤ v.balanceOf owner ↔ amount ≤ value := by
  have hSome := UInt64.lt_iff_toNat_lt.mp hAmount
  have hLe := UInt64.le_iff_toNat_le.mp hCovered
  rw [hVault.worth_eq_ok_iff] at hValue
  simp only [UInt64.le_iff_toNat_le, hValue]
  rcases unpriced_or_pos v with
    hUnpriced | ⟨hSupply, hAssets⟩
  · -- There are assets to cover the amount, but no shares.
    rw [sharesFor_of_unpriced hUnpriced] at hShares
    cases hShares
    have hOwned :=
      UInt64.le_iff_toNat_le.mp
        (hVault.balanceOf_le_supply owner)
    simp only [← UInt64.toNat_inj, UInt64.toNat_zero]
      at hUnpriced hSome
    have hNone : v.supply.toNat = 0 := by omega
    rw [hNone, Nat.div_zero]
    omega
  · rw [Nat.le_div_iff_mul_le hSupply]
    exact
      (ceiling_of_sharesFor hSupply hAssets hShares).le_iff

/- An owner can withdraw up to the value of its shares. -/
theorem withdraw_succeeds_iff
    (hVault : v.IsConsistent)
    (hAmount : 0 < amount)
    (hValue : YieldVault.worth v owner = .ok value) :
    (∃ received w,
        withdraw owner amount v = .ok received w) ↔
      amount ≤ value := by
  constructor
  · intro hRuns
    rcases hRuns with ⟨received, w, hRun⟩
    rcases withdrawn_of_withdraw hRun with
      ⟨-, shares, hShares, hWithdrawn⟩
    have hAssets := hWithdrawn.assets
    have hLoss := hWithdrawn.loss
    have hCovered : amount ≤ v.assets := by
      rw [UInt64.le_iff_toNat_le]
      omega
    apply
      (hVault.sharesFor_le_iff hAmount hCovered hShares
        hValue).mp
    rw [UInt64.le_iff_toNat_le]
    omega
  · intro hWithin
    have hCovered : amount ≤ v.assets :=
      UInt64.le_trans hWithin (hVault.worth_le_assets hValue)
    rcases exists_sharesFor_of_le hCovered with
      ⟨shares, hShares⟩
    have hOwned : shares ≤ v.balanceOf owner :=
      (hVault.sharesFor_le_iff hAmount hCovered hShares
        hValue).mpr hWithin
    have hSome : 0 < v.balanceOf owner :=
      UInt64.lt_of_lt_of_le
        (pos_of_sharesFor hAmount hShares) hOwned
    have hOwner : owner ∈ v.owners :=
      mem_owners_of_pos (UInt64.lt_iff_toNat_lt.mp hSome)
    have hSupply :=
      UInt64.le_trans hOwned
        (hVault.balanceOf_le_supply owner)
    exact
      ⟨amount,
        exists_withdraw hCovered hShares hOwned hSupply
          (.inl hOwner)⟩

end IsConsistent

------------------------------------------------------------
-- Withdrawals That Are Refused
------------------------------------------------------------

/- More than the vault has is refused first. -/
private theorem withdraw_of_short
    (hShort : v.assets < amount) :
    withdraw owner amount v =
      .error .insufficientVaultLiquidity v := by
  have hRefused :
      require (amount ≤ v.assets)
          .insufficientVaultLiquidity =
        .error .insufficientVaultLiquidity :=
    if_neg (UInt64.not_le.mpr hShort)
  unfold withdraw
  rw [Action.get_bind_eq]
  exact
    Action.bind_of_error
      (Action.lift_eq_error_iff.mpr ⟨hRefused, rfl⟩)

/- More shares than the owner has are refused then. -/
private theorem withdraw_of_unowned
    (hCovered : amount ≤ v.assets)
    (hShares : v.sharesFor amount = .ok shares)
    (hMore : v.balanceOf owner < shares) :
    withdraw owner amount v =
      .error .insufficientShares v := by
  have hPassed :
      require (amount ≤ v.assets)
          .insufficientVaultLiquidity = .ok () :=
    require_eq_ok_iff.mpr hCovered
  have hRefused :
      require (shares ≤ v.balanceOf owner)
          .insufficientShares =
        .error .insufficientShares :=
    if_neg (UInt64.not_le.mpr hMore)
  unfold withdraw
  rw [Action.get_bind_eq, Action.lift_bind_eq hPassed,
    Action.lift_bind_eq hShares]
  exact
    Action.bind_of_error
      (Action.lift_eq_error_iff.mpr ⟨hRefused, rfl⟩)

/-
  A withdrawal of something is refused because the vault has
  less than the amount, or else because the owner has fewer
  shares than it costs.
-/
theorem IsConsistent.error_of_withdraw
    {e : Error}
    (hVault : v.IsConsistent)
    (hAmount : 0 < amount)
    (hRun : withdraw owner amount v = .error e w) :
    e =
      if v.assets < amount then .insufficientVaultLiquidity
      else .insufficientShares := by
  by_cases hShort : v.assets < amount
  · rw [if_pos hShort]
    rw [withdraw_of_short hShort] at hRun
    cases hRun
    rfl
  · rw [if_neg hShort]
    have hCovered := UInt64.not_lt.mp hShort
    rcases exists_sharesFor_of_le hCovered with
      ⟨shares, hShares⟩
    by_cases hOwned : shares ≤ v.balanceOf owner
    · -- With enough shares, the withdrawal would succeed.
      rcases hVault.exists_worth owner with ⟨value, hValue⟩
      have hWithin :=
        (hVault.sharesFor_le_iff hAmount hCovered hShares
          hValue).mp hOwned
      rcases (hVault.withdraw_succeeds_iff hAmount
          hValue).mpr hWithin with
        ⟨received, u, hSucceeds⟩
      rw [hSucceeds] at hRun
      cases hRun
    · rw [withdraw_of_unowned hCovered hShares
        (UInt64.not_le.mp hOwned)] at hRun
      cases hRun
      rfl

------------------------------------------------------------
-- Withdrawals Decided
------------------------------------------------------------

/-
  A withdrawal of something succeeds if and only if the
  owner's shares are worth the amount.  Then the shares for
  the amount, at least one, are burned, and just the amount is
  delivered.  Otherwise the error tells whether the vault or
  the owner is short.
-/
theorem withdrawals_up_to_worth
    (hVault : v.IsConsistent)
    (hAmount : 0 < amount)
    (owner : κ) :
    ∃ value,
      v.toAssets (v.balanceOf owner) = .ok value ∧
        ((∃ received w,
            withdraw owner amount v = .ok received w) ↔
          amount ≤ value) ∧
        (∀ e w,
          withdraw owner amount v = .error e w →
            e =
              if v.assets < amount then
                .insufficientVaultLiquidity
              else
                .insufficientShares) ∧
        ∀ received w,
          withdraw owner amount v = .ok received w →
            received = amount ∧
              ∃ shares,
                v.sharesFor amount = .ok shares ∧
                  0 < shares ∧
                  Withdrawn owner amount shares v w := by
  rcases hVault.exists_worth owner with ⟨value, hValue⟩
  refine
    ⟨value, hValue,
      hVault.withdraw_succeeds_iff hAmount hValue, ?_, ?_⟩
  · intro e w hRun
    exact hVault.error_of_withdraw hAmount hRun
  · intro received w hRun
    rcases withdrawn_of_withdraw hRun with
      ⟨hReceived, shares, hShares, hWithdrawn⟩
    exact
      ⟨hReceived, shares, hShares,
        pos_of_sharesFor hAmount hShares, hWithdrawn⟩

/- A vault whose 10 shares are worth 3.1 each. -/
def unevenVault : ShareVault Nat where
  asset := 2
  authority := 7
  assets := 31
  supply := 10
  feeBps := 0
  fees := 0
  holdings :=
    [{ owner := 8, shares := 3 }, { owner := 9, shares := 7 }]
  bump := 0

/-
  Three of the shares are worth 9, which can be withdrawn for
  them.  One more costs a fourth share.
-/
theorem withdrawals_up_to_worth_unevenVault :
    (∃ received w,
        withdraw 8 9 unevenVault = .ok received w) ∧
      ¬ (∃ received w,
          withdraw 8 10 unevenVault = .ok received w) ∧
      (∀ e w,
        withdraw 8 10 unevenVault = .error e w →
          e = .insufficientShares) ∧
      ∀ e w,
        withdraw 8 32 unevenVault = .error e w →
          e = .insufficientVaultLiquidity := by
  have hVault : unevenVault.IsConsistent :=
    ⟨by decide, by decide⟩
  have hWorth :
      unevenVault.toAssets (unevenVault.balanceOf 8) =
        .ok 9 :=
    rfl
  rcases withdrawals_up_to_worth hVault
      (show (0 : UInt64) < 9 by decide) 8 with
    ⟨value, hValue, hAll, -, -⟩
  rcases withdrawals_up_to_worth hVault
      (show (0 : UInt64) < 10 by decide) 8 with
    ⟨value', hValue', hMore, hRefused, -⟩
  rcases withdrawals_up_to_worth hVault
      (show (0 : UInt64) < 32 by decide) 8 with
    ⟨_, -, -, hShort, -⟩
  rw [hWorth, Except.ok.injEq] at hValue hValue'
  subst hValue hValue'
  exact
    ⟨hAll.mpr (by decide), fun hRuns => by
      exact absurd (hMore.mp hRuns) (by decide),
      hRefused, hShort⟩

end ShareVault

end YieldManager

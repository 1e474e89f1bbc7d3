import YieldManager.Proofs.History
import YieldManager.Proofs.Vault.Dealings

/-
  The solvency of a vault.  Whatever a new vault sees, it can
  keep its promises: there are at least as many assets as
  shares, so no price is out of range, and all holdings
  together are worth no more than the assets.  The books
  balance as well, with what was paid in, paid out and earned.

  Main declarations:
    * `Price.sum_div_le`
    * `ShareVault.Solvent`
    * `ShareVault.Solvent.exists_toShares`
    * `ShareVault.Solvent.exists_sharesFor`
    * `ShareVault.Solvent.exists_worths`
    * `ShareVault.Solvent.dealt`
    * `ShareVault.balanced_of_action`
    * `ShareVault.Solvent.balanced`
    * `ShareVault.solvent_of_dealings`
-/

------------------------------------------------------------
-- Solvent Vaults
------------------------------------------------------------

namespace YieldManager

/- Parts that are rounded down do not exceed the whole. -/
theorem Price.sum_div_le
    {α : Type}
    (part : α → Nat)
    (assets supply : Nat)
    (xs : List α) :
    (xs.map fun x => part x * assets / supply).sum ≤
      (xs.map part).sum * assets / supply := by
  induction xs with
  | nil => exact Nat.zero_le _
  | cons x xs ih =>
      simp only [List.map_cons, List.sum_cons, Nat.add_mul]
      exact
        (Nat.add_le_add_left ih _).trans
          (Nat.div_add_div_le_add_div)

namespace ShareVault

variable {κ : Type}

/-
  A vault whose shares are all accounted for, and which has no
  more shares than assets.
-/
structure Solvent (v : ShareVault κ) : Prop where
  consistent : v.IsConsistent
  room : v.holdings.length ≤ capacity
  backed : v.supply ≤ v.assets

/- A vault that nobody has dealt with yet. -/
structure IsNew (v : ShareVault κ) : Prop where
  assets : v.assets = 0
  supply : v.supply = 0
  fees : v.fees = 0
  holdings : v.holdings = []

/- A new vault owes nothing. -/
theorem IsNew.solvent
    {v : ShareVault κ}
    (hNew : v.IsNew) :
    v.Solvent where
  consistent := by
    constructor
    · unfold owners
      rw [hNew.holdings]
      exact List.nodup_nil
    · unfold issued
      rw [hNew.holdings, hNew.supply]
      rfl
  room := by
    rw [hNew.holdings]
    exact Nat.zero_le _
  backed := by
    rw [hNew.supply]
    exact UInt64.zero_le

namespace Solvent

variable {v w : ShareVault κ}

/- A part of an amount, at a price of at least one asset. -/
private theorem mul_supply_le
    (hVault : v.Solvent)
    (amount : UInt64) :
    amount.toNat * v.supply.toNat ≤
      amount.toNat * v.assets.toNat :=
  Nat.mul_le_mul_left _
    (UInt64.le_iff_toNat_le.mp hVault.backed)

/- Every amount buys shares, and not more than one for one. -/
theorem exists_toShares
    (hVault : v.Solvent)
    (amount : UInt64) :
    ∃ shares,
      v.toShares amount = .ok shares ∧ shares ≤ amount := by
  unfold toShares
  split
  · exact ⟨amount, rfl, UInt64.le_refl _⟩
  · next hPriced =>
      have hPart :
          amount.toNat * v.supply.toNat / v.assets.toNat ≤
            amount.toNat := by
        apply Nat.div_le_of_le_mul
        rw [Nat.mul_comm v.assets.toNat]
        exact hVault.mul_supply_le amount
      rcases FixedPoint.exists_toNat_eq
          (Nat.lt_of_le_of_lt hPart
            amount.toNat_lt_size) with
        ⟨shares, hNat⟩
      refine ⟨shares, ?_, ?_⟩
      · rw [FixedPoint.mulDivDown_eq_ok_iff]
        exact ⟨fun hZero => hPriced (.inr hZero), hNat⟩
      · rw [UInt64.le_iff_toNat_le, hNat]
        exact hPart

/- Every amount has a price in shares, at most one for one. -/
theorem exists_sharesFor
    (hVault : v.Solvent)
    (amount : UInt64) :
    ∃ shares,
      v.sharesFor amount = .ok shares ∧ shares ≤ amount := by
  rcases Nat.eq_zero_or_pos v.supply.toNat with
    hNone | hSupply
  · have hZero : v.supply = 0 := UInt64.toNat_inj.mp hNone
    refine ⟨amount, ?_, UInt64.le_refl _⟩
    rw [sharesFor, if_pos (.inl hZero)]
  · have hAssets : 0 < v.assets.toNat :=
      Nat.lt_of_lt_of_le hSupply
        (UInt64.le_iff_toNat_le.mp hVault.backed)
    exact
      ShareVault.exists_sharesFor hSupply hAssets
        (hVault.mul_supply_le amount)

/-
  Every holding can be valued, and the assets cover all of
  them together.
-/
theorem exists_worths
    [DecidableEq κ]
    (hVault : v.Solvent) :
    ∃ value : κ → UInt64,
      (∀ owner,
        v.toAssets (v.balanceOf owner) =
          .ok (value owner)) ∧
        (v.owners.map fun owner =>
          (value owner).toNat).sum ≤ v.assets.toNat := by
  choose value hValue using hVault.consistent.exists_worth
  refine ⟨value, hValue, ?_⟩
  have hPart (owner : κ) :
      (value owner).toNat =
        (v.balanceOf owner).toNat * v.assets.toNat /
          v.supply.toNat :=
    hVault.consistent.worth_eq_ok_iff.mp (hValue owner)
  have hBalances :
      (v.owners.map fun owner =>
        (v.balanceOf owner).toNat).sum =
        v.supply.toNat := by
    rw [← hVault.consistent.issued]
    apply sum_balanceOf hVault.consistent.nodup
      hVault.consistent.nodup
    intro h hHolding _
    exact List.mem_map_of_mem hHolding
  calc
    (v.owners.map fun owner => (value owner).toNat).sum
        = (v.owners.map fun owner =>
            (v.balanceOf owner).toNat * v.assets.toNat /
              v.supply.toNat).sum := by
          simp only [hPart]
    _ ≤ (v.owners.map fun owner =>
            (v.balanceOf owner).toNat).sum *
          v.assets.toNat / v.supply.toNat :=
          Price.sum_div_le _ _ _ _
    _ = v.supply.toNat * v.assets.toNat /
          v.supply.toNat := by
          rw [hBalances]
    _ ≤ v.assets.toNat :=
          Nat.div_le_of_le_mul (Nat.le_refl _)

------------------------------------------------------------
-- Solvency over Dealings
------------------------------------------------------------

/-
  There is a share for every asset at most as long as the
  price does not fall, and the first shares are no more than
  the assets.
-/
theorem backed_of_priceLe
    (hVault : v.Solvent)
    (hPrice : PriceLe v w)
    (hFirst :
      v.supply.toNat = 0 →
        w.supply.toNat ≤ w.assets.toNat) :
    w.supply ≤ w.assets := by
  rw [UInt64.le_iff_toNat_le]
  have hBacked := UInt64.le_iff_toNat_le.mp hVault.backed
  rcases Nat.eq_zero_or_pos v.supply.toNat with
    hNone | hSupply
  · exact hFirst hNone
  · have hCross :
        v.assets.toNat * w.supply.toNat ≤
          v.assets.toNat * w.assets.toNat := by
      calc
        v.assets.toNat * w.supply.toNat
            ≤ w.assets.toNat * v.supply.toNat :=
              hPrice hSupply
        _ ≤ w.assets.toNat * v.assets.toNat :=
              Nat.mul_le_mul_left _ hBacked
        _ = v.assets.toNat * w.assets.toNat :=
              Nat.mul_comm _ _
    exact
      Nat.le_of_mul_le_mul_left hCross
        (Nat.lt_of_lt_of_le hSupply hBacked)

variable [DecidableEq κ]

/- What is done to a solvent vault leaves it solvent. -/
theorem done
    {d : Dealing κ}
    (hVault : v.Solvent)
    (hDone : Done d v w) :
    w.Solvent := by
  cases hDone with
  | deposited hSplit hShares hDeposit =>
      refine
        ⟨hVault.consistent.deposited hDeposit,
          hDeposit.reassigned.capacity hVault.room, ?_⟩
      apply hVault.backed_of_priceLe
        (priceLe_of_deposited hShares hDeposit)
      intro hNone
      rw [hDeposit.supply, hDeposit.assets, hNone,
        eq_of_toShares hNone hShares]
      omega
  | withdrawn hShares hWithdrawal =>
      refine
        ⟨hVault.consistent.withdrawn hWithdrawal,
          hWithdrawal.reassigned.capacity hVault.room, ?_⟩
      apply hVault.backed_of_priceLe
        (priceLe_of_withdrawn hShares hWithdrawal)
      intro hNone
      have hSupply := hWithdrawal.supply
      omega
  | @earned amount assets _ hSum =>
      have hRise : v.assets ≤ assets := by
        rw [UInt64.le_iff_toNat_le]
        omega
      exact
        ⟨⟨hVault.consistent.nodup, hVault.consistent.issued⟩,
          hVault.room,
          UInt64.le_trans hVault.backed hRise⟩

/- A dealing leaves a vault solvent, refused or not. -/
theorem dealt
    (hVault : v.Solvent)
    (d : Dealing κ) :
    (v.dealt d).Solvent := by
  cases hRun : d.action v with
  | error e w =>
      rw [hVault.consistent.dealt_of_error hRun]
      exact hVault
  | ok answer w =>
      rw [dealt_of_ok hRun]
      exact hVault.done (done_of_action hRun)

/- A run of dealings leaves a vault solvent. -/
theorem dealtAll
    (hVault : v.Solvent)
    (ds : List (Dealing κ)) :
    (v.dealtAll ds).Solvent := by
  apply Action.after_of_step Dealing.action
  · intro d _ v hVault
    exact hVault.dealt d
  · exact hVault

end Solvent

end ShareVault

------------------------------------------------------------
-- Payments
------------------------------------------------------------

namespace Dealing

variable {κ : Type}

/- What a deposit pays into the vault. -/
def paidIn : Dealing κ → UInt64 → Nat
  | .deposit _ amount, _ => amount.toNat
  | _, _ => 0

/- What a withdrawal delivers, as it answers. -/
def paidOut : Dealing κ → UInt64 → Nat
  | .withdraw _ _, received => received.toNat
  | _, _ => 0

/- What the vault earns. -/
def earned : Dealing κ → UInt64 → Nat
  | .earn amount, _ => amount.toNat
  | _, _ => 0

end Dealing

namespace ShareVault

variable {κ : Type} [DecidableEq κ] {v w : ShareVault κ}

/- A dealing changes the assets and fees by what it moves. -/
theorem balanced_of_action
    {d : Dealing κ}
    {answer : UInt64}
    (hRun : d.action v = .ok answer w) :
    w.assets.toNat + w.fees.toNat + d.paidOut answer =
      v.assets.toNat + v.fees.toNat +
        (d.paidIn answer + d.earned answer) := by
  cases d with
  | deposit owner amount =>
      rcases deposited_of_deposit hRun with
        ⟨fee, net, hSplit, -, hDeposit⟩
      have hAssets := hDeposit.assets
      have hFees := hDeposit.fees
      have hAmount := hSplit.2
      simp only [Dealing.paidIn, Dealing.paidOut,
        Dealing.earned]
      omega
  | withdraw owner amount =>
      rcases withdrawn_of_withdraw hRun with
        ⟨rfl, burned, -, hWithdrawal⟩
      have hAssets := hWithdrawal.assets
      simp only [Dealing.paidIn, Dealing.paidOut,
        Dealing.earned, hWithdrawal.fees]
      omega
  | earn amount =>
      rcases earn_eq_ok_iff.mp hRun with ⟨hSum, rfl⟩
      simp only [Dealing.paidIn, Dealing.paidOut,
        Dealing.earned]
      omega

/-
  Assets and fees grow by what a run pays in and earns, less
  what it pays out.
-/
theorem Solvent.balanced
    (hVault : v.Solvent)
    (ds : List (Dealing κ)) :
    (v.dealtAll ds).assets.toNat +
        (v.dealtAll ds).fees.toNat +
        Action.tally Dealing.action Dealing.paidOut v ds =
      v.assets.toNat + v.fees.toNat +
        (Action.tally Dealing.action Dealing.paidIn v ds +
          Action.tally Dealing.action Dealing.earned v ds) := by
  rw [← Action.tally_add]
  apply Action.tally_balance
    (fun v : ShareVault κ => v.assets.toNat + v.fees.toNat)
    _ _
    (P := Solvent)
  · intro d v hVault
    exact hVault.dealt d
  · intro d v answer w _ hRun
    exact balanced_of_action hRun
  · intro d v e w hVault hRun
    rw [hVault.consistent.eq_of_action_error hRun]
  · exact hVault

/-
  Whatever a new vault sees, with requests that it refuses or
  not: its owners are distinct and there is room for them, it
  has issued its supply to them, and it has at least as many
  assets as shares.  The assets and the fees are what was
  deposited and earned, less what was withdrawn.  What the
  holdings are worth can be told, and is covered.  Any amount
  has a price in shares, for a deposit and for a withdrawal,
  of at most one for one.
-/
theorem solvent_of_dealings
    (hNew : v.IsNew)
    (ds : List (Dealing κ)) :
    (v.dealtAll ds).owners.Nodup ∧
      (v.dealtAll ds).holdings.length ≤ capacity ∧
      (v.dealtAll ds).issued =
        (v.dealtAll ds).supply.toNat ∧
      (v.dealtAll ds).supply ≤ (v.dealtAll ds).assets ∧
      ((v.dealtAll ds).assets.toNat +
          (v.dealtAll ds).fees.toNat : Int) =
        Action.tally Dealing.action Dealing.paidIn v ds -
          Action.tally Dealing.action Dealing.paidOut v ds +
          Action.tally Dealing.action Dealing.earned v ds ∧
      (∃ value : κ → UInt64,
        (∀ owner,
          (v.dealtAll ds).toAssets
              ((v.dealtAll ds).balanceOf owner) =
            .ok (value owner)) ∧
          ((v.dealtAll ds).owners.map fun owner =>
            (value owner).toNat).sum ≤
            (v.dealtAll ds).assets.toNat) ∧
      (∀ amount, ∃ shares,
        (v.dealtAll ds).toShares amount = .ok shares ∧
          shares ≤ amount) ∧
      ∀ amount, ∃ shares,
        (v.dealtAll ds).sharesFor amount = .ok shares ∧
          shares ≤ amount := by
  have hVault := hNew.solvent.dealtAll ds
  have hBalance := hNew.solvent.balanced ds
  rw [hNew.assets, hNew.fees, UInt64.toNat_zero] at hBalance
  exact
    ⟨hVault.consistent.nodup, hVault.room,
      hVault.consistent.issued, hVault.backed, by omega,
      hVault.exists_worths, hVault.exists_toShares,
      hVault.exists_sharesFor⟩

/- A new vault that takes a fee of 1%. -/
def newVault : ShareVault Nat where
  asset := 2
  authority := 7
  assets := 0
  supply := 0
  feeBps := 100
  fees := 0
  holdings := []
  bump := 0

/-
  The first owner burns its last share and leaves an asset
  behind, which falls to the next owner; a withdrawal that no
  shares cover is refused.
-/
def lastShare : List (Dealing Nat) :=
  [.deposit 8 1000, .earn 37, .withdraw 8 1026,
   .deposit 9 200, .withdraw 8 5]

/- The asset left behind backs the holding that is left. -/
theorem solvent_of_dealings_lastShare :
    newVault.IsNew ∧
      (newVault.dealtAll lastShare).assets = 199 ∧
      ∃ value : Nat → UInt64,
        (∀ owner,
          (newVault.dealtAll lastShare).toAssets
              ((newVault.dealtAll lastShare).balanceOf
                owner) =
            .ok (value owner)) ∧
          ((newVault.dealtAll lastShare).owners.map
            fun owner => (value owner).toNat).sum ≤ 199 := by
  have hNew : newVault.IsNew := ⟨rfl, rfl, rfl, rfl⟩
  have hAssets :
      (newVault.dealtAll lastShare).assets = 199 := by
    decide +kernel
  rcases solvent_of_dealings hNew lastShare with
    ⟨-, -, -, -, -, ⟨value, hValue, hSum⟩, -, -⟩
  rw [hAssets] at hSum
  exact ⟨hNew, hAssets, value, hValue, hSum⟩

end ShareVault

end YieldManager

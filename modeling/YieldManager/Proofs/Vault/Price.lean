import Mathlib.Tactic.Linarith
import YieldManager.Proofs.Vault.Par

/-
  The value of shares at any price.  A holding is worth its
  part of the assets, rounded down; a deposit buys shares
  rounded down, and a withdrawal burns shares rounded up.  So
  no move of an owner creates value, and one loses less than
  a share's worth and one unit, besides the fee.

  The arithmetic is over natural numbers: an owner has `own`
  shares, all others have `rest`, and the vault has `assets`.

  Main declarations:
    * `Price.Floor`
    * `Price.worth_le_of_deposit`
    * `Price.lt_worth_of_deposit`
    * `Price.worth_le_of_withdrawal`
    * `Price.lt_worth_of_withdrawal`
    * `LossBound`
    * `ShareVault.lossBound_of_deposit`
    * `ShareVault.lossBound_of_withdraw`
-/

------------------------------------------------------------
-- Bounds and Rounding
------------------------------------------------------------

namespace YieldManager

/-
  What a move may cost beyond its fee, at the price given by
  supply and assets before it: nothing is gained, and less
  than one share's worth and one unit is lost.  In an empty
  vault the fee is the whole cost.
-/
structure LossBound
    (supply assets : Nat)
    (loss fee : Int) : Prop where
  fee_le : 0 < supply → 0 < assets → fee ≤ loss
  rounding_lt :
    0 < supply → 0 < assets →
      (loss - fee) * supply < assets + supply
  empty : supply = 0 → assets = 0 → loss = fee

namespace Price

/- A quotient rounded down, by what bounds it. -/
structure Floor (n d q : Nat) : Prop where
  le : q * d ≤ n
  lt : n < (q + 1) * d

/- Division of natural numbers rounds down. -/
theorem floor_div
    (n : Nat)
    {d : Nat}
    (hDivisor : 0 < d) :
    Floor n d (n / d) where
  le := Nat.div_mul_le_self n d
  lt := by
    rw [Nat.mul_comm]
    exact Nat.lt_mul_div_succ n hDivisor

/- A quotient rounded up is short of one more. -/
structure Ceiling (n d q : Nat) : Prop where
  le : n ≤ q * d
  lt : q * d < n + d

/- A quotient is rounded up by adding all but one first. -/
theorem ceiling_div
    (n : Nat)
    {d : Nat}
    (hDivisor : 0 < d) :
    Ceiling n d ((n + d - 1) / d) := by
  have hFloor := floor_div (n + d - 1) hDivisor
  have hLt := hFloor.lt
  have hLe := hFloor.le
  rw [Nat.add_mul] at hLt
  exact ⟨by omega, by omega⟩

/- Rounding up does not pass a multiple of the divisor. -/
theorem Ceiling.le_of_le_mul
    {n d q bound : Nat}
    (hCeiling : Ceiling n d q)
    (hBound : n ≤ bound * d) :
    q ≤ bound := by
  have hLt := hCeiling.lt
  have hNext : q * d < (bound + 1) * d := by
    rw [Nat.add_mul, Nat.one_mul]
    omega
  exact Nat.le_of_lt_succ (Nat.lt_of_mul_lt_mul_right hNext)

/- Rounding up stays within a bound if the quotient does. -/
theorem Ceiling.le_iff
    {n d q bound : Nat}
    (hCeiling : Ceiling n d q) :
    q ≤ bound ↔ n ≤ bound * d := by
  constructor
  · intro hBound
    exact
      le_trans hCeiling.le (Nat.mul_le_mul_right _ hBound)
  · exact hCeiling.le_of_le_mul

/- What is not nothing is not rounded up to nothing. -/
theorem Ceiling.pos
    {n d q : Nat}
    (hCeiling : Ceiling n d q)
    (hSome : 0 < n) :
    0 < q := by
  apply Nat.pos_of_ne_zero
  intro hNone
  have hLe := hCeiling.le
  rw [hNone, Nat.zero_mul] at hLe
  omega

------------------------------------------------------------
-- Deposits
------------------------------------------------------------

section Deposits

variable {own rest assets net shares before after : Nat}

/-
  What the old shares and the deposit are worth at the old
  price exceeds the new value by what the others gain from
  the rounding of the shares.
-/
private theorem deposit_exchange
    {gain : Nat}
    (hGain : net * (own + rest) = shares * assets + gain) :
    (own * assets + net * (own + rest)) *
        (own + rest + shares) =
      (own + rest) * ((own + shares) * (assets + net)) +
        rest * gain := by
  have hRest := congrArg (rest * ·) hGain
  linarith

/- A deposit does not create value. -/
theorem worth_le_of_deposit
    (hSupply : 0 < own + rest)
    (hShares : Floor (net * (own + rest)) assets shares)
    (hBefore : Floor (own * assets) (own + rest) before)
    (hAfter :
      Floor ((own + shares) * (assets + net))
        (own + rest + shares) after) :
    after ≤ before + net := by
  rcases Nat.exists_eq_add_of_le hShares.le with
    ⟨gain, hGain⟩
  have hExchange := deposit_exchange hGain
  by_contra hMore
  -- A unit more, at the new price, exceeds the old value.
  have hLow :
      (before + 1 + net) * (own + rest + shares) ≤
        (own + shares) * (assets + net) :=
    le_trans
      (Nat.mul_le_mul_right _ (by omega)) hAfter.le
  have hScaled := Nat.mul_le_mul_left (own + rest) hLow
  have hOld :
      own * assets * (own + rest + shares) <
        (before + 1) * (own + rest) * (own + rest + shares) :=
    Nat.mul_lt_mul_of_pos_right hBefore.lt (by omega)
  have hNonneg := Nat.zero_le (rest * gain)
  linarith

/-
  A deposit loses less than a share's worth and one unit to
  rounding.
-/
theorem lt_worth_of_deposit
    (hSupply : 0 < own + rest)
    (hShares : Floor (net * (own + rest)) assets shares)
    (hBefore : Floor (own * assets) (own + rest) before)
    (hAfter :
      Floor ((own + shares) * (assets + net))
        (own + rest + shares) after) :
    (before + net) * (own + rest) <
      assets + (own + rest) + after * (own + rest) := by
  rcases Nat.exists_eq_add_of_le hShares.le with
    ⟨gain, hGain⟩
  have hExchange := deposit_exchange hGain
  have hGainLt : gain < assets := by
    have hLt := hShares.lt
    rw [hGain, Nat.add_mul] at hLt
    omega
  have hOld := hBefore.le
  by_contra hMore
  have hHigh :
      assets + (after + 1) * (own + rest) ≤
        own * assets + net * (own + rest) := by
    linarith
  have hScaled :=
    Nat.mul_le_mul_right (own + rest + shares) hHigh
  have hNew :
      (own + rest) * ((own + shares) * (assets + net)) <
        (own + rest) *
          ((after + 1) * (own + rest + shares)) :=
    Nat.mul_lt_mul_of_pos_left hAfter.lt hSupply
  have hLost :
      rest * gain ≤ assets * (own + rest + shares) := by
    rw [Nat.mul_comm assets]
    exact Nat.mul_le_mul (by omega) hGainLt.le
  linarith

/- What a deposit costs, from the balances before it. -/
theorem lossBound_deposit
    {fee amount : Nat}
    (hAmount : net + fee = amount)
    (hPriced :
      0 < own + rest → 0 < assets →
        Floor (net * (own + rest)) assets shares)
    (hUnpriced : own + rest = 0 → shares = net)
    (hBefore : before = own * assets / (own + rest))
    (hAfter :
      after =
        (own + shares) * (assets + net) /
          (own + rest + shares)) :
    LossBound (own + rest) assets
      ((before : Int) + amount - after) fee where
  fee_le := by
    intro hSupply hAssets
    have hLe :=
      worth_le_of_deposit hSupply (hPriced hSupply hAssets)
        (hBefore ▸ floor_div _ hSupply)
        (hAfter ▸ floor_div _ (by omega))
    omega
  rounding_lt := by
    intro hSupply hAssets
    have hLt :=
      lt_worth_of_deposit hSupply (hPriced hSupply hAssets)
        (hBefore ▸ floor_div _ hSupply)
        (hAfter ▸ floor_div _ (by omega))
    have hLess :
        ((before : Int) + net) * (own + rest) <
          assets + (own + rest) + after * (own + rest) := by
      exact_mod_cast hLt
    have hLost :
        (before : Int) + amount - after - fee =
          before + net - after := by
      omega
    rw [hLost]
    push_cast
    linarith
  empty := by
    intro hSupply hAssets
    have hShares := hUnpriced hSupply
    have hOwn : own = 0 := by omega
    have hRest : rest = 0 := by omega
    subst hOwn hRest hShares hAssets
    have hNew : shares * shares / shares = shares := by
      rcases Nat.eq_zero_or_pos shares with rfl | hPos
      · rfl
      · exact Nat.mul_div_cancel _ hPos
    simp only [Nat.zero_add] at hBefore hAfter
    rw [hNew] at hAfter
    rw [Nat.zero_mul, Nat.zero_div] at hBefore
    omega

end Deposits

------------------------------------------------------------
-- Withdrawals
------------------------------------------------------------

section Withdrawals

variable {own rest assets amount burned before after : Nat}

/-
  What the old shares were worth exceeds the new value and
  the amount by what the others gain from the rounding of the
  shares burned.
-/
private theorem withdrawal_exchange
    {gain : Nat}
    (hGain :
      burned * (assets + amount) =
        amount * (own + rest + burned) + gain) :
    (own + burned) * (assets + amount) * (own + rest) =
      (own + rest + burned) *
          (own * assets + amount * (own + rest)) +
        rest * gain := by
  have hRest := congrArg (rest * ·) hGain
  linarith

/- A withdrawal does not create value. -/
theorem worth_le_of_withdrawal
    (hShares : 0 < own + rest)
    (hBurned :
      Ceiling (amount * (own + rest + burned))
        (assets + amount) burned)
    (hBefore :
      Floor ((own + burned) * (assets + amount))
        (own + rest + burned) before)
    (hAfter : Floor (own * assets) (own + rest) after) :
    after + amount ≤ before := by
  rcases Nat.exists_eq_add_of_le hBurned.le with
    ⟨gain, hGain⟩
  have hExchange := withdrawal_exchange hGain
  by_contra hLess
  have hHigh :
      (before + 1) * (own + rest) ≤
        own * assets + amount * (own + rest) := by
    have hNew := hAfter.le
    have hMul :=
      Nat.mul_le_mul_right (own + rest)
        (show before + 1 ≤ after + amount by omega)
    linarith
  have hScaled :=
    Nat.mul_le_mul_left (own + rest + burned) hHigh
  have hOld :
      (own + burned) * (assets + amount) * (own + rest) <
        (before + 1) * (own + rest + burned) * (own + rest) :=
    Nat.mul_lt_mul_of_pos_right hBefore.lt hShares
  have hNonneg := Nat.zero_le (rest * gain)
  linarith

/-
  A withdrawal loses less than a share's worth and one unit
  to rounding.
-/
theorem lt_worth_of_withdrawal
    (hShares : 0 < own + rest)
    (hBurned :
      Ceiling (amount * (own + rest + burned))
        (assets + amount) burned)
    (hBefore :
      Floor ((own + burned) * (assets + amount))
        (own + rest + burned) before)
    (hAfter : Floor (own * assets) (own + rest) after) :
    before * (own + rest + burned) <
      assets + amount + (own + rest + burned) +
        (after + amount) * (own + rest + burned) := by
  rcases Nat.exists_eq_add_of_le hBurned.le with
    ⟨gain, hGain⟩
  have hExchange := withdrawal_exchange hGain
  have hGainLt : gain < assets + amount := by
    have hLt := hBurned.lt
    omega
  have hOld := hBefore.le
  by_contra hMore
  have hHigh :
      assets + amount +
          (after + 1 + amount) * (own + rest + burned) ≤
        (own + burned) * (assets + amount) := by
    linarith
  have hScaled := Nat.mul_le_mul_right (own + rest) hHigh
  have hNew :
      (own + rest + burned) * (own * assets) <
        (own + rest + burned) *
          ((after + 1) * (own + rest)) :=
    Nat.mul_lt_mul_of_pos_left hAfter.lt (by omega)
  have hLost :
      rest * gain ≤ (assets + amount) * (own + rest) := by
    rw [Nat.mul_comm (assets + amount)]
    exact Nat.mul_le_mul (by omega) hGainLt.le
  linarith

/- Burning the last share loses what it leaves behind. -/
theorem worth_of_last_share
    (hShares : 0 < burned)
    (hBurned :
      Ceiling (amount * burned) (assets + amount) burned)
    (hBefore :
      Floor (burned * (assets + amount)) burned before) :
    amount ≤ before ∧
      before * burned <
        assets + amount + burned + amount * burned := by
  have hAll : assets + amount < before + 1 := by
    have hLt := hBefore.lt
    rw [Nat.mul_comm] at hLt
    exact Nat.lt_of_mul_lt_mul_right hLt
  have hLe := hBefore.le
  have hLt := hBurned.lt
  exact ⟨by omega, by omega⟩

/- What a withdrawal leaves and takes, shares left or not. -/
private theorem bounds_of_withdrawal
    (hSome : 0 < own + rest + burned)
    (hBurned :
      Ceiling (amount * (own + rest + burned))
        (assets + amount) burned)
    (hBefore :
      before =
        (own + burned) * (assets + amount) /
          (own + rest + burned))
    (hAfter : after = own * assets / (own + rest)) :
    after + amount ≤ before ∧
      before * (own + rest + burned) <
        assets + amount + (own + rest + burned) +
          (after + amount) * (own + rest + burned) := by
  have hFloor := hBefore ▸ floor_div _ hSome
  rcases Nat.eq_zero_or_pos (own + rest) with hNone | hLeft
  · have hOwn : own = 0 := by omega
    have hRest : rest = 0 := by omega
    subst hOwn hRest
    simp only [Nat.zero_add, Nat.zero_mul, Nat.zero_div]
      at hSome hBurned hFloor hAfter ⊢
    subst hAfter
    rw [Nat.zero_add]
    exact worth_of_last_share hSome hBurned hFloor
  · have hLast := hAfter ▸ floor_div _ hLeft
    exact
      ⟨worth_le_of_withdrawal hLeft hBurned hFloor hLast,
        lt_worth_of_withdrawal hLeft hBurned hFloor hLast⟩

/- What a withdrawal costs, from the balances after it. -/
theorem lossBound_withdrawal
    (hPriced :
      0 < own + rest + burned → 0 < assets + amount →
        Ceiling (amount * (own + rest + burned))
          (assets + amount) burned)
    (hBefore :
      before =
        (own + burned) * (assets + amount) /
          (own + rest + burned))
    (hAfter : after = own * assets / (own + rest)) :
    LossBound (own + rest + burned) (assets + amount)
      ((before : Int) - amount - after) 0 where
  fee_le := by
    intro hSome hAssets
    have hLe :=
      (bounds_of_withdrawal hSome (hPriced hSome hAssets)
        hBefore hAfter).1
    omega
  rounding_lt := by
    intro hSome hAssets
    have hLt :=
      (bounds_of_withdrawal hSome (hPriced hSome hAssets)
        hBefore hAfter).2
    have hLess :
        (before : Int) * (own + rest + burned) <
          assets + amount + (own + rest + burned) +
            (after + amount) * (own + rest + burned) := by
      exact_mod_cast hLt
    push_cast
    linarith
  empty := by
    intro hNone hAssets
    have hOwn : own = 0 := by omega
    have hBurned : burned = 0 := by omega
    have hAmount : amount = 0 := by omega
    subst hOwn hBurned hAmount hBefore hAfter
    simp

end Withdrawals

end Price

------------------------------------------------------------
-- Share Vaults
------------------------------------------------------------

namespace ShareVault

variable {κ : Type}

/- With shares and assets, a vault has a price. -/
private theorem not_unpriced
    {v : ShareVault κ}
    (hSupply : 0 < v.supply.toNat)
    (hAssets : 0 < v.assets.toNat) :
    ¬ (v.supply = 0 ∨ v.assets = 0) := by
  rintro (hZero | hZero)
  · rw [hZero] at hSupply
    exact Nat.lt_irrefl _ hSupply
  · rw [hZero] at hAssets
    exact Nat.lt_irrefl _ hAssets

/- Shares for a deposit are rounded down. -/
theorem floor_of_toShares
    {v : ShareVault κ}
    {net shares : UInt64}
    (hSupply : 0 < v.supply.toNat)
    (hAssets : 0 < v.assets.toNat)
    (hShares : v.toShares net = .ok shares) :
    Price.Floor (net.toNat * v.supply.toNat) v.assets.toNat
      shares.toNat := by
  rw [toShares, if_neg (not_unpriced hSupply hAssets),
    FixedPoint.mulDivDown_eq_ok_iff] at hShares
  rw [hShares.2]
  exact Price.floor_div _ hAssets

/- Without a supply, shares are bought one for one. -/
theorem eq_of_toShares
    {v : ShareVault κ}
    {net shares : UInt64}
    (hSupply : v.supply.toNat = 0)
    (hShares : v.toShares net = .ok shares) :
    shares.toNat = net.toNat := by
  have hZero : v.supply = 0 := UInt64.toNat_inj.mp hSupply
  rw [toShares, if_pos (.inl hZero)] at hShares
  cases hShares
  rfl

/- Shares for a withdrawal are rounded up. -/
theorem ceiling_of_sharesFor
    {v : ShareVault κ}
    {amount shares : UInt64}
    (hSupply : 0 < v.supply.toNat)
    (hAssets : 0 < v.assets.toNat)
    (hShares : v.sharesFor amount = .ok shares) :
    Price.Ceiling (amount.toNat * v.supply.toNat)
      v.assets.toNat shares.toNat := by
  rw [sharesFor, if_neg (not_unpriced hSupply hAssets),
    FixedPoint.mulDivUp_eq_ok_iff] at hShares
  rw [hShares.2]
  exact Price.ceiling_div _ hAssets

/- The shares for an amount that some number covers exist. -/
theorem exists_sharesFor
    {v : ShareVault κ}
    {amount owned : UInt64}
    (hSupply : 0 < v.supply.toNat)
    (hAssets : 0 < v.assets.toNat)
    (hCovered :
      amount.toNat * v.supply.toNat ≤
        owned.toNat * v.assets.toNat) :
    ∃ shares,
      v.sharesFor amount = .ok shares ∧ shares ≤ owned := by
  have hCeiling :=
    Price.ceiling_div (amount.toNat * v.supply.toNat)
      hAssets
  have hLe := hCeiling.le_of_le_mul hCovered
  rcases FixedPoint.exists_toNat_eq
      (Nat.lt_of_le_of_lt hLe owned.toNat_lt_size) with
    ⟨shares, hNat⟩
  refine ⟨shares, ?_, ?_⟩
  · rw [sharesFor, if_neg (not_unpriced hSupply hAssets),
      FixedPoint.mulDivUp_eq_ok_iff]
    exact
      ⟨fun hZero => not_unpriced hSupply hAssets (.inr hZero),
        hNat⟩
  · rw [UInt64.le_iff_toNat_le, hNat]
    exact hLe

variable [DecidableEq κ] {owner : κ} {v w : ShareVault κ}

/- A holding is worth its part of the assets. -/
theorem IsConsistent.worth_eq_ok_iff
    (hVault : v.IsConsistent)
    {value : UInt64} :
    YieldVault.worth v owner = .ok value ↔
      value.toNat =
        (v.balanceOf owner).toNat * v.assets.toNat /
          v.supply.toNat := by
  change toAssets v (v.balanceOf owner) = _ ↔ _
  unfold toAssets
  split
  · next hSupply =>
      have hNone : v.balanceOf owner = 0 := by
        have hLe := hVault.balanceOf_le_supply owner
        rw [hSupply] at hLe
        exact UInt64.le_antisymm hLe UInt64.zero_le
      rw [hNone, Except.ok.injEq, ← UInt64.toNat_inj,
        UInt64.toNat_zero, Nat.zero_mul, Nat.zero_div]
      exact eq_comm
  · next hSupply =>
      rw [FixedPoint.mulDivDown_eq_ok_iff]
      exact and_iff_right hSupply

/- A part of the supply is worth a part of the assets. -/
private theorem IsConsistent.part_le_assets
    (hVault : v.IsConsistent)
    (owner : κ) :
    (v.balanceOf owner).toNat * v.assets.toNat /
        v.supply.toNat ≤ v.assets.toNat := by
  have hLe :=
    UInt64.le_iff_toNat_le.mp
      (hVault.balanceOf_le_supply owner)
  exact Nat.div_le_of_le_mul (Nat.mul_le_mul_right _ hLe)

/- The value of a holding can always be told. -/
theorem IsConsistent.exists_worth
    (hVault : v.IsConsistent)
    (owner : κ) :
    ∃ value, YieldVault.worth v owner = .ok value := by
  rcases FixedPoint.exists_toNat_eq
      (Nat.lt_of_le_of_lt (hVault.part_le_assets owner)
        v.assets.toNat_lt_size) with
    ⟨value, hValue⟩
  exact ⟨value, hVault.worth_eq_ok_iff.mpr hValue⟩

/- A holding is not worth more than all the assets. -/
theorem IsConsistent.worth_le_assets
    {value : UInt64}
    (hVault : v.IsConsistent)
    (hValue : YieldVault.worth v owner = .ok value) :
    value ≤ v.assets := by
  rw [hVault.worth_eq_ok_iff] at hValue
  rw [UInt64.le_iff_toNat_le, hValue]
  exact hVault.part_le_assets owner

/-
  A deposit costs its owner the fee and what rounding takes.
-/
theorem lossBound_of_deposit
    {amount shares before after : UInt64}
    (hVault : v.IsConsistent)
    (hRun : deposit owner amount v = .ok shares w)
    (hBefore : YieldVault.worth v owner = .ok before)
    (hAfter : YieldVault.worth w owner = .ok after) :
    ∃ fee : UInt64,
      w.fees.toNat = v.fees.toNat + fee.toNat ∧
        LossBound v.supply.toNat v.assets.toNat
          (before.toNat + amount.toNat - after.toNat)
          fee.toNat := by
  rcases deposited_of_deposit hRun with
    ⟨fee, net, hSplit, hShares, hDeposit⟩
  refine ⟨fee, hDeposit.fees, ?_⟩
  rw [hVault.worth_eq_ok_iff] at hBefore
  rw [(hVault.deposited hDeposit).worth_eq_ok_iff,
    hDeposit.gain, hDeposit.assets, hDeposit.supply]
    at hAfter
  rcases Nat.exists_eq_add_of_le
      (UInt64.le_iff_toNat_le.mp
        (hVault.balanceOf_le_supply owner)) with
    ⟨rest, hSupply⟩
  have hPriced :=
    fun hSome hAssets =>
      floor_of_toShares (v := v) hSome hAssets hShares
  have hUnpriced :=
    fun hNone => eq_of_toShares (v := v) hNone hShares
  rw [hSupply] at hBefore hAfter hPriced hUnpriced ⊢
  exact
    Price.lossBound_deposit hSplit.2 hPriced hUnpriced
      hBefore hAfter

/- A withdrawal costs its owner what rounding takes. -/
theorem lossBound_of_withdraw
    {amount received before after : UInt64}
    (hVault : v.IsConsistent)
    (hRun : withdraw owner amount v = .ok received w)
    (hBefore : YieldVault.worth v owner = .ok before)
    (hAfter : YieldVault.worth w owner = .ok after) :
    w.fees = v.fees ∧
      LossBound v.supply.toNat v.assets.toNat
        (before.toNat - amount.toNat - after.toNat) 0 := by
  rcases withdrawn_of_withdraw hRun with
    ⟨-, burned, hShares, hWithdrawal⟩
  refine ⟨hWithdrawal.fees, ?_⟩
  have hLeft := hVault.withdrawn hWithdrawal
  rw [hLeft.worth_eq_ok_iff] at hAfter
  rw [hVault.worth_eq_ok_iff, ← hWithdrawal.loss,
    ← hWithdrawal.assets, ← hWithdrawal.supply] at hBefore
  rcases Nat.exists_eq_add_of_le
      (UInt64.le_iff_toNat_le.mp
        (hLeft.balanceOf_le_supply owner)) with
    ⟨rest, hSupply⟩
  have hPriced :=
    fun hSome hAssets =>
      ceiling_of_sharesFor (v := v) hSome hAssets hShares
  rw [← hWithdrawal.assets, ← hWithdrawal.supply] at hPriced ⊢
  rw [hSupply] at hBefore hAfter hPriced ⊢
  exact
    Price.lossBound_withdrawal hPriced hBefore hAfter

end ShareVault

end YieldManager

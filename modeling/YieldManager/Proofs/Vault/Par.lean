import YieldManager.Proofs.Vault.Shares

/-
  Vaults at par.  As long as nothing but deposits and
  withdrawals touches a vault, there is one share for every
  unit of its assets: conversions are then exact, a deposit
  issues its net amount, and a withdrawal burns its amount.

  Main declarations:
    * `ShareVault.exists_splits`
    * `ShareVault.fee_of_splits`
    * `ShareVault.net_pos_of_splits`
    * `ShareVault.IsPar`
    * `ShareVault.Accepts`
    * `ShareVault.IsPar.worth`
    * `ShareVault.IsPar.deposited`
    * `ShareVault.IsPar.withdrawn`
-/

------------------------------------------------------------
-- Fees
------------------------------------------------------------

namespace YieldManager

namespace ShareVault

variable {κ : Type}

/- A fee of at most 100% splits every amount. -/
theorem exists_splits
    {v : ShareVault κ}
    (hFee : v.feeBps ≤ FixedPoint.bpsScale)
    (amount : UInt64) :
    ∃ fee net, Splits v amount fee net := by
  have hScale : FixedPoint.bpsScale.toNat = 10000 := rfl
  have hLe := UInt64.le_iff_toNat_le.mp hFee
  have hPart :
      amount.toNat * v.feeBps.toNat /
          FixedPoint.bpsScale.toNat ≤ amount.toNat := by
    apply Nat.div_le_of_le_mul
    rw [Nat.mul_comm FixedPoint.bpsScale.toNat]
    exact Nat.mul_le_mul_left _ hLe
  have hBound := amount.toNat_lt_size
  rcases FixedPoint.exists_toNat_eq
      (Nat.lt_of_le_of_lt hPart hBound) with
    ⟨fee, hFeeNat⟩
  rcases FixedPoint.exists_toNat_eq
      (n := amount.toNat - fee.toNat) (by omega) with
    ⟨net, hNetNat⟩
  refine ⟨fee, net, ?_, by omega⟩
  exact
    FixedPoint.mulDivDown_eq_ok_iff.mpr
      ⟨by decide, hFeeNat⟩

/- The fee is a fraction of the amount, rounded down. -/
theorem fee_of_splits
    {v : ShareVault κ}
    {amount fee net : UInt64}
    (hSplit : Splits v amount fee net) :
    fee.toNat = amount.toNat * v.feeBps.toNat / 10000 :=
  (FixedPoint.mulDivDown_eq_ok_iff.mp hSplit.1).2

/- A fee below 100% leaves something of every amount. -/
theorem net_pos_of_splits
    {v : ShareVault κ}
    {amount fee net : UInt64}
    (hFee : v.feeBps < FixedPoint.bpsScale)
    (hAmount : 0 < amount.toNat)
    (hSplit : Splits v amount fee net) :
    0 < net.toNat := by
  have hLess : fee.toNat < amount.toNat := by
    rw [fee_of_splits hSplit]
    exact FixedPoint.bps_lt hFee hAmount
  have hSum := hSplit.2
  omega

------------------------------------------------------------
-- Consistent Vaults
------------------------------------------------------------

variable [DecidableEq κ]

namespace IsConsistent

variable {owner : κ}
variable {v w : ShareVault κ}

/- No owner has more shares than there are. -/
theorem balanceOf_le_supply
    (hVault : v.IsConsistent)
    (owner : κ) :
    v.balanceOf owner ≤ v.supply := by
  rw [UInt64.le_iff_toNat_le, ← hVault.issued]
  exact balanceOf_le_issued v owner

/- A deposit keeps a vault consistent. -/
theorem deposited
    {fee net shares : UInt64}
    (hVault : v.IsConsistent)
    (hDeposit : Deposited owner fee net shares v w) :
    w.IsConsistent := by
  refine ⟨hDeposit.reassigned.nodup hVault.nodup, ?_⟩
  have hIssued := hDeposit.reassigned.issued
  have hGain := hDeposit.gain
  have hSupply := hDeposit.supply
  have hBefore := hVault.issued
  omega

/- A withdrawal keeps a vault consistent. -/
theorem withdrawn
    {amount shares : UInt64}
    (hVault : v.IsConsistent)
    (hWithdrawal : Withdrawn owner amount shares v w) :
    w.IsConsistent := by
  refine ⟨hWithdrawal.reassigned.nodup hVault.nodup, ?_⟩
  have hIssued := hWithdrawal.reassigned.issued
  have hLoss := hWithdrawal.loss
  have hSupply := hWithdrawal.supply
  have hBefore := hVault.issued
  omega

end IsConsistent

------------------------------------------------------------
-- Vaults at Par
------------------------------------------------------------

/-
  A vault that takes less than the whole of a deposit as its
  fee, and has room for the owner and for deposits up to a
  limit.
-/
structure Accepts
    (owner : κ)
    (limit : Nat)
    (v : ShareVault κ) : Prop where
  fee : v.feeBps < FixedPoint.bpsScale
  assets : v.assets.toNat + limit < UInt64.size
  fees : v.fees.toNat + limit < UInt64.size
  room : HasRoom v owner

omit [DecidableEq κ] in
/- What accepts a limit accepts every smaller one. -/
theorem Accepts.mono
    {owner : κ}
    {limit smaller : Nat}
    {v : ShareVault κ}
    (hAccepts : Accepts owner limit v)
    (hSmaller : smaller ≤ limit) :
    Accepts owner smaller v := by
  have hAssets := hAccepts.assets
  have hFees := hAccepts.fees
  exact
    ⟨hAccepts.fee, by omega, by omega, hAccepts.room⟩

/-
  A consistent vault with one share for every unit of its
  assets.
-/
structure IsPar (v : ShareVault κ) : Prop
    extends IsConsistent v where
  par : v.assets = v.supply

namespace IsPar

variable {owner : κ}
variable {v w : ShareVault κ}

omit [DecidableEq κ] in
/- At par, an amount buys as many shares. -/
theorem toShares
    (hPar : v.IsPar)
    (amount : UInt64) :
    v.toShares amount = .ok amount := by
  unfold ShareVault.toShares
  by_cases hEmpty : v.supply = 0 ∨ v.assets = 0
  · rw [if_pos hEmpty]
  · have hSupply : v.supply ≠ 0 :=
      fun hZero => hEmpty (Or.inl hZero)
    rw [if_neg hEmpty, hPar.par]
    exact FixedPoint.mulDivDown_self amount hSupply

omit [DecidableEq κ] in
/- At par, an amount costs as many shares. -/
theorem sharesFor
    (hPar : v.IsPar)
    (amount : UInt64) :
    v.sharesFor amount = .ok amount := by
  unfold ShareVault.sharesFor
  by_cases hEmpty : v.supply = 0 ∨ v.assets = 0
  · rw [if_pos hEmpty]
  · have hSupply : v.supply ≠ 0 :=
      fun hZero => hEmpty (Or.inl hZero)
    rw [if_neg hEmpty, hPar.par]
    exact FixedPoint.mulDivUp_self amount hSupply

omit [DecidableEq κ] in
/- At par, shares stand for as many assets. -/
theorem toAssets
    (hPar : v.IsPar)
    (shares : UInt64) :
    v.toAssets shares = .ok shares := by
  unfold ShareVault.toAssets
  by_cases hEmpty : v.supply = 0
  · rw [if_pos hEmpty]
  · rw [if_neg hEmpty, hPar.par]
    exact FixedPoint.mulDivDown_self shares hEmpty

/- At par, an owner's shares are worth their number. -/
theorem worth
    (hPar : v.IsPar)
    (owner : κ) :
    YieldVault.worth v owner = .ok (v.balanceOf owner) :=
  hPar.toAssets (v.balanceOf owner)

/- At par, a worth that is answered is a number of shares. -/
theorem eq_balanceOf_of_worth
    {value : UInt64}
    (hPar : v.IsPar)
    (hValue : YieldVault.worth v owner = .ok value) :
    value = v.balanceOf owner := by
  rw [hPar.worth] at hValue
  exact (Except.ok.inj hValue).symm

/- A deposit at par issues its net amount and keeps par. -/
theorem deposited
    {fee net shares : UInt64}
    (hPar : v.IsPar)
    (hShares : v.toShares net = .ok shares)
    (hDeposit : Deposited owner fee net shares v w) :
    shares = net ∧ w.IsPar := by
  have hEq : shares = net := by
    rw [hPar.toShares] at hShares
    exact (Except.ok.inj hShares).symm
  have hVault := hPar.toIsConsistent.deposited hDeposit
  refine ⟨hEq, hVault, ?_⟩
  have hAssets := hDeposit.assets
  have hSupply := hDeposit.supply
  rw [← UInt64.toNat_inj, hAssets, hSupply, hPar.par, hEq]

/- A withdrawal at par burns its amount and keeps par. -/
theorem withdrawn
    {amount shares : UInt64}
    (hPar : v.IsPar)
    (hShares : v.sharesFor amount = .ok shares)
    (hWithdrawal : Withdrawn owner amount shares v w) :
    shares = amount ∧ w.IsPar := by
  have hEq : shares = amount := by
    rw [hPar.sharesFor] at hShares
    exact (Except.ok.inj hShares).symm
  have hVault := hPar.toIsConsistent.withdrawn hWithdrawal
  refine ⟨hEq, hVault, ?_⟩
  have hAssets := hWithdrawal.assets
  have hSupply := hWithdrawal.supply
  rw [hPar.par] at hAssets
  rw [hEq] at hSupply
  rw [← UInt64.toNat_inj]
  omega

end IsPar

end ShareVault

end YieldManager

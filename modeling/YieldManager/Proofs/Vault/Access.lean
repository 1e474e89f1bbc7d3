import YieldManager.Proofs.Manager.Moves
import YieldManager.Proofs.Vault.Withdrawals

/-
  When a vault serves an owner, at any share price.  What an
  owner's shares are worth can be withdrawn, all of it or any
  part.  A deposit can be refused: it has to buy a share, the
  vault's totals have to fit, and the owner needs a holding.

  Main declarations:
    * `ShareVault.Takes`
    * `ShareVault.IsPar.takes`
    * `ShareVault.IsConsistent.depositMeasured_succeeds_iff`
    * `ShareVault.IsConsistent.exists_withdrawMeasured`
-/

------------------------------------------------------------
-- Deposits That Are Taken
------------------------------------------------------------

namespace YieldManager

namespace ShareVault

variable {κ : Type} [DecidableEq κ]

/-
  A vault takes a deposit if the amount, less the fee, buys
  some shares, the new totals fit, and the owner has a holding
  or can open one.
-/
def Takes
    (owner : κ)
    (amount : UInt64)
    (v : ShareVault κ) : Prop :=
  ∃ fee net shares,
    Splits v amount fee net ∧
      v.toShares net = .ok shares ∧ 0 < shares ∧
      v.assets.toNat + net.toNat < UInt64.size ∧
      v.supply.toNat + shares.toNat < UInt64.size ∧
      v.fees.toNat + fee.toNat < UInt64.size ∧
      HasRoom v owner

variable {owner : κ} {v w : ShareVault κ}

omit [DecidableEq κ] in
/- At par, every amount up to what is accepted is taken. -/
theorem IsPar.takes
    {amount : UInt64}
    {limit : Nat}
    (hPar : v.IsPar)
    (hAccepts : Accepts owner limit v)
    (hAmount : 0 < amount.toNat)
    (hLimit : amount.toNat ≤ limit) :
    Takes owner amount v := by
  have hSupply := congrArg UInt64.toNat hPar.par
  have hAssets := hAccepts.assets
  have hFees := hAccepts.fees
  rcases exists_splits (UInt64.le_of_lt hAccepts.fee)
      amount with
    ⟨fee, net, hSplit⟩
  have hSum := hSplit.2
  have hNet : 0 < net := by
    rw [UInt64.lt_iff_toNat_lt, UInt64.toNat_zero]
    exact net_pos_of_splits hAccepts.fee hAmount hSplit
  exact
    ⟨fee, net, net, hSplit, hPar.toShares net, hNet,
      by omega, by omega, by omega, hAccepts.room⟩

namespace IsConsistent

/- A measured deposit succeeds if and only if it is taken. -/
theorem depositMeasured_succeeds_iff
    {amount : UInt64}
    (hVault : v.IsConsistent) :
    (∃ gained w,
        YieldVault.depositMeasured owner amount v =
          .ok gained w) ↔
      Takes owner amount v := by
  constructor
  · intro hRuns
    rcases hRuns with ⟨gained, w, hRun⟩
    rcases YieldVault.depositMeasured_eq_ok_iff.mp hRun with
      ⟨⟨claimed, hDeposit⟩, hMore, -⟩
    rcases deposited_of_deposit hDeposit with
      ⟨fee, net, hSplit, hShares, hDeposited⟩
    have hGain := hDeposited.gain
    have hAssets := hDeposited.assets
    have hSupply := hDeposited.supply
    have hFees := hDeposited.fees
    have hLess := UInt64.lt_iff_toNat_lt.mp hMore
    have hSome : 0 < claimed := by
      rw [UInt64.lt_iff_toNat_lt, UInt64.toNat_zero]
      change (v.balanceOf owner).toNat <
        (w.balanceOf owner).toNat at hLess
      omega
    exact
      ⟨fee, net, claimed, hSplit, hShares, hSome,
        hAssets ▸ w.assets.toNat_lt_size,
        hSupply ▸ w.supply.toNat_lt_size,
        hFees ▸ w.fees.toNat_lt_size,
        hasRoom_of_deposit hDeposit⟩
  · intro hTakes
    rcases hTakes with
      ⟨fee, net, shares, hSplit, hShares, hSome, hAssets,
        hSupply, hFees, hRoom⟩
    have hOwned :=
      UInt64.le_iff_toNat_le.mp
        (hVault.balanceOf_le_supply owner)
    rcases exists_deposit hSplit hShares hAssets hSupply
        hFees (by omega) hRoom with
      ⟨w, hDeposit⟩
    rcases deposited_of_deposit hDeposit with
      ⟨_, _, -, -, hDeposited⟩
    have hMore : v.balanceOf owner < w.balanceOf owner := by
      rw [UInt64.lt_iff_toNat_lt, hDeposited.gain]
      exact
        Nat.lt_add_of_pos_right
          (UInt64.lt_iff_toNat_lt.mp hSome)
    exact
      ⟨_, w,
        YieldVault.depositMeasured_eq_ok_iff.mpr
          ⟨⟨shares, hDeposit⟩, hMore, rfl⟩⟩

------------------------------------------------------------
-- Withdrawals
------------------------------------------------------------

/-
  Whatever part of the value of an owner's shares it asks for,
  an owner gets it: the shares burned for it are rounded up,
  but not beyond the owner's.
-/
theorem exists_withdrawMeasured
    {amount value : UInt64}
    (hVault : v.IsConsistent)
    (hValue : YieldVault.worth v owner = .ok value)
    (hAmount : 0 < amount)
    (hCovered : amount ≤ value) :
    ∃ w,
      YieldVault.withdrawMeasured owner amount v =
        .ok amount w := by
  rcases (hVault.withdraw_succeeds_iff hAmount hValue).mpr
      hCovered with
    ⟨received, w, hWithdraw⟩
  rcases withdrawn_of_withdraw hWithdraw with
    ⟨rfl, burned, hBurned, hWithdrawn⟩
  have hFewer : w.balanceOf owner < v.balanceOf owner := by
    have hLoss := hWithdrawn.loss
    have hSome :=
      UInt64.lt_iff_toNat_lt.mp
        (pos_of_sharesFor hAmount hBurned)
    rw [UInt64.lt_iff_toNat_lt]
    omega
  exact
    ⟨w,
      YieldVault.withdrawMeasured_eq_ok_iff.mpr
        ⟨hWithdraw, hFewer, UInt64.le_refl received⟩⟩

end IsConsistent

end ShareVault

end YieldManager

import YieldManager.Vault.Shares

/-
  A share vault that misbehaves on purpose.  It shows what
  measured access has to survive: deposits that issue
  nothing, withdrawals that burn nothing, and deliveries that
  fall short of the amount or exceed it.

  Key definitions include:
    * `FaultyVault`
    * `FaultyVault.deposit`
    * `FaultyVault.withdraw`
-/

------------------------------------------------------------
-- Misbehaving Vaults
------------------------------------------------------------

namespace YieldManager

/- A share vault and the ways in which it misbehaves. -/
structure FaultyVault (κ : Type) where
  shares : ShareVault κ
  issuesShares : Bool
  deliversAll : Bool
  burnsShares : Bool
  bonus : UInt64
deriving DecidableEq, Repr

namespace FaultyVault

variable {κ : Type} [DecidableEq κ]

/- The share vault inside. -/
def inner : Part (FaultyVault κ) (ShareVault κ) where
  get v := v.shares
  put w v := { v with shares := w }

/- A vault that issues no shares keeps the whole deposit. -/
def deposit
    (owner : κ)
    (amount : UInt64) : Action (FaultyVault κ) UInt64 := do
  let v ← get
  if v.issuesShares then
    Action.within inner (ShareVault.deposit owner amount)
  else
    let assets ← FixedPoint.add v.shares.assets amount
    modify fun v =>
      { v with shares := { v.shares with assets := assets } }
    return 0

/-
  A vault that burns no shares pays whoever asks.  One that
  burns them may deliver half of the amount, or a bonus on
  top of it.
-/
def withdraw
    (owner : κ)
    (amount : UInt64) : Action (FaultyVault κ) UInt64 := do
  let v ← get
  if v.burnsShares then
    let delivered ←
      Action.within inner (ShareVault.withdraw owner amount)
    if v.deliversAll then
      FixedPoint.add delivered v.bonus
    else
      return delivered / 2
  else
    let assets ←
      FixedPoint.sub v.shares.assets amount
        .insufficientVaultLiquidity
    modify fun v =>
      { v with shares := { v.shares with assets := assets } }
    return amount

instance : YieldVault κ (FaultyVault κ) where
  asset v := v.shares.asset
  balanceOf v := v.shares.balanceOf
  toAssets v := v.shares.toAssets
  deposit := deposit
  withdraw := withdraw

end FaultyVault

end YieldManager

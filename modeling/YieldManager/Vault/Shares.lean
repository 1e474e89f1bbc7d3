import YieldManager.FixedPoint
import YieldManager.Table
import YieldManager.Vault.Basic

/-
  The share vault: an account of assets and of the shares
  that own them.  A deposit pays a fee first and then buys
  shares, rounded down; a withdrawal burns shares, rounded
  up.  While the vault has no shares or no assets, one share
  buys one asset.

  Key definitions include:
    * `Holding`
    * `ShareVault`
    * `ShareVault.isValid`
    * `ShareVault.toShares`
    * `ShareVault.sharesFor`
    * `ShareVault.toAssets`
    * `ShareVault.balanceOf`
    * `ShareVault.deposit`
    * `ShareVault.withdraw`
-/

------------------------------------------------------------
-- The Vault
------------------------------------------------------------

namespace YieldManager

/- The shares of one owner. -/
structure Holding (κ : Type) where
  owner : κ
  shares : UInt64
deriving DecidableEq, Repr

/-
  A share vault over the mint `asset`.  The authority opened
  the vault and may attach a gauge to it.  Fees are kept
  apart from the assets that back the shares.
-/
structure ShareVault (κ : Type) where
  asset : κ
  authority : κ
  assets : UInt64
  supply : UInt64
  feeBps : UInt64
  fees : UInt64
  holdings : List (Holding κ)
  bump : UInt8
deriving DecidableEq, Repr

namespace ShareVault

variable {κ : Type} [DecidableEq κ]

/- The number of holdings a vault has room for. -/
def capacity : Nat := 16

/- The vault is over a mint, with a fee of at most 100%. -/
def isValid [Zero κ] (v : ShareVault κ) : Bool :=
  v.asset ≠ 0 &&
    v.feeBps ≤ FixedPoint.bpsScale &&
    v.holdings.length ≤ capacity

------------------------------------------------------------
-- Prices
------------------------------------------------------------

omit [DecidableEq κ] in
/- The shares that the given assets buy. -/
def toShares
    (v : ShareVault κ)
    (amount : UInt64) : Except Error UInt64 :=
  if v.supply = 0 ∨ v.assets = 0 then
    .ok amount
  else
    FixedPoint.mulDivDown amount v.supply v.assets

omit [DecidableEq κ] in
/- The shares burned to release the given assets. -/
def sharesFor
    (v : ShareVault κ)
    (amount : UInt64) : Except Error UInt64 :=
  if v.supply = 0 ∨ v.assets = 0 then
    .ok amount
  else
    FixedPoint.mulDivUp amount v.supply v.assets

omit [DecidableEq κ] in
/- The assets that the given shares stand for. -/
def toAssets
    (v : ShareVault κ)
    (shares : UInt64) : Except Error UInt64 :=
  if v.supply = 0 then
    .ok shares
  else
    FixedPoint.mulDivDown shares v.assets v.supply

------------------------------------------------------------
-- Holdings
------------------------------------------------------------

/- The holding of an owner, if there is one. -/
def holding?
    (v : ShareVault κ)
    (owner : κ) : Option (Holding κ) :=
  Table.find? Holding.owner owner v.holdings

/- The shares of an owner. -/
def balanceOf
    (v : ShareVault κ)
    (owner : κ) : UInt64 :=
  match v.holding? owner with
  | some h => h.shares
  | none => 0

/- Replace the holding of an owner. -/
def setHolding
    (v : ShareVault κ)
    (h : Holding κ) : ShareVault κ :=
  { v with
    holdings := Table.replace Holding.owner h v.holdings }

/-
  The holding of an owner; one without shares is opened when
  the owner has none and there is room for it.
-/
def openHolding (owner : κ) :
    Action (ShareVault κ) (Holding κ) := do
  match (← get).holding? owner with
  | some h => return h
  | none =>
      require ((← get).holdings.length < capacity)
        .capacityReached
      let h : Holding κ := { owner := owner, shares := 0 }
      modify fun v =>
        { v with holdings := v.holdings ++ [h] }
      return h

------------------------------------------------------------
-- Deposits and Withdrawals
------------------------------------------------------------

/- Deposit for an owner.  Answers the shares issued. -/
def deposit
    (owner : κ)
    (amount : UInt64) : Action (ShareVault κ) UInt64 := do
  let v ← get
  let fee ← FixedPoint.bpsOf amount v.feeBps
  let net ← FixedPoint.sub amount fee .mathOverflow
  let shares ← v.toShares net
  let assets ← FixedPoint.add v.assets net
  let supply ← FixedPoint.add v.supply shares
  let fees ← FixedPoint.add v.fees fee
  let h ← openHolding owner
  let owned ← FixedPoint.add h.shares shares
  modify fun v =>
    { v.setHolding { h with shares := owned } with
      assets := assets
      supply := supply
      fees := fees }
  return shares

/-
  Withdraw for an owner.  Answers the assets delivered.  The
  owner is debited before the supply is.
-/
def withdraw
    (owner : κ)
    (amount : UInt64) : Action (ShareVault κ) UInt64 := do
  let v ← get
  require (amount ≤ v.assets) .insufficientVaultLiquidity
  let shares ← v.sharesFor amount
  require (shares ≤ v.balanceOf owner) .insufficientShares
  let h ← openHolding owner
  modify fun v =>
    v.setHolding { h with shares := h.shares - shares }
  let supply ←
    FixedPoint.sub v.supply shares .insufficientShares
  modify fun v =>
    { v with
      supply := supply
      assets := v.assets - amount }
  return amount

instance : YieldVault κ (ShareVault κ) where
  asset := ShareVault.asset
  balanceOf := balanceOf
  toAssets := toAssets
  deposit := deposit
  withdraw := withdraw

end ShareVault

end YieldManager

import YieldManager.Action

/-
  Yield vaults take deposits of one asset and give shares for
  them.  A vault is not trusted: what a deposit or withdrawal
  did is measured by the owner's share balance before and
  after it, never taken from the vault's word.

  Key definitions include:
    * `YieldVault`
    * `YieldVault.worth`
    * `YieldVault.depositMeasured`
    * `YieldVault.withdrawMeasured`
-/

------------------------------------------------------------
-- Vaults
------------------------------------------------------------

namespace YieldManager

/-
  A type of vault states.  `deposit` answers the shares
  issued and `withdraw` the assets delivered, both as the
  vault claims them.
-/
class YieldVault
    (κ : outParam Type)
    (V : Type) where
  asset : V → κ
  balanceOf : V → κ → UInt64
  toAssets : V → UInt64 → Except Error UInt64
  deposit : κ → UInt64 → Action V UInt64
  withdraw : κ → UInt64 → Action V UInt64

------------------------------------------------------------
-- Measured Access
------------------------------------------------------------

namespace YieldVault

variable {κ V : Type} [YieldVault κ V]

/- The assets that the owner's shares stand for. -/
def worth
    (vault : V)
    (owner : κ) : Except Error UInt64 :=
  toAssets vault (balanceOf vault owner)

/-
  Deposit for an owner whose share balance has to grow.
  Answers the growth.
-/
def depositMeasured
    (owner : κ)
    (amount : UInt64) : Action V UInt64 := do
  let before := balanceOf (← get) owner
  let _ ← deposit owner amount
  let after := balanceOf (← get) owner
  require (before < after) .noSharesReceived
  return after - before

/-
  Withdraw for an owner whose share balance has to fall and
  to whom at least `amount` has to be delivered.  Answers
  what was delivered.
-/
def withdrawMeasured
    (owner : κ)
    (amount : UInt64) : Action V UInt64 := do
  let before := balanceOf (← get) owner
  let received ← withdraw owner amount
  let after := balanceOf (← get) owner
  require (after < before) .noSharesBurned
  require (amount ≤ received) .insufficientTokensReceived
  return received

end YieldVault

end YieldManager

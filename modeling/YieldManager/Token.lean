import YieldManager.FixedPoint

/-
  Amounts of tokens: how the holdings of a pool in one token
  are divided, and an amount of a named mint.

  Key definitions include:
    * `Balances`
    * `Balances.total`
    * `TokenAmount`
-/

------------------------------------------------------------
-- Balances
------------------------------------------------------------

namespace YieldManager

/-
  A pool holds `cash` of a token itself and has handed
  `managed` of it to the token's asset manager.
-/
structure Balances where
  cash : UInt64
  managed : UInt64
deriving DecidableEq, Repr

namespace Balances

/- All that a pool owns of the token. -/
def total (b : Balances) : Except Error UInt64 :=
  FixedPoint.add b.cash b.managed

end Balances

------------------------------------------------------------
-- Token Amounts
------------------------------------------------------------

/- An amount of the token of a mint. -/
structure TokenAmount (κ : Type) where
  mint : κ
  amount : UInt64
deriving DecidableEq, Repr

end YieldManager

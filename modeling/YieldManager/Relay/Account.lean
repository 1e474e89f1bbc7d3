/-
  The account of a relayer, and the lock it carries.

  Key definitions include:
    * `Lock`
    * `RelayerAccount`
-/

------------------------------------------------------------
-- Locks and Accounts
------------------------------------------------------------

namespace YieldManager

/- The lock of a relayer. -/
inductive Lock where
  | idle
  | locked
deriving DecidableEq, Repr

/-
  A relayer of one pool.  The authority is that of the pool;
  it alone moves capital outside a join or exit.
-/
structure RelayerAccount (κ : Type) where
  authority : κ
  poolId : κ
  ledger : κ
  lock : Lock
  bump : UInt8
deriving DecidableEq, Repr

end YieldManager

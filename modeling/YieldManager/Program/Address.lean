import YieldManager.Wire.Codec

/-
  The addresses of a running program.  Besides raw keys there
  are derived addresses, which the program computes from a
  seed and other addresses.  Derived addresses are kept in
  symbolic form: different seeds or arguments give different
  addresses, and none of them is a raw key.

  Key definitions include:
    * `Seed`
    * `Seed.text`
    * `Address`
    * `Address.program`
    * `Address.tokenProgram`
    * `Address.codec`
-/

------------------------------------------------------------
-- Seeds
------------------------------------------------------------

namespace YieldManager

/- What a derived address is for. -/
inductive Seed where
  | ledger
  | manager
  | shareVault
  | gauge
  | forwarder
  | relayer
deriving DecidableEq, Repr

namespace Seed

/- All seeds. -/
def all : List Seed :=
  [.ledger, .manager, .shareVault, .gauge, .forwarder,
    .relayer]

/- The word that a derivation starts from. -/
def text : Seed → String
  | .ledger => "pool_ledger"
  | .manager => "asset_manager"
  | .shareVault => "share_vault"
  | .gauge => "gauge"
  | .forwarder => "reward_forwarder"
  | .relayer => "relayer"

end Seed

------------------------------------------------------------
-- Addresses
------------------------------------------------------------

/- A raw key, or the address derived from a seed. -/
inductive Address where
  | raw (key : Key)
  | derived (seed : Seed) (args : List Address)

namespace Address

mutual

/- Decide whether two addresses are the same. -/
def decEq : (a b : Address) → Decidable (a = b)
  | .raw k, .raw l =>
      if h : k = l then .isTrue (by rw [h])
      else .isFalse (by intro e; cases e; exact h rfl)
  | .raw _, .derived _ _ => .isFalse nofun
  | .derived _ _, .raw _ => .isFalse nofun
  | .derived s as, .derived t bs =>
      if h : s = t then
        match decEqList as bs with
        | .isTrue e => .isTrue (by rw [h, e])
        | .isFalse n =>
            .isFalse (by intro e; cases e; exact n rfl)
      else .isFalse (by intro e; cases e; exact h rfl)

/- Decide whether two lists of addresses are the same. -/
def decEqList : (as bs : List Address) → Decidable (as = bs)
  | [], [] => .isTrue rfl
  | [], _ :: _ => .isFalse nofun
  | _ :: _, [] => .isFalse nofun
  | a :: as, b :: bs =>
      match decEq a b, decEqList as bs with
      | .isTrue e, .isTrue f => .isTrue (by rw [e, f])
      | .isFalse n, _ =>
          .isFalse (by intro e; cases e; exact n rfl)
      | _, .isFalse n =>
          .isFalse (by intro e; cases e; exact n rfl)

end

instance : DecidableEq Address :=
  decEq

instance : Zero Address where
  zero := .raw 0

/- The address of the system program is the zero key. -/
def system : Address :=
  0

/- The address of the program itself. -/
def program : Address :=
  .raw
    { toBytes :=
        [ 0x8d, 0x82, 0x23, 0xa9, 0x1a, 0xe5, 0xf3, 0x77,
          0xe9, 0xb2, 0x43, 0x6a, 0x31, 0xb5, 0x80, 0x99,
          0x43, 0x3a, 0xe5, 0x77, 0x85, 0x78, 0x31, 0x62,
          0x1d, 0x76, 0xc3, 0x23, 0xd8, 0x30, 0x0a, 0xf5 ]
      length_toBytes := rfl }

/- The address of the program that keeps mints. -/
def tokenProgram : Address :=
  .raw
    { toBytes :=
        [ 0x06, 0xdd, 0xf6, 0xe1, 0xd7, 0x65, 0xa1, 0x93,
          0xd9, 0xcb, 0xe1, 0x46, 0xce, 0xeb, 0x79, 0xac,
          0x1c, 0xb4, 0x85, 0xed, 0x5f, 0x5b, 0x37, 0x91,
          0x3a, 0x8c, 0xf5, 0x85, 0x7e, 0xff, 0x00, 0xa9 ]
      length_toBytes := rfl }

------------------------------------------------------------
-- The Addresses of Accounts
------------------------------------------------------------

/- The address of the ledger of a pool. -/
def ofLedger (poolId : Address) : Address :=
  .derived .ledger [poolId]

/- The address of the relayer of a pool. -/
def ofRelayer (poolId : Address) : Address :=
  .derived .relayer [poolId]

/- The address of the manager of a token of a pool. -/
def ofManager (poolId token : Address) : Address :=
  .derived .manager [poolId, token]

/- The address of an authority's vault over a mint. -/
def ofShareVault (authority asset : Address) : Address :=
  .derived .shareVault [authority, asset]

/- The address of the gauge of a vault. -/
def ofGauge (vault : Address) : Address :=
  .derived .gauge [vault]

/- The address of an authority's forwarder. -/
def ofForwarder (authority : Address) : Address :=
  .derived .forwarder [authority]

/-
  The number that records how an address was derived.  A
  symbolic derivation takes the first one that is tried.
-/
def bump : UInt8 :=
  255

------------------------------------------------------------
-- Address Bytes
------------------------------------------------------------

/-
  The bytes of an address, given those of derived addresses.
-/
def toKey
    (derive : Seed → List Address → Key) : Address → Key
  | .raw key => key
  | .derived seed args => derive seed args

/-
  The layout of addresses, given the bytes of the derived
  ones.  An address read from bytes is a raw key.
-/
def codec
    (derive : Seed → List Address → Key) :
    Codec Address where
  encode a := (a.toKey derive).toBytes
  decode bytes := do
    let (key, rest) ← Codec.key.decode bytes
    return (.raw key, rest)

/-
  The layout of addresses with blanks for the derived ones.
  It serves to read bytes and to measure records.
-/
def blank : Codec Address :=
  codec fun _ _ => 0

end Address

end YieldManager

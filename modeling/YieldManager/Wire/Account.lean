import YieldManager.Wire.Record

/-
  The accounts that the program keeps.  Their bytes begin
  with an eight-byte tag that tells the kinds of accounts
  apart; what follows the record itself is not looked at.

  Key definitions include:
    * `Kind`
    * `Kind.tag`
    * `Kind.space`
    * `State`
    * `State.kind`
    * `Stored`
    * `Stored.toBytes`
    * `Stored.ofBytes`
    * `State.toBytes`
-/

------------------------------------------------------------
-- Kinds of Accounts
------------------------------------------------------------

namespace YieldManager

/- The kinds of accounts. -/
inductive Kind where
  | manager
  | ledger
  | shareVault
  | gauge
  | forwarder
  | relayer
deriving DecidableEq, Repr

namespace Kind

/- All kinds. -/
def all : List Kind :=
  [.manager, .ledger, .shareVault, .gauge, .forwarder,
    .relayer]

/- The name under which a kind is known to callers. -/
def name : Kind → String
  | .manager => "AssetManager"
  | .ledger => "PoolLedger"
  | .shareVault => "ShareVault"
  | .gauge => "Gauge"
  | .forwarder => "RewardForwarder"
  | .relayer => "RelayerState"

/- The number of bytes in a tag. -/
def tagLength : Nat := 8

/- The bytes with which an account of a kind begins. -/
def tag : Kind → List UInt8
  | .manager =>
      [0x88, 0x56, 0xa7, 0x62, 0xdc, 0x30, 0x36, 0x61]
  | .ledger =>
      [0x9d, 0x4b, 0xc8, 0x24, 0x8a, 0x27, 0xe5, 0xc1]
  | .shareVault =>
      [0x81, 0x52, 0x41, 0xe1, 0x7d, 0x21, 0x83, 0x45]
  | .gauge =>
      [0x09, 0x13, 0xf9, 0xbd, 0x9e, 0xab, 0xe2, 0xcd]
  | .forwarder =>
      [0xe8, 0x9d, 0x5e, 0xb1, 0x18, 0xcd, 0x0c, 0xcb]
  | .relayer =>
      [0x09, 0x94, 0x45, 0x60, 0x71, 0x42, 0x36, 0x2e]

/-
  The bytes set aside for an account when it is created: the
  tag, the fields of fixed size with some slack, and room for
  a full table.
-/
def space : Kind → Nat
  | .manager => tagLength + 288
  | .ledger => tagLength + 128 + Ledger.capacity * 80
  | .shareVault => tagLength + 128 + ShareVault.capacity * 40
  | .gauge => tagLength + 128 + Gauge.capacity * 40
  | .forwarder => tagLength + 32 + Forwarder.capacity * 40
  | .relayer => tagLength + 98

end Kind

------------------------------------------------------------
-- Records of Accounts
------------------------------------------------------------

/- What an account holds. -/
inductive State (κ : Type) where
  | manager (m : Manager κ)
  | ledger (l : Ledger κ)
  | shareVault (v : ShareVault κ)
  | gauge (g : Gauge κ)
  | forwarder (f : Forwarder κ)
  | relayer (r : RelayerAccount κ)
deriving DecidableEq, Repr

namespace State

variable {κ : Type}

/- The kind of account that holds this. -/
def kind : State κ → Kind
  | .manager _ => .manager
  | .ledger _ => .ledger
  | .shareVault _ => .shareVault
  | .gauge _ => .gauge
  | .forwarder _ => .forwarder
  | .relayer _ => .relayer

end State

/-
  Records that fill an account: their kind, their layout, and
  how they sit among the states.
-/
class Stored (R : Type → Type) where
  kind : Kind
  layout {κ : Type} : Codec κ → Codec (R κ)
  bump {κ : Type} : R κ → UInt8
  wrap {κ : Type} : R κ → State κ
  unwrap? {κ : Type} : State κ → Option (R κ)

instance : Stored Manager where
  kind := .manager
  layout := Wire.manager
  bump := Manager.bump
  wrap := .manager
  unwrap?
    | .manager m => some m
    | _ => none

instance : Stored Ledger where
  kind := .ledger
  layout := Wire.ledger
  bump := Ledger.bump
  wrap := .ledger
  unwrap?
    | .ledger l => some l
    | _ => none

instance : Stored ShareVault where
  kind := .shareVault
  layout := Wire.shareVault
  bump := ShareVault.bump
  wrap := .shareVault
  unwrap?
    | .shareVault v => some v
    | _ => none

instance : Stored Gauge where
  kind := .gauge
  layout := Wire.gauge
  bump := Gauge.bump
  wrap := .gauge
  unwrap?
    | .gauge g => some g
    | _ => none

instance : Stored Forwarder where
  kind := .forwarder
  layout := Wire.forwarder
  bump := Forwarder.bump
  wrap := .forwarder
  unwrap?
    | .forwarder f => some f
    | _ => none

instance : Stored RelayerAccount where
  kind := .relayer
  layout := Wire.relayer
  bump := RelayerAccount.bump
  wrap := .relayer
  unwrap?
    | .relayer r => some r
    | _ => none

------------------------------------------------------------
-- Account Bytes
------------------------------------------------------------

/- Why the bytes of an account are not read. -/
inductive Unreadable where
  | noTag
  | otherTag
  | badRecord
deriving DecidableEq, Repr

namespace Stored

variable {R : Type → Type} [Stored R] {κ : Type}

/- A record behind the tag of its kind. -/
def toBytes
    (key : Codec κ)
    (record : R κ) : List UInt8 :=
  (kind R).tag ++ (layout key).encode record

/- Read a record of the expected kind. -/
def ofBytes
    (R : Type → Type) [Stored R]
    (key : Codec κ)
    (bytes : List UInt8) : Except Unreadable (R κ) :=
  if bytes.length < Kind.tagLength then
    .error .noTag
  else if bytes.take Kind.tagLength ≠ (kind R).tag then
    .error .otherTag
  else
    match (layout key).decode (bytes.drop Kind.tagLength) with
    | some (record, _) => .ok record
    | none => .error .badRecord

end Stored

namespace State

variable {κ : Type}

/- The bytes of an account that holds this. -/
def toBytes
    (key : Codec κ) : State κ → List UInt8
  | .manager m => Stored.toBytes key m
  | .ledger l => Stored.toBytes key l
  | .shareVault v => Stored.toBytes key v
  | .gauge g => Stored.toBytes key g
  | .forwarder f => Stored.toBytes key f
  | .relayer r => Stored.toBytes key r

/- Read an account of whichever kind its tag names. -/
def ofBytes?
    (key : Codec κ)
    (bytes : List UInt8) : Option (State κ) :=
  let read (R : Type → Type) [Stored R] :
      Option (State κ) :=
    (Stored.ofBytes R key bytes).toOption.map Stored.wrap
  read Manager <|> read Ledger <|> read ShareVault <|>
    read Gauge <|> read Forwarder <|> read RelayerAccount

end State

end YieldManager

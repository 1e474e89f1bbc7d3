import YieldManager.Program.Address
import YieldManager.Proofs.Wire.Account

/-
  How many bytes an account takes.  Fields of fixed size take
  the same number of bytes whatever they hold, so the length
  of an account is given by the number of lines in its table.
  With as many lines as a table may have, an account still
  fits into the space set aside for its kind.

  Main declarations:
    * `Codec.Takes`
    * `Codec.length_pair`
    * `Codec.Takes.length_list`
    * `State.length`
    * `State.length_toBytes`
    * `State.IsWithin`
    * `State.length_le_space`
-/

------------------------------------------------------------
-- Layouts of Fixed Length
------------------------------------------------------------

namespace YieldManager

namespace Codec

variable {α β : Type}
variable {c : Codec α} {d : Codec β}
variable {m n : Nat}

/- Every value takes the same number of bytes. -/
def Takes
    (c : Codec α)
    (n : Nat) : Prop :=
  ∀ x, (c.encode x).length = n

/- One value after another takes the bytes of both. -/
theorem length_pair
    (c : Codec α)
    (d : Codec β)
    (p : α × β) :
    ((c.pair d).encode p).length =
      (c.encode p.1).length + (d.encode p.2).length :=
  List.length_append

/- The same layout takes the same bytes. -/
theorem length_iso
    (c : Codec α)
    (pack : α → β)
    (unpack : β → α)
    (y : β) :
    ((c.iso pack unpack).encode y).length =
      (c.encode (unpack y)).length :=
  rfl

/- Two layouts of fixed length make another one. -/
theorem Takes.pair
    (hFirst : c.Takes m)
    (hSecond : d.Takes n) :
    (c.pair d).Takes (m + n) := by
  intro p
  rw [length_pair, hFirst, hSecond]

/- A layout of fixed length may serve for other values. -/
theorem Takes.iso
    (hTakes : c.Takes n)
    (pack : α → β)
    (unpack : β → α) :
    (c.iso pack unpack).Takes n :=
  fun y => hTakes (unpack y)

/- Digits take one byte each. -/
theorem length_digits
    (width n : Nat) :
    (digits width n).length = width := by
  induction width generalizing n with
  | zero => rfl
  | succ width ih =>
      rw [digits, List.length_cons, ih]

/- A byte takes one byte. -/
theorem takes_byte : byte.Takes 1 :=
  fun _ => rfl

/- A truth value takes one byte. -/
theorem takes_bool : bool.Takes 1 :=
  fun _ => rfl

/- An amount takes eight bytes. -/
theorem takes_amount : amount.Takes 8 :=
  fun x => length_digits 8 x.toNat

/- An option takes one byte, and those of its value. -/
theorem Takes.length_option
    (hTakes : c.Takes n)
    (x : Option α) :
    (c.option.encode x).length = 1 + x.elim 0 fun _ => n := by
  cases x with
  | none => rfl
  | some y =>
      change (1 :: c.encode y).length = 1 + n
      rw [List.length_cons, hTakes, Nat.add_comm]

/- A list takes four bytes, and those of its members. -/
theorem Takes.length_list
    (hTakes : c.Takes n)
    (xs : List α) :
    (c.list.encode xs).length = 4 + n * xs.length := by
  have hMembers :
      (xs.flatMap c.encode).length = n * xs.length := by
    induction xs with
    | nil => rfl
    | cons x xs ih =>
        rw [List.flatMap_cons, List.length_append, hTakes, ih,
          List.length_cons, Nat.mul_succ, Nat.add_comm]
  change (digits 4 xs.length ++ xs.flatMap c.encode).length = _
  rw [List.length_append, length_digits, hMembers]

end Codec

/- Addresses take the bytes of a key, derived or not. -/
theorem Address.takes_codec
    (derive : Seed → List Address → Key) :
    (Address.codec derive).Takes 32 :=
  fun a => (a.toKey derive).length_toBytes

/- A blank takes the bytes of a key, too. -/
theorem Address.takes_blank : Address.blank.Takes 32 :=
  Address.takes_codec fun _ _ => 0

------------------------------------------------------------
-- Lengths of Records
------------------------------------------------------------

namespace Wire

open Codec (takes_amount takes_bool takes_byte)

/- A lock takes one byte. -/
theorem takes_lock : lock.Takes 1 :=
  fun _ => rfl

/- Targets take three amounts. -/
theorem takes_targets : targets.Takes 24 :=
  (takes_amount.pair (takes_amount.pair takes_amount)).iso _ _

variable {κ : Type} {key : Codec κ}
variable (hKey : key.Takes 32)

include hKey

/- A line of a ledger takes 80 bytes. -/
theorem takes_entry : (entry key).Takes 80 :=
  (hKey.pair
    (takes_amount.pair (takes_amount.pair hKey))).iso _ _

/- A line of a vault takes 40 bytes. -/
theorem takes_holding : (holding key).Takes 40 :=
  (hKey.pair takes_amount).iso _ _

/- A line of a gauge takes 40 bytes. -/
theorem takes_accrual : (accrual key).Takes 40 :=
  (hKey.pair takes_amount).iso _ _

/- A line of a forwarder takes 40 bytes. -/
theorem takes_tokenAmount : (tokenAmount key).Takes 40 :=
  (hKey.pair takes_amount).iso _ _

/- A manager takes 32 bytes more if it has a gauge. -/
theorem length_manager
    (m : Manager κ) :
    ((manager key).encode m).length =
      251 + m.gauge.elim 0 fun _ => 32 := by
  simp only [manager, Codec.length_iso, Codec.length_pair,
    hKey _, hKey.length_option, takes_targets _,
    takes_bool _, takes_byte _]
  omega

/- A ledger takes its lines, and 101 bytes. -/
theorem length_ledger
    (l : Ledger κ) :
    ((ledger key).encode l).length =
      101 + 80 * l.entries.length := by
  simp only [ledger, Codec.length_iso, Codec.length_pair,
    hKey _, (takes_entry hKey).length_list, takes_byte _]
  omega

/- A vault takes its lines, and 101 bytes. -/
theorem length_shareVault
    (v : ShareVault κ) :
    ((shareVault key).encode v).length =
      101 + 40 * v.holdings.length := by
  simp only [shareVault, Codec.length_iso,
    Codec.length_pair, hKey _, takes_amount _,
    (takes_holding hKey).length_list, takes_byte _]
  omega

/- A gauge takes its lines, and 101 bytes. -/
theorem length_gauge
    (g : Gauge κ) :
    ((gauge key).encode g).length =
      101 + 40 * g.accruals.length := by
  simp only [gauge, Codec.length_iso, Codec.length_pair,
    hKey _, (takes_accrual hKey).length_list, takes_byte _]
  omega

/- A forwarder takes its lines, and 5 bytes. -/
theorem length_forwarder
    (f : Forwarder κ) :
    ((forwarder key).encode f).length =
      5 + 40 * f.received.length := by
  simp only [forwarder, Codec.length_iso,
    Codec.length_pair, (takes_tokenAmount hKey).length_list,
    takes_byte _]
  omega

/- A relayer takes 98 bytes. -/
theorem length_relayer
    (r : RelayerAccount κ) :
    ((relayer key).encode r).length = 98 := by
  simp only [relayer, Codec.length_iso, Codec.length_pair,
    hKey _, takes_lock _, takes_byte _]

end Wire

------------------------------------------------------------
-- Lengths of Accounts
------------------------------------------------------------

variable {κ : Type} {key : Codec κ}

/- A record stands behind the eight bytes of its tag. -/
theorem Stored.length_toBytes
    {R : Type → Type} [Stored R]
    {r : R κ}
    {n : Nat}
    (hLength : ((layout key).encode r).length = n) :
    (Stored.toBytes key r).length = Kind.tagLength + n := by
  rw [Stored.toBytes, List.length_append, Kind.length_tag,
    hLength]

namespace State

/- The bytes that an account takes, with its tag. -/
def length : State κ → Nat
  | .manager m => 259 + m.gauge.elim 0 fun _ => 32
  | .ledger l => 109 + 80 * l.entries.length
  | .shareVault v => 109 + 40 * v.holdings.length
  | .gauge g => 109 + 40 * g.accruals.length
  | .forwarder f => 13 + 40 * f.received.length
  | .relayer _ => 106

/- An account is written with as many bytes as it takes. -/
theorem length_toBytes
    (hKey : key.Takes 32)
    (st : State κ) :
    (st.toBytes key).length = st.length := by
  cases st with
  | manager m =>
      have hRecord := Wire.length_manager hKey m
      have hAccount :=
        Stored.length_toBytes (R := Manager) hRecord
      simp only [toBytes, length, hAccount, Kind.tagLength]
      omega
  | ledger l =>
      have hRecord := Wire.length_ledger hKey l
      have hAccount :=
        Stored.length_toBytes (R := Ledger) hRecord
      simp only [toBytes, length, hAccount, Kind.tagLength]
      omega
  | shareVault v =>
      have hRecord := Wire.length_shareVault hKey v
      have hAccount :=
        Stored.length_toBytes (R := ShareVault) hRecord
      simp only [toBytes, length, hAccount, Kind.tagLength]
      omega
  | gauge g =>
      have hRecord := Wire.length_gauge hKey g
      have hAccount :=
        Stored.length_toBytes (R := Gauge) hRecord
      simp only [toBytes, length, hAccount, Kind.tagLength]
      omega
  | forwarder f =>
      have hRecord := Wire.length_forwarder hKey f
      have hAccount :=
        Stored.length_toBytes (R := Forwarder) hRecord
      simp only [toBytes, length, hAccount, Kind.tagLength]
      omega
  | relayer r =>
      have hRecord := Wire.length_relayer hKey r
      have hAccount :=
        Stored.length_toBytes (R := RelayerAccount) hRecord
      simp only [toBytes, length, hAccount, Kind.tagLength]

/- The table of an account has no more lines than it may. -/
def IsWithin : State κ → Prop
  | .manager _ => True
  | .ledger l => l.entries.length ≤ Ledger.capacity
  | .shareVault v => v.holdings.length ≤ ShareVault.capacity
  | .gauge g => g.accruals.length ≤ Gauge.capacity
  | .forwarder f => f.received.length ≤ Forwarder.capacity
  | .relayer _ => True

/-
  An account whose table has no more lines than it may fits
  into the space of its kind.
-/
theorem length_le_space
    {st : State κ}
    (hWithin : st.IsWithin) :
    st.length ≤ st.kind.space := by
  cases st with
  | manager m =>
      change 259 + m.gauge.elim 0 (fun _ => 32) ≤ 296
      cases m.gauge with
      | none => exact Nat.le_add_right 259 37
      | some key => exact Nat.le_add_right 291 5
  | ledger l =>
      change l.entries.length ≤ 8 at hWithin
      change 109 + 80 * l.entries.length ≤ 776
      omega
  | shareVault v =>
      change v.holdings.length ≤ 16 at hWithin
      change 109 + 40 * v.holdings.length ≤ 776
      omega
  | gauge g =>
      change g.accruals.length ≤ 16 at hWithin
      change 109 + 40 * g.accruals.length ≤ 776
      omega
  | forwarder f =>
      change f.received.length ≤ 8 at hWithin
      change 13 + 40 * f.received.length ≤ 360
      omega
  | relayer r => exact Nat.le_refl 106

end State

end YieldManager

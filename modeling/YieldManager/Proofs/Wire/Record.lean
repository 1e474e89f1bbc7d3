import YieldManager.Proofs.Wire.Codec
import YieldManager.Wire.Record

/-
  The layouts of the records are faithful, over every faithful
  layout of keys.  The only records that do not fit are those
  with a list whose length takes more than four bytes.

  Main declarations:
    * `Wire.faithful_manager`
    * `Wire.faithful_ledger`
    * `Wire.faithful_shareVault`
    * `Wire.faithful_gauge`
    * `Wire.faithful_forwarder`
    * `Wire.faithful_relayer`
    * `Wire.Part`
    * `Wire.Part.layout`
    * `Wire.Part.faithful`
-/

------------------------------------------------------------
-- Parts of Accounts
------------------------------------------------------------

namespace YieldManager

namespace Wire

open Codec (faithful_amount faithful_bool faithful_byte)

theorem faithful_balances :
    balances.Faithful fun _ => True :=
  ((faithful_amount.pair faithful_amount).iso
    (fun _ _ => rfl) fun _ => rfl).congr (by simp)

theorem faithful_targets :
    targets.Faithful fun _ => True :=
  ((faithful_amount.pair
    (faithful_amount.pair faithful_amount)).iso
    (fun _ _ => rfl) fun _ => rfl).congr (by simp)

/- A lock is free or taken, and so is a truth value. -/
theorem faithful_lock :
    lock.Faithful fun _ => True := by
  unfold lock
  apply Codec.Faithful.iso faithful_bool
  · intro b _
    cases b <;> rfl
  · intro l
    cases l <;> rfl

variable {κ : Type} {key : Codec κ}

/-
  Lists of records are bounded by nothing but their length, if
  every record fits.
-/
private theorem faithful_list
    {α : Type}
    {c : Codec α}
    (hFaithful : c.Faithful fun _ => True) :
    c.list.Faithful fun xs => xs.length < 2 ^ 32 :=
  hFaithful.list.congr (by simp)

theorem faithful_tokenAmount
    (hKey : key.Faithful fun _ => True) :
    (tokenAmount key).Faithful fun _ => True :=
  ((hKey.pair faithful_amount).iso
    (fun _ _ => rfl) fun _ => rfl).congr (by simp)

theorem faithful_terms
    (hKey : key.Faithful fun _ => True) :
    (terms key).Faithful fun _ => True :=
  ((hKey.pair (hKey.pair (hKey.pair (hKey.pair
    (hKey.pair hKey.option))))).iso
    (fun _ _ => rfl) fun _ => rfl).congr (by simp)

theorem faithful_entry
    (hKey : key.Faithful fun _ => True) :
    (entry key).Faithful fun _ => True :=
  ((hKey.pair (faithful_amount.pair
    (faithful_amount.pair hKey))).iso
    (fun _ _ => rfl) fun _ => rfl).congr (by simp)

theorem faithful_joinRequest
    (hKey : key.Faithful fun _ => True) :
    (joinRequest key).Faithful fun r =>
      r.assets.length < 2 ^ 32 ∧
        r.maxAmounts.length < 2 ^ 32 :=
  ((faithful_list hKey).pair
    (faithful_list faithful_amount)).iso
    (fun _ _ => rfl) fun _ => rfl

theorem faithful_exitRequest
    (hKey : key.Faithful fun _ => True) :
    (exitRequest key).Faithful fun r =>
      r.assets.length < 2 ^ 32 ∧
        r.minAmounts.length < 2 ^ 32 :=
  ((faithful_list hKey).pair
    (faithful_list faithful_amount)).iso
    (fun _ _ => rfl) fun _ => rfl

theorem faithful_holding
    (hKey : key.Faithful fun _ => True) :
    (holding key).Faithful fun _ => True :=
  ((hKey.pair faithful_amount).iso
    (fun _ _ => rfl) fun _ => rfl).congr (by simp)

theorem faithful_accrual
    (hKey : key.Faithful fun _ => True) :
    (accrual key).Faithful fun _ => True :=
  ((hKey.pair faithful_amount).iso
    (fun _ _ => rfl) fun _ => rfl).congr (by simp)

------------------------------------------------------------
-- Accounts
------------------------------------------------------------

theorem faithful_manager
    (hKey : key.Faithful fun _ => True) :
    (manager key).Faithful fun _ => True :=
  ((hKey.pair (hKey.pair (hKey.pair (hKey.pair (hKey.pair
    (hKey.option.pair (hKey.pair (hKey.pair
      (faithful_targets.pair
        (faithful_bool.pair faithful_byte)))))))))).iso
    (fun _ _ => rfl) fun _ => rfl).congr (by simp)

theorem faithful_ledger
    (hKey : key.Faithful fun _ => True) :
    (ledger key).Faithful fun l =>
      l.entries.length < 2 ^ 32 :=
  ((hKey.pair (hKey.pair (hKey.pair
    ((faithful_list (faithful_entry hKey)).pair
      faithful_byte)))).iso
    (fun _ _ => rfl) fun _ => rfl).congr (by simp)

theorem faithful_shareVault
    (hKey : key.Faithful fun _ => True) :
    (shareVault key).Faithful fun v =>
      v.holdings.length < 2 ^ 32 :=
  ((hKey.pair (hKey.pair (faithful_amount.pair
    (faithful_amount.pair (faithful_amount.pair
      (faithful_amount.pair
        ((faithful_list (faithful_holding hKey)).pair
          faithful_byte))))))).iso
    (fun _ _ => rfl) fun _ => rfl).congr (by simp)

theorem faithful_gauge
    (hKey : key.Faithful fun _ => True) :
    (gauge key).Faithful fun g =>
      g.accruals.length < 2 ^ 32 :=
  ((hKey.pair (hKey.pair (hKey.pair
    ((faithful_list (faithful_accrual hKey)).pair
      faithful_byte)))).iso
    (fun _ _ => rfl) fun _ => rfl).congr (by simp)

theorem faithful_forwarder
    (hKey : key.Faithful fun _ => True) :
    (forwarder key).Faithful fun f =>
      f.received.length < 2 ^ 32 :=
  (((faithful_list (faithful_tokenAmount hKey)).pair
    faithful_byte).iso
    (fun _ _ => rfl) fun _ => rfl).congr (by simp)

theorem faithful_relayer
    (hKey : key.Faithful fun _ => True) :
    (relayer key).Faithful fun _ => True :=
  ((hKey.pair (hKey.pair (hKey.pair
    (faithful_lock.pair faithful_byte)))).iso
    (fun _ _ => rfl) fun _ => rfl).congr (by simp)

------------------------------------------------------------
-- All Parts
------------------------------------------------------------

/- The records that are no accounts of their own. -/
inductive Part where
  | balances
  | targets
  | lock
  | tokenAmount
  | terms
  | entry
  | joinRequest
  | exitRequest
  | holding
  | accrual
deriving DecidableEq, Repr

namespace Part

/- The values of a record. -/
def Value (κ : Type) : Part → Type
  | .balances => Balances
  | .targets => Targets
  | .lock => Lock
  | .tokenAmount => TokenAmount κ
  | .terms => Terms κ
  | .entry => Entry κ
  | .joinRequest => JoinRequest κ
  | .exitRequest => ExitRequest κ
  | .holding => Holding κ
  | .accrual => Accrual κ

/- The layout of a record. -/
def layout
    (key : Codec κ) : (p : Part) → Codec (p.Value κ)
  | .balances => Wire.balances
  | .targets => Wire.targets
  | .lock => Wire.lock
  | .tokenAmount => Wire.tokenAmount key
  | .terms => Wire.terms key
  | .entry => Wire.entry key
  | .joinRequest => Wire.joinRequest key
  | .exitRequest => Wire.exitRequest key
  | .holding => Wire.holding key
  | .accrual => Wire.accrual key

/- The lists of a record are shorter than 2 ^ 32. -/
def Fits : (p : Part) → p.Value κ → Prop
  | .joinRequest, r =>
      r.assets.length < 2 ^ 32 ∧ r.maxAmounts.length < 2 ^ 32
  | .exitRequest, r =>
      r.assets.length < 2 ^ 32 ∧ r.minAmounts.length < 2 ^ 32
  | _, _ => True

/- Every record that fits has bytes of its own. -/
theorem faithful
    (hKey : key.Faithful fun _ => True)
    (p : Part) :
    (p.layout key).Faithful p.Fits := by
  cases p with
  | balances => exact faithful_balances
  | targets => exact faithful_targets
  | lock => exact faithful_lock
  | tokenAmount => exact faithful_tokenAmount hKey
  | terms => exact faithful_terms hKey
  | entry => exact faithful_entry hKey
  | joinRequest => exact faithful_joinRequest hKey
  | exitRequest => exact faithful_exitRequest hKey
  | holding => exact faithful_holding hKey
  | accrual => exact faithful_accrual hKey

end Part

end Wire

end YieldManager

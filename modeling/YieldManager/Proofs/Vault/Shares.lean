import YieldManager.Proofs.Vault.Holdings

/-
  Deposits and withdrawals of a share vault.  A deposit splits
  the amount into a fee and a net amount, and a withdrawal
  burns shares for what it delivers; each reassigns the shares
  of one owner.

  Main declarations:
    * `ShareVault.SameTerms`
    * `ShareVault.Deposited`
    * `ShareVault.deposited_of_deposit`
    * `ShareVault.mem_owners_of_deposit`
    * `ShareVault.exists_deposit`
    * `ShareVault.deposit_of_full`
    * `ShareVault.Withdrawn`
    * `ShareVault.withdrawn_of_withdraw`
    * `ShareVault.mem_owners_of_withdraw`
    * `ShareVault.exists_withdraw`
-/

------------------------------------------------------------
-- Deposits
------------------------------------------------------------

namespace YieldManager

namespace ShareVault

variable {κ : Type}

/- Two vaults over one mint, on the same terms. -/
structure SameTerms (v w : ShareVault κ) : Prop where
  asset : w.asset = v.asset
  authority : w.authority = v.authority
  feeBps : w.feeBps = v.feeBps
  bump : w.bump = v.bump

namespace SameTerms

/- A vault has its own terms. -/
theorem refl (v : ShareVault κ) : SameTerms v v :=
  ⟨rfl, rfl, rfl, rfl⟩

/- Having the same terms is transitive. -/
theorem trans
    {u v w : ShareVault κ}
    (hFirst : SameTerms u v)
    (hSecond : SameTerms v w) :
    SameTerms u w :=
  ⟨hSecond.asset.trans hFirst.asset,
    hSecond.authority.trans hFirst.authority,
    hSecond.feeBps.trans hFirst.feeBps,
    hSecond.bump.trans hFirst.bump⟩

end SameTerms

variable [DecidableEq κ]

/- A vault stays valid while its owners find room. -/
theorem SameTerms.isValid
    [Zero κ]
    {v w : ShareVault κ}
    (hTerms : SameTerms v w)
    (hCapacity :
      v.holdings.length ≤ capacity →
        w.holdings.length ≤ capacity)
    (hValid : v.isValid = true) :
    w.isValid = true := by
  simp only [ShareVault.isValid, Bool.and_eq_true,
    decide_eq_true_eq] at hValid ⊢
  rw [hTerms.asset, hTerms.feeBps]
  exact ⟨hValid.1, hCapacity hValid.2⟩

/-
  What a deposit changes: the net amount joins the assets, the
  fee is set aside, and the owner gains the shares.
-/
structure Deposited
    (owner : κ)
    (fee net shares : UInt64)
    (v w : ShareVault κ) : Prop where
  terms : SameTerms v w
  assets : w.assets.toNat = v.assets.toNat + net.toNat
  supply : w.supply.toNat = v.supply.toNat + shares.toNat
  fees : w.fees.toNat = v.fees.toNat + fee.toNat
  gain :
    (w.balanceOf owner).toNat =
      (v.balanceOf owner).toNat + shares.toNat
  reassigned : Reassigned owner (w.balanceOf owner) v w

/- The fee of an amount, and what is left of it. -/
def Splits
    (v : ShareVault κ)
    (amount fee net : UInt64) : Prop :=
  FixedPoint.bpsOf amount v.feeBps = .ok fee ∧
    net.toNat + fee.toNat = amount.toNat

/- A successful deposit, step by step. -/
private theorem deposit_steps
    {owner : κ}
    {amount shares : UInt64}
    {v w : ShareVault κ} :
    deposit owner amount v = .ok shares w ↔
      ∃ fee net assets supply fees h v₁ owned,
        Splits v amount fee net ∧
          v.toShares net = .ok shares ∧
          assets.toNat = v.assets.toNat + net.toNat ∧
          supply.toNat = v.supply.toNat + shares.toNat ∧
          fees.toNat = v.fees.toNat + fee.toNat ∧
          openHolding owner v = .ok h v₁ ∧
          owned.toNat = h.shares.toNat + shares.toNat ∧
          { v₁.setHolding { h with shares := owned } with
            assets := assets
            supply := supply
            fees := fees } = w := by
  simp only [deposit, Splits, Action.bind_eq_ok_iff,
    Action.get_eq_ok_iff, Action.lift_eq_ok_iff,
    Action.modify_eq_ok_iff, Action.pure_eq_ok_iff,
    FixedPoint.sub_eq_ok_iff, FixedPoint.add_eq_ok_iff]
  constructor
  · intro hSteps
    rcases hSteps with
      ⟨_, _, ⟨rfl, rfl⟩, fee, _, ⟨hFee, rfl⟩, net, _,
        ⟨hNet, rfl⟩, _, _, ⟨hShares, rfl⟩, assets, _,
        ⟨hAssets, rfl⟩, supply, _, ⟨hSupply, rfl⟩, fees, _,
        ⟨hFees, rfl⟩, h, v₁, hOpen, owned, _, ⟨hOwned, rfl⟩,
        _, _, hWrite, rfl, rfl⟩
    exact
      ⟨fee, net, assets, supply, fees, h, v₁, owned,
        ⟨hFee, hNet⟩, hShares, hAssets, hSupply, hFees, hOpen,
        hOwned, hWrite⟩
  · intro hSteps
    rcases hSteps with
      ⟨fee, net, assets, supply, fees, h, v₁, owned,
        ⟨hFee, hNet⟩, hShares, hAssets, hSupply, hFees,
        hOpen, hOwned, hWrite⟩
    exact
      ⟨v, v, ⟨rfl, rfl⟩, fee, v, ⟨hFee, rfl⟩, net, v,
        ⟨hNet, rfl⟩, shares, v, ⟨hShares, rfl⟩, assets, v,
        ⟨hAssets, rfl⟩, supply, v, ⟨hSupply, rfl⟩, fees, v,
        ⟨hFees, rfl⟩, h, v₁, hOpen, owned, v₁,
        ⟨hOwned, rfl⟩, (), w, hWrite, rfl, rfl⟩

/- Opening a holding touches nothing but the holdings. -/
private theorem sameTerms_of_openHolding
    {owner : κ}
    {v w : ShareVault κ}
    {h : Holding κ}
    (hOpen : openHolding owner v = .ok h w) :
    SameTerms v w ∧ w.assets = v.assets ∧
      w.supply = v.supply ∧ w.fees = v.fees := by
  rcases openHolding_eq_ok_iff.mp hOpen with
    ⟨-, rfl⟩ | ⟨-, -, -, rfl⟩
  · exact ⟨⟨rfl, rfl, rfl, rfl⟩, rfl, rfl, rfl⟩
  · exact ⟨⟨rfl, rfl, rfl, rfl⟩, rfl, rfl, rfl⟩

/- What a successful deposit changes. -/
theorem deposited_of_deposit
    {owner : κ}
    {amount shares : UInt64}
    {v w : ShareVault κ}
    (hRun : deposit owner amount v = .ok shares w) :
    ∃ fee net,
      Splits v amount fee net ∧
        v.toShares net = .ok shares ∧
        Deposited owner fee net shares v w := by
  rcases deposit_steps.mp hRun with
    ⟨fee, net, assets, supply, fees, h, v₁, owned, hSplit,
      hShares, hAssets, hSupply, hFees, hOpen, hOwned, rfl⟩
  rcases reassigned_of_openHolding hOpen owned with
    ⟨hBefore, hReassigned⟩
  have hTerms := (sameTerms_of_openHolding hOpen).1
  have hAfter :
      (v₁.setHolding { h with shares := owned }).balanceOf
        owner = owned :=
    hReassigned.own
  refine
    ⟨fee, net, hSplit, hShares,
      { terms :=
          ⟨hTerms.asset, hTerms.authority, hTerms.feeBps,
            hTerms.bump⟩
        assets := hAssets
        supply := hSupply
        fees := hFees
        gain := ?_
        reassigned := ?_ }⟩
  · change
      ((v₁.setHolding
        { h with shares := owned }).balanceOf owner).toNat = _
    rw [hAfter, hOwned, hBefore]
  · change
      Reassigned owner
        ((v₁.setHolding
          { h with shares := owned }).balanceOf owner) v _
    rw [hAfter]
    exact
      ⟨hReassigned.own, hReassigned.others,
        hReassigned.owners, hReassigned.kept,
        hReassigned.nodup, hReassigned.issued,
        hReassigned.capacity⟩

/- Room for an owner: a holding, or space for a new one. -/
def HasRoom
    (v : ShareVault κ)
    (owner : κ) : Prop :=
  owner ∈ v.owners ∨ v.holdings.length < capacity

/- A holding can be opened where there is room. -/
theorem exists_openHolding
    {owner : κ}
    {v : ShareVault κ}
    (hRoom : HasRoom v owner) :
    ∃ h v₁, openHolding owner v = .ok h v₁ := by
  cases hFound : v.holding? owner with
  | some h =>
      exact
        ⟨h, v,
          openHolding_eq_ok_iff.mpr (Or.inl ⟨hFound, rfl⟩)⟩
  | none =>
      have hNew : owner ∉ v.owners :=
        Table.find?_eq_none_iff.mp hFound
      have hSpace : v.holdings.length < capacity := by
        rcases hRoom with hOwner | hSpace
        · exact absurd hOwner hNew
        · exact hSpace
      exact
        ⟨_, _,
          openHolding_eq_ok_iff.mpr
            (Or.inr ⟨hFound, hSpace, rfl, rfl⟩)⟩

/- Where a deposit succeeds, there was room for the owner. -/
theorem hasRoom_of_deposit
    {owner : κ}
    {amount shares : UInt64}
    {v w : ShareVault κ}
    (hRun : deposit owner amount v = .ok shares w) :
    HasRoom v owner := by
  rcases deposit_steps.mp hRun with
    ⟨fee, net, assets, supply, fees, h, v₁, owned, -, -, -,
      -, -, hOpen, -, -⟩
  rcases openHolding_eq_ok_iff.mp hOpen with
    ⟨hFound, -⟩ | ⟨-, hSpace, -, -⟩
  · apply Or.inl
    rw [← Table.key_of_find? hFound]
    exact List.mem_map_of_mem (Table.mem_of_find? hFound)
  · exact Or.inr hSpace

/- Whoever deposits has a holding. -/
theorem mem_owners_of_deposit
    {owner : κ}
    {amount shares : UInt64}
    {v w : ShareVault κ}
    (hRun : deposit owner amount v = .ok shares w) :
    owner ∈ w.owners := by
  rcases deposit_steps.mp hRun with
    ⟨fee, net, assets, supply, fees, h, v₁, owned, -, -, -,
      -, -, hOpen, -, rfl⟩
  exact
    mem_owners_of_openHolding hOpen
      { h with shares := owned }

/- Without room for the owner, no holding is opened. -/
theorem openHolding_of_full
    {owner : κ}
    {v : ShareVault κ}
    (hFull : ¬ HasRoom v owner) :
    openHolding owner v = .error .capacityReached v := by
  unfold HasRoom at hFull
  rw [not_or] at hFull
  have hNone : v.holding? owner = none :=
    Table.find?_eq_none_iff.mpr hFull.1
  change
    ((get : Action (ShareVault κ) (ShareVault κ)) >>= _) v =
      _
  rw [Action.get_bind_eq]
  simp only [hNone]
  rw [Action.get_bind_eq]
  apply Action.lift_bind_of_error
  unfold require
  rw [if_neg hFull.2]

/- A deposit that would fit is refused for want of room. -/
theorem deposit_of_full
    {owner : κ}
    {amount fee net shares : UInt64}
    {v : ShareVault κ}
    (hSplit : Splits v amount fee net)
    (hShares : v.toShares net = .ok shares)
    (hAssets :
      v.assets.toNat + net.toNat < UInt64.size)
    (hSupply :
      v.supply.toNat + shares.toNat < UInt64.size)
    (hFees : v.fees.toNat + fee.toNat < UInt64.size)
    (hFull : ¬ HasRoom v owner) :
    deposit owner amount v = .error .capacityReached v := by
  rcases hSplit with ⟨hFee, hNet⟩
  rcases FixedPoint.exists_toNat_eq hAssets with
    ⟨assets, hAssets⟩
  rcases FixedPoint.exists_toNat_eq hSupply with
    ⟨supply, hSupply⟩
  rcases FixedPoint.exists_toNat_eq hFees with ⟨fees, hFees⟩
  change
    ((get : Action (ShareVault κ) (ShareVault κ)) >>= _) v =
      _
  rw [Action.get_bind_eq, Action.lift_bind_eq hFee,
    Action.lift_bind_eq (FixedPoint.sub_eq_ok_iff.mpr hNet),
    Action.lift_bind_eq hShares,
    Action.lift_bind_eq (FixedPoint.add_eq_ok_iff.mpr hAssets),
    Action.lift_bind_eq (FixedPoint.add_eq_ok_iff.mpr hSupply),
    Action.lift_bind_eq (FixedPoint.add_eq_ok_iff.mpr hFees)]
  exact Action.bind_of_error (openHolding_of_full hFull)

/- A deposit succeeds where nothing overflows. -/
theorem exists_deposit
    {owner : κ}
    {amount fee net shares : UInt64}
    {v : ShareVault κ}
    (hSplit : Splits v amount fee net)
    (hShares : v.toShares net = .ok shares)
    (hAssets :
      v.assets.toNat + net.toNat < UInt64.size)
    (hSupply :
      v.supply.toNat + shares.toNat < UInt64.size)
    (hFees : v.fees.toNat + fee.toNat < UInt64.size)
    (hOwned :
      (v.balanceOf owner).toNat + shares.toNat <
        UInt64.size)
    (hRoom : HasRoom v owner) :
    ∃ w, deposit owner amount v = .ok shares w := by
  rcases FixedPoint.exists_toNat_eq hAssets with
    ⟨assets, hAssets⟩
  rcases FixedPoint.exists_toNat_eq hSupply with
    ⟨supply, hSupply⟩
  rcases FixedPoint.exists_toNat_eq hFees with ⟨fees, hFees⟩
  rcases FixedPoint.exists_toNat_eq hOwned with
    ⟨owned, hOwned⟩
  rcases exists_openHolding hRoom with ⟨h, v₁, hOpen⟩
  have hBefore := (reassigned_of_openHolding hOpen owned).1
  rw [← hBefore] at hOwned
  exact
    ⟨_, deposit_steps.mpr
      ⟨fee, net, assets, supply, fees, h, v₁, owned, hSplit,
        hShares, hAssets, hSupply, hFees, hOpen, hOwned, rfl⟩⟩

------------------------------------------------------------
-- Withdrawals
------------------------------------------------------------

/-
  What a withdrawal changes: the amount leaves the assets, and
  the owner loses the shares.
-/
structure Withdrawn
    (owner : κ)
    (amount shares : UInt64)
    (v w : ShareVault κ) : Prop where
  terms : SameTerms v w
  assets : w.assets.toNat + amount.toNat = v.assets.toNat
  supply : w.supply.toNat + shares.toNat = v.supply.toNat
  fees : w.fees = v.fees
  loss :
    (w.balanceOf owner).toNat + shares.toNat =
      (v.balanceOf owner).toNat
  reassigned : Reassigned owner (w.balanceOf owner) v w

/- A successful withdrawal, step by step. -/
private theorem withdraw_steps
    {owner : κ}
    {amount received : UInt64}
    {v w : ShareVault κ} :
    withdraw owner amount v = .ok received w ↔
      ∃ shares h v₁ supply,
        amount ≤ v.assets ∧
          v.sharesFor amount = .ok shares ∧
          shares ≤ v.balanceOf owner ∧
          openHolding owner v = .ok h v₁ ∧
          supply.toNat + shares.toNat = v.supply.toNat ∧
          { v₁.setHolding
              { h with shares := h.shares - shares } with
            supply := supply
            assets := v₁.assets - amount } = w ∧
          amount = received := by
  simp only [withdraw, Action.bind_eq_ok_iff,
    Action.get_eq_ok_iff, Action.lift_eq_ok_iff,
    Action.modify_eq_ok_iff, Action.pure_eq_ok_iff,
    FixedPoint.sub_eq_ok_iff, require_eq_ok_iff]
  constructor
  · intro hSteps
    rcases hSteps with
      ⟨_, _, ⟨rfl, rfl⟩, _, _, ⟨hAmount, rfl⟩, shares, _,
        ⟨hShares, rfl⟩, _, _, ⟨hOwned, rfl⟩, h, v₁, hOpen,
        _, _, rfl, supply, _, ⟨hSupply, rfl⟩, _, _, hWrite,
        rfl, rfl⟩
    exact
      ⟨shares, h, v₁, supply, hAmount, hShares, hOwned, hOpen,
        hSupply, hWrite, rfl⟩
  · intro hSteps
    rcases hSteps with
      ⟨shares, h, v₁, supply, hAmount, hShares, hOwned,
        hOpen, hSupply, hWrite, rfl⟩
    exact
      ⟨v, v, ⟨rfl, rfl⟩, (), v, ⟨hAmount, rfl⟩, shares, v,
        ⟨hShares, rfl⟩, (), v, ⟨hOwned, rfl⟩, h, v₁, hOpen,
        (), _, rfl, supply, _, ⟨hSupply, rfl⟩, (), w, hWrite,
        rfl, rfl⟩

/- What a successful withdrawal changes. -/
theorem withdrawn_of_withdraw
    {owner : κ}
    {amount received : UInt64}
    {v w : ShareVault κ}
    (hRun : withdraw owner amount v = .ok received w) :
    received = amount ∧
      ∃ shares,
        v.sharesFor amount = .ok shares ∧
          Withdrawn owner amount shares v w := by
  rcases withdraw_steps.mp hRun with
    ⟨shares, h, v₁, supply, hAmount, hShares, hOwned, hOpen,
      hSupply, rfl, rfl⟩
  rcases reassigned_of_openHolding hOpen
      (h.shares - shares) with
    ⟨hBefore, hReassigned⟩
  rcases sameTerms_of_openHolding hOpen with
    ⟨hTerms, hAssets₁, -, hFees₁⟩
  rw [← hBefore] at hOwned
  have hLeft :
      (h.shares - shares).toNat =
        h.shares.toNat - shares.toNat :=
    UInt64.toNat_sub_of_le _ _ hOwned
  have hRest :
      (v.assets - amount).toNat =
        v.assets.toNat - amount.toNat :=
    UInt64.toNat_sub_of_le _ _ hAmount
  have hOwnedNat := UInt64.le_iff_toNat_le.mp hOwned
  have hAmountNat := UInt64.le_iff_toNat_le.mp hAmount
  have hAfter :
      (v₁.setHolding
        { h with shares := h.shares - shares }).balanceOf
          owner = h.shares - shares :=
    hReassigned.own
  refine
    ⟨rfl, shares, hShares,
      { terms :=
          ⟨hTerms.asset, hTerms.authority, hTerms.feeBps,
            hTerms.bump⟩
        assets := ?_
        supply := hSupply
        fees := hFees₁
        loss := ?_
        reassigned := ?_ }⟩
  · simp only [hAssets₁]
    omega
  · change
      ((v₁.setHolding
        { h with shares := h.shares - shares }).balanceOf
          owner).toNat + _ = _
    rw [hAfter, ← hBefore]
    omega
  · change
      Reassigned owner
        ((v₁.setHolding
          { h with shares := h.shares - shares }).balanceOf
            owner) v _
    rw [hAfter]
    exact
      ⟨hReassigned.own, hReassigned.others,
        hReassigned.owners, hReassigned.kept,
        hReassigned.nodup, hReassigned.issued,
        hReassigned.capacity⟩

/- Whoever withdraws has a holding. -/
theorem mem_owners_of_withdraw
    {owner : κ}
    {amount received : UInt64}
    {v w : ShareVault κ}
    (hRun : withdraw owner amount v = .ok received w) :
    owner ∈ w.owners := by
  rcases withdraw_steps.mp hRun with
    ⟨shares, h, v₁, supply, -, -, -, hOpen, -, rfl, -⟩
  exact
    mem_owners_of_openHolding hOpen
      { h with shares := h.shares - shares }

/-
  A withdrawal succeeds when assets and shares cover it, the
  shares are part of the supply, and the owner has a holding.
-/
theorem exists_withdraw
    {owner : κ}
    {amount shares : UInt64}
    {v : ShareVault κ}
    (hAmount : amount ≤ v.assets)
    (hShares : v.sharesFor amount = .ok shares)
    (hOwned : shares ≤ v.balanceOf owner)
    (hSupply : shares ≤ v.supply)
    (hRoom : HasRoom v owner) :
    ∃ w, withdraw owner amount v = .ok amount w := by
  rcases exists_openHolding hRoom with ⟨h, v₁, hOpen⟩
  have hLe := UInt64.le_iff_toNat_le.mp hSupply
  have hBound := v.supply.toNat_lt_size
  rcases FixedPoint.exists_toNat_eq
      (n := v.supply.toNat - shares.toNat) (by omega) with
    ⟨supply, hNat⟩
  exact
    ⟨_, withdraw_steps.mpr
      ⟨shares, h, v₁, supply, hAmount, hShares, hOwned, hOpen,
        by omega, rfl, rfl⟩⟩

end ShareVault

end YieldManager

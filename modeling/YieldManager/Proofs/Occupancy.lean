import Mathlib.Data.Finset.Card
import YieldManager.Proofs.Manager.Refusals
import YieldManager.Proofs.Reward.Conservation
import YieldManager.Proofs.Vault.Solvency

/-
  Who takes up room.  A vault has room for a number of owners,
  and a gauge for a number of holders.  A place is taken with
  the first deposit, withdrawal or accrual that is accepted,
  and it is never given back: not by an owner who withdraws
  everything, nor by a holder who claims everything.  So once
  enough others have come, newcomers are turned away, whoever
  has left since.

  Main declarations:
    * `KeepsPlaces`
    * `KeepsPlaces.live_iff`
    * `KeepsPlaces.stays_out`
    * `ShareVault.dealers`
    * `ShareVault.keepsPlaces_dealtAll`
    * `GaugeRequest`
    * `Gauge.comers`
    * `Gauge.keepsPlaces_after`
    * `places_never_given_back`
-/

------------------------------------------------------------
-- Places
------------------------------------------------------------

namespace YieldManager

variable {κ : Type} [DecidableEq κ]

/-
  Everyone who has come has one of the given number of places,
  and a newcomer is turned away when all of them are taken.
-/
structure KeepsPlaces
    (room : Nat)
    (comers places : List κ)
    (turnedAway : κ → Prop) : Prop where
  nodup : places.Nodup
  taken : ∀ x, x ∈ places ↔ x ∈ comers
  fits : places.length ≤ room
  full :
    ∀ x ∉ places, turnedAway x ↔ places.length = room

namespace KeepsPlaces

variable {room : Nat} {comers places : List κ}
variable {turnedAway : κ → Prop}

/- As many places are taken as there are comers. -/
theorem card_comers
    (hKept : KeepsPlaces room comers places turnedAway) :
    comers.toFinset.card = places.length := by
  have hSame : comers.toFinset = places.toFinset := by
    ext x
    rw [List.mem_toFinset, List.mem_toFinset, hKept.taken]
  rw [hSame, List.toFinset_card_of_nodup hKept.nodup]

/-
  A newcomer is turned away only from places that all hold
  something, unless all were taken and some are empty by now.
-/
theorem live_iff
    (hKept : KeepsPlaces room comers places turnedAway)
    (amount : κ → UInt64)
    {x : κ}
    (hNew : x ∉ places) :
    (turnedAway x →
        (places.filter fun y => amount y ≠ 0).length =
          room) ↔
      ¬ (comers.toFinset.card = room ∧
        ∃ y ∈ comers, amount y = 0) := by
  rw [hKept.full x hNew, hKept.card_comers, not_and]
  apply imp_congr_right
  intro hFull
  rw [← hFull, List.length_filter_eq_length_iff]
  simp only [decide_eq_true_eq, ← hKept.taken]
  constructor
  · intro hLive hGone
    rcases hGone with ⟨y, hPlace, hEmpty⟩
    exact hLive y hPlace hEmpty
  · intro hNone y hPlace hEmpty
    exact hNone ⟨y, hPlace, hEmpty⟩

/- Who comes when all places are taken never gets one. -/
theorem stays_out
    {comers' places' : List κ}
    {turnedAway' : κ → Prop}
    (hKept : KeepsPlaces room comers places turnedAway)
    (hLater : KeepsPlaces room comers' places' turnedAway')
    (hMore : comers ⊆ comers')
    (hFull : comers.toFinset.card = room)
    {x : κ}
    (hNew : x ∉ places) :
    x ∉ places' := by
  have hSubset : places.toFinset ⊆ places'.toFinset := by
    intro y hPlace
    rw [List.mem_toFinset, hKept.taken] at hPlace
    rw [List.mem_toFinset, hLater.taken]
    exact hMore hPlace
  have hCard :
      places'.toFinset.card ≤ places.toFinset.card := by
    rw [List.toFinset_card_of_nodup hLater.nodup,
      List.toFinset_card_of_nodup hKept.nodup,
      ← hKept.card_comers, hFull]
    exact hLater.fits
  have hSame :=
    Finset.eq_of_subset_of_card_le hSubset hCard
  rw [← List.mem_toFinset, ← hSame, List.mem_toFinset]
  exact hNew

end KeepsPlaces

------------------------------------------------------------
-- Owners
------------------------------------------------------------

omit [DecidableEq κ] in
/- The owner that deposits or withdraws. -/
def Dealing.owner? : Dealing κ → Option κ
  | .deposit owner _ => some owner
  | .withdraw owner _ => some owner
  | .earn _ => none

namespace ShareVault

/-
  The owners whose deposits or withdrawals were accepted, one
  after the other.
-/
def dealers
    (v : ShareVault κ)
    (ds : List (Dealing κ)) : List κ :=
  (Action.accepted Dealing.action v ds).filterMap
    Dealing.owner?

/- The owners that have any shares. -/
def shareholders (v : ShareVault κ) : List κ :=
  v.owners.filter fun owner => v.balanceOf owner ≠ 0

/- A newcomer's deposit is refused for want of room. -/
def TurnsAway
    (v : ShareVault κ)
    (owner : κ) : Prop :=
  ∃ amount w,
    deposit owner amount v = .error .capacityReached w

variable {v w : ShareVault κ}

/- A dealing that is accepted lists its owner. -/
theorem mem_owners_of_action
    {d : Dealing κ}
    {answer : UInt64}
    (hRun : d.action v = .ok answer w)
    (x : κ) :
    x ∈ w.owners ↔ x ∈ v.owners ∨ d.owner? = some x := by
  -- A reassigned owner is the only one that can be new.
  have hListed :
      ∀ {owner : κ} {shares : UInt64},
        Reassigned owner shares v w → owner ∈ w.owners →
          (x ∈ w.owners ↔
            x ∈ v.owners ∨ some owner = some x) := by
    intro owner shares hReassigned hOwner
    constructor
    · intro hAfter
      rcases hReassigned.owners x hAfter with hOld | rfl
      · exact .inl hOld
      · exact .inr rfl
    · intro hBefore
      rcases hBefore with hOld | hSame
      · exact hReassigned.kept x hOld
      · exact Option.some.inj hSame ▸ hOwner
  cases d with
  | deposit owner amount =>
      rcases deposited_of_deposit hRun with
        ⟨fee, net, -, -, hDeposit⟩
      exact
        hListed hDeposit.reassigned
          (mem_owners_of_deposit hRun)
  | withdraw owner amount =>
      rcases withdrawn_of_withdraw hRun with
        ⟨-, shares, -, hWithdrawal⟩
      exact
        hListed hWithdrawal.reassigned
          (mem_owners_of_withdraw hRun)
  | earn amount =>
      rcases earn_eq_ok_iff.mp hRun with ⟨-, rfl⟩
      simp [owners, Dealing.owner?]

/- The owners of a new vault are those who have dealt. -/
theorem IsNew.mem_owners_dealtAll
    (hNew : v.IsNew)
    (ds : List (Dealing κ))
    (x : κ) :
    x ∈ (v.dealtAll ds).owners ↔ x ∈ v.dealers ds := by
  have hNone : x ∉ v.owners := by
    unfold owners
    rw [hNew.holdings]
    exact List.not_mem_nil
  have hListed :
      x ∈ (v.dealtAll ds).owners ↔
        x ∈ v.owners ∨ x ∈ v.dealers ds := by
    apply Action.mem_after_iff owners Dealing.owner?
      (P := IsConsistent)
    · intro d v hVault
      exact (hVault.dealt d).1
    · intro d v answer w _ hRun
      exact mem_owners_of_action hRun
    · intro d v e w hVault hRun
      rw [hVault.eq_of_action_error hRun]
    · exact hNew.solvent.consistent
  rw [hListed, or_iff_right hNone]

/- Even a deposit of nothing is refused for want of room. -/
theorem deposit_zero_of_full
    {owner : κ}
    (hFull : ¬ v.HasRoom owner) :
    deposit owner 0 v = .error .capacityReached v := by
  have hSplit : v.Splits 0 0 0 :=
    ⟨FixedPoint.mulDivDown_eq_ok_iff.mpr ⟨by decide, by simp⟩,
      rfl⟩
  have hShares : v.toShares 0 = .ok 0 := by
    unfold toShares
    by_cases hPar : v.supply = 0 ∨ v.assets = 0
    · rw [if_pos hPar]
    · rw [if_neg hPar]
      apply FixedPoint.mulDivDown_eq_ok_iff.mpr
      rw [not_or] at hPar
      exact ⟨hPar.2, by simp⟩
  exact
    deposit_of_full hSplit hShares v.assets.toNat_lt_size
      v.supply.toNat_lt_size v.fees.toNat_lt_size hFull

/- A newcomer is turned away when there is no room left. -/
theorem turnsAway_iff
    {owner : κ}
    (hNew : owner ∉ v.owners) :
    v.TurnsAway owner ↔ capacity ≤ v.owners.length := by
  have hLength : v.owners.length = v.holdings.length :=
    List.length_map _
  have hRoom : v.HasRoom owner ↔ v.owners.length < capacity := by
    unfold HasRoom
    rw [or_iff_right hNew, hLength]
  rw [← Nat.not_lt, ← hRoom]
  constructor
  · intro hAway hRoom
    rcases hAway with ⟨amount, w, hRun⟩
    have hReason :=
      failsFor_deposit_of_hasRoom hRoom amount _ w hRun
    simp at hReason
  · intro hFull
    exact ⟨0, v, deposit_zero_of_full hFull⟩

/- A vault keeps a place for everyone who has dealt with it. -/
theorem IsNew.keepsPlaces_dealtAll
    (hNew : v.IsNew)
    (ds : List (Dealing κ)) :
    KeepsPlaces capacity (v.dealers ds)
      (v.dealtAll ds).owners (v.dealtAll ds).TurnsAway := by
  have hVault := hNew.solvent.dealtAll ds
  have hFits : (v.dealtAll ds).owners.length ≤ capacity := by
    unfold owners
    rw [List.length_map]
    exact hVault.room
  refine
    { nodup := hVault.consistent.nodup
      taken := hNew.mem_owners_dealtAll ds
      fits := hFits
      full := ?_ }
  intro owner hOwner
  rw [turnsAway_iff hOwner]
  omega

end ShareVault

------------------------------------------------------------
-- Holders
------------------------------------------------------------

/- What is asked of a gauge. -/
inductive GaugeRequest (κ : Type) where
  | accrue (holder : κ) (amount : UInt64)
  | claim (holder : κ)

namespace GaugeRequest

/- A request as an action; accruing answers no rewards. -/
def action :
    GaugeRequest κ → Action (Gauge κ) (List (TokenAmount κ))
  | .accrue holder amount => do
      Gauge.accrue holder amount
      return []
  | .claim holder => Gauge.claim holder

omit [DecidableEq κ] in
/- The holder that something accrues to. -/
def holder? : GaugeRequest κ → Option κ
  | .accrue holder _ => some holder
  | .claim _ => none

/- A refused request changes nothing. -/
theorem isAtomic_action
    (r : GaugeRequest κ) :
    Action.IsAtomic r.action := by
  intro g
  cases r with
  | accrue holder amount =>
      apply Action.FailsAt.bind
      · exact Gauge.failsAt_accrue holder amount g
      · intro _ _ _
        exact Action.FailsAt.of_ok rfl
  | claim holder => exact Gauge.failsAt_claim holder g g

end GaugeRequest

namespace Gauge

variable {g h : Gauge κ}

/- The holders to whom something was accepted to accrue. -/
def comers
    (g : Gauge κ)
    (rs : List (GaugeRequest κ)) : List κ :=
  (Action.accepted GaugeRequest.action g rs).filterMap
    GaugeRequest.holder?

/- The holders for whom rewards are waiting. -/
def waiting (g : Gauge κ) : List κ :=
  g.holders.filter fun holder => g.accruedTo holder ≠ 0

/- A newcomer's accrual is refused for want of room. -/
def TurnsAway
    (g : Gauge κ)
    (holder : κ) : Prop :=
  ∃ amount h,
    accrue holder amount g = .error .capacityReached h

/- No holder is listed twice, and all have found room. -/
structure IsKept (g : Gauge κ) : Prop where
  nodup : g.holders.Nodup
  fits : g.holders.length ≤ capacity

/-
  An accrual that is accepted lists its holder, as the last
  one if it is new; a claim lists nobody.
-/
theorem holders_of_action
    {r : GaugeRequest κ}
    {rewards : List (TokenAmount κ)}
    (hRun : r.action g = .ok rewards h) :
    (∀ x, x ∈ h.holders ↔
      x ∈ g.holders ∨ r.holder? = some x) ∧
      (g.IsKept → h.IsKept) := by
  cases r with
  | accrue holder amount =>
      rcases Action.bind_eq_ok_iff.mp hRun with
        ⟨_, t, hAccrue, hPure⟩
      rcases Action.pure_eq_ok_iff.mp hPure with ⟨-, rfl⟩
      rcases holders_of_accrue hAccrue with
        ⟨hOld, hSame⟩ | ⟨hNew, hRoom, hAdded⟩
      · refine ⟨?_, fun hKept => ?_⟩
        · intro x
          rw [hSame]
          constructor
          · exact .inl
          · intro hEither
            rcases hEither with hListed | hHolder
            · exact hListed
            · exact Option.some.inj hHolder ▸ hOld
        · exact ⟨hSame ▸ hKept.nodup, hSame ▸ hKept.fits⟩
      · refine ⟨?_, fun hKept => ⟨?_, ?_⟩⟩
        · intro x
          rw [hAdded, List.mem_append, List.mem_singleton,
            GaugeRequest.holder?, Option.some.injEq,
            eq_comm (a := x)]
        · rw [hAdded, List.nodup_append_comm]
          exact List.nodup_cons.mpr ⟨hNew, hKept.nodup⟩
        · rw [hAdded, List.length_append]
          exact hRoom
  | claim holder =>
      have hSame := holders_of_claim hRun
      refine ⟨?_, fun hKept => ?_⟩
      · intro x
        rw [hSame]
        simp [GaugeRequest.holder?]
      · exact ⟨hSame ▸ hKept.nodup, hSame ▸ hKept.fits⟩

/- Requests leave every holder listed once, within room. -/
theorem IsKept.perform
    (hKept : g.IsKept)
    (r : GaugeRequest κ) :
    (r.action.perform g).2.IsKept := by
  unfold Action.perform
  cases hRun : r.action g with
  | ok rewards h => exact (holders_of_action hRun).2 hKept
  | error e h =>
      have hSame : h = g :=
        GaugeRequest.isAtomic_action r g e h hRun
      exact hSame ▸ hKept

/- A gauge keeps a place for everyone who has had rewards. -/
theorem keepsPlaces_after
    (hEmpty : g.accruals = [])
    (rs : List (GaugeRequest κ)) :
    KeepsPlaces capacity (g.comers rs)
      (Action.after GaugeRequest.action g rs).holders
      (Action.after GaugeRequest.action g rs).TurnsAway := by
  have hNobody : g.holders = [] := by
    unfold holders
    rw [hEmpty]
    rfl
  have hStart : g.IsKept := by
    constructor
    · rw [hNobody]
      exact List.nodup_nil
    · rw [hNobody]
      exact Nat.zero_le _
  have hKept :
      (Action.after GaugeRequest.action g rs).IsKept := by
    apply Action.after_of_step GaugeRequest.action
    · intro r _ g hKept
      exact hKept.perform r
    · exact hStart
  have hListed :
      ∀ x,
        x ∈ (Action.after GaugeRequest.action g rs).holders ↔
          x ∈ g.holders ∨ x ∈ g.comers rs := by
    apply Action.mem_after_iff holders GaugeRequest.holder?
      (P := fun _ => True)
    · intro _ _ _
      trivial
    · intro r g rewards h _ hRun
      exact (holders_of_action hRun).1
    · intro r g e h _ hRun
      have hSame : h = g :=
        GaugeRequest.isAtomic_action r g e h hRun
      rw [hSame]
    · trivial
  refine
    { nodup := hKept.nodup
      taken := ?_
      fits := hKept.fits
      full := ?_ }
  · intro x
    rw [hListed, hNobody, or_iff_right List.not_mem_nil]
  · intro holder hNew
    have hFits := hKept.fits
    unfold TurnsAway
    simp only [accrue_of_new hNew, exists_const,
      exists_eq_right]
    omega

end Gauge

------------------------------------------------------------
-- Newcomers
------------------------------------------------------------

/- Those who dealt earlier are among those who ever dealt. -/
theorem ShareVault.dealers_subset_append
    (v : ShareVault κ)
    (ds later : List (Dealing κ)) :
    v.dealers ds ⊆ v.dealers (ds ++ later) := by
  unfold ShareVault.dealers
  rw [Action.accepted_append, List.filterMap_append]
  exact List.subset_append_left _ _

/- Those who came earlier are among those who ever came. -/
theorem Gauge.comers_subset_append
    (g : Gauge κ)
    (rs later : List (GaugeRequest κ)) :
    g.comers rs ⊆ g.comers (rs ++ later) := by
  unfold Gauge.comers
  rw [Action.accepted_append, List.filterMap_append]
  exact List.subset_append_left _ _

/-
  The owners listed in a vault that started new are those with
  an accepted deposit or withdrawal, and a newcomer is turned
  away exactly when there are as many of them as there are
  places.  All places are held by owners of shares then,
  except when one of those owners has none left; and from then
  on the newcomer stays out.  So it is with the holders in a
  gauge that started empty and with the rewards that wait for
  them.
-/
theorem places_never_given_back
    {v : ShareVault κ}
    {g : Gauge κ}
    (hVault : v.IsNew)
    (hGauge : g.accruals = [])
    (ds : List (Dealing κ))
    (rs : List (GaugeRequest κ)) :
    ((∀ owner,
        owner ∈ (v.dealtAll ds).owners ↔
          owner ∈ v.dealers ds) ∧
      ∀ owner ∉ (v.dealtAll ds).owners,
        ((v.dealtAll ds).TurnsAway owner ↔
          (v.dealers ds).toFinset.card =
            ShareVault.capacity) ∧
        (((v.dealtAll ds).TurnsAway owner →
            (v.dealtAll ds).shareholders.length =
              ShareVault.capacity) ↔
          ¬ ((v.dealers ds).toFinset.card =
              ShareVault.capacity ∧
            ∃ other ∈ v.dealers ds,
              (v.dealtAll ds).balanceOf other = 0)) ∧
        ((v.dealers ds).toFinset.card =
            ShareVault.capacity →
          ∀ later,
            owner ∉ (v.dealtAll (ds ++ later)).owners)) ∧
      (∀ holder,
        holder ∈
            (Action.after GaugeRequest.action g rs).holders ↔
          holder ∈ g.comers rs) ∧
      ∀ holder ∉
          (Action.after GaugeRequest.action g rs).holders,
        ((Action.after GaugeRequest.action g rs).TurnsAway
            holder ↔
          (g.comers rs).toFinset.card = Gauge.capacity) ∧
        (((Action.after GaugeRequest.action g rs).TurnsAway
              holder →
            (Action.after GaugeRequest.action g
                rs).waiting.length =
              Gauge.capacity) ↔
          ¬ ((g.comers rs).toFinset.card = Gauge.capacity ∧
            ∃ other ∈ g.comers rs,
              (Action.after GaugeRequest.action g
                rs).accruedTo other = 0)) ∧
        ((g.comers rs).toFinset.card = Gauge.capacity →
          ∀ later,
            holder ∉
              (Action.after GaugeRequest.action g
                (rs ++ later)).holders) := by
  have hOwners := hVault.keepsPlaces_dealtAll
  have hHolders := Gauge.keepsPlaces_after hGauge
  refine ⟨⟨(hOwners ds).taken, ?_⟩, (hHolders rs).taken, ?_⟩
  · intro owner hNew
    refine ⟨?_, ?_, ?_⟩
    · rw [(hOwners ds).full owner hNew,
        (hOwners ds).card_comers]
    · exact
        (hOwners ds).live_iff (v.dealtAll ds).balanceOf hNew
    · intro hFull later
      exact
        (hOwners ds).stays_out (hOwners (ds ++ later))
          (v.dealers_subset_append ds later) hFull hNew
  · intro holder hNew
    refine ⟨?_, ?_, ?_⟩
    · rw [(hHolders rs).full holder hNew,
        (hHolders rs).card_comers]
    · exact
        (hHolders rs).live_iff
          (Action.after GaugeRequest.action g rs).accruedTo
          hNew
    · intro hFull later
      exact
        (hHolders rs).stays_out (hHolders (rs ++ later))
          (g.comers_subset_append rs later) hFull hNew

/- The owners and holders from 8 to 23. -/
private def sixteen : List Nat := List.range' 8 16

/- They all deposit something. -/
def everyoneDeposits : List (Dealing Nat) :=
  sixteen.map fun owner => .deposit owner 10

/- They all deposit something and take it out again. -/
def everyoneLeaves : List (Dealing Nat) :=
  everyoneDeposits ++
    sixteen.map fun owner => .withdraw owner 10

/- Something accrues to all of them. -/
def everyoneAccrues : List (GaugeRequest Nat) :=
  sixteen.map fun holder => .accrue holder 5

/- They all claim what has accrued to them. -/
def everyoneClaims : List (GaugeRequest Nat) :=
  everyoneAccrues ++
    sixteen.map fun holder => .claim holder

/-
  While the sixteen are there, number 24 is turned away from
  places that all hold something; when they have left, number
  24 stays out, whatever happens.
-/
theorem places_never_given_back_sixteen :
    (ShareVault.newVault.IsNew ∧
        emptyGauge.accruals = []) ∧
      ((ShareVault.newVault.dealtAll
            everyoneDeposits).shareholders.length =
          ShareVault.capacity ∧
        ∀ later,
          24 ∉
            (ShareVault.newVault.dealtAll
              (everyoneLeaves ++ later)).owners) ∧
      (Action.after GaugeRequest.action emptyGauge
            everyoneAccrues).waiting.length =
          Gauge.capacity ∧
        ∀ later,
          24 ∉
            (Action.after GaugeRequest.action emptyGauge
              (everyoneClaims ++ later)).holders := by
  have hVault : ShareVault.newVault.IsNew :=
    ⟨rfl, rfl, rfl, rfl⟩
  have hGauge : emptyGauge.accruals = [] := rfl
  rcases places_never_given_back hVault hGauge
      everyoneDeposits everyoneAccrues with
    ⟨⟨-, hDeposited⟩, -, hAccrued⟩
  rcases hDeposited 24 (by decide +kernel) with
    ⟨hAway, hLive, -⟩
  rcases hAccrued 24 (by decide +kernel) with
    ⟨hAway', hLive', -⟩
  rcases places_never_given_back hVault hGauge
      everyoneLeaves everyoneClaims with
    ⟨⟨-, hLeft⟩, -, hClaimed⟩
  refine ⟨⟨hVault, hGauge⟩, ⟨?_, ?_⟩, ?_, ?_⟩
  · exact
      hLive.mpr (by decide +kernel)
        (hAway.mpr (by decide +kernel))
  · exact
      (hLeft 24 (by decide +kernel)).2.2 (by decide +kernel)
  · exact
      hLive'.mpr (by decide +kernel)
        (hAway'.mpr (by decide +kernel))
  · exact
      (hClaimed 24 (by decide +kernel)).2.2
        (by decide +kernel)

/-
  Sixteen owners have come and left, and nobody has a share,
  but the deposit of the next one is refused for want of room;
  so is the next accrual when sixteen holders have claimed all
  that they had.
-/
theorem turned_away_from_empty_places :
    (ShareVault.newVault.IsNew ∧
        24 ∉
          (ShareVault.newVault.dealtAll
            everyoneLeaves).owners ∧
        (ShareVault.newVault.dealtAll
            everyoneLeaves).shareholders = [] ∧
        ((ShareVault.deposit 24 10).perform
            (ShareVault.newVault.dealtAll
              everyoneLeaves)).1 =
          .error .capacityReached) ∧
      emptyGauge.accruals = [] ∧
        24 ∉
          (Action.after GaugeRequest.action emptyGauge
            everyoneClaims).holders ∧
        (Action.after GaugeRequest.action emptyGauge
            everyoneClaims).waiting = [] ∧
        ((Gauge.accrue 24 5).perform
            (Action.after GaugeRequest.action emptyGauge
              everyoneClaims)).1 =
          .error .capacityReached := by
  refine
    ⟨⟨⟨rfl, rfl, rfl, rfl⟩, ?_, ?_, ?_⟩, rfl, ?_, ?_, ?_⟩
  · decide +kernel
  · decide +kernel
  · decide +kernel
  · decide +kernel
  · decide +kernel
  · decide +kernel

end YieldManager

import YieldManager.Manager.Rebalance
import YieldManager.Proofs.Vault.Price

/-
  What the owners of a vault do to each other.  Shares are
  bought rounded down and burned rounded up, so their price
  never falls: whoever deals with a vault, the other owners
  keep their shares, and these are worth no less afterwards.
  Yield from outside raises the price as well.

  Main declarations:
    * `Price.worth_le`
    * `ShareVault.PriceLe`
    * `ShareVault.Unharmed`
    * `ShareVault.eq_of_deposit_error`
    * `ShareVault.IsConsistent.eq_of_withdraw_error`
    * `Dealing`
    * `ShareVault.dealtAll`
    * `ShareVault.Done`
    * `ShareVault.unharmed_of_dealings`
    * `ShareVault.others_unharmed`
-/

------------------------------------------------------------
-- Prices That Do Not Fall
------------------------------------------------------------

namespace YieldManager

/-
  No fewer shares at no lower a price are worth no less.  The
  prices are compared crosswise; without a supply there are
  no shares to value.
-/
theorem Price.worth_le
    {own own' supply supply' assets assets' : Nat}
    (hOwn : own ≤ own')
    (hSome : own ≤ supply)
    (hLeft : own' ≤ supply')
    (hPrice :
      0 < supply → assets * supply' ≤ assets' * supply) :
    own * assets / supply ≤ own' * assets' / supply' := by
  rcases Nat.eq_zero_or_pos own with hNone | hPos
  · rw [hNone, Nat.zero_mul, Nat.zero_div]
    exact Nat.zero_le _
  · have hSupply : 0 < supply := by omega
    have hSupply' : 0 < supply' := by omega
    rw [Nat.le_div_iff_mul_le hSupply']
    apply Nat.le_of_mul_le_mul_right _ hSupply
    calc
      own * assets / supply * supply' * supply
          = own * assets / supply * supply * supply' :=
            Nat.mul_right_comm _ _ _
      _ ≤ own * assets * supply' :=
            Nat.mul_le_mul_right _ (Nat.div_mul_le_self _ _)
      _ = own * (assets * supply') := Nat.mul_assoc _ _ _
      _ ≤ own' * (assets' * supply) :=
            Nat.mul_le_mul hOwn (hPrice hSupply)
      _ = own' * assets' * supply :=
            (Nat.mul_assoc _ _ _).symm

namespace ShareVault

variable {κ : Type}

/-
  The price of a share has not fallen from one vault to the
  other, if there was a share to begin with.
-/
def PriceLe (v w : ShareVault κ) : Prop :=
  0 < v.supply.toNat →
    v.assets.toNat * w.supply.toNat ≤
      w.assets.toNat * v.supply.toNat

variable [DecidableEq κ]

/-
  From one vault to the other, an owner has lost no shares,
  and what it has is worth no less.
-/
structure Unharmed
    (owner : κ)
    (v w : ShareVault κ) : Prop where
  balance : v.balanceOf owner ≤ w.balanceOf owner
  worth :
    ∃ before after,
      YieldVault.worth v owner = .ok before ∧
        YieldVault.worth w owner = .ok after ∧
        before ≤ after

namespace Unharmed

variable {owner : κ} {u v w : ShareVault κ}

/- Nobody is harmed when nothing happens. -/
theorem refl
    (hVault : v.IsConsistent)
    (owner : κ) :
    Unharmed owner v v := by
  rcases hVault.exists_worth owner with ⟨value, hValue⟩
  exact
    ⟨UInt64.le_refl _, value, value, hValue, hValue,
      UInt64.le_refl _⟩

/- Twice unharmed is unharmed. -/
theorem trans
    (hFirst : Unharmed owner u v)
    (hSecond : Unharmed owner v w) :
    Unharmed owner u w := by
  rcases hFirst.worth with
    ⟨before, middle, hBefore, hMiddle, hRise⟩
  rcases hSecond.worth with
    ⟨start, after, hStart, hAfter, hLater⟩
  have hSame : middle = start := by
    rw [hMiddle] at hStart
    exact Except.ok.inj hStart
  subst hSame
  exact
    ⟨UInt64.le_trans hFirst.balance hSecond.balance, before,
      after, hBefore, hAfter, UInt64.le_trans hRise hLater⟩

end Unharmed

variable {owner : κ} {v w : ShareVault κ}

/- Whoever lost no shares is safe while the price holds. -/
theorem IsConsistent.unharmed
    (hVault : v.IsConsistent)
    (hLater : w.IsConsistent)
    (hPrice : PriceLe v w)
    (hBalance : v.balanceOf owner ≤ w.balanceOf owner) :
    Unharmed owner v w := by
  rcases hVault.exists_worth owner with ⟨before, hBefore⟩
  rcases hLater.exists_worth owner with ⟨after, hAfter⟩
  refine
    ⟨hBalance, before, after, hBefore, hAfter, ?_⟩
  rw [hVault.worth_eq_ok_iff] at hBefore
  rw [hLater.worth_eq_ok_iff] at hAfter
  rw [UInt64.le_iff_toNat_le, hBefore, hAfter]
  apply Price.worth_le
  · exact UInt64.le_iff_toNat_le.mp hBalance
  · exact
      UInt64.le_iff_toNat_le.mp
        (hVault.balanceOf_le_supply owner)
  · exact
      UInt64.le_iff_toNat_le.mp
        (hLater.balanceOf_le_supply owner)
  · exact hPrice

------------------------------------------------------------
-- Deposits and Withdrawals
------------------------------------------------------------

/- Shares bought rounded down do not lower the price. -/
theorem priceLe_of_deposited
    {fee net shares : UInt64}
    (hShares : v.toShares net = .ok shares)
    (hDeposit : Deposited owner fee net shares v w) :
    PriceLe v w := by
  intro hSupply
  rcases Nat.eq_zero_or_pos v.assets.toNat with
    hEmpty | hAssets
  · rw [hEmpty, Nat.zero_mul]
    exact Nat.zero_le _
  · have hFloor :=
      (floor_of_toShares hSupply hAssets hShares).le
    rw [hDeposit.assets, hDeposit.supply, Nat.mul_add,
      Nat.add_mul, Nat.mul_comm _ shares.toNat]
    exact Nat.add_le_add_left hFloor _

/- Shares burned rounded up do not lower the price. -/
theorem priceLe_of_withdrawn
    {amount shares : UInt64}
    (hShares : v.sharesFor amount = .ok shares)
    (hWithdrawal : Withdrawn owner amount shares v w) :
    PriceLe v w := by
  intro hSupply
  have hAssetsLeft := hWithdrawal.assets
  have hSupplyLeft := hWithdrawal.supply
  rcases Nat.eq_zero_or_pos v.assets.toNat with
    hEmpty | hAssets
  · rw [hEmpty, Nat.zero_mul]
    exact Nat.zero_le _
  · have hCeiling :=
      (ceiling_of_sharesFor hSupply hAssets hShares).le
    -- Both products fall short of the old one: by what the
    -- shares are worth, and by what the amount costs.
    rw [← hAssetsLeft, ← hSupplyLeft] at hCeiling ⊢
    linarith

/- A deposit harms nobody. -/
theorem IsConsistent.unharmed_of_deposited
    {fee net shares : UInt64}
    (hVault : v.IsConsistent)
    (hShares : v.toShares net = .ok shares)
    (hDeposit : Deposited owner fee net shares v w)
    (other : κ) :
    Unharmed other v w := by
  apply hVault.unharmed (hVault.deposited hDeposit)
    (priceLe_of_deposited hShares hDeposit)
  rw [UInt64.le_iff_toNat_le]
  by_cases hOther : other = owner
  · rw [hOther, hDeposit.gain]
    exact Nat.le_add_right _ _
  · rw [hDeposit.reassigned.others other hOther]

/- A withdrawal harms nobody but its owner. -/
theorem IsConsistent.unharmed_of_withdrawn
    {amount shares : UInt64}
    {other : κ}
    (hVault : v.IsConsistent)
    (hShares : v.sharesFor amount = .ok shares)
    (hWithdrawal : Withdrawn owner amount shares v w)
    (hOther : other ≠ owner) :
    Unharmed other v w := by
  apply hVault.unharmed (hVault.withdrawn hWithdrawal)
    (priceLe_of_withdrawn hShares hWithdrawal)
  rw [hWithdrawal.reassigned.others other hOther]
  exact UInt64.le_refl _

------------------------------------------------------------
-- Refused Deposits and Withdrawals
------------------------------------------------------------

/- A holding that cannot be opened changes nothing. -/
private theorem failsAt_openHolding
    (owner : κ)
    (v : ShareVault κ) :
    Action.FailsAt v (openHolding owner) v := by
  apply Action.FailsAt.get_bind
  cases v.holding? owner with
  | some h => exact Action.FailsAt.of_ok rfl
  | none =>
      apply Action.FailsAt.get_bind
      apply Action.FailsAt.lift_bind
      intro _ _
      exact Action.FailsAt.of_ok rfl

/-
  A refused deposit changes nothing: only an old holding can
  be too full for new shares, and it was not opened for them.
-/
theorem eq_of_deposit_error
    {amount : UInt64}
    {e : Error}
    (hRun : deposit owner amount v = .error e w) :
    w = v := by
  suffices hFails : Action.FailsAt v (deposit owner amount) v
    from hFails e w hRun
  apply Action.FailsAt.get_bind
  apply Action.FailsAt.lift_bind
  intro fee _
  apply Action.FailsAt.lift_bind
  intro net _
  apply Action.FailsAt.lift_bind
  intro shares _
  apply Action.FailsAt.lift_bind
  intro assets _
  apply Action.FailsAt.lift_bind
  intro supply _
  apply Action.FailsAt.lift_bind
  intro fees _
  apply Action.FailsAt.bind (failsAt_openHolding owner v)
  intro h opened hOpen
  rcases openHolding_eq_ok_iff.mp hOpen with
    ⟨-, rfl⟩ | ⟨-, -, rfl, -⟩
  · apply Action.FailsAt.lift_bind
    intro owned _
    exact Action.FailsAt.of_ok rfl
  · have hNew : FixedPoint.add 0 shares = .ok shares :=
      FixedPoint.add_eq_ok_iff.mpr (by simp)
    apply Action.FailsAt.of_ok
    exact Action.lift_bind_eq hNew _ opened

/-
  A refused withdrawal changes nothing, since the supply has
  all shares that an owner can burn.
-/
theorem IsConsistent.eq_of_withdraw_error
    {amount : UInt64}
    {e : Error}
    (hVault : v.IsConsistent)
    (hRun : withdraw owner amount v = .error e w) :
    w = v := by
  suffices hFails : Action.FailsAt v (withdraw owner amount) v
    from hFails e w hRun
  apply Action.FailsAt.get_bind
  apply Action.FailsAt.lift_bind
  intro _ _
  apply Action.FailsAt.lift_bind
  intro shares _
  apply Action.FailsAt.lift_bind
  intro _ hOwned
  have hLe :=
    UInt64.le_iff_toNat_le.mp
      (UInt64.le_trans (require_eq_ok_iff.mp hOwned)
        (hVault.balanceOf_le_supply owner))
  have hBound := v.supply.toNat_lt_size
  rcases FixedPoint.exists_toNat_eq
      (n := v.supply.toNat - shares.toNat) (by omega) with
    ⟨rest, hRest⟩
  have hCovered :
      FixedPoint.sub v.supply shares .insufficientShares =
        .ok rest :=
    FixedPoint.sub_eq_ok_iff.mpr (by omega)
  apply Action.FailsAt.bind (failsAt_openHolding owner v)
  intro h opened _
  apply Action.FailsAt.modify_bind
  apply Action.FailsAt.of_ok
  exact Action.lift_bind_eq hCovered _ _

------------------------------------------------------------
-- Yield
------------------------------------------------------------

omit [DecidableEq κ] in
/- Yield adds to the assets behind all shares. -/
def earn (amount : UInt64) :
    Action (ShareVault κ) UInt64 := do
  let assets ← FixedPoint.add (← get).assets amount
  modify fun v => { v with assets := assets }
  return assets

omit [DecidableEq κ] in
/- Yield touches the assets only. -/
theorem earn_eq_ok_iff
    {amount answer : UInt64} :
    earn amount v = .ok answer w ↔
      answer.toNat = v.assets.toNat + amount.toNat ∧
        { v with assets := answer } = w := by
  simp [earn, FixedPoint.add_eq_ok_iff]

omit [DecidableEq κ] in
/- Yield that does not fit changes nothing. -/
theorem eq_of_earn_error
    {amount : UInt64}
    {e : Error}
    (hRun : earn amount v = .error e w) :
    w = v := by
  suffices hFails : Action.FailsAt v (earn amount) v
    from hFails e w hRun
  apply Action.FailsAt.get_bind
  apply Action.FailsAt.lift_bind
  intro assets _
  exact Action.FailsAt.of_ok rfl

omit [DecidableEq κ] in
/- Yield raises the price. -/
theorem priceLe_of_assets_le
    {assets : UInt64}
    (hRise : v.assets ≤ assets) :
    PriceLe v { v with assets := assets } :=
  fun _ =>
    Nat.mul_le_mul_right _ (UInt64.le_iff_toNat_le.mp hRise)

/- Yield harms nobody. -/
theorem IsConsistent.unharmed_of_earn
    {amount answer : UInt64}
    (hVault : v.IsConsistent)
    (hRun : earn amount v = .ok answer w)
    (other : κ) :
    Unharmed other v w := by
  rcases earn_eq_ok_iff.mp hRun with ⟨hSum, rfl⟩
  have hLater :
      IsConsistent { v with assets := answer } :=
    ⟨hVault.nodup, hVault.issued⟩
  apply hVault.unharmed hLater
  · apply priceLe_of_assets_le
    rw [UInt64.le_iff_toNat_le]
    omega
  · exact UInt64.le_refl _

end ShareVault

------------------------------------------------------------
-- Dealings
------------------------------------------------------------

/-
  What a vault sees: deposits and withdrawals of owners, and
  yield.
-/
inductive Dealing (κ : Type) where
  | deposit (owner : κ) (amount : UInt64)
  | withdraw (owner : κ) (amount : UInt64)
  | earn (amount : UInt64)

namespace Dealing

variable {κ : Type}

/- A dealing as an action of the vault. -/
def action [DecidableEq κ] :
    Dealing κ → Action (ShareVault κ) UInt64
  | .deposit owner amount => ShareVault.deposit owner amount
  | .withdraw owner amount => ShareVault.withdraw owner amount
  | .earn amount => ShareVault.earn amount

/- A dealing takes from an owner if it is its withdrawal. -/
def TakesFrom (owner : κ) : Dealing κ → Prop
  | .withdraw other _ => other = owner
  | _ => False

end Dealing

namespace ShareVault

variable {κ : Type} [DecidableEq κ]

/- The vault after a dealing, which may be refused. -/
def dealt
    (v : ShareVault κ)
    (d : Dealing κ) : ShareVault κ :=
  (d.action.perform v).2

/- The vault after some dealings in a row. -/
def dealtAll
    (v : ShareVault κ)
    (ds : List (Dealing κ)) : ShareVault κ :=
  ds.foldl dealt v

variable {v : ShareVault κ}

/- A refused dealing leaves the vault as it was. -/
theorem IsConsistent.eq_of_action_error
    {d : Dealing κ}
    {e : Error}
    {w : ShareVault κ}
    (hVault : v.IsConsistent)
    (hRun : d.action v = .error e w) :
    w = v := by
  cases d with
  | deposit owner amount => exact eq_of_deposit_error hRun
  | withdraw owner amount =>
      exact hVault.eq_of_withdraw_error hRun
  | earn amount => exact eq_of_earn_error hRun

/- What a dealing does that is not refused. -/
inductive Done :
    Dealing κ → ShareVault κ → ShareVault κ → Prop
  | deposited
      {owner : κ}
      {amount fee net shares : UInt64}
      {v w : ShareVault κ}
      (hSplit : v.Splits amount fee net)
      (hShares : v.toShares net = .ok shares)
      (hDeposit : Deposited owner fee net shares v w) :
      Done (.deposit owner amount) v w
  | withdrawn
      {owner : κ}
      {amount shares : UInt64}
      {v w : ShareVault κ}
      (hShares : v.sharesFor amount = .ok shares)
      (hWithdrawal : Withdrawn owner amount shares v w) :
      Done (.withdraw owner amount) v w
  | earned
      {amount assets : UInt64}
      {v : ShareVault κ}
      (hSum : assets.toNat = v.assets.toNat + amount.toNat) :
      Done (.earn amount) v { v with assets := assets }

/- A dealing that is not refused is done. -/
theorem done_of_action
    {d : Dealing κ}
    {answer : UInt64}
    {v w : ShareVault κ}
    (hRun : d.action v = .ok answer w) :
    Done d v w := by
  cases d with
  | deposit owner amount =>
      rcases deposited_of_deposit hRun with
        ⟨fee, net, hSplit, hShares, hDeposit⟩
      exact .deposited hSplit hShares hDeposit
  | withdraw owner amount =>
      rcases withdrawn_of_withdraw hRun with
        ⟨-, burned, hShares, hWithdrawal⟩
      exact .withdrawn hShares hWithdrawal
  | earn amount =>
      rcases earn_eq_ok_iff.mp hRun with ⟨hSum, rfl⟩
      exact .earned hSum

/- The vault after a refused dealing is the one before. -/
theorem IsConsistent.dealt_of_error
    {d : Dealing κ}
    {e : Error}
    {w : ShareVault κ}
    (hVault : v.IsConsistent)
    (hRun : d.action v = .error e w) :
    v.dealt d = v := by
  unfold ShareVault.dealt Action.perform
  rw [hRun]
  exact hVault.eq_of_action_error hRun

/- The vault after a dealing is the one that it leaves. -/
theorem dealt_of_ok
    {d : Dealing κ}
    {answer : UInt64}
    {w : ShareVault κ}
    (hRun : d.action v = .ok answer w) :
    v.dealt d = w := by
  unfold ShareVault.dealt Action.perform
  rw [hRun]

/-
  A dealing keeps a vault consistent, and harms nobody from
  whom it does not take.
-/
theorem IsConsistent.dealt
    (hVault : v.IsConsistent)
    (d : Dealing κ) :
    (v.dealt d).IsConsistent ∧
      ∀ owner, ¬ d.TakesFrom owner →
        Unharmed owner v (v.dealt d) := by
  cases hRun : d.action v with
  | error e w =>
      rw [hVault.dealt_of_error hRun]
      exact ⟨hVault, fun owner _ => .refl hVault owner⟩
  | ok answer w =>
      rw [dealt_of_ok hRun]
      cases done_of_action hRun with
      | deposited hSplit hShares hDeposit =>
          exact
            ⟨hVault.deposited hDeposit,
              fun other _ =>
                hVault.unharmed_of_deposited hShares hDeposit
                  other⟩
      | withdrawn hShares hWithdrawal =>
          refine ⟨hVault.withdrawn hWithdrawal, ?_⟩
          intro other hOther
          exact
            hVault.unharmed_of_withdrawn hShares hWithdrawal
              (Ne.symm hOther)
      | earned hSum =>
          exact
            ⟨⟨hVault.nodup, hVault.issued⟩,
              fun other _ =>
                hVault.unharmed_of_earn hRun other⟩

/- Dealings keep a vault consistent. -/
theorem IsConsistent.dealtAll
    (hVault : v.IsConsistent)
    (ds : List (Dealing κ)) :
    (v.dealtAll ds).IsConsistent := by
  induction ds generalizing v with
  | nil => exact hVault
  | cons d ds ih => exact ih (hVault.dealt d).1

/-
  Whatever a vault sees, an owner from whom nothing is taken
  is not harmed.
-/
theorem unharmed_of_dealings
    {owner : κ}
    {ds : List (Dealing κ)}
    (hVault : v.IsConsistent)
    (hOthers : ∀ d ∈ ds, ¬ d.TakesFrom owner) :
    Unharmed owner v (v.dealtAll ds) := by
  induction ds generalizing v with
  | nil => exact .refl hVault owner
  | cons d ds ih =>
      rcases hVault.dealt d with ⟨hNext, hStep⟩
      have hFirst : Unharmed owner v (v.dealt d) := by
        apply hStep
        exact hOthers d List.mem_cons_self
      have hRest :
          Unharmed owner (v.dealt d)
            ((v.dealt d).dealtAll ds) := by
        apply ih hNext
        intro d' hLater
        exact hOthers d' (List.mem_cons_of_mem d hLater)
      exact hFirst.trans hRest

/-
  A deposit or withdrawal of one owner leaves every other
  owner its shares, which are worth no less than before, and
  does not lower the price of a share.  So from any point of
  a run, whatever others do and whatever the vault earns, the
  assets under management of a manager do not fall.
-/
theorem others_unharmed
    {v : ShareVault κ}
    (hVault : v.IsConsistent) :
    (∀ owner amount answer w,
      deposit owner amount v = .ok answer w ∨
          withdraw owner amount v = .ok answer w →
        PriceLe v w ∧
          ∀ other, other ≠ owner →
            w.balanceOf other = v.balanceOf other ∧
              ∃ before after,
                v.toAssets (v.balanceOf other) =
                    .ok before ∧
                  w.toAssets (w.balanceOf other) =
                    .ok after ∧
                  before ≤ after) ∧
      ∀ key earlier later,
        (∀ d ∈ later, ¬ d.TakesFrom key) →
          ∃ before after,
            Manager.aum key (v.dealtAll earlier) =
                .ok before ∧
              Manager.aum key
                  (v.dealtAll (earlier ++ later)) =
                .ok after ∧
              before ≤ after := by
  constructor
  · intro owner amount answer w hRun
    rcases hRun with hDeposit | hWithdraw
    · rcases deposited_of_deposit hDeposit with
        ⟨fee, net, -, hShares, hDeposited⟩
      refine ⟨priceLe_of_deposited hShares hDeposited, ?_⟩
      intro other hOther
      exact
        ⟨hDeposited.reassigned.others other hOther,
          (hVault.unharmed_of_deposited hShares hDeposited
            other).worth⟩
    · rcases withdrawn_of_withdraw hWithdraw with
        ⟨-, burned, hShares, hWithdrawn⟩
      refine ⟨priceLe_of_withdrawn hShares hWithdrawn, ?_⟩
      intro other hOther
      exact
        ⟨hWithdrawn.reassigned.others other hOther,
          (hVault.unharmed_of_withdrawn hShares hWithdrawn
            hOther).worth⟩
  · intro key earlier later hOthers
    have hLater :
        v.dealtAll (earlier ++ later) =
          (v.dealtAll earlier).dealtAll later :=
      List.foldl_append
    rw [hLater]
    exact
      (unharmed_of_dealings (hVault.dealtAll earlier)
        hOthers).worth

/-
  A vault of two owners whose shares cost 31/20.  The first
  one's 12 shares are worth 18.
-/
def sharedVault : ShareVault Nat where
  asset := 2
  authority := 7
  assets := 31
  supply := 20
  feeBps := 100
  fees := 4
  holdings :=
    [{ owner := 8, shares := 12 },
     { owner := 9, shares := 8 }]
  bump := 0

/-
  After a deposit of the first owner, the second one leaves
  and comes back, and the vault earns something: the first
  owner's 59 stay at least that.
-/
theorem others_unharmed_sharedVault :
    sharedVault.IsConsistent ∧
      ∃ after,
        Manager.aum 8
            (sharedVault.dealtAll
              [.deposit 8 41, .withdraw 9 12,
               .deposit 9 100, .earn 7]) =
          .ok after ∧
        59 ≤ after := by
  have hVault : sharedVault.IsConsistent :=
    ⟨by decide, by decide⟩
  have hStart :
      Manager.aum 8
        (sharedVault.dealtAll [.deposit 8 41]) = .ok 59 := by
    decide +kernel
  refine ⟨hVault, ?_⟩
  rcases (others_unharmed hVault).2 8 [.deposit 8 41]
      [.withdraw 9 12, .deposit 9 100, .earn 7]
      (by simp [Dealing.TakesFrom]) with
    ⟨before, after, hBefore, hAfter, hRise⟩
  rw [hStart, Except.ok.injEq] at hBefore
  subst hBefore
  exact ⟨after, hAfter, hRise⟩

end ShareVault

end YieldManager

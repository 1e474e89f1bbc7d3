import YieldManager.Proofs.Manager.Service

/-
  Why a rebalance can fail over a consistent vault.  What is
  to be divested is worth it and can be withdrawn, and what is
  to be invested is there in cash; so a rebalance fails only
  where it invests, because the deposit buys nothing, finds no
  room for the owner, or overflows.

  Main declarations:
    * `ShareVault.failsFor_deposit`
    * `ShareVault.failsFor_deposit_of_hasRoom`
    * `Ledger.failsFor_toManager`
    * `Ledger.failsFor_reportManaged`
    * `Manager.failsFor_invest`
    * `Manager.error_of_rebalance`
    * `Manager.rebalance_refusals`
-/

------------------------------------------------------------
-- Deposits
------------------------------------------------------------

namespace YieldManager

open YieldManager.Action

namespace ShareVault

variable {κ : Type}

/- The shares for an amount overflow, or they are told. -/
private theorem failsFor_toShares
    (v : ShareVault κ)
    (amount : UInt64) :
    Except.FailsFor [.mathOverflow] (v.toShares amount) := by
  unfold toShares
  split
  · exact .of_ok rfl
  · exact FixedPoint.failsFor_mulDivDown _ _ _

variable [DecidableEq κ] {owner : κ} {amount : UInt64}

/- A holding is not opened where there is no room for it. -/
private theorem failsFor_openHolding
    (owner : κ)
    (v : ShareVault κ) :
    FailsFor [.capacityReached] (openHolding owner) v := by
  apply FailsFor.get_bind
  cases v.holding? owner with
  | some h => exact .of_ok rfl
  | none =>
      apply FailsFor.get_bind
      apply FailsFor.lift_bind (.of_require _)
      intro _ _
      exact .of_ok rfl

/-
  A deposit overflows, or fails as the holding does that it
  needs.
-/
theorem failsFor_deposit_of_openHolding
    {reasons : List Error}
    {v : ShareVault κ}
    (hOverflow : [.mathOverflow] ⊆ reasons)
    (hOpen : FailsFor reasons (openHolding owner) v)
    (amount : UInt64) :
    FailsFor reasons (deposit owner amount) v := by
  apply FailsFor.get_bind
  apply FailsFor.lift_bind
    ((FixedPoint.failsFor_mulDivDown _ _ _).mono hOverflow)
  intro fee _
  apply FailsFor.lift_bind
    ((FixedPoint.failsFor_sub _ _ _).mono hOverflow)
  intro net _
  apply FailsFor.lift_bind
    ((failsFor_toShares v net).mono hOverflow)
  intro shares _
  apply FailsFor.lift_bind
    ((FixedPoint.failsFor_add _ _).mono hOverflow)
  intro assets _
  apply FailsFor.lift_bind
    ((FixedPoint.failsFor_add _ _).mono hOverflow)
  intro supply _
  apply FailsFor.lift_bind
    ((FixedPoint.failsFor_add _ _).mono hOverflow)
  intro fees _
  apply FailsFor.bind hOpen
  intro h w _
  apply FailsFor.lift_bind
    ((FixedPoint.failsFor_add _ _).mono hOverflow)
  intro owned _
  exact .of_ok rfl

/- A deposit overflows, or finds no room for its owner. -/
theorem failsFor_deposit
    (owner : κ)
    (amount : UInt64)
    (v : ShareVault κ) :
    FailsFor [.mathOverflow, .capacityReached]
      (deposit owner amount) v :=
  failsFor_deposit_of_openHolding (by simp)
    ((failsFor_openHolding owner v).mono (by simp)) amount

/- With room for its owner, a deposit can only overflow. -/
theorem failsFor_deposit_of_hasRoom
    {v : ShareVault κ}
    (hRoom : v.HasRoom owner)
    (amount : UInt64) :
    FailsFor [.mathOverflow] (deposit owner amount) v := by
  rcases exists_openHolding hRoom with ⟨h, w, hOpen⟩
  exact
    failsFor_deposit_of_openHolding (List.Subset.refl _)
      (.of_ok hOpen) amount

/- A measured deposit may also turn out to buy nothing. -/
theorem failsFor_depositMeasured
    (owner : κ)
    (amount : UInt64)
    (v : ShareVault κ) :
    FailsFor
      [.noSharesReceived, .capacityReached, .mathOverflow]
      (YieldVault.depositMeasured owner amount) v := by
  apply FailsFor.get_bind
  apply FailsFor.bind
    ((failsFor_deposit owner amount v).mono (by simp))
  intro _ w _
  apply FailsFor.get_bind
  apply FailsFor.lift_bind
    ((Except.FailsFor.of_require _).mono (by simp))
  intro _ _
  exact .of_ok rfl

end ShareVault

------------------------------------------------------------
-- The Books
------------------------------------------------------------

namespace Ledger

variable {κ : Type} [DecidableEq κ] [Zero κ]
variable {manager poolId mint : κ} {e : Entry κ}
variable {l : Ledger κ}

/- Cash that is there is handed over, but for an overflow. -/
theorem failsFor_toManager
    {amount : UInt64}
    (hEntry : l.managedEntry manager poolId mint = .ok e)
    (hCovered : amount ≤ e.cash) :
    FailsFor [.mathOverflow]
      (toManager manager poolId mint amount) l := by
  apply FailsFor.get_bind
  apply FailsFor.lift_bind (.of_ok hEntry)
  intro d hFound
  rw [hEntry, Except.ok.injEq] at hFound
  subst hFound
  apply FailsFor.lift_bind (.of_ok (if_pos hCovered))
  intro cash _
  apply FailsFor.lift_bind (FixedPoint.failsFor_add _ _)
  intro managed _
  exact .of_ok rfl

/- The report of a manager is always taken. -/
theorem failsFor_reportManaged
    (hEntry : l.managedEntry manager poolId mint = .ok e)
    (managed : UInt64) :
    FailsFor [] (reportManaged manager poolId mint managed)
      l := by
  apply FailsFor.get_bind
  apply FailsFor.lift_bind (.of_ok hEntry)
  intro d _
  exact .of_ok rfl

/- An entry stays open when cash is handed over. -/
theorem exists_managedEntry_of_toManager
    {amount : UInt64}
    {l' : Ledger κ}
    {u : Unit}
    (hRun :
      toManager manager poolId mint amount l = .ok u l') :
    ∃ d, l'.managedEntry manager poolId mint = .ok d := by
  rcases toManager_eq_ok_iff.mp hRun with
    ⟨e, cash, managed, hEntry, -, -, rfl⟩
  exact ⟨_, managedEntry_setEntry _ hEntry rfl rfl⟩

end Ledger

------------------------------------------------------------
-- Investments
------------------------------------------------------------

namespace Manager

variable {κ : Type} [DecidableEq κ] [Zero κ]
variable {m : Manager κ} {key poolId : κ}
variable {s : Position κ (ShareVault κ)}
variable {e : Entry κ} {amount value : UInt64}

/-
  An investment that cash covers fails because of the deposit,
  or because the managed balance that the ledger has on record
  leaves no room for the amount.
-/
theorem failsFor_invest
    (hVault : s.vault.IsConsistent)
    (hEntry :
      s.ledger.managedEntry key poolId m.token = .ok e)
    (hCovered : amount ≤ e.cash) :
    FailsFor
      [.noSharesReceived, .capacityReached, .mathOverflow]
      (m.invest key poolId amount) s := by
  rcases Ledger.managedEntry_eq_ok_iff.mp hEntry with
    ⟨hPool, hFound, -, -⟩
  have hBooks :
      s.ledger.balances poolId m.token =
        .ok { cash := e.cash, managed := e.managed } :=
    Ledger.balances_eq_ok_iff.mpr ⟨hPool, e, hFound, rfl⟩
  apply FailsFor.get_bind
  apply FailsFor.lift_bind (.of_ok hBooks)
  intro held hHeld
  rw [hBooks, Except.ok.injEq] at hHeld
  subst hHeld
  apply FailsFor.lift_bind (.of_ok (if_pos hCovered))
  intro _ _
  apply FailsFor.bind
    (.within
      (ShareVault.failsFor_depositMeasured key amount
        s.vault))
  intro shares t hMeasured
  rcases Position.onVault_eq_ok_iff.mp hMeasured with
    ⟨hDeposit, hLedger⟩
  rcases YieldVault.depositMeasured_eq_ok_iff.mp hDeposit with
    ⟨⟨claimed, hRun⟩, -, -⟩
  rcases ShareVault.deposited_of_deposit hRun with
    ⟨fee, net, -, -, hDeposited⟩
  rcases (hVault.deposited hDeposited).exists_worth key with
    ⟨worth, hWorth⟩
  apply FailsFor.get_bind
  apply FailsFor.lift_bind (.of_ok hWorth)
  intro _ _
  rw [hLedger] at hEntry
  apply FailsFor.bind
    ((FailsFor.within
      (Ledger.failsFor_toManager hEntry hCovered)).mono
        (by simp))
  intro _ u hTaken
  rcases Ledger.exists_managedEntry_of_toManager
      (Position.onLedger_eq_ok_iff.mp hTaken).1 with
    ⟨d, hOpen⟩
  apply FailsFor.bind
    ((FailsFor.within
      (Ledger.failsFor_reportManaged hOpen _)).mono
        (List.nil_subset _))
  intro _ _ _
  exact .of_ok rfl

------------------------------------------------------------
-- Rebalances
------------------------------------------------------------

/-
  A rebalance that fails was about to invest, and fails as the
  investment does.
-/
theorem error_of_rebalance
    {total : UInt64}
    {band : Band}
    {force : Bool}
    {error : Error}
    {t : Position κ (ShareVault κ)}
    (hVault : s.vault.IsConsistent)
    (hPool : m.poolId = poolId)
    (hLive : m.live = true)
    (hEntry :
      s.ledger.managedEntry key poolId m.token = .ok e)
    (hValue : aum key s.vault = .ok value)
    (hTotal : total.toNat = e.cash.toNat + value.toNat)
    (hBand : m.targets.band total = .ok band)
    (hWithin : band.desired ≤ total)
    (hLow : value < band.desired)
    (hRun :
      m.rebalance key poolId force s = .error error t) :
    error ∈
      [.noSharesReceived, .capacityReached,
        .mathOverflow] := by
  have hHeld :=
    poolBalances_of_managedEntry hPool hEntry hValue
  have hLess := UInt64.lt_iff_toNat_lt.mp hLow
  have hLe := UInt64.le_iff_toNat_le.mp hWithin
  have hAmount :=
    UInt64.toNat_sub_of_le _ _ (UInt64.le_of_lt hLow)
  have hCovered : band.desired - value ≤ e.cash := by
    rw [UInt64.le_iff_toNat_le]
    omega
  rw [rebalance_of_band hLive hHeld
    (FixedPoint.add_eq_ok_iff.mpr hTotal) hBand] at hRun
  refine FailsFor.atomically ?_ error t hRun
  split
  · exact .of_ok rfl
  · unfold moveTo
    rw [if_pos hLow]
    apply FailsFor.bind
      (failsFor_invest hVault hEntry hCovered)
    intro shares _ _
    exact .of_ok rfl

/-
  Whatever the ledger has on record as managed, and whatever
  the fee of the vault: the value can be told, and as long as
  the total fits, a rebalance whose target is at or below the
  value succeeds, forced or not.  One whose target is above
  the value can fail for three reasons, all of the deposit or
  of an overflow; what the vault has to deliver, and what the
  ledger checks, is never the reason.
-/
theorem rebalance_refusals
    (hVault : s.vault.IsConsistent)
    (hPool : m.poolId = poolId)
    (hLive : m.live = true)
    (hValid : m.targets.validate = .ok ())
    (hEntry :
      s.ledger.managedEntry key poolId m.token = .ok e) :
    ∃ value,
      aum key s.vault = .ok value ∧
        (e.cash.toNat + value.toNat < UInt64.size →
          ∃ total band,
            total.toNat = e.cash.toNat + value.toNat ∧
              m.targets.band total = .ok band ∧
              ∀ force,
                (band.desired ≤ value →
                  ∃ outcome t,
                    m.rebalance key poolId force s =
                      .ok outcome t) ∧
                ∀ error t,
                  m.rebalance key poolId force s =
                      .error error t →
                    value < band.desired ∧
                      error ∈
                        [.noSharesReceived,
                          .capacityReached,
                          .mathOverflow] ∧
                      error ∉
                        [.insufficientCash,
                          .insufficientManaged,
                          .insufficientShares,
                          .insufficientVaultLiquidity,
                          .insufficientTokensReceived,
                          .noSharesBurned,
                          .onlyAssetManager]) := by
  rcases hVault.exists_worth key with ⟨value, hValue⟩
  refine ⟨value, hValue, ?_⟩
  intro hFits
  rcases FixedPoint.exists_toNat_eq hFits with
    ⟨total, hTotal⟩
  rcases Targets.exists_band hValid total with
    ⟨band, hBand, hWithin⟩
  refine ⟨total, band, hTotal, hBand, ?_⟩
  intro force
  have hSucceeds :
      band.desired ≤ value →
        ∃ outcome t,
          m.rebalance key poolId force s =
            .ok outcome t := by
    intro hHigh
    apply (rebalance_succeeds_iff hVault hPool hLive hValid
      hEntry hValue hTotal hBand force).mpr
    intro _ hLow
    exact absurd hLow (UInt64.not_lt.mpr hHigh)
  refine ⟨hSucceeds, ?_⟩
  intro error t hRun
  have hLow : value < band.desired := by
    apply UInt64.not_le.mp
    intro hHigh
    rcases hSucceeds hHigh with ⟨outcome, u, hOk⟩
    rw [hOk] at hRun
    cases hRun
  have hReason :=
    error_of_rebalance hVault hPool hLive hEntry hValue
      hTotal hBand hWithin hLow hRun
  refine ⟨hLow, hReason, ?_⟩
  simp only [List.mem_cons, List.not_mem_nil, or_false]
    at hReason
  rcases hReason with rfl | rfl | rfl <;> decide

/- A manager that should have invested half of the total. -/
def halfManager : Manager Nat :=
  { dearManager with
    targets :=
      { target := 500000000000000000
        upper := 500000000000000000
        lower := 500000000000000000 } }

/-
  Its shares are worth 18, whatever the ledger has on record
  as managed.
-/
def stalePosition
    (cash managed : UInt64) :
    Position Nat (ShareVault Nat) :=
  { dearPosition with
    ledger :=
      { dearPosition.ledger with
        entries :=
          [{ mint := 2, cash := cash, managed := managed
             manager := 8 }] } }

/-
  With 2 in cash, 8 are divested although nothing is on record
  as managed.  With 500 in cash, 241 are missing, and a record
  that has no room for them is the reason to refuse.
-/
theorem rebalance_refusals_stalePosition :
    (∃ outcome t,
        halfManager.rebalance 8 1 false
            (stalePosition 2 0) =
          .ok outcome t) ∧
      ∃ error t,
        halfManager.rebalance 8 1 true
            (stalePosition 500 18446744073709551615) =
          .error error t ∧
          error ∈
            [.noSharesReceived, .capacityReached,
              .mathOverflow] := by
  have hVault : dearPosition.vault.IsConsistent :=
    ⟨by decide, by decide⟩
  have hPool : halfManager.poolId = 1 := rfl
  have hWorth : aum 8 dearPosition.vault = .ok 18 := rfl
  have hListed :
      ∀ cash managed : UInt64,
        (stalePosition cash managed).ledger.managedEntry 8 1
            halfManager.token =
          .ok
            { mint := 2, cash := cash, managed := managed
              manager := 8 } :=
    fun _ _ => rfl
  constructor
  · rcases rebalance_refusals (s := stalePosition 2 0)
        hVault hPool rfl rfl (hListed 2 0) with
      ⟨value, hValue, hDecided⟩
    have hEighteen : 18 = value :=
      Except.ok.inj (hWorth.symm.trans hValue)
    subst hEighteen
    rcases hDecided (by decide) with
      ⟨total, band, hTotal, hBand, hRebalance⟩
    have hTwenty : total = 20 := UInt64.toNat_inj.mp hTotal
    subst hTwenty
    cases hBand
    exact (hRebalance false).1 (by decide)
  · rcases rebalance_refusals
        (s := stalePosition 500 18446744073709551615)
        hVault hPool rfl rfl
        (hListed 500 18446744073709551615) with
      ⟨value, hValue, hDecided⟩
    have hEighteen : 18 = value :=
      Except.ok.inj (hWorth.symm.trans hValue)
    subst hEighteen
    rcases hDecided (by decide) with
      ⟨total, band, -, -, hRebalance⟩
    have hFails :
        ∃ t,
          halfManager.rebalance 8 1 true
              (stalePosition 500 18446744073709551615) =
            .error .mathOverflow t :=
      ⟨_, rfl⟩
    rcases hFails with ⟨t, hFails⟩
    exact
      ⟨_, t, hFails,
        ((hRebalance true).2 _ t hFails).2.1⟩

end Manager

end YieldManager

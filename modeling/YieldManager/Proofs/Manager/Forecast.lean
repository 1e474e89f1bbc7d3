import YieldManager.Proofs.Manager.Thresholds

/-
  What is left to invest foretells a forced rebalance.  Both
  form the same total and resolve the same band, so where one
  fails on the way, the other fails for the same reason.
  Otherwise, the sign of what is left tells what the rebalance
  does, and its size how much it moves, whatever the vault
  does.

  Main declarations:
    * `Manager.maxInvestable_cases`
    * `Manager.rebalance_of_maxInvestable_error`
    * `Manager.Foretold`
    * `Manager.forced_rebalance_foretold`
-/

------------------------------------------------------------
-- What Is Left to Invest
------------------------------------------------------------

namespace YieldManager

namespace Manager

variable {κ V : Type} [DecidableEq κ] [YieldVault κ V]
variable {m : Manager κ} {key poolId : κ}
variable {s : Position κ V} {left : Int}

/- What is left is told once the total has been formed. -/
theorem maxInvestable_cases
    (hLeft : m.maxInvestable key poolId s = .ok left) :
    ∃ held total band,
      m.poolBalances key poolId s = .ok held ∧
        held.total = .ok total ∧
        m.targets.band total = .ok band ∧
        left =
          FixedPoint.difference band.desired
            held.managed := by
  simp only [maxInvestable, Except.bind_eq_ok_iff,
    Except.pure_eq_ok_iff] at hLeft
  rcases hLeft with
    ⟨held, hHeld, total, hTotal, band, hBand, rfl⟩
  exact ⟨held, total, band, hHeld, hTotal, hBand, rfl⟩

/- The desired fraction of cash and value, over the numbers. -/
omit [DecidableEq κ] in
theorem toNat_desired
    {held : Balances}
    {total : UInt64}
    {band : Band}
    (hTotal : held.total = .ok total)
    (hBand : m.targets.band total = .ok band) :
    band.desired.toNat =
      (held.cash.toNat + held.managed.toNat) *
        m.targets.target.toNat / 10 ^ 18 := by
  have hSum := FixedPoint.add_eq_ok_iff.mp hTotal
  have hPart := (Targets.band_eq_ok_iff.mp hBand).1
  rw [← hSum]
  exact (FixedPoint.mulDivDown_eq_ok_iff.mp hPart).2

------------------------------------------------------------
-- Where Nothing Is Told
------------------------------------------------------------

variable [Zero κ]

/-
  A live manager's rebalance goes no further than the view
  does.
-/
theorem rebalance_of_maxInvestable_error
    {e : Error}
    (hLive : m.live = true)
    (hLeft : m.maxInvestable key poolId s = .error e)
    (force : Bool) :
    m.rebalance key poolId force s = .error e s := by
  rcases Except.bind_eq_error_iff.mp hLeft with
    hHeld | ⟨held, hHeld, hRest⟩
  · exact rebalance_of_balances_error hLive hHeld force
  · rw [rebalance_of_balances hLive hHeld]
    apply Action.atomically_of_error (t := s)
    rcases Except.bind_eq_error_iff.mp hRest with
      hTotal | ⟨total, hTotal, hRest⟩
    · exact Action.lift_bind_of_error hTotal _ s
    · rw [Action.lift_bind_eq hTotal]
      rcases Except.bind_eq_error_iff.mp hRest with
        hBand | ⟨band, -, hRest⟩
      · exact Action.lift_bind_of_error hBand _ s
      · cases hRest

------------------------------------------------------------
-- Rebalances That Are Foretold
------------------------------------------------------------

/-
  What is left is the difference between the desired fraction
  of cash and value, and the value; and a forced rebalance
  that succeeds does what its sign and its size tell.
-/
structure Foretold
    (m : Manager κ)
    (key poolId : κ)
    (s : Position κ V)
    (left : Int) : Prop where
  difference :
    ∃ books value,
      s.ledger.balances poolId m.token = .ok books ∧
        aum key s.vault = .ok value ∧
        left =
          (((books.cash.toNat + value.toNat) *
              m.targets.target.toNat / 10 ^ 18 : Nat) :
            Int) -
            value.toNat
  invests :
    0 < left →
      ∀ outcome t,
        m.rebalance key poolId true s = .ok outcome t →
          ∃ amount shares,
            outcome = .invested amount shares ∧
              (amount.toNat : Int) = left
  divests :
    left < 0 →
      ∀ outcome t,
        m.rebalance key poolId true s = .ok outcome t →
          ∃ amount,
            outcome = .divested amount ∧
              (amount.toNat : Int) = -left
  balanced :
    left = 0 → m.rebalance key poolId true s = .ok .balanced s

/- What a live manager tells to be left is what is moved. -/
theorem foretold_of_maxInvestable
    (hLive : m.live = true)
    (hLeft : m.maxInvestable key poolId s = .ok left) :
    Foretold m key poolId s left := by
  rcases maxInvestable_cases hLeft with
    ⟨held, total, band, hHeld, hTotal, hBand, rfl⟩
  have hForced :
      m.rebalance key poolId true s =
        Action.atomically
          (m.moveTo key poolId band.desired held.managed)
          s :=
    rebalance_of_band hLive hHeld hTotal hBand true
  unfold FixedPoint.difference
  refine
    { difference := ?_, invests := ?_, divests := ?_
      balanced := ?_ }
  · rcases poolBalances_eq_ok_iff.mp hHeld with
      ⟨-, hBooks, ⟨e, hEntry, hCash⟩, hValue⟩
    refine
      ⟨{ cash := e.cash, managed := e.managed },
        held.managed,
        Ledger.balances_eq_ok_iff.mpr
          ⟨hBooks, e, hEntry, rfl⟩,
        hValue, ?_⟩
    rw [toNat_desired hTotal hBand, ← hCash]
  · intro hMore outcome t hRun
    have hLow : held.managed < band.desired := by
      rw [UInt64.lt_iff_toNat_lt]
      omega
    rw [hForced, Action.atomically_eq_ok_iff] at hRun
    rcases moveTo_up hLow hRun with
      ⟨amount, shares, hOutcome, -, hAmount⟩
    exact ⟨amount, shares, hOutcome, by omega⟩
  · intro hLess outcome t hRun
    have hHigh : band.desired < held.managed := by
      rw [UInt64.lt_iff_toNat_lt]
      omega
    rw [hForced, Action.atomically_eq_ok_iff] at hRun
    rcases moveTo_down hHigh hRun with
      ⟨amount, hOutcome, -, hAmount⟩
    exact ⟨amount, hOutcome, by omega⟩
  · intro hNone
    have hEven : band.desired = held.managed := by
      apply UInt64.toNat_inj.mp
      omega
    rw [hForced, Action.atomically_eq_ok_iff]
    exact moveTo_eq_ok_iff.mpr (.inr (.inr ⟨hEven, rfl, rfl⟩))

/-
  The view of what is left to invest and the forced rebalance
  of a live manager agree: both fail for the same reason, or
  what is left foretells the rebalance.
-/
theorem forced_rebalance_foretold
    {m : Manager κ}
    (hLive : m.live = true)
    (key poolId : κ)
    (s : Position κ V) :
    match m.maxInvestable key poolId s with
    | .error e => m.rebalance key poolId true s = .error e s
    | .ok left => Foretold m key poolId s left := by
  cases hLeft : m.maxInvestable key poolId s with
  | error e =>
      exact rebalance_of_maxInvestable_error hLive hLeft true
  | ok left => exact foretold_of_maxInvestable hLive hLeft

/-
  With 90 of 100 in the vault and half of it desired, -40 are
  left to invest, and what a forced rebalance divests is 40.
  For another pool, both are refused.
-/
theorem forced_rebalance_foretold_generousPosition :
    bandedManager.maxInvestable 8 1 generousPosition =
        .ok (-40) ∧
      (∀ outcome t,
        bandedManager.rebalance 8 1 true generousPosition =
            .ok outcome t →
          outcome = .divested 40) ∧
      bandedManager.rebalance 8 2 true generousPosition =
        .error .incorrectPoolId generousPosition := by
  have hLive : bandedManager.live = true := rfl
  refine ⟨rfl, ?_, ?_⟩
  · intro outcome t hRun
    have hForetold :
        Foretold bandedManager 8 1 generousPosition (-40) :=
      forced_rebalance_foretold hLive 8 1 generousPosition
    rcases hForetold.divests (by decide) outcome t hRun with
      ⟨amount, hOutcome, hAmount⟩
    have hForty : amount = 40 := by
      apply UInt64.toNat_inj.mp
      change amount.toNat = 40
      omega
    rw [hOutcome, hForty]
  · exact
      forced_rebalance_foretold hLive 8 2 generousPosition

end Manager

end YieldManager

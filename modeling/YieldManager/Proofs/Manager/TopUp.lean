import YieldManager.Proofs.Manager.Target
import YieldManager.Proofs.Manager.Thresholds

/-
  Forced rebalances in a row, over a vault at par that takes a
  fee.  The fee of an investment is gone from the total, and
  what is desired falls by no more than that; so the next
  rebalance finds a part of the fee missing, and tops it up,
  which costs a smaller fee.  This comes to an end.

  Main declarations:
    * `Outcome.Next`
    * `Outcome.exists_balanced`
    * `Manager.afterForced`
    * `Manager.Funded`
    * `Manager.Funded.of_invest`
    * `Manager.Funded.onTarget_of_divest`
    * `Manager.LeftBy`
    * `Manager.LeftBy.next`
    * `Manager.forced_rebalances_settle`
-/

------------------------------------------------------------
-- Outcomes in a Row
------------------------------------------------------------

namespace YieldManager

namespace Outcome

/-
  What a forced rebalance can do right after another one, if
  nothing happens in between: it rests, or it tops up the fee
  of an investment.
-/
inductive Next (feeBps : UInt64) : Outcome → Outcome → Prop
  | settled
      {amount shares : UInt64} :
      Next feeBps (.invested amount shares) .balanced
  | toppedUp
      {amount shares more issued : UInt64}
      (hSome : 0 < more)
      (hFee :
        more.toNat ≤ amount.toNat * feeBps.toNat / 10000) :
      Next feeBps (.invested amount shares)
        (.invested more issued)
  | returned
      {amount : UInt64} :
      Next feeBps (.divested amount) .balanced
  | rested : Next feeBps .balanced .balanced

variable {feeBps : UInt64} {outcomes : Nat → Outcome}

/- The amounts of top-ups shrink, so they come to an end. -/
theorem exists_balanced
    (hFee : feeBps < FixedPoint.bpsScale)
    (hNext :
      ∀ n, Next feeBps (outcomes n) (outcomes (n + 1))) :
    ∃ last, outcomes last = .balanced := by
  suffices hFrom :
      ∀ bound n,
        (outcomes n).amountInvested.toNat = bound →
          ∃ last, outcomes last = .balanced
    from hFrom _ 0 rfl
  -- Each round starts from the amount of the one before it.
  intro bound
  induction bound using Nat.strong_induction_on with
  | _ bound ih =>
      intro n hAmount
      have hStep := hNext n
      generalize hNow : outcomes n = now at hStep hAmount
      generalize hThen : outcomes (n + 1) = later at hStep
      cases hStep with
      | settled => exact ⟨n + 1, hThen⟩
      | returned => exact ⟨n + 1, hThen⟩
      | rested => exact ⟨n, hNow⟩
      | @toppedUp amount shares more issued hSome hPart =>
          have hPos : 0 < more.toNat :=
            UInt64.lt_iff_toNat_lt.mp hSome
          have hSpent : 0 < amount.toNat := by
            apply Nat.pos_of_ne_zero
            intro hZero
            rw [hZero, Nat.zero_mul] at hPart
            omega
          have hLess : more.toNat < bound := by
            rw [← hAmount]
            exact
              Nat.lt_of_le_of_lt hPart
                (FixedPoint.bps_lt hFee hSpent)
          refine ih more.toNat hLess (n + 1) ?_
          rw [hThen]
          rfl

/- Once rebalances rest, they rest. -/
theorem balanced_of_le
    {last n : Nat}
    (hNext :
      ∀ n, Next feeBps (outcomes n) (outcomes (n + 1)))
    (hLast : outcomes last = .balanced)
    (hLater : last ≤ n) :
    outcomes n = .balanced := by
  induction n, hLater using Nat.le_induction with
  | base => exact hLast
  | succ n _ ih =>
      have hStep := hNext n
      rw [ih] at hStep
      generalize outcomes (n + 1) = later at hStep
      cases hStep
      rfl

end Outcome

------------------------------------------------------------
-- Funded Positions
------------------------------------------------------------

namespace Manager

variable {κ : Type} [DecidableEq κ] [Zero κ]
variable {m : Manager κ} {key : κ}
variable {s t : Position κ (ShareVault κ)}
variable {total : UInt64} {band : Band} {e : Entry κ}
variable {feeBps : UInt64}

/- The position after some forced rebalances in a row. -/
def afterForced
    (m : Manager κ)
    (key : κ)
    (s : Position κ (ShareVault κ)) :
    Nat → Position κ (ShareVault κ)
  | 0 => s
  | n + 1 =>
      ((m.rebalance key m.poolId true).perform
        (m.afterForced key s n)).2

/- A forced rebalance leads to the next position. -/
theorem afterForced_succ
    {n : Nat}
    {outcome : Outcome}
    (hRun :
      m.rebalance key m.poolId true (m.afterForced key s n) =
        .ok outcome t) :
    m.afterForced key s (n + 1) = t := by
  rw [afterForced, Action.perform, hRun]

/-
  A position in which ledger and vault agree on what the
  manager has, the total fits and has a band, and the vault
  takes whatever cash there is.
-/
structure Funded
    (m : Manager κ)
    (key : κ)
    (total : UInt64)
    (band : Band)
    (e : Entry κ)
    (s : Position κ (ShareVault κ)) : Prop where
  par : s.vault.IsPar
  registered :
    s.ledger.managedEntry key m.poolId m.token = .ok e
  value : aum key s.vault = .ok e.managed
  sum : total.toNat = e.cash.toNat + e.managed.toNat
  resolved : m.targets.band total = .ok band
  accepts : ShareVault.Accepts key e.cash.toNat s.vault

namespace Funded

/- What is managed is the number of the manager's shares. -/
theorem managed
    (hFunded : m.Funded key total band e s) :
    e.managed = s.vault.balanceOf key :=
  hFunded.par.eq_balanceOf_of_worth hFunded.value

/- A funded position that has what is desired is on target. -/
theorem onTarget
    (hFunded : m.Funded key total band e s)
    (hDesired : e.managed = band.desired) :
    m.OnTarget key m.poolId s :=
  onTarget_of_managedEntry rfl hFunded.registered
    hFunded.value hFunded.sum hFunded.resolved hDesired

/- A funded position can be moved to what is desired. -/
theorem exists_moveTo
    (hFunded : m.Funded key total band e s)
    (hLive : m.live = true)
    (hValid : m.targets.validate = .ok ()) :
    ∃ outcome t,
      m.rebalance key m.poolId true s = .ok outcome t ∧
        m.moveTo key m.poolId band.desired e.managed s =
          .ok outcome t := by
  have hFits :
      e.cash.toNat + e.managed.toNat < UInt64.size := by
    rw [← hFunded.sum]
    exact total.toNat_lt_size
  have hSettled : Settled m key s := by
    rcases Ledger.managedEntry_eq_ok_iff.mp
        hFunded.registered with
      ⟨-, hEntry, -, -⟩
    exact ⟨hFunded.par, e, hEntry, hFunded.managed⟩
  rcases exists_rebalance hSettled rfl hLive hValid
      hFunded.registered hFits (fun _ => hFunded.accepts)
      true with
    ⟨outcome, t, hRun⟩
  exact
    ⟨outcome, t, hRun,
      moveTo_of_forced hFunded.registered hFunded.value
        hFunded.sum hFunded.resolved hRun⟩

/-
  An investment of what is missing leaves the position funded.
  The total has lost the fee, and the managed balance is short
  of what was desired by the fee; so it is short of what is
  desired now by no more, and not above it.
-/
theorem of_invest
    {shares : UInt64}
    (hFunded : m.Funded key total band e s)
    (hValid : m.targets.validate = .ok ())
    (hLow : e.managed < band.desired)
    (hRun :
      m.invest key m.poolId (band.desired - e.managed) s =
        .ok shares t) :
    t.vault.feeBps = s.vault.feeBps ∧
      ∃ total' band' d,
        m.Funded key total' band' d t ∧
          d.managed ≤ band'.desired ∧
          band'.desired.toNat ≤
            d.managed.toNat +
              (band.desired - e.managed).toNat *
                s.vault.feeBps.toNat / 10000 := by
  have hLess := UInt64.lt_iff_toNat_lt.mp hLow
  have hAmount :=
    UInt64.toNat_sub_of_le _ _ (UInt64.le_of_lt hLow)
  have hSum := hFunded.sum
  rcases dealt_of_invest hFunded.par hRun with
    ⟨-, fee, net, hSplit, hDealt⟩
  have hShifted := hDealt.shifted
  have hParAfter := hShifted.isPar hFunded.par
  rcases hDealt.exists_managedEntry hFunded.registered with
    ⟨cash, hCash, hAfter⟩
  have hParts := hSplit.2
  have hFee := ShareVault.fee_of_splits hSplit
  have hNet : 0 < net.toNat :=
    ShareVault.net_pos_of_splits hFunded.accepts.fee
      (by omega) hSplit
  have hOwn := hShifted.own
  rw [← hFunded.managed] at hOwn
  have hBound := total.toNat_lt_size
  rcases FixedPoint.exists_toNat_eq
      (n := cash.toNat + (t.vault.balanceOf key).toNat)
      (by omega) with
    ⟨total', hTotal⟩
  rcases Targets.exists_band hValid total' with
    ⟨band', hBand, -⟩
  have hLost : total'.toNat + fee.toNat = total.toNat := by
    omega
  rcases Targets.desired_near hValid hLost hFunded.resolved
      hBand with
    ⟨hFallen, hNear⟩
  have hFallenNat := UInt64.le_iff_toNat_le.mp hFallen
  have hAccepts : ShareVault.Accepts key cash.toNat t.vault :=
    hShifted.accepts hFunded.accepts hNet (by omega)
  refine
    ⟨hShifted.terms.feeBps, total', band', _,
      { par := hParAfter
        registered := hAfter
        value := hParAfter.worth key
        sum := hTotal
        resolved := hBand
        accepts := hAccepts }, ?_, ?_⟩
  · rw [UInt64.le_iff_toNat_le]
    show (t.vault.balanceOf key).toNat ≤ band'.desired.toNat
    omega
  · show
      band'.desired.toNat ≤ (t.vault.balanceOf key).toNat + _
    omega

/- A divestment of the excess reaches the target. -/
theorem onTarget_of_divest
    {received : UInt64}
    (hFunded : m.Funded key total band e s)
    (hHigh : band.desired < e.managed)
    (hRun :
      m.divest key m.poolId (e.managed - band.desired) s =
        .ok received t) :
    m.OnTarget key m.poolId t := by
  have hLess := UInt64.lt_iff_toNat_lt.mp hHigh
  have hAmount :=
    UInt64.toNat_sub_of_le _ _ (UInt64.le_of_lt hHigh)
  have hChange :
      (band.desired.toNat : Int) =
        e.managed.toNat +
          -((e.managed - band.desired).toNat : Int) := by
    omega
  rcases reached_of_dealt hFunded.par hFunded.registered
      hFunded.managed (dealt_of_divest hFunded.par hRun)
      hChange with
    ⟨hPar, hReached, cash, hSum, hAfter⟩
  exact
    onTarget_of_managedEntry rfl hAfter
      (hReached ▸ hPar.worth key)
      (hFunded.sum.trans hSum.symm) hFunded.resolved rfl

end Funded

------------------------------------------------------------
-- One Rebalance after Another
------------------------------------------------------------

/-
  What a forced rebalance leaves behind: after an investment,
  no more than its fee is missing; otherwise nothing is.
-/
def LeftBy
    (m : Manager κ)
    (key : κ)
    (feeBps : UInt64) :
    Outcome → Position κ (ShareVault κ) → Prop
  | .skipped, _ => False
  | .balanced, s => m.OnTarget key m.poolId s
  | .divested _, s => m.OnTarget key m.poolId s
  | .invested amount _, s =>
      s.vault.feeBps = feeBps ∧
        ∃ total band e,
          m.Funded key total band e s ∧
            e.managed ≤ band.desired ∧
            band.desired.toNat ≤
              e.managed.toNat +
                amount.toNat * feeBps.toNat / 10000

/- Moves of a funded position leave that behind. -/
theorem Funded.leftBy_of_moveTo
    {outcome : Outcome}
    (hFunded : m.Funded key total band e s)
    (hValid : m.targets.validate = .ok ())
    (hMove :
      m.moveTo key m.poolId band.desired e.managed s =
        .ok outcome t) :
    m.LeftBy key s.vault.feeBps outcome t := by
  rcases moveTo_eq_ok_iff.mp hMove with
    ⟨hLow, shares, hInvest, rfl⟩ |
      ⟨hHigh, received, hDivest, rfl⟩ | ⟨hEq, rfl, rfl⟩
  · exact hFunded.of_invest hValid hLow hInvest
  · exact hFunded.onTarget_of_divest hHigh hDivest
  · exact hFunded.onTarget hEq.symm

/- The first of some forced rebalances succeeds. -/
theorem Funded.first
    (hFunded : m.Funded key total band e s)
    (hLive : m.live = true)
    (hValid : m.targets.validate = .ok ()) :
    ∃ outcome t,
      m.rebalance key m.poolId true s = .ok outcome t ∧
        m.LeftBy key s.vault.feeBps outcome t := by
  rcases hFunded.exists_moveTo hLive hValid with
    ⟨outcome, t, hRun, hMove⟩
  exact
    ⟨outcome, t, hRun, hFunded.leftBy_of_moveTo hValid hMove⟩

/-
  A forced rebalance after another one succeeds, and does
  nothing or tops up the fee.
-/
theorem LeftBy.next
    {before : Outcome}
    (hLeft : m.LeftBy key feeBps before s)
    (hLive : m.live = true)
    (hValid : m.targets.validate = .ok ()) :
    ∃ outcome t,
      m.rebalance key m.poolId true s = .ok outcome t ∧
        Outcome.Next feeBps before outcome ∧
        m.LeftBy key feeBps outcome t := by
  cases before with
  | skipped => exact hLeft.elim
  | balanced =>
      exact
        ⟨.balanced, s,
          OnTarget.rebalance hLeft hLive hValid true,
          .rested, hLeft⟩
  | divested amount =>
      exact
        ⟨.balanced, s,
          OnTarget.rebalance hLeft hLive hValid true,
          .returned, hLeft⟩
  | invested amount shares =>
      rcases hLeft with
        ⟨rfl, total, band, e, hFunded, hNotHigh, hNear⟩
      rcases hFunded.exists_moveTo hLive hValid with
        ⟨outcome, t, hRun, hMove⟩
      refine
        ⟨outcome, t, hRun, ?_,
          hFunded.leftBy_of_moveTo hValid hMove⟩
      rcases UInt64.lt_or_eq_of_le hNotHigh with hLow | hEq
      · rcases moveTo_up hLow hMove with
          ⟨more, issued, rfl, hSome, hMore⟩
        exact .toppedUp hSome (by omega)
      · rcases moveTo_eq_ok_iff.mp hMove with
          ⟨hLow, -⟩ | ⟨hHigh, -⟩ | ⟨-, -, rfl⟩
        · exact absurd hEq (UInt64.ne_of_lt hLow)
        · exact absurd hEq.symm (UInt64.ne_of_lt hHigh)
        · exact .settled

------------------------------------------------------------
-- Rebalances in a Row
------------------------------------------------------------

/- Of some forced rebalances in a row, every one succeeds. -/
theorem Funded.exists_forced
    (hFunded : m.Funded key total band e s)
    (hLive : m.live = true)
    (hValid : m.targets.validate = .ok ())
    (n : Nat) :
    ∃ outcome,
      m.rebalance key m.poolId true
            (m.afterForced key s n) =
          .ok outcome (m.afterForced key s (n + 1)) ∧
        m.LeftBy key s.vault.feeBps outcome
          (m.afterForced key s (n + 1)) := by
  induction n with
  | zero =>
      rcases hFunded.first hLive hValid with
        ⟨outcome, t, hRun, hLeft⟩
      rw [afterForced_succ hRun]
      exact ⟨outcome, hRun, hLeft⟩
  | succ n ih =>
      rcases ih with ⟨before, -, hLeft⟩
      rcases hLeft.next hLive hValid with
        ⟨outcome, t, hRun, -, hLeft'⟩
      rw [afterForced_succ hRun]
      exact ⟨outcome, hRun, hLeft'⟩

/- A rebalance that is balanced changes nothing. -/
theorem eq_of_rebalance_balanced
    {poolId : κ}
    {force : Bool}
    (hRun :
      m.rebalance key poolId force s = .ok .balanced t) :
    s = t := by
  rcases rebalance_eq_ok_iff.mp hRun with
    ⟨-, -, _, _, _, _, -, -, -, -, hMove⟩
  split at hMove
  · exact hMove.2
  · rcases moveTo_eq_ok_iff.mp hMove with
      ⟨-, shares, -, hOutcome⟩ |
        ⟨-, received, -, hOutcome⟩ | ⟨-, hSame, -⟩
    · cases hOutcome
    · cases hOutcome
    · exact hSame

/-
  Over a vault at par with a fee below 100%, a live manager
  can be forced to rebalance any number of times.  After an
  investment it rests, or invests no more than the fee of that
  investment; after anything else it rests.  From some point
  on it rests forever, and nothing changes any more.
-/
theorem forced_rebalances_settle
    (hLive : m.live = true)
    (hValid : m.targets.validate = .ok ())
    (hEntry :
      s.ledger.managedEntry key m.poolId m.token = .ok e)
    (hManaged : aum key s.vault = .ok e.managed)
    (hPar : s.vault.IsPar)
    (hFee : s.vault.feeBps < FixedPoint.bpsScale)
    (hRoom : ShareVault.HasRoom s.vault key)
    (hTotal :
      e.cash.toNat + e.managed.toNat < UInt64.size)
    (hAssets :
      s.vault.assets.toNat + e.cash.toNat < UInt64.size)
    (hFees :
      s.vault.fees.toNat + e.cash.toNat < UInt64.size) :
    ∃ outcomes : Nat → Outcome,
      (∀ n,
        m.rebalance key m.poolId true
            (m.afterForced key s n) =
          .ok (outcomes n) (m.afterForced key s (n + 1))) ∧
        (∀ n,
          Outcome.Next s.vault.feeBps (outcomes n)
            (outcomes (n + 1))) ∧
        ∃ last, ∀ n, last ≤ n →
          outcomes n = .balanced ∧
            m.afterForced key s n =
              m.afterForced key s last := by
  rcases FixedPoint.exists_toNat_eq hTotal with
    ⟨total, hTotalNat⟩
  rcases Targets.exists_band hValid total with
    ⟨band, hBand, -⟩
  have hFunded : m.Funded key total band e s :=
    { par := hPar
      registered := hEntry
      value := hManaged
      sum := hTotalNat
      resolved := hBand
      accepts := ⟨hFee, hAssets, hFees, hRoom⟩ }
  choose outcomes hRuns hLeft using
    hFunded.exists_forced hLive hValid
  have hNext :
      ∀ n,
        Outcome.Next s.vault.feeBps (outcomes n)
          (outcomes (n + 1)) := by
    intro n
    rcases (hLeft n).next hLive hValid with
      ⟨outcome, t, hRun, hNext, -⟩
    rw [hRuns (n + 1)] at hRun
    cases hRun
    exact hNext
  rcases Outcome.exists_balanced hFee hNext with
    ⟨last, hLast⟩
  refine ⟨outcomes, hRuns, hNext, last, ?_⟩
  intro n hLater
  refine ⟨Outcome.balanced_of_le hNext hLast hLater, ?_⟩
  induction n, hLater using Nat.le_induction with
  | base => rfl
  | succ n hBefore ih =>
      have hRest := hRuns n
      rw [Outcome.balanced_of_le hNext hLast hBefore]
        at hRest
      rw [← eq_of_rebalance_balanced hRest, ih]

/- A manager that should invest four fifths of the total. -/
def largelyInvested : Manager Nat :=
  neighbour 1 800000000000000000

/- A pool with 1000 in cash, over a vault that takes a tenth. -/
def dearlyFunded : Position Nat (ShareVault Nat) :=
  neighbourPosition 1 9 1000 0
    { neighbourVault 0 0 [] with feeBps := 1000 }

/-
  The fee of 800 is 80, of which 16 are topped up; the fee of
  these is 1, which does not show in the target.
-/
theorem forced_rebalances_settle_dearlyFunded :
    ∃ outcomes : Nat → Outcome,
      outcomes 0 = .invested 800 720 ∧
        outcomes 1 = .invested 16 15 ∧
        outcomes 2 = .balanced ∧
        ∃ last, ∀ n, last ≤ n →
          outcomes n = .balanced ∧
            largelyInvested.afterForced 9 dearlyFunded n =
              largelyInvested.afterForced 9 dearlyFunded
                last := by
  have hEntry :
      dearlyFunded.ledger.managedEntry 9
          largelyInvested.poolId largelyInvested.token =
        .ok
          { mint := 2, cash := 1000, managed := 0
            manager := 9 } :=
    rfl
  have hPar : dearlyFunded.vault.IsPar :=
    ⟨⟨by decide, by decide⟩, rfl⟩
  rcases forced_rebalances_settle rfl rfl hEntry rfl hPar
      (by decide) (.inr (by decide)) (by decide)
      (by decide) (by decide) with
    ⟨outcomes, hRuns, -, hSettles⟩
  have hAnswer :
      ∀ n outcome,
        ((largelyInvested.rebalance 9
              largelyInvested.poolId true).perform
            (largelyInvested.afterForced 9 dearlyFunded
              n)).1 = .ok outcome →
          outcomes n = outcome := by
    intro n outcome hOutcome
    rw [Action.perform, hRuns n] at hOutcome
    exact Except.ok.inj hOutcome
  exact
    ⟨outcomes, hAnswer 0 _ rfl, hAnswer 1 _ rfl,
      hAnswer 2 _ rfl, hSettles⟩

end Manager

end YieldManager

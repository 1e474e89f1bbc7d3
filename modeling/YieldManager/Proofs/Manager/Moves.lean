import YieldManager.Manager.Rebalance
import YieldManager.Proofs.Ledger.Entries

/-
  Successful moves of capital, opened up.  Whatever the vault
  does, an investment or a divestment that succeeds rewrites
  one entry of the ledger, and what it writes there is fixed
  by the amount and by the value that the vault answers last.

  Main declarations:
    * `YieldVault.depositMeasured_eq_ok_iff`
    * `YieldVault.withdrawMeasured_eq_ok_iff`
    * `Manager.invest_eq_ok_iff`
    * `Manager.divest_eq_ok_iff`
    * `Manager.moveTo_eq_ok_iff`
    * `Manager.rebalance_eq_ok_iff`
    * `Manager.capitalIn_eq_ok_iff`
    * `Manager.capitalOut_eq_ok_iff`
    * `Manager.reportBalance_eq_ok_iff`
-/

------------------------------------------------------------
-- Measured Access
------------------------------------------------------------

namespace YieldManager

namespace YieldVault

variable {κ V : Type} [YieldVault κ V]

/-
  A measured deposit is a deposit after which the owner has
  more shares; it answers how many more.
-/
theorem depositMeasured_eq_ok_iff
    {owner : κ}
    {amount shares : UInt64}
    {v w : V} :
    depositMeasured owner amount v = .ok shares w ↔
      (∃ claimed, deposit owner amount v = .ok claimed w) ∧
        balanceOf v owner < balanceOf w owner ∧
        shares = balanceOf w owner - balanceOf v owner := by
  simp only [depositMeasured, Action.bind_eq_ok_iff,
    Action.get_eq_ok_iff, Action.lift_eq_ok_iff,
    Action.pure_eq_ok_iff, require_eq_ok_iff]
  constructor
  · intro hSteps
    rcases hSteps with
      ⟨_, _, ⟨rfl, rfl⟩, claimed, _, hRun, _, _, ⟨rfl, rfl⟩,
        _, _, ⟨hGain, rfl⟩, rfl, rfl⟩
    exact ⟨⟨claimed, hRun⟩, hGain, rfl⟩
  · intro hSteps
    rcases hSteps with ⟨⟨claimed, hRun⟩, hGain, rfl⟩
    exact
      ⟨v, v, ⟨rfl, rfl⟩, claimed, w, hRun, w, w,
        ⟨rfl, rfl⟩, (), w, ⟨hGain, rfl⟩, rfl, rfl⟩

/-
  A measured withdrawal is a withdrawal after which the owner
  has fewer shares, and which claims to deliver the amount.
-/
theorem withdrawMeasured_eq_ok_iff
    {owner : κ}
    {amount received : UInt64}
    {v w : V} :
    withdrawMeasured owner amount v = .ok received w ↔
      withdraw owner amount v = .ok received w ∧
        balanceOf w owner < balanceOf v owner ∧
        amount ≤ received := by
  simp only [withdrawMeasured, Action.bind_eq_ok_iff,
    Action.get_eq_ok_iff, Action.lift_eq_ok_iff,
    Action.pure_eq_ok_iff, require_eq_ok_iff]
  constructor
  · intro hSteps
    rcases hSteps with
      ⟨_, _, ⟨rfl, rfl⟩, claimed, _, hRun, _, _, ⟨rfl, rfl⟩,
        _, _, ⟨hLoss, rfl⟩, _, _, ⟨hEnough, rfl⟩, rfl, rfl⟩
    exact ⟨hRun, hLoss, hEnough⟩
  · intro hSteps
    rcases hSteps with ⟨hRun, hLoss, hEnough⟩
    exact
      ⟨v, v, ⟨rfl, rfl⟩, received, w, hRun, w, w,
        ⟨rfl, rfl⟩, (), w, ⟨hLoss, rfl⟩, (), w,
        ⟨hEnough, rfl⟩, rfl, rfl⟩

end YieldVault

------------------------------------------------------------
-- The Books of a Move
------------------------------------------------------------

namespace Ledger

variable {κ : Type} [DecidableEq κ] [Zero κ]

/-
  Handing cash to the manager and taking its report leaves
  the cash reduced and the report as the managed balance.
-/
theorem toManager_report_eq_ok_iff
    {manager poolId mint : κ}
    {amount value : UInt64}
    {l l' : Ledger κ} :
    (∃ l₁,
      toManager manager poolId mint amount l = .ok () l₁ ∧
        reportManaged manager poolId mint value l₁ =
          .ok () l') ↔
      ∃ (e : Entry κ) (cash managed : UInt64),
        l.managedEntry manager poolId mint = .ok e ∧
          cash.toNat + amount.toNat = e.cash.toNat ∧
          managed.toNat =
            e.managed.toNat + amount.toNat ∧
          l.setEntry
            { e with cash := cash, managed := value } =
              l' := by
  simp only [toManager_eq_ok_iff, reportManaged_eq_ok_iff]
  constructor
  · intro hSteps
    rcases hSteps with
      ⟨_, ⟨e, cash, managed, hEntry, hCash, hManaged, rfl⟩,
        d, hReport, rfl⟩
    have hSelf :=
      managedEntry_setEntry
        { e with cash := cash, managed := managed }
        hEntry rfl rfl
    rw [hSelf] at hReport
    cases hReport
    refine ⟨e, cash, managed, hEntry, hCash, hManaged, ?_⟩
    symm
    exact setEntry_setEntry l rfl
  · intro hSteps
    rcases hSteps with
      ⟨e, cash, managed, hEntry, hCash, hManaged, rfl⟩
    have hSelf :=
      managedEntry_setEntry
        { e with cash := cash, managed := managed }
        hEntry rfl rfl
    refine
      ⟨_, ⟨e, cash, managed, hEntry, hCash, hManaged, rfl⟩,
        _, hSelf, ?_⟩
    exact setEntry_setEntry l rfl

/-
  Reporting, taking cash back and reporting again leaves the
  cash increased and the last report as the managed balance.
  The amount has to be covered by the first report.
-/
theorem report_fromManager_report_eq_ok_iff
    {manager poolId mint : κ}
    {amount before after : UInt64}
    {l l' : Ledger κ} :
    (∃ l₁ l₂,
      reportManaged manager poolId mint before l =
          .ok () l₁ ∧
        fromManager manager poolId mint amount l₁ =
          .ok () l₂ ∧
        reportManaged manager poolId mint after l₂ =
          .ok () l') ↔
      ∃ e cash,
        l.managedEntry manager poolId mint = .ok e ∧
          amount ≤ before ∧
          cash.toNat = e.cash.toNat + amount.toNat ∧
          l.setEntry
            { e with cash := cash, managed := after } =
              l' := by
  simp only [fromManager_eq_ok_iff, reportManaged_eq_ok_iff]
  constructor
  · intro hSteps
    rcases hSteps with
      ⟨_, _, ⟨e, hEntry, rfl⟩, ⟨d, managed, cash, hTaken,
        hManaged, hCash, rfl⟩, d', hReport, rfl⟩
    have hFirst :=
      managedEntry_setEntry { e with managed := before }
        hEntry rfl rfl
    rw [hFirst] at hTaken
    cases hTaken
    have hSecond :=
      managedEntry_setEntry
        { e with cash := cash, managed := managed }
        hFirst rfl rfl
    rw [hSecond] at hReport
    cases hReport
    refine ⟨e, cash, hEntry, ?_, hCash, ?_⟩
    · rw [UInt64.le_iff_toNat_le]
      simp only at hManaged
      omega
    · symm
      exact
        Eq.trans (setEntry_setEntry _ rfl)
          (setEntry_setEntry l rfl)
  · intro hSteps
    rcases hSteps with
      ⟨e, cash, hEntry, hCovered, hCash, rfl⟩
    have hFirst :=
      managedEntry_setEntry { e with managed := before }
        hEntry rfl rfl
    have hLe := UInt64.le_iff_toNat_le.mp hCovered
    have hBound := before.toNat_lt_size
    rcases FixedPoint.exists_toNat_eq
        (n := before.toNat - amount.toNat) (by omega) with
      ⟨managed, hManaged⟩
    have hSecond :=
      managedEntry_setEntry
        { e with cash := cash, managed := managed }
        hFirst rfl rfl
    refine
      ⟨_, _, ⟨e, hEntry, rfl⟩,
        ⟨_, managed, cash, hFirst, ?_, hCash, rfl⟩,
        _, hSecond, ?_⟩
    · simp only
      omega
    · exact
        Eq.trans (setEntry_setEntry _ rfl)
          (setEntry_setEntry l rfl)

end Ledger

------------------------------------------------------------
-- Moves of Capital
------------------------------------------------------------

namespace Position

variable {κ V α : Type}

/- An action on the ledger leaves the vault alone. -/
theorem onLedger_eq_ok_iff
    {a : Action (Ledger κ) α}
    {s t : Position κ V}
    {x : α} :
    onLedger a s = .ok x t ↔
      a s.ledger = .ok x t.ledger ∧ s.vault = t.vault := by
  unfold onLedger
  rw [Action.within_eq_ok_iff]
  constructor
  · intro hSteps
    rcases hSteps with ⟨l, hRun, rfl⟩
    exact ⟨hRun, rfl⟩
  · intro hSteps
    rcases hSteps with ⟨hRun, hVault⟩
    refine ⟨t.ledger, hRun, ?_⟩
    simp only [hVault]

/- An action on the vault leaves the ledger alone. -/
theorem onVault_eq_ok_iff
    {a : Action V α}
    {s t : Position κ V}
    {x : α} :
    onVault a s = .ok x t ↔
      a s.vault = .ok x t.vault ∧ s.ledger = t.ledger := by
  unfold onVault
  rw [Action.within_eq_ok_iff]
  constructor
  · intro hSteps
    rcases hSteps with ⟨v, hRun, rfl⟩
    exact ⟨hRun, rfl⟩
  · intro hSteps
    rcases hSteps with ⟨hRun, hLedger⟩
    refine ⟨t.vault, hRun, ?_⟩
    simp only [hLedger]

end Position

namespace Manager

variable {κ V : Type} [DecidableEq κ] [YieldVault κ V]

/- A manager works for its own pool only. -/
@[simp] theorem ensurePool_eq_ok_iff
    {m : Manager κ}
    {poolId : κ}
    {u : Unit} :
    m.ensurePool poolId = .ok u ↔ m.poolId = poolId :=
  require_eq_ok_iff

/- A live manager moves capital of its own pool only. -/
@[simp] theorem ensureLive_eq_ok_iff
    {m : Manager κ}
    {poolId : κ}
    {u : Unit} :
    m.ensureLive poolId = .ok u ↔
      m.poolId = poolId ∧ m.live = true := by
  simp [ensureLive]

variable [Zero κ]

/-
  An investment hands an amount that the cash covers to the
  vault, and reports the value of the shares held after it.
-/
theorem invest_eq_ok_iff
    {m : Manager κ}
    {key poolId : κ}
    {amount shares : UInt64}
    {s t : Position κ V} :
    m.invest key poolId amount s = .ok shares t ↔
      ∃ (e : Entry κ) (cash managed value : UInt64),
        s.ledger.managedEntry key poolId m.token = .ok e ∧
          cash.toNat + amount.toNat = e.cash.toNat ∧
          managed.toNat =
            e.managed.toNat + amount.toNat ∧
          YieldVault.depositMeasured key amount s.vault =
            .ok shares t.vault ∧
          YieldVault.worth t.vault key = .ok value ∧
          s.ledger.setEntry
            { e with cash := cash, managed := value } =
              t.ledger := by
  simp only [invest, aum, Action.bind_eq_ok_iff,
    Action.get_eq_ok_iff, Action.lift_eq_ok_iff,
    Action.pure_eq_ok_iff, require_eq_ok_iff,
    Ledger.balances_eq_ok_iff, Position.onLedger_eq_ok_iff,
    Position.onVault_eq_ok_iff]
  constructor
  · intro hSteps
    rcases hSteps with
      ⟨_, _, ⟨rfl, rfl⟩, _, _, ⟨⟨-, d, -, rfl⟩, rfl⟩, _, _,
        ⟨-, rfl⟩, shares, u, ⟨hDeposit, hBooks⟩, _, _,
        ⟨rfl, rfl⟩, value, _, ⟨hValue, rfl⟩, _, t₁,
        ⟨hTaken, hVault⟩, _, t₂, ⟨hReport, hFinal⟩, rfl,
        rfl⟩
    rw [← hBooks] at hTaken
    rcases Ledger.toManager_report_eq_ok_iff.mp
        ⟨_, hTaken, hReport⟩ with
      ⟨e, cash, managed, hEntry, hCash, hManaged, hLedger⟩
    rw [hVault, hFinal] at hDeposit hValue
    exact
      ⟨e, cash, managed, value, hEntry, hCash, hManaged,
        hDeposit, hValue, hLedger⟩
  · intro hSteps
    rcases hSteps with
      ⟨e, cash, managed, value, hEntry, hCash, hManaged,
        hDeposit, hValue, hLedger⟩
    rcases Ledger.toManager_report_eq_ok_iff.mpr
        ⟨e, cash, managed, hEntry, hCash, hManaged,
          hLedger⟩ with
      ⟨l₁, hTaken, hReport⟩
    rcases Ledger.managedEntry_eq_ok_iff.mp hEntry with
      ⟨hPool, hFound, -, -⟩
    have hCovered : amount ≤ e.cash := by
      rw [UInt64.le_iff_toNat_le]
      omega
    exact
      ⟨s, s, ⟨rfl, rfl⟩, _, s,
        ⟨⟨hPool, e, hFound, rfl⟩, rfl⟩, (), s,
        ⟨hCovered, rfl⟩, shares,
        { s with vault := t.vault }, ⟨hDeposit, rfl⟩, _, _,
        ⟨rfl, rfl⟩, value, _, ⟨hValue, rfl⟩, (),
        { ledger := l₁, vault := t.vault }, ⟨hTaken, rfl⟩,
        (), t, ⟨hReport, rfl⟩, rfl, rfl⟩

/-
  A divestment takes an amount out of the vault that the
  value held before it covers, and reports the value of the
  shares held after it.
-/
theorem divest_eq_ok_iff
    {m : Manager κ}
    {key poolId : κ}
    {amount received : UInt64}
    {s t : Position κ V} :
    m.divest key poolId amount s = .ok received t ↔
      ∃ (e : Entry κ) (before cash value : UInt64),
        s.ledger.managedEntry key poolId m.token = .ok e ∧
          YieldVault.worth s.vault key = .ok before ∧
          amount ≤ before ∧
          YieldVault.withdrawMeasured key amount s.vault =
            .ok received t.vault ∧
          cash.toNat = e.cash.toNat + amount.toNat ∧
          YieldVault.worth t.vault key = .ok value ∧
          s.ledger.setEntry
            { e with cash := cash, managed := value } =
              t.ledger := by
  simp only [divest, aum, Action.bind_eq_ok_iff,
    Action.get_eq_ok_iff, Action.lift_eq_ok_iff,
    Action.pure_eq_ok_iff, Position.onLedger_eq_ok_iff,
    Position.onVault_eq_ok_iff]
  constructor
  · intro hSteps
    rcases hSteps with
      ⟨_, _, ⟨rfl, rfl⟩, before, _, ⟨hBefore, rfl⟩,
        received, u, ⟨hWithdraw, hBooks⟩, _, _, ⟨rfl, rfl⟩,
        value, _, ⟨hValue, rfl⟩, _, t₁, ⟨hFirst, hVault₁⟩,
        _, t₂, ⟨hTaken, hVault₂⟩, _, t₃, ⟨hLast, hVault₃⟩,
        rfl, rfl⟩
    rw [← hBooks] at hFirst
    rcases Ledger.report_fromManager_report_eq_ok_iff.mp
        ⟨_, _, hFirst, hTaken, hLast⟩ with
      ⟨e, cash, hEntry, hCovered, hCash, hLedger⟩
    rw [hVault₁, hVault₂, hVault₃] at hWithdraw hValue
    exact
      ⟨e, before, cash, value, hEntry, hBefore, hCovered,
        hWithdraw, hCash, hValue, hLedger⟩
  · intro hSteps
    rcases hSteps with
      ⟨e, before, cash, value, hEntry, hBefore, hCovered,
        hWithdraw, hCash, hValue, hLedger⟩
    rcases Ledger.report_fromManager_report_eq_ok_iff.mpr
        ⟨e, cash, hEntry, hCovered, hCash, hLedger⟩ with
      ⟨l₁, l₂, hFirst, hTaken, hLast⟩
    exact
      ⟨s, s, ⟨rfl, rfl⟩, before, s, ⟨hBefore, rfl⟩,
        received, { s with vault := t.vault },
        ⟨hWithdraw, rfl⟩, _, _, ⟨rfl, rfl⟩, value, _,
        ⟨hValue, rfl⟩, (),
        { ledger := l₁, vault := t.vault }, ⟨hFirst, rfl⟩,
        (), { ledger := l₂, vault := t.vault },
        ⟨hTaken, rfl⟩, (), t, ⟨hLast, rfl⟩, rfl, rfl⟩

------------------------------------------------------------
-- Operations of a Manager
------------------------------------------------------------

/- Which move leads from a value to the desired one. -/
theorem moveTo_eq_ok_iff
    {m : Manager κ}
    {key poolId : κ}
    {desired value : UInt64}
    {s t : Position κ V}
    {outcome : Outcome} :
    m.moveTo key poolId desired value s = .ok outcome t ↔
      (value < desired ∧
        ∃ shares,
          m.invest key poolId (desired - value) s =
              .ok shares t ∧
            outcome = .invested (desired - value) shares) ∨
      (desired < value ∧
        ∃ received,
          m.divest key poolId (value - desired) s =
              .ok received t ∧
            outcome = .divested (value - desired)) ∨
      (desired = value ∧ s = t ∧ outcome = .balanced) := by
  unfold moveTo
  by_cases hLow : value < desired
  · have hHigh : ¬ desired < value :=
      UInt64.not_lt.mpr (UInt64.le_of_lt hLow)
    have hNe : desired ≠ value :=
      (UInt64.ne_of_lt hLow).symm
    rw [if_pos hLow, Action.bind_eq_ok_iff]
    simp only [hLow, hHigh, hNe, true_and, false_and,
      or_false, Action.pure_eq_ok_iff]
    constructor
    · intro hSteps
      rcases hSteps with ⟨shares, _, hRun, rfl, rfl⟩
      exact ⟨shares, hRun, rfl⟩
    · intro hSteps
      rcases hSteps with ⟨shares, hRun, rfl⟩
      exact ⟨shares, t, hRun, rfl, rfl⟩
  · by_cases hHigh : desired < value
    · have hNe : desired ≠ value := UInt64.ne_of_lt hHigh
      rw [if_neg hLow, if_pos hHigh, Action.bind_eq_ok_iff]
      simp only [hLow, hHigh, hNe, true_and, false_and,
        or_false, false_or, Action.pure_eq_ok_iff]
      constructor
      · intro hSteps
        rcases hSteps with ⟨received, _, hRun, rfl, rfl⟩
        exact ⟨received, hRun, rfl⟩
      · intro hSteps
        rcases hSteps with ⟨received, hRun, rfl⟩
        exact ⟨received, t, hRun, rfl, rfl⟩
    · have hEq : desired = value :=
        UInt64.le_antisymm (UInt64.not_lt.mp hLow)
          (UInt64.not_lt.mp hHigh)
      rw [if_neg hLow, if_neg hHigh, Action.pure_eq_ok_iff]
      simp only [hLow, hHigh, false_and, false_or]
      constructor
      · intro hSteps
        rcases hSteps with ⟨rfl, rfl⟩
        exact ⟨hEq, rfl, rfl⟩
      · intro hSteps
        rcases hSteps with ⟨-, rfl, rfl⟩
        exact ⟨rfl, rfl⟩

/-
  A rebalance resolves the targets against cash and value,
  and moves the position if it is forced to or if the value
  has left the band.
-/
theorem rebalance_eq_ok_iff
    {m : Manager κ}
    {key poolId : κ}
    {force : Bool}
    {s t : Position κ V}
    {outcome : Outcome} :
    m.rebalance key poolId force s = .ok outcome t ↔
      m.poolId = poolId ∧ m.live = true ∧
        ∃ (held : Balances) (value total : UInt64)
            (band : Band),
          s.ledger.balances poolId m.token = .ok held ∧
            YieldVault.worth s.vault key = .ok value ∧
            total.toNat =
              held.cash.toNat + value.toNat ∧
            m.targets.band total = .ok band ∧
            if !force && !band.isBreached value then
              outcome = .skipped ∧ s = t
            else
              m.moveTo key poolId band.desired value s =
                .ok outcome t := by
  simp only [rebalance, aum, Balances.total,
    Action.bind_eq_ok_iff, Action.get_eq_ok_iff,
    Action.lift_eq_ok_iff, Action.atomically_eq_ok_iff,
    ensureLive_eq_ok_iff, FixedPoint.add_eq_ok_iff]
  constructor
  · intro hSteps
    rcases hSteps with
      ⟨_, _, ⟨⟨hPool, hLive⟩, rfl⟩, _, _, ⟨rfl, rfl⟩, held,
        _, ⟨hHeld, rfl⟩, value, _, ⟨hValue, rfl⟩, total, _,
        ⟨hTotal, rfl⟩, band, _, ⟨hBand, rfl⟩, hRun⟩
    refine
      ⟨hPool, hLive, held, value, total, band, hHeld,
        hValue, hTotal, hBand, ?_⟩
    split
    · next hInside =>
        rw [if_pos hInside, Action.pure_eq_ok_iff] at hRun
        exact ⟨hRun.1.symm, hRun.2⟩
    · next hOutside =>
        rw [if_neg hOutside] at hRun
        exact hRun
  · intro hSteps
    rcases hSteps with
      ⟨hPool, hLive, held, value, total, band, hHeld,
        hValue, hTotal, hBand, hRun⟩
    refine
      ⟨(), s, ⟨⟨hPool, hLive⟩, rfl⟩, s, s, ⟨rfl, rfl⟩,
        held, s, ⟨hHeld, rfl⟩, value, s, ⟨hValue, rfl⟩,
        total, s, ⟨hTotal, rfl⟩, band, s, ⟨hBand, rfl⟩, ?_⟩
    split
    · next hInside =>
        rw [if_pos hInside] at hRun
        exact
          Action.pure_eq_ok_iff.mpr ⟨hRun.1.symm, hRun.2⟩
    · next hOutside =>
        rw [if_neg hOutside] at hRun
        exact hRun

/- The rebalancer invests through a live manager. -/
theorem capitalIn_eq_ok_iff
    {m : Manager κ}
    {caller key poolId : κ}
    {amount shares : UInt64}
    {s t : Position κ V} :
    m.capitalIn caller key poolId amount s =
        .ok shares t ↔
      caller = m.rebalancer ∧ m.poolId = poolId ∧
        m.live = true ∧
        m.invest key poolId amount s = .ok shares t := by
  simp [capitalIn, and_assoc]

/- The rebalancer divests through a live manager. -/
theorem capitalOut_eq_ok_iff
    {m : Manager κ}
    {caller key poolId : κ}
    {amount received : UInt64}
    {s t : Position κ V} :
    m.capitalOut caller key poolId amount s =
        .ok received t ↔
      caller = m.rebalancer ∧ m.poolId = poolId ∧
        m.live = true ∧
        m.divest key poolId amount s = .ok received t := by
  simp [capitalOut, and_assoc]

/- A live manager may report the value of its shares. -/
theorem reportBalance_eq_ok_iff
    {m : Manager κ}
    {key poolId : κ}
    {value : UInt64}
    {s t : Position κ V} :
    m.reportBalance key poolId s = .ok value t ↔
      m.poolId = poolId ∧ m.live = true ∧
        s.vault = t.vault ∧
        YieldVault.worth s.vault key = .ok value ∧
        ∃ e,
          s.ledger.managedEntry key poolId m.token = .ok e ∧
            s.ledger.setEntry { e with managed := value } =
              t.ledger := by
  simp only [reportBalance, aum, Action.bind_eq_ok_iff,
    Action.get_eq_ok_iff, Action.lift_eq_ok_iff,
    Action.pure_eq_ok_iff, ensureLive_eq_ok_iff,
    Position.onLedger_eq_ok_iff,
    Ledger.reportManaged_eq_ok_iff]
  constructor
  · intro hSteps
    rcases hSteps with
      ⟨_, _, ⟨⟨hPool, hLive⟩, rfl⟩, _, _, ⟨rfl, rfl⟩, _, _,
        ⟨hValue, rfl⟩, _, u, ⟨hReport, hVault⟩, rfl, rfl⟩
    exact ⟨hPool, hLive, hVault, hValue, hReport⟩
  · intro hSteps
    rcases hSteps with
      ⟨hPool, hLive, hVault, hValue, hReport⟩
    exact
      ⟨(), s, ⟨⟨hPool, hLive⟩, rfl⟩, s, s, ⟨rfl, rfl⟩,
        value, s, ⟨hValue, rfl⟩, (), t,
        ⟨hReport, hVault⟩, rfl, rfl⟩

------------------------------------------------------------
-- Failing Operations
------------------------------------------------------------

/- A failing rebalance leaves both books as they were. -/
theorem rebalance_eq_error
    {m : Manager κ}
    {key poolId : κ}
    {force : Bool}
    {s t : Position κ V}
    {e : Error}
    (hFails : m.rebalance key poolId force s = .error e t) :
    t = s := by
  suffices hStays :
      Action.FailsAt s (m.rebalance key poolId force) s
    from hStays e t hFails
  apply Action.FailsAt.lift_bind
  intro _ _
  exact Action.FailsAt.atomically _ s

omit [YieldVault κ V] [Zero κ] in
/-
  A failing move at the rebalancer's request leaves both books
  as they were.
-/
private theorem failsAt_requested
    (m : Manager κ)
    (caller poolId : κ)
    (move : Action (Position κ V) UInt64)
    (s : Position κ V) :
    Action.FailsAt s
      (do
        require (caller = m.rebalancer) .onlyRebalancer
        m.ensureLive poolId
        Action.atomically move)
      s := by
  apply Action.FailsAt.lift_bind
  intro _ _
  apply Action.FailsAt.lift_bind
  intro _ _
  exact Action.FailsAt.atomically move s

/- A failing investment on request changes nothing. -/
theorem capitalIn_eq_error
    {m : Manager κ}
    {caller key poolId : κ}
    {amount : UInt64}
    {s t : Position κ V}
    {e : Error}
    (hFails :
      m.capitalIn caller key poolId amount s = .error e t) :
    t = s :=
  failsAt_requested m caller poolId _ s e t hFails

/- A failing divestment on request changes nothing. -/
theorem capitalOut_eq_error
    {m : Manager κ}
    {caller key poolId : κ}
    {amount : UInt64}
    {s t : Position κ V}
    {e : Error}
    (hFails :
      m.capitalOut caller key poolId amount s = .error e t) :
    t = s :=
  failsAt_requested m caller poolId _ s e t hFails

/- A failing report changes nothing. -/
theorem reportBalance_eq_error
    {m : Manager κ}
    {key poolId : κ}
    {s t : Position κ V}
    {e : Error}
    (hFails : m.reportBalance key poolId s = .error e t) :
    t = s := by
  suffices hStays :
      Action.FailsAt s (m.reportBalance key poolId) s
    from hStays e t hFails
  apply Action.FailsAt.lift_bind
  intro _ _
  apply Action.FailsAt.get_bind
  apply Action.FailsAt.lift_bind
  intro value _
  apply Action.FailsAt.bind
  · apply Action.FailsAt.within rfl
    exact
      Ledger.isAtomic_reportManaged key poolId m.token value
        s.ledger
  · intro _ after _
    exact Action.FailsAt.of_ok rfl

end Manager

end YieldManager

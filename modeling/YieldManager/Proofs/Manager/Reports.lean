import YieldManager.Proofs.Ledger.Requests
import YieldManager.Proofs.Manager.Lifecycle
import YieldManager.Proofs.Manager.Value
import YieldManager.Proofs.Vault.Dealings

/-
  What a ledger reports of a manager's investments.  The
  managed balance of a token is brought up to date by every
  move of capital and by every report, and is out of date
  otherwise.  Since nobody else can lower what the manager's
  shares are worth, an outdated balance is too low.

  Main declarations:
    * `Ledger.reported`
    * `Manager.IsReported`
    * `Manager.Reports`
    * `Venture`
    * `Activity`
    * `Venture.Lags`
    * `Venture.Lags.after`
    * `Venture.reports_lag`
-/

------------------------------------------------------------
-- Reported Balances
------------------------------------------------------------

namespace YieldManager

namespace Ledger

variable {κ : Type} [DecidableEq κ]

/- The managed balance that a ledger shows for a token. -/
def reported
    (mint : κ)
    (l : Ledger κ) : Except Error UInt64 :=
  (l.entry mint).map Entry.managed

/- A token's entry tells its managed balance. -/
theorem reported_of_entry
    {mint : κ}
    {l : Ledger κ}
    {e : Entry κ}
    (hEntry : l.entry mint = .ok e) :
    reported mint l = .ok e.managed := by
  unfold reported
  rw [hEntry]
  rfl

/- Cash does not count for the managed balance. -/
theorem reported_uncashed
    (mint : κ)
    (l : Ledger κ) :
    reported mint l.uncashed = reported mint l := by
  unfold reported
  rw [entry_uncashed]
  cases l.entry mint <;> rfl

/- What changes cash only changes no managed balance. -/
theorem keeps_reported
    {α : Type}
    {a : Action (Ledger κ) α}
    (hKeeps : Action.Keeps uncashed a)
    (mint : κ) :
    Action.Keeps (reported mint) a := by
  intro l
  rw [← reported_uncashed, hKeeps, reported_uncashed]

end Ledger

------------------------------------------------------------
-- Operations That Report
------------------------------------------------------------

namespace Manager

variable {κ : Type} [DecidableEq κ]

/-
  The ledger shows as managed balance what the manager's
  shares are worth.
-/
def IsReported
    (m : Manager κ)
    (key : κ)
    (s : Position κ (ShareVault κ)) : Prop :=
  ∃ value,
    aum key s.vault = .ok value ∧
      Ledger.reported m.token s.ledger = .ok value

variable {m : Manager κ} {key poolId : κ}
variable {s t : Position κ (ShareVault κ)}

/- A value written into the token's entry is reported. -/
private theorem isReported_of_setEntry
    {e : Entry κ}
    {cash value : UInt64}
    (hEntry : s.ledger.entry m.token = .ok e)
    (hValue : YieldVault.worth t.vault key = .ok value)
    (hBooks :
      s.ledger.setEntry
          { e with cash := cash, managed := value } =
        t.ledger) :
    m.IsReported key t := by
  have hMint := Ledger.mint_of_entry hEntry
  have hSelf :=
    Ledger.entry_setEntry_self
      { e with cash := cash, managed := value } hEntry hMint
  rw [hBooks] at hSelf
  exact ⟨value, hValue, Ledger.reported_of_entry hSelf⟩

/-
  An operation reports if it either does nothing or leaves
  the managed balance up to date.
-/
def Reports
    {α : Type}
    (m : Manager κ)
    (key : κ)
    (a : Action (Position κ (ShareVault κ)) α) : Prop :=
  ∀ s, s.vault.IsConsistent →
    (a.perform s).2 = s ∨
      (a.perform s).2.vault.IsConsistent ∧
        m.IsReported key (a.perform s).2

/-
  Failing without a trace, or leaving the balance as it is or
  up to date, is all that reporting asks.
-/
private theorem reports_of_runs
    {α : Type}
    {a : Action (Position κ (ShareVault κ)) α}
    (hSucceeds :
      ∀ s x t, s.vault.IsConsistent → a s = .ok x t →
        t = s ∨
          t.vault.IsConsistent ∧ m.IsReported key t)
    (hFails : ∀ s e t, a s = .error e t → t = s) :
    m.Reports key a := by
  intro s hVault
  unfold Action.perform
  cases hRun : a s with
  | ok x t => exact hSucceeds s x t hVault hRun
  | error e t => exact Or.inl (hFails s e t hRun)

variable [Zero κ]

/- An investment reports the value of all shares. -/
theorem isReported_of_invest
    {amount shares : UInt64}
    (hVault : s.vault.IsConsistent)
    (hRun : m.invest key poolId amount s = .ok shares t) :
    t.vault.IsConsistent ∧ m.IsReported key t := by
  rcases invest_eq_ok_iff.mp hRun with
    ⟨e, cash, managed, value, hManaged, -, -, hMeasured,
      hValue, hBooks⟩
  rcases Ledger.managedEntry_eq_ok_iff.mp hManaged with
    ⟨-, hEntry, -, -⟩
  rcases YieldVault.depositMeasured_eq_ok_iff.mp hMeasured
    with ⟨⟨claimed, hDeposit⟩, -, -⟩
  rcases ShareVault.deposited_of_deposit hDeposit with
    ⟨fee, net, -, -, hDeposited⟩
  exact
    ⟨hVault.deposited hDeposited,
      isReported_of_setEntry hEntry hValue hBooks⟩

/- A divestment reports the value of the shares left. -/
theorem isReported_of_divest
    {amount received : UInt64}
    (hVault : s.vault.IsConsistent)
    (hRun : m.divest key poolId amount s = .ok received t) :
    t.vault.IsConsistent ∧ m.IsReported key t := by
  rcases divest_eq_ok_iff.mp hRun with
    ⟨e, before, cash, value, hManaged, -, -, hMeasured, -,
      hValue, hBooks⟩
  rcases Ledger.managedEntry_eq_ok_iff.mp hManaged with
    ⟨-, hEntry, -, -⟩
  rcases YieldVault.withdrawMeasured_eq_ok_iff.mp hMeasured
    with ⟨hWithdraw, -, -⟩
  rcases ShareVault.withdrawn_of_withdraw hWithdraw with
    ⟨-, burned, -, hWithdrawn⟩
  exact
    ⟨hVault.withdrawn hWithdrawn,
      isReported_of_setEntry hEntry hValue hBooks⟩

/- Every move of capital reports. -/
theorem Moves.isReported
    (hVault : s.vault.IsConsistent)
    (hMoves : m.Moves key poolId s t) :
    t.vault.IsConsistent ∧ m.IsReported key t := by
  rcases hMoves.invest_or_divest with
    ⟨-, amount, answer, hInvest | hDivest⟩
  · exact isReported_of_invest hVault hInvest
  · exact isReported_of_divest hVault hDivest

/- A report reports. -/
theorem isReported_of_reportBalance
    {value : UInt64}
    (hVault : s.vault.IsConsistent)
    (hRun : m.reportBalance key poolId s = .ok value t) :
    t.vault.IsConsistent ∧ m.IsReported key t := by
  rcases reportBalance_eq_ok_iff.mp hRun with
    ⟨-, -, hSame, hValue, e, hManaged, hBooks⟩
  rcases Ledger.managedEntry_eq_ok_iff.mp hManaged with
    ⟨-, hEntry, -, -⟩
  rw [hSame] at hVault hValue
  exact ⟨hVault, isReported_of_setEntry hEntry hValue hBooks⟩

/- A rebalance reports unless there is nothing to move. -/
theorem reports_rebalance
    (m : Manager κ)
    (key poolId : κ)
    (force : Bool) :
    m.Reports key (m.rebalance key poolId force) := by
  apply reports_of_runs
  · intro s outcome t hVault hRun
    cases outcome with
    | invested amount shares =>
        right
        exact Moves.isReported hVault (.invested hRun)
    | divested amount =>
        right
        exact Moves.isReported hVault (.divested hRun)
    | skipped | balanced =>
        rcases rebalance_eq_ok_iff.mp hRun with
          ⟨-, -, _, _, _, _, -, -, -, -, hMove⟩
        split at hMove
        · exact Or.inl hMove.2.symm
        · rcases moveTo_eq_ok_iff.mp hMove with
            ⟨-, _, -, hOther⟩ | ⟨-, _, -, hOther⟩ |
              ⟨-, hSame, -⟩
          · cases hOther
          · cases hOther
          · exact Or.inl hSame.symm
  · intro s e t hRun
    exact rebalance_eq_error hRun

/- An investment on request reports. -/
theorem reports_capitalIn
    (m : Manager κ)
    (caller key poolId : κ)
    (amount : UInt64) :
    m.Reports key (m.capitalIn caller key poolId amount) := by
  apply reports_of_runs
  · intro s shares t hVault hRun
    exact Or.inr (Moves.isReported hVault (.capitalIn hRun))
  · intro s e t hRun
    exact capitalIn_eq_error hRun

/- A divestment on request reports. -/
theorem reports_capitalOut
    (m : Manager κ)
    (caller key poolId : κ)
    (amount : UInt64) :
    m.Reports key
      (m.capitalOut caller key poolId amount) := by
  apply reports_of_runs
  · intro s received t hVault hRun
    exact Or.inr (Moves.isReported hVault (.capitalOut hRun))
  · intro s e t hRun
    exact capitalOut_eq_error hRun

/- So does a report. -/
theorem reports_reportBalance
    (m : Manager κ)
    (key poolId : κ) :
    m.Reports key (m.reportBalance key poolId) := by
  apply reports_of_runs
  · intro s value t hVault hRun
    exact Or.inr (isReported_of_reportBalance hVault hRun)
  · intro s e t hRun
    exact reportBalance_eq_error hRun

end Manager

------------------------------------------------------------
-- Ventures
------------------------------------------------------------

/- A manager, and the two books it works with. -/
structure Venture (κ : Type) where
  manager : Manager κ
  position : Position κ (ShareVault κ)

/-
  What can happen to a venture: payments into and out of the
  pool, operations and new targets of the manager, and
  dealings of its vault.
-/
inductive Activity (κ : Type) where
  | joined (sender poolId : κ) (request : JoinRequest κ)
  | exited (sender poolId : κ) (request : ExitRequest κ)
  | rebalanced (poolId : κ) (force : Bool)
  | capitalIn (caller poolId : κ) (amount : UInt64)
  | capitalOut (caller poolId : κ) (amount : UInt64)
  | reported (poolId : κ)
  | retargeted (caller poolId : κ) (targets : Targets)
  | dealt (d : Dealing κ)

/-
  Nothing is withdrawn for an owner behind the ledger's back.
-/
def Activity.SparesVault
    {κ : Type}
    (key : κ) : Activity κ → Prop
  | .dealt d => ¬ d.TakesFrom key
  | _ => True

namespace Venture

variable {κ : Type}

/-
  The venture after an action on its position.  A failing
  action leaves what it leaves.
-/
def moved
    {α : Type}
    (u : Venture κ)
    (a : Action (Position κ (ShareVault κ)) α) :
    Venture κ :=
  { u with position := (a.perform u.position).2 }

variable [DecidableEq κ]

/-
  The vault counts its shares, and the ledger shows no more
  than what the manager's are worth.
-/
structure Lags (key : κ) (u : Venture κ) : Prop where
  vault : u.position.vault.IsConsistent
  reported :
    ∃ managed value,
      Ledger.reported u.manager.token u.position.ledger =
          .ok managed ∧
        Manager.aum key u.position.vault = .ok value ∧
        managed ≤ value

namespace Lags

variable {key : κ} {u : Venture κ}

/- An operation that reports catches up or does nothing. -/
theorem moved
    {α : Type}
    {a : Action (Position κ (ShareVault κ)) α}
    (hLags : Lags key u)
    (hReports : u.manager.Reports key a) :
    Lags key (u.moved a) := by
  rcases hReports u.position hLags.vault with
    hSame | ⟨hVault, value, hValue, hReported⟩
  · have hIdle : u.moved a = u := by
      unfold Venture.moved
      rw [hSame]
    rw [hIdle]
    exact hLags
  · exact
      ⟨hVault, value, value, hReported, hValue,
        UInt64.le_refl value⟩

/- Payments show in the cash only. -/
theorem paid
    {a : Action (Ledger κ) Unit}
    (hLags : Lags key u)
    (hKeeps :
      Action.Keeps (Ledger.reported u.manager.token) a) :
    Lags key (u.moved (Position.onLedger a)) := by
  rcases hLags with ⟨hVault, managed, value, hReported, hRest⟩
  unfold Venture.moved Position.onLedger
  rw [Action.perform_within]
  refine ⟨hVault, managed, value, ?_, hRest⟩
  exact (hKeeps u.position.ledger).trans hReported

/- The dealings of others make no share worth less. -/
theorem dealt
    {d : Dealing κ}
    (hLags : Lags key u)
    (hOthers : ¬ d.TakesFrom key) :
    Lags key (u.moved (Position.onVault d.action)) := by
  rcases hLags with
    ⟨hVault, managed, value, hReported, hValue, hLow⟩
  rcases hVault.dealt d with ⟨hLater, hUnharmed⟩
  rcases (hUnharmed key hOthers).worth with
    ⟨before, after, hBefore, hAfter, hRise⟩
  have hSame : before = value := by
    rw [Manager.aum, hBefore] at hValue
    exact Except.ok.inj hValue
  subst hSame
  unfold Venture.moved Position.onVault
  rw [Action.perform_within]
  exact
    ⟨hLater, managed, after, hReported, hAfter,
      UInt64.le_trans hLow hRise⟩

/- New targets move nothing. -/
theorem retargeted
    (hLags : Lags key u)
    (caller poolId : κ)
    (targets : Targets) :
    Lags key
      { u with
        manager :=
          ((Manager.setTargets caller poolId targets).perform
            u.manager).2 } := by
  have hToken :
      Action.Keeps Manager.token
        (Manager.setTargets caller poolId targets) := by
    apply Action.Keeps.get_bind
    intro m
    apply Action.Keeps.bind (.lift _)
    intro _
    apply Action.Keeps.bind (.lift _)
    intro _
    apply Action.Keeps.bind (.lift _)
    intro _ n
    rfl
  refine ⟨hLags.vault, ?_⟩
  simp only [hToken u.manager]
  exact hLags.reported

end Lags

/-
  Nobody has shares in the vault yet, which has no assets, and
  the ledger shows no managed balance of the manager's token.
-/
structure IsFresh (u : Venture κ) : Prop where
  assets : u.position.vault.assets = 0
  supply : u.position.vault.supply = 0
  holdings : u.position.vault.holdings = []
  reported :
    Ledger.reported u.manager.token u.position.ledger = .ok 0

/- A fresh venture has nothing to report. -/
theorem IsFresh.lags
    {u : Venture κ}
    (hFresh : u.IsFresh)
    (key : κ) :
    Lags key u := by
  have hVault : u.position.vault.IsConsistent := by
    refine ⟨?_, ?_⟩
    · simp [ShareVault.owners, hFresh.holdings]
    · simp [ShareVault.issued, hFresh.holdings,
        hFresh.supply]
  rcases hVault.exists_worth key with ⟨value, hValue⟩
  exact
    ⟨hVault, 0, value, hFresh.reported, hValue,
      UInt64.zero_le⟩

variable [Zero κ]

/- The venture after an activity, which may fail. -/
def after
    (key : κ)
    (u : Venture κ) : Activity κ → Venture κ
  | .joined sender poolId request =>
      u.moved
        (Position.onLedger
          (Ledger.join sender poolId request))
  | .exited sender poolId request =>
      u.moved
        (Position.onLedger
          (Ledger.exit sender poolId request))
  | .rebalanced poolId force =>
      u.moved (u.manager.rebalance key poolId force)
  | .capitalIn caller poolId amount =>
      u.moved (u.manager.capitalIn caller key poolId amount)
  | .capitalOut caller poolId amount =>
      u.moved (u.manager.capitalOut caller key poolId amount)
  | .reported poolId =>
      u.moved (u.manager.reportBalance key poolId)
  | .retargeted caller poolId targets =>
      { u with
        manager :=
          ((Manager.setTargets caller poolId targets).perform
            u.manager).2 }
  | .dealt d => u.moved (Position.onVault d.action)

/- The venture after some activities in a row. -/
def afterAll
    (key : κ)
    (u : Venture κ)
    (activities : List (Activity κ)) : Venture κ :=
  activities.foldl (after key) u

namespace Lags

variable {key : κ} {u : Venture κ}

/-
  Whatever happens, the ledger shows no more than the value,
  as long as the manager withdraws through the ledger only.
-/
theorem after
    (hLags : Lags key u)
    (activity : Activity κ)
    (hSpares : activity.SparesVault key) :
    Lags key (u.after key activity) := by
  cases activity with
  | joined sender poolId request =>
      apply hLags.paid
      exact
        Ledger.keeps_reported (Ledger.keeps_uncashed_join _) _
  | exited sender poolId request =>
      apply hLags.paid
      exact
        Ledger.keeps_reported (Ledger.keeps_uncashed_exit _) _
  | rebalanced poolId force =>
      apply hLags.moved
      exact Manager.reports_rebalance _ key poolId force
  | capitalIn caller poolId amount =>
      apply hLags.moved
      exact
        Manager.reports_capitalIn _ caller key poolId amount
  | capitalOut caller poolId amount =>
      apply hLags.moved
      exact
        Manager.reports_capitalOut _ caller key poolId amount
  | reported poolId =>
      apply hLags.moved
      exact Manager.reports_reportBalance _ key poolId
  | retargeted caller poolId targets =>
      exact hLags.retargeted caller poolId targets
  | dealt d => exact hLags.dealt hSpares

/- By induction, the ledger lags behind along every run. -/
theorem afterAll
    {activities : List (Activity κ)}
    (hLags : Lags key u)
    (hSpares :
      ∀ activity ∈ activities, activity.SparesVault key) :
    Lags key (u.afterAll key activities) := by
  induction activities generalizing u with
  | nil => exact hLags
  | cons activity activities ih =>
      apply ih
      · apply hLags.after activity
        exact hSpares activity List.mem_cons_self
      · intro later hLater
        exact
          hSpares later (List.mem_cons_of_mem activity hLater)

end Lags

/-
  From a fresh venture, in every state that activities lead
  to, the ledger shows no more than the assets under
  management, and exactly these right after every move of
  capital and every report.
-/
theorem reports_lag
    {key : κ}
    {u : Venture κ}
    {activities : List (Activity κ)}
    (hFresh : u.IsFresh)
    (hSpares :
      ∀ activity ∈ activities, activity.SparesVault key) :
    let reached := u.afterAll key activities
    (∃ managed value,
        Ledger.reported reached.manager.token
            reached.position.ledger = .ok managed ∧
          Manager.aum key reached.position.vault =
            .ok value ∧
          managed ≤ value) ∧
      ∀ poolId t,
        (reached.manager.Moves key poolId reached.position t ∨
            ∃ value,
              reached.manager.reportBalance key poolId
                reached.position = .ok value t) →
          reached.manager.IsReported key t := by
  have hLags := (hFresh.lags key).afterAll hSpares
  refine ⟨hLags.reported, ?_⟩
  intro poolId t hRun
  rcases hRun with hMoves | ⟨value, hReport⟩
  · exact (hMoves.isReported hLags.vault).2
  · exact
      (Manager.isReported_of_reportBalance hLags.vault
        hReport).2

/-
  A live manager that has not invested yet, in a pool with a
  cash of 1000, over a vault that takes a fee of 1%.
-/
def freshVenture : Venture Nat where
  manager := Manager.dearManager
  position :=
    { ledger :=
        { poolId := 1, authority := 7, relayer := 6
          entries :=
            [{ mint := 2, cash := 1000, managed := 0
               manager := 8 }]
          bump := 0 }
      vault :=
        { asset := 2, authority := 7, assets := 0
          supply := 0, feeBps := 100, fees := 0
          holdings := [], bump := 0 } }

/-
  An investment, yield, a gift of shares, another owner that
  comes and goes, an exit refused at its second line, and new
  targets.
-/
def mixedActivities : List (Activity Nat) :=
  [.capitalIn 6 1 400, .dealt (.earn 77),
   .dealt (.deposit 8 50), .dealt (.deposit 9 200),
   .exited 6 1 { assets := [2, 2], minAmounts := [300, 301] },
   .retargeted 7 1
     { target := 500000000000000000
       upper := 600000000000000000
       lower := 400000000000000000 },
   .dealt (.withdraw 9 90)]

/- The venture after them. -/
def mixedVenture : Venture Nat :=
  freshVenture.afterAll 8 mixedActivities

/-
  The ledger then shows 396 for shares that are worth 524.  A
  forced rebalance divests 112 and reports what is left.
-/
theorem reports_lag_mixedVenture :
    freshVenture.IsFresh ∧
      (∀ activity ∈ mixedActivities,
        activity.SparesVault 8) ∧
      (∃ managed value,
        Ledger.reported mixedVenture.manager.token
            mixedVenture.position.ledger = .ok managed ∧
          Manager.aum 8 mixedVenture.position.vault =
            .ok value ∧
          managed ≤ value) ∧
      ∃ t,
        mixedVenture.manager.rebalance 8 1 true
            mixedVenture.position = .ok (.divested 112) t ∧
          mixedVenture.manager.IsReported 8 t := by
  have hFresh : freshVenture.IsFresh :=
    ⟨by decide, by decide, by decide, by decide⟩
  have hSpares :
      ∀ activity ∈ mixedActivities,
        activity.SparesVault 8 := by
    simp [mixedActivities, Activity.SparesVault,
      Dealing.TakesFrom]
  have hOutcome :
      ((mixedVenture.manager.rebalance 8 1 true).perform
        mixedVenture.position).1 = .ok (.divested 112) := by
    decide +kernel
  rcases reports_lag hFresh hSpares with
    ⟨hLag, hReported⟩
  refine ⟨hFresh, hSpares, hLag, ?_⟩
  cases hRun :
      mixedVenture.manager.rebalance 8 1 true
        mixedVenture.position with
  | ok outcome t =>
      simp only [Action.perform, hRun, Except.ok.injEq]
        at hOutcome
      subst hOutcome
      exact
        ⟨t, rfl, hReported 1 t (Or.inl (.divested hRun))⟩
  | error e t => simp [Action.perform, hRun] at hOutcome

end Venture

end YieldManager

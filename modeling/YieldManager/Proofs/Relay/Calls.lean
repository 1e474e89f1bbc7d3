import YieldManager.Proofs.Manager.Par
import YieldManager.Relay.Pool

/-
  Relayed joins and exits of a managed pool, opened up.  They
  leave the lock idle, the manager and its rewards alone, and
  of ledger and vault what their steps make of them.

  Main declarations:
    * `ManagedPool.capital`
    * `ManagedPool.withCapital`
    * `ManagedPool.shortfall_eq_ok_iff`
    * `Relay.joinPool_eq_ok_iff`
    * `Relay.exitPool_eq_ok_iff`
    * `Relay.pull_cases`
    * `Relay.exists_desk_of_claimRewards`
    * `Relay.advanced_of_joinPool`
    * `Relay.advanced_of_exitPool`
-/

------------------------------------------------------------
-- The Capital of a Pool
------------------------------------------------------------

namespace YieldManager

namespace ManagedPool

variable {κ V G F : Type}

/- The ledger and the vault of a pool. -/
def capital
    (p : ManagedPool κ V G F) : Position κ V where
  ledger := p.ledger
  vault := p.vault

/- A pool with another ledger and another vault. -/
def withCapital
    (p : ManagedPool κ V G F)
    (s : Position κ V) : ManagedPool κ V G F :=
  { p with ledger := s.ledger, vault := s.vault }

variable [DecidableEq κ]

/- The shortfall is what a request exceeds the cash by. -/
theorem shortfall_eq_ok_iff
    {p : ManagedPool κ V G F}
    {poolId : κ}
    {r : ExitRequest κ}
    {short : UInt64} :
    p.shortfall poolId r = .ok short ↔
      p.ledger.poolId = poolId ∧
        ∃ (requested : UInt64) (e : Entry κ),
          r.amountOut p.manager.token = .ok requested ∧
            p.ledger.entry p.manager.token = .ok e ∧
            short.toNat =
              requested.toNat - e.cash.toNat := by
  simp only [shortfall, Except.bind_eq_ok_iff,
    Except.pure_eq_ok_iff, Ledger.balances_eq_ok_iff]
  have hShort :
      ∀ cash requested : UInt64,
        (if cash ≤ requested then requested - cash else 0) =
            short ↔
          short.toNat = requested.toNat - cash.toNat := by
    intro cash requested
    rw [← UInt64.toNat_inj]
    split
    · next hLe =>
        rw [UInt64.toNat_sub_of_le _ _ hLe]
        exact eq_comm
    · next hLess =>
        have hLt :=
          UInt64.lt_iff_toNat_lt.mp (UInt64.not_le.mp hLess)
        have hNone : requested.toNat - cash.toNat = 0 := by
          omega
        rw [hNone]
        exact eq_comm
  constructor
  · intro hSteps
    rcases hSteps with
      ⟨requested, hRequested, _, ⟨hPool, e, hEntry, rfl⟩,
        hDiff⟩
    exact
      ⟨hPool, requested, e, hRequested, hEntry,
        (hShort _ _).mp hDiff⟩
  · intro hSteps
    rcases hSteps with
      ⟨hPool, requested, e, hRequested, hEntry, hDiff⟩
    exact
      ⟨requested, hRequested, _, ⟨hPool, e, hEntry, rfl⟩,
        (hShort _ _).mpr hDiff⟩

end ManagedPool

------------------------------------------------------------
-- Claims of a Manager
------------------------------------------------------------

/-
  A claim forwards from the gauge that is handed over, or
  there is nothing to claim and gauge and sink stay.
-/
theorem Manager.claimRewards_cases
    {κ G F : Type} [DecidableEq κ]
    [RewardGauge κ G] [RewardSink κ F]
    {m : Manager κ}
    {key poolId : κ}
    {d d' : RewardDesk G F}
    {rewards : List (TokenAmount κ)}
    (hRun : m.claimRewards key poolId d = .ok rewards d') :
    d' = d ∨
      ∃ gauge g f,
        d.gauge = some gauge ∧
          claimAndForward key (gauge, d.sink) =
            .ok rewards (g, f) ∧
          d' = { gauge := some g, sink := f } := by
  simp only [claimRewards, Action.bind_eq_ok_iff,
    Action.lift_eq_ok_iff] at hRun
  rcases hRun with ⟨_, _, ⟨-, rfl⟩, hRun⟩
  split at hRun
  · exact .inl (Action.pure_eq_ok_iff.mp hRun).2.symm
  · rcases Action.bind_eq_ok_iff.mp hRun with
      ⟨_, _, hGet, hClaim⟩
    rcases Action.get_eq_ok_iff.mp hGet with ⟨rfl, rfl⟩
    cases hGauge : d.gauge with
    | none => simp [hGauge] at hClaim
    | some gauge =>
        simp only [hGauge, Action.within_eq_ok_iff] at hClaim
        rcases hClaim with ⟨⟨g, f⟩, hForward, rfl⟩
        exact .inr ⟨gauge, g, f, rfl, hForward, rfl⟩

------------------------------------------------------------
-- Relayed Calls
------------------------------------------------------------

namespace Relay

/- A relayed call succeeds under an idle lock. -/
theorem relayed_eq_ok_iff
    {κ P α : Type} [RelayedPool κ P]
    {op : Action (Guarded P) α}
    {g h : Guarded P}
    {x : α} :
    relayed op g = .ok x h ↔
      g.lock = .idle ∧
        ∃ t,
          op { g with lock := .locked } = .ok x t ∧
            { t with lock := .idle } = h := by
  unfold relayed
  cases hLock : g.lock with
  | locked => simp
  | idle =>
      simp only [true_and]
      cases op { g with lock := .locked } <;>
        simp [and_assoc]

variable {κ V G F : Type} [DecidableEq κ] [Zero κ]
variable [YieldVault κ V]
variable [RewardGauge κ G] [RewardSink κ F]
variable {relayer poolId : κ}
variable {g h : Guarded (ManagedPool κ V G F)}

/- Joining a managed pool touches its ledger only. -/
private theorem join_eq_ok_iff
    {r : JoinRequest κ}
    {u : Unit} :
    RelayedPool.join relayer poolId r g = .ok u h ↔
      ∃ l,
        Ledger.join relayer poolId r g.pool.ledger =
            .ok u l ∧
          { g with pool := { g.pool with ledger := l } } =
            h :=
  Action.within_eq_ok_iff

/- Exiting a managed pool touches its ledger only. -/
private theorem exit_eq_ok_iff
    {r : ExitRequest κ}
    {u : Unit} :
    RelayedPool.exit relayer poolId r g = .ok u h ↔
      ∃ l,
        Ledger.exit relayer poolId r g.pool.ledger =
            .ok u l ∧
          { g with pool := { g.pool with ledger := l } } =
            h :=
  Action.within_eq_ok_iff

/- The manager rebalances the capital of its pool. -/
private theorem rebalance_eq_ok_iff
    {force : Bool}
    {outcome : Outcome} :
    RelayedPool.rebalance poolId force g = .ok outcome h ↔
      ∃ t,
        g.pool.manager.rebalance g.pool.managerKey poolId
            force g.pool.capital = .ok outcome t ∧
          { g with pool := g.pool.withCapital t } = h := by
  change
    ((get : Action _ _) >>= fun s =>
      Action.within ManagedPool.position
        (s.pool.manager.rebalance s.pool.managerKey poolId
          force)) g = _ ↔ _
  rw [Action.bind_eq_ok_iff]
  constructor
  · intro hSteps
    rcases hSteps with ⟨_, _, hGet, hRun⟩
    rcases Action.get_eq_ok_iff.mp hGet with ⟨rfl, rfl⟩
    exact Action.within_eq_ok_iff.mp hRun
  · intro hRun
    exact
      ⟨g, g, Action.get_eq_ok_iff.mpr ⟨rfl, rfl⟩,
        Action.within_eq_ok_iff.mpr hRun⟩

/- The manager pulls into the cash of its pool. -/
private theorem capitalOut_eq_ok_iff
    {amount received : UInt64} :
    RelayedPool.capitalOut relayer poolId amount g =
        .ok received h ↔
      ∃ t,
        g.pool.manager.capitalOut relayer g.pool.managerKey
            poolId amount g.pool.capital = .ok received t ∧
          { g with pool := g.pool.withCapital t } = h := by
  change
    ((get : Action _ _) >>= fun s =>
      Action.within ManagedPool.position
        (s.pool.manager.capitalOut relayer s.pool.managerKey
          poolId amount)) g = _ ↔ _
  rw [Action.bind_eq_ok_iff]
  constructor
  · intro hSteps
    rcases hSteps with ⟨_, _, hGet, hRun⟩
    rcases Action.get_eq_ok_iff.mp hGet with ⟨rfl, rfl⟩
    exact Action.within_eq_ok_iff.mp hRun
  · intro hRun
    exact
      ⟨g, g, Action.get_eq_ok_iff.mpr ⟨rfl, rfl⟩,
        Action.within_eq_ok_iff.mpr hRun⟩

/-
  A relayed join credits the ledger and lets the manager
  rebalance.
-/
theorem joinPool_eq_ok_iff
    {r : JoinRequest κ}
    {outcome : Outcome} :
    joinPool relayer poolId r g = .ok outcome h ↔
      g.lock = .idle ∧
        ∃ l t,
          Ledger.join relayer poolId r g.pool.ledger =
              .ok () l ∧
            g.pool.manager.rebalance g.pool.managerKey
                poolId false
                { g.pool.capital with ledger := l } =
              .ok outcome t ∧
            { lock := .idle
              pool := g.pool.withCapital t } = h := by
  rw [joinPool, relayed_eq_ok_iff]
  simp only [Action.bind_eq_ok_iff, join_eq_ok_iff,
    rebalance_eq_ok_iff]
  constructor
  · intro hSteps
    rcases hSteps with
      ⟨hLock, _, ⟨_, _, ⟨l, hJoin, rfl⟩, t, hMove, rfl⟩,
        rfl⟩
    exact ⟨hLock, l, t, hJoin, hMove, rfl⟩
  · intro hSteps
    rcases hSteps with ⟨hLock, l, t, hJoin, hMove, rfl⟩
    exact
      ⟨hLock, _, ⟨(), _, ⟨l, hJoin, rfl⟩, t, hMove, rfl⟩,
        rfl⟩

/- After the pull, an exit debits the ledger and rebalances. -/
private theorem exit_rebalance_eq_ok_iff
    {r : ExitRequest κ}
    {pulled : UInt64}
    {report : ExitReport} :
    (do
        RelayedPool.exit relayer poolId r
        let outcome ← RelayedPool.rebalance poolId false
        return { pulled := pulled, rebalance := outcome } :
      Action (Guarded (ManagedPool κ V G F)) ExitReport) g =
        .ok report h ↔
      report.pulled = pulled ∧
        ∃ l t,
          Ledger.exit relayer poolId r g.pool.ledger =
              .ok () l ∧
            g.pool.manager.rebalance g.pool.managerKey
                poolId false
                { g.pool.capital with ledger := l } =
              .ok report.rebalance t ∧
            { g with pool := g.pool.withCapital t } = h := by
  simp only [Action.bind_eq_ok_iff, Action.pure_eq_ok_iff,
    exit_eq_ok_iff, rebalance_eq_ok_iff]
  constructor
  · intro hSteps
    rcases hSteps with
      ⟨_, _, ⟨l, hExit, rfl⟩, outcome, _, ⟨t, hMove, rfl⟩,
        rfl, rfl⟩
    exact ⟨rfl, l, t, hExit, hMove, rfl⟩
  · intro hSteps
    rcases hSteps with ⟨rfl, l, t, hExit, hMove, rfl⟩
    exact
      ⟨(), _, ⟨l, hExit, rfl⟩, report.rebalance, _,
        ⟨t, hMove, rfl⟩, rfl, rfl⟩

/-
  A relayed exit pulls what is short, debits the ledger, and
  lets the manager rebalance.
-/
theorem exitPool_eq_ok_iff
    {r : ExitRequest κ}
    {report : ExitReport} :
    exitPool relayer poolId r g = .ok report h ↔
      g.lock = .idle ∧
        ∃ (short : UInt64) (s t : Position κ V)
            (l : Ledger κ),
          g.pool.shortfall poolId r = .ok short ∧
            (if 0 < short then
              g.pool.manager.capitalOut relayer
                  g.pool.managerKey poolId short
                  g.pool.capital = .ok report.pulled s
            else
              report.pulled = 0 ∧ g.pool.capital = s) ∧
            Ledger.exit relayer poolId r s.ledger =
              .ok () l ∧
            g.pool.manager.rebalance g.pool.managerKey
                poolId false { s with ledger := l } =
              .ok report.rebalance t ∧
            { lock := .idle
              pool := g.pool.withCapital t } = h := by
  rw [exitPool, relayed_eq_ok_iff]
  simp only [Action.bind_eq_ok_iff, Action.get_eq_ok_iff,
    Action.lift_eq_ok_iff]
  constructor
  · intro hSteps
    rcases hSteps with
      ⟨hLock, _, ⟨_, _, ⟨rfl, rfl⟩, short, _, ⟨hShort, rfl⟩,
        hRun⟩, rfl⟩
    split at hRun
    · next hPos =>
        rcases Action.bind_eq_ok_iff.mp hRun with
          ⟨pulled, _, hPull, hRest⟩
        rcases capitalOut_eq_ok_iff.mp hPull with
          ⟨s, hOut, rfl⟩
        rcases exit_rebalance_eq_ok_iff.mp hRest with
          ⟨rfl, l, t, hExit, hMove, rfl⟩
        refine
          ⟨hLock, short, s, t, l, hShort, ?_, hExit, hMove,
            rfl⟩
        rw [if_pos hPos]
        exact hOut
    · next hNone =>
        rcases Action.bind_eq_ok_iff.mp hRun with
          ⟨pulled, _, hPull, hRest⟩
        rcases Action.pure_eq_ok_iff.mp hPull with ⟨rfl, rfl⟩
        rcases exit_rebalance_eq_ok_iff.mp hRest with
          ⟨hZero, l, t, hExit, hMove, rfl⟩
        refine
          ⟨hLock, short, g.pool.capital, t, l, hShort, ?_,
            hExit, hMove, rfl⟩
        rw [if_neg hNone]
        exact ⟨hZero, rfl⟩
  · intro hSteps
    rcases hSteps with
      ⟨hLock, short, s, t, l, hShort, hPull, hExit, hMove,
        rfl⟩
    refine
      ⟨hLock,
        { lock := .locked, pool := g.pool.withCapital t },
        ⟨_, _, ⟨rfl, rfl⟩, short, _, ⟨hShort, rfl⟩, ?_⟩,
        rfl⟩
    split at hPull
    · next hPos =>
        rw [if_pos hPos]
        apply Action.bind_eq_ok_iff.mpr
        refine
          ⟨report.pulled, _,
            capitalOut_eq_ok_iff.mpr ⟨s, hPull, rfl⟩, ?_⟩
        exact
          exit_rebalance_eq_ok_iff.mpr
            ⟨rfl, l, t, hExit, hMove, rfl⟩
    · next hNone =>
        rcases hPull with ⟨hZero, rfl⟩
        rw [if_neg hNone]
        apply Action.bind_eq_ok_iff.mpr
        refine
          ⟨0, _, Action.pure_eq_ok_iff.mpr ⟨rfl, rfl⟩, ?_⟩
        exact
          exit_rebalance_eq_ok_iff.mpr
            ⟨hZero, l, t, hExit, hMove, rfl⟩

omit [RewardGauge κ G] [RewardSink κ F] in
/-
  A pull divests what is short, unless there is nothing short
  and nothing is done.
-/
theorem pull_cases
    {m : Manager κ}
    {key : κ}
    {s t : Position κ V}
    {short pulled : UInt64}
    (hPull :
      if 0 < short then
        m.capitalOut relayer key poolId short s =
          .ok pulled t
      else
        pulled = 0 ∧ s = t) :
    m.capitalOut relayer key poolId short s =
        .ok pulled t ∨
      pulled = 0 ∧ short = 0 ∧ s = t := by
  split at hPull
  · exact .inl hPull
  · next hNone =>
      have hZero : short = 0 :=
        UInt64.le_antisymm (UInt64.not_lt.mp hNone)
          UInt64.zero_le
      exact .inr ⟨hPull.1, hZero, hPull.2⟩

/- A relayed claim hands gauge and sink to the manager. -/
theorem exists_desk_of_claimRewards
    {rewards : List (TokenAmount κ)}
    (hRun : claimRewards poolId g = .ok rewards h) :
    g.lock = .idle ∧
      ∃ sink desk,
        g.pool.sink = some sink ∧
          g.pool.manager.claimRewards g.pool.managerKey
              poolId
              { gauge := g.pool.gauge, sink := sink } =
            .ok rewards desk ∧
          { lock := .idle
            pool :=
              { g.pool with
                gauge := desk.gauge
                sink := some desk.sink } } = h := by
  rcases relayed_eq_ok_iff.mp hRun with
    ⟨hLock, t, hClaim, rfl⟩
  refine ⟨hLock, ?_⟩
  change ManagedPool.claim poolId _ = _ at hClaim
  rw [ManagedPool.claim, Action.bind_eq_ok_iff] at hClaim
  rcases hClaim with ⟨_, _, hGet, hClaim⟩
  rcases Action.get_eq_ok_iff.mp hGet with ⟨rfl, rfl⟩
  cases hSink : g.pool.sink with
  | none => simp [hSink] at hClaim
  | some sink =>
      simp only [hSink, Action.within_eq_ok_iff] at hClaim
      rcases hClaim with ⟨desk, hDesk, rfl⟩
      exact ⟨sink, desk, rfl, hDesk, rfl⟩

/- A relayed claim leaves ledger and vault alone. -/
theorem capital_of_claimRewards
    {rewards : List (TokenAmount κ)}
    (hRun : claimRewards poolId g = .ok rewards h) :
    g.lock = .idle ∧ h.lock = .idle ∧
      h.pool.capital = g.pool.capital := by
  rcases exists_desk_of_claimRewards hRun with
    ⟨hLock, sink, desk, -, -, rfl⟩
  exact ⟨hLock, rfl, rfl⟩

------------------------------------------------------------
-- Relayed Calls at Par
------------------------------------------------------------

variable
  {a b : Guarded (ManagedPool κ (ShareVault κ) G F)}

/- A relayed join pays its request in. -/
theorem advanced_of_joinPool
    {r : JoinRequest κ}
    {outcome : Outcome}
    (hSettled :
      Manager.Settled a.pool.manager a.pool.managerKey
        a.pool.capital)
    (hRun : joinPool relayer poolId r a = .ok outcome b) :
    Manager.Advanced a.pool.manager a.pool.managerKey
      (fun mint =>
        (Request.total (r.assets.zip r.maxAmounts) mint : Int))
      a.pool.capital b.pool.capital := by
  rcases joinPool_eq_ok_iff.mp hRun with
    ⟨-, l, t, hJoin, hMove, rfl⟩
  rcases Ledger.join_eq_ok_iff.mp hJoin with
    ⟨-, -, -, hCredits⟩
  have hPaid :=
    Manager.advanced_of_paid hSettled
      (Ledger.paid_of_credits hCredits)
  have hMoved :=
    Manager.advanced_of_rebalance hPaid.settled hMove
  exact hPaid.trans_zero hMoved

/- The shortfall of an exit is pulled to the last unit. -/
theorem advanced_of_pull
    {m : Manager κ}
    {key : κ}
    {s t : Position κ (ShareVault κ)}
    {short pulled : UInt64}
    (hSettled : Manager.Settled m key s)
    (hPull :
      if 0 < short then
        m.capitalOut relayer key poolId short s =
          .ok pulled t
      else
        pulled = 0 ∧ s = t) :
    pulled = short ∧
      Manager.Advanced m key (fun _ => 0) s t := by
  rcases pull_cases hPull with hOut | ⟨rfl, rfl, rfl⟩
  · exact Manager.advanced_of_capitalOut hSettled hOut
  · exact ⟨rfl, Manager.Advanced.refl hSettled⟩

/- A relayed exit pays its request out. -/
theorem advanced_of_exitPool
    {r : ExitRequest κ}
    {report : ExitReport}
    (hSettled :
      Manager.Settled a.pool.manager a.pool.managerKey
        a.pool.capital)
    (hRun : exitPool relayer poolId r a = .ok report b) :
    Manager.Advanced a.pool.manager a.pool.managerKey
      (fun mint =>
        -(Request.total (r.assets.zip r.minAmounts) mint :
          Int))
      a.pool.capital b.pool.capital := by
  rcases exitPool_eq_ok_iff.mp hRun with
    ⟨-, short, s, t, l, -, hPull, hExit, hMove, rfl⟩
  rcases Ledger.exit_eq_ok_iff.mp hExit with
    ⟨-, -, -, hDebits⟩
  have hPulled := (advanced_of_pull hSettled hPull).2
  have hPaid :=
    Manager.advanced_of_paid hPulled.settled
      (Ledger.paid_of_debits hDebits)
  have hMoved :=
    Manager.advanced_of_rebalance hPaid.settled hMove
  exact hPulled.zero_trans (hPaid.trans_zero hMoved)

end Relay

end YieldManager

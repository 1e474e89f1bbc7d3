import YieldManager.Proofs.Manager.Total
import YieldManager.Proofs.Program.Backing
import YieldManager.Proofs.Program.Conservation

/-
  Pool totals over runs.  Cash and value of a live manager fit
  together whenever a call has named it: a manager that goes
  live has nothing invested, and a rebalance forms the total.
  Afterwards the total can only grow by relayed joins of the
  pool that name a manager of another token, as these credit
  every token of the request but check the total of one.

  Main declarations:
    * `Store.heldAt`
    * `Change.heldAt_le`
    * `Instruction.credited`
    * `Instruction.heldAt_le`
    * `Call.checked`
    * `Call.heldAt_lt_of_checked`
    * `Program.overhang`
    * `Program.heldAt_lt_of_run`
    * `Program.total_of_run`
-/

------------------------------------------------------------
-- What a Record Holds
------------------------------------------------------------

namespace YieldManager

namespace Store

variable {s : Store}

/- What the record at an address holds of a token. -/
def heldAt
    (s : Store)
    (key mint : Address) : Nat :=
  (s.state? key).elim 0 (State.held mint)

/- A record holds what it says. -/
theorem heldAt_of_state?
    {key : Address}
    {state : State Address}
    (hState : s.state? key = some state)
    (mint : Address) :
    s.heldAt key mint = state.held mint := by
  unfold heldAt
  rw [hState, Option.elim_some]

/- A record that is put replaces what was held there. -/
theorem heldAt_insert
    (s : Store)
    (key : Address)
    (space : Nat)
    (state : State Address)
    (k mint : Address) :
    (s.insert key (.stored space state)).heldAt k mint =
      if k = key then state.held mint
      else s.heldAt k mint := by
  unfold heldAt
  rw [state?_insert]
  split <;> rfl

/- A record that holds no more than before adds nothing. -/
theorem heldAt_insert_le
    {key mint : Address}
    {state : State Address}
    (hState : state.held mint ≤ s.heldAt key mint)
    (space : Nat)
    (k : Address) :
    (s.insert key (.stored space state)).heldAt k mint ≤
      s.heldAt k mint := by
  rw [heldAt_insert]
  by_cases hKey : k = key
  · rw [if_pos hKey, hKey]
    exact hState
  · rw [if_neg hKey]

end Store

------------------------------------------------------------
-- Changes
------------------------------------------------------------

variable {signed : Address → Prop}
variable {s t : Store}
variable {key : Address}
variable {m : Manager Address}
variable {flow : Address → Int}
variable {p q : Position Address (ShareVault Address)}

/- Replacing the books of a manager changes its ledger. -/
theorem Rebooked.heldAt
    (hRebooked : Rebooked key m p q s t)
    (k mint : Address) :
    t.heldAt k mint =
      if k = m.custodian then q.ledger.held mint
      else s.heldAt k mint := by
  rcases hRebooked.state? with ⟨-, hLedger, hVault⟩
  have hDiffer : m.custodian ≠ m.vault :=
    Store.ne_of_state? hLedger hVault nofun
  have hNothing : s.heldAt m.vault mint = 0 :=
    Store.heldAt_of_state? hVault mint
  rcases hRebooked.books with
    ⟨ledgerSpace, vaultSpace, -, -, rfl⟩
  rw [Store.heldAt_insert, Store.heldAt_insert]
  by_cases hIsVault : k = m.vault
  · subst hIsVault
    rw [if_pos rfl, if_neg hDiffer.symm, hNothing]
    rfl
  · rw [if_neg hIsVault]
    rfl

/-
  What an operation pays in is the most that the ledger of its
  manager gains, and all other ledgers stay as they are.
-/
theorem Rebooked.heldAt_le
    (hRebooked : Rebooked key m p q s t)
    (hWired : s.IsWired)
    (hOperated : Operated m key flow p q)
    (k mint : Address) :
    (t.heldAt k mint : Int) ≤
      s.heldAt k mint +
        if k = m.custodian then flow mint else 0 := by
  have hAdvanced := hRebooked.advanced hWired hOperated
  have hGain := hAdvanced.held_le mint
  have hBefore :
      s.heldAt m.custodian mint = p.ledger.held mint :=
    Store.heldAt_of_state? hRebooked.state?.2.1 mint
  rw [hRebooked.heldAt]
  by_cases hCustodian : k = m.custodian
  · rw [if_pos hCustodian, if_pos hCustodian, hCustodian]
    omega
  · rw [if_neg hCustodian, if_neg hCustodian, Int.add_zero]

/- A change that pays nothing in lets no record hold more. -/
theorem Change.heldAt_le
    (hChange : Change signed flow s t)
    (hWired : s.IsWired)
    (hFlow : ∀ mint, flow mint ≤ 0)
    (k mint : Address) :
    t.heldAt k mint ≤ s.heldAt k mint := by
  cases hChange with
  | opened hFree hOpened =>
      apply Store.heldAt_insert_le
      have hNothing := hOpened.total mint
      simp only [State.total] at hNothing
      omega
  | tokenAdded hLedger hRun hValid =>
      apply Store.heldAt_insert_le
      rw [Store.heldAt_of_state?
        (Store.state?_of_find? hLedger)]
      exact Nat.le_of_eq (Ledger.held_of_addToken hRun mint)
  | gaugeSet hGauge =>
      exact Store.heldAt_insert_le (Nat.zero_le _) _ k
  | forwarderSet hForwarder =>
      exact Store.heldAt_insert_le (Nat.zero_le _) _ k
  | activated hManager hLedger hCustodian hRun =>
      have hBook := Store.state?_of_find? hLedger
      have hDiffer :=
        Store.ne_of_state? hBook
          (Store.state?_of_find? hManager) (by simp)
      refine
        Nat.le_trans (Store.heldAt_insert_le ?_ _ k)
          (Store.heldAt_insert_le (Nat.zero_le _) _ k)
      rw [Store.heldAt_insert, if_neg hDiffer,
        Store.heldAt_of_state? hBook]
      exact Nat.le_of_eq (held_of_activate hRun mint)
  | targetsSet hManager hRun =>
      exact Store.heldAt_insert_le (Nat.zero_le _) _ k
  | operated hRebooked hOperated =>
      have hGain :=
        hRebooked.heldAt_le hWired hOperated k mint
      have hNone := hFlow mint
      split at hGain <;> omega

/- Changes that are quiet let no record hold more. -/
theorem Quiet.heldAt_le
    (hQuiet : Quiet signed s t)
    (hWired : s.IsWired)
    (k mint : Address) :
    t.heldAt k mint ≤ s.heldAt k mint := by
  induction hQuiet with
  | refl s => exact Nat.le_refl _
  | head hChange hRest ih =>
      have hFirst :=
        hChange.heldAt_le hWired (fun _ => Int.le_refl 0) k
          mint
      exact
        Nat.le_trans (ih (hChange.isWired hWired)) hFirst

------------------------------------------------------------
-- What Calls Credit
------------------------------------------------------------

/- What an instruction credits to a pool, if it succeeds. -/
def Instruction.credited
    (poolId mint : Address) : Instruction Address → Nat
  | joinPool pool _ r =>
      if pool = poolId then
        Request.total (r.assets.zip r.maxAmounts) mint
      else 0
  | _ => 0

/- The ledger of a wired manager is that of its pool. -/
private theorem Rebooked.custodian
    (hRebooked : Rebooked key m p q s t)
    (hWired : s.IsWired) :
    m.custodian = .ofLedger m.poolId := by
  have hRecord : WiredManager s key m :=
    hWired.wired key _ hRebooked.state?.1
  exact hRecord.custodian

/- A pool gains what is credited to it, and nothing else. -/
theorem Instruction.heldAt_le
    {i : Instruction Address}
    {metas : List Meta}
    {effect : Effect}
    (hWired : s.IsWired)
    (hRun : i.effect s metas = .ok effect)
    (poolId mint : Address) :
    (s.insertAll effect.writes).heldAt (.ofLedger poolId)
        mint ≤
      s.heldAt (.ofLedger poolId) mint +
        i.credited poolId mint := by
  cases i with
  | joinPool pool recipient r =>
      rcases Relaying.exists_rebooked_of_joinPool hWired.plain
          hRun with
        ⟨g, h, relayer, outcome, -, hRebooked, hJoin⟩
      have hGain :=
        hRebooked.heldAt_le hWired (.joined rfl rfl hJoin)
          (.ofLedger poolId) mint
      rcases Relay.joinPool_eq_ok_iff.mp hJoin with
        ⟨-, _, _, -, hMove, -⟩
      -- The manager that is named is of the pool joined, so
      -- the ledger of that pool is the one credited.
      have hPool :=
        (Manager.rebalance_eq_ok_iff.mp hMove).1
      rw [hRebooked.custodian hWired, hPool] at hGain
      simp only [Address.ofLedger, Address.derived.injEq,
        List.cons.injEq, and_true, true_and] at hGain
      simp only [credited]
      by_cases hSame : poolId = pool
      · rw [if_pos hSame] at hGain
        rw [if_pos hSame.symm]
        exact_mod_cast hGain
      · rw [if_neg hSame] at hGain
        rw [if_neg (Ne.symm hSame)]
        exact_mod_cast hGain
  | exitPool pool recipient r =>
      apply
        (Relaying.change_of_exitPool hWired.plain
          hRun).heldAt_le hWired
      intro token
      omega
  | _ =>
      refine
        (quiet_of_effect hWired.plain ?_ hRun).heldAt_le
          hWired _ mint
      trivial

------------------------------------------------------------
-- What Calls Check
------------------------------------------------------------

/-
  The address at which a call names the manager that it makes
  live or rebalances.
-/
def Call.checked (call : Call) : Option Address :=
  match call.instruction with
  | .activate _ => (call.metas.map Meta.key)[1]?
  | .rebalance _ _ => (call.metas.map Meta.key)[1]?
  | .joinPool _ _ _ => (call.metas.map Meta.key)[3]?
  | .exitPool _ _ _ => (call.metas.map Meta.key)[3]?
  | _ => none

/- The address of a wired manager tells pool and token. -/
private theorem WiredManager.eq_of_key
    {poolId mint : Address}
    (hRecord : WiredManager s key m)
    (hKey : key = .ofManager poolId mint) :
    m.poolId = poolId ∧ m.token = mint := by
  have hSame := hRecord.derived.symm.trans hKey
  simpa [Address.ofManager] using hSame

/-
  Where the books of a manager fit after an operation on them,
  what the pool holds of its token fits.
-/
private theorem Rebooked.heldAt_lt
    {poolId mint : Address}
    (hRebooked : Rebooked key m p q s t)
    (hWired : s.IsWired)
    (hKey : key = .ofManager poolId mint)
    (hFits : q.ledger.held m.token < UInt64.size) :
    t.heldAt (.ofLedger poolId) mint < UInt64.size := by
  have hRecord : WiredManager s key m :=
    hWired.wired key _ hRebooked.state?.1
  rcases hRecord.eq_of_key hKey with ⟨rfl, rfl⟩
  rw [hRebooked.heldAt, if_pos hRecord.custodian.symm]
  exact hFits

/- The ledger of a wired manager lists no mint twice. -/
private theorem Rebooked.nodup
    (hRebooked : Rebooked key m p q s t)
    (hWired : s.IsWired) :
    p.ledger.mints.Nodup := by
  have hRecord : WiredLedger s m.custodian p.ledger :=
    hWired.wired _ _ hRebooked.state?.2.1
  exact Ledger.nodup_of_isValid hRecord.valid

/- Where a relayed join succeeds, the books fit after it. -/
private theorem held_lt_of_joinPool
    {relayer poolId : Address}
    {r : JoinRequest Address}
    {outcome : Outcome}
    {g h : Guarded Relaying.Pool}
    (hSettled :
      Manager.Settled g.pool.manager g.pool.managerKey
        g.pool.capital)
    (hNodup : g.pool.ledger.mints.Nodup)
    (hRun :
      Relay.joinPool relayer poolId r g = .ok outcome h) :
    h.pool.ledger.held g.pool.manager.token <
      UInt64.size := by
  rcases Relay.joinPool_eq_ok_iff.mp hRun with
    ⟨-, l, t, hJoin, hMove, rfl⟩
  rcases Ledger.join_eq_ok_iff.mp hJoin with
    ⟨-, -, -, hCredits⟩
  have hPaid := Ledger.paid_of_credits hCredits
  apply
    Manager.held_lt_of_rebalance
      (Manager.advanced_of_paid hSettled hPaid).settled _
      hMove
  rw [hPaid.books.mints]
  exact hNodup

/- Where a relayed exit succeeds, the books fit after it. -/
private theorem held_lt_of_exitPool
    {relayer poolId : Address}
    {r : ExitRequest Address}
    {report : ExitReport}
    {g h : Guarded Relaying.Pool}
    (hSettled :
      Manager.Settled g.pool.manager g.pool.managerKey
        g.pool.capital)
    (hNodup : g.pool.ledger.mints.Nodup)
    (hRun :
      Relay.exitPool relayer poolId r g = .ok report h) :
    h.pool.ledger.held g.pool.manager.token <
      UInt64.size := by
  rcases Relay.exitPool_eq_ok_iff.mp hRun with
    ⟨-, short, u, t, l, -, hPull, hExit, hMove, rfl⟩
  have hPulled := (Relay.advanced_of_pull hSettled hPull).2
  rcases Ledger.exit_eq_ok_iff.mp hExit with
    ⟨-, -, -, hDebits⟩
  have hPaid := Ledger.paid_of_debits hDebits
  apply
    Manager.held_lt_of_rebalance
      (Manager.advanced_of_paid hPulled.settled
        hPaid).settled _ hMove
  rw [hPaid.books.mints, hPulled.books.mints]
  exact hNodup

/- Where a manager goes live, there is nothing but cash. -/
private theorem held_lt_of_activate
    {poolId : Address}
    {m' : Manager Address}
    {l l' : Ledger Address}
    (hWired : s.IsWired)
    (hManager : s.state? key = some (.manager m))
    (hLedger : s.state? m.custodian = some (.ledger l))
    (hRun :
      Manager.activate key poolId (m, l) =
        .ok () (m', l')) :
    l.held m.token < UInt64.size := by
  have hRecord : WiredManager s key m :=
    hWired.wired key _ hManager
  have hBooks : WiredLedger s m.custodian l :=
    hWired.wired _ _ hLedger
  rcases hRecord.books with ⟨b, v, hFound, -, hBound⟩
  rw [hLedger] at hFound
  cases hFound
  rcases Manager.activate_eq_ok_iff.mp hRun with
    ⟨hLive, -, -, hRegister, -⟩
  rcases managed_of_register hBooks hBound hLive
      hRegister with
    ⟨e, hEntry, hManaged, -⟩
  rw [Ledger.held_of_entry
      (Ledger.nodup_of_isValid hBooks.valid) hEntry,
    hManaged]
  exact e.cash.toNat_lt_size

/-
  After a successful call that names the manager of a token to
  make it live or to rebalance it, what the pool holds of the
  token fits.
-/
theorem Call.heldAt_lt_of_checked
    {call : Call}
    {effect : Effect}
    {poolId mint : Address}
    (hWired : s.IsWired)
    (hRun :
      call.instruction.effect s call.metas = .ok effect)
    (hChecked :
      call.checked = some (.ofManager poolId mint)) :
    (s.insertAll effect.writes).heldAt (.ofLedger poolId)
        mint <
      UInt64.size := by
  rcases call with ⟨programId, metas, i⟩
  cases i with
  | activate pool =>
      rcases Upkeep.exists_activated_of_activate hWired.plain
          hRun with
        ⟨key, m, m', l, l', hNamed, hManager, hLedger,
          hActivate, hChange⟩
      have hKey : key = .ofManager poolId mint :=
        Option.some.inj (hNamed.symm.trans hChecked)
      have hRecord : WiredManager s key m :=
        hWired.wired key _ hManager
      rcases hRecord.eq_of_key hKey with ⟨rfl, rfl⟩
      -- Going live moves nothing, and there was only cash.
      have hFits :=
        held_lt_of_activate hWired hManager hLedger hActivate
      have hNoGain :=
        hChange.heldAt_le hWired (fun _ => Int.le_refl 0)
          m.custodian m.token
      rw [← hRecord.custodian]
      rw [Store.heldAt_of_state? hLedger] at hNoGain
      exact Nat.lt_of_le_of_lt hNoGain hFits
  | rebalance pool force =>
      rcases Capital.exists_rebooked_of_rebalance hWired.plain
          hRun with
        ⟨key, m, p, q, outcome, hNamed, hRebooked, hMove⟩
      have hLive := (Manager.rebalance_eq_ok_iff.mp hMove).2.1
      apply hRebooked.heldAt_lt hWired
        (Option.some.inj (hNamed.symm.trans hChecked))
      exact
        Manager.held_lt_of_rebalance
          (hRebooked.settled hWired hLive)
          (hRebooked.nodup hWired) hMove
  | joinPool pool recipient r =>
      rcases Relaying.exists_rebooked_of_joinPool hWired.plain
          hRun with
        ⟨g, h, relayer, outcome, hNamed, hRebooked, hJoin⟩
      have hLive :=
        (Operated.joined rfl rfl hJoin).live
      apply hRebooked.heldAt_lt hWired
        (Option.some.inj (hNamed.symm.trans hChecked))
      exact
        held_lt_of_joinPool (hRebooked.settled hWired hLive)
          (hRebooked.nodup hWired) hJoin
  | exitPool pool recipient r =>
      rcases Relaying.exists_rebooked_of_exitPool hWired.plain
          hRun with
        ⟨g, h, relayer, report, hNamed, hRebooked, hExit⟩
      have hLive :=
        (Operated.exited rfl rfl hExit).live
      apply hRebooked.heldAt_lt hWired
        (Option.some.inj (hNamed.symm.trans hChecked))
      exact
        held_lt_of_exitPool (hRebooked.settled hWired hLive)
          (hRebooked.nodup hWired) hExit
  | _ => cases hChecked

------------------------------------------------------------
-- Runs
------------------------------------------------------------

namespace Program

/-
  What joins that named others have credited to a pool of a
  token, after one more call: nothing once the manager of the
  token is checked, and more by what else is credited.
-/
def overhangAfter
    (poolId mint : Address)
    (s : Store)
    (call : Call)
    (before : Nat) : Nat :=
  match execute s call with
  | .ok _ =>
      if call.checked = some (.ofManager poolId mint) then 0
      else before + call.instruction.credited poolId mint
  | .error _ => before

/-
  What joins that named others have credited to a pool of a
  token, since a call of the run last checked its manager.
-/
def overhang
    (poolId mint : Address) :
    Store → List Call → Nat → Nat
  | _, [], before => before
  | s, call :: calls, before =>
      overhang poolId mint (step s call) calls
        (overhangAfter poolId mint s call before)

/- A call lets a pool hold no more than fits and overhangs. -/
theorem heldAt_lt_of_step
    {poolId mint : Address}
    {before : Nat}
    (hWired : s.IsWired)
    (hBefore :
      s.heldAt (.ofLedger poolId) mint <
        UInt64.size + before)
    (call : Call) :
    (step s call).heldAt (.ofLedger poolId) mint <
      UInt64.size +
        overhangAfter poolId mint s call before := by
  unfold step overhangAfter
  cases hRun : execute s call with
  | error fault => exact hBefore
  | ok result =>
      rcases result with ⟨receipt, after⟩
      rcases execute_eq_ok_iff.mp hRun with
        ⟨-, effect, hEffect, -, rfl⟩
      by_cases hChecked :
          call.checked = some (.ofManager poolId mint)
      · simp only [if_pos hChecked]
        exact
          call.heldAt_lt_of_checked hWired hEffect hChecked
      · simp only [if_neg hChecked]
        have hGain :=
          Instruction.heldAt_le hWired hEffect poolId mint
        omega

/- A run lets a pool hold no more than fits and overhangs. -/
theorem heldAt_lt_of_run
    {poolId mint : Address}
    {before : Nat}
    (hWired : s.IsWired)
    (hBefore :
      s.heldAt (.ofLedger poolId) mint <
        UInt64.size + before)
    (calls : List Call) :
    (run s calls).heldAt (.ofLedger poolId) mint <
      UInt64.size + overhang poolId mint s calls before := by
  induction calls generalizing s before with
  | nil => exact hBefore
  | cons call calls ih =>
      exact
        ih (isWired_of_run hWired [call])
          (heldAt_lt_of_step hWired hBefore call)

/- Whoever views what a manager may invest is told. -/
def AnswersMaxInvestable
    (s : Store)
    (key : Address)
    (m : Manager Address)
    (value : Int) : Prop :=
  ∀ metas rest,
    metas.map Meta.key =
        key :: m.custodian :: m.vault :: rest →
      execute s
          { programId := Address.program
            metas := metas
            instruction := .viewMaxInvestable m.poolId } =
        .ok
          ({ answer := .signed value, log := [],
             events := [] }, s)

/-
  Cash and value of a manager have a total: it resolves to a
  band, the view of what is left to invest is answered by it,
  and a rebalance does nothing but follow it.
-/
def FormsTotal
    (s : Store)
    (key : Address)
    (m : Manager Address)
    (p : Position Address (ShareVault Address))
    (held : Balances) : Prop :=
  ∃ total band,
    held.total = .ok total ∧
      m.targets.band total = .ok band ∧
      AnswersMaxInvestable s key m
        (FixedPoint.difference band.desired held.managed) ∧
      ∀ force,
        m.rebalance key m.poolId force p =
          Action.atomically
            (if !force && !band.isBreached held.managed then
              pure .skipped
            else
              m.moveTo key m.poolId band.desired
                held.managed)
            p

/-
  The balances of a live manager are all that its ledger holds
  of its token.
-/
private theorem exists_balances
    (hWired : s.IsWired)
    (hManager : s.state? key = some (.manager m))
    (hLive : m.live = true) :
    ∃ (p : Position Address (ShareVault Address))
        (held : Balances),
      s.state? m.custodian = some (.ledger p.ledger) ∧
        s.state? m.vault = some (.shareVault p.vault) ∧
        m.poolBalances key m.poolId p = .ok held ∧
        s.heldAt (.ofLedger m.poolId) m.token =
          held.cash.toNat + held.managed.toNat := by
  have hRecord : WiredManager s key m :=
    hWired.wired key _ hManager
  rcases hRecord.books with
    ⟨l, v, hLedger, hVault, hBound⟩
  rcases hBound.settled hLive with ⟨e, hEntry, hManaged⟩
  have hBooks : WiredLedger s m.custodian l :=
    hWired.wired _ _ hLedger
  have hWorth :=
    (hWired.settled hManager hLedger hVault hLive).par.worth
      key
  have hHeld :
      m.poolBalances key m.poolId
          { ledger := l, vault := v } =
        .ok { cash := e.cash, managed := e.managed } := by
    rw [Manager.poolBalances_eq_ok_iff]
    refine ⟨rfl, hBound.poolId, ⟨e, hEntry, rfl⟩, ?_⟩
    rw [hManaged]
    exact hWorth
  refine
    ⟨{ ledger := l, vault := v }, _, hLedger, hVault, hHeld,
      ?_⟩
  rw [← hRecord.custodian, Store.heldAt_of_state? hLedger]
  exact
    Ledger.held_of_entry
      (Ledger.nodup_of_isValid hBooks.valid) hEntry

/- Balances that fit have a total. -/
private theorem formsTotal_of_fits
    {held : Balances}
    (hWired : s.IsWired)
    (hManager : s.state? key = some (.manager m))
    (hLive : m.live = true)
    (hLedger : s.state? m.custodian = some (.ledger p.ledger))
    (hVault : s.state? m.vault = some (.shareVault p.vault))
    (hHeld : m.poolBalances key m.poolId p = .ok held)
    (hFits :
      held.cash.toNat + held.managed.toNat < UInt64.size) :
    FormsTotal s key m p held := by
  have hRecord : WiredManager s key m :=
    hWired.wired key _ hManager
  rcases Targets.exists_band_of_fits hRecord.targets hFits
    with ⟨total, band, hTotal, hBand⟩
  refine
    ⟨total, band, hTotal, hBand, ?_,
      Manager.rebalance_of_band hLive hHeld hTotal hBand⟩
  intro metas rest hMetas
  apply execute_view hWired.plain hManager hLedger hVault
    hMetas rfl
  intro d hKey hValue hPosition
  have hAnswer :=
    Manager.maxInvestable_of_band hHeld hTotal hBand
  have hSame : d.position = p := hPosition
  simp only [hKey, hValue, hSame, Except.bind_eq_ok_iff,
    Except.pure_eq_ok_iff]
  exact ⟨_, hAnswer, rfl⟩

/-
  In every store that a run reaches from one without accounts
  of the program, cash and value of a live manager exceed what
  fits by no more than what joins that named others have
  credited since it was last checked; and where they fit,
  their total is formed.
-/
theorem total_of_run
    (hForeign :
      ∀ key account, s.find? key = some account →
        account.owner ≠ Address.program)
    (calls : List Call)
    (hManager :
      (run s calls).state? key = some (.manager m))
    (hLive : m.live = true) :
    ∃ p held,
      (run s calls).state? m.custodian =
          some (.ledger p.ledger) ∧
        (run s calls).state? m.vault =
          some (.shareVault p.vault) ∧
        m.poolBalances key m.poolId p = .ok held ∧
        held.cash.toNat + held.managed.toNat <
          UInt64.size +
            overhang m.poolId m.token s calls 0 ∧
        (held.cash.toNat + held.managed.toNat <
            UInt64.size →
          FormsTotal (run s calls) key m p held) := by
  have hStart := Store.isWired_of_foreign hForeign
  have hWired := isWired_of_run hStart calls
  rcases exists_balances hWired hManager hLive with
    ⟨p, held, hLedger, hVault, hHeld, hSum⟩
  have hEmpty :
      s.heldAt (.ofLedger m.poolId) m.token <
        UInt64.size + 0 := by
    unfold Store.heldAt
    rw [Store.state?_of_foreign hForeign, Option.elim_none]
    decide
  have hBound := heldAt_lt_of_run hStart hEmpty calls
  rw [hSum] at hBound
  exact
    ⟨p, held, hLedger, hVault, hHeld, hBound,
      formsTotal_of_fits hWired hManager hLive hLedger hVault
        hHeld⟩

/- In the small run no join names another manager. -/
theorem total_smallCalls :
    (∀ key account,
        smallStore.find? key = some account →
          account.owner ≠ Address.program) ∧
      (run smallStore smallCalls).state?
          (.ofManager smallTerms.poolId smallTerms.token) =
        some (.manager smallManager) ∧
      smallManager.live = true ∧
      ∃ p held,
        (run smallStore smallCalls).state?
              smallManager.custodian =
            some (.ledger p.ledger) ∧
          (run smallStore smallCalls).state?
              smallManager.vault =
            some (.shareVault p.vault) ∧
          smallManager.poolBalances
              (.ofManager smallTerms.poolId smallTerms.token)
              smallManager.poolId p = .ok held ∧
          held.cash.toNat + held.managed.toNat <
            UInt64.size ∧
          FormsTotal (run smallStore smallCalls)
            (.ofManager smallTerms.poolId smallTerms.token)
            smallManager p held := by
  have hManager :
      (run smallStore smallCalls).state?
          (.ofManager smallTerms.poolId smallTerms.token) =
        some (.manager smallManager) := by
    decide +kernel
  have hNone :
      overhang smallManager.poolId smallManager.token
          smallStore smallCalls 0 = 0 := by
    decide +kernel
  rcases total_of_run owner_of_smallStore smallCalls hManager
      rfl with
    ⟨p, held, hLedger, hVault, hHeld, hBound, hForms⟩
  rw [hNone, Nat.add_zero] at hBound
  exact
    ⟨owner_of_smallStore, hManager, rfl, p, held, hLedger,
      hVault, hHeld, hBound, hForms hBound⟩

------------------------------------------------------------
-- Two Managers of One Pool
------------------------------------------------------------

/- A store with nothing but two mints. -/
def twinStore : Store where
  accounts :=
    [(smallKey 1,
      .bytes Address.tokenProgram (Mint.toBytes true)),
     (smallKey 4,
      .bytes Address.tokenProgram (Mint.toBytes true))]
  nodup := by decide

/- The accounts of the small pool for another mint. -/
def twinTerms (mint : Address) : Terms Address :=
  { smallTerms with
    token := mint
    vault := .ofShareVault (smallKey 3) mint }

/- The managers of both tokens are set up for one pool. -/
def twinOpening : List Call :=
  let pool := smallTerms.poolId
  let ledger := smallTerms.custodian
  smallCall (.createLedger pool) [ledger, .system] ::
    smallCall (.createRelayer pool)
      [ledger, .ofRelayer pool, .system] ::
    [smallKey 1, smallKey 4].flatMap fun mint =>
      let vault := (twinTerms mint).vault
      let manager := Address.ofManager pool mint
      [ smallCall .registerToken [ledger, mint],
        smallCall (.createShareVault 0)
          [mint, vault, .system],
        smallCall (.createManager (twinTerms mint))
          [ledger, vault, manager, .system],
        smallCall (.activate pool) [manager, ledger] ]

/-
  Half of the second token is to be invested.  A join that
  names its manager pays in almost all that fits, and one that
  names the other manager pays in two units more.
-/
def twinCalls : List Call :=
  let pool := smallTerms.poolId
  let ledger := smallTerms.custodian
  let join := fun amount mint =>
    smallCall
      (.joinPool pool (smallKey 3)
        { assets := [smallKey 4], maxAmounts := [amount] })
      [.ofRelayer pool, ledger, .ofManager pool mint,
        (twinTerms mint).vault]
  twinOpening ++
    [ smallCall
        (.setTargets pool
          { target := 500000000000000000
            upper := 500000000000000000
            lower := 500000000000000000 })
        [.ofManager pool (smallKey 4)],
      join 18446744073709551614 (smallKey 4),
      join 2 (smallKey 1) ]

/- The manager of the second token, at the end. -/
def twinManager : Manager Address :=
  { smallManager with
    token := smallKey 4
    vault := (twinTerms (smallKey 4)).vault
    targets :=
      { target := 500000000000000000
        upper := 500000000000000000
        lower := 500000000000000000 } }

/- The books of the second manager, at the end. -/
def twinBooks : Position Address (ShareVault Address) where
  ledger :=
    { poolId := smallTerms.poolId
      authority := smallKey 3
      relayer := .ofRelayer smallTerms.poolId
      entries :=
        [{ mint := smallKey 1
           cash := 0
           managed := 0
           manager :=
             .ofManager smallTerms.poolId (smallKey 1) },
         { mint := smallKey 4
           cash := 9223372036854775809
           managed := 9223372036854775807
           manager :=
             .ofManager smallTerms.poolId (smallKey 4) }]
      bump := Address.bump }
  vault :=
    { asset := smallKey 4
      authority := smallKey 3
      assets := 9223372036854775807
      supply := 9223372036854775807
      feeBps := 0
      fees := 0
      holdings :=
        [{ owner :=
             .ofManager smallTerms.poolId (smallKey 4)
           shares := 9223372036854775807 }]
      bump := Address.bump }

/- The program has no account in the twin store. -/
private theorem owner_of_twinStore
    (key : Address)
    (account : Account)
    (hFound : twinStore.find? key = some account) :
    account.owner ≠ Address.program := by
  have hMem := Store.mem_of_find? hFound
  simp only [twinStore, List.mem_cons, List.not_mem_nil,
    or_false, Prod.mk.injEq] at hMem
  rcases hMem with ⟨-, rfl⟩ | ⟨-, rfl⟩
  · decide
  · decide

/-
  Cash and value of the second manager no longer fit, so that
  neither the view nor a rebalance gets past their total.
-/
theorem overflows_twinCalls :
    (∀ key account,
        twinStore.find? key = some account →
          account.owner ≠ Address.program) ∧
      (run twinStore twinCalls).state?
          (.ofManager smallTerms.poolId (smallKey 4)) =
        some (.manager twinManager) ∧
      twinManager.live = true ∧
      (run twinStore twinCalls).state?
          twinManager.custodian =
        some (.ledger twinBooks.ledger) ∧
      (run twinStore twinCalls).state? twinManager.vault =
        some (.shareVault twinBooks.vault) ∧
      (∃ held,
        twinManager.poolBalances
              (.ofManager smallTerms.poolId (smallKey 4))
              smallTerms.poolId twinBooks = .ok held ∧
          held.cash.toNat + held.managed.toNat =
            UInt64.size) ∧
      twinManager.maxInvestable
          (.ofManager smallTerms.poolId (smallKey 4))
          smallTerms.poolId twinBooks =
        .error .mathOverflow ∧
      ∀ force,
        ((twinManager.rebalance
            (.ofManager smallTerms.poolId (smallKey 4))
            smallTerms.poolId force).perform twinBooks).1 =
          .error .mathOverflow := by
  have hHeld :
      twinManager.poolBalances
          (.ofManager smallTerms.poolId (smallKey 4))
          smallTerms.poolId twinBooks =
        .ok
          { cash := 9223372036854775809
            managed := 9223372036854775807 } := by
    decide +kernel
  exact
    ⟨owner_of_twinStore, by decide +kernel, rfl,
      by decide +kernel, by decide +kernel,
      ⟨_, hHeld, by decide⟩, by decide +kernel,
      by decide +kernel⟩

end Program

end YieldManager

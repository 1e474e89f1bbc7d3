import YieldManager.Proofs.Program.Runs
import YieldManager.Proofs.Relay.CashFlow

/-
  Events and cash.  A successful rebalance, join or exit
  updates the ledger of the manager that it names, and emits
  one event.  Whoever knows the request and reads the event
  knows the cash that is left, in any store whatever: the
  figures of the event are those of the move, and the move is
  all that happens to cash besides the request.

  Main declarations:
    * `LedgerUpdated`
    * `Instruction.EventsExplain`
    * `Capital.eventsExplain_of_rebalance`
    * `Relaying.eventsExplain_of_joinPool`
    * `Relaying.eventsExplain_of_exitPool`
    * `Program.events_explain_cash`
-/

------------------------------------------------------------
-- Updated Ledgers
------------------------------------------------------------

namespace YieldManager

/-
  A manager is at an address, and its ledger has gone from one
  state to another.
-/
structure LedgerUpdated
    (key : Address)
    (m : Manager Address)
    (l l' : Ledger Address)
    (s t : Store) : Prop where
  manager : s.state? key = some (.manager m)
  before : s.state? m.custodian = some (.ledger l)
  after : t.state? m.custodian = some (.ledger l')

/-
  Writing ledger and vault in the places of others updates the
  ledger; as the vault is no ledger, it lies elsewhere.
-/
private theorem state?_of_books
    {s u : Store}
    {x : Loaded Ledger}
    {y : Loaded ShareVault}
    (hLedger : x.IsRead s)
    (hVault : y.IsRead s)
    (space space' : Nat)
    (l : Ledger Address)
    (v : ShareVault Address) :
    ((u.insert x.key (.stored space (.ledger l))).insert y.key
        (.stored space' (.shareVault v))).state? x.key =
      some (.ledger l) := by
  have hDiffer : x.key ≠ y.key :=
    Store.ne_of_state? hLedger.state? hVault.state? nofun
  rw [Store.state?_insert, if_neg hDiffer,
    Store.state?_insert, if_pos rfl]

------------------------------------------------------------
-- What Events Tell
------------------------------------------------------------

/-
  The events of an instruction explain the cash of the ledger
  that it updates.  Each of the three kinds below emits one:
  a rebalance tells what it has moved and the final balances
  of the token; a join tells what was moved besides what was
  requested; an exit tells in addition what has been pulled,
  which is what cash did not cover.
-/
def Instruction.EventsExplain
    (s t : Store)
    (ms : List Meta)
    (events : List Event) : Instruction Address → Prop
  | rebalance _ force =>
      ∃ key m l l' e invested divested,
        (ms.map Meta.key)[1]? = some key ∧
          LedgerUpdated key m l l' s t ∧
          l'.entry m.token = .ok e ∧
          events =
            [.rebalanced key force invested divested
              { cash := e.cash, managed := e.managed }] ∧
          Ledger.Explained m.token (fun _ => 0) 0 invested
            divested l l'
  | joinPool poolId recipient r =>
      ∃ sender key m l l' invested divested,
        (ms.map Meta.key)[0]? = some sender ∧
          (ms.map Meta.key)[3]? = some key ∧
          LedgerUpdated key m l l' s t ∧
          events =
            [.poolJoined poolId sender recipient invested
              divested] ∧
          Ledger.Explained m.token
            (fun mint =>
              (Request.total (r.assets.zip r.maxAmounts)
                mint : Int))
            0 invested divested l l'
  | exitPool poolId recipient r =>
      ∃ sender key m l l' pulled invested divested,
        (ms.map Meta.key)[0]? = some sender ∧
          (ms.map Meta.key)[3]? = some key ∧
          LedgerUpdated key m l l' s t ∧
          UInt64.toNat pulled =
            Request.total (r.assets.zip r.minAmounts)
                m.token -
              l.cash m.token ∧
          events =
            [.poolExited poolId sender recipient pulled
              invested divested] ∧
          Ledger.Explained m.token
            (fun mint =>
              -(Request.total (r.assets.zip r.minAmounts)
                mint : Int))
            pulled invested divested l l'
  | _ => True

variable {s : Store}
variable {ms : List Meta}
variable {effect : Effect}

namespace Capital

/- Writing the books of a desk updates the ledger. -/
private theorem updated_of_write
    {d : Desk}
    {after : Position Address (ShareVault Address)}
    {writes : List (Address × Account)}
    (hDesk : d.IsRead s)
    (hBooks : d.expectBooks = .ok ())
    (hWrite : d.write after = .ok writes) :
    LedgerUpdated d.manager.key d.manager.value d.ledger.value
      after.ledger s (s.insertAll writes) := by
  have hCustodian := (Desk.keys_of_expectBooks hBooks).1
  refine
    { manager := hDesk.manager.state?
      before := ?_
      after := ?_ }
  · rw [← hCustodian]
    exact hDesk.ledger.state?
  · rw [← hCustodian, Desk.insertAll_of_write hWrite]
    exact
      state?_of_books hDesk.ledger hDesk.vault _ _ _ _

/- The event of a rebalance explains the cash. -/
theorem eventsExplain_of_rebalance
    {poolId : Address}
    {force : Bool}
    (hRun : rebalance poolId force s ms = .ok effect) :
    (Instruction.rebalance poolId force).EventsExplain s
      (s.insertAll effect.writes) ms
      effect.receipt.events := by
  simp only [rebalance, Except.bind_eq_ok_iff, Prod.exists,
    Except.pure_eq_ok_iff, Fault.ofAction_eq_ok_iff,
    Fault.ofRule_eq_ok_iff,
    Ledger.balances_eq_ok_iff] at hRun
  rcases hRun with
    ⟨d, hLoad, _, -, _, hBooks, outcome, after, hMove, _,
      ⟨-, e, hEntry, rfl⟩, writes, hWrite, rfl⟩
  rcases isRead_of_callerDesk hLoad with ⟨hDesk, hNamed⟩
  exact
    ⟨d.manager.key, d.manager.value, d.ledger.value,
      after.ledger, e, outcome.amountInvested,
      outcome.amountDivested, hNamed,
      updated_of_write hDesk hBooks hWrite, hEntry, rfl,
      Manager.explained_of_rebalance hMove⟩

end Capital

namespace Relaying

/- Writing what was relayed updates the ledger. -/
private theorem updated_of_write
    {d : Desk}
    {after : Guarded Pool}
    {writes : List (Address × Account)}
    (hDesk : d.IsRead s)
    (hManager : d.expectManager = .ok ())
    (hWrite : d.write after = .ok writes) :
    LedgerUpdated d.manager.key d.manager.value d.ledger.value
      after.pool.ledger s (s.insertAll writes) := by
  have hCustodian :=
    Desk.custodian_of_expectManager hManager
  refine
    { manager := hDesk.manager.state?
      before := ?_
      after := ?_ }
  · rw [hCustodian]
    exact hDesk.ledger.state?
  · rw [hCustodian, Desk.insertAll_of_write hWrite]
    exact
      state?_of_books hDesk.ledger hDesk.vault _ _ _ _

/- The event of a relayed join explains the cash. -/
theorem eventsExplain_of_joinPool
    {poolId recipient : Address}
    {r : JoinRequest Address}
    (hRun :
      joinPool poolId recipient r s ms = .ok effect) :
    (Instruction.joinPool poolId recipient r).EventsExplain s
      (s.insertAll effect.writes) ms
      effect.receipt.events := by
  simp only [joinPool, Except.bind_eq_ok_iff, Prod.exists,
    Except.pure_eq_ok_iff,
    Fault.ofAction_eq_ok_iff] at hRun
  rcases hRun with
    ⟨d, hLoad, _, -, _, hManager, _, -, _, -, outcome, after,
      hJoin, writes, hWrite, rfl⟩
  rcases Loader.load_eq_ok_iff.mp hLoad with ⟨_, hTake⟩
  rcases isRead_of_take hTake with ⟨hDesk, hSender, hNamed⟩
  exact
    ⟨d.sender.key, d.manager.key, d.manager.value,
      d.ledger.value, after.pool.ledger,
      outcome.amountInvested, outcome.amountDivested, hSender,
      hNamed, updated_of_write hDesk hManager hWrite, rfl,
      Relay.explained_of_joinPool hJoin⟩

/- The event of a relayed exit explains the cash. -/
theorem eventsExplain_of_exitPool
    {poolId recipient : Address}
    {r : ExitRequest Address}
    (hRun :
      exitPool poolId recipient r s ms = .ok effect) :
    (Instruction.exitPool poolId recipient r).EventsExplain s
      (s.insertAll effect.writes) ms
      effect.receipt.events := by
  simp only [exitPool, Except.bind_eq_ok_iff, Prod.exists,
    Except.pure_eq_ok_iff,
    Fault.ofAction_eq_ok_iff] at hRun
  rcases hRun with
    ⟨d, hLoad, _, -, _, hManager, _, -, _, -, report, after,
      hExit, writes, hWrite, rfl⟩
  rcases Loader.load_eq_ok_iff.mp hLoad with ⟨_, hTake⟩
  rcases isRead_of_take hTake with ⟨hDesk, hSender, hNamed⟩
  rcases Relay.explained_of_exitPool hExit with
    ⟨hPulled, hExplained⟩
  exact
    ⟨d.sender.key, d.manager.key, d.manager.value,
      d.ledger.value, after.pool.ledger, report.pulled,
      report.rebalance.amountInvested,
      report.rebalance.amountDivested, hSender, hNamed,
      updated_of_write hDesk hManager hWrite, hPulled, rfl,
      hExplained⟩

end Relaying

------------------------------------------------------------
-- Calls
------------------------------------------------------------

namespace Program

/-
  In every store, the event of a successful rebalance, join or
  exit explains the cash of the ledger it updates, together
  with what was requested.
-/
theorem events_explain_cash
    {t : Store}
    {call : Call}
    {receipt : Receipt}
    (hRun : execute s call = .ok (receipt, t)) :
    call.instruction.EventsExplain s t call.metas
      receipt.events := by
  rcases call with ⟨programId, metas, i⟩
  rcases execute_eq_ok_iff.mp hRun with
    ⟨-, effect, hEffect, rfl, rfl⟩
  cases i with
  | rebalance poolId force =>
      exact Capital.eventsExplain_of_rebalance hEffect
  | joinPool poolId recipient r =>
      exact Relaying.eventsExplain_of_joinPool hEffect
  | exitPool poolId recipient r =>
      exact Relaying.eventsExplain_of_exitPool hEffect
  | _ => trivial

/-
  After the small run, an exit that names the mint twice and
  asks for more than the cash of 198.
-/
def lateExit : Call :=
  smallCall
    (.exitPool smallTerms.poolId smallTerms.token
      { assets := [smallTerms.token, smallTerms.token]
        minAmounts := [200, 100] })
    [.ofRelayer smallTerms.poolId, smallTerms.custodian,
      .ofManager smallTerms.poolId smallTerms.token,
      smallTerms.vault]

/- The late exit pulls 102 of 300, and then divests 48. -/
theorem events_explain_cash_lateExit :
    ∃ receipt t,
      execute (run smallStore smallCalls) lateExit =
          .ok (receipt, t) ∧
        receipt.events =
          [.poolExited smallTerms.poolId (smallKey 3)
            smallTerms.token 102 0 48] ∧
        lateExit.instruction.EventsExplain
          (run smallStore smallCalls) t lateExit.metas
          receipt.events := by
  have hEvents :
      ((execute (run smallStore smallCalls) lateExit).map
          fun result => result.1.events).toOption =
        some
          [.poolExited smallTerms.poolId (smallKey 3)
            smallTerms.token 102 0 48] := by
    decide +kernel
  cases hRun :
      execute (run smallStore smallCalls) lateExit with
  | error fault =>
      rw [hRun] at hEvents
      cases hEvents
  | ok result =>
      rcases result with ⟨receipt, t⟩
      rw [hRun] at hEvents
      exact
        ⟨receipt, t, rfl, Option.some.inj hEvents,
          events_explain_cash hRun⟩

end Program

end YieldManager

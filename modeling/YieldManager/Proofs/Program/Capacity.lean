import YieldManager.Proofs.Program.Change
import YieldManager.Proofs.Reward.Forwarding
import YieldManager.Proofs.Wire.Length

/-
  Tables that keep to their capacity.  A vault opens a
  holding, a gauge an accrual and a forwarder a total only
  where there is room for it, and nothing else that is done to
  them, or to the ledger of a manager, makes a table longer.

  Main declarations:
    * `Position.IsWithin`
    * `Manager.isWithin_of_rebalance`
    * `Operated.isWithin`
    * `RewardDesk.IsWithin`
    * `Manager.isWithin_of_claimRewards`
-/

------------------------------------------------------------
-- Tables of a Position
------------------------------------------------------------

namespace YieldManager

section Positions

variable {κ : Type}

/- Ledger and vault have no more lines than they may. -/
structure Position.IsWithin
    (p : Position κ (ShareVault κ)) : Prop where
  ledger : (State.ledger p.ledger).IsWithin
  vault : (State.shareVault p.vault).IsWithin

/- The same books have no more lines than they may, either. -/
theorem Ledger.SameBooks.isWithin
    {l l' : Ledger κ}
    (hBooks : l.SameBooks l')
    (hWithin : (State.ledger l).IsWithin) :
    (State.ledger l').IsWithin :=
  hBooks.length_entries.trans_le hWithin

/- Another ledger with the same books may take its place. -/
theorem Position.IsWithin.withLedger
    {p : Position κ (ShareVault κ)}
    {l : Ledger κ}
    (hWithin : p.IsWithin)
    (hBooks : p.ledger.SameBooks l) :
    Position.IsWithin { p with ledger := l } :=
  ⟨hBooks.isWithin hWithin.ledger, hWithin.vault⟩

variable [DecidableEq κ] [Zero κ]
variable {m : Manager κ}
variable {key poolId : κ}
variable {s t : Position κ (ShareVault κ)}

namespace Manager

/- An investment keeps to the capacity of the vault. -/
theorem isWithin_of_invest
    {amount shares : UInt64}
    (hWithin : s.IsWithin)
    (hRun : m.invest key poolId amount s = .ok shares t) :
    t.IsWithin := by
  rcases invest_eq_ok_iff.mp hRun with
    ⟨e, cash, managed, value, -, -, -, hMeasured, -, hLedger⟩
  rcases YieldVault.depositMeasured_eq_ok_iff.mp hMeasured
    with ⟨⟨claimed, hDeposit⟩, -, -⟩
  rcases ShareVault.deposited_of_deposit hDeposit with
    ⟨fee, net, -, -, hDeposited⟩
  refine
    { ledger := ?_
      vault := hDeposited.reassigned.capacity hWithin.vault }
  rw [← hLedger]
  exact (Ledger.SameBooks.setEntry _ _).isWithin hWithin.ledger

/- A divestment keeps to the capacity of the vault. -/
theorem isWithin_of_divest
    {amount received : UInt64}
    (hWithin : s.IsWithin)
    (hRun : m.divest key poolId amount s = .ok received t) :
    t.IsWithin := by
  rcases divest_eq_ok_iff.mp hRun with
    ⟨e, before, cash, value, -, -, -, hMeasured, -, -,
      hLedger⟩
  rcases YieldVault.withdrawMeasured_eq_ok_iff.mp hMeasured
    with ⟨hWithdraw, -, -⟩
  rcases ShareVault.withdrawn_of_withdraw hWithdraw with
    ⟨-, shares, -, hWithdrawn⟩
  refine
    { ledger := ?_
      vault := hWithdrawn.reassigned.capacity hWithin.vault }
  rw [← hLedger]
  exact (Ledger.SameBooks.setEntry _ _).isWithin hWithin.ledger

/- A rebalance moves nothing, or invests, or divests. -/
theorem isWithin_of_rebalance
    {force : Bool}
    {outcome : Outcome}
    (hWithin : s.IsWithin)
    (hRun :
      m.rebalance key poolId force s = .ok outcome t) :
    t.IsWithin := by
  rcases rebalance_eq_ok_iff.mp hRun with
    ⟨-, -, held, value, total, band, -, -, -, -, hMove⟩
  split at hMove
  · exact hMove.2 ▸ hWithin
  · rcases moveTo_eq_ok_iff.mp hMove with
      ⟨-, shares, hInvest, -⟩ |
        ⟨-, received, hDivest, -⟩ | ⟨-, rfl, -⟩
    · exact isWithin_of_invest hWithin hInvest
    · exact isWithin_of_divest hWithin hDivest
    · exact hWithin

/- A divestment on request keeps to the capacity. -/
theorem isWithin_of_capitalOut
    {caller : κ}
    {amount received : UInt64}
    (hWithin : s.IsWithin)
    (hRun :
      m.capitalOut caller key poolId amount s =
        .ok received t) :
    t.IsWithin :=
  isWithin_of_divest hWithin
    (capitalOut_eq_ok_iff.mp hRun).2.2.2

end Manager

end Positions

/- Every operation of a manager keeps to the capacities. -/
theorem Operated.isWithin
    {m : Manager Address}
    {key : Address}
    {flow : Address → Int}
    {p q : Position Address (ShareVault Address)}
    (hOperated : Operated m key flow p q)
    (hWithin : p.IsWithin) :
    q.IsWithin := by
  cases hOperated with
  | rebalanced hRun =>
      exact Manager.isWithin_of_rebalance hWithin hRun
  | capitalIn hRun =>
      exact
        Manager.isWithin_of_invest hWithin
          (Manager.capitalIn_eq_ok_iff.mp hRun).2.2.2
  | capitalOut hRun =>
      exact Manager.isWithin_of_capitalOut hWithin hRun
  | reported hRun =>
      rcases Manager.reportBalance_eq_ok_iff.mp hRun with
        ⟨-, -, hVault, -, e, -, hLedger⟩
      refine
        { ledger := ?_, vault := hVault ▸ hWithin.vault }
      rw [← hLedger]
      exact
        (Ledger.SameBooks.setEntry _ _).isWithin
          hWithin.ledger
  | joined hManager hKey hRun =>
      rcases Relay.joinPool_eq_ok_iff.mp hRun with
        ⟨-, l, t, hJoin, hMove, rfl⟩
      rcases Ledger.join_eq_ok_iff.mp hJoin with
        ⟨-, -, -, hCredits⟩
      have hBooks := (Ledger.paid_of_credits hCredits).books
      exact
        Manager.isWithin_of_rebalance
          (hWithin.withLedger hBooks) hMove
  | exited hManager hKey hRun =>
      rcases Relay.exitPool_eq_ok_iff.mp hRun with
        ⟨-, short, u, t, l, -, hPull, hExit, hMove, rfl⟩
      have hPulled : u.IsWithin := by
        rcases Relay.pull_cases hPull with
          hOut | ⟨-, -, rfl⟩
        · exact Manager.isWithin_of_capitalOut hWithin hOut
        · exact hWithin
      rcases Ledger.exit_eq_ok_iff.mp hExit with
        ⟨-, -, -, hDebits⟩
      have hBooks := (Ledger.paid_of_debits hDebits).books
      exact
        Manager.isWithin_of_rebalance
          (hPulled.withLedger hBooks) hMove

------------------------------------------------------------
-- Tables of Rewards
------------------------------------------------------------

section Rewards

variable {κ : Type} [DecidableEq κ]

/- Accruing keeps to the capacity of a gauge. -/
theorem Gauge.isWithin_of_accrue
    {holder : κ}
    {amount : UInt64}
    {g h : Gauge κ}
    {u : Unit}
    (hWithin : (State.gauge g).IsWithin)
    (hRun : accrue holder amount g = .ok u h) :
    (State.gauge h).IsWithin := by
  have hLength :
      ∀ g : Gauge κ, g.holders.length = g.accruals.length :=
    fun _ => List.length_map _
  change h.accruals.length ≤ capacity
  rw [← hLength]
  rcases holders_of_accrue hRun with
    ⟨-, hSame⟩ | ⟨-, hRoom, hAdded⟩
  · rw [hSame, hLength]
    exact hWithin
  · rw [hAdded, List.length_append]
    exact hRoom

/- A claim makes no gauge longer. -/
theorem Gauge.isWithin_of_claim
    {holder : κ}
    {rewards : List (TokenAmount κ)}
    {g h : Gauge κ}
    (hWithin : (State.gauge g).IsWithin)
    (hRun : claim holder g = .ok rewards h) :
    (State.gauge h).IsWithin := by
  have hLength := congrArg List.length (holders_of_claim hRun)
  simp only [holders, List.length_map] at hLength
  exact hLength.trans_le hWithin

/- Receiving keeps to the capacity of a forwarder. -/
theorem Forwarder.isWithin_of_receiveAll
    {rewards : List (TokenAmount κ)}
    {f f' : Forwarder κ}
    {u : Unit}
    (hWithin : (State.forwarder f).IsWithin)
    (hRun : receiveAll rewards f = .ok u f') :
    (State.forwarder f').IsWithin := by
  have hLength :
      ∀ f : Forwarder κ, f.mints.length = f.received.length :=
    fun _ => List.length_map _
  have hRoom : f.mints.length ≤ capacity := by
    rw [hLength]
    exact hWithin
  have hAfter := room_of_receiveAll hRoom hRun
  rwa [hLength] at hAfter

/- Gauge and sink have no more lines than they may. -/
structure RewardDesk.IsWithin
    (d : RewardDesk (Gauge κ) (Forwarder κ)) : Prop where
  gauge :
    ∀ g, d.gauge = some g → (State.gauge g).IsWithin
  sink : (State.forwarder d.sink).IsWithin

/- A claim of a manager keeps to the capacities. -/
theorem Manager.isWithin_of_claimRewards
    {m : Manager κ}
    {key poolId : κ}
    {d d' : RewardDesk (Gauge κ) (Forwarder κ)}
    {rewards : List (TokenAmount κ)}
    (hWithin : d.IsWithin)
    (hRun : m.claimRewards key poolId d = .ok rewards d') :
    d'.IsWithin := by
  rcases claimRewards_cases hRun with
    rfl | ⟨gauge, g, f, hGauge, hForward, rfl⟩
  · exact hWithin
  · rcases claimAndForward_eq_ok_iff.mp hForward with
      ⟨claimed, hClaim, -, hReceive⟩
    refine
      { gauge := ?_
        sink :=
          Forwarder.isWithin_of_receiveAll hWithin.sink
            hReceive }
    intro h hSame
    cases hSame
    exact
      Gauge.isWithin_of_claim (hWithin.gauge gauge hGauge)
        hClaim

end Rewards

end YieldManager

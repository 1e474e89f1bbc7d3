import YieldManager.Proofs.Manager.Untrusted
import YieldManager.Proofs.Relay.Calls

/-
  How cash flows.  The cash of a ledger is read token by token
  and changes by a flow, and the flows of steps in a row add
  up: requests flow as they are written, and each move of a
  manager is one flow of its own token.  So the amounts that a
  rebalance or a relayed call answers, together with what was
  requested, explain the cash that it leaves.

  Main declarations:
    * `Ledger.cash`
    * `Ledger.Flows`
    * `Ledger.Paid.flows`
    * `Ledger.Rewritten.flows`
    * `Manager.flows_of_rebalance`
    * `Relay.flows_of_pull`
    * `Ledger.Explained`
    * `Manager.explained_of_rebalance`
    * `Relay.explained_of_joinPool`
    * `Relay.explained_of_exitPool`
-/

------------------------------------------------------------
-- Cash and Its Flow
------------------------------------------------------------

namespace YieldManager

namespace Ledger

variable {κ : Type} [DecidableEq κ]
variable {l l' l'' : Ledger κ}
variable {mint : κ}

/- What a ledger has of a token in cash. -/
def cash
    (l : Ledger κ)
    (mint : κ) : Nat :=
  (Table.find? Entry.mint mint l.entries).elim 0
    fun e => e.cash.toNat

/- The cash of a token stands in its entry. -/
theorem cash_of_entry
    {e : Entry κ}
    (hEntry : l.entry mint = .ok e) :
    l.cash mint = e.cash.toNat := by
  unfold cash
  rw [entry_eq_ok_iff.mp hEntry, Option.elim_some]

/- There is no cash of a token that is not listed. -/
theorem cash_eq_zero
    (hNot : mint ∉ l.mints) :
    l.cash mint = 0 := by
  unfold cash
  rw [Table.find?_eq_none_iff.mpr hNot, Option.elim_none]

/- The cash of every token changes by what flows. -/
def Flows
    (flow : κ → Int)
    (l l' : Ledger κ) : Prop :=
  ∀ mint, (l'.cash mint : Int) = l.cash mint + flow mint

/- Flows in a row add up. -/
theorem Flows.trans
    {first second total : κ → Int}
    (hFirst : Flows first l l')
    (hSecond : Flows second l' l'')
    (hTotal : ∀ mint, total mint = first mint + second mint) :
    Flows total l l'' := by
  intro mint
  have hOne := hFirst mint
  have hTwo := hSecond mint
  have hSum := hTotal mint
  omega

/- What is paid flows, and unlisted tokens are not paid. -/
theorem Paid.flows
    {flow : κ → Int}
    (hPaid : Paid flow l l') :
    Flows flow l l' := by
  intro mint
  by_cases hListed : mint ∈ l.mints
  · rcases exists_entry hListed with ⟨e, hEntry⟩
    rcases hPaid.entries mint e hEntry with
      ⟨cash, hCash, hAfter⟩
    rw [cash_of_entry hEntry, cash_of_entry hAfter]
    exact hCash
  · have hStill : mint ∉ l'.mints := by
      rw [hPaid.books.mints]
      exact hListed
    have hHeld := hPaid.held mint
    rw [held_eq_zero hListed, held_eq_zero hStill] at hHeld
    rw [cash_eq_zero hListed, cash_eq_zero hStill]
    exact hHeld

/- A rewritten entry leaves the entries of others alone. -/
private theorem find?_of_rewritten
    {e : Entry κ}
    {cash managed : UInt64}
    {token : κ}
    (hRewritten : Rewritten mint e cash managed l l')
    (hOther : token ≠ mint) :
    Table.find? Entry.mint token l'.entries =
      Table.find? Entry.mint token l.entries := by
  rcases hRewritten.others with
    ⟨before, after, hBefore, hAfter⟩
  have hOwn : ¬ e.mint = token := by
    rw [mint_of_entry hRewritten.found]
    exact hOther.symm
  unfold Table.find?
  rw [hBefore, hAfter]
  simp [List.find?_append, hOwn]

/- New cash in one entry is a flow of its token. -/
theorem Rewritten.flows
    {e : Entry κ}
    {cash managed : UInt64}
    {change : Int}
    (hRewritten : Rewritten mint e cash managed l l')
    (hCash : (cash.toNat : Int) = e.cash.toNat + change) :
    Flows (fun token => if token = mint then change else 0)
      l l' := by
  intro token
  beta_reduce
  by_cases hOwn : token = mint
  · rw [hOwn, if_pos rfl, cash_of_entry hRewritten.found,
      cash_of_entry hRewritten.rewritten]
    exact hCash
  · rw [if_neg hOwn, Int.add_zero]
    unfold Ledger.cash
    rw [find?_of_rewritten hRewritten hOwn]

end Ledger

------------------------------------------------------------
-- Moves
------------------------------------------------------------

/- An outcome never invests and divests at once. -/
theorem Outcome.amounts_eq_zero
    (outcome : Outcome) :
    outcome.amountInvested = 0 ∨
      outcome.amountDivested = 0 := by
  cases outcome with
  | divested amount => exact .inl rfl
  | _ => exact .inr rfl

namespace Manager

variable {κ V : Type} [DecidableEq κ] [YieldVault κ V]
variable {m : Manager κ}
variable {key : κ}

/- What a rebalance answers is what flows, over any vault. -/
private theorem flows_of_accounted
    {s t : Position κ V}
    {outcome : Outcome}
    (hAccounted : Accounted m key s t outcome) :
    Ledger.Flows
      (fun mint =>
        if mint = m.token then
          (outcome.amountDivested.toNat : Int) -
            outcome.amountInvested.toNat
        else 0)
      s.ledger t.ledger := by
  cases outcome with
  | skipped =>
      cases hAccounted
      intro mint
      simp [Outcome.amountDivested, Outcome.amountInvested]
  | balanced =>
      cases hAccounted
      intro mint
      simp [Outcome.amountDivested, Outcome.amountInvested]
  | invested amount shares =>
      rcases hAccounted.books with
        ⟨e, cash, value, -, hCash, hRewritten⟩
      apply hRewritten.flows
      simp only [Outcome.amountDivested,
        Outcome.amountInvested, UInt64.toNat_zero]
      omega
  | divested amount =>
      rcases hAccounted with ⟨received, hDivested⟩
      rcases hDivested.books with
        ⟨e, cash, value, -, hCash, hRewritten⟩
      apply hRewritten.flows
      simp only [Outcome.amountDivested,
        Outcome.amountInvested, UInt64.toNat_zero]
      omega

variable [Zero κ]

/- A rebalance moves what it answers, and only its token. -/
theorem flows_of_rebalance
    {poolId : κ}
    {force : Bool}
    {s t : Position κ V}
    {outcome : Outcome}
    (hRun :
      m.rebalance key poolId force s = .ok outcome t) :
    Ledger.Flows
      (fun mint =>
        if mint = m.token then
          (outcome.amountDivested.toNat : Int) -
            outcome.amountInvested.toNat
        else 0)
      s.ledger t.ledger :=
  flows_of_accounted (accounted_of_rebalance hRun)

end Manager

/-
  The pull of an exit answers the shortfall to the last unit,
  and lets it flow into cash.
-/
theorem Relay.flows_of_pull
    {κ : Type} [DecidableEq κ] [Zero κ]
    {m : Manager κ}
    {relayer key poolId : κ}
    {s t : Position κ (ShareVault κ)}
    {short pulled : UInt64}
    (hPull :
      if 0 < short then
        m.capitalOut relayer key poolId short s =
          .ok pulled t
      else
        pulled = 0 ∧ s = t) :
    pulled = short ∧
      Ledger.Flows
        (fun mint =>
          if mint = m.token then (short.toNat : Int) else 0)
        s.ledger t.ledger := by
  rcases pull_cases hPull with hOut | ⟨rfl, rfl, rfl⟩
  · rcases Manager.capitalOut_eq_ok_iff.mp hOut with
      ⟨-, -, -, hDivest⟩
    have hDivested := Manager.divested_of_divest hDivest
    rcases hDivested.books with
      ⟨e, cash, value, -, hCash, hRewritten⟩
    -- The share vault delivers what it is asked for.
    have hSame :=
      (ShareVault.withdrawn_of_withdraw
        hDivested.delivered).1
    exact ⟨hSame, hRewritten.flows (by exact_mod_cast hCash)⟩
  · refine ⟨rfl, ?_⟩
    intro mint
    simp

------------------------------------------------------------
-- Explanations
------------------------------------------------------------

/-
  What was requested and what an event tells explain the cash
  that an instruction leaves: that of the manager's token has
  been pulled into, invested from and divested into, and that
  of all others is as requested.
-/
structure Ledger.Explained
    {κ : Type} [DecidableEq κ]
    (token : κ)
    (requested : κ → Int)
    (pulled invested divested : UInt64)
    (l l' : Ledger κ) : Prop where
  listed : token ∈ l.mints
  own :
    (l'.cash token : Int) =
      l.cash token + requested token + pulled.toNat -
        invested.toNat + divested.toNat
  others :
    ∀ mint, mint ≠ token →
      (l'.cash mint : Int) = l.cash mint + requested mint
  oneWay : invested = 0 ∨ divested = 0

/- Flows are explained by a request and by one outcome. -/
private theorem Ledger.explained_of_flows
    {κ : Type} [DecidableEq κ]
    {token : κ}
    {requested : κ → Int}
    {pulled : UInt64}
    {outcome : Outcome}
    {l l' : Ledger κ}
    (hListed : token ∈ l.mints)
    (hFlows :
      Flows
        (fun mint =>
          requested mint +
            if mint = token then
              (pulled.toNat : Int) +
                (outcome.amountDivested.toNat -
                  outcome.amountInvested.toNat)
            else 0)
        l l') :
    Explained token requested pulled outcome.amountInvested
      outcome.amountDivested l l' := by
  refine
    { listed := hListed
      own := ?_
      others := ?_
      oneWay := outcome.amounts_eq_zero }
  · have hOwn := hFlows token
    simp only [if_true] at hOwn
    omega
  · intro mint hOther
    have hMint := hFlows mint
    simp only [if_neg hOther, Int.add_zero] at hMint
    exact hMint

/- A token that is rebalanced is listed. -/
private theorem Manager.listed_of_rebalance
    {κ V : Type} [DecidableEq κ] [Zero κ] [YieldVault κ V]
    {m : Manager κ}
    {key poolId : κ}
    {force : Bool}
    {s t : Position κ V}
    {outcome : Outcome}
    (hRun :
      m.rebalance key poolId force s = .ok outcome t) :
    m.token ∈ s.ledger.mints := by
  rcases Manager.rebalance_eq_ok_iff.mp hRun with
    ⟨-, -, held, _, _, _, hHeld, -⟩
  rcases Ledger.balances_eq_ok_iff.mp hHeld with
    ⟨-, e, hEntry, -⟩
  exact Ledger.mem_mints_of_entry hEntry

/- A rebalance is explained by what it answers. -/
theorem Manager.explained_of_rebalance
    {κ V : Type} [DecidableEq κ] [Zero κ] [YieldVault κ V]
    {m : Manager κ}
    {key poolId : κ}
    {force : Bool}
    {s t : Position κ V}
    {outcome : Outcome}
    (hRun :
      m.rebalance key poolId force s = .ok outcome t) :
    Ledger.Explained m.token (fun _ => 0) 0
      outcome.amountInvested outcome.amountDivested
      s.ledger t.ledger := by
  apply
    Ledger.explained_of_flows
      (Manager.listed_of_rebalance hRun)
  intro mint
  have hMoved := Manager.flows_of_rebalance hRun mint
  simpa using hMoved

namespace Relay

variable {κ G F : Type} [DecidableEq κ] [Zero κ]
variable [RewardGauge κ G] [RewardSink κ F]
variable {relayer poolId : κ}

/- A relayed join is explained by its request and answer. -/
theorem explained_of_joinPool
    {V : Type} [YieldVault κ V]
    {g h : Guarded (ManagedPool κ V G F)}
    {r : JoinRequest κ}
    {outcome : Outcome}
    (hRun : joinPool relayer poolId r g = .ok outcome h) :
    Ledger.Explained g.pool.manager.token
      (fun mint =>
        (Request.total (r.assets.zip r.maxAmounts) mint : Int))
      0 outcome.amountInvested outcome.amountDivested
      g.pool.ledger h.pool.ledger := by
  rcases joinPool_eq_ok_iff.mp hRun with
    ⟨-, l, t, hJoin, hMove, rfl⟩
  rcases Ledger.join_eq_ok_iff.mp hJoin with
    ⟨-, -, -, hCredits⟩
  have hPaid := Ledger.paid_of_credits hCredits
  have hListed := Manager.listed_of_rebalance hMove
  rw [hPaid.books.mints] at hListed
  apply Ledger.explained_of_flows hListed
  apply
    hPaid.flows.trans (Manager.flows_of_rebalance hMove)
  intro mint
  simp

/-
  A relayed exit is explained by its request and answer, and
  it pulls what cash does not cover.
-/
theorem explained_of_exitPool
    {g h : Guarded (ManagedPool κ (ShareVault κ) G F)}
    {r : ExitRequest κ}
    {report : ExitReport}
    (hRun : exitPool relayer poolId r g = .ok report h) :
    report.pulled.toNat =
        Request.total (r.assets.zip r.minAmounts)
            g.pool.manager.token -
          g.pool.ledger.cash g.pool.manager.token ∧
      Ledger.Explained g.pool.manager.token
        (fun mint =>
          -(Request.total (r.assets.zip r.minAmounts) mint :
            Int))
        report.pulled report.rebalance.amountInvested
        report.rebalance.amountDivested
        g.pool.ledger h.pool.ledger := by
  rcases exitPool_eq_ok_iff.mp hRun with
    ⟨-, short, s, t, l, hShort, hPull, hExit, hMove, rfl⟩
  rcases ManagedPool.shortfall_eq_ok_iff.mp hShort with
    ⟨-, requested, e, hRequested, hEntry, hDiff⟩
  have hTotal :=
    (ExitRequest.amountOut_eq_ok_iff.mp hRequested).2
  rcases Ledger.exit_eq_ok_iff.mp hExit with
    ⟨-, -, -, hDebits⟩
  rcases flows_of_pull hPull with ⟨hPulled, hPullFlows⟩
  rw [hPulled]
  constructor
  · rw [hDiff, hTotal, Ledger.cash_of_entry hEntry]
  apply
    Ledger.explained_of_flows
      (Ledger.mem_mints_of_entry hEntry)
  -- Pull, debits and rebalance flow in this order.
  apply
    (hPullFlows.trans (Ledger.paid_of_debits hDebits).flows
      fun _ => rfl).trans
      (Manager.flows_of_rebalance hMove)
  intro mint
  split <;> omega

end Relay

end YieldManager

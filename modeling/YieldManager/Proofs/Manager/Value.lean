import YieldManager.Proofs.Manager.Moves
import YieldManager.Proofs.Vault.Price

/-
  What one move of capital costs a pool, at any share price.
  A pool owns its cash and the value of its manager's shares;
  a move changes both, and their sum falls by the fee and by
  what the vault rounds off, and by nothing else.

  Main declarations:
    * `Balances.sum`
    * `Manager.poolBalances_of_managedEntry`
    * `Manager.Moves`
    * `Manager.KeepsValue`
    * `Manager.keepsValue_of_invest`
    * `Manager.keepsValue_of_divest`
    * `Manager.keepsValue_of_moves`
-/

------------------------------------------------------------
-- What a Pool Owns
------------------------------------------------------------

namespace YieldManager

/- Cash and managed balance together, without a bound. -/
def Balances.sum (b : Balances) : Nat :=
  b.cash.toNat + b.managed.toNat

namespace Manager

variable {κ V : Type} [DecidableEq κ] [YieldVault κ V]

/-
  A pool's balances are the cash in its ledger and the value
  in its vault.
-/
theorem poolBalances_eq_ok_iff
    {m : Manager κ}
    {key poolId : κ}
    {s : Position κ V}
    {held : Balances} :
    m.poolBalances key poolId s = .ok held ↔
      m.poolId = poolId ∧ s.ledger.poolId = poolId ∧
        (∃ e,
          s.ledger.entry m.token = .ok e ∧
            e.cash = held.cash) ∧
        YieldVault.worth s.vault key = .ok held.managed := by
  simp only [poolBalances, aum, Except.bind_eq_ok_iff,
    Except.pure_eq_ok_iff, ensurePool_eq_ok_iff,
    Ledger.balances_eq_ok_iff]
  constructor
  · intro hSteps
    rcases hSteps with
      ⟨-, hPool, _, ⟨hBooks, e, hEntry, rfl⟩, value, hValue,
        rfl⟩
    exact ⟨hPool, hBooks, ⟨e, hEntry, rfl⟩, hValue⟩
  · intro hSteps
    rcases hSteps with
      ⟨hPool, hBooks, ⟨e, hEntry, hCash⟩, hValue⟩
    refine
      ⟨(), hPool, _, ⟨hBooks, e, hEntry, rfl⟩, held.managed,
        hValue, ?_⟩
    rw [hCash]

/- The balances of a pool are told if both sides are. -/
theorem exists_poolBalances
    {m : Manager κ}
    {key poolId : κ}
    {s : Position κ V}
    {books : Balances}
    {value : UInt64}
    (hPool : m.poolId = poolId)
    (hBooks : s.ledger.balances poolId m.token = .ok books)
    (hValue : aum key s.vault = .ok value) :
    ∃ held,
      m.poolBalances key poolId s = .ok held ∧
        held.cash = books.cash ∧ held.managed = value := by
  rcases Ledger.balances_eq_ok_iff.mp hBooks with
    ⟨hLedger, e, hEntry, rfl⟩
  exact
    ⟨{ cash := e.cash, managed := value },
      poolBalances_eq_ok_iff.mpr
        ⟨hPool, hLedger, ⟨e, hEntry, rfl⟩, hValue⟩,
      rfl, rfl⟩

variable [Zero κ]

/- An entry opened to its manager tells the cash. -/
theorem poolBalances_of_managedEntry
    {m : Manager κ}
    {key poolId : κ}
    {s : Position κ V}
    {e : Entry κ}
    {value : UInt64}
    (hPool : m.poolId = poolId)
    (hEntry :
      s.ledger.managedEntry key poolId m.token = .ok e)
    (hValue : aum key s.vault = .ok value) :
    m.poolBalances key poolId s =
      .ok { cash := e.cash, managed := value } := by
  rcases Ledger.managedEntry_eq_ok_iff.mp hEntry with
    ⟨hBooks, hFound, -, -⟩
  exact
    poolBalances_eq_ok_iff.mpr
      ⟨hPool, hBooks, ⟨e, hFound, rfl⟩, hValue⟩

------------------------------------------------------------
-- Moves
------------------------------------------------------------

/- The operations of a manager that move capital. -/
inductive Moves
    (m : Manager κ)
    (key poolId : κ)
    (s t : Position κ V) : Prop where
  | invested
      {force : Bool}
      {amount shares : UInt64}
      (hRun :
        m.rebalance key poolId force s =
          .ok (.invested amount shares) t)
  | divested
      {force : Bool}
      {amount : UInt64}
      (hRun :
        m.rebalance key poolId force s =
          .ok (.divested amount) t)
  | capitalIn
      {caller : κ}
      {amount shares : UInt64}
      (hRun :
        m.capitalIn caller key poolId amount s =
          .ok shares t)
  | capitalOut
      {caller : κ}
      {amount received : UInt64}
      (hRun :
        m.capitalOut caller key poolId amount s =
          .ok received t)

variable {m : Manager κ} {key poolId : κ}

/- A rebalance that does something invests or divests. -/
private theorem move_of_rebalance
    {force : Bool}
    {s t : Position κ V}
    {outcome : Outcome}
    (hRun : m.rebalance key poolId force s = .ok outcome t)
    (hActs : outcome ≠ .skipped)
    (hShifts : outcome ≠ .balanced) :
    m.poolId = poolId ∧
      ∃ amount answer,
        m.invest key poolId amount s = .ok answer t ∨
          m.divest key poolId amount s = .ok answer t := by
  rcases rebalance_eq_ok_iff.mp hRun with
    ⟨hPool, -, _, _, _, _, -, -, -, -, hMove⟩
  refine ⟨hPool, ?_⟩
  split at hMove
  · exact absurd hMove.1 hActs
  · rcases moveTo_eq_ok_iff.mp hMove with
      ⟨-, shares, hInvest, -⟩ | ⟨-, received, hDivest, -⟩ |
        ⟨-, -, hBalanced⟩
    · exact ⟨_, _, .inl hInvest⟩
    · exact ⟨_, _, .inr hDivest⟩
    · exact absurd hBalanced hShifts

/- Every move is an investment or a divestment. -/
theorem Moves.invest_or_divest
    {s t : Position κ V}
    (hMoves : m.Moves key poolId s t) :
    m.poolId = poolId ∧
      ∃ amount answer,
        m.invest key poolId amount s = .ok answer t ∨
          m.divest key poolId amount s = .ok answer t := by
  cases hMoves with
  | invested hRun =>
      exact move_of_rebalance hRun (by simp) (by simp)
  | divested hRun =>
      exact move_of_rebalance hRun (by simp) (by simp)
  | capitalIn hRun =>
      rcases capitalIn_eq_ok_iff.mp hRun with
        ⟨-, hPool, -, hInvest⟩
      exact ⟨hPool, _, _, .inl hInvest⟩
  | capitalOut hRun =>
      rcases capitalOut_eq_ok_iff.mp hRun with
        ⟨-, hPool, -, hDivest⟩
      exact ⟨hPool, _, _, .inr hDivest⟩

------------------------------------------------------------
-- The Cost of a Move
------------------------------------------------------------

variable {s t : Position κ (ShareVault κ)}

/-
  From one position to another, a pool pays the fee that the
  vault sets aside, and loses to rounding no more than the
  price before allows.
-/
def KeepsValue
    (m : Manager κ)
    (key poolId : κ)
    (s t : Position κ (ShareVault κ)) : Prop :=
  ∃ (before after : Balances) (fee : UInt64),
    m.poolBalances key poolId s = .ok before ∧
      m.poolBalances key poolId t = .ok after ∧
      t.vault.fees.toNat = s.vault.fees.toNat + fee.toNat ∧
      LossBound s.vault.supply.toNat s.vault.assets.toNat
        (before.sum - after.sum) fee.toNat

/-
  A rewritten entry and the value on both sides of it tell
  what the pool owned before and after.
-/
private theorem keepsValue_of_setEntry
    {e : Entry κ}
    {cash before after fee : UInt64}
    (hPool : m.poolId = poolId)
    (hEntry :
      s.ledger.managedEntry key poolId m.token = .ok e)
    (hBooks :
      s.ledger.setEntry
          { e with cash := cash, managed := after } =
        t.ledger)
    (hBefore : YieldVault.worth s.vault key = .ok before)
    (hAfter : YieldVault.worth t.vault key = .ok after)
    (hFees :
      t.vault.fees.toNat = s.vault.fees.toNat + fee.toNat)
    (hBound :
      LossBound s.vault.supply.toNat s.vault.assets.toNat
        (e.cash.toNat + before.toNat -
          (cash.toNat + after.toNat)) fee.toNat) :
    m.KeepsValue key poolId s t := by
  rcases Ledger.managedEntry_eq_ok_iff.mp hEntry with
    ⟨hLedger, hFound, -, -⟩
  have hMint : e.mint = m.token :=
    Ledger.mint_of_entry hFound
  have hRewritten :=
    Ledger.entry_setEntry_self
      { e with cash := cash, managed := after } hFound hMint
  rw [hBooks] at hRewritten
  refine
    ⟨{ cash := e.cash, managed := before },
      { cash := cash, managed := after }, fee,
      poolBalances_eq_ok_iff.mpr
        ⟨hPool, hLedger, ⟨e, hFound, rfl⟩, hBefore⟩,
      poolBalances_eq_ok_iff.mpr
        ⟨hPool, hBooks ▸ hLedger, ⟨_, hRewritten, rfl⟩,
          hAfter⟩,
      hFees, ?_⟩
  simp only [Balances.sum]
  push_cast
  exact hBound

/- An investment costs what the deposit does. -/
theorem keepsValue_of_invest
    {amount shares : UInt64}
    (hPool : m.poolId = poolId)
    (hVault : s.vault.IsConsistent)
    (hInvest :
      m.invest key poolId amount s = .ok shares t) :
    m.KeepsValue key poolId s t := by
  rcases invest_eq_ok_iff.mp hInvest with
    ⟨e, cash, managed, after, hEntry, hCash, -, hMeasured,
      hAfter, hBooks⟩
  rcases YieldVault.depositMeasured_eq_ok_iff.mp hMeasured
    with ⟨⟨claimed, hDeposit⟩, -, -⟩
  rcases hVault.exists_worth key with ⟨before, hBefore⟩
  rcases ShareVault.lossBound_of_deposit hVault hDeposit
      hBefore hAfter with
    ⟨fee, hFees, hBound⟩
  have hLoss :
      (e.cash.toNat : Int) + before.toNat -
          (cash.toNat + after.toNat) =
        before.toNat + amount.toNat - after.toNat := by
    omega
  rw [← hLoss] at hBound
  exact
    keepsValue_of_setEntry hPool hEntry hBooks hBefore hAfter
      hFees hBound

/- A divestment costs what the withdrawal does. -/
theorem keepsValue_of_divest
    {amount received : UInt64}
    (hPool : m.poolId = poolId)
    (hVault : s.vault.IsConsistent)
    (hDivest :
      m.divest key poolId amount s = .ok received t) :
    m.KeepsValue key poolId s t := by
  rcases divest_eq_ok_iff.mp hDivest with
    ⟨e, before, cash, after, hEntry, hBefore, -, hMeasured,
      hCash, hAfter, hBooks⟩
  rcases YieldVault.withdrawMeasured_eq_ok_iff.mp hMeasured
    with ⟨hWithdraw, -, -⟩
  rcases ShareVault.lossBound_of_withdraw hVault hWithdraw
      hBefore hAfter with
    ⟨hFees, hBound⟩
  have hLoss :
      (e.cash.toNat : Int) + before.toNat -
          (cash.toNat + after.toNat) =
        before.toNat - amount.toNat - after.toNat := by
    omega
  rw [← hLoss] at hBound
  -- A withdrawal leaves the fees alone: the fee is zero.
  have hNoFee :
      t.vault.fees.toNat =
        s.vault.fees.toNat + (0 : UInt64).toNat :=
    congrArg UInt64.toNat hFees
  exact
    keepsValue_of_setEntry hPool hEntry hBooks hBefore hAfter
      hNoFee hBound

/-
  Over a vault whose supply counts its owners' shares, no
  move creates value, and beyond the fee it costs less than a
  share's worth and one unit.
-/
theorem keepsValue_of_moves
    (hVault : s.vault.IsConsistent)
    (hMoves : m.Moves key poolId s t) :
    m.KeepsValue key poolId s t := by
  rcases hMoves.invest_or_divest with
    ⟨hPool, amount, answer, hInvest | hDivest⟩
  · exact keepsValue_of_invest hPool hVault hInvest
  · exact keepsValue_of_divest hPool hVault hDivest

/- A live manager of a pool, bound to a vault. -/
def dearManager : Manager Nat where
  poolId := 1
  token := 2
  custodian := 3
  vault := 4
  forwarder := 5
  gauge := none
  rebalancer := 6
  authority := 7
  targets := Targets.none
  live := true
  bump := 0

/- A vault whose shares cost 1.5 each, with two owners. -/
def dearPosition : Position Nat (ShareVault Nat) where
  ledger :=
    { poolId := 1, authority := 7, relayer := 6
      entries :=
        [{ mint := 2, cash := 500, managed := 18
           manager := 8 }]
      bump := 0 }
  vault :=
    { asset := 2, authority := 7, assets := 30, supply := 20
      feeBps := 100, fees := 4
      holdings :=
        [{ owner := 8, shares := 12 },
         { owner := 9, shares := 8 }]
      bump := 0 }

/-
  Of 250 the vault sets 2 aside; 248 buy 165 shares, and a
  third of a share is lost to rounding.
-/
theorem keepsValue_dearPosition :
    ∃ t,
      dearManager.capitalIn 6 8 1 250 dearPosition =
          .ok 165 t ∧
        dearManager.KeepsValue 8 1 dearPosition t := by
  have hVault : dearPosition.vault.IsConsistent :=
    ⟨by decide, by decide⟩
  have hAnswer :
      ((dearManager.capitalIn 6 8 1 250).perform
        dearPosition).1 = .ok 165 := by
    decide +kernel
  cases hRun : dearManager.capitalIn 6 8 1 250 dearPosition with
  | ok shares t =>
      simp only [Action.perform, hRun, Except.ok.injEq]
        at hAnswer
      subst hAnswer
      exact
        ⟨t, rfl, keepsValue_of_moves hVault (.capitalIn hRun)⟩
  | error e t => simp [Action.perform, hRun] at hAnswer

end Manager

end YieldManager

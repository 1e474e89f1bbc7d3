import YieldManager.Proofs.Manager.Moves
import YieldManager.Proofs.Vault.Shifts

/-
  Pools that share a vault at par.  Of such a vault a manager
  sees no more than the fee rate and the number of its own
  shares, and both are left alone by whatever other managers
  do.  So rebalances of different pools can change places.

  Main declarations:
    * `Manager.Dealt`
    * `Manager.dealt_of_invest`
    * `Manager.dealt_of_divest`
    * `Manager.SameView`
    * `Manager.sameMove_of_rebalance`
    * `Manager.rebalance_comm`
-/

------------------------------------------------------------
-- Dealings at Par
------------------------------------------------------------

namespace YieldManager

namespace Manager

variable {κ : Type} [DecidableEq κ] [Zero κ]

/-
  A manager has dealt with a vault at par: it paid an amount
  out of cash, negative if it was paid, its shares changed, a
  fee was set aside, and its shares are now the managed
  balance.
-/
structure Dealt
    (m : Manager κ)
    (key poolId : κ)
    (paid change : Int)
    (fee : Nat)
    (s t : Position κ (ShareVault κ)) : Prop where
  booked :
    ∃ (e : Entry κ) (cash : UInt64),
      s.ledger.managedEntry key poolId m.token = .ok e ∧
        (cash.toNat : Int) + paid = e.cash.toNat ∧
        t.ledger =
          s.ledger.setEntry
            { e with
              cash := cash
              managed := t.vault.balanceOf key }
  shifted : ShareVault.Shifted key change fee s.vault t.vault

variable {m : Manager κ}
variable {key poolId : κ}
variable {s t : Position κ (ShareVault κ)}
variable {amount : UInt64}

/- An investment at par buys the net amount in shares. -/
theorem dealt_of_invest
    {shares : UInt64}
    (hPar : s.vault.IsPar)
    (hRun : m.invest key poolId amount s = .ok shares t) :
    shares =
        t.vault.balanceOf key - s.vault.balanceOf key ∧
      ∃ fee net,
        ShareVault.Splits s.vault amount fee net ∧
          m.Dealt key poolId amount.toNat net.toNat fee.toNat
            s t := by
  rcases invest_eq_ok_iff.mp hRun with
    ⟨e, cash, managed, value, hEntry, hCash, -, hMeasured,
      hValue, hLedger⟩
  rcases YieldVault.depositMeasured_eq_ok_iff.mp hMeasured
    with ⟨⟨claimed, hDeposit⟩, hMore, hShares⟩
  rcases ShareVault.deposited_of_deposit hDeposit with
    ⟨fee, net, hSplit, hBought, hDeposited⟩
  have hSome : 0 < claimed := by
    have hLess := UInt64.lt_iff_toNat_lt.mp hMore
    have hGain := hDeposited.gain
    change (s.vault.balanceOf key).toNat <
      (t.vault.balanceOf key).toNat at hLess
    rw [UInt64.lt_iff_toNat_lt, UInt64.toNat_zero]
    omega
  have hShifted :=
    hPar.shifted_of_deposited hBought hSome hDeposited
  rcases (hShifted.isPar hPar).eq_balanceOf_of_worth hValue
    with rfl
  exact
    ⟨hShares, fee, net, hSplit,
      ⟨e, cash, hEntry, by omega, hLedger.symm⟩, hShifted⟩

/- A divestment at par costs its amount in shares. -/
theorem dealt_of_divest
    {received : UInt64}
    (hPar : s.vault.IsPar)
    (hRun : m.divest key poolId amount s = .ok received t) :
    m.Dealt key poolId (-amount.toNat) (-amount.toNat) 0
      s t := by
  rcases divest_eq_ok_iff.mp hRun with
    ⟨e, before, cash, value, hEntry, -, -, hMeasured, hCash,
      hValue, hLedger⟩
  rcases YieldVault.withdrawMeasured_eq_ok_iff.mp hMeasured
    with ⟨hWithdraw, hFewer, -⟩
  rcases ShareVault.withdrawn_of_withdraw hWithdraw with
    ⟨-, burned, hCost, hWithdrawn⟩
  have hShifted :=
    hPar.shifted_of_withdrawn hCost hFewer hWithdrawn
  rcases (hShifted.isPar hPar).eq_balanceOf_of_worth hValue
    with rfl
  exact
    ⟨⟨e, cash, hEntry, by omega, hLedger.symm⟩, hShifted⟩

------------------------------------------------------------
-- What a Manager Sees
------------------------------------------------------------

/-
  Positions that look the same to a manager: one ledger, and
  vaults at par with one fee rate, in which the manager has as
  many shares.
-/
structure SameView
    (key : κ)
    (s s' : Position κ (ShareVault κ)) : Prop where
  ledger : s.ledger = s'.ledger
  feeBps : s.vault.feeBps = s'.vault.feeBps
  own : s.vault.balanceOf key = s'.vault.balanceOf key
  left : s.vault.IsPar
  right : s'.vault.IsPar

/-
  Two moves with the same effect: they lead to one ledger, and
  change the vaults in the same way.
-/
structure SameMove
    (key : κ)
    (s t s' t' : Position κ (ShareVault κ)) : Prop where
  ledger : t.ledger = t'.ledger
  shifted :
    ∃ change fee,
      ShareVault.Shifted key change fee s.vault t.vault ∧
        ShareVault.Shifted key change fee s'.vault t'.vault

variable {s' t' : Position κ (ShareVault κ)}

/- The same dealings at the same view have the same effect. -/
private theorem sameMove_of_dealt
    {paid change : Int}
    {fee : Nat}
    (hView : SameView key s s')
    (hLeft : m.Dealt key poolId paid change fee s t)
    (hRight : m.Dealt key poolId paid change fee s' t') :
    t.vault.balanceOf key = t'.vault.balanceOf key ∧
      SameMove key s t s' t' := by
  have hOwn :
      t.vault.balanceOf key = t'.vault.balanceOf key := by
    have hOne := hLeft.shifted.own
    have hTwo := hRight.shifted.own
    rw [hView.own] at hOne
    rw [← UInt64.toNat_inj]
    omega
  refine
    ⟨hOwn, ?_, change, fee, hLeft.shifted, hRight.shifted⟩
  rcases hLeft.booked with ⟨e, cash, hEntry, hCash, hLedger⟩
  rcases hRight.booked with
    ⟨e', cash', hEntry', hCash', hLedger'⟩
  rw [hView.ledger, hEntry', Except.ok.injEq] at hEntry
  subst hEntry
  have hSame : cash = cash' := by
    rw [← UInt64.toNat_inj]
    omega
  rw [hLedger, hLedger', hView.ledger, hSame, hOwn]

/- An investment has the same effect at every such view. -/
private theorem sameMove_of_invest
    {shares shares' : UInt64}
    (hView : SameView key s s')
    (hRun : m.invest key poolId amount s = .ok shares t)
    (hRun' :
      m.invest key poolId amount s' = .ok shares' t') :
    shares = shares' ∧ SameMove key s t s' t' := by
  rcases dealt_of_invest hView.left hRun with
    ⟨rfl, fee, net, hSplit, hDealt⟩
  rcases dealt_of_invest hView.right hRun' with
    ⟨rfl, fee', net', hSplit', hDealt'⟩
  have hFee : fee = fee' := by
    have hOne := hSplit.1
    rw [hView.feeBps, hSplit'.1] at hOne
    exact (Except.ok.inj hOne).symm
  subst hFee
  have hNet : net = net' := by
    have hOne := hSplit.2
    have hTwo := hSplit'.2
    rw [← UInt64.toNat_inj]
    omega
  subst hNet
  rcases sameMove_of_dealt hView hDealt hDealt' with
    ⟨hOwn, hSame⟩
  rw [hOwn, hView.own]
  exact ⟨rfl, hSame⟩

/- A divestment has the same effect at every such view. -/
private theorem sameMove_of_divest
    {received received' : UInt64}
    (hView : SameView key s s')
    (hRun : m.divest key poolId amount s = .ok received t)
    (hRun' :
      m.divest key poolId amount s' = .ok received' t') :
    SameMove key s t s' t' :=
  (sameMove_of_dealt hView
    (dealt_of_divest hView.left hRun)
    (dealt_of_divest hView.right hRun')).2

omit [Zero κ] in
/- Doing nothing has the same effect at every such view. -/
private theorem sameMove_of_rest
    (hView : SameView key s s') :
    SameMove key s s s' s' :=
  ⟨hView.ledger, 0, 0, ShareVault.Shifted.refl s.vault key,
    ShareVault.Shifted.refl s'.vault key⟩

/- Moving to what is desired likewise. -/
private theorem sameMove_of_moveTo
    {desired value : UInt64}
    {outcome outcome' : Outcome}
    (hView : SameView key s s')
    (hRun :
      m.moveTo key poolId desired value s = .ok outcome t)
    (hRun' :
      m.moveTo key poolId desired value s' =
        .ok outcome' t') :
    outcome = outcome' ∧ SameMove key s t s' t' := by
  rw [moveTo_eq_ok_iff] at hRun hRun'
  by_cases hLow : value < desired
  · have hNotHigh : ¬ desired < value :=
      UInt64.not_lt.mpr (UInt64.le_of_lt hLow)
    have hNe : desired ≠ value := (UInt64.ne_of_lt hLow).symm
    simp only [hLow, hNotHigh, hNe, true_and, false_and,
      or_false] at hRun hRun'
    rcases hRun with ⟨shares, hInvest, rfl⟩
    rcases hRun' with ⟨shares', hInvest', rfl⟩
    rcases sameMove_of_invest hView hInvest hInvest' with
      ⟨rfl, hSame⟩
    exact ⟨rfl, hSame⟩
  by_cases hHigh : desired < value
  · have hNe : desired ≠ value := UInt64.ne_of_lt hHigh
    simp only [hLow, hHigh, hNe, true_and, false_and,
      or_false, false_or] at hRun hRun'
    rcases hRun with ⟨received, hDivest, rfl⟩
    rcases hRun' with ⟨received', hDivest', rfl⟩
    exact ⟨rfl, sameMove_of_divest hView hDivest hDivest'⟩
  · simp only [hLow, hHigh, false_and, false_or]
      at hRun hRun'
    rcases hRun with ⟨-, rfl, rfl⟩
    rcases hRun' with ⟨-, rfl, rfl⟩
    exact ⟨rfl, sameMove_of_rest hView⟩

/-
  A rebalance is decided by what the manager sees: from every
  such view it does the same.
-/
theorem sameMove_of_rebalance
    {force : Bool}
    {outcome outcome' : Outcome}
    (hView : SameView key s s')
    (hRun : m.rebalance key poolId force s = .ok outcome t)
    (hRun' :
      m.rebalance key poolId force s' = .ok outcome' t') :
    outcome = outcome' ∧ SameMove key s t s' t' := by
  rcases rebalance_eq_ok_iff.mp hRun with
    ⟨-, -, held, value, total, band, hHeld, hValue, hTotal,
      hBand, hMove⟩
  rcases rebalance_eq_ok_iff.mp hRun' with
    ⟨-, -, held', value', total', band', hHeld', hValue',
      hTotal', hBand', hMove'⟩
  rw [hView.ledger, hHeld', Except.ok.injEq] at hHeld
  subst hHeld
  rw [hView.left.worth, hView.own, ← hView.right.worth,
    hValue', Except.ok.injEq] at hValue
  subst hValue
  have hSum : total = total' := by
    rw [← UInt64.toNat_inj, hTotal, hTotal']
  subst hSum
  rw [hBand', Except.ok.injEq] at hBand
  subst hBand
  split at hMove
  · next hInside =>
      rw [if_pos hInside] at hMove'
      rcases hMove with ⟨rfl, rfl⟩
      rcases hMove' with ⟨rfl, rfl⟩
      exact ⟨rfl, sameMove_of_rest hView⟩
  · next hOutside =>
      rw [if_neg hOutside] at hMove'
      exact sameMove_of_moveTo hView hMove hMove'

/- At par, a rebalance deals with the vault for its key. -/
theorem shifted_of_rebalance
    {force : Bool}
    {outcome : Outcome}
    (hPar : s.vault.IsPar)
    (hRun : m.rebalance key poolId force s = .ok outcome t) :
    ∃ change fee,
      ShareVault.Shifted key change fee s.vault t.vault := by
  have hView : SameView key s s := ⟨rfl, rfl, rfl, hPar, hPar⟩
  rcases (sameMove_of_rebalance hView hRun hRun).2.shifted
    with ⟨change, fee, hShifted, -⟩
  exact ⟨change, fee, hShifted⟩

------------------------------------------------------------
-- Two Managers
------------------------------------------------------------

omit [Zero κ] in
/- What one owner does to a vault, another does not see. -/
private theorem sameView_of_shifted
    {other : κ}
    {change : Int}
    {fee : Nat}
    {l : Ledger κ}
    {v w : ShareVault κ}
    (hKeys : key ≠ other)
    (hPar : v.IsPar)
    (hShifted : ShareVault.Shifted other change fee v w) :
    SameView key
      ({ ledger := l, vault := v } :
        Position κ (ShareVault κ))
      { ledger := l, vault := w } where
  ledger := rfl
  feeBps := hShifted.terms.feeBps.symm
  own := (hShifted.reassigned.others key hKeys).symm
  left := hPar
  right := hShifted.isPar hPar

/-
  Two managers with ledgers of their own share a vault at par.
  Whether the first rebalances before the second or after it,
  each does the same and leaves its ledger the same, and the
  vaults differ at most in the order of their holdings.
-/
theorem rebalance_comm
    {m₁ m₂ : Manager κ}
    {k₁ k₂ pool₁ pool₂ : κ}
    {force₁ force₂ : Bool}
    {l₁ l₂ : Ledger κ}
    {v : ShareVault κ}
    {o₁ o₂ o₁' o₂' : Outcome}
    {s₁ s₂ s₁' s₂' : Position κ (ShareVault κ)}
    (hKeys : k₁ ≠ k₂)
    (hPar : v.IsPar)
    (hFirst :
      m₁.rebalance k₁ pool₁ force₁
          { ledger := l₁, vault := v } = .ok o₁ s₁)
    (hThen :
      m₂.rebalance k₂ pool₂ force₂
          { ledger := l₂, vault := s₁.vault } = .ok o₂ s₂)
    (hSecond :
      m₂.rebalance k₂ pool₂ force₂
          { ledger := l₂, vault := v } = .ok o₂' s₂')
    (hLast :
      m₁.rebalance k₁ pool₁ force₁
          { ledger := l₁, vault := s₂'.vault } =
        .ok o₁' s₁') :
    (o₁ = o₁' ∧ o₂ = o₂') ∧
      (s₁.ledger = s₁'.ledger ∧ s₂.ledger = s₂'.ledger) ∧
      ShareVault.Alike s₂.vault s₁'.vault := by
  rcases shifted_of_rebalance hPar hFirst with
    ⟨change₁, fee₁, hShifted₁⟩
  rcases shifted_of_rebalance hPar hSecond with
    ⟨change₂, fee₂, hShifted₂⟩
  rcases sameMove_of_rebalance
      (sameView_of_shifted hKeys hPar hShifted₂) hFirst
      hLast with
    ⟨hOne, hLedger₁, _, _, hMove₁, hMove₁'⟩
  rcases sameMove_of_rebalance
      (sameView_of_shifted hKeys.symm hPar hShifted₁)
      hSecond hThen with
    ⟨hTwo, hLedger₂, _, _, hMove₂, hMove₂'⟩
  exact
    ⟨⟨hOne, hTwo.symm⟩, ⟨hLedger₁, hLedger₂.symm⟩,
      ShareVault.Shifted.alike hPar.nodup hMove₁ hMove₂'
        hMove₂ hMove₁'⟩

/- A live manager of token 2 that invests in vault 4. -/
def neighbour
    (poolId : Nat)
    (target : UInt64) : Manager Nat where
  poolId := poolId
  token := 2
  custodian := poolId + 2
  vault := 4
  forwarder := 5
  gauge := none
  rebalancer := 6
  authority := 7
  targets :=
    { target := target, upper := target, lower := target }
  live := true
  bump := 0

/- A pool with its manager registered, over a vault. -/
def neighbourPosition
    (poolId manager : Nat)
    (cash managed : UInt64)
    (vault : ShareVault Nat) :
    Position Nat (ShareVault Nat) where
  ledger :=
    { poolId := poolId, authority := 7, relayer := 6
      entries :=
        [{ mint := 2, cash := cash, managed := managed
           manager := manager }]
      bump := 0 }
  vault := vault

/- A vault at par that takes one percent of deposits. -/
def neighbourVault
    (shares fees : UInt64)
    (holdings : List (Holding Nat)) : ShareVault Nat where
  asset := 2
  authority := 7
  assets := shares
  supply := shares
  feeBps := 100
  fees := fees
  holdings := holdings
  bump := 0

/-
  One manager invests half of 500, the other all of 100.  The
  order in which they do shows in the order of their holdings.
-/
theorem rebalance_comm_neighbours :
    ShareVault.Alike
      (neighbourVault 367 3
        [{ owner := 7, shares := 20 },
         { owner := 8, shares := 248 },
         { owner := 9, shares := 99 }])
      (neighbourVault 367 3
        [{ owner := 7, shares := 20 },
         { owner := 9, shares := 99 },
         { owner := 8, shares := 248 }]) := by
  have hPar :
      (neighbourVault 20 0
        [{ owner := 7, shares := 20 }]).IsPar :=
    ⟨⟨by decide, by decide⟩, by decide⟩
  have hFirst :
      (neighbour 1 500000000000000000).rebalance 8 1 true
          (neighbourPosition 1 8 500 0
            (neighbourVault 20 0
              [{ owner := 7, shares := 20 }])) =
        .ok (.invested 250 248)
          (neighbourPosition 1 8 250 248
            (neighbourVault 268 2
              [{ owner := 7, shares := 20 },
               { owner := 8, shares := 248 }])) :=
    rfl
  have hSecond :
      (neighbour 11 1000000000000000000).rebalance 9 11 true
          (neighbourPosition 11 9 100 0
            (neighbourVault 20 0
              [{ owner := 7, shares := 20 }])) =
        .ok (.invested 100 99)
          (neighbourPosition 11 9 0 99
            (neighbourVault 119 1
              [{ owner := 7, shares := 20 },
               { owner := 9, shares := 99 }])) :=
    rfl
  exact
    (rebalance_comm (by decide) hPar hFirst rfl hSecond
      rfl).2.2

end Manager

end YieldManager

import YieldManager.Proofs.Band
import YieldManager.Proofs.Manager.Par
import YieldManager.Proofs.Manager.Value

/-
  The total of cash and value, which a manager forms before it
  resolves its targets.  Where it fits, the view of what is
  left to invest succeeds and a rebalance gets past it; and a
  rebalance that succeeds has shown that it fits.

  Main declarations:
    * `Targets.exists_band_of_fits`
    * `Manager.maxInvestable_of_band`
    * `Manager.rebalance_of_balances`
    * `Manager.rebalance_of_band`
    * `Manager.rebalance_cases`
    * `Manager.held_lt_of_rebalance`
-/

------------------------------------------------------------
-- Forming the Total
------------------------------------------------------------

namespace YieldManager

/- Balances that fit have a total, and targets a band. -/
theorem Targets.exists_band_of_fits
    {targets : Targets}
    {held : Balances}
    (hValid : targets.validate = .ok ())
    (hFits :
      held.cash.toNat + held.managed.toNat < UInt64.size) :
    ∃ total band,
      held.total = .ok total ∧
        targets.band total = .ok band := by
  rcases FixedPoint.exists_toNat_eq hFits with
    ⟨total, hTotal⟩
  rcases Targets.exists_band hValid total with
    ⟨band, hBand, -⟩
  exact
    ⟨total, band, FixedPoint.add_eq_ok_iff.mpr hTotal, hBand⟩

namespace Manager

section Band

variable {κ V : Type} [DecidableEq κ] [YieldVault κ V]
variable {m : Manager κ}
variable {key poolId : κ}
variable {s : Position κ V}
variable {held : Balances}
variable {total : UInt64}
variable {band : Band}

/- With the total formed, what is left to invest is told. -/
theorem maxInvestable_of_band
    (hHeld : m.poolBalances key poolId s = .ok held)
    (hTotal : held.total = .ok total)
    (hBand : m.targets.band total = .ok band) :
    m.maxInvestable key poolId s =
      .ok (FixedPoint.difference band.desired held.managed)
      := by
  simp only [maxInvestable, Except.bind_eq_ok_iff,
    Except.pure_eq_ok_iff]
  exact ⟨held, hHeld, total, hTotal, band, hBand, rfl⟩

variable [Zero κ]

/- A live manager that has the balances goes on with them. -/
theorem rebalance_of_balances
    (hLive : m.live = true)
    (hHeld : m.poolBalances key poolId s = .ok held)
    (force : Bool) :
    m.rebalance key poolId force s =
      Action.atomically
        (do
          let band ← m.targets.band (← held.total)
          if !force && !band.isBreached held.managed then
            pure .skipped
          else
            m.moveTo key poolId band.desired held.managed)
        s := by
  rcases poolBalances_eq_ok_iff.mp hHeld with
    ⟨hPool, hBooks, ⟨e, hEntry, hCash⟩, hValue⟩
  have hBalances :
      s.ledger.balances poolId m.token =
        .ok { cash := held.cash, managed := e.managed } :=
    Ledger.balances_eq_ok_iff.mpr
      ⟨hBooks, e, hEntry, by rw [hCash]⟩
  have hAum : aum key s.vault = .ok held.managed := hValue
  have hChecked : m.ensureLive poolId = .ok () :=
    ensureLive_eq_ok_iff.mpr ⟨hPool, hLive⟩
  unfold rebalance
  rw [Action.lift_bind_eq hChecked]
  apply Action.atomically_congr
  rw [Action.get_bind_eq, Action.lift_bind_eq hBalances,
    Action.lift_bind_eq hAum]

/- A live manager fails for want of the balances. -/
theorem rebalance_of_balances_error
    {e : Error}
    (hLive : m.live = true)
    (hHeld : m.poolBalances key poolId s = .error e)
    (force : Bool) :
    m.rebalance key poolId force s = .error e s := by
  unfold rebalance
  rcases Except.bind_eq_error_iff.mp hHeld with
    hPool | ⟨_, hPool, hRest⟩
  · apply Action.lift_bind_of_error
    exact Except.bind_eq_error_iff.mpr (.inl hPool)
  · have hChecked : m.ensureLive poolId = .ok () :=
      ensureLive_eq_ok_iff.mpr
        ⟨ensurePool_eq_ok_iff.mp hPool, hLive⟩
    rw [Action.lift_bind_eq hChecked]
    apply Action.atomically_of_error (t := s)
    rw [Action.get_bind_eq]
    rcases Except.bind_eq_error_iff.mp hRest with
      hBooks | ⟨books, hBooks, hRest⟩
    · exact Action.lift_bind_of_error hBooks _ s
    · rw [Action.lift_bind_eq hBooks]
      rcases Except.bind_eq_error_iff.mp hRest with
        hValue | ⟨value, -, hRest⟩
      · exact Action.lift_bind_of_error hValue _ s
      · cases hRest

/- With the total formed, a rebalance is left to the band. -/
theorem rebalance_of_band
    (hLive : m.live = true)
    (hHeld : m.poolBalances key poolId s = .ok held)
    (hTotal : held.total = .ok total)
    (hBand : m.targets.band total = .ok band)
    (force : Bool) :
    m.rebalance key poolId force s =
      Action.atomically
        (if !force && !band.isBreached held.managed then
          pure .skipped
        else
          m.moveTo key poolId band.desired held.managed)
        s := by
  rw [rebalance_of_balances hLive hHeld]
  apply Action.atomically_congr
  rw [Action.lift_bind_eq hTotal, Action.lift_bind_eq hBand]

end Band

------------------------------------------------------------
-- Rebalances That Succeed
------------------------------------------------------------

/-
  A rebalance has formed the total, of which the ledger knows
  both parts if it agrees with the vault.  Then it has found
  the band intact and done nothing, or it has moved to what is
  desired.
-/
theorem rebalance_cases
    {κ V : Type} [DecidableEq κ] [Zero κ] [YieldVault κ V]
    {m : Manager κ}
    {key poolId : κ}
    {force : Bool}
    {outcome : Outcome}
    {s t : Position κ V}
    {e : Entry κ}
    (hEntry : s.ledger.entry m.token = .ok e)
    (hManaged : aum key s.vault = .ok e.managed)
    (hRun :
      m.rebalance key poolId force s = .ok outcome t) :
    ∃ total band,
      total.toNat = e.cash.toNat + e.managed.toNat ∧
        m.targets.band total = .ok band ∧
        (band.isBreached e.managed = false ∧ s = t ∨
          m.moveTo key poolId band.desired e.managed s =
            .ok outcome t) := by
  rcases rebalance_eq_ok_iff.mp hRun with
    ⟨-, -, held, value, total, band, hHeld, hValue, hTotal,
      hBand, hMove⟩
  rcases Ledger.balances_eq_ok_iff.mp hHeld with
    ⟨-, d, hFound, rfl⟩
  rw [hEntry, Except.ok.injEq] at hFound
  subst hFound
  have hSame : e.managed = value :=
    Except.ok.inj (hManaged.symm.trans hValue)
  subst hSame
  refine ⟨total, band, hTotal, hBand, ?_⟩
  split at hMove
  · next hInside =>
      simp only [Bool.and_eq_true, Bool.not_eq_true']
        at hInside
      exact .inl ⟨hInside.2, hMove.2⟩
  · exact .inr hMove

/-
  A rebalance of a settled position has formed the total, and
  moves capital without gain: afterwards, what the ledger
  holds of the token still fits.
-/
theorem held_lt_of_rebalance
    {κ : Type} [DecidableEq κ] [Zero κ]
    {m : Manager κ}
    {key poolId : κ}
    {force : Bool}
    {outcome : Outcome}
    {s t : Position κ (ShareVault κ)}
    (hSettled : Settled m key s)
    (hNodup : s.ledger.mints.Nodup)
    (hRun :
      m.rebalance key poolId force s = .ok outcome t) :
    t.ledger.held m.token < UInt64.size := by
  rcases hSettled.managed with ⟨e, hEntry, hShares⟩
  have hManaged : aum key s.vault = .ok e.managed :=
    hShares ▸ hSettled.par.worth key
  rcases rebalance_cases hEntry hManaged hRun with
    ⟨total, -, hTotal, -⟩
  have hBefore := Ledger.held_of_entry hNodup hEntry
  have hAfter :=
    (advanced_of_rebalance hSettled hRun).held_le m.token
  have hBound := total.toNat_lt_size
  omega

end Manager

end YieldManager

import YieldManager.Proofs.Action
import YieldManager.Proofs.FixedPoint
import YieldManager.Proofs.Table
import YieldManager.Reward.Forwarder
import YieldManager.Reward.Gauge

/-
  The accounts of a gauge and of a forwarder.  Accruing and
  receiving add to one account and leave all others; a claim
  empties one account of the gauge and answers what was on it.
  What any gauge answers is forwarded if all of it that is not
  zero is received.

  Main declarations:
    * `Gauge.accruedTo_of_accrue`
    * `Gauge.holders_of_accrue`
    * `Gauge.failsAt_accrue`
    * `Gauge.Emptied`
    * `Gauge.claim_of_nothing`
    * `Gauge.exists_claim`
    * `Gauge.holders_of_claim`
    * `Forwarder.balanceOf_of_receive`
    * `Forwarder.isAtomic_receive`
    * `Forwarder.receiveAll`
    * `claimAndForward_eq_ok_iff`
-/

------------------------------------------------------------
-- Accruals
------------------------------------------------------------

namespace YieldManager

namespace Gauge

variable {κ : Type} [DecidableEq κ] {g h : Gauge κ}

/- What waits for a holder is what its look-up finds. -/
theorem toNat_accruedTo
    (g : Gauge κ)
    (holder : κ) :
    (g.accruedTo holder).toNat =
      (Table.find? Accrual.holder holder g.accruals).elim 0
        fun a => a.amount.toNat := by
  unfold accruedTo accrual?
  cases Table.find? Accrual.holder holder g.accruals <;> rfl

/- What waits for a holder that is listed. -/
theorem accruedTo_of_accrual?
    {holder : κ}
    {a : Accrual κ}
    (hFound : g.accrual? holder = some a) :
    g.accruedTo holder = a.amount := by
  unfold accruedTo
  rw [hFound]

/- Nothing waits for a holder that is not listed. -/
theorem accruedTo_of_accrual?_none
    {holder : κ}
    (hNone : g.accrual? holder = none) :
    g.accruedTo holder = 0 := by
  unfold accruedTo
  rw [hNone]

omit [DecidableEq κ] in
/- The holders that are listed, with rewards or without. -/
def holders (g : Gauge κ) : List κ :=
  g.accruals.map Accrual.holder

/- A holder is not listed if no look-up finds it. -/
theorem accrual?_eq_none_iff
    {holder : κ} :
    g.accrual? holder = none ↔ holder ∉ g.holders :=
  Table.find?_eq_none_iff

/- Setting an accrual lists nobody and crosses nobody out. -/
theorem holders_setAccrual
    (g : Gauge κ)
    (a : Accrual κ) :
    (g.setAccrual a).holders = g.holders :=
  Table.map_key_replace Accrual.holder a g.accruals

/- Setting an accrual changes what its holder is due only. -/
theorem accrual?_setAccrual
    {a : Accrual κ}
    (new : Accrual κ)
    (hFound : g.accrual? new.holder = some a)
    (x : κ) :
    (g.setAccrual new).accrual? x =
      if x = new.holder then some new else g.accrual? x :=
  Table.find?_replace hFound x

/- Accruing adds to an accrual, or lists a new one. -/
theorem accrue_eq_ok_iff
    {holder : κ}
    {amount : UInt64}
    {u : Unit} :
    accrue holder amount g = .ok u h ↔
      (∃ a waiting,
        g.accrual? holder = some a ∧
          waiting.toNat = a.amount.toNat + amount.toNat ∧
          g.setAccrual { a with amount := waiting } = h) ∨
        g.accrual? holder = none ∧
          g.accruals.length < capacity ∧
          { g with
            accruals :=
              g.accruals ++
                [{ holder := holder, amount := amount }] } =
            h := by
  change
    ((get : Action (Gauge κ) (Gauge κ)) >>= _) g = _ ↔ _
  rw [Action.get_bind_eq]
  cases g.accrual? holder with
  | some a => simp [FixedPoint.add_eq_ok_iff]
  | none =>
      simp only
      rw [Action.get_bind_eq]
      simp

/- Accruing adds to what waits for the holder only. -/
theorem accruedTo_of_accrue
    {holder : κ}
    {amount : UInt64}
    {u : Unit}
    (hRun : accrue holder amount g = .ok u h) :
    h.rewardMint = g.rewardMint ∧
      ∀ x,
        (h.accruedTo x).toNat =
          (g.accruedTo x).toNat +
            if x = holder then amount.toNat else 0 := by
  rcases accrue_eq_ok_iff.mp hRun with
    ⟨a, waiting, hFound, hSum, rfl⟩ | ⟨hNone, -, rfl⟩
  · have hHolder : a.holder = holder :=
      Table.key_of_find? hFound
    subst hHolder
    have hListed :
        Table.find? Accrual.holder a.holder g.accruals =
          some a :=
      hFound
    refine ⟨rfl, ?_⟩
    intro x
    rw [toNat_accruedTo, toNat_accruedTo]
    exact
      Table.elim_find?_replace
        (fun a : Accrual κ => a.amount.toNat)
        (y := { a with amount := waiting }) hListed hSum x
  · refine ⟨rfl, ?_⟩
    intro x
    rw [toNat_accruedTo, toNat_accruedTo]
    exact
      Table.elim_find?_append_singleton
        (fun a : Accrual κ => a.amount.toNat)
        (y := { holder := holder, amount := amount })
        (Table.find?_eq_none_iff.mp hNone) x

/- A holder that is not listed is added, if there is room. -/
theorem holders_of_accrue
    {holder : κ}
    {amount : UInt64}
    {u : Unit}
    (hRun : accrue holder amount g = .ok u h) :
    holder ∈ g.holders ∧ h.holders = g.holders ∨
      holder ∉ g.holders ∧ g.holders.length < capacity ∧
        h.holders = g.holders ++ [holder] := by
  rcases accrue_eq_ok_iff.mp hRun with
    ⟨a, waiting, hFound, -, rfl⟩ | ⟨hNone, hRoom, rfl⟩
  · refine .inl ⟨?_, holders_setAccrual g _⟩
    rw [← Table.key_of_find? hFound]
    exact List.mem_map_of_mem (Table.mem_of_find? hFound)
  · refine .inr ⟨accrual?_eq_none_iff.mp hNone, ?_, ?_⟩
    · unfold holders
      rwa [List.length_map]
    · simp [holders]

/-
  An accrual for a holder that is not listed is refused for
  want of room, and for nothing else.
-/
theorem accrue_of_new
    {holder : κ}
    {amount : UInt64}
    {h : Gauge κ}
    (hNew : holder ∉ g.holders) :
    accrue holder amount g = .error .capacityReached h ↔
      capacity ≤ g.holders.length ∧ h = g := by
  have hLength : g.holders.length = g.accruals.length :=
    List.length_map _
  have hNone := accrual?_eq_none_iff.mpr hNew
  change
    ((get : Action (Gauge κ) (Gauge κ)) >>= _) g = _ ↔ _
  rw [Action.get_bind_eq]
  simp only [hNone]
  rw [Action.get_bind_eq, hLength]
  by_cases hRoom : g.accruals.length < capacity
  · have hFits :
        require (g.accruals.length < capacity)
          .capacityReached = .ok () :=
      require_eq_ok_iff.mpr hRoom
    rw [Action.lift_bind_eq hFits]
    constructor
    · intro hRun
      cases hRun
    · intro hFull
      omega
  · have hFull :
        require (g.accruals.length < capacity)
          .capacityReached = .error .capacityReached := by
      rw [require, if_neg hRoom]
    rw [Action.lift_bind_of_error hFull]
    constructor
    · intro hRun
      cases hRun
      exact ⟨by omega, rfl⟩
    · intro hSame
      rw [hSame.2]

/- A refused accrual changes nothing. -/
theorem failsAt_accrue
    (holder : κ)
    (amount : UInt64)
    (g : Gauge κ) :
    Action.FailsAt g (accrue holder amount) g := by
  apply Action.FailsAt.get_bind
  cases g.accrual? holder with
  | some a =>
      apply Action.FailsAt.lift_bind
      intro waiting _
      exact Action.FailsAt.of_ok rfl
  | none =>
      apply Action.FailsAt.get_bind
      apply Action.FailsAt.lift_bind
      intro _ _
      exact Action.FailsAt.of_ok rfl

------------------------------------------------------------
-- Claims
------------------------------------------------------------

/-
  The second gauge is the first one with nothing left for a
  holder.
-/
structure Emptied
    (holder : κ)
    (g h : Gauge κ) : Prop where
  rewardMint : h.rewardMint = g.rewardMint
  own : h.accruedTo holder = 0
  others : ∀ x, x ≠ holder → h.accruedTo x = g.accruedTo x

/- A claim answers nothing when nothing waits. -/
theorem claim_of_nothing
    {holder : κ}
    (hNothing : g.accruedTo holder = 0) :
    claim holder g = .ok [] g := by
  change
    ((get : Action (Gauge κ) (Gauge κ)) >>= _) g = _
  rw [Action.get_bind_eq]
  cases hFound : g.accrual? holder with
  | none => rfl
  | some a =>
      have hZero : a.amount = 0 :=
        (accruedTo_of_accrual? hFound).symm.trans hNothing
      have hHolder : a.holder = holder :=
        Table.key_of_find? hFound
      subst hHolder
      have hSame :
          g.setAccrual { a with amount := 0 } = g := by
        rw [← hZero]
        unfold setAccrual
        rw [Table.replace_eq_self hFound]
      simp only
      rw [Action.modify_bind_eq, hSame, if_pos hZero]
      rfl

/- A claim answers and empties what waits for the holder. -/
theorem exists_claim
    {holder : κ}
    (hSome : g.accruedTo holder ≠ 0) :
    ∃ h,
      claim holder g =
          .ok
            [{ mint := g.rewardMint,
               amount := g.accruedTo holder }] h ∧
        Emptied holder g h := by
  cases hFound : g.accrual? holder with
  | none =>
      exact absurd (accruedTo_of_accrual?_none hFound) hSome
  | some a =>
      have hAmount := accruedTo_of_accrual? hFound
      have hHolder : a.holder = holder :=
        Table.key_of_find? hFound
      subst hHolder
      have hSet :=
        accrual?_setAccrual { a with amount := 0 } hFound
      refine
        ⟨g.setAccrual { a with amount := 0 }, ?_,
          { rewardMint := rfl, own := ?_, others := ?_ }⟩
      · change
          ((get : Action (Gauge κ) (Gauge κ)) >>= _) g = _
        rw [Action.get_bind_eq]
        simp only [hFound]
        rw [Action.modify_bind_eq,
          if_neg (hAmount ▸ hSome), hAmount]
        rfl
      · unfold accruedTo
        rw [hSet, if_pos rfl]
      · intro x hx
        unfold accruedTo
        rw [hSet, if_neg hx]

/- A claim crosses nobody out. -/
theorem holders_of_claim
    {holder : κ}
    {rewards : List (TokenAmount κ)}
    (hRun : claim holder g = .ok rewards h) :
    h.holders = g.holders := by
  change
    ((get : Action (Gauge κ) (Gauge κ)) >>= _) g = _ at hRun
  rw [Action.get_bind_eq] at hRun
  cases hFound : g.accrual? holder with
  | none =>
      simp only [hFound, Action.pure_eq_ok_iff] at hRun
      rw [hRun.2]
  | some a =>
      simp only [hFound] at hRun
      rw [Action.modify_bind_eq] at hRun
      by_cases hZero : a.amount = 0
      · rw [if_pos hZero, Action.pure_eq_ok_iff] at hRun
        rw [← hRun.2]
        exact holders_setAccrual g _
      · rw [if_neg hZero, Action.get_bind_eq,
          Action.pure_eq_ok_iff] at hRun
        rw [← hRun.2]
        exact holders_setAccrual g _

/- A claim is never refused. -/
theorem failsAt_claim
    (holder : κ)
    (r g : Gauge κ) :
    Action.FailsAt r (claim holder) g := by
  by_cases hNothing : g.accruedTo holder = 0
  · exact .of_ok (claim_of_nothing hNothing)
  · rcases exists_claim hNothing with ⟨h, hRun, -⟩
    exact .of_ok hRun

end Gauge

------------------------------------------------------------
-- Receipts
------------------------------------------------------------

namespace Forwarder

variable {κ : Type} [DecidableEq κ] {f f' : Forwarder κ}

/- What was received of a mint is what its look-up finds. -/
theorem toNat_balanceOf
    (f : Forwarder κ)
    (mint : κ) :
    (f.balanceOf mint).toNat =
      (Table.find? TokenAmount.mint mint f.received).elim 0
        fun t => t.amount.toNat := by
  unfold balanceOf total?
  cases Table.find? TokenAmount.mint mint f.received <;> rfl

/- Receiving adds to a total, or starts a new one. -/
theorem receive_eq_ok_iff
    {mint : κ}
    {amount : UInt64}
    {u : Unit} :
    receive mint amount f = .ok u f' ↔
      (∃ t total,
        f.total? mint = some t ∧
          total.toNat = t.amount.toNat + amount.toNat ∧
          { f with
            received :=
              Table.replace TokenAmount.mint
                { t with amount := total } f.received } =
            f') ∨
        f.total? mint = none ∧
          f.received.length < capacity ∧
          { f with
            received :=
              f.received ++
                [{ mint := mint, amount := amount }] } =
            f' := by
  change
    ((get : Action (Forwarder κ) (Forwarder κ)) >>= _) f =
      _ ↔ _
  rw [Action.get_bind_eq]
  cases f.total? mint with
  | some t => simp [FixedPoint.add_eq_ok_iff]
  | none =>
      simp only
      rw [Action.get_bind_eq]
      simp

/- Receiving adds to the total of the mint only. -/
theorem balanceOf_of_receive
    {mint : κ}
    {amount : UInt64}
    {u : Unit}
    (hRun : receive mint amount f = .ok u f')
    (x : κ) :
    (f'.balanceOf x).toNat =
      (f.balanceOf x).toNat +
        if x = mint then amount.toNat else 0 := by
  rw [toNat_balanceOf, toNat_balanceOf]
  rcases receive_eq_ok_iff.mp hRun with
    ⟨t, total, hFound, hSum, rfl⟩ | ⟨hNone, -, rfl⟩
  · have hMint : t.mint = mint :=
      Table.key_of_find? hFound
    subst hMint
    have hListed :
        Table.find? TokenAmount.mint t.mint f.received =
          some t :=
      hFound
    exact
      Table.elim_find?_replace
        (fun t : TokenAmount κ => t.amount.toNat)
        (y := { t with amount := total }) hListed hSum x
  · exact
      Table.elim_find?_append_singleton
        (fun t : TokenAmount κ => t.amount.toNat)
        (y := { mint := mint, amount := amount })
        (Table.find?_eq_none_iff.mp hNone) x

/- A refused receipt changes nothing. -/
theorem isAtomic_receive
    (mint : κ)
    (amount : UInt64) :
    Action.IsAtomic
      (receive mint amount : Action (Forwarder κ) Unit) := by
  intro f
  apply Action.FailsAt.get_bind
  cases f.total? mint with
  | some t =>
      apply Action.FailsAt.lift_bind
      intro total _
      exact Action.FailsAt.of_ok rfl
  | none =>
      apply Action.FailsAt.get_bind
      apply Action.FailsAt.lift_bind
      intro _ _
      exact Action.FailsAt.of_ok rfl

/- Take rewards in one by one. -/
def receiveAll
    (rewards : List (TokenAmount κ)) :
    Action (Forwarder κ) Unit :=
  rewards.forM fun r => receive r.mint r.amount

end Forwarder

------------------------------------------------------------
-- Claims That Are Forwarded
------------------------------------------------------------

variable {κ G : Type} [DecidableEq κ] [RewardGauge κ G]
variable {s t : G × Forwarder κ} {holder : κ}
variable {rewards : List (TokenAmount κ)}

/- Handing rewards over leaves the gauge alone. -/
omit [RewardGauge κ G] in
theorem forM_receive_eq_ok_iff :
    (rewards.forM fun r =>
        Action.within Part.second
          (RewardSink.receive r.mint r.amount)) s =
        .ok () t ↔
      t.1 = s.1 ∧
        Forwarder.receiveAll rewards s.2 = .ok () t.2 := by
  induction rewards generalizing s with
  | nil =>
      unfold Forwarder.receiveAll
      rw [Action.forM_nil_eq_ok_iff,
        Action.forM_nil_eq_ok_iff, Prod.ext_iff, eq_comm]
  | cons r rewards ih =>
      unfold Forwarder.receiveAll at ih ⊢
      rw [Action.forM_cons_eq_ok_iff,
        Action.forM_cons_eq_ok_iff]
      simp only [Action.within_eq_ok_iff]
      constructor
      · intro hSteps
        rcases hSteps with ⟨_, ⟨f, hHead, rfl⟩, hTail⟩
        rcases ih.mp hTail with ⟨hGauge, hRest⟩
        exact ⟨hGauge, f, hHead, hRest⟩
      · intro hSteps
        rcases hSteps with ⟨hGauge, f, hHead, hTail⟩
        exact
          ⟨(s.1, f), ⟨f, hHead, rfl⟩,
            ih.mpr ⟨hGauge, hTail⟩⟩

/- A claim succeeds when all that is not zero is received. -/
theorem claimAndForward_eq_ok_iff :
    claimAndForward holder s = .ok rewards t ↔
      ∃ claimed,
        RewardGauge.claim holder s.1 = .ok claimed t.1 ∧
          rewards = claimed.filter (fun r => r.amount ≠ 0) ∧
          Forwarder.receiveAll rewards s.2 =
            .ok () t.2 := by
  unfold claimAndForward
  simp only [Action.atomically_eq_ok_iff,
    Action.bind_eq_ok_iff, Action.within_eq_ok_iff,
    Action.pure_eq_ok_iff]
  constructor
  · intro hSteps
    rcases hSteps with
      ⟨claimed, _, ⟨g, hClaim, rfl⟩, ⟨⟩, u, hForward, rfl,
        rfl⟩
    rcases forM_receive_eq_ok_iff.mp hForward with
      ⟨hGauge, hReceive⟩
    exact
      ⟨claimed, hGauge ▸ hClaim, rfl, hReceive⟩
  · intro hSteps
    rcases hSteps with ⟨claimed, hClaim, rfl, hReceive⟩
    exact
      ⟨claimed, (t.1, s.2), ⟨t.1, hClaim, rfl⟩, (), t,
        forM_receive_eq_ok_iff.mpr ⟨rfl, hReceive⟩, rfl,
        rfl⟩

end YieldManager

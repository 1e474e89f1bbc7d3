import Mathlib.Data.Finset.Card
import YieldManager.Proofs.Reward.Conservation

/-
  What a claim does to a forwarder, over any gauge.  Rewards
  are received one by one into a table with little room, and
  any of them may be refused; but whether they all are taken,
  and what the table holds then, depends on what they add up
  to, mint by mint, and on which mints there are.

  Main declarations:
    * `rewardOf`
    * `Forwarder.room_of_receive`
    * `Forwarder.IsKept`
    * `Forwarder.Received`
    * `Forwarder.received_of_receiveAll`
    * `Forwarder.HasRoom`
    * `Forwarder.receiveAll_succeeds_iff`
    * `claimAndForward_succeeds_iff`
    * `Forwarder.Credited`
    * `claims_forwarded_exactly`
-/

------------------------------------------------------------
-- Rewards of One Mint
------------------------------------------------------------

namespace YieldManager

variable {κ : Type} [DecidableEq κ]

/- The amounts of one mint, added up. -/
def rewardOf
    (mint : κ)
    (rewards : List (TokenAmount κ)) : Nat :=
  rewardTotal (rewards.filter fun r => r.mint = mint)

/- A reward counts for its own mint. -/
theorem rewardOf_cons
    (mint : κ)
    (r : TokenAmount κ)
    (rewards : List (TokenAmount κ)) :
    rewardOf mint (r :: rewards) =
      (if mint = r.mint then r.amount.toNat else 0) +
        rewardOf mint rewards := by
  unfold rewardOf rewardTotal
  by_cases hMint : r.mint = mint
  · simp [hMint]
  · simp [hMint, Ne.symm hMint]

/- Amounts of zero add up to nothing. -/
theorem rewardOf_filter
    (mint : κ)
    (rewards : List (TokenAmount κ)) :
    rewardOf mint (rewards.filter fun r => r.amount ≠ 0) =
      rewardOf mint rewards := by
  induction rewards with
  | nil => rfl
  | cons r rewards ih =>
      rw [rewardOf_cons]
      by_cases hZero : r.amount = 0
      · rw [List.filter_cons_of_neg (by simpa using hZero),
          ih, hZero]
        simp
      · rw [List.filter_cons_of_pos (by simpa using hZero),
          rewardOf_cons, ih]

namespace Forwarder

variable {f f' f'' : Forwarder κ}
variable {rewards : List (TokenAmount κ)}

------------------------------------------------------------
-- Receiving Rewards
------------------------------------------------------------

/- The mints of which something was received. -/
omit [DecidableEq κ] in
def mints (f : Forwarder κ) : List κ :=
  f.received.map TokenAmount.mint

/- No mint has two totals, and the totals have room. -/
omit [DecidableEq κ] in
structure IsKept (f : Forwarder κ) : Prop where
  nodup : f.mints.Nodup
  room : f.mints.length ≤ capacity

/-
  The second forwarder is the first one after it received
  some rewards.
-/
structure Received
    (rewards : List (TokenAmount κ))
    (f f' : Forwarder κ) : Prop where
  balances :
    ∀ mint,
      (f'.balanceOf mint).toNat =
        (f.balanceOf mint).toNat + rewardOf mint rewards
  mints :
    f'.mints.toFinset =
      (f.mints ++ rewards.map TokenAmount.mint).toFinset
  kept : f.IsKept → f'.IsKept
  bump : f'.bump = f.bump

/- One reward after another is received. -/
theorem Received.cons
    {r : TokenAmount κ}
    (hHead : Received [r] f f')
    (hTail : Received rewards f' f'') :
    Received (r :: rewards) f f'' where
  balances mint := by
    have hOne := hHead.balances mint
    have hRest := hTail.balances mint
    rw [rewardOf_cons] at hOne ⊢
    have hNone : rewardOf mint [] = 0 := rfl
    omega
  mints := by
    rw [hTail.mints, List.toFinset_append, hHead.mints]
    ext mint
    simp
  kept hKept := hTail.kept (hHead.kept hKept)
  bump := hTail.bump.trans hHead.bump

/- A mint that is not listed is added, if there is room. -/
theorem mints_of_receive
    {mint : κ}
    {amount : UInt64}
    {u : Unit}
    (hRun : receive mint amount f = .ok u f') :
    f'.bump = f.bump ∧
      (mint ∈ f.mints ∧ f'.mints = f.mints ∨
        mint ∉ f.mints ∧ f.mints.length < capacity ∧
          f'.mints = f.mints ++ [mint]) := by
  rcases receive_eq_ok_iff.mp hRun with
    ⟨t, total, hFound, -, rfl⟩ | ⟨hNone, hRoom, rfl⟩
  · refine ⟨rfl, .inl ⟨?_, ?_⟩⟩
    · rw [← Table.key_of_find? hFound]
      exact List.mem_map_of_mem (Table.mem_of_find? hFound)
    · exact Table.map_key_replace TokenAmount.mint _ _
  · refine
      ⟨rfl, .inr ⟨Table.find?_eq_none_iff.mp hNone, ?_, ?_⟩⟩
    · unfold mints
      rwa [List.length_map]
    · simp [mints]

/- A reward is given a place only where there is room. -/
theorem room_of_receive
    {mint : κ}
    {amount : UInt64}
    {u : Unit}
    (hRoom : f.mints.length ≤ capacity)
    (hRun : receive mint amount f = .ok u f') :
    f'.mints.length ≤ capacity := by
  rcases (mints_of_receive hRun).2 with
    ⟨-, hSame⟩ | ⟨-, hFree, hAdded⟩
  · rwa [hSame]
  · rw [hAdded, List.length_append]
    exact hFree

/- Any number of rewards are given places within the room. -/
theorem room_of_receiveAll
    {u : Unit}
    (hRoom : f.mints.length ≤ capacity)
    (hRun : receiveAll rewards f = .ok u f') :
    f'.mints.length ≤ capacity := by
  induction rewards generalizing f with
  | nil =>
      cases Action.forM_nil_eq_ok_iff.mp hRun
      exact hRoom
  | cons r rewards ih =>
      rcases Action.forM_cons_eq_ok_iff.mp hRun with
        ⟨g, hHead, hTail⟩
      exact ih (room_of_receive hRoom hHead) hTail

/- A forwarder that is kept is still kept with a reward. -/
theorem IsKept.receive
    {mint : κ}
    {amount : UInt64}
    {u : Unit}
    (hKept : f.IsKept)
    (hRun : receive mint amount f = .ok u f') :
    f'.IsKept := by
  refine
    { nodup := ?_
      room := room_of_receive hKept.room hRun }
  rcases (mints_of_receive hRun).2 with
    ⟨-, hSame⟩ | ⟨hNew, -, hAdded⟩
  · exact hSame ▸ hKept.nodup
  · rw [hAdded, List.nodup_append_comm]
    exact List.nodup_cons.mpr ⟨hNew, hKept.nodup⟩

/- A reward that is taken in is received. -/
theorem received_of_receive
    {r : TokenAmount κ}
    {u : Unit}
    (hRun : receive r.mint r.amount f = .ok u f') :
    Received [r] f f' where
  balances mint := by
    rw [balanceOf_of_receive hRun mint, rewardOf_cons]
    rfl
  mints := by
    rcases (mints_of_receive hRun).2 with
      ⟨hListed, hSame⟩ | ⟨-, -, hAdded⟩
    · rw [hSame, List.map_singleton, List.toFinset_append]
      symm
      apply Finset.union_eq_left.mpr
      simpa using hListed
    · rw [hAdded]
      rfl
  kept hKept := hKept.receive hRun
  bump := (mints_of_receive hRun).1

/- Rewards that are taken in one by one are received. -/
theorem received_of_receiveAll
    {u : Unit}
    (hRun : receiveAll rewards f = .ok u f') :
    Received rewards f f' := by
  induction rewards generalizing f with
  | nil =>
      cases Action.forM_nil_eq_ok_iff.mp hRun
      exact
        { balances := fun _ => rfl
          mints := by simp
          kept := id
          bump := rfl }
  | cons r rewards ih =>
      rcases Action.forM_cons_eq_ok_iff.mp hRun with
        ⟨g, hHead, hTail⟩
      exact (received_of_receive hHead).cons (ih hTail)

------------------------------------------------------------
-- When Rewards Are Received
------------------------------------------------------------

/-
  Every mint's total stays an amount, and the table has room
  for all mints that will be in it.
-/
structure HasRoom
    (f : Forwarder κ)
    (rewards : List (TokenAmount κ)) : Prop where
  balances :
    ∀ mint,
      (f.balanceOf mint).toNat + rewardOf mint rewards <
        UInt64.size
  mints :
    (f.mints ++ rewards.map TokenAmount.mint).toFinset.card ≤
      capacity

/- Without room, a total overflows or a mint has no place. -/
theorem not_hasRoom_iff :
    ¬ f.HasRoom rewards ↔
      (∃ mint,
        UInt64.size ≤
          (f.balanceOf mint).toNat + rewardOf mint rewards) ∨
        capacity <
          (f.mints ++
            rewards.map TokenAmount.mint).toFinset.card := by
  constructor
  · intro hNone
    by_contra hOther
    simp only [not_or, not_exists, Nat.not_le, Nat.not_lt]
      at hOther
    exact hNone ⟨hOther.1, hOther.2⟩
  · intro hSome hRoom
    rcases hSome with ⟨mint, hOver⟩ | hOver
    · exact
        absurd (hRoom.balances mint) (Nat.not_lt.mpr hOver)
    · exact absurd hRoom.mints (Nat.not_le.mpr hOver)

/- A forwarder that is kept has had room for its mints. -/
theorem IsKept.card_mints
    (hKept : f.IsKept) :
    f.mints.toFinset.card ≤ capacity :=
  (List.toFinset_card_le _).trans hKept.room

/- Where there is room, the first reward is taken in. -/
theorem HasRoom.exists_receive
    {r : TokenAmount κ}
    (hKept : f.IsKept)
    (hRoom : f.HasRoom (r :: rewards)) :
    ∃ f', receive r.mint r.amount f = .ok () f' := by
  cases hFound : f.total? r.mint with
  | some t =>
      have hFits :
          t.amount.toNat + r.amount.toNat < UInt64.size := by
        have hSum := hRoom.balances r.mint
        have hTotal : f.balanceOf r.mint = t.amount := by
          unfold balanceOf
          rw [hFound]
        rw [rewardOf_cons, if_pos rfl, hTotal] at hSum
        omega
      rcases FixedPoint.exists_toNat_eq hFits with
        ⟨total, hTotal⟩
      exact
        ⟨_, receive_eq_ok_iff.mpr
          (.inl ⟨t, total, hFound, hTotal, rfl⟩)⟩
  | none =>
      have hNew : r.mint ∉ f.mints :=
        Table.find?_eq_none_iff.mp hFound
      -- The new mint takes a place that is still free.
      have hMore :
          (insert r.mint f.mints.toFinset).card ≤
            (f.mints ++
              (r :: rewards).map
                TokenAmount.mint).toFinset.card := by
        apply Finset.card_le_card
        intro mint hMint
        simp only [Finset.mem_insert, List.mem_toFinset]
          at hMint
        simp only [List.mem_toFinset, List.mem_append,
          List.map_cons, List.mem_cons]
        rcases hMint with hMint | hMint
        · exact .inr (.inl hMint)
        · exact .inl hMint
      rw [Finset.card_insert_of_notMem
          (fun hMem => hNew (List.mem_toFinset.mp hMem)),
        List.toFinset_card_of_nodup hKept.nodup] at hMore
      have hLength : f.mints.length = f.received.length :=
        List.length_map _
      have hFree : f.received.length < capacity := by
        have hMints := hRoom.mints
        omega
      exact
        ⟨_, receive_eq_ok_iff.mpr (.inr ⟨hFound, hFree, rfl⟩)⟩

/- With one reward taken in, there is room for the rest. -/
theorem HasRoom.tail
    {r : TokenAmount κ}
    (hRoom : f.HasRoom (r :: rewards))
    (hHead : Received [r] f f') :
    f'.HasRoom rewards where
  balances mint := by
    have hSum := hRoom.balances mint
    have hOne := hHead.balances mint
    rw [rewardOf_cons] at hSum hOne
    have hNone : rewardOf mint [] = 0 := rfl
    omega
  mints := by
    have hMints :
        (f'.mints ++
            rewards.map TokenAmount.mint).toFinset =
          (f.mints ++
            (r :: rewards).map TokenAmount.mint).toFinset := by
      rw [List.toFinset_append, hHead.mints]
      ext mint
      simp
    rw [hMints]
    exact hRoom.mints

/-
  Whether rewards are all taken in does not depend on the way
  there: it takes room for what is there in the end.
-/
theorem receiveAll_succeeds_iff
    (hKept : f.IsKept) :
    (∃ f', receiveAll rewards f = .ok () f') ↔
      f.HasRoom rewards := by
  constructor
  · intro hRun
    rcases hRun with ⟨f', hRun⟩
    have hReceived := received_of_receiveAll hRun
    refine { balances := ?_, mints := ?_ }
    · intro mint
      rw [← hReceived.balances mint]
      exact (f'.balanceOf mint).toNat_lt_size
    · rw [← hReceived.mints]
      exact (hReceived.kept hKept).card_mints
  · intro hRoom
    induction rewards generalizing f with
    | nil => exact ⟨f, rfl⟩
    | cons r rewards ih =>
        rcases hRoom.exists_receive hKept with ⟨g, hHead⟩
        have hReceived := received_of_receive hHead
        rcases ih (hReceived.kept hKept)
            (hRoom.tail hReceived) with
          ⟨f', hTail⟩
        exact
          ⟨f', Action.forM_cons_eq_ok_iff.mpr
            ⟨g, hHead, hTail⟩⟩

end Forwarder

------------------------------------------------------------
-- Claims of Any Gauge
------------------------------------------------------------

variable {G : Type} [RewardGauge κ G]
variable {s t : G × Forwarder κ} {holder : κ}
variable {rewards : List (TokenAmount κ)}

/-
  The second forwarder is the first one after a claim: every
  mint's total has grown by all that was claimed of it, and a
  mint is new only if some of it was claimed.
-/
structure Forwarder.Credited
    (claimed : List (TokenAmount κ))
    (f f' : Forwarder κ) : Prop where
  balances :
    ∀ mint,
      (f'.balanceOf mint).toNat =
        (f.balanceOf mint).toNat + rewardOf mint claimed
  mints :
    ∀ mint,
      mint ∈ f'.mints ↔
        mint ∈ f.mints ∨
          ∃ r ∈ claimed, r.mint = mint ∧ r.amount ≠ 0
  kept : f'.IsKept
  bump : f'.bump = f.bump

/- What is received of a claim is credited. -/
theorem Forwarder.Received.credited
    {claimed : List (TokenAmount κ)}
    {f f' : Forwarder κ}
    (hKept : f.IsKept)
    (hReceived :
      Received (claimed.filter fun r => r.amount ≠ 0) f f') :
    Credited claimed f f' where
  balances mint := by
    rw [hReceived.balances mint, rewardOf_filter]
  mints mint := by
    rw [← List.mem_toFinset, hReceived.mints]
    simp only [List.mem_toFinset, List.mem_append,
      List.mem_map, List.mem_filter, decide_eq_true_eq,
      and_assoc, and_comm]
  kept := hReceived.kept hKept
  bump := hReceived.bump

/- A claim succeeds when there is room for what is claimed. -/
theorem claimAndForward_succeeds_iff
    (hKept : s.2.IsKept) :
    (∃ rewards t,
        claimAndForward holder s = .ok rewards t) ↔
      ∃ claimed g,
        RewardGauge.claim holder s.1 = .ok claimed g ∧
          s.2.HasRoom
            (claimed.filter fun r => r.amount ≠ 0) := by
  constructor
  · intro hSucceeds
    rcases hSucceeds with ⟨rewards, t, hRun⟩
    rcases claimAndForward_eq_ok_iff.mp hRun with
      ⟨claimed, hClaim, rfl, hReceive⟩
    exact
      ⟨claimed, t.1, hClaim,
        (Forwarder.receiveAll_succeeds_iff hKept).mp
          ⟨t.2, hReceive⟩⟩
  · intro hSucceeds
    rcases hSucceeds with ⟨claimed, g, hClaim, hRoom⟩
    rcases (Forwarder.receiveAll_succeeds_iff hKept).mpr
        hRoom with
      ⟨f, hReceive⟩
    exact
      ⟨_, (g, f),
        claimAndForward_eq_ok_iff.mpr
          ⟨claimed, hClaim, rfl, hReceive⟩⟩

/-
  Over any gauge, a claim forwards what it answers and answers
  what it forwards: what was claimed, in order, less the
  amounts of zero.  It fails when the gauge does, when a total
  is no amount any more, or when there are more mints than the
  forwarder has room for; and then nothing has changed.
-/
theorem claims_forwarded_exactly
    (hNodup : s.2.mints.Nodup)
    (hRoom : s.2.mints.length ≤ Forwarder.capacity)
    (holder : κ) :
    (∀ rewards t,
      claimAndForward holder s = .ok rewards t →
        ∃ claimed,
          RewardGauge.claim holder s.1 = .ok claimed t.1 ∧
            rewards =
              claimed.filter (fun r => r.amount ≠ 0) ∧
            s.2.Credited claimed t.2) ∧
      ((∃ e t, claimAndForward holder s = .error e t) ↔
        (∃ e g, RewardGauge.claim holder s.1 = .error e g) ∨
          ∃ claimed g,
            RewardGauge.claim holder s.1 = .ok claimed g ∧
              ((∃ mint,
                UInt64.size ≤
                  (s.2.balanceOf mint).toNat +
                    rewardOf mint claimed) ∨
                Forwarder.capacity <
                  (s.2.mints ++
                    (claimed.filter fun r =>
                      r.amount ≠ 0).map
                        TokenAmount.mint).toFinset.card)) ∧
      ∀ e t,
        claimAndForward holder s = .error e t → t = s := by
  have hKept : s.2.IsKept := ⟨hNodup, hRoom⟩
  refine ⟨?_, ?_, Action.FailsAt.atomically _ s⟩
  · intro rewards t hRun
    rcases claimAndForward_eq_ok_iff.mp hRun with
      ⟨claimed, hClaim, rfl, hReceive⟩
    exact
      ⟨claimed, hClaim, rfl,
        (Forwarder.received_of_receiveAll hReceive).credited
          hKept⟩
  · rw [Action.exists_error_iff,
      claimAndForward_succeeds_iff hKept]
    constructor
    · intro hFails
      cases hClaim : RewardGauge.claim holder s.1 with
      | error e g => exact .inl ⟨e, g, rfl⟩
      | ok claimed g =>
          have hShort :
              ¬ s.2.HasRoom
                (claimed.filter fun r => r.amount ≠ 0) :=
            fun hRoom => hFails ⟨claimed, g, hClaim, hRoom⟩
          simp only [Forwarder.not_hasRoom_iff,
            rewardOf_filter] at hShort
          exact .inr ⟨claimed, g, rfl, hShort⟩
    · intro hWhy hSucceeds
      rcases hSucceeds with ⟨claimed, g, hClaim, hFits⟩
      rcases hWhy with
        ⟨e, h, hError⟩ | ⟨others, h, hOthers, hShort⟩
      · rw [hClaim] at hError
        cases hError
      · rw [hClaim] at hOthers
        cases hOthers
        apply Forwarder.not_hasRoom_iff.mpr _ hFits
        simpa only [rewardOf_filter] using hShort

/- Mint 1 comes in two amounts, and mint 3 in none. -/
def mixedRewards : List (TokenAmount Nat) :=
  [{ mint := 1, amount := 30 }, { mint := 3, amount := 0 },
   { mint := 1, amount := 12 }, { mint := 2, amount := 5 }]

/- A gauge that is about to pay them out. -/
def mixedGauge : ScriptedGauge Nat where
  gauge :=
    { vault := 4, rewardMint := 1, authority := 7
      accruals := [], bump := 0 }
  script := some mixedRewards

/- A forwarder that has received some of mint 1 so far. -/
def startedForwarder (amount : UInt64) : Forwarder Nat where
  received := [{ mint := 1, amount := amount }]
  bump := 0

/-
  On top of 100 of mint 1, the two amounts make 142, and mint
  3 is not listed.  Where there is room for the first of them
  but not for both, nothing is claimed.
-/
theorem claims_forwarded_exactly_mixedGauge :
    (∃ rewards t,
      claimAndForward 8 (mixedGauge, startedForwarder 100) =
          .ok rewards t ∧
        (t.2.balanceOf 1).toNat = 142 ∧ 3 ∉ t.2.mints) ∧
      ∃ e,
        claimAndForward 8
            (mixedGauge,
              startedForwarder 18446744073709551580) =
          .error e
            (mixedGauge,
              startedForwarder 18446744073709551580) := by
  have hClaims :
      ∀ f : Forwarder Nat,
        ∃ g,
          RewardGauge.claim 8 (mixedGauge, f).1 =
            .ok mixedRewards g :=
    fun _ => ⟨_, rfl⟩
  constructor
  · rcases claims_forwarded_exactly
        (s := (mixedGauge, startedForwarder 100))
        (by decide) (by decide) 8 with
      ⟨hExact, -, -⟩
    have hRun :
        ∃ rewards t,
          claimAndForward 8
              (mixedGauge, startedForwarder 100) =
            .ok rewards t :=
      ⟨_, _, rfl⟩
    rcases hRun with ⟨rewards, t, hRun⟩
    rcases hExact rewards t hRun with
      ⟨claimed, hClaim, -, hCredited⟩
    rcases hClaims (startedForwarder 100) with ⟨g, hMixed⟩
    rw [hMixed] at hClaim
    cases hClaim
    refine ⟨rewards, t, hRun, hCredited.balances 1, ?_⟩
    rw [hCredited.mints 3]
    decide
  · rcases claims_forwarded_exactly
        (s :=
          (mixedGauge,
            startedForwarder 18446744073709551580))
        (by decide) (by decide) 8 with
      ⟨-, hFails, hUndone⟩
    rcases hClaims (startedForwarder 18446744073709551580)
      with ⟨g, hMixed⟩
    rcases hFails.mpr
        (.inr
          ⟨mixedRewards, g, hMixed, .inl ⟨1, by decide⟩⟩) with
      ⟨e, t, hRun⟩
    have hSame := hUndone e t hRun
    subst hSame
    exact ⟨e, hRun⟩

end YieldManager

import YieldManager.Proofs.Ledger.Entries

/-
  Requests against a ledger.  A request is worth, token by
  token, the sum of its lines; debiting it line by line takes
  exactly these sums, and succeeds when the cash covers them.

  Main declarations:
    * `Request.total`
    * `ExitRequest.amountOut_eq_ok_iff`
    * `Ledger.join_eq_ok_iff`
    * `Ledger.exit_eq_ok_iff`
    * `Ledger.Paid`
    * `Ledger.Paid.exists_before`
    * `Ledger.Paid.exists_managedEntry`
    * `Ledger.Pays`
    * `Ledger.Pays.paid`
    * `Ledger.Pays.exists_run`
    * `Ledger.paid_of_credits`
    * `Ledger.paid_of_debits`
    * `Ledger.exists_credits`
    * `Ledger.exists_debits`
    * `Ledger.keeps_uncashed_join`
    * `Ledger.keeps_uncashed_exit`
-/

------------------------------------------------------------
-- Totals of Requests
------------------------------------------------------------

namespace YieldManager

namespace Request

variable {κ : Type} [DecidableEq κ]

/- All that the lines of a request say of one token. -/
def total
    (lines : List (κ × UInt64))
    (mint : κ) : Nat :=
  ((lines.filter fun line => line.1 = mint).map
    fun line => line.2.toNat).sum

@[simp] theorem total_nil (mint : κ) :
    total [] mint = 0 :=
  rfl

/- A line counts for its own token. -/
theorem total_cons
    (line : κ × UInt64)
    (lines : List (κ × UInt64))
    (mint : κ) :
    total (line :: lines) mint =
      (if line.1 = mint then line.2.toNat else 0) +
        total lines mint := by
  unfold total
  by_cases hMint : line.1 = mint <;> simp [hMint]

end Request

namespace JoinRequest

variable {κ : Type}

/- A request with lists of one length has these lines. -/
theorem amounts_eq_ok_iff
    {r : JoinRequest κ}
    {lines : List (κ × UInt64)} :
    r.amounts = .ok lines ↔
      r.assets.length = r.maxAmounts.length ∧
        r.assets.zip r.maxAmounts = lines := by
  simp [amounts]

end JoinRequest

namespace ExitRequest

variable {κ : Type}

/- A request with lists of one length has these lines. -/
theorem amounts_eq_ok_iff
    {r : ExitRequest κ}
    {lines : List (κ × UInt64)} :
    r.amounts = .ok lines ↔
      r.assets.length = r.minAmounts.length ∧
        r.assets.zip r.minAmounts = lines := by
  simp [amounts]

/- Adding up amounts from a start answers the exact sum. -/
private theorem foldlM_add_eq_ok_iff
    {lines : List (κ × UInt64)}
    {start w : UInt64} :
    lines.foldlM
        (fun total line => FixedPoint.add total line.2)
        start = .ok w ↔
      w.toNat =
        start.toNat +
          (lines.map fun line => line.2.toNat).sum := by
  induction lines generalizing start with
  | nil =>
      simp only [List.foldlM_nil, Except.pure_eq_ok_iff,
        List.map_nil, List.sum_nil, Nat.add_zero,
        UInt64.toNat_inj]
      exact eq_comm
  | cons line lines ih =>
      simp only [List.foldlM_cons, Except.bind_eq_ok_iff,
        FixedPoint.add_eq_ok_iff, ih, List.map_cons,
        List.sum_cons]
      constructor
      · intro hSteps
        rcases hSteps with ⟨next, hNext, hSum⟩
        omega
      · intro hSum
        have hBound := w.toNat_lt_size
        rcases FixedPoint.exists_toNat_eq
            (n := start.toNat + line.2.toNat)
            (by omega) with
          ⟨next, hNext⟩
        exact ⟨next, hNext, by omega⟩

/- The amount of a token is the exact total of its lines. -/
theorem amountOut_eq_ok_iff
    [DecidableEq κ]
    {r : ExitRequest κ}
    {token : κ}
    {w : UInt64} :
    r.amountOut token = .ok w ↔
      r.assets.length = r.minAmounts.length ∧
        w.toNat =
          Request.total (r.assets.zip r.minAmounts)
            token := by
  simp only [amountOut, Except.bind_eq_ok_iff,
    amounts_eq_ok_iff, foldlM_add_eq_ok_iff]
  unfold Request.total
  constructor
  · intro hSteps
    rcases hSteps with ⟨lines, ⟨hLength, rfl⟩, hSum⟩
    exact ⟨hLength, by simpa using hSum⟩
  · intro hSteps
    rcases hSteps with ⟨hLength, hSum⟩
    exact ⟨_, ⟨hLength, rfl⟩, by simpa using hSum⟩

end ExitRequest

------------------------------------------------------------
-- Whole Requests
------------------------------------------------------------

namespace Ledger

variable {κ : Type} [DecidableEq κ]

/- A join by the relayer credits line after line. -/
theorem join_eq_ok_iff
    {sender poolId : κ}
    {r : JoinRequest κ}
    {l l' : Ledger κ}
    {u : Unit} :
    join sender poolId r l = .ok u l' ↔
      sender = l.relayer ∧ l.poolId = poolId ∧
        r.assets.length = r.maxAmounts.length ∧
          (r.assets.zip r.maxAmounts).forM
            (fun line => credit line.1 line.2) l =
              .ok u l' := by
  simp [join, JoinRequest.amounts_eq_ok_iff]

/- An exit by the relayer debits line after line. -/
theorem exit_eq_ok_iff
    {sender poolId : κ}
    {r : ExitRequest κ}
    {l l' : Ledger κ}
    {u : Unit} :
    exit sender poolId r l = .ok u l' ↔
      sender = l.relayer ∧ l.poolId = poolId ∧
        r.assets.length = r.minAmounts.length ∧
          (r.assets.zip r.minAmounts).forM
            (fun line => debit line.1 line.2) l =
              .ok u l' := by
  simp [exit, ExitRequest.amounts_eq_ok_iff]

/-
  A ledger after payments: its books are the same, and the cash
  of every token has changed by the token's flow.
-/
structure Paid
    (flow : κ → Int)
    (l l' : Ledger κ) : Prop where
  books : SameBooks l l'
  entries :
    ∀ mint e, l.entry mint = .ok e →
      ∃ cash : UInt64,
        (cash.toNat : Int) = e.cash.toNat + flow mint ∧
          l'.entry mint = .ok { e with cash := cash }
  held :
    ∀ mint, (l'.held mint : Int) = l.held mint + flow mint

namespace Paid

/- Nothing is paid when nothing happens. -/
theorem refl (l : Ledger κ) : Paid (fun _ => 0) l l where
  books := SameBooks.refl l
  entries mint e hEntry := ⟨e.cash, by omega, hEntry⟩
  held _ := by omega

/- The flows of payments in a row add up. -/
theorem trans
    {first second total : κ → Int}
    {l l' l'' : Ledger κ}
    (hFirst : Paid first l l')
    (hSecond : Paid second l' l'')
    (hTotal : ∀ mint, total mint = first mint + second mint) :
    Paid total l l'' := by
  refine
    { books := hFirst.books.trans hSecond.books
      entries := ?_
      held := ?_ }
  · intro mint e hEntry
    rcases hFirst.entries mint e hEntry with
      ⟨cash₁, hCash₁, hEntry₁⟩
    rcases hSecond.entries mint _ hEntry₁ with
      ⟨cash₂, hCash₂, hEntry₂⟩
    refine ⟨cash₂, ?_, hEntry₂⟩
    have hSum := hTotal mint
    simp only at hCash₂
    omega
  · intro mint
    have hOne := hFirst.held mint
    have hTwo := hSecond.held mint
    have hSum := hTotal mint
    omega

/- An entry after payments is one from before them. -/
theorem exists_before
    {flow : κ → Int}
    {l l' : Ledger κ}
    {mint : κ}
    {d : Entry κ}
    (hPaid : Paid flow l l')
    (hEntry : l'.entry mint = .ok d) :
    ∃ e,
      l.entry mint = .ok e ∧
        (d.cash.toNat : Int) = e.cash.toNat + flow mint ∧
        d = { e with cash := d.cash } := by
  have hListed : mint ∈ l.mints := by
    rw [← hPaid.books.mints]
    exact mem_mints_of_entry hEntry
  rcases exists_entry hListed with ⟨e, hBefore⟩
  rcases hPaid.entries mint e hBefore with
    ⟨cash, hCash, hAfter⟩
  rw [hEntry, Except.ok.injEq] at hAfter
  subst hAfter
  exact ⟨e, hBefore, hCash, rfl⟩

/- Payments leave an entry to its manager. -/
theorem exists_managedEntry
    [Zero κ]
    {flow : κ → Int}
    {l l' : Ledger κ}
    {manager poolId mint : κ}
    {e : Entry κ}
    (hPaid : Paid flow l l')
    (hEntry : l.managedEntry manager poolId mint = .ok e) :
    ∃ cash : UInt64,
      (cash.toNat : Int) = e.cash.toNat + flow mint ∧
        l'.managedEntry manager poolId mint =
          .ok { e with cash := cash } := by
  rcases managedEntry_eq_ok_iff.mp hEntry with
    ⟨hPool, hFound, hZero, hOwn⟩
  rcases hPaid.entries mint e hFound with
    ⟨cash, hCash, hAfter⟩
  exact
    ⟨cash, hCash,
      managedEntry_eq_ok_iff.mpr
        ⟨hPaid.books.poolId.trans hPool, hAfter, hZero,
          hOwn⟩⟩

end Paid

/- New cash in one entry pays the difference. -/
theorem paid_setEntry
    {l : Ledger κ}
    {mint : κ}
    {e : Entry κ}
    {cash : UInt64}
    {change : Int}
    (hEntry : l.entry mint = .ok e)
    (hCash : (cash.toNat : Int) = e.cash.toNat + change) :
    Paid (fun token => if mint = token then change else 0)
      l (l.setEntry { e with cash := cash }) := by
  have hOwn := mint_of_entry hEntry
  refine
    { books := SameBooks.setEntry _ _
      entries := ?_
      held := ?_ }
  · intro token d hFound
    by_cases hMint : mint = token
    · subst hMint
      have hSame : e = d := by
        rw [hEntry] at hFound
        exact Except.ok.inj hFound
      subst hSame
      exact
        ⟨cash, by simpa using hCash,
          entry_setEntry_self _ hEntry hOwn⟩
    · have hOther :
          token ≠ ({ e with cash := cash } : Entry κ).mint := by
        intro hEq
        exact hMint (hEq.trans hOwn).symm
      refine ⟨d.cash, by simp [hMint], ?_⟩
      rw [entry_setEntry_of_ne l hOther]
      exact hFound
  · intro token
    have hHeld :=
      held_setEntry { e with cash := cash } hEntry rfl
        token
    simp only at hHeld
    split at hHeld
    · next hMint =>
        simp only [if_pos hMint]
        omega
    · next hMint =>
        simp only [if_neg hMint]
        omega

------------------------------------------------------------
-- Lines That Pay
------------------------------------------------------------

/-
  An action that pays lines: it adds the amount of a line, with
  a given sign, to the cash of the line's token.
-/
def Pays
    (sign : Int)
    (f : κ × UInt64 → Action (Ledger κ) Unit) : Prop :=
  ∀ line l l',
    f line l = .ok () l' ↔
      ∃ (e : Entry κ) (cash : UInt64),
        l.entry line.1 = .ok e ∧
          (cash.toNat : Int) =
            e.cash.toNat + sign * line.2.toNat ∧
          l.setEntry { e with cash := cash } = l'

/- Credits pay lines in. -/
theorem pays_credit :
    Pays (κ := κ) 1 fun line => credit line.1 line.2 := by
  intro line l l'
  simp only [credit_eq_ok_iff, Int.one_mul]
  norm_cast

/- Debits pay lines out. -/
theorem pays_debit :
    Pays (κ := κ) (-1) fun line => debit line.1 line.2 := by
  intro line l l'
  rw [debit_eq_ok_iff]
  constructor
  · intro hSteps
    rcases hSteps with ⟨e, cash, hEntry, hCash, hBooks⟩
    exact ⟨e, cash, hEntry, by omega, hBooks⟩
  · intro hSteps
    rcases hSteps with ⟨e, cash, hEntry, hCash, hBooks⟩
    exact ⟨e, cash, hEntry, by omega, hBooks⟩

namespace Pays

variable {sign : Int}
variable {f : κ × UInt64 → Action (Ledger κ) Unit}
variable {lines : List (κ × UInt64)}
variable {l l' : Ledger κ}

/- Lines that are paid change cash by their totals. -/
theorem paid
    {u : Unit}
    (hPays : Pays sign f)
    (hRun : lines.forM f l = .ok u l') :
    Paid (fun mint => sign * Request.total lines mint)
      l l' := by
  induction lines generalizing l with
  | nil =>
      have hSame : l = l' :=
        Action.forM_nil_eq_ok_iff.mp hRun
      subst hSame
      simpa using Paid.refl l
  | cons line lines ih =>
      rcases Action.forM_cons_eq_ok_iff.mp hRun with
        ⟨l₁, hHead, hTail⟩
      rcases (hPays line l l₁).mp hHead with
        ⟨e, cash, hEntry, hCash, rfl⟩
      refine (paid_setEntry hEntry hCash).trans (ih hTail) ?_
      intro mint
      rw [Request.total_cons]
      by_cases hMint : line.1 = mint
      · simp only [if_pos hMint]
        rw [Int.natCast_add, Int.mul_add]
      · simp [hMint]

/- Lines that are paid are about tokens that are listed. -/
theorem listed
    {u : Unit}
    (hPays : Pays sign f)
    (hRun : lines.forM f l = .ok u l') :
    ∀ line ∈ lines, line.1 ∈ l.mints := by
  induction lines generalizing l with
  | nil => simp
  | cons first lines ih =>
      rcases Action.forM_cons_eq_ok_iff.mp hRun with
        ⟨l₁, hHead, hTail⟩
      rcases (hPays first l l₁).mp hHead with
        ⟨e, cash, hEntry, -, rfl⟩
      rw [List.forall_mem_cons]
      refine ⟨mem_mints_of_entry hEntry, ?_⟩
      intro line hLine
      rw [← mints_setEntry l { e with cash := cash }]
      exact ih hTail line hLine

/-
  Lines about listed tokens are paid if the totals leave every
  cash balance in range.  All amounts have one sign, so what
  is in range at the end was in range all along.
-/
theorem exists_run
    (hPays : Pays sign f)
    (hSign : sign = 1 ∨ sign = -1)
    (hListed : ∀ line ∈ lines, line.1 ∈ l.mints)
    (hRange :
      ∀ mint e, l.entry mint = .ok e →
        0 ≤ e.cash.toNat + sign * Request.total lines mint ∧
          e.cash.toNat + sign * Request.total lines mint <
            UInt64.size) :
    ∃ l', lines.forM f l = .ok () l' := by
  induction lines generalizing l with
  | nil => exact ⟨l, Action.forM_nil_eq_ok_iff.mpr rfl⟩
  | cons line lines ih =>
      rcases exists_entry
          (hListed line List.mem_cons_self) with
        ⟨e, hEntry⟩
      have hLine := hRange line.1 e hEntry
      rw [Request.total_cons, if_pos rfl] at hLine
      have hBound := e.cash.toNat_lt_size
      have hCash :
          ∃ cash : UInt64,
            (cash.toNat : Int) =
              e.cash.toNat + sign * line.2.toNat := by
        rcases FixedPoint.exists_toNat_eq
            (n :=
              (e.cash.toNat + sign * line.2.toNat :
                Int).toNat)
            (by rcases hSign with rfl | rfl <;> omega) with
          ⟨cash, hNat⟩
        refine ⟨cash, ?_⟩
        rcases hSign with rfl | rfl <;> omega
      rcases hCash with ⟨cash, hCash⟩
      have hHead :
          f line l =
            .ok () (l.setEntry { e with cash := cash }) :=
        (hPays line l _).mpr ⟨e, cash, hEntry, hCash, rfl⟩
      have hPaid := paid_setEntry hEntry hCash
      have hRest :
          ∃ l',
            lines.forM f
                (l.setEntry { e with cash := cash }) =
              .ok () l' := by
        apply ih
        · intro other hOther
          rw [hPaid.books.mints]
          exact hListed other (List.mem_cons_of_mem line hOther)
        · intro mint d hFound
          rcases hPaid.exists_before hFound with
            ⟨d₀, hBefore, hFlow, -⟩
          have hTotal := hRange mint d₀ hBefore
          rw [Request.total_cons] at hTotal
          split at hFlow
          · next hMint =>
              rw [if_pos hMint] at hTotal
              rcases hSign with rfl | rfl <;> omega
          · next hMint =>
              rw [if_neg hMint, Nat.zero_add] at hTotal
              omega
      rcases hRest with ⟨l', hRun⟩
      exact
        ⟨l', Action.forM_cons_eq_ok_iff.mpr
          ⟨_, hHead, hRun⟩⟩

end Pays

/- Credits pay the totals of their lines in. -/
theorem paid_of_credits
    {lines : List (κ × UInt64)}
    {l l' : Ledger κ}
    {u : Unit}
    (hRun :
      lines.forM (fun line => credit line.1 line.2) l =
        .ok u l') :
    Paid (fun mint => (Request.total lines mint : Int))
      l l' := by
  simpa using pays_credit.paid hRun

/- Debits pay the totals of their lines out. -/
theorem paid_of_debits
    {lines : List (κ × UInt64)}
    {l l' : Ledger κ}
    {u : Unit}
    (hRun :
      lines.forM (fun line => debit line.1 line.2) l =
        .ok u l') :
    Paid (fun mint => -(Request.total lines mint : Int))
      l l' := by
  simpa using pays_debit.paid hRun

/-
  Credits succeed when the ledger lists every token and the
  cash of each has room for the total of its lines.
-/
theorem exists_credits
    {lines : List (κ × UInt64)}
    {l : Ledger κ}
    (hListed : ∀ line ∈ lines, line.1 ∈ l.mints)
    (hFits :
      ∀ mint e, l.entry mint = .ok e →
        e.cash.toNat + Request.total lines mint <
          UInt64.size) :
    ∃ l',
      lines.forM (fun line => credit line.1 line.2) l =
        .ok () l' := by
  apply pays_credit.exists_run (.inl rfl) hListed
  intro mint e hEntry
  have hSum := hFits mint e hEntry
  omega

/-
  Debits succeed when the ledger lists every token and the
  cash of each covers the total of its lines.
-/
theorem exists_debits
    {lines : List (κ × UInt64)}
    {l : Ledger κ}
    (hListed : ∀ line ∈ lines, line.1 ∈ l.mints)
    (hCovered :
      ∀ mint e, l.entry mint = .ok e →
        Request.total lines mint ≤ e.cash.toNat) :
    ∃ l',
      lines.forM (fun line => debit line.1 line.2) l =
        .ok () l' := by
  apply pays_debit.exists_run (.inr rfl) hListed
  intro mint e hEntry
  have hSum := hCovered mint e hEntry
  have hBound := e.cash.toNat_lt_size
  omega

------------------------------------------------------------
-- Requests, Refused or Not
------------------------------------------------------------

/-
  Changing the cash of one token changes nothing else, and a
  refusal changes nothing.
-/
private theorem keeps_uncashed_of_pay
    (mint : κ)
    (pay : Entry κ → Except Error UInt64) :
    Action.Keeps uncashed
      (do
        let e ← (← get).entry mint
        let cash ← pay e
        modify fun l => l.setEntry { e with cash := cash } :
        Action (Ledger κ) Unit) := by
  apply Action.Keeps.of_runs
  · intro l u l' hRun
    simp only [Action.bind_eq_ok_iff, Action.get_eq_ok_iff,
      Action.lift_eq_ok_iff, Action.modify_eq_ok_iff] at hRun
    rcases hRun with
      ⟨_, _, ⟨rfl, rfl⟩, e, _, ⟨hEntry, rfl⟩, cash, _,
        ⟨-, rfl⟩, rfl⟩
    exact uncashed_setEntry hEntry cash
  · intro l
    apply Action.FailsAt.get_bind
    apply Action.FailsAt.lift_bind
    intro e _
    apply Action.FailsAt.lift_bind
    intro cash _
    exact Action.FailsAt.of_ok rfl

/-
  The lines of a request, each of which pays into or out of
  an entry, as `join` and `exit` process them.
-/
private def payAll
    (permit : Ledger κ → Except Error Unit)
    (poolId : κ)
    (amounts : Except Error (List (κ × UInt64)))
    (pay : UInt64 → Entry κ → Except Error UInt64) :
    Action (Ledger κ) Unit := do
  permit (← get)
  (← get).ensurePool poolId
  let lines ← amounts
  lines.forM fun line => do
    let e ← (← get).entry line.1
    let cash ← pay line.2 e
    modify fun l => l.setEntry { e with cash := cash }

/- A request changes cash only, however far it gets. -/
private theorem keeps_uncashed_payAll
    (permit : Ledger κ → Except Error Unit)
    (poolId : κ)
    (amounts : Except Error (List (κ × UInt64)))
    (pay : UInt64 → Entry κ → Except Error UInt64) :
    Action.Keeps uncashed
      (payAll permit poolId amounts pay) := by
  apply Action.Keeps.get_bind
  intro l
  apply Action.Keeps.bind (.lift _)
  intro _
  apply Action.Keeps.bind fun _ => rfl
  intro books
  apply Action.Keeps.bind (.lift _)
  intro _
  apply Action.Keeps.bind (.lift _)
  intro lines
  apply Action.Keeps.forM
  intro line
  exact keeps_uncashed_of_pay line.1 (pay line.2)

/- A request that is not permitted fails at once. -/
private theorem failsAt_payAll
    {permit : Ledger κ → Except Error Unit}
    {poolId : κ}
    {amounts : Except Error (List (κ × UInt64))}
    {pay : UInt64 → Entry κ → Except Error UInt64}
    {l : Ledger κ}
    (hNot : ¬ (permit l = .ok () ∧ l.poolId = poolId)) :
    Action.FailsAt l (payAll permit poolId amounts pay) l := by
  apply Action.FailsAt.get_bind
  apply Action.FailsAt.lift_bind
  intro _ hPermit
  apply Action.FailsAt.get_bind
  apply Action.FailsAt.lift_bind
  intro _ hPool
  exact absurd ⟨hPermit, ensurePool_eq_ok_iff.mp hPool⟩ hNot

section

variable {sender poolId : κ}

/- A join credits its lines on behalf of the relayer. -/
private theorem join_eq_payAll
    (request : JoinRequest κ) :
    join sender poolId request =
      payAll
        (fun l =>
          require (sender = l.relayer) .onlyRelayerJoin)
        poolId request.amounts
        fun amount e => FixedPoint.add e.cash amount :=
  rfl

/- An exit debits its lines on behalf of the relayer. -/
private theorem exit_eq_payAll
    (request : ExitRequest κ) :
    exit sender poolId request =
      payAll
        (fun l =>
          require (sender = l.relayer) .onlyRelayerExit)
        poolId request.amounts
        fun amount e =>
          FixedPoint.sub e.cash amount .insufficientCash :=
  rfl

/- A join changes cash only, even if it fails. -/
theorem keeps_uncashed_join
    (request : JoinRequest κ) :
    Action.Keeps uncashed (join sender poolId request) := by
  rw [join_eq_payAll]
  exact keeps_uncashed_payAll _ _ _ _

/- An exit changes cash only, even if it fails. -/
theorem keeps_uncashed_exit
    (request : ExitRequest κ) :
    Action.Keeps uncashed (exit sender poolId request) := by
  rw [exit_eq_payAll]
  exact keeps_uncashed_payAll _ _ _ _

variable {l : Ledger κ}

/- A join of anyone but the relayer fails at once. -/
theorem failsAt_join
    (request : JoinRequest κ)
    (hNot : ¬ (sender = l.relayer ∧ l.poolId = poolId)) :
    Action.FailsAt l (join sender poolId request) l := by
  rw [join_eq_payAll]
  apply failsAt_payAll
  rwa [require_eq_ok_iff]

/- An exit of anyone but the relayer fails at once. -/
theorem failsAt_exit
    (request : ExitRequest κ)
    (hNot : ¬ (sender = l.relayer ∧ l.poolId = poolId)) :
    Action.FailsAt l (exit sender poolId request) l := by
  rw [exit_eq_payAll]
  apply failsAt_payAll
  rwa [require_eq_ok_iff]

end

end Ledger

end YieldManager

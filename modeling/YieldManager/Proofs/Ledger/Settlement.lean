import YieldManager.Proofs.Ledger.Requests

/-
  Requests act by their totals.  A ledger processes a request
  line by line, but what comes of it is known from the totals
  of its tokens: whether it succeeds, and all of the ledger
  afterwards.  So the order of the lines does not count, what
  an exit takes of a token is what its amount says, and an
  exit undoes the join of the same lists.

  Main declarations:
    * `Ledger.Paid.neg`
    * `Ledger.Paid.eq_of_nodup`
    * `Ledger.Pays.run_iff_of_perm`
    * `Ledger.debits_of_credits`
    * `Ledger.JoinsByTotals`
    * `Ledger.ExitsByTotals`
    * `Ledger.requests_act_by_totals`
-/

------------------------------------------------------------
-- Totals of Reordered Lines
------------------------------------------------------------

namespace YieldManager

namespace Request

variable {κ : Type} [DecidableEq κ]
variable {lines lines' : List (κ × UInt64)}

/- The order of the lines does not count for a total. -/
theorem total_of_perm
    (hPerm : lines.Perm lines')
    (mint : κ) :
    total lines mint = total lines' mint :=
  ((hPerm.filter _).map _).sum_eq

/- Of a token that no line is about, nothing is said. -/
theorem total_eq_zero
    {mint : κ}
    (hNone : ∀ line ∈ lines, line.1 ≠ mint) :
    total lines mint = 0 := by
  have hEmpty :
      (lines.filter fun line => line.1 = mint) = [] := by
    simpa [List.filter_eq_nil_iff] using hNone
  unfold total
  rw [hEmpty]
  rfl

end Request

------------------------------------------------------------
-- What Payments Determine
------------------------------------------------------------

namespace Ledger

variable {κ : Type} [DecidableEq κ]

namespace Paid

variable {flow : κ → Int}
variable {l l' l'' : Ledger κ}

/- Seen from the end, payments flow the other way. -/
theorem neg
    (hPaid : Paid flow l l') :
    Paid (fun mint => -flow mint) l' l where
  books :=
    { poolId := hPaid.books.poolId.symm
      authority := hPaid.books.authority.symm
      relayer := hPaid.books.relayer.symm
      bump := hPaid.books.bump.symm
      mints := hPaid.books.mints.symm }
  entries mint d hEntry := by
    rcases hPaid.exists_before hEntry with
      ⟨e, hBefore, hFlow, hSame⟩
    refine ⟨e.cash, by omega, ?_⟩
    rw [hBefore, hSame]
  held mint := by
    have hHeld := hPaid.held mint
    omega

/-
  Where no mint is listed twice, the flow determines all of
  the ledger after the payments.
-/
theorem eq_of_nodup
    (hNodup : l.mints.Nodup)
    (hPaid : Paid flow l l')
    (hOther : Paid flow l l'') :
    l' = l'' := by
  have hMints : l'.mints = l''.mints :=
    hPaid.books.mints.trans hOther.books.mints.symm
  have hAfterNodup : (l''.entries.map Entry.mint).Nodup := by
    change l''.mints.Nodup
    rwa [hOther.books.mints]
  have hEntries : l'.entries = l''.entries := by
    apply Table.eq_of_find? hAfterNodup hMints
    intro mint hMint
    have hListed : mint ∈ l.mints :=
      hOther.books.mints ▸ hMint
    rcases exists_entry hListed with ⟨e, hEntry⟩
    rcases hPaid.entries mint e hEntry with
      ⟨cash, hCash, hAfter⟩
    rcases hOther.entries mint e hEntry with
      ⟨cash', hCash', hAfter'⟩
    have hSame : cash = cash' := by
      apply UInt64.toNat_inj.mp
      omega
    rw [entry_eq_ok_iff.mp hAfter,
      entry_eq_ok_iff.mp hAfter', hSame]
  have hPool :=
    hPaid.books.poolId.trans hOther.books.poolId.symm
  have hAuthority :=
    hPaid.books.authority.trans hOther.books.authority.symm
  have hRelayer :=
    hPaid.books.relayer.trans hOther.books.relayer.symm
  have hBump := hPaid.books.bump.trans hOther.books.bump.symm
  cases l'
  cases l''
  simp only [mk.injEq]
  exact ⟨hPool, hAuthority, hRelayer, hEntries, hBump⟩

end Paid

------------------------------------------------------------
-- Lines in Another Order
------------------------------------------------------------

variable {lines lines' : List (κ × UInt64)}
variable {l l' : Ledger κ}

/- Lines that are paid are paid in every other order. -/
private theorem Pays.run_of_perm
    {sign : Int}
    {f : κ × UInt64 → Action (Ledger κ) Unit}
    (hPays : Pays sign f)
    (hSign : sign = 1 ∨ sign = -1)
    (hNodup : l.mints.Nodup)
    (hPerm : lines.Perm lines')
    (hRun : lines.forM f l = .ok () l') :
    lines'.forM f l = .ok () l' := by
  have hPaid := hPays.paid hRun
  have hListed := hPays.listed hRun
  have hTotals := Request.total_of_perm hPerm
  have hRuns : ∃ l'', lines'.forM f l = .ok () l'' := by
    apply hPays.exists_run hSign
    · intro line hLine
      exact hListed line (hPerm.mem_iff.mpr hLine)
    · intro mint e hEntry
      rcases hPaid.entries mint e hEntry with
        ⟨cash, hCash, -⟩
      have hBound := cash.toNat_lt_size
      rw [← hTotals mint]
      omega
  rcases hRuns with ⟨l'', hOther⟩
  have hOtherPaid := hPays.paid hOther
  simp only [← hTotals] at hOtherPaid
  rw [hOther, hPaid.eq_of_nodup hNodup hOtherPaid]

/-
  The order of the lines does not count, neither for success
  nor for the ledger in the end.
-/
theorem Pays.run_iff_of_perm
    {sign : Int}
    {f : κ × UInt64 → Action (Ledger κ) Unit}
    (hPays : Pays sign f)
    (hSign : sign = 1 ∨ sign = -1)
    (hNodup : l.mints.Nodup)
    (hPerm : lines.Perm lines') :
    lines.forM f l = .ok () l' ↔
      lines'.forM f l = .ok () l' :=
  ⟨hPays.run_of_perm hSign hNodup hPerm,
    hPays.run_of_perm hSign hNodup hPerm.symm⟩

/- Debits of the lines that were credited undo the credits. -/
theorem debits_of_credits
    (hNodup : l.mints.Nodup)
    (hRun :
      lines.forM (fun line => credit line.1 line.2) l =
        .ok () l') :
    lines.forM (fun line => debit line.1 line.2) l' =
      .ok () l := by
  have hPaid := paid_of_credits hRun
  have hDebits :
      ∃ l'',
        lines.forM (fun line => debit line.1 line.2) l' =
          .ok () l'' := by
    apply exists_debits
    · rw [hPaid.books.mints]
      exact pays_credit.listed hRun
    · intro mint d hEntry
      rcases hPaid.exists_before hEntry with
        ⟨e, -, hFlow, -⟩
      omega
  rcases hDebits with ⟨l'', hDebits⟩
  have hNodup' : l'.mints.Nodup :=
    hPaid.books.mints.symm ▸ hNodup
  rw [hDebits,
    hPaid.neg.eq_of_nodup hNodup' (paid_of_debits hDebits)]

------------------------------------------------------------
-- Requests by Their Totals
------------------------------------------------------------

omit [DecidableEq κ] in
/- The lists of a request name listed tokens only. -/
private theorem listed_zip_iff
    {assets : List κ}
    {amounts : List UInt64}
    (hLength : assets.length = amounts.length) :
    (∀ line ∈ assets.zip amounts, line.1 ∈ l.mints) ↔
      ∀ asset ∈ assets, asset ∈ l.mints := by
  have hAssets :
      (assets.zip amounts).map Prod.fst = assets :=
    List.map_fst_zip (Nat.le_of_eq hLength)
  constructor
  · intro hLines asset hAsset
    rw [← hAssets] at hAsset
    rcases List.mem_map.mp hAsset with ⟨line, hLine, rfl⟩
    exact hLines line hLine
  · intro hListed line hLine
    exact hListed line.1 (List.of_mem_zip hLine).1

/- Of a listed token, an exit takes the amount it tells. -/
private theorem told_of_listed
    {r : ExitRequest κ}
    {token : κ}
    {e : Entry κ}
    (hLength : r.assets.length = r.minAmounts.length)
    (hRun :
      (r.assets.zip r.minAmounts).forM
          (fun line => debit line.1 line.2) l =
        .ok () l')
    (hEntry : l.entry token = .ok e) :
    ∃ w cash : UInt64,
      r.amountOut token = .ok w ∧
        cash.toNat + w.toNat = e.cash.toNat ∧
        l'.entry token = .ok { e with cash := cash } := by
  rcases (paid_of_debits hRun).entries token e hEntry with
    ⟨cash, hCash, hAfter⟩
  have hBound := e.cash.toNat_lt_size
  rcases FixedPoint.exists_toNat_eq
      (n := Request.total (r.assets.zip r.minAmounts) token)
      (by omega) with
    ⟨w, hTotal⟩
  have hAmount : r.amountOut token = .ok w :=
    ExitRequest.amountOut_eq_ok_iff.mpr ⟨hLength, hTotal⟩
  exact ⟨w, cash, hAmount, by omega, hAfter⟩

/- Of a token that is not listed, an exit tells nothing. -/
private theorem told_of_unlisted
    {r : ExitRequest κ}
    {token : κ}
    (hLength : r.assets.length = r.minAmounts.length)
    (hRun :
      (r.assets.zip r.minAmounts).forM
          (fun line => debit line.1 line.2) l =
        .ok () l')
    (hNot : token ∉ l.mints) :
    r.amountOut token = .ok 0 := by
  have hNone :
      Request.total (r.assets.zip r.minAmounts) token = 0 := by
    apply Request.total_eq_zero
    intro line hLine hSame
    exact hNot (hSame ▸ pays_debit.listed hRun line hLine)
  exact
    ExitRequest.amountOut_eq_ok_iff.mpr
      ⟨hLength, hNone.symm⟩

/-
  How a ledger takes a join: it checks the lengths, the tokens
  and one sum for each token, and then adds these sums to the
  cash, whatever the order of the lists.  An exit of the same
  lists restores the ledger.
-/
structure JoinsByTotals
    (l : Ledger κ)
    (sender poolId : κ)
    (r : JoinRequest κ) : Prop where
  succeeds_iff :
    (∃ l', join sender poolId r l = .ok () l') ↔
      sender = l.relayer ∧ l.poolId = poolId ∧
        r.assets.length = r.maxAmounts.length ∧
        (∀ asset ∈ r.assets, asset ∈ l.mints) ∧
        ∀ mint e, l.entry mint = .ok e →
          e.cash.toNat +
              Request.total (r.assets.zip r.maxAmounts)
                mint <
            UInt64.size
  paid :
    ∀ l', join sender poolId r l = .ok () l' →
      Paid
        (fun mint =>
          Request.total (r.assets.zip r.maxAmounts) mint)
        l l'
  reordered :
    ∀ (r' : JoinRequest κ) lines lines',
      r.amounts = .ok lines → r'.amounts = .ok lines' →
        lines.Perm lines' →
          ∀ l',
            join sender poolId r l = .ok () l' ↔
              join sender poolId r' l = .ok () l'
  undone :
    ∀ l', join sender poolId r l = .ok () l' →
      exit sender poolId
          { assets := r.assets, minAmounts := r.maxAmounts }
          l' =
        .ok () l

/-
  How a ledger takes an exit: it checks the lengths, the tokens
  and one sum for each token, and then takes these sums from
  the cash, whatever the order of the lists.  They are what
  the request's amount says of each token.
-/
structure ExitsByTotals
    (l : Ledger κ)
    (sender poolId : κ)
    (r : ExitRequest κ) : Prop where
  succeeds_iff :
    (∃ l', exit sender poolId r l = .ok () l') ↔
      sender = l.relayer ∧ l.poolId = poolId ∧
        r.assets.length = r.minAmounts.length ∧
        (∀ asset ∈ r.assets, asset ∈ l.mints) ∧
        ∀ mint e, l.entry mint = .ok e →
          Request.total (r.assets.zip r.minAmounts) mint ≤
            e.cash.toNat
  paid :
    ∀ l', exit sender poolId r l = .ok () l' →
      Paid
        (fun mint =>
          -Request.total (r.assets.zip r.minAmounts) mint)
        l l'
  reordered :
    ∀ (r' : ExitRequest κ) lines lines',
      r.amounts = .ok lines → r'.amounts = .ok lines' →
        lines.Perm lines' →
          ∀ l',
            exit sender poolId r l = .ok () l' ↔
              exit sender poolId r' l = .ok () l'
  amountOut :
    ∀ token w, r.amountOut token = .ok w →
      w.toNat =
        Request.total (r.assets.zip r.minAmounts) token
  told :
    ∀ l', exit sender poolId r l = .ok () l' →
      ∀ token,
        ∃ w,
          r.amountOut token = .ok w ∧
            (∀ e, l.entry token = .ok e →
              ∃ cash : UInt64,
                cash.toNat + w.toNat = e.cash.toNat ∧
                  l'.entry token =
                    .ok { e with cash := cash }) ∧
            (token ∉ l.mints → w = 0)

section

variable {sender poolId : κ}

/- Joins act by their totals. -/
theorem joinsByTotals
    (hNodup : l.mints.Nodup)
    (r : JoinRequest κ) :
    JoinsByTotals l sender poolId r where
  succeeds_iff := by
    simp only [join_eq_ok_iff]
    constructor
    · intro hRuns
      rcases hRuns with
        ⟨l', hSender, hPool, hLength, hCredits⟩
      have hPaid := paid_of_credits hCredits
      refine
        ⟨hSender, hPool, hLength,
          (listed_zip_iff hLength).mp
            (pays_credit.listed hCredits),
          ?_⟩
      intro mint e hEntry
      rcases hPaid.entries mint e hEntry with
        ⟨cash, hCash, -⟩
      have hBound := cash.toNat_lt_size
      omega
    · intro hChecks
      rcases hChecks with
        ⟨hSender, hPool, hLength, hListed, hFits⟩
      rcases exists_credits
          ((listed_zip_iff hLength).mpr hListed) hFits with
        ⟨l', hCredits⟩
      exact ⟨l', hSender, hPool, hLength, hCredits⟩
  paid l' hRun := by
    rcases join_eq_ok_iff.mp hRun with ⟨-, -, -, hCredits⟩
    exact paid_of_credits hCredits
  reordered r' lines lines' hLines hLines' hPerm l' := by
    rcases JoinRequest.amounts_eq_ok_iff.mp hLines with
      ⟨hLength, rfl⟩
    rcases JoinRequest.amounts_eq_ok_iff.mp hLines' with
      ⟨hLength', rfl⟩
    rw [join_eq_ok_iff, join_eq_ok_iff,
      pays_credit.run_iff_of_perm (.inl rfl) hNodup hPerm]
    simp only [hLength, hLength']
  undone l' hRun := by
    rcases join_eq_ok_iff.mp hRun with
      ⟨hSender, hPool, hLength, hCredits⟩
    have hBooks := (paid_of_credits hCredits).books
    exact
      exit_eq_ok_iff.mpr
        ⟨hSender.trans hBooks.relayer.symm,
          hBooks.poolId.trans hPool, hLength,
          debits_of_credits hNodup hCredits⟩

/- Exits act by their totals. -/
theorem exitsByTotals
    (hNodup : l.mints.Nodup)
    (r : ExitRequest κ) :
    ExitsByTotals l sender poolId r where
  succeeds_iff := by
    simp only [exit_eq_ok_iff]
    constructor
    · intro hRuns
      rcases hRuns with
        ⟨l', hSender, hPool, hLength, hDebits⟩
      have hPaid := paid_of_debits hDebits
      refine
        ⟨hSender, hPool, hLength,
          (listed_zip_iff hLength).mp
            (pays_debit.listed hDebits),
          ?_⟩
      intro mint e hEntry
      rcases hPaid.entries mint e hEntry with
        ⟨cash, hCash, -⟩
      omega
    · intro hChecks
      rcases hChecks with
        ⟨hSender, hPool, hLength, hListed, hCovered⟩
      rcases exists_debits
          ((listed_zip_iff hLength).mpr hListed) hCovered with
        ⟨l', hDebits⟩
      exact ⟨l', hSender, hPool, hLength, hDebits⟩
  paid l' hRun := by
    rcases exit_eq_ok_iff.mp hRun with ⟨-, -, -, hDebits⟩
    exact paid_of_debits hDebits
  reordered r' lines lines' hLines hLines' hPerm l' := by
    rcases ExitRequest.amounts_eq_ok_iff.mp hLines with
      ⟨hLength, rfl⟩
    rcases ExitRequest.amounts_eq_ok_iff.mp hLines' with
      ⟨hLength', rfl⟩
    rw [exit_eq_ok_iff, exit_eq_ok_iff,
      pays_debit.run_iff_of_perm (.inr rfl) hNodup hPerm]
    simp only [hLength, hLength']
  amountOut token w hAmount :=
    (ExitRequest.amountOut_eq_ok_iff.mp hAmount).2
  told l' hRun token := by
    rcases exit_eq_ok_iff.mp hRun with
      ⟨-, -, hLength, hDebits⟩
    by_cases hListed : token ∈ l.mints
    · rcases exists_entry hListed with ⟨e, hEntry⟩
      rcases told_of_listed hLength hDebits hEntry with
        ⟨w, cash, hAmount, hCash, hAfter⟩
      refine
        ⟨w, hAmount, ?_, fun hNot => absurd hListed hNot⟩
      intro d hFound
      rw [hEntry, Except.ok.injEq] at hFound
      subst hFound
      exact ⟨cash, hCash, hAfter⟩
    · refine
        ⟨0, told_of_unlisted hLength hDebits hListed, ?_,
          fun _ => rfl⟩
      intro e hEntry
      exact absurd (mem_mints_of_entry hEntry) hListed

/-
  A ledger without duplicate mints takes requests by their
  totals, in both directions.
-/
theorem requests_act_by_totals
    (hNodup : l.mints.Nodup)
    (sender poolId : κ) :
    (∀ r : JoinRequest κ,
        JoinsByTotals l sender poolId r) ∧
      ∀ r : ExitRequest κ,
        ExitsByTotals l sender poolId r :=
  ⟨joinsByTotals hNodup, exitsByTotals hNodup⟩

end

/- A ledger of two tokens. -/
def pairedLedger : Ledger Nat where
  poolId := 1
  authority := 7
  relayer := 6
  entries :=
    [{ mint := 2, cash := 10, managed := 5, manager := 8 },
     { mint := 3, cash := 0, managed := 0, manager := 0 }]
  bump := 0

/- A join that names one of them twice. -/
def repeatedJoin : JoinRequest Nat where
  assets := [2, 3, 2]
  maxAmounts := [4, 7, 1]

/- The same lines in another order. -/
def sortedJoin : JoinRequest Nat where
  assets := [2, 2, 3]
  maxAmounts := [1, 4, 7]

/-
  Both joins lead to one ledger, from which an exit of the
  lists leads back.
-/
theorem requests_act_by_totals_pairedLedger :
    ∃ l',
      join 6 1 repeatedJoin pairedLedger = .ok () l' ∧
        join 6 1 sortedJoin pairedLedger = .ok () l' ∧
        l'.balances 1 2 =
          .ok { cash := 15, managed := 5 } ∧
        exit 6 1 { assets := [2, 3, 2]
                   minAmounts := [4, 7, 1] } l' =
          .ok () pairedLedger := by
  have hNodup : pairedLedger.mints.Nodup := by decide
  have hJoins :=
    (requests_act_by_totals hNodup 6 1).1 repeatedJoin
  have hRuns :
      ∃ l',
        join 6 1 repeatedJoin pairedLedger = .ok () l' ∧
          l'.balances 1 2 =
            .ok { cash := 15, managed := 5 } :=
    ⟨_, rfl, rfl⟩
  rcases hRuns with ⟨l', hRun, hBalances⟩
  have hPerm :
      [(2, 4), (3, 7), (2, 1)].Perm
        [((2 : Nat), (1 : UInt64)), (2, 4), (3, 7)] := by
    decide
  exact
    ⟨l', hRun,
      (hJoins.reordered sortedJoin _ _ rfl rfl hPerm l').mp
        hRun,
      hBalances, hJoins.undone l' hRun⟩

end Ledger

end YieldManager

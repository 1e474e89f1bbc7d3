import YieldManager.Proofs.Program.Runs

/-
  Backing over runs.  In every store that a run reaches, the
  shares of a vault are backed one to one by its assets, the
  managed balance of a live manager is what its shares are
  worth, and the managed balances invested in a vault add up
  to its assets.

  Main declarations:
    * `Store.managed`
    * `State.managedIn`
    * `Store.IsBacked`
    * `Program.execute_view`
    * `Program.execute_viewAum`
    * `Store.IsWired.isBacked`
    * `Program.isBacked_of_run`
-/

------------------------------------------------------------
-- Backed Stores
------------------------------------------------------------

namespace YieldManager

/- The managed balance of a manager's token in its ledger. -/
def Store.managed
    (s : Store)
    (m : Manager Address) : Nat :=
  match s.state? m.custodian with
  | some (.ledger l) =>
      match l.entry m.token with
      | .ok e => e.managed.toNat
      | .error _ => 0
  | _ => 0

/- What a live manager of a store has managed in a vault. -/
def State.managedIn
    (s : Store)
    (vaultKey : Address) : State Address → Nat
  | .manager m =>
      if m.live = true ∧ m.vault = vaultKey then
        s.managed m
      else 0
  | _ => 0

/- Whoever views a manager with its books hears its value. -/
def Program.AnswersAum
    (s : Store)
    (key : Address)
    (m : Manager Address)
    (value : UInt64) : Prop :=
  ∀ metas rest,
    metas.map Meta.key =
        key :: m.custodian :: m.vault :: rest →
      Program.execute s
          { programId := Address.program
            metas := metas
            instruction := .viewAum } =
        .ok
          ({ answer := .amount value, log := [],
             events := [] }, s)

/-
  The assets of each vault back its shares one to one.  The
  managed balance of a live manager is the number of its
  shares, and their value; all managed balances invested in a
  vault together are its assets.
-/
structure Store.IsBacked (s : Store) : Prop where
  vaults :
    ∀ key v, s.state? key = some (.shareVault v) →
      v.owners.Nodup ∧ v.assets = v.supply ∧
        v.supply.toNat = v.issued
  managers :
    ∀ key m, s.state? key = some (.manager m) →
      m.live = true →
        ∃ l v e,
          s.state? m.custodian = some (.ledger l) ∧
            s.state? m.vault = some (.shareVault v) ∧
            l.entry m.token = .ok e ∧
            e.managed = v.balanceOf key ∧
            Program.AnswersAum s key m e.managed
  sums :
    ∀ key v, s.state? key = some (.shareVault v) →
      s.sum (State.managedIn s key) = v.assets.toNat

------------------------------------------------------------
-- The View
------------------------------------------------------------

variable {s : Store}
variable {key : Address}
variable {m : Manager Address}

/- A listed record of the store is loaded. -/
private theorem Loader.exists_record
    {R : Type → Type} [Stored R] [LawfulStored R]
    {r : R Address}
    {listed : Meta}
    (hPlain : s.IsPlain)
    (hState : s.state? listed.key = some (Stored.wrap r))
    (name : String)
    (rest : List Meta) :
    ∃ x : Loaded R,
      Loader.record R name s (listed :: rest) =
          .ok (x, rest) ∧
        x.key = listed.key ∧ x.value = r := by
  rcases (Store.state?_eq_some_iff hPlain).mp hState with
    ⟨space, hFound⟩
  refine
    ⟨{ field := name
       key := listed.key
       writable := listed.writable
       space := space
       value := r }, ?_, rfl, rfl⟩
  exact
    (Loader.record_eq_ok_iff hPlain).mpr
      ⟨listed, rfl, hFound, rfl, rfl, rfl⟩

/- The desk of a manager is taken from a list of its books. -/
private theorem Capital.Desk.exists_take
    {l : Ledger Address}
    {v : ShareVault Address}
    {metas : List Meta}
    {rest : List Address}
    (hPlain : s.IsPlain)
    (hManager : s.state? key = some (.manager m))
    (hLedger : s.state? m.custodian = some (.ledger l))
    (hVault : s.state? m.vault = some (.shareVault v))
    (hMetas :
      metas.map Meta.key =
        key :: m.custodian :: m.vault :: rest) :
    ∃ d,
      Capital.Desk.take.load s metas = .ok d ∧
        d.manager.key = key ∧ d.manager.value = m ∧
        d.ledger.key = m.custodian ∧
        d.vault.key = m.vault ∧ d.ledger.value = l ∧
        d.vault.value = v := by
  have hKeys := (Meta.map_key_merge metas).trans hMetas
  rcases List.map_eq_cons_iff.mp hKeys with
    ⟨a, as, hMerged, hFirst, hTail⟩
  rcases List.map_eq_cons_iff.mp hTail with
    ⟨b, bs, rfl, hSecond, hLast⟩
  rcases List.map_eq_cons_iff.mp hLast with
    ⟨c, cs, rfl, hThird, -⟩
  rw [← hFirst] at hManager
  rw [← hSecond] at hLedger
  rw [← hThird] at hVault
  rcases Loader.exists_record (R := Manager) hPlain hManager
      "asset_manager" (b :: c :: cs) with
    ⟨x, hX, hXKey, hXValue⟩
  rcases Loader.exists_record (R := Ledger) hPlain hLedger
      "pool_ledger" (c :: cs) with
    ⟨y, hY, hYKey, hYValue⟩
  rcases Loader.exists_record (R := ShareVault) hPlain hVault
      "share_vault" cs with
    ⟨z, hZ, hZKey, hZValue⟩
  refine
    ⟨{ manager := x, ledger := y, vault := z }, ?_,
      hXKey.trans hFirst, hXValue, hYKey.trans hSecond,
      hZKey.trans hThird, hYValue, hZValue⟩
  apply Loader.load_eq_ok_iff.mpr
  refine ⟨cs, ?_⟩
  rw [hMerged]
  unfold take
  apply Loader.bind_eq_ok_iff.mpr
  refine ⟨x, b :: c :: cs, hX, ?_⟩
  apply Loader.bind_eq_ok_iff.mpr
  refine ⟨y, c :: cs, hY, ?_⟩
  apply Loader.bind_eq_ok_iff.mpr
  refine ⟨z, cs, hZ, ?_⟩
  exact Loader.pure_eq_ok_iff.mpr ⟨rfl, rfl⟩

/-
  A question about a manager is answered to whoever names its
  books, and changes nothing.
-/
theorem Program.execute_view
    {l : Ledger Address}
    {v : ShareVault Address}
    {i : Instruction Address}
    {question : Capital.Desk → Except Error Answer}
    {answer : Answer}
    {metas : List Meta}
    {rest : List Address}
    (hPlain : s.IsPlain)
    (hManager : s.state? key = some (.manager m))
    (hLedger : s.state? m.custodian = some (.ledger l))
    (hVault : s.state? m.vault = some (.shareVault v))
    (hMetas :
      metas.map Meta.key =
        key :: m.custodian :: m.vault :: rest)
    (hView :
      i.effect s metas = Capital.view question s metas)
    (hAnswer :
      ∀ d : Capital.Desk,
        d.manager.key = key → d.manager.value = m →
          d.position = { ledger := l, vault := v } →
            question d = .ok answer) :
    execute s
        { programId := Address.program
          metas := metas
          instruction := i } =
      .ok ({ answer := answer, log := [], events := [] }, s)
      := by
  rcases Capital.Desk.exists_take hPlain hManager hLedger
      hVault hMetas with
    ⟨d, hTake, hKey, hRecord, hBook, hSafe, hBookValue,
      hSafeValue⟩
  have hPosition :
      d.position = { ledger := l, vault := v } := by
    rw [← hBookValue, ← hSafeValue]
    rfl
  apply execute_eq_ok_iff.mpr
  refine ⟨rfl, ⟨[], _⟩, ?_, rfl, rfl⟩
  simp only [hView, Capital.view, Except.bind_eq_ok_iff,
    Except.pure_eq_ok_iff, Capital.Desk.expectLedger,
    Capital.Desk.expectVault, Loaded.expect_eq_ok_iff,
    Fault.ofRule_eq_ok_iff]
  refine
    ⟨d, hTake, (), ?_, (), ?_, answer,
      hAnswer d hKey hRecord hPosition, rfl⟩
  · rw [hBook, hRecord]
  · rw [hSafe, hRecord]

/- A view of the value answers the worth of the shares. -/
theorem Program.execute_viewAum
    {l : Ledger Address}
    {v : ShareVault Address}
    {value : UInt64}
    (hPlain : s.IsPlain)
    (hManager : s.state? key = some (.manager m))
    (hLedger : s.state? m.custodian = some (.ledger l))
    (hVault : s.state? m.vault = some (.shareVault v))
    (hValue : Manager.aum key v = .ok value) :
    Program.AnswersAum s key m value := by
  intro metas rest hMetas
  apply execute_view hPlain hManager hLedger hVault hMetas
    rfl
  intro d hKey hRecord hPosition
  have hSafe : d.vault.value = v :=
    congrArg Position.vault hPosition
  simp only [Except.bind_eq_ok_iff, Except.pure_eq_ok_iff]
  refine ⟨value, ?_, rfl⟩
  rw [hKey, hSafe]
  exact hValue

------------------------------------------------------------
-- Wired Stores
------------------------------------------------------------

/- The books of a live manager, and what they say of it. -/
theorem Store.IsWired.exists_books
    (hWired : s.IsWired)
    (hManager : s.state? key = some (.manager m))
    (hLive : m.live = true) :
    ∃ l v e,
      s.state? m.custodian = some (.ledger l) ∧
        s.state? m.vault = some (.shareVault v) ∧
        l.entry m.token = .ok e ∧
        e.managed = v.balanceOf key := by
  have hRecord : WiredManager s key m :=
    hWired.wired key _ hManager
  rcases hRecord.books with ⟨l, v, hLedger, hVault, hBound⟩
  rcases hBound.settled hLive with ⟨e, hEntry, hManaged⟩
  exact ⟨l, v, e, hLedger, hVault, hEntry, hManaged⟩

/- The managed balance of a live manager counts its shares. -/
private theorem managed_eq_balanceOf
    {v : ShareVault Address}
    (hWired : s.IsWired)
    (hManager : s.state? key = some (.manager m))
    (hLive : m.live = true)
    (hVault : s.state? m.vault = some (.shareVault v)) :
    s.managed m = (v.balanceOf key).toNat := by
  rcases hWired.exists_books hManager hLive with
    ⟨l, w, e, hLedger, hFound, hEntry, hManaged⟩
  rw [hVault] at hFound
  cases hFound
  unfold Store.managed
  simp only [hLedger, hEntry, hManaged]

/-
  Only live managers that invest in a vault own shares of it,
  each as many as it has managed.
-/
private theorem managedIn_eq_balanceOf
    {vaultKey : Address}
    {v : ShareVault Address}
    (hWired : s.IsWired)
    (hVault : s.state? vaultKey = some (.shareVault v))
    (key : Address) :
    (s.state? key).elim 0 (State.managedIn s vaultKey) =
      (v.balanceOf key).toNat := by
  by_cases hOwner :
      ∃ m,
        s.state? key = some (.manager m) ∧
          m.live = true ∧ m.vault = vaultKey
  · rcases hOwner with ⟨m, hManager, hLive, rfl⟩
    rw [← managed_eq_balanceOf hWired hManager hLive hVault,
      hManager]
    exact if_pos ⟨hLive, rfl⟩
  · have hRecord : WiredVault s vaultKey v :=
      hWired.wired vaultKey _ hVault
    have hNone : key ∉ v.owners :=
      fun hOwns => hOwner (hRecord.owners key hOwns)
    rw [ShareVault.balanceOf_of_not_mem hNone]
    cases hState : s.state? key with
    | none => rfl
    | some state =>
        cases state with
        | manager m =>
            exact if_neg fun hIs => hOwner ⟨m, hState, hIs⟩
        | ledger l => rfl
        | shareVault w => rfl
        | gauge g => rfl
        | forwarder f => rfl
        | relayer r => rfl

/- All that is managed in a vault is what it has issued. -/
private theorem sum_managedIn
    {vaultKey : Address}
    {v : ShareVault Address}
    (hWired : s.IsWired)
    (hVault : s.state? vaultKey = some (.shareVault v)) :
    s.sum (State.managedIn s vaultKey) = v.issued := by
  have hRecord : WiredVault s vaultKey v :=
    hWired.wired vaultKey _ hVault
  have hCover :
      ∀ h ∈ v.holdings, h.shares.toNat ≠ 0 →
        h.owner ∈ s.accounts.map Prod.fst := by
    intro h hMem _
    have hOwner : h.owner ∈ v.owners :=
      List.mem_map_of_mem hMem
    rcases hRecord.owners h.owner hOwner with ⟨m, hState, -⟩
    exact Store.mem_of_state? hState
  rw [Store.sum_eq_sum_state?,
    List.map_congr_left fun k _ =>
      managedIn_eq_balanceOf hWired hVault k]
  exact
    ShareVault.sum_balanceOf hRecord.par.nodup s.nodup hCover

/- A wired store is backed. -/
theorem Store.IsWired.isBacked
    (hWired : s.IsWired) :
    s.IsBacked := by
  refine { vaults := ?_, managers := ?_, sums := ?_ }
  · intro key v hVault
    have hRecord : WiredVault s key v :=
      hWired.wired key _ hVault
    exact
      ⟨hRecord.par.nodup, hRecord.par.par,
        hRecord.par.issued.symm⟩
  · intro key m hManager hLive
    rcases hWired.exists_books hManager hLive with
      ⟨l, v, e, hLedger, hVault, hEntry, hManaged⟩
    have hSettled :=
      hWired.settled hManager hLedger hVault hLive
    refine
      ⟨l, v, e, hLedger, hVault, hEntry, hManaged, ?_⟩
    apply Program.execute_viewAum hWired.plain hManager
      hLedger hVault
    rw [hManaged]
    exact hSettled.par.worth key
  · intro key v hVault
    have hRecord : WiredVault s key v :=
      hWired.wired key _ hVault
    rw [sum_managedIn hWired hVault, hRecord.par.issued,
      hRecord.par.par]

------------------------------------------------------------
-- Runs
------------------------------------------------------------

namespace Program

/-
  Every store that a run reaches from one without accounts of
  the program is backed.
-/
theorem isBacked_of_run
    (hForeign :
      ∀ key account, s.find? key = some account →
        account.owner ≠ Address.program)
    (calls : List Call) :
    (run s calls).IsBacked :=
  (isWired_of_run (Store.isWired_of_foreign hForeign)
    calls).isBacked

/- In the small run, all of the vault is the manager's. -/
theorem isBacked_smallCalls :
    (∀ key account,
        smallStore.find? key = some account →
          account.owner ≠ Address.program) ∧
      (run smallStore smallCalls).sum
          (State.managedIn (run smallStore smallCalls)
            smallTerms.vault) = 197 ∧
      (run smallStore smallCalls).IsBacked :=
  ⟨owner_of_smallStore, by decide +kernel,
    isBacked_of_run owner_of_smallStore smallCalls⟩

end Program

end YieldManager

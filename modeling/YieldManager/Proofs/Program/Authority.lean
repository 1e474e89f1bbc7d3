import YieldManager.Proofs.Program.Runs

/-
  The configuration of a pool is up to its authority.  Calls
  that the authority has not signed leave the ledger with its
  mints, and the managers and relayers of the pool, as they
  are, except that a manager may go live.  They move no
  capital on request either, since a relayer has the authority
  of its pool.

  Main declarations:
    * `State.Keeps`
    * `Store.Keeps`
    * `Change.keeps`
    * `Changes.keeps`
    * `Store.KeepsPool`
    * `Call.requested`
    * `Program.exists_fault_of_requested`
    * `Program.keepsPool_of_run`
-/

------------------------------------------------------------
-- Records of a Pool
------------------------------------------------------------

namespace YieldManager

/- What lies at an address configures a pool. -/
def State.Configures
    (poolId : Address) : Option (State Address) → Prop
  | some (.ledger l) => l.poolId = poolId
  | some (.manager m) => m.poolId = poolId
  | some (.relayer r) => r.poolId = poolId
  | _ => False

/-
  Of what configures a pool, the second state differs from
  the first in the balances of its ledger at most, and in a
  manager that has gone live.
-/
inductive State.Keeps (poolId : Address) :
    Option (State Address) →
      Option (State Address) → Prop where
  | other
      {x y : Option (State Address)}
      (hOld : ¬ Configures poolId x)
      (hNew : ¬ Configures poolId y) :
      Keeps poolId x y
  | ledger
      {l l' : Ledger Address}
      (hBooks : l.SameBooks l') :
      Keeps poolId (some (.ledger l)) (some (.ledger l'))
  | manager
      {m : Manager Address}
      {live : Bool}
      (hLive : m.live = true → live = true) :
      Keeps poolId (some (.manager m))
        (some (.manager { m with live := live }))
  | relayer
      {r : RelayerAccount Address} :
      Keeps poolId (some (.relayer r)) (some (.relayer r))

namespace State.Keeps

variable {poolId : Address}
variable {x y z : Option (State Address)}

/- What stays as it is is kept. -/
theorem refl
    (x : Option (State Address)) :
    Keeps poolId x x := by
  cases x with
  | none => exact .other id id
  | some state =>
      cases state with
      | ledger l => exact .ledger (.refl l)
      | manager m => exact .manager id
      | relayer r => exact .relayer
      | shareVault v => exact .other id id
      | gauge g => exact .other id id
      | forwarder f => exact .other id id

/- What is kept configures what it did. -/
theorem configures_iff
    (hKeeps : Keeps poolId x y) :
    Configures poolId x ↔ Configures poolId y := by
  cases hKeeps with
  | other hOld hNew => exact iff_of_false hOld hNew
  | ledger hBooks =>
      simp only [Configures, hBooks.poolId]
  | manager hLive => rfl
  | relayer => rfl

/- What is kept in steps is kept. -/
theorem trans
    (hFirst : Keeps poolId x y)
    (hSecond : Keeps poolId y z) :
    Keeps poolId x z := by
  by_cases hPool : Configures poolId x
  · have hNext := hFirst.configures_iff.mp hPool
    cases hFirst with
    | other hOld hNew => exact absurd hPool hOld
    | ledger hBooks =>
        cases hSecond with
        | other hOld hNew => exact absurd hNext hOld
        | ledger hSame => exact .ledger (hBooks.trans hSame)
    | manager hLive =>
        cases hSecond with
        | other hOld hNew => exact absurd hNext hOld
        | manager hStays =>
            exact .manager fun hIs => hStays (hLive hIs)
    | relayer => exact hSecond
  · apply other hPool
    rw [← hSecond.configures_iff, ← hFirst.configures_iff]
    exact hPool

/- A ledger of the pool that is kept has the same books. -/
theorem exists_ledger
    {l : Ledger Address}
    (hKeeps : Keeps poolId (some (.ledger l)) y)
    (hPool : l.poolId = poolId) :
    ∃ l', y = some (.ledger l') ∧ l.SameBooks l' := by
  cases hKeeps with
  | other hOld hNew => exact absurd hPool hOld
  | ledger hBooks => exact ⟨_, rfl, hBooks⟩

/- A manager of the pool that is kept may be live at most. -/
theorem exists_manager
    {m : Manager Address}
    (hKeeps : Keeps poolId (some (.manager m)) y)
    (hPool : m.poolId = poolId) :
    ∃ live,
      y = some (.manager { m with live := live }) ∧
        (m.live = true → live = true) := by
  cases hKeeps with
  | other hOld hNew => exact absurd hPool hOld
  | manager hLive => exact ⟨_, rfl, hLive⟩

/- A manager of the pool has been one before. -/
theorem exists_earlier
    {n : Manager Address}
    (hKeeps : Keeps poolId x (some (.manager n)))
    (hPool : n.poolId = poolId) :
    ∃ m, x = some (.manager m) ∧ m.poolId = poolId := by
  cases hKeeps with
  | other hOld hNew => exact absurd hPool hNew
  | manager hLive => exact ⟨_, rfl, hPool⟩

/- A relayer of the pool is there just when it was. -/
theorem relayer_iff
    {r : RelayerAccount Address}
    (hKeeps : Keeps poolId x y)
    (hPool : r.poolId = poolId) :
    x = some (.relayer r) ↔ y = some (.relayer r) := by
  constructor
  · rintro rfl
    cases hKeeps with
    | other hOld hNew => exact absurd hPool hOld
    | relayer => rfl
  · rintro rfl
    cases hKeeps with
    | other hOld hNew => exact absurd hPool hNew
    | relayer => rfl

end State.Keeps

namespace Store

/- Whatever configures a pool is kept. -/
def Keeps
    (poolId : Address)
    (s t : Store) : Prop :=
  ∀ k, State.Keeps poolId (s.state? k) (t.state? k)

variable {s t u : Store}
variable {poolId key : Address}

/- Keeping a pool is transitive. -/
theorem Keeps.trans
    (hFirst : s.Keeps poolId t)
    (hSecond : t.Keeps poolId u) :
    s.Keeps poolId u :=
  fun k => (hFirst k).trans (hSecond k)

/- A record that is put concerns its own address only. -/
theorem keeps_insert
    {space : Nat}
    {new : State Address}
    (hKeeps :
      State.Keeps poolId (s.state? key) (some new)) :
    s.Keeps poolId (s.insert key (.stored space new)) := by
  intro k
  rw [state?_insert]
  split
  · next hKey =>
      subst hKey
      exact hKeeps
  · exact .refl _

/- Two records that are put concern their own addresses. -/
theorem keeps_insert_insert
    {k₁ k₂ : Address}
    {old₁ new₁ old₂ new₂ : State Address}
    {space₁ space₂ : Nat}
    (hFirst : s.state? k₁ = some old₁)
    (hSecond : s.state? k₂ = some old₂)
    (hDiffer : old₁ ≠ old₂)
    (hNewFirst : State.Keeps poolId (some old₁) (some new₁))
    (hNewSecond :
      State.Keeps poolId (some old₂) (some new₂)) :
    s.Keeps poolId
      ((s.insert k₁ (.stored space₁ new₁)).insert k₂
        (.stored space₂ new₂)) := by
  apply (keeps_insert (hFirst ▸ hNewFirst)).trans
  apply keeps_insert
  rw [state?_insert_of_differ hFirst hSecond hDiffer]
  exact hNewSecond

------------------------------------------------------------
-- The Authority of a Pool
------------------------------------------------------------

variable {l : Ledger Address}

/- The ledger of a pool is found at the address for it. -/
theorem IsWired.state?_ofLedger
    (hWired : s.IsWired)
    (hLedger : s.state? key = some (.ledger l))
    (hPool : poolId = l.poolId) :
    s.state? (.ofLedger poolId) = some (.ledger l) := by
  have hRecord : WiredLedger s key l :=
    hWired.wired key _ hLedger
  rw [hPool, ← hRecord.derived]
  exact hLedger

/- A pool has no second ledger. -/
theorem IsWired.ledger_unique
    {k : Address}
    {b : Ledger Address}
    (hWired : s.IsWired)
    (hLedger : s.state? key = some (.ledger l))
    (hOther : s.state? k = some (.ledger b))
    (hPool : b.poolId = l.poolId) :
    b = l := by
  have hRecord : WiredLedger s k b :=
    hWired.wired k _ hOther
  rw [hRecord.derived,
    hWired.state?_ofLedger hLedger hPool] at hOther
  cases hOther
  rfl

/- A manager has the authority of its pool. -/
theorem IsWired.authority_of_manager
    {k : Address}
    {m : Manager Address}
    (hWired : s.IsWired)
    (hLedger : s.state? key = some (.ledger l))
    (hManager : s.state? k = some (.manager m))
    (hPool : m.poolId = l.poolId) :
    m.authority = l.authority := by
  have hRecord : WiredManager s k m :=
    hWired.wired k _ hManager
  rcases hRecord.books with ⟨b, v, hBook, -, hBound⟩
  have hSame :=
    hWired.ledger_unique hLedger hBook
      (hBound.poolId.trans hPool)
  rw [hBound.authority, hSame]

/- A relayer has the authority of its pool. -/
theorem IsWired.authority_of_relayer
    {k : Address}
    {r : RelayerAccount Address}
    (hWired : s.IsWired)
    (hLedger : s.state? key = some (.ledger l))
    (hRelayer : s.state? k = some (.relayer r))
    (hPool : r.poolId = l.poolId) :
    r.authority = l.authority := by
  have hRecord : WiredRelayer s k r :=
    hWired.wired k _ hRelayer
  rcases hRecord.ledger with
    ⟨b, hBook, hSamePool, hAuthority⟩
  have hSame :=
    hWired.ledger_unique hLedger hBook
      (hSamePool.trans hPool)
  rw [← hAuthority, hSame]

end Store

------------------------------------------------------------
-- Changes Without the Authority
------------------------------------------------------------

variable {signed : Address → Prop}
variable {flow : Address → Int}
variable {s t : Store}
variable {key : Address}
variable {l : Ledger Address}

/- Nothing is opened for a pool without its authority. -/
private theorem not_configures_of_opened
    {k : Address}
    {state : State Address}
    (hWired : s.IsWired)
    (hLedger : s.state? key = some (.ledger l))
    (hUnsigned : ¬ signed l.authority)
    (hFree : s.state? k = none)
    (hOpened : Opened signed s k state) :
    ¬ State.Configures l.poolId (some state) := by
  intro hPool
  cases hOpened with
  | ledger hValid =>
      -- The pool has its ledger at the address already.
      have hTaken := hWired.state?_ofLedger hLedger hPool
      exact nomatch hTaken.symm.trans hFree
  | shareVault hValid => exact hPool
  | gauge => exact hPool
  | forwarder => exact hPool
  | manager hBook hVault hDerived hCreate hBind hSigned =>
      rcases Manager.bind_eq_ok_iff.mp hBind with
        ⟨hCreator, -, hSamePool, -, -, rfl⟩
      have hSame :=
        hWired.ledger_unique hLedger hBook
          (hSamePool.symm.trans hPool)
      apply hUnsigned
      rw [← hSame, ← hCreator]
      exact hSigned
  | relayer hBook hDerived hAuthority hRelayer hSigned =>
      have hTaken := hWired.state?_ofLedger hLedger hPool
      rw [hDerived] at hBook
      cases hTaken.symm.trans hBook
      apply hUnsigned
      rw [hAuthority]
      exact hSigned

/- Adding a token takes the authority of the pool. -/
private theorem keeps_of_addToken
    {k mint : Address}
    {b b' : Ledger Address}
    {u : Unit}
    (hWired : s.IsWired)
    (hLedger : s.state? key = some (.ledger l))
    (hUnsigned : ¬ signed l.authority)
    (hBook : s.state? k = some (.ledger b))
    (hRun : Ledger.addToken mint b = .ok u b')
    (hSigned : signed b.authority) :
    State.Keeps l.poolId (some (.ledger b))
      (some (.ledger b')) := by
  rcases Ledger.addToken_eq_ok_iff.mp hRun with
    ⟨-, -, rfl⟩
  have hOther : b.poolId ≠ l.poolId := by
    intro hPool
    have hSame := hWired.ledger_unique hLedger hBook hPool
    exact hUnsigned (hSame ▸ hSigned)
  exact .other hOther hOther

/- Setting targets takes the authority of the pool. -/
private theorem keeps_of_setTargets
    {k caller poolId : Address}
    {targets : Targets}
    {m m' : Manager Address}
    {u : Unit}
    (hWired : s.IsWired)
    (hLedger : s.state? key = some (.ledger l))
    (hUnsigned : ¬ signed l.authority)
    (hManager : s.state? k = some (.manager m))
    (hRun :
      Manager.setTargets caller poolId targets m =
        .ok u m')
    (hSigned : signed caller) :
    State.Keeps l.poolId (some (.manager m))
      (some (.manager m')) := by
  rcases Manager.setTargets_eq_ok_iff.mp hRun with
    ⟨hCaller, -, -, rfl⟩
  have hOther : m.poolId ≠ l.poolId := by
    intro hPool
    apply hUnsigned
    rw [← hWired.authority_of_manager hLedger hManager hPool,
      ← hCaller]
    exact hSigned
  exact .other hOther hOther

/- Going live leaves a manager and its ledger otherwise. -/
private theorem keeps_of_activate
    {k poolId : Address}
    {m m' : Manager Address}
    {b b' : Ledger Address}
    {u : Unit}
    (pool : Address)
    (hRun :
      Manager.activate k poolId (m, b) = .ok u (m', b')) :
    State.Keeps pool (some (.manager m))
        (some (.manager m')) ∧
      State.Keeps pool (some (.ledger b))
        (some (.ledger b')) := by
  rcases Manager.sameBooks_of_activate hRun with
    ⟨rfl, hBooks⟩
  exact ⟨.manager fun _ => rfl, .ledger hBooks⟩

/- A change keeps a pool whose authority has not signed. -/
theorem Change.keeps
    (hChange : Change signed flow s t)
    (hWired : s.IsWired)
    (hLedger : s.state? key = some (.ledger l))
    (hUnsigned : ¬ signed l.authority) :
    s.Keeps l.poolId t := by
  cases hChange with
  | opened hFree hOpened =>
      apply Store.keeps_insert
      rw [hFree]
      exact
        .other id
          (not_configures_of_opened hWired hLedger hUnsigned
            hFree hOpened)
  | tokenAdded hBook hRun hValid hSigned =>
      have hOld := Store.state?_of_find? hBook
      apply Store.keeps_insert
      rw [hOld]
      exact
        keeps_of_addToken hWired hLedger hUnsigned
          hOld hRun hSigned
  | gaugeSet hGauge =>
      apply Store.keeps_insert
      rw [Store.state?_of_find? hGauge]
      exact .other id id
  | forwarderSet hForwarder =>
      apply Store.keeps_insert
      rw [Store.state?_of_find? hForwarder]
      exact .other id id
  | activated hManager hBook hCustodian hRun =>
      rcases keeps_of_activate l.poolId hRun with
        ⟨hFirst, hSecond⟩
      exact
        Store.keeps_insert_insert
          (Store.state?_of_find? hManager)
          (Store.state?_of_find? hBook) nofun hFirst hSecond
  | targetsSet hManager hRun hSigned =>
      have hOld := Store.state?_of_find? hManager
      apply Store.keeps_insert
      rw [hOld]
      exact
        keeps_of_setTargets hWired hLedger hUnsigned hOld hRun
          hSigned
  | operated hRebooked hOperated =>
      rcases hRebooked.state? with ⟨-, hBook, hSafe⟩
      have hAdvanced := hRebooked.advanced hWired hOperated
      rcases hRebooked.books with ⟨_, _, -, -, rfl⟩
      exact
        Store.keeps_insert_insert hBook hSafe nofun
          (.ledger hAdvanced.books) (.other id id)

/- Changes keep a pool whose authority has not signed. -/
theorem Changes.keeps
    (hChanges : Changes signed flow s t)
    (hWired : s.IsWired)
    (hLedger : s.state? key = some (.ledger l))
    (hUnsigned : ¬ signed l.authority) :
    s.Keeps l.poolId t := by
  -- The ledger is carried along: its authority stays.
  induction hChanges generalizing l with
  | refl s => exact fun k => .refl _
  | head hChange hRest hTotal ih =>
      have hFirst := hChange.keeps hWired hLedger hUnsigned
      have hKept := hFirst key
      rw [hLedger] at hKept
      rcases hKept.exists_ledger rfl with
        ⟨b, hBook, hBooks⟩
      have hLater :=
        ih (hChange.isWired hWired) hBook
          (hBooks.authority ▸ hUnsigned)
      rw [hBooks.poolId] at hLater
      exact hFirst.trans hLater

------------------------------------------------------------
-- Pools That Are Kept
------------------------------------------------------------

/-
  The second store has the pool of a ledger as the first has
  it: the ledger with its mints, the managers but for their
  going live, and the relayers; none of these is new.
-/
structure Store.KeepsPool
    (key : Address)
    (l : Ledger Address)
    (s t : Store) : Prop where
  ledger :
    ∃ l',
      t.state? key = some (.ledger l') ∧
        l'.poolId = l.poolId ∧
        l'.authority = l.authority ∧
        l'.relayer = l.relayer ∧ l'.mints = l.mints
  managers :
    ∀ k m, s.state? k = some (.manager m) →
      m.poolId = l.poolId →
      ∃ live,
        t.state? k =
            some (.manager { m with live := live }) ∧
          (m.live = true → live = true)
  earlier :
    ∀ k n, t.state? k = some (.manager n) →
      n.poolId = l.poolId →
      ∃ m,
        s.state? k = some (.manager m) ∧
          m.poolId = l.poolId
  relayers :
    ∀ k r, r.poolId = l.poolId →
      (s.state? k = some (.relayer r) ↔
        t.state? k = some (.relayer r))

/- A pool is kept if all that configures it is. -/
theorem Store.Keeps.keepsPool
    (hKeeps : s.Keeps l.poolId t)
    (hLedger : s.state? key = some (.ledger l)) :
    s.KeepsPool key l t where
  ledger := by
    have hKept := hKeeps key
    rw [hLedger] at hKept
    rcases hKept.exists_ledger rfl with ⟨l', hNew, hBooks⟩
    exact
      ⟨l', hNew, hBooks.poolId, hBooks.authority,
        hBooks.relayer, hBooks.mints⟩
  managers k m hManager hPool := by
    have hKept := hKeeps k
    rw [hManager] at hKept
    exact hKept.exists_manager hPool
  earlier k n hManager hPool := by
    have hKept := hKeeps k
    rw [hManager] at hKept
    exact hKept.exists_earlier hPool
  relayers k r hPool := (hKeeps k).relayer_iff hPool

------------------------------------------------------------
-- Requested Moves
------------------------------------------------------------

/- The manager whose capital a call asks to move. -/
def Call.requested (call : Call) : Option Address :=
  match call.instruction with
  | .capitalIn _ _ => (call.metas.map Meta.key)[2]?
  | .capitalOut _ _ => (call.metas.map Meta.key)[2]?
  | _ => none

/- A call that asks for a move only succeeds if it may. -/
private theorem requested_of_effect
    {call : Call}
    {effect : Effect}
    {k : Address}
    (hPlain : s.IsPlain)
    (hRequested : call.requested = some k)
    (hRun :
      call.instruction.effect s call.metas = .ok effect) :
    ∃ m, Capital.Requested s call.metas k m := by
  have hMoves :
      (∃ key m, Capital.Requested s call.metas key m) ∧
        (call.metas.map Meta.key)[2]? = some k := by
    unfold Call.requested at hRequested
    cases hInstruction : call.instruction with
    | capitalIn poolId amount =>
        rw [hInstruction] at hRequested hRun
        exact
          ⟨Capital.requested_of_capitalIn hPlain hRun,
            hRequested⟩
    | capitalOut poolId amount =>
        rw [hInstruction] at hRequested hRun
        exact
          ⟨Capital.requested_of_capitalOut hPlain hRun,
            hRequested⟩
    | _ => simp [hInstruction] at hRequested
  rcases hMoves with ⟨⟨key, m, hMove⟩, hNamed⟩
  cases hMove.named.symm.trans hNamed
  exact ⟨m, hMove⟩

namespace Program

/- No capital of a pool moves on request of others. -/
theorem exists_fault_of_requested
    {call : Call}
    {k : Address}
    {m : Manager Address}
    (hWired : s.IsWired)
    (hLedger : s.state? key = some (.ledger l))
    (hUnsigned : ¬ Meta.Signs call.metas l.authority)
    (hRequested : call.requested = some k)
    (hManager : s.state? k = some (.manager m))
    (hPool : m.poolId = l.poolId) :
    ∃ fault, execute s call = .error fault := by
  cases hRun : execute s call with
  | error fault => exact ⟨fault, rfl⟩
  | ok result =>
      rcases execute_eq_ok_iff.mp hRun with
        ⟨-, effect, hEffect, -⟩
      rcases requested_of_effect hWired.plain hRequested
          hEffect with ⟨n, hMove⟩
      have hSame := hMove.manager.symm.trans hManager
      cases hSame
      rcases hMove.relayer with
        ⟨place, r, hRelayer, hRelayed, hSigns⟩
      have hAuthority :=
        hWired.authority_of_relayer hLedger hRelayer
          (hRelayed.trans hPool)
      exact absurd (hAuthority ▸ hSigns) hUnsigned

------------------------------------------------------------
-- Runs
------------------------------------------------------------

/-
  However a store was reached, a further run whose calls the
  authority of a pool does not sign keeps the pool, and then
  no such call moves capital of its managers on request.
-/
theorem keepsPool_of_run
    (hForeign :
      ∀ key account, s.find? key = some account →
        account.owner ≠ Address.program)
    (calls : List Call)
    (hLedger :
      (run s calls).state? key = some (.ledger l))
    (later : List Call)
    (hUnsigned :
      ∀ call ∈ later, ¬ Meta.Signs call.metas l.authority) :
    (run s calls).KeepsPool key l
        (run (run s calls) later) ∧
      ∀ call k m,
        ¬ Meta.Signs call.metas l.authority →
        call.requested = some k →
        (run (run s calls) later).state? k =
          some (.manager m) →
        m.poolId = l.poolId →
        ∃ fault,
          execute (run (run s calls) later) call =
            .error fault := by
  have hWired :=
    isWired_of_run (Store.isWired_of_foreign hForeign) calls
  have hNobody : ¬ SignedBy later l.authority := by
    rintro ⟨call, hMem, hSigns⟩
    exact hUnsigned call hMem hSigns
  have hKept :=
    ((changes_of_run hWired.plain later).keeps hWired hLedger
      hNobody).keepsPool hLedger
  refine ⟨hKept, ?_⟩
  intro call k m hOthers hRequested hManager hPool
  rcases hKept.ledger with
    ⟨b, hBook, hSamePool, hAuthority, -⟩
  exact
    exists_fault_of_requested (isWired_of_run hWired later)
      hBook (hAuthority ▸ hOthers) hRequested hManager
      (hPool.trans hSamePool.symm)

/- The ledger of the small run, with what it has left. -/
def smallLedger : Ledger Address where
  poolId := smallTerms.poolId
  authority := smallKey 3
  relayer := .ofRelayer smallTerms.poolId
  entries :=
    [{ mint := smallTerms.token, cash := 198, managed := 197,
       manager :=
        .ofManager smallTerms.poolId smallTerms.token }]
  bump := Address.bump

/- A call that only a stranger to the pool signs. -/
def strangerCall
    (instruction : Instruction Address)
    (keys : List Address) : Call where
  programId := Address.program
  metas := (smallKey 9 :: keys).map fun key =>
    { key := key, signer := key = smallKey 9,
      writable := true }
  instruction := instruction

/-
  A stranger may join the pool and force it to rebalance, but
  does not get to set the targets.
-/
def strangerCalls : List Call :=
  let pool := smallTerms.poolId
  let mint := smallTerms.token
  let ledger := smallTerms.custodian
  let vault := smallTerms.vault
  let manager := Address.ofManager pool mint
  let relayer := Address.ofRelayer pool
  [ strangerCall
      (.setTargets pool { target := 0, upper := 0, lower := 0 })
      [manager],
    strangerCall
      (.joinPool pool mint
        { assets := [mint], maxAmounts := [1000] })
      [relayer, ledger, manager, vault],
    strangerCall (.rebalance pool true)
      [manager, ledger, vault] ]

/- A stranger asks to divest some of the pool. -/
def strangerMove : Call :=
  strangerCall (.capitalOut smallTerms.poolId 100)
    [.ofRelayer smallTerms.poolId,
      .ofManager smallTerms.poolId smallTerms.token,
      smallTerms.custodian, smallTerms.vault]

/- The small pool is kept from the stranger. -/
theorem keepsPool_strangerCalls :
    (∀ key account,
        smallStore.find? key = some account →
          account.owner ≠ Address.program) ∧
      (run smallStore smallCalls).state?
          smallTerms.custodian =
        some (.ledger smallLedger) ∧
      (∀ call ∈ strangerCalls,
        ¬ Meta.Signs call.metas smallLedger.authority) ∧
      (run (run smallStore smallCalls) strangerCalls).state?
          (.ofManager smallTerms.poolId smallTerms.token) =
        some (.manager smallManager) ∧
      (run smallStore smallCalls).KeepsPool
        smallTerms.custodian smallLedger
        (run (run smallStore smallCalls) strangerCalls) ∧
      ∃ fault,
        execute
            (run (run smallStore smallCalls) strangerCalls)
            strangerMove =
          .error fault := by
  have hLedger :
      (run smallStore smallCalls).state?
          smallTerms.custodian =
        some (.ledger smallLedger) := by
    decide +kernel
  have hUnsigned :
      ∀ call ∈ strangerCalls,
        ¬ Meta.Signs call.metas smallLedger.authority := by
    decide +kernel
  have hManager :
      (run (run smallStore smallCalls) strangerCalls).state?
          (.ofManager smallTerms.poolId smallTerms.token) =
        some (.manager smallManager) := by
    decide +kernel
  rcases keepsPool_of_run owner_of_smallStore smallCalls
      hLedger strangerCalls hUnsigned with ⟨hKeeps, hFault⟩
  exact
    ⟨owner_of_smallStore, hLedger, hUnsigned, hManager,
      hKeeps,
      hFault strangerMove _ smallManager (by decide +kernel)
        rfl hManager rfl⟩

end Program

end YieldManager

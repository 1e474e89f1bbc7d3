import YieldManager.Proofs.Ledger.Entries
import YieldManager.Proofs.Program.Loading
import YieldManager.Proofs.Vault.Par

/-
  The wiring of a store: each record lies at the address
  derived for it, names records that exist and agree with it,
  and the managers registered in ledgers are just those that
  are live.  The managed balance of a live manager is the
  number of its shares.

  What a record needs of the store is told separately for
  each kind, so that a change of some records only has to
  answer for these.

  Main declarations:
    * `WiredEntry`
    * `WiredLedger`
    * `WiredVault`
    * `Bound`
    * `WiredManager`
    * `WiredRelayer`
    * `Store.IsWired`
    * `Store.Continues`
    * `Store.Replaced`
    * `Store.Spares`
    * `Store.isWired_of_foreign`
    * `Store.IsWired.transfer`
-/

------------------------------------------------------------
-- Wired Records
------------------------------------------------------------

namespace YieldManager

/- A derived address is not the zero key. -/
theorem Address.derived_ne_zero
    (seed : Seed)
    (args : List Address) :
    Address.derived seed args ≠ 0 :=
  nofun

/-
  An entry without a manager has no managed balance, and a
  manager that is registered is live, and of pool and token.
-/
structure WiredEntry
    (s : Store)
    (poolId mint : Address)
    (e : Entry Address) : Prop where
  unmanaged : e.manager = 0 → e.managed = 0
  registered :
    e.manager ≠ 0 →
      ∃ m,
        s.state? e.manager = some (.manager m) ∧
          m.live = true ∧ m.poolId = poolId ∧
          m.token = mint

/- A ledger is valid, at its address, with wired entries. -/
structure WiredLedger
    (s : Store)
    (key : Address)
    (l : Ledger Address) : Prop where
  derived : key = .ofLedger l.poolId
  relayer : l.relayer = .ofRelayer l.poolId
  valid : l.isValid = true
  entries :
    ∀ mint e, l.entry mint = .ok e →
      WiredEntry s l.poolId mint e

/- A vault is valid and at par, and live managers own it. -/
structure WiredVault
    (s : Store)
    (key : Address)
    (v : ShareVault Address) : Prop where
  valid : v.isValid = true
  par : v.IsPar
  owners :
    ∀ x ∈ v.owners,
      ∃ m,
        s.state? x = some (.manager m) ∧ m.live = true ∧
          m.vault = key

/-
  A manager agrees with its ledger and its vault.  It is live
  just when it is registered, and then its managed balance is
  the number of its shares.
-/
structure Bound
    (key : Address)
    (m : Manager Address)
    (l : Ledger Address)
    (v : ShareVault Address) : Prop where
  poolId : l.poolId = m.poolId
  authority : m.authority = l.authority
  rebalancer : m.rebalancer = l.relayer
  asset : v.asset = m.token
  registered :
    m.live = true ↔
      ∃ e, l.entry m.token = .ok e ∧ e.manager = key
  settled :
    m.live = true →
      ∃ e, l.entry m.token = .ok e ∧
        e.managed = v.balanceOf key

/- A manager is at its address, and bound to its books. -/
structure WiredManager
    (s : Store)
    (key : Address)
    (m : Manager Address) : Prop where
  derived : key = .ofManager m.poolId m.token
  custodian : m.custodian = .ofLedger m.poolId
  targets : m.targets.validate = .ok ()
  books :
    ∃ l v,
      s.state? m.custodian = some (.ledger l) ∧
        s.state? m.vault = some (.shareVault v) ∧
        Bound key m l v

/- A relayer is idle, at its address, and of its pool. -/
structure WiredRelayer
    (s : Store)
    (key : Address)
    (r : RelayerAccount Address) : Prop where
  derived : key = .ofRelayer r.poolId
  lock : r.lock = .idle
  ledger :
    ∃ l,
      s.state? r.ledger = some (.ledger l) ∧
        l.poolId = r.poolId ∧ l.authority = r.authority

/- What the record at an address needs of the store. -/
def Wired
    (s : Store)
    (key : Address) : State Address → Prop
  | .ledger l => WiredLedger s key l
  | .shareVault v => WiredVault s key v
  | .manager m => WiredManager s key m
  | .relayer r => WiredRelayer s key r
  | .gauge _ => True
  | .forwarder _ => True

namespace Store

/- A store that the program wrote, with all records wired. -/
structure IsWired (s : Store) : Prop where
  plain : s.IsPlain
  wired :
    ∀ key state, s.state? key = some state →
      Wired s key state

/- Where the program has no account, nothing is to wire. -/
theorem isWired_of_foreign
    {s : Store}
    (hForeign :
      ∀ key account, s.find? key = some account →
        account.owner ≠ Address.program) :
    s.IsWired := by
  refine { plain := ?_, wired := ?_ }
  · intro key owner data hFound
    exact hForeign key _ hFound
  · intro key state hState
    rw [state?_of_foreign hForeign] at hState
    cases hState

end Store

------------------------------------------------------------
-- What Persists
------------------------------------------------------------

/-
  The second state is one that the first may turn into: no
  record changes its kind, nor what others rely on.
-/
inductive State.Continues :
    State Address → State Address → Prop where
  | ledger
      {l l' : Ledger Address}
      (hPoolId : l'.poolId = l.poolId)
      (hAuthority : l'.authority = l.authority)
      (hRelayer : l'.relayer = l.relayer) :
      Continues (.ledger l) (.ledger l')
  | shareVault
      {v w : ShareVault Address}
      (hTerms : v.SameTerms w) :
      Continues (.shareVault v) (.shareVault w)
  | manager
      {m n : Manager Address}
      (hPoolId : n.poolId = m.poolId)
      (hToken : n.token = m.token)
      (hVault : n.vault = m.vault)
      (hLive : m.live = true → n.live = true) :
      Continues (.manager m) (.manager n)
  | gauge
      {g g' : Gauge Address} :
      Continues (.gauge g) (.gauge g')
  | forwarder
      {f f' : Forwarder Address} :
      Continues (.forwarder f) (.forwarder f')
  | relayer
      {r : RelayerAccount Address} :
      Continues (.relayer r) (.relayer r)

/- Every state continues itself. -/
theorem State.Continues.refl
    (state : State Address) :
    state.Continues state := by
  cases state with
  | ledger l => exact .ledger rfl rfl rfl
  | shareVault v => exact .shareVault (.refl v)
  | manager m => exact .manager rfl rfl rfl fun h => h
  | gauge g => exact .gauge
  | forwarder f => exact .forwarder
  | relayer r => exact .relayer

/- What a state may turn into, it may turn into in steps. -/
theorem State.Continues.trans
    {first second third : State Address}
    (hFirst : first.Continues second)
    (hSecond : second.Continues third) :
    first.Continues third := by
  cases hFirst with
  | ledger hPoolId hAuthority hRelayer =>
      cases hSecond with
      | ledger hPool hOwner hFront =>
          exact
            .ledger (hPool.trans hPoolId)
              (hOwner.trans hAuthority)
              (hFront.trans hRelayer)
  | shareVault hTerms =>
      cases hSecond with
      | shareVault hSame =>
          exact .shareVault (hTerms.trans hSame)
  | manager hPoolId hToken hVault hLive =>
      cases hSecond with
      | manager hPool hMint hPlace hStays =>
          exact
            .manager (hPool.trans hPoolId)
              (hMint.trans hToken) (hPlace.trans hVault)
              fun hIs => hStays (hLive hIs)
  | gauge =>
      cases hSecond with
      | gauge => exact .gauge
  | forwarder =>
      cases hSecond with
      | forwarder => exact .forwarder
  | relayer => exact hSecond

namespace Store

/- Every record of the first store continues in the second. -/
def Continues (s t : Store) : Prop :=
  ∀ key state, s.state? key = some state →
    ∃ new,
      t.state? key = some new ∧ state.Continues new

variable {s t : Store}

/- Putting what continues the old record is a continuation. -/
theorem continues_insert
    {key : Address}
    {space : Nat}
    {state : State Address}
    (hState :
      ∀ old, s.state? key = some old →
        old.Continues state) :
    s.Continues (s.insert key (.stored space state)) := by
  intro k old hOld
  rw [state?_insert]
  by_cases hKey : k = key
  · subst hKey
    rw [if_pos rfl]
    exact ⟨state, rfl, hState old hOld⟩
  · rw [if_neg hKey]
    exact ⟨old, hOld, .refl old⟩

/- Replacing a record by what it may turn into continues. -/
theorem continues_replace
    {key : Address}
    {space : Nat}
    {old new : State Address}
    (hOld : s.state? key = some old)
    (hState : old.Continues new) :
    s.Continues (s.insert key (.stored space new)) := by
  apply continues_insert
  intro state hFound
  rw [hOld] at hFound
  cases hFound
  exact hState

/- Continuing is transitive. -/
theorem Continues.trans
    {u : Store}
    (hFirst : s.Continues t)
    (hSecond : t.Continues u) :
    s.Continues u := by
  intro key state hState
  rcases hFirst key state hState with
    ⟨middle, hMiddle, hLeft⟩
  rcases hSecond key middle hMiddle with ⟨new, hNew, hRight⟩
  exact ⟨new, hNew, hLeft.trans hRight⟩

/-
  The second store has new records at two addresses, and is
  otherwise the first; all records continue.
-/
structure Replaced
    (s t : Store)
    (k₁ : Address)
    (new₁ : State Address)
    (k₂ : Address)
    (new₂ : State Address) : Prop where
  plain : t.IsPlain
  continues : s.Continues t
  first : t.state? k₁ = some new₁
  second : t.state? k₂ = some new₂
  others :
    ∀ k, k ≠ k₁ → k ≠ k₂ → t.state? k = s.state? k

/- Putting two records that continue the old ones. -/
theorem replaced_insert
    {k₁ k₂ : Address}
    {old₁ new₁ old₂ new₂ : State Address}
    (hPlain : s.IsPlain)
    (hFirst : s.state? k₁ = some old₁)
    (hSecond : s.state? k₂ = some old₂)
    (hDiffer : old₁ ≠ old₂)
    (hNewFirst : old₁.Continues new₁)
    (hNewSecond : old₂.Continues new₂)
    (space₁ space₂ : Nat) :
    Replaced s
      ((s.insert k₁ (.stored space₁ new₁)).insert k₂
        (.stored space₂ new₂)) k₁ new₁ k₂ new₂ := by
  have hKinds := ne_of_state? hFirst hSecond hDiffer
  have hMiddle :=
    state?_insert_of_differ hFirst hSecond hDiffer space₁
      new₁
  refine
    { plain := (hPlain.insert _ _ _).insert _ _ _
      continues :=
        (continues_replace hFirst hNewFirst).trans
          (continues_replace hMiddle hNewSecond)
      first := ?_
      second := ?_
      others := ?_ }
  · rw [state?_insert, if_neg hKinds, state?_insert,
      if_pos rfl]
  · rw [state?_insert, if_pos rfl]
  · intro k hNotFirst hNotSecond
    rw [state?_insert, if_neg hNotSecond, state?_insert,
      if_neg hNotFirst]

/- A live manager stays live, and of its pool and vault. -/
theorem Continues.manager
    {key : Address}
    {m : Manager Address}
    (hContinues : s.Continues t)
    (hManager : s.state? key = some (.manager m))
    (hLive : m.live = true) :
    ∃ n,
      t.state? key = some (.manager n) ∧
        n.live = true ∧ n.poolId = m.poolId ∧
        n.token = m.token ∧ n.vault = m.vault := by
  rcases hContinues key _ hManager with ⟨_, hNew, hState⟩
  cases hState with
  | manager hPoolId hToken hVault hStays =>
      exact
        ⟨_, hNew, hStays hLive, hPoolId, hToken, hVault⟩

end Store

------------------------------------------------------------
-- What Is Spared
------------------------------------------------------------

/-
  The second ledger leaves the manager and the managed balance
  of a token as they are in the first; its cash may differ.  A
  token that is new has no manager.
-/
structure Ledger.Spares
    (mint : Address)
    (l l' : Ledger Address) : Prop where
  poolId : l'.poolId = l.poolId
  authority : l'.authority = l.authority
  relayer : l'.relayer = l.relayer
  kept :
    ∀ e, l.entry mint = .ok e →
      ∃ cash, l'.entry mint = .ok { e with cash := cash }
  fresh :
    ∀ e, l'.entry mint = .ok e → e.manager ≠ 0 →
      ∃ old, l.entry mint = .ok old

namespace Ledger.Spares

variable {mint : Address}
variable {l l' l'' : Ledger Address}

/- Only entries differ, and the token keeps all but cash. -/
theorem of_sameBooks
    (hBooks : l.SameBooks l')
    (hKept :
      ∀ e, l.entry mint = .ok e →
        ∃ cash,
          l'.entry mint = .ok { e with cash := cash }) :
    Spares mint l l' where
  poolId := hBooks.poolId
  authority := hBooks.authority
  relayer := hBooks.relayer
  kept := hKept
  fresh _ hEntry _ :=
    exists_entry (hBooks.mints ▸ mem_mints_of_entry hEntry)

/- Every ledger leaves itself as it is. -/
theorem refl
    (mint : Address)
    (l : Ledger Address) :
    Spares mint l l :=
  of_sameBooks (.refl l) fun e hEntry => ⟨e.cash, hEntry⟩

/- A ledger continues in one that spares a token. -/
theorem continues
    (hSpares : Spares mint l l') :
    State.Continues (.ledger l) (.ledger l') :=
  .ledger hSpares.poolId hSpares.authority hSpares.relayer

/- A ledger that adds a token leaves all tokens as they are. -/
theorem of_addToken
    {new : Address}
    {u : Unit}
    (mint : Address)
    (hRun : addToken new l = .ok u l') :
    Spares mint l l' := by
  have hEntries := entry_of_addToken hRun
  rcases addToken_eq_ok_iff.mp hRun with ⟨hNew, -, rfl⟩
  refine
    { poolId := rfl, authority := rfl, relayer := rfl,
      kept := ?_, fresh := ?_ }
  · intro e hEntry
    have hOther : mint ≠ new := by
      intro hSame
      subst hSame
      exact hNew (mem_mints_of_entry hEntry)
    refine ⟨e.cash, ?_⟩
    rw [hEntries, if_neg hOther]
    exact hEntry
  · intro e hEntry hManager
    rw [hEntries] at hEntry
    split at hEntry
    · cases hEntry
      exact absurd rfl hManager
    · exact ⟨e, hEntry⟩

/- Rewriting the entry of another token leaves this one. -/
theorem setEntry
    {new : Entry Address}
    (l : Ledger Address)
    (hMint : mint ≠ new.mint) :
    Spares mint l (l.setEntry new) := by
  apply of_sameBooks (SameBooks.setEntry l new)
  intro e hEntry
  rw [entry_setEntry_of_ne l hMint]
  exact ⟨e.cash, hEntry⟩

end Ledger.Spares

/- A manager stays bound to books that spare it. -/
theorem Bound.spared
    {key : Address}
    {m : Manager Address}
    {l l' : Ledger Address}
    {v w : ShareVault Address}
    (hBound : Bound key m l v)
    (hKey : key ≠ 0)
    (hLedger : l.Spares m.token l')
    (hTerms : v.SameTerms w)
    (hBalance : w.balanceOf key = v.balanceOf key) :
    Bound key m l' w := by
  refine
    { poolId := hLedger.poolId.trans hBound.poolId
      authority := ?_
      rebalancer := ?_
      asset := hTerms.asset.trans hBound.asset
      registered := ?_
      settled := ?_ }
  · rw [hLedger.authority]
    exact hBound.authority
  · rw [hLedger.relayer]
    exact hBound.rebalancer
  · rw [hBound.registered]
    constructor
    · intro hOld
      rcases hOld with ⟨e, hEntry, hManager⟩
      rcases hLedger.kept e hEntry with ⟨cash, hKept⟩
      exact ⟨_, hKept, hManager⟩
    · intro hNew
      rcases hNew with ⟨e, hEntry, hManager⟩
      have hRegistered : e.manager ≠ 0 := by
        rw [hManager]
        exact hKey
      rcases hLedger.fresh e hEntry hRegistered with
        ⟨old, hOld⟩
      rcases hLedger.kept old hOld with ⟨cash, hKept⟩
      rw [hEntry] at hKept
      cases hKept
      exact ⟨old, hOld, hManager⟩
  · intro hLive
    rcases hBound.settled hLive with ⟨e, hEntry, hManaged⟩
    rcases hLedger.kept e hEntry with ⟨cash, hKept⟩
    exact ⟨_, hKept, hManaged.trans hBalance.symm⟩

namespace Store

/-
  The second store leaves the books of the manager at a key
  as they are for it.
-/
structure Spares
    (s t : Store)
    (key : Address)
    (m : Manager Address) : Prop where
  ledger :
    ∀ l, s.state? m.custodian = some (.ledger l) →
      ∃ l',
        t.state? m.custodian = some (.ledger l') ∧
          l.Spares m.token l'
  vault :
    ∀ v, s.state? m.vault = some (.shareVault v) →
      ∃ w,
        t.state? m.vault = some (.shareVault w) ∧
          v.SameTerms w ∧ w.balanceOf key = v.balanceOf key

namespace Spares

variable {s : Store}
variable {key : Address}
variable {m : Manager Address}

/- Putting a record spares a manager if its books do. -/
theorem of_insert
    {place : Address}
    {space : Nat}
    {state : State Address}
    (hLedger :
      ∀ l, m.custodian = place →
        s.state? place = some (.ledger l) →
          ∃ l', state = .ledger l' ∧ l.Spares m.token l')
    (hVault :
      ∀ v, s.state? place = some (.shareVault v) →
        ∃ w,
          state = .shareVault w ∧ v.SameTerms w ∧
            w.balanceOf key = v.balanceOf key) :
    s.Spares (s.insert place (.stored space state)) key m := by
  refine { ledger := ?_, vault := ?_ }
  · intro l hFound
    rw [state?_insert]
    by_cases hPlace : m.custodian = place
    · rw [if_pos hPlace]
      rcases hLedger l hPlace (hPlace ▸ hFound) with
        ⟨l', rfl, hSpares⟩
      exact ⟨l', rfl, hSpares⟩
    · rw [if_neg hPlace]
      exact ⟨l, hFound, .refl m.token l⟩
  · intro v hFound
    rw [state?_insert]
    by_cases hPlace : m.vault = place
    · rw [if_pos hPlace]
      rcases hVault v (hPlace ▸ hFound) with
        ⟨w, rfl, hTerms, hBalance⟩
      exact ⟨w, rfl, hTerms, hBalance⟩
    · rw [if_neg hPlace]
      exact ⟨v, hFound, .refl v, rfl⟩

/- Records other than ledgers and vaults spare all managers. -/
theorem of_insert_other
    {place : Address}
    {space : Nat}
    {state : State Address}
    (hLedger : ∀ l, s.state? place ≠ some (.ledger l))
    (hVault : ∀ v, s.state? place ≠ some (.shareVault v)) :
    s.Spares (s.insert place (.stored space state)) key m := by
  apply of_insert
  · intro l _ hFound
    exact absurd hFound (hLedger l)
  · intro v hFound
    exact absurd hFound (hVault v)

end Spares

------------------------------------------------------------
-- Transfer
------------------------------------------------------------

variable {s t : Store}

/- A record that stays as it is stays wired. -/
theorem Continues.wired
    {key : Address}
    {state : State Address}
    (hContinues : s.Continues t)
    (hWired : Wired s key state)
    (hSpares :
      ∀ m, state = .manager m → s.Spares t key m) :
    Wired t key state := by
  cases state with
  | ledger l =>
      refine { hWired with entries := ?_ }
      intro mint e hEntry
      have hOld := hWired.entries mint e hEntry
      refine { hOld with registered := ?_ }
      intro hManager
      rcases hOld.registered hManager with
        ⟨m, hState, hLive, hPoolId, hToken⟩
      rcases hContinues.manager hState hLive with
        ⟨n, hNew, hStays, hSamePool, hSameToken, -⟩
      exact
        ⟨n, hNew, hStays, hSamePool.trans hPoolId,
          hSameToken.trans hToken⟩
  | shareVault v =>
      refine { hWired with owners := ?_ }
      intro x hOwner
      rcases hWired.owners x hOwner with
        ⟨m, hState, hLive, hVault⟩
      rcases hContinues.manager hState hLive with
        ⟨n, hNew, hStays, -, -, hSameVault⟩
      exact ⟨n, hNew, hStays, hSameVault.trans hVault⟩
  | manager m =>
      refine { hWired with books := ?_ }
      rcases hWired.books with ⟨l, v, hLedger, hVault, hBound⟩
      rcases (hSpares m rfl).ledger l hLedger with
        ⟨l', hNewLedger, hKept⟩
      rcases (hSpares m rfl).vault v hVault with
        ⟨w, hNewVault, hTerms, hBalance⟩
      have hKey : key ≠ 0 := by
        rw [hWired.derived]
        exact Address.derived_ne_zero _ _
      exact
        ⟨l', w, hNewLedger, hNewVault,
          hBound.spared hKey hKept hTerms hBalance⟩
  | gauge g => trivial
  | forwarder f => trivial
  | relayer r =>
      refine { hWired with ledger := ?_ }
      rcases hWired.ledger with
        ⟨l, hLedger, hPoolId, hAuthority⟩
      rcases hContinues r.ledger _ hLedger with
        ⟨_, hNew, hState⟩
      cases hState with
      | ledger hSamePool hSameAuthority hSameRelayer =>
          exact
            ⟨_, hNew, hSamePool.trans hPoolId,
              hSameAuthority.trans hAuthority⟩

/-
  A store stays wired if its records continue, and each of
  them is wired or an old one whose manager is spared.
-/
theorem IsWired.transfer
    (hWired : s.IsWired)
    (hPlain : t.IsPlain)
    (hContinues : s.Continues t)
    (hStates :
      ∀ key state, t.state? key = some state →
        Wired t key state ∨
          s.state? key = some state ∧
            ∀ m, state = .manager m → s.Spares t key m) :
    t.IsWired := by
  refine { plain := hPlain, wired := ?_ }
  intro key state hState
  rcases hStates key state hState with
    hNew | ⟨hOld, hSpares⟩
  · exact hNew
  · exact
      hContinues.wired (hWired.wired key state hOld) hSpares

end Store

end YieldManager

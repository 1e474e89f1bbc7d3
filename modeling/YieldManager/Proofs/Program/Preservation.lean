import YieldManager.Proofs.Manager.Lifecycle
import YieldManager.Proofs.Program.Change
import YieldManager.Proofs.Program.Wiring

/-
  Changes keep a store wired.  There is one lemma for each
  kind of change; each answers for the records that it puts,
  and shows that the books of all other managers are spared.

  Main declarations:
    * `Store.IsWired.insert`
    * `Opened.wired`
    * `Change.isWired`
    * `Changes.isWired`
-/

------------------------------------------------------------
-- Opened Accounts
------------------------------------------------------------

namespace YieldManager

/-
  Putting a record in the place of nothing, or of a record
  other than a ledger or a vault, concerns itself alone.
-/
theorem Store.IsWired.insert
    {s : Store}
    {key : Address}
    {space : Nat}
    {state : State Address}
    (hWired : s.IsWired)
    (hContinues :
      ∀ old, s.state? key = some old → old.Continues state)
    (hLedger : ∀ l, s.state? key ≠ some (.ledger l))
    (hVault : ∀ v, s.state? key ≠ some (.shareVault v))
    (hNew :
      Wired (s.insert key (.stored space state)) key state) :
    (s.insert key (.stored space state)).IsWired := by
  apply hWired.transfer (hWired.plain.insert key space state)
    (Store.continues_insert hContinues)
  intro k old hState
  rw [Store.state?_insert] at hState
  split at hState
  · next hKey =>
      subst hKey
      cases hState
      exact Or.inl hNew
  · refine Or.inr ⟨hState, ?_⟩
    intro m _
    exact Store.Spares.of_insert_other hLedger hVault

variable {signed : Address → Prop}
variable {s t : Store}

/- A manager is bound to nothing while its key is free. -/
private theorem bound_of_bind
    {key creator ledgerKey vaultKey : Address}
    {terms : Terms Address}
    {l : Ledger Address}
    {v : ShareVault Address}
    {unbound m : Manager Address}
    (hWired : s.IsWired)
    (hFree : s.state? key = none)
    (hDerived :
      key = .derived .manager [terms.poolId, terms.token])
    (hLedger : s.state? ledgerKey = some (.ledger l))
    (hCreate :
      Manager.create terms Address.bump = .ok unbound)
    (hBind :
      Manager.bind creator ledgerKey l vaultKey v unbound =
        .ok () m) :
    Bound key m l v := by
  rcases Manager.create_eq_ok_iff.mp hCreate with
    ⟨-, -, -, -, rfl⟩
  rcases Manager.bind_eq_ok_iff.mp hBind with
    ⟨-, -, hPoolId, -, hAsset, rfl⟩
  refine
    { poolId := hPoolId.symm, authority := rfl,
      rebalancer := rfl, asset := hAsset,
      registered := ?_, settled := ?_ }
  · constructor
    · intro hLive
      exact absurd hLive Bool.false_ne_true
    · intro hEntry
      rcases hEntry with ⟨e, hEntry, hManager⟩
      have hBook : WiredLedger s ledgerKey l :=
        hWired.wired ledgerKey _ hLedger
      have hRegistered : e.manager ≠ 0 := by
        rw [hManager, hDerived]
        exact Address.derived_ne_zero _ _
      rcases (hBook.entries _ e hEntry).registered
          hRegistered with ⟨m, hState, -⟩
      rw [hManager, hFree] at hState
      cases hState
  · intro hLive
    exact absurd hLive Bool.false_ne_true

/- A record that is opened is wired. -/
theorem Opened.wired
    {key : Address}
    {state : State Address}
    (hOpened : Opened signed s key state)
    (hWired : s.IsWired)
    (hFree : s.state? key = none)
    (space : Nat) :
    Wired (s.insert key (.stored space state)) key state := by
  have hKept :
      ∀ k old, s.state? k = some old →
        (s.insert key (.stored space state)).state? k =
          some old := by
    intro k old hOld
    rw [Store.state?_insert, if_neg]
    · exact hOld
    · intro hKey
      subst hKey
      simp [hFree] at hOld
  cases hOpened with
  | ledger hValid =>
      refine
        { derived := rfl, relayer := rfl, valid := hValid,
          entries := ?_ }
      intro mint e hEntry
      simp [Creation.newLedger, Ledger.entry, Table.find?]
        at hEntry
  | shareVault hValid =>
      refine
        { valid := hValid
          par := ⟨⟨List.nodup_nil, rfl⟩, rfl⟩
          owners := ?_ }
      intro x hOwner
      simp [Creation.newShareVault, ShareVault.owners]
        at hOwner
  | gauge => trivial
  | forwarder => trivial
  | manager hLedger hVault hDerived hCreate hBind =>
      have hBound :=
        bound_of_bind hWired hFree rfl hLedger hCreate hBind
      rcases Manager.create_eq_ok_iff.mp hCreate with
        ⟨-, -, -, -, rfl⟩
      rcases Manager.bind_eq_ok_iff.mp hBind with
        ⟨-, hCustodian, -, hVaultKey, -, rfl⟩
      exact
        { derived := rfl
          custodian := hCustodian.trans hDerived
          targets := rfl
          books :=
            ⟨_, _, hKept _ _ (hCustodian ▸ hLedger),
              hKept _ _ (hVaultKey ▸ hVault), hBound⟩ }
  | relayer hLedger hDerived hAuthority hRelayer =>
      have hBook : WiredLedger s _ _ :=
        hWired.wired _ _ hLedger
      have hPoolId := hDerived.symm.trans hBook.derived
      simp only [Address.ofLedger, Address.derived.injEq,
        List.cons.injEq, and_true, true_and] at hPoolId
      exact
        { derived := rfl
          lock := rfl
          ledger :=
            ⟨_, hKept _ _ hLedger, hPoolId.symm,
              hAuthority⟩ }

/- Opening an account keeps a store wired. -/
theorem isWired_of_opened
    {key : Address}
    {space : Nat}
    {state : State Address}
    (hWired : s.IsWired)
    (hFree : s.state? key = none)
    (hOpened : Opened signed s key state) :
    (s.insert key (.stored space state)).IsWired := by
  have hNone :
      ∀ old, s.state? key ≠ some old := by
    intro old hOld
    rw [hFree] at hOld
    cases hOld
  apply hWired.insert
  · intro old hOld
    exact absurd hOld (hNone old)
  · intro l
    exact hNone (.ledger l)
  · intro v
    exact hNone (.shareVault v)
  · exact hOpened.wired hWired hFree space

------------------------------------------------------------
-- Upkeep
------------------------------------------------------------

/- Adding a token to a ledger keeps a store wired. -/
theorem isWired_of_addToken
    {key mint : Address}
    {space : Nat}
    {l l' : Ledger Address}
    {u : Unit}
    (hWired : s.IsWired)
    (hLedger : s.state? key = some (.ledger l))
    (hRun : Ledger.addToken mint l = .ok u l')
    (hValid : l'.isValid = true) :
    (s.insert key (.stored space (.ledger l'))).IsWired := by
  have hSpares :
      ∀ token, l.Spares token l' :=
    fun token => .of_addToken token hRun
  have hContinues :
      s.Continues
        (s.insert key (.stored space (.ledger l'))) :=
    Store.continues_replace hLedger
      (hSpares mint).continues
  apply hWired.transfer (hWired.plain.insert _ _ _) hContinues
  intro k state hState
  rw [Store.state?_insert] at hState
  split at hState
  · next hKey =>
      subst hKey
      cases hState
      left
      have hOld : WiredLedger _ k l :=
        hContinues.wired (hWired.wired k _ hLedger) nofun
      have hEntries := Ledger.entry_of_addToken hRun
      rcases Ledger.addToken_eq_ok_iff.mp hRun with
        ⟨-, -, rfl⟩
      refine { hOld with valid := hValid, entries := ?_ }
      intro token e hEntry
      rw [hEntries] at hEntry
      split at hEntry
      · cases hEntry
        exact
          { unmanaged := fun _ => rfl
            registered := fun hManager =>
              absurd rfl hManager }
      · exact hOld.entries token e hEntry
  · refine Or.inr ⟨hState, ?_⟩
    intro m _
    apply Store.Spares.of_insert
    · intro old _ hOld
      rw [hLedger] at hOld
      cases hOld
      exact ⟨l', rfl, hSpares m.token⟩
    · intro v hVault
      rw [hLedger] at hVault
      cases hVault

/-
  Replacing a record other than a ledger or a vault keeps a
  store wired, if the new one needs no more than the old.
-/
theorem Store.IsWired.replace
    {key : Address}
    {space : Nat}
    {old new : State Address}
    (hWired : s.IsWired)
    (hOld : s.state? key = some old)
    (hContinues : old.Continues new)
    (hLedger : ∀ l, old ≠ .ledger l)
    (hVault : ∀ v, old ≠ .shareVault v)
    (hNew :
      ∀ t : Store, Wired t key old → Wired t key new) :
    (s.insert key (.stored space new)).IsWired := by
  have hPersists :
      ∀ state, s.state? key = some state →
        state.Continues new := by
    intro state hState
    rw [hOld] at hState
    cases hState
    exact hContinues
  have hNoLedger :
      ∀ l, s.state? key ≠ some (.ledger l) := by
    intro l hState
    rw [hOld] at hState
    exact hLedger l (Option.some.inj hState)
  have hNoVault :
      ∀ v, s.state? key ≠ some (.shareVault v) := by
    intro v hState
    rw [hOld] at hState
    exact hVault v (Option.some.inj hState)
  apply hWired.insert hPersists hNoLedger hNoVault
  apply hNew
  apply (Store.continues_insert hPersists).wired
    (hWired.wired key old hOld)
  intro m _
  exact .of_insert_other hNoLedger hNoVault

/- Setting the targets of a manager keeps a store wired. -/
theorem isWired_of_setTargets
    {key caller poolId : Address}
    {space : Nat}
    {targets : Targets}
    {m m' : Manager Address}
    {u : Unit}
    (hWired : s.IsWired)
    (hManager : s.state? key = some (.manager m))
    (hRun :
      Manager.setTargets caller poolId targets m =
        .ok u m') :
    (s.insert key (.stored space (.manager m'))).IsWired := by
  rcases Manager.setTargets_eq_ok_iff.mp hRun with
    ⟨-, -, hValid, rfl⟩
  refine
    hWired.replace hManager
      (.manager rfl rfl rfl fun hLive => hLive) nofun nofun
      ?_
  intro t hOld
  rcases hOld.books with ⟨l, v, hBook, hVault, hBound⟩
  exact
    { derived := hOld.derived
      custodian := hOld.custodian
      targets := hValid
      books := ⟨l, v, hBook, hVault, { hBound with }⟩ }

/- Setting a gauge keeps a store wired. -/
theorem isWired_of_gauge
    {key : Address}
    {space : Nat}
    {g g' : Gauge Address}
    (hWired : s.IsWired)
    (hGauge : s.state? key = some (.gauge g)) :
    (s.insert key (.stored space (.gauge g'))).IsWired :=
  hWired.replace hGauge .gauge nofun nofun
    fun _ _ => trivial

/- Setting a forwarder keeps a store wired. -/
theorem isWired_of_forwarder
    {key : Address}
    {space : Nat}
    {f f' : Forwarder Address}
    (hWired : s.IsWired)
    (hForwarder : s.state? key = some (.forwarder f)) :
    (s.insert key
      (.stored space (.forwarder f'))).IsWired :=
  hWired.replace hForwarder .forwarder nofun nofun
    fun _ _ => trivial

------------------------------------------------------------
-- Activation
------------------------------------------------------------

/- Distinct managers of one pool manage distinct tokens. -/
theorem WiredManager.token_ne
    {key k : Address}
    {m n : Manager Address}
    (hFirst : WiredManager s key m)
    (hSecond : WiredManager s k n)
    (hKey : k ≠ key)
    (hCustodian : n.custodian = m.custodian) :
    n.token ≠ m.token := by
  intro hToken
  have hPool := hCustodian
  rw [hSecond.custodian, hFirst.custodian] at hPool
  simp only [Address.ofLedger, Address.derived.injEq,
    List.cons.injEq, and_true, true_and] at hPool
  apply hKey
  rw [hSecond.derived, hFirst.derived, hPool, hToken]

/- Rewriting an entry by a wired one keeps a ledger wired. -/
private theorem WiredLedger.setEntry
    {key mint : Address}
    {l : Ledger Address}
    {e new : Entry Address}
    (hWired : WiredLedger t key l)
    (hEntry : l.entry mint = .ok e)
    (hMint : new.mint = mint)
    (hNew : WiredEntry t l.poolId mint new) :
    WiredLedger t key (l.setEntry new) := by
  have hSame := Ledger.SameBooks.setEntry l new
  refine
    { derived := hWired.derived
      relayer := hWired.relayer
      valid := hSame.isValid.trans hWired.valid
      entries := ?_ }
  intro token d hFound
  by_cases hToken : token = mint
  · subst hToken
    rw [Ledger.entry_setEntry_self new hEntry hMint] at hFound
    cases hFound
    exact hNew
  · rw [Ledger.entry_setEntry_of_ne l (hMint ▸ hToken)]
      at hFound
    exact hWired.entries token d hFound

/- A manager that registers where it has nothing is bound. -/
private theorem Bound.activated
    {key : Address}
    {m : Manager Address}
    {l : Ledger Address}
    {v : ShareVault Address}
    {e : Entry Address}
    (hBound : Bound key m l v)
    (hEntry : l.entry m.token = .ok e)
    (hManaged : e.managed = 0)
    (hBalance : v.balanceOf key = 0) :
    Bound key { m with live := true }
      (l.setEntry { e with manager := key }) v := by
  have hMint : e.mint = m.token :=
    Ledger.mint_of_entry hEntry
  have hSelf :=
    Ledger.entry_setEntry_self { e with manager := key }
      hEntry hMint
  exact
    { poolId := hBound.poolId
      authority := hBound.authority
      rebalancer := hBound.rebalancer
      asset := hBound.asset
      registered := ⟨fun _ => ⟨_, hSelf, rfl⟩, fun _ => rfl⟩
      settled := fun _ =>
        ⟨_, hSelf, hManaged.trans hBalance.symm⟩ }

/- A manager that is not live has no shares. -/
private theorem balanceOf_of_not_live
    {key vaultKey : Address}
    {m : Manager Address}
    {v : ShareVault Address}
    (hVault : WiredVault s vaultKey v)
    (hManager : s.state? key = some (.manager m))
    (hLive : m.live = false) :
    v.balanceOf key = 0 := by
  apply ShareVault.balanceOf_of_not_mem
  intro hOwner
  rcases hVault.owners key hOwner with ⟨n, hState, hIs, -⟩
  rw [hManager] at hState
  cases hState
  rw [hLive] at hIs
  cases hIs

/- Nothing is managed where a manager registers. -/
theorem managed_of_register
    {key poolId : Address}
    {m : Manager Address}
    {l l' : Ledger Address}
    {v : ShareVault Address}
    {u : Unit}
    (hLedger : WiredLedger s m.custodian l)
    (hBound : Bound key m l v)
    (hLive : m.live = false)
    (hRun : Ledger.register poolId m.token key l = .ok u l') :
    ∃ e,
      l.entry m.token = .ok e ∧ e.managed = 0 ∧
        l' = l.setEntry { e with manager := key } := by
  rcases Ledger.register_eq_ok_iff.mp hRun with
    ⟨-, e, hEntry, hFree, rfl⟩
  have hNobody : e.manager = 0 := by
    apply hFree.resolve_right
    intro hSelf
    have hIs := hBound.registered.mpr ⟨e, hEntry, hSelf⟩
    rw [hLive] at hIs
    cases hIs
  have hManaged :=
    (hLedger.entries m.token e hEntry).unmanaged hNobody
  exact ⟨e, hEntry, hManaged, rfl⟩

/- Manager and ledger continue when the manager goes live. -/
private theorem continues_of_activate
    {key poolId : Address}
    {m m' : Manager Address}
    {l l' : Ledger Address}
    {u : Unit}
    (hRun :
      Manager.activate key poolId (m, l) =
        .ok u (m', l')) :
    State.Continues (.manager m) (.manager m') ∧
      State.Continues (.ledger l) (.ledger l') := by
  rcases Manager.sameBooks_of_activate hRun with
    ⟨rfl, hBooks⟩
  exact
    ⟨.manager rfl rfl rfl fun _ => rfl,
      .ledger hBooks.poolId hBooks.authority hBooks.relayer⟩

/- Registering a manager spares the managers of other tokens. -/
private theorem spares_of_activate
    {key k : Address}
    {m m' n : Manager Address}
    {l : Ledger Address}
    {e : Entry Address}
    (hManager : WiredManager s key m)
    (hOther : WiredManager s k n)
    (hKey : k ≠ key)
    (hState : s.state? key = some (.manager m))
    (hLedger : s.state? m.custodian = some (.ledger l))
    (hMint : e.mint = m.token)
    (hReplaced :
      s.Replaced t key (.manager m') m.custodian
        (.ledger (l.setEntry { e with manager := key }))) :
    s.Spares t k n := by
  refine { ledger := ?_, vault := ?_ }
  · intro b hFound
    by_cases hBooks : n.custodian = m.custodian
    · rw [hBooks, hLedger] at hFound
      cases hFound
      refine ⟨_, hBooks ▸ hReplaced.second, ?_⟩
      apply Ledger.Spares.setEntry
      simp only
      rw [hMint]
      exact hManager.token_ne hOther hKey hBooks
    · have hNe := Store.ne_of_state? hFound hState nofun
      exact
        ⟨b, (hReplaced.others _ hNe hBooks).trans hFound,
          .refl n.token b⟩
  · intro b hFound
    have hNotManager :=
      Store.ne_of_state? hFound hState nofun
    have hNotLedger :=
      Store.ne_of_state? hFound hLedger nofun
    exact
      ⟨b,
        (hReplaced.others _ hNotManager hNotLedger).trans
          hFound,
        .refl b, rfl⟩

/- Making a manager live keeps a store wired. -/
theorem isWired_of_activate
    {key poolId : Address}
    {m m' : Manager Address}
    {l l' : Ledger Address}
    {u : Unit}
    (hWired : s.IsWired)
    (hManager : s.state? key = some (.manager m))
    (hLedger : s.state? m.custodian = some (.ledger l))
    (hRun :
      Manager.activate key poolId (m, l) =
        .ok u (m', l'))
    (hReplaced :
      s.Replaced t key (.manager m') m.custodian
        (.ledger l')) :
    t.IsWired := by
  have hOldManager : WiredManager s key m :=
    hWired.wired key _ hManager
  rcases hOldManager.books with
    ⟨book, v, hBook, hVault, hBound⟩
  rw [hLedger] at hBook
  cases hBook
  rcases Manager.activate_eq_ok_iff.mp hRun with
    ⟨hLive, -, -, hRegister, rfl⟩
  rcases managed_of_register
      (hWired.wired _ _ hLedger) hBound hLive hRegister with
    ⟨e, hEntry, hManaged, rfl⟩
  have hMint : e.mint = m.token :=
    Ledger.mint_of_entry hEntry
  have hBalance :=
    balanceOf_of_not_live (hWired.wired _ _ hVault) hManager
      hLive
  apply hWired.transfer hReplaced.plain hReplaced.continues
  intro k state hState
  by_cases hIsManager : k = key
  · subst hIsManager
    rw [hReplaced.first] at hState
    cases hState
    left
    have hStays :=
      (hReplaced.others m.vault
        (Store.ne_of_state? hVault hManager nofun)
        (Store.ne_of_state? hVault hLedger nofun)).trans
        hVault
    exact
      { derived := hOldManager.derived
        custodian := hOldManager.custodian
        targets := hOldManager.targets
        books :=
          ⟨_, v, hReplaced.second, hStays,
            hBound.activated hEntry hManaged hBalance⟩ }
  by_cases hIsLedger : k = m.custodian
  · subst hIsLedger
    rw [hReplaced.second] at hState
    cases hState
    left
    have hOld : WiredLedger t m.custodian l :=
      hReplaced.continues.wired (hWired.wired _ _ hLedger)
        nofun
    exact
      hOld.setEntry hEntry hMint
        { unmanaged := fun _ => hManaged
          registered := fun _ =>
            ⟨_, hReplaced.first, rfl, hBound.poolId.symm,
              rfl⟩ }
  · rw [hReplaced.others k hIsManager hIsLedger] at hState
    refine Or.inr ⟨hState, ?_⟩
    intro n hIs
    subst hIs
    exact
      spares_of_activate hOldManager
        (hWired.wired k _ hState) hIsManager hManager hLedger
        hMint hReplaced

------------------------------------------------------------
-- Operations
------------------------------------------------------------

section Operations

variable {key : Address}
variable {m : Manager Address}
variable {flow : Address → Int}
variable {l l' : Ledger Address}
variable {v v' : ShareVault Address}

/- An advance keeps the manager bound to its books. -/
private theorem Bound.advanced
    (hBound : Bound key m l v)
    (hLive : m.live = true)
    (hAdvanced :
      Manager.Advanced m key flow { ledger := l, vault := v }
        { ledger := l', vault := v' }) :
    Bound key m l' v' := by
  rcases hBound.registered.mp hLive with
    ⟨e, hEntry, hManager⟩
  rcases hAdvanced.own e hEntry with
    ⟨cash, managed, hAfter, -⟩
  exact
    { poolId := hAdvanced.books.poolId.trans hBound.poolId
      authority :=
        hBound.authority.trans hAdvanced.books.authority.symm
      rebalancer :=
        hBound.rebalancer.trans hAdvanced.books.relayer.symm
      asset := hAdvanced.terms.asset.trans hBound.asset
      registered :=
        ⟨fun _ => ⟨_, hAfter, hManager⟩, fun _ => hLive⟩
      settled := fun _ => hAdvanced.settled.managed }

/- An advance keeps the ledger of the manager wired. -/
private theorem WiredLedger.advanced
    {ledgerKey : Address}
    (hWired : WiredLedger t ledgerKey l)
    (hBound : Bound key m l v)
    (hLive : m.live = true)
    (hKey : key ≠ 0)
    (hAdvanced :
      Manager.Advanced m key flow { ledger := l, vault := v }
        { ledger := l', vault := v' }) :
    WiredLedger t ledgerKey l' := by
  have hBooks : l.SameBooks l' := hAdvanced.books
  refine
    { derived := ?_
      relayer := ?_
      valid := hBooks.isValid.trans hWired.valid
      entries := ?_ }
  · rw [hBooks.poolId]
    exact hWired.derived
  · rw [hBooks.poolId, hBooks.relayer]
    exact hWired.relayer
  · intro mint d hFound
    rw [hBooks.poolId]
    rcases Ledger.exists_entry
        (hBooks.mints ▸ Ledger.mem_mints_of_entry hFound) with
      ⟨e, hEntry⟩
    have hOld := hWired.entries mint e hEntry
    by_cases hToken : mint = m.token
    · subst hToken
      rcases hBound.registered.mp hLive with
        ⟨own, hOwn, hManager⟩
      rw [hEntry] at hOwn
      cases hOwn
      rcases hAdvanced.own e hEntry with
        ⟨cash, managed, hAfter, -⟩
      rw [hFound] at hAfter
      cases hAfter
      refine { hOld with unmanaged := ?_ }
      intro hZero
      exact absurd (hManager.symm.trans hZero) hKey
    · rcases hAdvanced.others mint e hToken hEntry with
        ⟨cash, -, hAfter⟩
      rw [hFound] at hAfter
      cases hAfter
      exact { hOld with }

/- An advance keeps the vault of the manager wired. -/
private theorem WiredVault.advanced
    {vaultKey : Address}
    (hWired : WiredVault t vaultKey v)
    (hManager : t.state? key = some (.manager m))
    (hLive : m.live = true)
    (hVaultKey : m.vault = vaultKey)
    (hAdvanced :
      Manager.Advanced m key flow { ledger := l, vault := v }
        { ledger := l', vault := v' }) :
    WiredVault t vaultKey v' := by
  refine
    { valid := ?_
      par := hAdvanced.settled.par
      owners := ?_ }
  · exact
      hAdvanced.terms.isValid hAdvanced.shares.capacity
        hWired.valid
  · intro x hOwner
    rcases hAdvanced.shares.owners x hOwner with hOld | hNew
    · exact hWired.owners x hOld
    · subst hNew
      exact ⟨m, hManager, hLive, hVaultKey⟩

/- An advance spares the managers of other tokens. -/
private theorem spares_of_advanced
    {k : Address}
    {n : Manager Address}
    (hManager : WiredManager s key m)
    (hOther : WiredManager s k n)
    (hKey : k ≠ key)
    (hLedger : s.state? m.custodian = some (.ledger l))
    (hVault : s.state? m.vault = some (.shareVault v))
    (hAdvanced :
      Manager.Advanced m key flow { ledger := l, vault := v }
        { ledger := l', vault := v' })
    (hReplaced :
      s.Replaced t m.custodian (.ledger l') m.vault
        (.shareVault v')) :
    s.Spares t k n := by
  refine { ledger := ?_, vault := ?_ }
  · intro b hFound
    by_cases hBooks : n.custodian = m.custodian
    · rw [hBooks, hLedger] at hFound
      cases hFound
      refine ⟨l', hBooks ▸ hReplaced.first, ?_⟩
      have hToken :=
        hManager.token_ne hOther hKey hBooks
      apply Ledger.Spares.of_sameBooks hAdvanced.books
      intro e hEntry
      rcases hAdvanced.others n.token e hToken hEntry with
        ⟨cash, -, hAfter⟩
      exact ⟨cash, hAfter⟩
    · have hNe := Store.ne_of_state? hFound hVault nofun
      exact
        ⟨b, (hReplaced.others _ hBooks hNe).trans hFound,
          .refl n.token b⟩
  · intro b hFound
    by_cases hSame : n.vault = m.vault
    · rw [hSame, hVault] at hFound
      cases hFound
      exact
        ⟨v', hSame ▸ hReplaced.second, hAdvanced.terms,
          hAdvanced.shares.others k hKey⟩
    · have hNe := Store.ne_of_state? hFound hLedger nofun
      exact
        ⟨b, (hReplaced.others _ hNe hSame).trans hFound,
          .refl b, rfl⟩

/- An operation of a live manager keeps a store wired. -/
theorem isWired_of_advanced
    (hWired : s.IsWired)
    (hManager : s.state? key = some (.manager m))
    (hLedger : s.state? m.custodian = some (.ledger l))
    (hVault : s.state? m.vault = some (.shareVault v))
    (hLive : m.live = true)
    (hAdvanced :
      Manager.Advanced m key flow { ledger := l, vault := v }
        { ledger := l', vault := v' })
    (hReplaced :
      s.Replaced t m.custodian (.ledger l') m.vault
        (.shareVault v')) :
    t.IsWired := by
  have hOldManager : WiredManager s key m :=
    hWired.wired key _ hManager
  rcases hOldManager.books with
    ⟨book, safe, hBook, hSafe, hBound⟩
  rw [hLedger] at hBook
  rw [hVault] at hSafe
  cases hBook
  cases hSafe
  have hKey : key ≠ 0 := by
    rw [hOldManager.derived]
    exact Address.derived_ne_zero _ _
  have hStays : t.state? key = some (.manager m) :=
    (hReplaced.others key
      (Store.ne_of_state? hManager hLedger nofun)
      (Store.ne_of_state? hManager hVault nofun)).trans
      hManager
  apply hWired.transfer hReplaced.plain hReplaced.continues
  intro k state hState
  by_cases hIsLedger : k = m.custodian
  · subst hIsLedger
    rw [hReplaced.first] at hState
    cases hState
    left
    have hOld : WiredLedger t m.custodian l :=
      hReplaced.continues.wired (hWired.wired _ _ hLedger)
        nofun
    exact hOld.advanced hBound hLive hKey hAdvanced
  by_cases hIsVault : k = m.vault
  · subst hIsVault
    rw [hReplaced.second] at hState
    cases hState
    left
    have hOld : WiredVault t m.vault v :=
      hReplaced.continues.wired (hWired.wired _ _ hVault)
        nofun
    exact hOld.advanced hStays hLive rfl hAdvanced
  rw [hReplaced.others k hIsLedger hIsVault] at hState
  by_cases hIsManager : k = key
  · subst hIsManager
    rw [hManager] at hState
    cases hState
    left
    exact
      { hOldManager with
        books :=
          ⟨l', v', hReplaced.first, hReplaced.second,
            hBound.advanced hLive hAdvanced⟩ }
  · refine Or.inr ⟨hState, ?_⟩
    intro n hIs
    subst hIs
    exact
      spares_of_advanced hOldManager
        (hWired.wired k _ hState) hIsManager hLedger hVault
        hAdvanced hReplaced

end Operations

------------------------------------------------------------
-- Changes
------------------------------------------------------------

variable {flow : Address → Int}

/- A live manager with its books in the store is settled. -/
theorem Store.IsWired.settled
    {key : Address}
    {m : Manager Address}
    {l : Ledger Address}
    {v : ShareVault Address}
    (hWired : s.IsWired)
    (hManager : s.state? key = some (.manager m))
    (hLedger : s.state? m.custodian = some (.ledger l))
    (hVault : s.state? m.vault = some (.shareVault v))
    (hLive : m.live = true) :
    Manager.Settled m key { ledger := l, vault := v } := by
  have hWiredManager : WiredManager s key m :=
    hWired.wired key _ hManager
  have hWiredVault : WiredVault s m.vault v :=
    hWired.wired m.vault _ hVault
  rcases hWiredManager.books with
    ⟨book, safe, hBook, hSafe, hBound⟩
  rw [hLedger] at hBook
  rw [hVault] at hSafe
  cases hBook
  cases hSafe
  exact
    { par := hWiredVault.par
      managed := hBound.settled hLive }

/- The vault of a manager is over its token. -/
theorem Store.IsWired.asset
    {key : Address}
    {m : Manager Address}
    {v : ShareVault Address}
    (hWired : s.IsWired)
    (hManager : s.state? key = some (.manager m))
    (hVault : s.state? m.vault = some (.shareVault v)) :
    v.asset = m.token := by
  have hWiredManager : WiredManager s key m :=
    hWired.wired key _ hManager
  rcases hWiredManager.books with
    ⟨book, safe, -, hSafe, hBound⟩
  rw [hVault] at hSafe
  cases hSafe
  exact hBound.asset

/- The books of a live manager are settled when wired. -/
theorem Rebooked.settled
    {key : Address}
    {m : Manager Address}
    {p q : Position Address (ShareVault Address)}
    (hRebooked : Rebooked key m p q s t)
    (hWired : s.IsWired)
    (hLive : m.live = true) :
    Manager.Settled m key p := by
  rcases hRebooked.state? with ⟨hManager, hLedger, hVault⟩
  exact hWired.settled hManager hLedger hVault hLive

/- An operation on wired books advances them. -/
theorem Rebooked.advanced
    {key : Address}
    {m : Manager Address}
    {p q : Position Address (ShareVault Address)}
    (hRebooked : Rebooked key m p q s t)
    (hWired : s.IsWired)
    (hOperated : Operated m key flow p q) :
    Manager.Advanced m key flow p q :=
  hOperated.advanced
    (hRebooked.settled hWired hOperated.live)

/- A change keeps a store wired. -/
theorem Change.isWired
    (hChange : Change signed flow s t)
    (hWired : s.IsWired) :
    t.IsWired := by
  cases hChange with
  | opened hFree hOpened =>
      exact isWired_of_opened hWired hFree hOpened
  | tokenAdded hLedger hRun hValid =>
      exact
        isWired_of_addToken hWired
          (Store.state?_of_find? hLedger) hRun hValid
  | gaugeSet hGauge =>
      exact
        isWired_of_gauge hWired (Store.state?_of_find? hGauge)
  | forwarderSet hForwarder =>
      exact
        isWired_of_forwarder hWired
          (Store.state?_of_find? hForwarder)
  | activated hManager hLedger hCustodian hRun =>
      subst hCustodian
      have hOld := Store.state?_of_find? hManager
      have hBook := Store.state?_of_find? hLedger
      rcases continues_of_activate hRun with ⟨hFirst, hSecond⟩
      apply isWired_of_activate hWired hOld hBook hRun
      exact
        Store.replaced_insert hWired.plain hOld hBook nofun
          hFirst hSecond _ _
  | targetsSet hManager hRun =>
      exact
        isWired_of_setTargets hWired
          (Store.state?_of_find? hManager) hRun
  | operated hRebooked hOperated =>
      rcases hRebooked.state? with ⟨hOld, hBook, hSafe⟩
      have hAdvanced := hRebooked.advanced hWired hOperated
      apply
        isWired_of_advanced hWired hOld hBook hSafe
          hOperated.live hAdvanced
      rcases hRebooked.books with ⟨_, _, -, -, rfl⟩
      apply
        Store.replaced_insert hWired.plain hBook hSafe nofun
      · exact
          .ledger hAdvanced.books.poolId
            hAdvanced.books.authority
            hAdvanced.books.relayer
      · exact .shareVault hAdvanced.terms

/- Changes keep a store wired. -/
theorem Changes.isWired
    (hChanges : Changes signed flow s t)
    (hWired : s.IsWired) :
    t.IsWired := by
  induction hChanges with
  | refl s => exact hWired
  | head hChange hRest hTotal ih =>
      exact ih (hChange.isWired hWired)

end YieldManager

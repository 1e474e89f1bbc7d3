import YieldManager.Proofs.Program.Change

/-
  Instructions as changes.  A successful instruction on a
  plain store makes changes whose flow is what it joins, less
  what it exits.

  Main declarations:
    * `Upkeep.exists_activated_of_activate`
    * `Capital.Desk.IsRead`
    * `Capital.Desk.insertAll_of_write`
    * `Capital.exists_rebooked_of_rebalance`
    * `Capital.Requested`
    * `Relaying.Desk.IsRead`
    * `Relaying.Desk.insertAll_of_write`
    * `Relaying.exists_rebooked_of_joinPool`
    * `Relaying.exists_rebooked_of_exitPool`
    * `Instruction.joined`
    * `Instruction.exited`
    * `Instruction.quiet_of_effect`
    * `Instruction.changes_of_effect`
-/

------------------------------------------------------------
-- Opening Accounts
------------------------------------------------------------

namespace YieldManager

variable {s : Store}
variable {ms : List Meta}
variable {effect : Effect}

namespace Creation

/- A record written to an opened account is a change. -/
private theorem quiet_of_write
    {R : Type → Type} [Stored R]
    {payer place : Meta}
    {name : String}
    {seed : Seed}
    {args : List Address}
    {opening : Opening}
    {record : R Address}
    {w : Address × Account}
    (hBegin :
      Opening.begin s payer place name seed args =
        .ok opening)
    (hWrite : opening.write record = .ok w)
    (hOpened :
      Opened (Meta.Signs ms) s (.derived seed args)
        (Stored.wrap record)) :
    Quiet (Meta.Signs ms) s (s.insertAll [w]) := by
  rcases Opening.begin_eq_ok_iff.mp hBegin with
    ⟨hKey, -, hFree, -, rfl⟩
  rcases Opening.write_eq_ok_iff.mp hWrite with ⟨-, rfl⟩
  apply Quiet.single
  apply Change.opened (Opening.state?_eq_none hFree)
  rw [hKey]
  exact hOpened

/- Opening a ledger is a change. -/
theorem quiet_of_ledger
    {poolId : Address}
    (hRun : Creation.ledger poolId s ms = .ok effect) :
    Quiet (Meta.Signs ms) s (s.insertAll effect.writes) := by
  simp only [Creation.ledger, Except.bind_eq_ok_iff,
    Prod.exists, Except.pure_eq_ok_iff,
    Fault.ofRule_eq_ok_iff, require_eq_ok_iff] at hRun
  rcases hRun with
    ⟨authority, place, -, opening, hBegin, -, -, -,
      ⟨-, -, hValid⟩, key, account, hWrite, rfl⟩
  exact quiet_of_write hBegin hWrite (.ledger hValid)

/- Opening a vault is a change. -/
theorem quiet_of_shareVault
    {feeBps : UInt64}
    (hRun : Creation.shareVault feeBps s ms = .ok effect) :
    Quiet (Meta.Signs ms) s (s.insertAll effect.writes) := by
  simp only [Creation.shareVault, Except.bind_eq_ok_iff,
    Prod.exists, Except.pure_eq_ok_iff,
    Fault.ofRule_eq_ok_iff, require_eq_ok_iff] at hRun
  rcases hRun with
    ⟨authority, asset, place, -, opening, hBegin, -, -, -,
      ⟨-, -, hValid⟩, key, account, hWrite, rfl⟩
  exact quiet_of_write hBegin hWrite (.shareVault hValid)

/- Opening a gauge is a change. -/
theorem quiet_of_gauge
    (hRun : Creation.gauge s ms = .ok effect) :
    Quiet (Meta.Signs ms) s (s.insertAll effect.writes) := by
  simp only [Creation.gauge, Except.bind_eq_ok_iff,
    Prod.exists, Except.pure_eq_ok_iff] at hRun
  rcases hRun with
    ⟨authority, vault, rewardMint, place, -, opening,
      hBegin, -, -, -, -, key, account, hWrite, rfl⟩
  exact quiet_of_write hBegin hWrite .gauge

/- Opening a forwarder is a change. -/
theorem quiet_of_forwarder
    (hRun : Creation.forwarder s ms = .ok effect) :
    Quiet (Meta.Signs ms) s (s.insertAll effect.writes) := by
  simp only [Creation.forwarder, Except.bind_eq_ok_iff,
    Prod.exists, Except.pure_eq_ok_iff] at hRun
  rcases hRun with
    ⟨authority, place, -, opening, hBegin, -, -, key,
      account, hWrite, rfl⟩
  exact quiet_of_write hBegin hWrite .forwarder

/-
  Ledger and vault of a new manager are in the store, and its
  creator has signed.
-/
private theorem isIn_of_managerPlaces
    {authority place : Meta}
    {ledger : Loaded Ledger}
    {vault : Loaded ShareVault}
    (hPlain : s.IsPlain)
    (hLoad :
      managerPlaces.load s ms =
        .ok (authority, ledger, vault, place)) :
    Meta.Signs ms authority.key ∧ ledger.IsIn s ∧
      vault.IsIn s := by
  simp only [Loader.load_eq_ok_iff, managerPlaces,
    Loader.bind_eq_ok_iff, Loader.pure_eq_ok_iff,
    Loader.record_eq_ok_iff hPlain] at hLoad
  rcases hLoad with
    ⟨_, _, _, hSigner, x, _, ⟨_, -, hLedger, -⟩, y, _,
      ⟨_, -, hVault, -⟩, _, _, _, _, _, _, hEq, -⟩
  cases hEq
  exact ⟨Loader.signs_of_signer hSigner, hLedger, hVault⟩

/- Opening a manager is a change. -/
theorem quiet_of_manager
    {terms : Terms Address}
    (hPlain : s.IsPlain)
    (hRun : Creation.manager terms s ms = .ok effect) :
    Quiet (Meta.Signs ms) s (s.insertAll effect.writes) := by
  simp only [Creation.manager, Except.bind_eq_ok_iff,
    Prod.exists, Except.pure_eq_ok_iff,
    Loaded.expectDerived_eq_ok_iff,
    Fault.ofRule_eq_ok_iff,
    Fault.ofAction_eq_ok_iff] at hRun
  rcases hRun with
    ⟨authority, ledger, vault, place, hLoad, opening,
      hBegin, -, -, -, ⟨hDerived, -⟩, -, -, unbound, hCreate,
      u, manager, hBind, key, account, hWrite, rfl⟩
  rcases isIn_of_managerPlaces hPlain hLoad with
    ⟨hSigned, hLedger, hVault⟩
  exact
    quiet_of_write hBegin hWrite
      (.manager hLedger.state? hVault.state? hDerived hCreate
        hBind hSigned)

/-
  The ledger of a new relayer is in the store, and whoever
  opens it has signed.
-/
private theorem isIn_of_relayerPlaces
    {authority place : Meta}
    {ledger : Loaded Ledger}
    (hPlain : s.IsPlain)
    (hLoad :
      relayerPlaces.load s ms =
        .ok (authority, ledger, place)) :
    Meta.Signs ms authority.key ∧ ledger.IsIn s := by
  simp only [Loader.load_eq_ok_iff, relayerPlaces,
    Loader.bind_eq_ok_iff, Loader.pure_eq_ok_iff,
    Loader.record_eq_ok_iff hPlain] at hLoad
  rcases hLoad with
    ⟨_, _, _, hSigner, x, _, ⟨_, -, hLedger, -⟩, _, _, _, _,
      _, _, hEq, -⟩
  cases hEq
  exact ⟨Loader.signs_of_signer hSigner, hLedger⟩

/- Opening a relayer is a change. -/
theorem quiet_of_relayer
    {poolId : Address}
    (hPlain : s.IsPlain)
    (hRun : Creation.relayer poolId s ms = .ok effect) :
    Quiet (Meta.Signs ms) s (s.insertAll effect.writes) := by
  simp only [Creation.relayer, Except.bind_eq_ok_iff,
    Prod.exists, Except.pure_eq_ok_iff,
    Loaded.expectDerived_eq_ok_iff,
    Loaded.expect_eq_ok_iff] at hRun
  rcases hRun with
    ⟨authority, ledger, place, hLoad, opening, hBegin, -, -,
      -, ⟨hDerived, -⟩, -, hAuthority, -, hRelayer, key,
      account, hWrite, rfl⟩
  rcases isIn_of_relayerPlaces hPlain hLoad with
    ⟨hSigned, hLedger⟩
  rcases Opening.begin_eq_ok_iff.mp hBegin with
    ⟨hPlace, -, -, -, -⟩
  exact
    quiet_of_write hBegin hWrite
      (.relayer hLedger.state? hDerived hAuthority
        (hRelayer.trans hPlace) hSigned)

end Creation

------------------------------------------------------------
-- Tending Accounts
------------------------------------------------------------

namespace Upkeep

/- Adding a token is a change. -/
theorem quiet_of_registerToken
    (hPlain : s.IsPlain)
    (hRun : registerToken s ms = .ok effect) :
    Quiet (Meta.Signs ms) s (s.insertAll effect.writes) := by
  simp only [registerToken, Except.bind_eq_ok_iff,
    Prod.exists, Except.pure_eq_ok_iff,
    Fault.ofAction_eq_ok_iff, Fault.ofRule_eq_ok_iff,
    require_eq_ok_iff, Loaded.expect_eq_ok_iff,
    Loaded.write_eq_ok_iff, Loader.load_eq_ok_iff,
    ledgerAndMint, Loader.bind_eq_ok_iff,
    Loader.pure_eq_ok_iff,
    Loader.record_eq_ok_iff hPlain] at hRun
  rcases hRun with
    ⟨authority, ledger, mint,
      ⟨_, _, _, hSigner, x, _, ⟨_, -, hLedger, -⟩, _, _, _,
        hEq, -⟩,
      -, -, -, -, -, hAuthority, u, l', hAdd, -, hValid, key,
      account, ⟨-, hWrite⟩, rfl⟩
  cases hEq
  cases hWrite
  cases u
  have hSigned := Loader.signs_of_signer hSigner
  rw [← hAuthority] at hSigned
  exact
    Quiet.single (.tokenAdded hLedger hAdd hValid hSigned)

/- Letting rewards accrue is a change. -/
theorem quiet_of_accrueRewards
    {holder : Address}
    {amount : UInt64}
    (hPlain : s.IsPlain)
    (hRun : accrueRewards holder amount s ms = .ok effect) :
    Quiet (Meta.Signs ms) s (s.insertAll effect.writes) := by
  simp only [accrueRewards, Except.bind_eq_ok_iff,
    Prod.exists, Except.pure_eq_ok_iff,
    Fault.ofAction_eq_ok_iff, Loaded.write_eq_ok_iff,
    Loader.load_eq_ok_iff, gaugeAccounts,
    Loader.bind_eq_ok_iff, Loader.pure_eq_ok_iff,
    Loader.record_eq_ok_iff hPlain] at hRun
  rcases hRun with
    ⟨authority, gauge,
      ⟨_, _, _, _, x, _, ⟨_, -, hGauge, -⟩, hEq, -⟩,
      -, -, -, -, -, -, u, g', -, key, account, ⟨-, hWrite⟩,
      rfl⟩
  cases hEq
  cases hWrite
  exact Quiet.single (.gaugeSet hGauge)

/- Activating a manager changes the manager it names. -/
theorem exists_activated_of_activate
    {poolId : Address}
    (hPlain : s.IsPlain)
    (hRun : activate poolId s ms = .ok effect) :
    ∃ key m m' l l',
      (ms.map Meta.key)[1]? = some key ∧
        s.state? key = some (.manager m) ∧
        s.state? m.custodian = some (.ledger l) ∧
        Manager.activate key poolId (m, l) =
          .ok () (m', l') ∧
        Change (Meta.Signs ms) (fun _ => 0) s
          (s.insertAll effect.writes) := by
  simp only [activate, Except.bind_eq_ok_iff,
    Prod.exists, Except.pure_eq_ok_iff,
    Loaded.expect_eq_ok_iff,
    Fault.ofAction_eq_ok_iff, Loaded.write_eq_ok_iff,
    Loader.load_eq_ok_iff, managerAndLedger,
    Loader.bind_eq_ok_iff, Loader.pure_eq_ok_iff,
    Loader.record_eq_ok_iff hPlain] at hRun
  rcases hRun with
    ⟨manager, ledger,
      ⟨_, _, _, hSigner, x, _,
        ⟨listed, hListed, hManager, -, hKey, -⟩, y, _,
        ⟨_, -, hLedger, -⟩, hEq, -⟩,
      -, -, -, -, -, -, -, hCustodian, u, m', l', hActivate,
      key, account, ⟨-, hWrite⟩, key', account',
      ⟨-, hWrite'⟩, rfl⟩
  cases hEq
  cases hWrite
  cases hWrite'
  have hNamed :
      (ms.map Meta.key)[1]? = some manager.key := by
    rw [← Meta.map_key_merge,
      (Loader.signer_eq_ok_iff.mp hSigner).1, hListed, hKey]
    rfl
  exact
    ⟨manager.key, manager.value, m', ledger.value, l',
      hNamed, hManager.state?, hCustodian ▸ hLedger.state?,
      hActivate,
      .activated hManager hLedger hCustodian hActivate⟩

/- Activating a manager is a change. -/
theorem quiet_of_activate
    {poolId : Address}
    (hPlain : s.IsPlain)
    (hRun : activate poolId s ms = .ok effect) :
    Quiet (Meta.Signs ms) s (s.insertAll effect.writes) := by
  rcases exists_activated_of_activate hPlain hRun with
    ⟨_, _, _, _, _, -, -, -, -, hChange⟩
  exact Quiet.single hChange

/- Setting targets is a change. -/
theorem quiet_of_setTargets
    {poolId : Address}
    {targets : Targets}
    (hPlain : s.IsPlain)
    (hRun : setTargets poolId targets s ms = .ok effect) :
    Quiet (Meta.Signs ms) s (s.insertAll effect.writes) := by
  simp only [setTargets, Except.bind_eq_ok_iff,
    Prod.exists, Except.pure_eq_ok_iff,
    Fault.ofAction_eq_ok_iff, Loaded.write_eq_ok_iff,
    Loader.load_eq_ok_iff, managerAccounts,
    Loader.bind_eq_ok_iff, Loader.pure_eq_ok_iff,
    Loader.record_eq_ok_iff hPlain] at hRun
  rcases hRun with
    ⟨authority, manager,
      ⟨_, _, _, hSigner, x, _, ⟨_, -, hManager, -⟩, hEq, -⟩,
      -, -, -, -, u, m', hSet, key, account, ⟨-, hWrite⟩,
      rfl⟩
  cases hEq
  cases hWrite
  exact
    Quiet.single
      (.targetsSet hManager hSet
        (Loader.signs_of_signer hSigner))

end Upkeep

------------------------------------------------------------
-- Moving Capital
------------------------------------------------------------

namespace Capital

/- Manager, ledger and vault of a desk are read. -/
structure Desk.IsRead
    (d : Desk)
    (s : Store) : Prop where
  manager : d.manager.IsRead s
  ledger : d.ledger.IsRead s
  vault : d.vault.IsRead s

/- Manager, ledger and vault of a desk are in the store. -/
structure Desk.IsIn
    (d : Desk)
    (s : Store) : Prop where
  manager : d.manager.IsIn s
  ledger : d.ledger.IsIn s
  vault : d.vault.IsIn s

/- In a plain store a desk lies where it is read. -/
theorem Desk.IsRead.isIn
    {d : Desk}
    (hRead : d.IsRead s)
    (hPlain : s.IsPlain) :
    d.IsIn s :=
  ⟨(Loaded.isRead_iff_isIn hPlain).mp hRead.manager,
    (Loaded.isRead_iff_isIn hPlain).mp hRead.ledger,
    (Loaded.isRead_iff_isIn hPlain).mp hRead.vault⟩

/- A desk is taken from the store, its manager first. -/
private theorem isRead_of_take
    {d : Desk}
    {rest : List Meta}
    (hTake : Desk.take s ms = .ok (d, rest)) :
    d.IsRead s ∧
      ∃ listed others,
        ms = listed :: others ∧
          d.manager.key = listed.key := by
  simp only [Desk.take, Loader.bind_eq_ok_iff,
    Loader.pure_eq_ok_iff,
    Loader.record_eq_ok_iff_isRead] at hTake
  rcases hTake with
    ⟨x, _, ⟨listed, hListed, hManager, -, hKey, -⟩, y, _,
      ⟨_, -, hLedger, -⟩, z, _, ⟨_, -, hVault, -⟩, rfl, -⟩
  exact
    ⟨⟨hManager, hLedger, hVault⟩, listed, _, hListed, hKey⟩

/- The desk of a caller is read, where it is named. -/
theorem isRead_of_callerDesk
    {d : Desk}
    (hLoad : callerDesk.load s ms = .ok d) :
    d.IsRead s ∧
      (ms.map Meta.key)[1]? = some d.manager.key := by
  simp only [Loader.load_eq_ok_iff, callerDesk,
    Loader.bind_eq_ok_iff, Loader.signer_eq_ok_iff] at hLoad
  rcases hLoad with ⟨rest, _, _, ⟨hMerged, -⟩, hTake⟩
  rcases isRead_of_take hTake with
    ⟨hDesk, listed, others, rfl, hKey⟩
  refine ⟨hDesk, ?_⟩
  rw [← Meta.map_key_merge, hMerged, hKey]
  rfl

/-
  The desk of a relayer is in the store, where its manager is
  named, and so is the relayer; the authority has signed.
-/
private theorem isIn_of_relayerDesk
    {authority : Meta}
    {relayer : Loaded RelayerAccount}
    {d : Desk}
    (hPlain : s.IsPlain)
    (hLoad :
      relayerDesk.load s ms = .ok (authority, relayer, d)) :
    Meta.Signs ms authority.key ∧ relayer.IsIn s ∧
      d.IsIn s ∧
      (ms.map Meta.key)[2]? = some d.manager.key := by
  simp only [Loader.load_eq_ok_iff, relayerDesk,
    Loader.bind_eq_ok_iff, Loader.pure_eq_ok_iff,
    Loader.record_eq_ok_iff hPlain] at hLoad
  rcases hLoad with
    ⟨rest, _, _, hSigner, _, _, ⟨_, rfl, hRelayer, -⟩, desk,
      _, hTake, hEq, -⟩
  cases hEq
  rcases isRead_of_take hTake with
    ⟨hDesk, listed, others, rfl, hKey⟩
  refine
    ⟨Loader.signs_of_signer hSigner, hRelayer,
      hDesk.isIn hPlain, ?_⟩
  rw [← Meta.map_key_merge,
    (Loader.signer_eq_ok_iff.mp hSigner).1, hKey]
  rfl

/- The books of a desk are those that its manager names. -/
theorem Desk.keys_of_expectBooks
    {d : Desk}
    (hBooks : d.expectBooks = .ok ()) :
    d.ledger.key = d.manager.value.custodian ∧
      d.vault.key = d.manager.value.vault := by
  simp only [Desk.expectBooks, Desk.expectLedger,
    Desk.expectVault, Except.bind_eq_ok_iff,
    Loaded.expect_eq_ok_iff] at hBooks
  rcases hBooks with
    ⟨_, -, _, hCustodian, _, -, hVaultKey⟩
  exact ⟨hCustodian, hVaultKey⟩

/- The books of a desk are written where they lay. -/
theorem Desk.insertAll_of_write
    {d : Desk}
    {after : Position Address (ShareVault Address)}
    {writes : List (Address × Account)}
    (hWrite : d.write after = .ok writes)
    (s : Store) :
    s.insertAll writes =
      (s.insert d.ledger.key
          (.stored d.ledger.space
            (.ledger after.ledger))).insert
        d.vault.key
        (.stored d.vault.space (.shareVault after.vault)) := by
  simp only [Desk.write, Except.bind_eq_ok_iff,
    Except.pure_eq_ok_iff, Loaded.write_eq_ok_iff] at hWrite
  rcases hWrite with ⟨_, ⟨-, rfl⟩, _, ⟨-, rfl⟩, rfl⟩
  rfl

/- Writing the books of a desk replaces them. -/
private theorem rebooked_of_write
    {d : Desk}
    {after : Position Address (ShareVault Address)}
    {writes : List (Address × Account)}
    (hDesk : d.IsIn s)
    (hBooks : d.expectBooks = .ok ())
    (hWrite : d.write after = .ok writes) :
    Rebooked d.manager.key d.manager.value d.position after s
      (s.insertAll writes) := by
  rcases Desk.keys_of_expectBooks hBooks with
    ⟨hCustodian, hVaultKey⟩
  exact
    .of_insert hDesk.manager hDesk.ledger hDesk.vault
      hCustodian hVaultKey
      (Desk.insertAll_of_write hWrite s).symm

/- A rebalance moves the capital of the manager it names. -/
theorem exists_rebooked_of_rebalance
    {poolId : Address}
    {force : Bool}
    (hPlain : s.IsPlain)
    (hRun : rebalance poolId force s ms = .ok effect) :
    ∃ key m p q outcome,
      (ms.map Meta.key)[1]? = some key ∧
        Rebooked key m p q s (s.insertAll effect.writes) ∧
        m.rebalance key poolId force p = .ok outcome q := by
  simp only [rebalance, Except.bind_eq_ok_iff, Prod.exists,
    Except.pure_eq_ok_iff,
    Fault.ofAction_eq_ok_iff] at hRun
  rcases hRun with
    ⟨d, hLoad, _, -, _, hBooks, outcome, after, hMove, _, -,
      writes, hWrite, rfl⟩
  rcases isRead_of_callerDesk hLoad with ⟨hDesk, hNamed⟩
  exact
    ⟨_, _, _, after, outcome, hNamed,
      rebooked_of_write (hDesk.isIn hPlain) hBooks hWrite,
      hMove⟩

/- A rebalance is a change. -/
theorem quiet_of_rebalance
    {poolId : Address}
    {force : Bool}
    (hPlain : s.IsPlain)
    (hRun : rebalance poolId force s ms = .ok effect) :
    Quiet (Meta.Signs ms) s (s.insertAll effect.writes) := by
  rcases exists_rebooked_of_rebalance hPlain hRun with
    ⟨key, m, p, q, outcome, -, hRebooked, hMove⟩
  exact Quiet.single (.operated hRebooked (.rebalanced hMove))

/-
  A move of capital is requested: it names a manager, and the
  authority of a relayer of the manager's pool has signed.
-/
structure Requested
    (s : Store)
    (ms : List Meta)
    (key : Address)
    (m : Manager Address) : Prop where
  named : (ms.map Meta.key)[2]? = some key
  manager : s.state? key = some (.manager m)
  relayer :
    ∃ k r,
      s.state? k = some (.relayer r) ∧
        r.poolId = m.poolId ∧ Meta.Signs ms r.authority

/- Acting for a relayer takes its authority. -/
private theorem requested_of_expectRelayer
    {authority : Meta}
    {relayer : Loaded RelayerAccount}
    {d : Desk}
    {u : Unit}
    (hPlain : s.IsPlain)
    (hLoad :
      relayerDesk.load s ms = .ok (authority, relayer, d))
    (hRelayer : expectRelayer authority relayer d = .ok u) :
    Requested s ms d.manager.key d.manager.value := by
  rcases isIn_of_relayerDesk hPlain hLoad with
    ⟨hSigns, hIn, hDesk, hNamed⟩
  simp only [expectRelayer, Except.bind_eq_ok_iff,
    Loaded.expect_eq_ok_iff] at hRelayer
  rcases hRelayer with
    ⟨_, -, _, hAuthority, _, -, _, hPool, -⟩
  exact
    { named := hNamed
      manager := hDesk.manager.state?
      relayer :=
        ⟨relayer.key, relayer.value, hIn.state?, hPool.symm,
          hAuthority ▸ hSigns⟩ }

/- Investing on request is requested. -/
theorem requested_of_capitalIn
    {poolId : Address}
    {amount : UInt64}
    (hPlain : s.IsPlain)
    (hRun : capitalIn poolId amount s ms = .ok effect) :
    ∃ key m, Requested s ms key m := by
  simp only [capitalIn, Except.bind_eq_ok_iff, Prod.exists]
    at hRun
  rcases hRun with
    ⟨authority, relayer, d, hLoad, _, hRelayer, -⟩
  exact
    ⟨_, _, requested_of_expectRelayer hPlain hLoad hRelayer⟩

/- Divesting on request is requested. -/
theorem requested_of_capitalOut
    {poolId : Address}
    {amount : UInt64}
    (hPlain : s.IsPlain)
    (hRun : capitalOut poolId amount s ms = .ok effect) :
    ∃ key m, Requested s ms key m := by
  simp only [capitalOut, Except.bind_eq_ok_iff, Prod.exists]
    at hRun
  rcases hRun with
    ⟨authority, relayer, d, hLoad, _, hRelayer, -⟩
  exact
    ⟨_, _, requested_of_expectRelayer hPlain hLoad hRelayer⟩

/- Acting for a relayer takes its manager's books. -/
private theorem expectBooks_of_expectRelayer
    {authority : Meta}
    {relayer : Loaded RelayerAccount}
    {d : Desk}
    {u : Unit}
    (hRelayer : expectRelayer authority relayer d = .ok u) :
    d.expectBooks = .ok () := by
  simp only [expectRelayer, Except.bind_eq_ok_iff]
    at hRelayer
  rcases hRelayer with ⟨_, -, _, -, _, -, _, -, hBooks⟩
  exact hBooks

/- A requested investment is a change. -/
theorem quiet_of_capitalIn
    {poolId : Address}
    {amount : UInt64}
    (hPlain : s.IsPlain)
    (hRun : capitalIn poolId amount s ms = .ok effect) :
    Quiet (Meta.Signs ms) s (s.insertAll effect.writes) := by
  simp only [capitalIn, Except.bind_eq_ok_iff, Prod.exists,
    Except.pure_eq_ok_iff,
    Fault.ofAction_eq_ok_iff] at hRun
  rcases hRun with
    ⟨authority, relayer, d, hLoad, _, hRelayer, shares,
      after, hMove, writes, hWrite, rfl⟩
  have hRebooked :=
    rebooked_of_write
      (isIn_of_relayerDesk hPlain hLoad).2.2.1
      (expectBooks_of_expectRelayer hRelayer) hWrite
  exact Quiet.single (.operated hRebooked (.capitalIn hMove))

/- A requested divestment is a change. -/
theorem quiet_of_capitalOut
    {poolId : Address}
    {amount : UInt64}
    (hPlain : s.IsPlain)
    (hRun : capitalOut poolId amount s ms = .ok effect) :
    Quiet (Meta.Signs ms) s (s.insertAll effect.writes) := by
  simp only [capitalOut, Except.bind_eq_ok_iff, Prod.exists,
    Except.pure_eq_ok_iff,
    Fault.ofAction_eq_ok_iff] at hRun
  rcases hRun with
    ⟨authority, relayer, d, hLoad, _, hRelayer, received,
      after, hMove, writes, hWrite, rfl⟩
  have hRebooked :=
    rebooked_of_write
      (isIn_of_relayerDesk hPlain hLoad).2.2.1
      (expectBooks_of_expectRelayer hRelayer) hWrite
  exact Quiet.single (.operated hRebooked (.capitalOut hMove))

/- A report is a change; the vault stays as it is. -/
theorem quiet_of_reportBalance
    {poolId : Address}
    (hPlain : s.IsPlain)
    (hRun : reportBalance poolId s ms = .ok effect) :
    Quiet (Meta.Signs ms) s (s.insertAll effect.writes) := by
  simp only [reportBalance, Except.bind_eq_ok_iff,
    Prod.exists, Except.pure_eq_ok_iff,
    Fault.ofAction_eq_ok_iff, Desk.expectLedger,
    Desk.expectVault, Loaded.expect_eq_ok_iff,
    Loaded.write_eq_ok_iff] at hRun
  rcases hRun with
    ⟨d, hLoad, _, -, _, -, _, hCustodian, _, hVaultKey,
      value, after, hReport, key, account, ⟨-, hWrite⟩, rfl⟩
  cases hWrite
  have hDesk := (isRead_of_callerDesk hLoad).1.isIn hPlain
  have hVault : d.vault.value = after.vault :=
    (Manager.reportBalance_eq_ok_iff.mp hReport).2.2.1
  have hOther : d.vault.key ≠ d.ledger.key := by
    intro hSame
    have hClash :
        Account.stored d.vault.space
            (.shareVault d.vault.value) =
          .stored d.ledger.space (.ledger d.ledger.value) :=
      Option.some.inj
        (hDesk.vault.symm.trans (hSame ▸ hDesk.ledger :
          s.find? d.vault.key = _))
    simp at hClash
  have hKept :
      (s.insert d.ledger.key
          (.stored d.ledger.space
            (.ledger after.ledger))).find? d.vault.key =
        some
          (.stored d.vault.space
            (.shareVault after.vault)) := by
    rw [Store.find?_insert, if_neg hOther, ← hVault]
    exact hDesk.vault
  have hRebooked :
      Rebooked d.manager.key d.manager.value d.position after
        s (s.insert d.ledger.key
          (.stored d.ledger.space
            (.ledger after.ledger))) :=
    .of_insert hDesk.manager hDesk.ledger hDesk.vault
      hCustodian hVaultKey (Store.insert_eq_self hKept)
  exact Quiet.single (.operated hRebooked (.reported hReport))

/- A view changes nothing. -/
theorem quiet_of_view
    {question : Desk → Except Error Answer}
    (hRun : view question s ms = .ok effect) :
    Quiet (Meta.Signs ms) s (s.insertAll effect.writes) := by
  simp only [view, Except.bind_eq_ok_iff,
    Except.pure_eq_ok_iff] at hRun
  rcases hRun with ⟨d, -, _, -, _, -, answer, -, rfl⟩
  exact Quiet.refl s

end Capital

------------------------------------------------------------
-- Relayed Instructions
------------------------------------------------------------

namespace Relaying

/- Relayer, manager, ledger and vault of a desk are read. -/
structure Desk.IsRead
    (d : Desk)
    (s : Store) : Prop where
  relayer : d.relayer.IsRead s
  manager : d.manager.IsRead s
  ledger : d.ledger.IsRead s
  vault : d.vault.IsRead s

/- Relayer, manager, ledger and vault are in the store. -/
structure Desk.IsIn
    (d : Desk)
    (s : Store) : Prop where
  relayer : d.relayer.IsIn s
  manager : d.manager.IsIn s
  ledger : d.ledger.IsIn s
  vault : d.vault.IsIn s

/- In a plain store a relayed desk lies where it is read. -/
theorem Desk.IsRead.isIn
    {d : Desk}
    (hRead : d.IsRead s)
    (hPlain : s.IsPlain) :
    d.IsIn s :=
  ⟨(Loaded.isRead_iff_isIn hPlain).mp hRead.relayer,
    (Loaded.isRead_iff_isIn hPlain).mp hRead.manager,
    (Loaded.isRead_iff_isIn hPlain).mp hRead.ledger,
    (Loaded.isRead_iff_isIn hPlain).mp hRead.vault⟩

/- A relayed desk is read from the store, as it is named. -/
theorem isRead_of_take
    {name : String}
    {d : Desk}
    {rest : List Meta}
    (hTake :
      Desk.take name s (Meta.merge ms) = .ok (d, rest)) :
    d.IsRead s ∧
      (ms.map Meta.key)[0]? = some d.sender.key ∧
      (ms.map Meta.key)[3]? = some d.manager.key := by
  simp only [Desk.take, Loader.bind_eq_ok_iff,
    Loader.pure_eq_ok_iff, Loader.signer_eq_ok_iff,
    Loader.record_eq_ok_iff_isRead] at hTake
  rcases hTake with
    ⟨_, _, ⟨hMerged, -⟩, w, _, ⟨_, rfl, hRelayer, -⟩, x, _,
      ⟨_, rfl, hLedger, -⟩, y, _,
      ⟨_, rfl, hManager, -, hKey, -⟩, z, _,
      ⟨_, -, hVault, -⟩, rfl, -⟩
  refine ⟨⟨hRelayer, hManager, hLedger, hVault⟩, ?_⟩
  rw [← Meta.map_key_merge, hMerged, hKey]
  exact ⟨rfl, rfl⟩

/- A manager that is expected works with the ledger. -/
theorem Desk.custodian_of_expectManager
    {d : Desk}
    (hManager : d.expectManager = .ok ()) :
    d.manager.value.custodian = d.ledger.key := by
  simp only [Desk.expectManager, Except.bind_eq_ok_iff,
    Loaded.expect_eq_ok_iff] at hManager
  rcases hManager with ⟨_, -, hCustodian⟩
  exact hCustodian

/- Relayer, ledger and vault are written where they lay. -/
theorem Desk.insertAll_of_write
    {d : Desk}
    {after : Guarded Pool}
    {writes : List (Address × Account)}
    (hWrite : d.write after = .ok writes)
    (s : Store) :
    s.insertAll writes =
      ((s.insert d.relayer.key
          (.stored d.relayer.space
            (.relayer
              { d.relayer.value with
                lock := after.lock }))).insert
          d.ledger.key
          (.stored d.ledger.space
            (.ledger after.pool.ledger))).insert
        d.vault.key
        (.stored d.vault.space
          (.shareVault after.pool.vault)) := by
  simp only [Desk.write, Except.bind_eq_ok_iff,
    Except.pure_eq_ok_iff, Loaded.write_eq_ok_iff] at hWrite
  rcases hWrite with
    ⟨_, ⟨-, rfl⟩, _, ⟨-, rfl⟩, _, ⟨-, rfl⟩, rfl⟩
  rfl

/- A relayer whose lock is as before is written as it was. -/
private theorem insert_relayer
    {d : Desk}
    {lock : Lock}
    (hDesk : d.IsIn s)
    (hLock : lock = d.relayer.value.lock) :
    s.insert d.relayer.key
        (.stored d.relayer.space
          (.relayer { d.relayer.value with lock := lock })) =
      s := by
  apply Store.insert_eq_self
  rw [hLock]
  exact hDesk.relayer

/-
  Writing relayer, ledger and vault after a relayed operation
  replaces the books: the relayer is written back as it was.
-/
private theorem rebooked_of_write
    {d : Desk}
    {after : Guarded Pool}
    {writes : List (Address × Account)}
    (hDesk : d.IsIn s)
    (hManager : d.expectManager = .ok ())
    (hVault : d.expectVault = .ok ())
    (hLock : d.relayer.value.lock = .idle)
    (hAfter : after.lock = .idle)
    (hWrite : d.write after = .ok writes) :
    Rebooked d.manager.key d.manager.value
      { ledger := d.ledger.value, vault := d.vault.value }
      after.pool.capital s (s.insertAll writes) := by
  simp only [Desk.expectVault, Except.bind_eq_ok_iff,
    Loaded.expect_eq_ok_iff] at hVault
  rcases hVault with ⟨_, -, hVaultKey⟩
  refine
    .of_insert hDesk.manager hDesk.ledger hDesk.vault
      (Desk.custodian_of_expectManager hManager).symm
      hVaultKey ?_
  rw [Desk.insertAll_of_write hWrite,
    insert_relayer hDesk (hAfter.trans hLock.symm)]
  rfl

/- A relayed join operates the manager that it names. -/
theorem exists_rebooked_of_joinPool
    {poolId recipient : Address}
    {r : JoinRequest Address}
    (hPlain : s.IsPlain)
    (hRun :
      joinPool poolId recipient r s ms = .ok effect) :
    ∃ (g h : Guarded Pool) (relayer : Address)
        (outcome : Outcome),
      (ms.map Meta.key)[3]? = some g.pool.managerKey ∧
        Rebooked g.pool.managerKey g.pool.manager
          g.pool.capital h.pool.capital s
          (s.insertAll effect.writes) ∧
        Relay.joinPool relayer poolId r g =
          .ok outcome h := by
  simp only [joinPool, Except.bind_eq_ok_iff, Prod.exists,
    Except.pure_eq_ok_iff,
    Fault.ofAction_eq_ok_iff] at hRun
  rcases hRun with
    ⟨d, hLoad, _, -, _, hManager, _, -, _, hVault, outcome,
      after, hJoin, writes, hWrite, rfl⟩
  rcases Loader.load_eq_ok_iff.mp hLoad with ⟨_, hTake⟩
  rcases isRead_of_take hTake with ⟨hDesk, -, hNamed⟩
  rcases Relay.joinPool_eq_ok_iff.mp hJoin with
    ⟨hLock, _, _, -, -, hAfter⟩
  exact
    ⟨_, after, _, outcome, hNamed,
      rebooked_of_write (hDesk.isIn hPlain) hManager hVault
        hLock (congrArg Guarded.lock hAfter.symm) hWrite,
      hJoin⟩

/- A relayed exit operates the manager that it names. -/
theorem exists_rebooked_of_exitPool
    {poolId recipient : Address}
    {r : ExitRequest Address}
    (hPlain : s.IsPlain)
    (hRun :
      exitPool poolId recipient r s ms = .ok effect) :
    ∃ (g h : Guarded Pool) (relayer : Address)
        (report : ExitReport),
      (ms.map Meta.key)[3]? = some g.pool.managerKey ∧
        Rebooked g.pool.managerKey g.pool.manager
          g.pool.capital h.pool.capital s
          (s.insertAll effect.writes) ∧
        Relay.exitPool relayer poolId r g =
          .ok report h := by
  simp only [exitPool, Except.bind_eq_ok_iff, Prod.exists,
    Except.pure_eq_ok_iff,
    Fault.ofAction_eq_ok_iff] at hRun
  rcases hRun with
    ⟨d, hLoad, _, -, _, hManager, _, -, _, hVault, report,
      after, hExit, writes, hWrite, rfl⟩
  rcases Loader.load_eq_ok_iff.mp hLoad with ⟨_, hTake⟩
  rcases isRead_of_take hTake with ⟨hDesk, -, hNamed⟩
  rcases Relay.exitPool_eq_ok_iff.mp hExit with
    ⟨hLock, _, _, _, _, -, -, -, -, hAfter⟩
  exact
    ⟨_, after, _, report, hNamed,
      rebooked_of_write (hDesk.isIn hPlain) hManager hVault
        hLock (congrArg Guarded.lock hAfter.symm) hWrite,
      hExit⟩

/- A relayed join is a change that pays its request in. -/
theorem change_of_joinPool
    {poolId recipient : Address}
    {r : JoinRequest Address}
    (hPlain : s.IsPlain)
    (hRun :
      joinPool poolId recipient r s ms = .ok effect) :
    Change (Meta.Signs ms)
      (fun mint =>
        Request.total (r.assets.zip r.maxAmounts) mint)
      s (s.insertAll effect.writes) := by
  rcases exists_rebooked_of_joinPool hPlain hRun with
    ⟨g, h, relayer, outcome, -, hRebooked, hJoin⟩
  exact .operated hRebooked (.joined rfl rfl hJoin)

/- A relayed exit is a change that pays its request out. -/
theorem change_of_exitPool
    {poolId recipient : Address}
    {r : ExitRequest Address}
    (hPlain : s.IsPlain)
    (hRun :
      exitPool poolId recipient r s ms = .ok effect) :
    Change (Meta.Signs ms)
      (fun mint =>
        -(Request.total (r.assets.zip r.minAmounts) mint :
          Int))
      s (s.insertAll effect.writes) := by
  rcases exists_rebooked_of_exitPool hPlain hRun with
    ⟨g, h, relayer, report, -, hRebooked, hExit⟩
  exact .operated hRebooked (.exited rfl rfl hExit)

/- Gauge and forwarder of a claim are in the store. -/
private theorem isIn_of_rewardDesk
    {d : Desk}
    {gauge : Option (Loaded Gauge)}
    {forwarder : Loaded Forwarder}
    (hPlain : s.IsPlain)
    (hLoad :
      rewardDesk.load s ms = .ok (d, gauge, forwarder)) :
    d.IsIn s ∧ (∀ x, gauge = some x → x.IsIn s) ∧
      forwarder.IsIn s := by
  simp only [Loader.load_eq_ok_iff, rewardDesk,
    Loader.bind_eq_ok_iff, Loader.pure_eq_ok_iff,
    Loader.record_eq_ok_iff hPlain] at hLoad
  rcases hLoad with
    ⟨rest, desk, _, hTake, g, _, hGauge, f, _,
      ⟨_, -, hForwarder, -⟩, hEq, -⟩
  cases hEq
  exact
    ⟨(isRead_of_take hTake).1.isIn hPlain,
      Loader.isIn_of_record? hPlain hGauge, hForwarder⟩

/- Writing a gauge, if there is one, is a change at most. -/
private theorem quiet_of_writeGauge
    {gauge : Option (Loaded Gauge)}
    {after : Option (Gauge Address)}
    {writes : List (Address × Account)}
    (hGauge : ∀ x, gauge = some x → x.IsIn s)
    (hWrite : writeGauge gauge after = .ok writes) :
    Quiet (Meta.Signs ms) s (s.insertAll writes) := by
  unfold writeGauge at hWrite
  split at hWrite
  · next x g' =>
      simp only [Except.bind_eq_ok_iff,
        Except.pure_eq_ok_iff,
        Loaded.write_eq_ok_iff] at hWrite
      rcases hWrite with ⟨_, ⟨-, rfl⟩, rfl⟩
      exact Quiet.single (.gaugeSet (hGauge x rfl))
  · cases hWrite
    exact Quiet.refl s

/- Writing a forwarder is a change at most. -/
private theorem quiet_of_writeForwarder
    {forwarder : Loaded Forwarder}
    {after : Option (Forwarder Address)}
    {writes : List (Address × Account)}
    (hForwarder : forwarder.IsIn s)
    (hWrite : writeForwarder forwarder after = .ok writes) :
    Quiet (Meta.Signs ms) s (s.insertAll writes) := by
  unfold writeForwarder at hWrite
  split at hWrite
  · simp only [Except.bind_eq_ok_iff,
      Except.pure_eq_ok_iff,
      Loaded.write_eq_ok_iff] at hWrite
    rcases hWrite with ⟨_, ⟨-, rfl⟩, rfl⟩
    exact Quiet.single (.forwarderSet hForwarder)
  · cases hWrite
    exact Quiet.refl s

/- Writing a gauge leaves a forwarder where it is. -/
private theorem isIn_of_writeGauge
    {gauge : Option (Loaded Gauge)}
    {after : Option (Gauge Address)}
    {forwarder : Loaded Forwarder}
    {writes : List (Address × Account)}
    (hGauge : ∀ x, gauge = some x → x.IsIn s)
    (hForwarder : forwarder.IsIn s)
    (hWrite : writeGauge gauge after = .ok writes) :
    forwarder.IsIn (s.insertAll writes) := by
  unfold writeGauge at hWrite
  split at hWrite
  · next x g' =>
      simp only [Except.bind_eq_ok_iff,
        Except.pure_eq_ok_iff,
        Loaded.write_eq_ok_iff] at hWrite
      rcases hWrite with ⟨_, ⟨-, rfl⟩, rfl⟩
      have hOther : forwarder.key ≠ x.key := by
        intro hSame
        have hClash :
            Account.stored x.space (.gauge x.value) =
              .stored forwarder.space
                (.forwarder forwarder.value) :=
          Option.some.inj
            ((hGauge x rfl).symm.trans
              (hSame ▸ hForwarder : s.find? x.key = _))
        simp at hClash
      change (s.insert x.key _).find? forwarder.key = _
      rw [Store.find?_insert, if_neg hOther]
      exact hForwarder
  · cases hWrite
    exact hForwarder

/- A relayed claim changes gauge and forwarder at most. -/
theorem quiet_of_claimRewards
    {poolId : Address}
    (hPlain : s.IsPlain)
    (hRun : claimRewards poolId s ms = .ok effect) :
    Quiet (Meta.Signs ms) s (s.insertAll effect.writes) := by
  simp only [claimRewards, Except.bind_eq_ok_iff,
    Prod.exists, Except.pure_eq_ok_iff,
    Fault.ofAction_eq_ok_iff] at hRun
  rcases hRun with
    ⟨d, gauge, forwarder, hLoad, _, -, _, -, _, -, _, -, _,
      -, _, -, rewards, after, hClaim, books, hBooks,
      gauges, hGauges, forwarders, hForwarders, rfl⟩
  rcases isIn_of_rewardDesk hPlain hLoad with
    ⟨hDesk, hGauge, hForwarder⟩
  rcases Relay.capital_of_claimRewards hClaim with
    ⟨hLock, hAfter, hCapital⟩
  have hKept : s.insertAll books = s := by
    have hLedger : after.pool.ledger = d.ledger.value :=
      congrArg Position.ledger hCapital
    have hVault : after.pool.vault = d.vault.value :=
      congrArg Position.vault hCapital
    rw [Desk.insertAll_of_write hBooks,
      insert_relayer hDesk (hAfter.trans hLock.symm),
      hLedger, hVault]
    have hSame :
        s.insert d.ledger.key
            (.stored d.ledger.space
              (.ledger d.ledger.value)) = s :=
      Store.insert_eq_self hDesk.ledger
    rw [hSame]
    exact Store.insert_eq_self hDesk.vault
  simp only [Store.insertAll_append, hKept]
  exact
    (quiet_of_writeGauge hGauge hGauges).trans
      (quiet_of_writeForwarder
        (isIn_of_writeGauge hGauge hForwarder hGauges)
        hForwarders)

end Relaying

------------------------------------------------------------
-- Instructions
------------------------------------------------------------

namespace Instruction

/- What an instruction pays into pools, if it succeeds. -/
def joined
    (mint : Address) : Instruction Address → Nat
  | joinPool _ _ r =>
      Request.total (r.assets.zip r.maxAmounts) mint
  | _ => 0

/- What an instruction pays out of pools, if it succeeds. -/
def exited
    (mint : Address) : Instruction Address → Nat
  | exitPool _ _ r =>
      Request.total (r.assets.zip r.minAmounts) mint
  | _ => 0

/- Joins and exits pay in and out, and nothing else does. -/
def IsQuiet : Instruction Address → Prop
  | joinPool _ _ _ => False
  | exitPool _ _ _ => False
  | _ => True

/- A successful instruction that is quiet has no flow. -/
theorem quiet_of_effect
    {i : Instruction Address}
    (hPlain : s.IsPlain)
    (hQuiet : i.IsQuiet)
    (hRun : i.effect s ms = .ok effect) :
    Quiet (Meta.Signs ms) s (s.insertAll effect.writes) := by
  cases i with
  | createLedger poolId =>
      exact Creation.quiet_of_ledger hRun
  | registerToken =>
      exact Upkeep.quiet_of_registerToken hPlain hRun
  | createShareVault feeBps =>
      exact Creation.quiet_of_shareVault hRun
  | createGauge => exact Creation.quiet_of_gauge hRun
  | accrueRewards holder amount =>
      exact Upkeep.quiet_of_accrueRewards hPlain hRun
  | createForwarder =>
      exact Creation.quiet_of_forwarder hRun
  | createManager terms =>
      exact Creation.quiet_of_manager hPlain hRun
  | activate poolId =>
      exact Upkeep.quiet_of_activate hPlain hRun
  | setTargets poolId targets =>
      exact Upkeep.quiet_of_setTargets hPlain hRun
  | rebalance poolId force =>
      exact Capital.quiet_of_rebalance hPlain hRun
  | capitalIn poolId amount =>
      exact Capital.quiet_of_capitalIn hPlain hRun
  | capitalOut poolId amount =>
      exact Capital.quiet_of_capitalOut hPlain hRun
  | reportBalance poolId =>
      exact Capital.quiet_of_reportBalance hPlain hRun
  | viewAum => exact Capital.quiet_of_view hRun
  | viewBalances poolId =>
      exact Capital.quiet_of_view hRun
  | viewMaxInvestable poolId =>
      exact Capital.quiet_of_view hRun
  | viewToken => exact Capital.quiet_of_view hRun
  | createRelayer poolId =>
      exact Creation.quiet_of_relayer hPlain hRun
  | joinPool poolId recipient r => exact hQuiet.elim
  | exitPool poolId recipient r => exact hQuiet.elim
  | claimRewards poolId =>
      exact Relaying.quiet_of_claimRewards hPlain hRun

/- A successful instruction makes changes of its flow. -/
theorem changes_of_effect
    {i : Instruction Address}
    (hPlain : s.IsPlain)
    (hRun : i.effect s ms = .ok effect) :
    Changes (Meta.Signs ms)
      (fun mint => (i.joined mint : Int) - i.exited mint)
      s (s.insertAll effect.writes) := by
  cases i with
  | joinPool poolId recipient r =>
      simp only [joined, exited, Int.ofNat_zero,
        Int.sub_zero]
      exact
        Changes.single
          (Relaying.change_of_joinPool hPlain hRun)
  | exitPool poolId recipient r =>
      simp only [joined, exited, Int.ofNat_zero,
        Int.zero_sub]
      exact
        Changes.single
          (Relaying.change_of_exitPool hPlain hRun)
  | _ =>
      refine (quiet_of_effect hPlain ?_ hRun).changes
      trivial

end Instruction

end YieldManager

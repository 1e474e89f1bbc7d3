import YieldManager.Proofs.Program.Capacity
import YieldManager.Proofs.Program.Runs
import YieldManager.Proofs.Program.Space

/-
  No instruction fails for want of space.  What it writes are
  records that it has loaded from accounts of their size, or
  that it opens, and their tables keep to their capacity; so
  in every store that a run leads to, each account fits into
  the space that it was opened with.

  Main declarations:
    * `Effect.IsSized`
    * `Creation.findsSpace_manager`
    * `Upkeep.findsSpace_registerToken`
    * `Capital.findsSpace_rebalance`
    * `Relaying.findsSpace_claimRewards`
    * `Instruction.findsSpace_effect`
    * `Program.findsSpace_execute`
    * `Program.isSized_of_run`
    * `Program.accounts_fit_of_run`
-/

------------------------------------------------------------
-- Opening Accounts
------------------------------------------------------------

namespace YieldManager

/- All accounts that an instruction writes are sized. -/
def Effect.IsSized (effect : Effect) : Prop :=
  ∀ w ∈ effect.writes, w.2.IsSized

variable {s : Store}
variable {ms : List Meta}

/- What an instruction writes alone is of its size. -/
theorem Effect.isSized_single
    {w : Address × Account}
    {receipt : Receipt}
    (hSized : w.2.IsSized) :
    Effect.IsSized { writes := [w], receipt := receipt } :=
  List.forall_mem_singleton.mpr hSized

namespace Creation

/- Payer and place are loaded. -/
private theorem yields_places :
    Loader.Yields s (fun _ => True) places :=
  Loader.yields_signer.bind fun _ _ =>
    Loader.yields_place.bind fun _ _ =>
      Loader.yields_system.bind fun _ _ => .pure trivial

/- A record with an empty table finds space when opened. -/
private theorem findsSpace_open
    {R : Type → Type} [Stored R] [LawfulLayout R]
    {opening : Opening}
    {record : R Address}
    {receipt : Receipt}
    (hWithin : (Stored.wrap record).IsWithin) :
    FindsSpace Effect.IsSized
      (do
        let w ← opening.write record
        return { writes := [w], receipt := receipt }) :=
  (opening.findsSpace_write hWithin).bind fun _ hSized =>
    .pure (Effect.isSized_single hSized)

/- Beginning to open an account is not about space. -/
private theorem findsSpace_opening
    {α : Type}
    {wanted : α → Prop}
    {payer place : Meta}
    {name payerName : String}
    {seed : Seed}
    {args : List Address}
    {next : Opening → Except Fault α}
    (hNext : ∀ opening, FindsSpace wanted (next opening)) :
    FindsSpace wanted
      (do
        let opening ←
          Opening.begin s payer place name seed args
        payer.expectWritable payerName
        next opening) :=
  Opening.findsSpace_begin.check_bind fun opening =>
    Meta.findsSpace_expectWritable.check_bind fun _ =>
      hNext opening

/- Opening a ledger finds space. -/
theorem findsSpace_ledger
    {poolId : Address} :
    FindsSpace Effect.IsSized
      (Creation.ledger poolId s ms) := by
  unfold Creation.ledger
  refine (yields_places.load ms).check_bind ?_
  rintro ⟨authority, place⟩
  refine findsSpace_opening ?_
  intro opening
  refine (FindsSpace.ofRule _).bind ?_
  intro _ _
  exact findsSpace_open (Nat.zero_le _)

/- Opening a vault finds space. -/
theorem findsSpace_shareVault
    {feeBps : UInt64} :
    FindsSpace Effect.IsSized
      (Creation.shareVault feeBps s ms) := by
  have hPlaces : Loader.Yields s (fun _ => True) vaultPlaces :=
    Loader.yields_signer.bind fun _ _ =>
      Loader.yields_mint.bind fun _ _ =>
        Loader.yields_place.bind fun _ _ =>
          Loader.yields_system.bind fun _ _ => .pure trivial
  unfold Creation.shareVault
  refine (hPlaces.load ms).check_bind ?_
  rintro ⟨authority, asset, place⟩
  refine findsSpace_opening ?_
  intro opening
  refine (FindsSpace.ofRule _).bind ?_
  intro _ _
  exact findsSpace_open (Nat.zero_le _)

/- Opening a gauge finds space. -/
theorem findsSpace_gauge
    (hSized : s.IsSized) :
    FindsSpace Effect.IsSized (Creation.gauge s ms) := by
  have hPlaces : Loader.Yields s (fun _ => True) gaugePlaces :=
    Loader.yields_signer.bind fun _ _ =>
      (Loader.yields_record hSized).bind fun _ _ =>
        Loader.yields_mint.bind fun _ _ =>
          Loader.yields_place.bind fun _ _ =>
            Loader.yields_system.bind fun _ _ =>
              .pure trivial
  unfold Creation.gauge
  refine (hPlaces.load ms).check_bind ?_
  rintro ⟨authority, vault, rewardMint, place⟩
  refine findsSpace_opening ?_
  intro opening
  refine Loaded.findsSpace_expect.check_bind ?_
  intro _
  exact findsSpace_open (Nat.zero_le _)

/- Opening a forwarder finds space. -/
theorem findsSpace_forwarder :
    FindsSpace Effect.IsSized (Creation.forwarder s ms) := by
  unfold Creation.forwarder
  refine (yields_places.load ms).check_bind ?_
  rintro ⟨authority, place⟩
  refine findsSpace_opening ?_
  intro opening
  exact findsSpace_open (Nat.zero_le _)

/- Opening a manager finds space. -/
theorem findsSpace_manager
    {terms : Terms Address}
    (hSized : s.IsSized) :
    FindsSpace Effect.IsSized
      (Creation.manager terms s ms) := by
  have hPlaces :
      Loader.Yields s (fun _ => True) managerPlaces :=
    Loader.yields_signer.bind fun _ _ =>
      (Loader.yields_record hSized).bind fun _ _ =>
        (Loader.yields_record hSized).bind fun _ _ =>
          Loader.yields_place.bind fun _ _ =>
            Loader.yields_system.bind fun _ _ =>
              .pure trivial
  unfold Creation.manager
  refine (hPlaces.load ms).check_bind ?_
  rintro ⟨authority, ledger, vault, place⟩
  refine findsSpace_opening ?_
  intro opening
  refine Loaded.findsSpace_expectDerived.check_bind ?_
  intro _
  refine Loaded.findsSpace_expect.check_bind ?_
  intro _
  refine (FindsSpace.ofRule _).bind ?_
  intro unbound _
  refine (FindsSpace.ofAction _ _).bind ?_
  rintro ⟨_, manager⟩ -
  exact findsSpace_open trivial

/- Opening a relayer finds space. -/
theorem findsSpace_relayer
    {poolId : Address}
    (hSized : s.IsSized) :
    FindsSpace Effect.IsSized
      (Creation.relayer poolId s ms) := by
  have hPlaces :
      Loader.Yields s (fun _ => True) relayerPlaces :=
    Loader.yields_signer.bind fun _ _ =>
      (Loader.yields_record hSized).bind fun _ _ =>
        Loader.yields_place.bind fun _ _ =>
          Loader.yields_system.bind fun _ _ => .pure trivial
  unfold Creation.relayer
  refine (hPlaces.load ms).check_bind ?_
  rintro ⟨authority, ledger, place⟩
  refine findsSpace_opening ?_
  intro opening
  refine Loaded.findsSpace_expectDerived.check_bind ?_
  intro _
  refine Loaded.findsSpace_expect.check_bind ?_
  intro _
  refine Loaded.findsSpace_expect.check_bind ?_
  intro _
  exact findsSpace_open trivial

end Creation

------------------------------------------------------------
-- Tending Accounts
------------------------------------------------------------

namespace Upkeep

/- Adding a token finds space. -/
theorem findsSpace_registerToken
    (hSized : s.IsSized) :
    FindsSpace Effect.IsSized (registerToken s ms) := by
  have hAccounts :
      Loader.Yields s (fun x => x.2.1.IsSized)
        ledgerAndMint :=
    Loader.yields_signer.bind fun _ _ =>
      (Loader.yields_record hSized).bind fun _ hLedger =>
        Loader.yields_mint.bind fun _ _ => .pure hLedger
  unfold registerToken
  refine (hAccounts.load ms).bind ?_
  rintro ⟨authority, ledger, mint⟩ hLedger
  refine Loaded.findsSpace_expectDerived.check_bind ?_
  intro _
  refine Loaded.findsSpace_expectWritable.check_bind ?_
  intro _
  refine Loaded.findsSpace_expect.check_bind ?_
  intro _
  refine (FindsSpace.ofAction _ _).bind ?_
  rintro ⟨_, book⟩ -
  refine (FindsSpace.ofRule _).bind ?_
  intro _ hRule
  -- A valid ledger has no more entries than it may.
  have hWithin : (State.ledger book).IsWithin := by
    rcases Ledger.isValid_eq_true_iff.mp
        (require_eq_ok_iff.mp hRule) with
      ⟨-, -, -, hRoom, -⟩
    exact hRoom
  exact
    (Loaded.findsSpace_write hLedger hWithin).bind
      fun _ hWritten => .pure (Effect.isSized_single hWritten)

/- Letting rewards accrue finds space. -/
theorem findsSpace_accrueRewards
    {holder : Address}
    {amount : UInt64}
    (hSized : s.IsSized) :
    FindsSpace Effect.IsSized
      (accrueRewards holder amount s ms) := by
  have hAccounts :
      Loader.Yields s (fun x => x.2.IsSized) gaugeAccounts :=
    Loader.yields_signer.bind fun _ _ =>
      (Loader.yields_record hSized).bind fun _ hGauge =>
        .pure hGauge
  unfold accrueRewards
  refine (hAccounts.load ms).bind ?_
  rintro ⟨authority, gauge⟩ hGauge
  refine Loaded.findsSpace_expectDerived.check_bind ?_
  intro _
  refine Loaded.findsSpace_expectWritable.check_bind ?_
  intro _
  refine Loaded.findsSpace_expect.check_bind ?_
  intro _
  refine (FindsSpace.ofAction _ _).bind ?_
  rintro ⟨_, accrued⟩ hAccrue
  have hWithin := Gauge.isWithin_of_accrue hGauge.2 hAccrue
  exact
    (Loaded.findsSpace_write hGauge hWithin).bind
      fun _ hWritten => .pure (Effect.isSized_single hWritten)

/- Making a manager live finds space. -/
theorem findsSpace_activate
    {poolId : Address}
    (hSized : s.IsSized) :
    FindsSpace Effect.IsSized (activate poolId s ms) := by
  have hAccounts :
      Loader.Yields s (fun x => x.1.IsSized ∧ x.2.IsSized)
        managerAndLedger :=
    Loader.yields_signer.bind fun _ _ =>
      (Loader.yields_record hSized).bind fun _ hManager =>
        (Loader.yields_record hSized).bind fun _ hLedger =>
          .pure ⟨hManager, hLedger⟩
  unfold activate
  refine (hAccounts.load ms).bind ?_
  rintro ⟨manager, ledger⟩ ⟨hManager, hLedger⟩
  refine Loaded.findsSpace_expectDerived.check_bind ?_
  intro _
  refine Loaded.findsSpace_expectWritable.check_bind ?_
  intro _
  refine Loaded.findsSpace_expectWritable.check_bind ?_
  intro _
  refine Loaded.findsSpace_expect.check_bind ?_
  intro _
  refine (FindsSpace.ofAction _ _).bind ?_
  rintro ⟨_, after⟩ hActivate
  have hBooks :=
    (Manager.sameBooks_of_activate hActivate).2
  have hWithin := hBooks.isWithin hLedger.2
  refine (Loaded.findsSpace_write hManager trivial).bind ?_
  intro _ hFirst
  refine (Loaded.findsSpace_write hLedger hWithin).bind ?_
  intro _ hSecond
  apply FindsSpace.pure
  exact
    List.forall_mem_cons.mpr
      ⟨hFirst, List.forall_mem_singleton.mpr hSecond⟩

/- Setting targets finds space. -/
theorem findsSpace_setTargets
    {poolId : Address}
    {targets : Targets}
    (hSized : s.IsSized) :
    FindsSpace Effect.IsSized
      (setTargets poolId targets s ms) := by
  have hAccounts :
      Loader.Yields s (fun x => x.2.IsSized)
        managerAccounts :=
    Loader.yields_signer.bind fun _ _ =>
      (Loader.yields_record hSized).bind fun _ hManager =>
        .pure hManager
  unfold setTargets
  refine (hAccounts.load ms).bind ?_
  rintro ⟨authority, manager⟩ hManager
  refine Loaded.findsSpace_expectDerived.check_bind ?_
  intro _
  refine Loaded.findsSpace_expectWritable.check_bind ?_
  intro _
  refine (FindsSpace.ofAction _ _).bind ?_
  rintro ⟨_, set⟩ -
  exact
    (Loaded.findsSpace_write hManager trivial).bind
      fun _ hWritten => .pure (Effect.isSized_single hWritten)

end Upkeep

------------------------------------------------------------
-- Moving Capital
------------------------------------------------------------

namespace Capital

/- Manager, ledger and vault of a desk are sized. -/
structure Desk.IsSized (d : Desk) : Prop where
  manager : d.manager.IsSized
  ledger : d.ledger.IsSized
  vault : d.vault.IsSized

/- The position of a sized desk keeps to the capacities. -/
theorem Desk.IsSized.isWithin
    {d : Desk}
    (hDesk : d.IsSized) :
    d.position.IsWithin :=
  ⟨hDesk.ledger.2, hDesk.vault.2⟩

/- A desk of a sized store is sized. -/
private theorem yields_take
    (hSized : s.IsSized) :
    Loader.Yields s Desk.IsSized Desk.take :=
  (Loader.yields_record hSized).bind fun _ hManager =>
    (Loader.yields_record hSized).bind fun _ hLedger =>
      (Loader.yields_record hSized).bind fun _ hVault =>
        .pure ⟨hManager, hLedger, hVault⟩

/- The desk of a caller is sized. -/
private theorem yields_callerDesk
    (hSized : s.IsSized) :
    Loader.Yields s Desk.IsSized callerDesk :=
  Loader.yields_signer.bind fun _ _ => yields_take hSized

/- The desk of a relayer is sized. -/
private theorem yields_relayerDesk
    (hSized : s.IsSized) :
    Loader.Yields s (fun x => x.2.2.IsSized) relayerDesk :=
  Loader.yields_signer.bind fun _ _ =>
    (Loader.yields_record hSized).bind fun _ _ =>
      (yields_take hSized).bind fun _ hDesk => .pure hDesk

/- Whether books can be written is not about space. -/
private theorem findsSpace_expectBooks
    {d : Desk} :
    FindsSpace (fun _ => True) d.expectBooks := by
  refine Loaded.findsSpace_expectWritable.check_bind ?_
  intro _
  refine Loaded.findsSpace_expect.check_bind ?_
  intro _
  refine Loaded.findsSpace_expectWritable.check_bind ?_
  intro _
  exact Loaded.findsSpace_expect

/- Whether a relayer may act is not about space. -/
private theorem findsSpace_expectRelayer
    {authority : Meta}
    {relayer : Loaded RelayerAccount}
    {d : Desk} :
    FindsSpace (fun _ => True)
      (expectRelayer authority relayer d) := by
  refine Loaded.findsSpace_expectDerived.check_bind ?_
  intro _
  refine Loaded.findsSpace_expect.check_bind ?_
  intro _
  refine Loaded.findsSpace_expectDerived.check_bind ?_
  intro _
  refine Loaded.findsSpace_expect.check_bind ?_
  intro _
  exact findsSpace_expectBooks

/- Books that keep to the capacities find space. -/
private theorem findsSpace_write
    {d : Desk}
    {after : Position Address (ShareVault Address)}
    (hDesk : d.IsSized)
    (hAfter : after.IsWithin) :
    FindsSpace (fun writes => ∀ w ∈ writes, w.2.IsSized)
      (d.write after) := by
  refine
    (Loaded.findsSpace_write hDesk.ledger
      hAfter.ledger).bind ?_
  intro _ hLedger
  refine
    (Loaded.findsSpace_write hDesk.vault hAfter.vault).bind ?_
  intro _ hVault
  apply FindsSpace.pure
  exact
    List.forall_mem_cons.mpr
      ⟨hLedger, List.forall_mem_singleton.mpr hVault⟩

/- A rebalance finds space. -/
theorem findsSpace_rebalance
    {poolId : Address}
    {force : Bool}
    (hSized : s.IsSized) :
    FindsSpace Effect.IsSized
      (rebalance poolId force s ms) := by
  unfold rebalance
  refine ((yields_callerDesk hSized).load ms).bind ?_
  intro d hDesk
  refine Loaded.findsSpace_expectDerived.check_bind ?_
  intro _
  refine findsSpace_expectBooks.check_bind ?_
  intro _
  refine (FindsSpace.ofAction _ _).bind ?_
  rintro ⟨outcome, after⟩ hMove
  refine (FindsSpace.ofRule _).bind ?_
  intro balances _
  have hAfter :=
    (Operated.rebalanced hMove).isWithin hDesk.isWithin
  exact
    (findsSpace_write hDesk hAfter).bind fun _ hWritten =>
      .pure hWritten

/- Investing on request finds space. -/
theorem findsSpace_capitalIn
    {poolId : Address}
    {amount : UInt64}
    (hSized : s.IsSized) :
    FindsSpace Effect.IsSized
      (capitalIn poolId amount s ms) := by
  unfold capitalIn
  refine ((yields_relayerDesk hSized).load ms).bind ?_
  rintro ⟨authority, relayer, d⟩ hDesk
  refine findsSpace_expectRelayer.check_bind ?_
  intro _
  refine (FindsSpace.ofAction _ _).bind ?_
  rintro ⟨shares, after⟩ hMove
  have hAfter :=
    (Operated.capitalIn hMove).isWithin hDesk.isWithin
  exact
    (findsSpace_write hDesk hAfter).bind fun _ hWritten =>
      .pure hWritten

/- Divesting on request finds space. -/
theorem findsSpace_capitalOut
    {poolId : Address}
    {amount : UInt64}
    (hSized : s.IsSized) :
    FindsSpace Effect.IsSized
      (capitalOut poolId amount s ms) := by
  unfold capitalOut
  refine ((yields_relayerDesk hSized).load ms).bind ?_
  rintro ⟨authority, relayer, d⟩ hDesk
  refine findsSpace_expectRelayer.check_bind ?_
  intro _
  refine (FindsSpace.ofAction _ _).bind ?_
  rintro ⟨received, after⟩ hMove
  have hAfter :=
    (Operated.capitalOut hMove).isWithin hDesk.isWithin
  exact
    (findsSpace_write hDesk hAfter).bind fun _ hWritten =>
      .pure hWritten

/- A report finds space. -/
theorem findsSpace_reportBalance
    {poolId : Address}
    (hSized : s.IsSized) :
    FindsSpace Effect.IsSized
      (reportBalance poolId s ms) := by
  unfold reportBalance
  refine ((yields_callerDesk hSized).load ms).bind ?_
  intro d hDesk
  refine Loaded.findsSpace_expectDerived.check_bind ?_
  intro _
  refine Loaded.findsSpace_expectWritable.check_bind ?_
  intro _
  refine Loaded.findsSpace_expect.check_bind ?_
  intro _
  refine Loaded.findsSpace_expect.check_bind ?_
  intro _
  refine (FindsSpace.ofAction _ _).bind ?_
  rintro ⟨managed, after⟩ hReport
  have hAfter :=
    (Operated.reported hReport).isWithin hDesk.isWithin
  exact
    (Loaded.findsSpace_write hDesk.ledger hAfter.ledger).bind
      fun _ hWritten => .pure (Effect.isSized_single hWritten)

/- A view writes nothing. -/
theorem findsSpace_view
    {question : Desk → Except Error Answer}
    (hSized : s.IsSized) :
    FindsSpace Effect.IsSized (view question s ms) := by
  unfold view
  refine ((yields_take hSized).load ms).bind ?_
  intro d _
  refine Loaded.findsSpace_expect.check_bind ?_
  intro _
  refine Loaded.findsSpace_expect.check_bind ?_
  intro _
  refine (FindsSpace.ofRule _).bind ?_
  intro answer _
  exact .pure (List.forall_mem_nil _)

end Capital

------------------------------------------------------------
-- Relayed Instructions
------------------------------------------------------------

namespace Relaying

/- Relayer, manager, ledger and vault are sized. -/
structure Desk.IsSized (d : Desk) : Prop where
  relayer : d.relayer.IsSized
  manager : d.manager.IsSized
  ledger : d.ledger.IsSized
  vault : d.vault.IsSized

/- The capital of a sized desk keeps to the capacities. -/
theorem Desk.IsSized.isWithin
    {d : Desk}
    (hDesk : d.IsSized)
    (gauge : Option (Gauge Address))
    (sink : Option (Forwarder Address)) :
    (d.guarded gauge sink).pool.capital.IsWithin :=
  ⟨hDesk.ledger.2, hDesk.vault.2⟩

/- A relayed desk of a sized store is sized. -/
private theorem yields_desk
    {sender : String}
    (hSized : s.IsSized) :
    Loader.Yields s Desk.IsSized (Desk.take sender) :=
  Loader.yields_signer.bind fun _ _ =>
    (Loader.yields_record hSized).bind fun _ hRelayer =>
      (Loader.yields_record hSized).bind fun _ hLedger =>
        (Loader.yields_record hSized).bind fun _ hManager =>
          (Loader.yields_record hSized).bind fun _ hVault =>
            .pure ⟨hRelayer, hManager, hLedger, hVault⟩

/- Whether relayer and ledger fit together is not either. -/
private theorem findsSpace_expectPool
    {d : Desk}
    {poolId : Address} :
    FindsSpace (fun _ => True) (d.expectRelayer poolId) := by
  refine Loaded.findsSpace_expectDerived.check_bind ?_
  intro _
  refine Loaded.findsSpace_expectWritable.check_bind ?_
  intro _
  refine Loaded.findsSpace_expectWritable.check_bind ?_
  intro _
  exact Loaded.findsSpace_expect

/- Whether the manager is the right one is not about space. -/
private theorem findsSpace_expectManager
    {d : Desk} :
    FindsSpace (fun _ => True) d.expectManager := by
  refine Loaded.findsSpace_expectDerived.check_bind ?_
  intro _
  exact Loaded.findsSpace_expect

/- Whether the vault is the right one is not about space. -/
private theorem findsSpace_expectVault
    {d : Desk} :
    FindsSpace (fun _ => True) d.expectVault := by
  refine Loaded.findsSpace_expectWritable.check_bind ?_
  intro _
  exact Loaded.findsSpace_expect

/- Relayer, ledger and vault find space. -/
private theorem findsSpace_writeDesk
    {d : Desk}
    {after : Guarded Pool}
    (hDesk : d.IsSized)
    (hAfter : after.pool.capital.IsWithin) :
    FindsSpace (fun writes => ∀ w ∈ writes, w.2.IsSized)
      (d.write after) := by
  refine
    (Loaded.findsSpace_write hDesk.relayer trivial).bind ?_
  intro _ hRelayer
  refine
    (Loaded.findsSpace_write hDesk.ledger
      hAfter.ledger).bind ?_
  intro _ hLedger
  refine
    (Loaded.findsSpace_write hDesk.vault hAfter.vault).bind ?_
  intro _ hVault
  apply FindsSpace.pure
  refine List.forall_mem_cons.mpr ⟨hRelayer, ?_⟩
  exact
    List.forall_mem_cons.mpr
      ⟨hLedger, List.forall_mem_singleton.mpr hVault⟩

/- A relayed join finds space. -/
theorem findsSpace_joinPool
    {poolId recipient : Address}
    {request : JoinRequest Address}
    (hSized : s.IsSized) :
    FindsSpace Effect.IsSized
      (joinPool poolId recipient request s ms) := by
  unfold joinPool
  refine ((yields_desk hSized).load ms).bind ?_
  intro d hDesk
  refine findsSpace_expectPool.check_bind ?_
  intro _
  refine findsSpace_expectManager.check_bind ?_
  intro _
  refine Loaded.findsSpace_expect.check_bind ?_
  intro _
  refine findsSpace_expectVault.check_bind ?_
  intro _
  refine (FindsSpace.ofAction _ _).bind ?_
  rintro ⟨outcome, after⟩ hJoin
  have hAfter :=
    (Operated.joined rfl rfl hJoin).isWithin
      (hDesk.isWithin none none)
  exact
    (findsSpace_writeDesk hDesk hAfter).bind fun _ hWritten =>
      .pure hWritten

/- A relayed exit finds space. -/
theorem findsSpace_exitPool
    {poolId recipient : Address}
    {request : ExitRequest Address}
    (hSized : s.IsSized) :
    FindsSpace Effect.IsSized
      (exitPool poolId recipient request s ms) := by
  unfold exitPool
  refine ((yields_desk hSized).load ms).bind ?_
  intro d hDesk
  refine findsSpace_expectPool.check_bind ?_
  intro _
  refine findsSpace_expectManager.check_bind ?_
  intro _
  refine Loaded.findsSpace_expect.check_bind ?_
  intro _
  refine findsSpace_expectVault.check_bind ?_
  intro _
  refine (FindsSpace.ofAction _ _).bind ?_
  rintro ⟨report, after⟩ hExit
  have hAfter :=
    (Operated.exited rfl rfl hExit).isWithin
      (hDesk.isWithin none none)
  exact
    (findsSpace_writeDesk hDesk hAfter).bind fun _ hWritten =>
      .pure hWritten

/- Desk, gauge and forwarder of a claim are sized. -/
private theorem yields_rewardDesk
    (hSized : s.IsSized) :
    Loader.Yields s
      (fun x =>
        x.1.IsSized ∧
          (∀ gauge, x.2.1 = some gauge → gauge.IsSized) ∧
          x.2.2.IsSized)
      rewardDesk :=
  (yields_desk hSized).bind fun _ hDesk =>
    (Loader.yields_record? hSized).bind fun _ hGauge =>
      (Loader.yields_record hSized).bind fun _ hForwarder =>
        .pure ⟨hDesk, hGauge, hForwarder⟩

/- Whether the gauge is the right one is not about space. -/
private theorem findsSpace_expectGauge
    {d : Desk}
    {gauge : Option (Loaded Gauge)} :
    FindsSpace (fun _ => True) (expectGauge d gauge) := by
  cases gauge with
  | none => trivial
  | some loaded =>
      refine Loaded.findsSpace_expectWritable.check_bind ?_
      intro _
      exact Loaded.findsSpace_expect

/- A gauge within its capacity finds space. -/
private theorem findsSpace_writeGauge
    {gauge : Option (Loaded Gauge)}
    {after : Option (Gauge Address)}
    (hGauge : ∀ x, gauge = some x → x.IsSized)
    (hAfter :
      ∀ g, after = some g → (State.gauge g).IsWithin) :
    FindsSpace (fun writes => ∀ w ∈ writes, w.2.IsSized)
      (writeGauge gauge after) := by
  unfold writeGauge
  split
  · next loaded g =>
      exact
        (Loaded.findsSpace_write (hGauge loaded rfl)
          (hAfter g rfl)).bind fun _ hWritten =>
            .pure (List.forall_mem_singleton.mpr hWritten)
  · exact List.forall_mem_nil _

/- A forwarder within its capacity finds space. -/
private theorem findsSpace_writeForwarder
    {loaded : Loaded Forwarder}
    {after : Option (Forwarder Address)}
    (hForwarder : loaded.IsSized)
    (hAfter :
      ∀ f, after = some f → (State.forwarder f).IsWithin) :
    FindsSpace (fun writes => ∀ w ∈ writes, w.2.IsSized)
      (writeForwarder loaded after) := by
  cases after with
  | none => exact List.forall_mem_nil _
  | some f =>
      exact
        (Loaded.findsSpace_write hForwarder
          (hAfter f rfl)).bind fun _ hWritten =>
            .pure (List.forall_mem_singleton.mpr hWritten)

/- What a relayed claim leaves keeps to the capacities. -/
private theorem isWithin_of_claimed
    {poolId : Address}
    {rewards : List (TokenAmount Address)}
    {g h : Guarded Pool}
    (hGauge :
      ∀ x, g.pool.gauge = some x → (State.gauge x).IsWithin)
    (hSink :
      ∀ f, g.pool.sink = some f →
        (State.forwarder f).IsWithin)
    (hRun : Relay.claimRewards poolId g = .ok rewards h) :
    (∀ x, h.pool.gauge = some x →
        (State.gauge x).IsWithin) ∧
      ∀ f, h.pool.sink = some f →
        (State.forwarder f).IsWithin := by
  rcases Relay.exists_desk_of_claimRewards hRun with
    ⟨-, sink, desk, hFound, hClaim, rfl⟩
  have hDesk :=
    Manager.isWithin_of_claimRewards
      ⟨hGauge, hSink sink hFound⟩ hClaim
  refine ⟨hDesk.gauge, ?_⟩
  intro f hSame
  cases hSame
  exact hDesk.sink

/- A relayed claim finds space. -/
theorem findsSpace_claimRewards
    {poolId : Address}
    (hSized : s.IsSized) :
    FindsSpace Effect.IsSized
      (claimRewards poolId s ms) := by
  unfold claimRewards
  refine ((yields_rewardDesk hSized).load ms).bind ?_
  rintro ⟨d, gauge, forwarder⟩ ⟨hDesk, hGauge, hForwarder⟩
  refine findsSpace_expectPool.check_bind ?_
  intro _
  refine findsSpace_expectManager.check_bind ?_
  intro _
  refine findsSpace_expectVault.check_bind ?_
  intro _
  refine findsSpace_expectGauge.check_bind ?_
  intro _
  refine Loaded.findsSpace_expectWritable.check_bind ?_
  intro _
  refine Loaded.findsSpace_expect.check_bind ?_
  intro _
  refine (FindsSpace.ofAction _ _).bind ?_
  rintro ⟨rewards, after⟩ hClaim
  have hCapital : after.pool.capital.IsWithin := by
    rw [(Relay.capital_of_claimRewards hClaim).2.2]
    exact hDesk.isWithin _ _
  have hRewards :
      (∀ x, after.pool.gauge = some x →
          (State.gauge x).IsWithin) ∧
        ∀ f, after.pool.sink = some f →
          (State.forwarder f).IsWithin := by
    apply isWithin_of_claimed _ _ hClaim
    · intro x hFound
      rcases Option.map_eq_some_iff.mp hFound with
        ⟨loaded, hLoaded, rfl⟩
      exact (hGauge loaded hLoaded).2
    · intro f hFound
      exact Option.some.inj hFound ▸ hForwarder.2
  refine (findsSpace_writeDesk hDesk hCapital).bind ?_
  intro books hBooks
  refine (findsSpace_writeGauge hGauge hRewards.1).bind ?_
  intro gauges hGauges
  refine
    (findsSpace_writeForwarder hForwarder
      hRewards.2).bind ?_
  intro forwarders hForwarders
  apply FindsSpace.pure
  exact
    List.forall_mem_append.mpr
      ⟨List.forall_mem_append.mpr ⟨hBooks, hGauges⟩,
        hForwarders⟩

end Relaying

------------------------------------------------------------
-- Instructions and Runs
------------------------------------------------------------

/- Every instruction finds space in a sized store. -/
theorem Instruction.findsSpace_effect
    (hSized : s.IsSized)
    (i : Instruction Address)
    (ms : List Meta) :
    FindsSpace Effect.IsSized (i.effect s ms) := by
  cases i with
  | createLedger poolId => exact Creation.findsSpace_ledger
  | registerToken =>
      exact Upkeep.findsSpace_registerToken hSized
  | createShareVault feeBps =>
      exact Creation.findsSpace_shareVault
  | createGauge => exact Creation.findsSpace_gauge hSized
  | accrueRewards holder amount =>
      exact Upkeep.findsSpace_accrueRewards hSized
  | createForwarder => exact Creation.findsSpace_forwarder
  | createManager terms =>
      exact Creation.findsSpace_manager hSized
  | activate poolId =>
      exact Upkeep.findsSpace_activate hSized
  | setTargets poolId targets =>
      exact Upkeep.findsSpace_setTargets hSized
  | rebalance poolId force =>
      exact Capital.findsSpace_rebalance hSized
  | capitalIn poolId amount =>
      exact Capital.findsSpace_capitalIn hSized
  | capitalOut poolId amount =>
      exact Capital.findsSpace_capitalOut hSized
  | reportBalance poolId =>
      exact Capital.findsSpace_reportBalance hSized
  | viewAum => exact Capital.findsSpace_view hSized
  | viewBalances poolId =>
      exact Capital.findsSpace_view hSized
  | viewMaxInvestable poolId =>
      exact Capital.findsSpace_view hSized
  | viewToken => exact Capital.findsSpace_view hSized
  | createRelayer poolId =>
      exact Creation.findsSpace_relayer hSized
  | joinPool poolId recipient request =>
      exact Relaying.findsSpace_joinPool hSized
  | exitPool poolId recipient request =>
      exact Relaying.findsSpace_exitPool hSized
  | claimRewards poolId =>
      exact Relaying.findsSpace_claimRewards hSized

namespace Program

/- A call finds space, and leaves a store sized. -/
theorem findsSpace_execute
    (hSized : s.IsSized)
    (call : Call) :
    FindsSpace (fun result => result.2.IsSized)
      (execute s call) := by
  have hProgram :
      FindsSpace (fun _ => True)
        (expectProgram call.programId) :=
    .ofCondition Refusal.noConfusion
  refine hProgram.check_bind ?_
  intro _
  refine
    (Instruction.findsSpace_effect hSized call.instruction
      call.metas).bind ?_
  intro effect hWrites
  exact .pure (hSized.insertAll hWrites)

/- A call leaves a store sized, even if it fails. -/
theorem isSized_of_step
    (hSized : s.IsSized)
    (call : Call) :
    (step s call).IsSized := by
  have hSpace := findsSpace_execute hSized call
  unfold step
  cases hRun : execute s call with
  | ok result =>
      rw [hRun] at hSpace
      exact hSpace
  | error fault => exact hSized

/- A run leaves a store sized. -/
theorem isSized_of_run
    (hSized : s.IsSized)
    (calls : List Call) :
    (run s calls).IsSized := by
  induction calls generalizing s with
  | nil => exact hSized
  | cons call calls ih =>
      exact ih (isSized_of_step hSized call)

/-
  Whatever a run does to a store without accounts of the
  program, every account that it keeps has the space of its
  kind, and its tag and record fit into it.  No instruction
  that is tried next fails for want of space.
-/
theorem accounts_fit_of_run
    (hForeign :
      ∀ key account, s.find? key = some account →
        account.owner ≠ Address.program)
    (calls : List Call) :
    (Kind.all.map fun kind => (kind.name, kind.space)) =
        [ ("AssetManager", 296),
          ("PoolLedger", 776),
          ("ShareVault", 776),
          ("Gauge", 776),
          ("RewardForwarder", 360),
          ("RelayerState", 106) ] ∧
      (∀ key state,
        (run s calls).state? key = some state →
          (run s calls).find? key =
              some (.stored state.kind.space state) ∧
            ∀ derive,
              (state.toBytes
                  (Address.codec derive)).length ≤
                state.kind.space) ∧
      ∀ call fault,
        execute (run s calls) call = .error fault →
          fault.refusal ≠ .outOfSpace := by
  have hSized : (run s calls).IsSized :=
    isSized_of_run (Store.isSized_of_foreign hForeign) calls
  refine ⟨rfl, ?_, ?_⟩
  · intro key state hState
    rcases (Store.state?_eq_some_iff hSized.isPlain).mp
        hState with ⟨space, hFound⟩
    have hAccount := hSized key _ hFound
    refine ⟨hAccount.1 ▸ hFound, ?_⟩
    intro derive
    rw [State.length_toBytes (Address.takes_codec derive)]
    exact State.length_le_space hAccount.2
  · intro call fault hFails
    have hSpace := findsSpace_execute hSized call
    rw [hFails] at hSpace
    exact hSpace

/- A reward accrues to the holder of a number. -/
def crowdReward (i : Nat) : Call :=
  smallCall
    (.accrueRewards (smallKey (UInt8.ofNat (i + 10))) 1)
    [.ofGauge smallTerms.vault]

/- Rewards accrue to sixteen holders of a new gauge. -/
def crowdCalls : List Call :=
  let mint := smallTerms.token
  let vault := smallTerms.vault
  let gauge := Address.ofGauge vault
  [ smallCall (.createShareVault 0) [mint, vault, .system],
    smallCall .createGauge [vault, mint, gauge, .system] ] ++
    (List.range 16).map crowdReward

/-
  A gauge with sixteen holders takes 749 of its 776 bytes.
  Another holder is refused by a rule, and not for want of
  space.
-/
theorem accounts_fit_of_run_crowdCalls :
    (∀ key account, smallStore.find? key = some account →
        account.owner ≠ Address.program) ∧
      ∃ state fault,
        (run smallStore crowdCalls).state?
            (.ofGauge smallTerms.vault) = some state ∧
          state.length = 749 ∧
          (run smallStore crowdCalls).find?
              (.ofGauge smallTerms.vault) =
            some (.stored state.kind.space state) ∧
          execute (run smallStore crowdCalls)
              (crowdReward 16) = .error fault ∧
          fault.refusal = .rule .capacityReached ∧
          fault.refusal ≠ .outOfSpace := by
  rcases accounts_fit_of_run owner_of_smallStore crowdCalls
    with ⟨-, hFits, hSpace⟩
  have hLength :
      ((run smallStore crowdCalls).state?
          (.ofGauge smallTerms.vault)).map State.length =
        some 749 := by
    decide +kernel
  have hRefused :
      (execute (run smallStore crowdCalls)
          (crowdReward 16)).map (fun _ => ()) =
        .error (.general (.rule .capacityReached)) := by
    decide +kernel
  rcases Option.map_eq_some_iff.mp hLength with
    ⟨state, hState, hTakes⟩
  cases hRun :
      execute (run smallStore crowdCalls)
        (crowdReward 16) with
  | ok result =>
      rw [hRun] at hRefused
      cases hRefused
  | error fault =>
      rw [hRun] at hRefused
      cases hRefused
      exact
        ⟨owner_of_smallStore, state, _, hState, hTakes,
          (hFits _ state hState).1, rfl, rfl,
          hSpace _ _ hRun⟩

end Program

end YieldManager

import YieldManager.Proofs.Band
import YieldManager.Proofs.Program.Runs

/-
  The accounts of the program agree with each other.  Every
  manager lies at its address, works for the ledger of its
  pool and invests in a vault over its token; it is live just
  when that ledger has registered it, and ledgers register
  nobody else.  Relayers are idle, and serve the ledger of
  their pool.

  Main declarations:
    * `Store.Registers`
    * `CoherentManager`
    * `CoherentRelayer`
    * `Store.IsCoherent`
    * `Store.IsWired.isCoherent`
    * `Program.isCoherent_of_run`
-/

------------------------------------------------------------
-- Coherent Stores
------------------------------------------------------------

namespace YieldManager

/- The ledger names the key as the manager of the token. -/
def Ledger.Registers
    {κ : Type}
    (l : Ledger κ)
    (mint key : κ) : Prop :=
  ∃ e ∈ l.entries, e.mint = mint ∧ e.manager = key

/- What a manager has in common with its pool and vault. -/
structure CoherentManager
    (s : Store)
    (key : Address)
    (m : Manager Address) : Prop where
  address : key = .ofManager m.poolId m.token
  custodian : m.custodian = .ofLedger m.poolId
  ledger :
    ∃ l,
      s.state? m.custodian = some (.ledger l) ∧
        l.poolId = m.poolId ∧
        m.authority = l.authority ∧
        m.rebalancer = l.relayer ∧
        (m.live = true ↔ l.Registers m.token key)
  rebalancer : m.rebalancer = .ofRelayer m.poolId
  vault :
    ∃ v,
      s.state? m.vault = some (.shareVault v) ∧
        v.asset = m.token
  lower : m.targets.lower ≤ m.targets.target
  upper : m.targets.target ≤ m.targets.upper
  one : m.targets.upper.toNat ≤ 10 ^ 18

/- What a relayer has in common with its pool. -/
structure CoherentRelayer
    (s : Store)
    (key : Address)
    (r : RelayerAccount Address) : Prop where
  idle : r.lock = .idle
  address : key = .ofRelayer r.poolId
  ledgerKey : r.ledger = .ofLedger r.poolId
  ledger :
    ∃ l,
      s.state? r.ledger = some (.ledger l) ∧
        l.poolId = r.poolId ∧ r.authority = l.authority

namespace Store

/-
  Managers and relayers agree with their pools, ledgers and
  vaults are valid, and whoever is registered is a live
  manager of pool and token.
-/
structure IsCoherent (s : Store) : Prop where
  managers :
    ∀ key m, s.state? key = some (.manager m) →
      CoherentManager s key m
  registered :
    ∀ key l mint manager,
      s.state? key = some (.ledger l) →
        l.Registers mint manager → manager ≠ 0 →
        ∃ m,
          s.state? manager = some (.manager m) ∧
            m.live = true ∧ m.poolId = l.poolId ∧
            m.token = mint
  ledgers :
    ∀ key l, s.state? key = some (.ledger l) →
      l.isValid = true
  vaults :
    ∀ key v, s.state? key = some (.shareVault v) →
      v.isValid = true
  relayers :
    ∀ key r, s.state? key = some (.relayer r) →
      CoherentRelayer s key r

end Store

------------------------------------------------------------
-- Wired Stores Are Coherent
------------------------------------------------------------

/-
  A valid ledger lists no mint twice, so that a look-up finds
  whatever it registers.
-/
theorem Ledger.registers_iff
    {l : Ledger Address}
    (hValid : l.isValid = true)
    {mint key : Address} :
    l.Registers mint key ↔
      ∃ e, l.entry mint = .ok e ∧ e.manager = key := by
  have hNodup : (l.entries.map Entry.mint).Nodup :=
    Ledger.nodup_of_isValid hValid
  unfold Ledger.Registers
  simp only [Ledger.entry_eq_ok_iff,
    Table.find?_eq_some_iff hNodup, and_assoc]

variable {s : Store} {key : Address}

/- A wired manager agrees with its pool and vault. -/
theorem Store.IsWired.coherentManager
    {m : Manager Address}
    (hWired : s.IsWired)
    (hManager : s.state? key = some (.manager m)) :
    CoherentManager s key m := by
  have hRecord : WiredManager s key m :=
    hWired.wired key _ hManager
  rcases hRecord.books with ⟨l, v, hLedger, hVault, hBound⟩
  have hBooks : WiredLedger s m.custodian l :=
    hWired.wired _ _ hLedger
  rcases Targets.validate_eq_ok_iff.mp hRecord.targets with
    ⟨hOne, hUpper, hLower⟩
  have hRegistered :=
    hBound.registered.trans
      (Ledger.registers_iff hBooks.valid).symm
  exact
    { address := hRecord.derived
      custodian := hRecord.custodian
      ledger :=
        ⟨l, hLedger, hBound.poolId, hBound.authority,
          hBound.rebalancer, hRegistered⟩
      rebalancer := by
        rw [hBound.rebalancer, hBooks.relayer, hBound.poolId]
      vault := ⟨v, hVault, hBound.asset⟩
      lower := hLower
      upper := hUpper
      one := UInt64.le_iff_toNat_le.mp hOne }

/- A wired relayer agrees with its pool. -/
theorem Store.IsWired.coherentRelayer
    {r : RelayerAccount Address}
    (hWired : s.IsWired)
    (hRelayer : s.state? key = some (.relayer r)) :
    CoherentRelayer s key r := by
  have hRecord : WiredRelayer s key r :=
    hWired.wired key _ hRelayer
  rcases hRecord.ledger with
    ⟨l, hLedger, hPool, hAuthority⟩
  have hBooks : WiredLedger s r.ledger l :=
    hWired.wired _ _ hLedger
  exact
    { idle := hRecord.lock
      address := hRecord.derived
      ledgerKey := by rw [hBooks.derived, hPool]
      ledger := ⟨l, hLedger, hPool, hAuthority.symm⟩ }

/- Whoever a wired ledger registers is live, and its own. -/
theorem Store.IsWired.exists_registered
    {l : Ledger Address}
    {mint manager : Address}
    (hWired : s.IsWired)
    (hLedger : s.state? key = some (.ledger l))
    (hRegisters : l.Registers mint manager)
    (hSome : manager ≠ 0) :
    ∃ m,
      s.state? manager = some (.manager m) ∧
        m.live = true ∧ m.poolId = l.poolId ∧
        m.token = mint := by
  have hRecord : WiredLedger s key l :=
    hWired.wired key _ hLedger
  rcases (Ledger.registers_iff hRecord.valid).mp hRegisters
    with ⟨e, hEntry, rfl⟩
  exact (hRecord.entries mint e hEntry).registered hSome

/- A wired store is coherent. -/
theorem Store.IsWired.isCoherent
    (hWired : s.IsWired) :
    s.IsCoherent where
  managers _ _ hManager := hWired.coherentManager hManager
  registered _ _ _ _ hLedger hRegisters hSome :=
    hWired.exists_registered hLedger hRegisters hSome
  ledgers key l hLedger := by
    have hRecord : WiredLedger s key l :=
      hWired.wired key _ hLedger
    exact hRecord.valid
  vaults key v hVault := by
    have hRecord : WiredVault s key v :=
      hWired.wired key _ hVault
    exact hRecord.valid
  relayers _ _ hRelayer := hWired.coherentRelayer hRelayer

------------------------------------------------------------
-- Runs
------------------------------------------------------------

namespace Program

/-
  Every store that a run reaches from one without accounts of
  the program is coherent.
-/
theorem isCoherent_of_run
    (hForeign :
      ∀ key account, s.find? key = some account →
        account.owner ≠ Address.program)
    (calls : List Call) :
    (run s calls).IsCoherent :=
  (isWired_of_run (Store.isWired_of_foreign hForeign)
    calls).isCoherent

/- In the small run, the manager of the pool goes live. -/
theorem isCoherent_smallCalls :
    (∀ key account,
        smallStore.find? key = some account →
          account.owner ≠ Address.program) ∧
      (match
          (run smallStore smallCalls).state?
            (.ofManager smallTerms.poolId smallTerms.token)
        with
        | some (.manager m) => m.live
        | _ => false) = true ∧
      (run smallStore smallCalls).IsCoherent :=
  ⟨owner_of_smallStore, by decide +kernel,
    isCoherent_of_run owner_of_smallStore smallCalls⟩

end Program

end YieldManager

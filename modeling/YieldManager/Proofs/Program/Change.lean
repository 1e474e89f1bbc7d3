import YieldManager.Program.Run
import YieldManager.Proofs.Program.Loading
import YieldManager.Proofs.Relay.Calls

/-
  All that a successful instruction can do to a store, as a
  relation of a few kinds of changes.  Each change names the
  operation behind it, the flow of tokens into the pools, and
  who had to sign for it; an instruction makes a short
  sequence of them, and so does a run.

  Main declarations:
    * `Operated`
    * `Rebooked`
    * `Opened`
    * `Change`
    * `Changes`
    * `Quiet`
-/

------------------------------------------------------------
-- Operations on a Position
------------------------------------------------------------

namespace YieldManager

/-
  What one instruction does to the ledger and the vault of
  the manager at a key, and what it pays in, less what it
  pays out.
-/
inductive Operated
    (m : Manager Address)
    (key : Address) :
    (Address → Int) →
      Position Address (ShareVault Address) →
        Position Address (ShareVault Address) → Prop where
  | rebalanced
      {poolId : Address}
      {force : Bool}
      {outcome : Outcome}
      {s t : Position Address (ShareVault Address)}
      (hRun :
        m.rebalance key poolId force s = .ok outcome t) :
      Operated m key (fun _ => 0) s t
  | capitalIn
      {caller poolId : Address}
      {amount shares : UInt64}
      {s t : Position Address (ShareVault Address)}
      (hRun :
        m.capitalIn caller key poolId amount s =
          .ok shares t) :
      Operated m key (fun _ => 0) s t
  | capitalOut
      {caller poolId : Address}
      {amount received : UInt64}
      {s t : Position Address (ShareVault Address)}
      (hRun :
        m.capitalOut caller key poolId amount s =
          .ok received t) :
      Operated m key (fun _ => 0) s t
  | reported
      {poolId : Address}
      {value : UInt64}
      {s t : Position Address (ShareVault Address)}
      (hRun : m.reportBalance key poolId s = .ok value t) :
      Operated m key (fun _ => 0) s t
  | joined
      {relayer poolId : Address}
      {r : JoinRequest Address}
      {outcome : Outcome}
      {g h : Guarded Relaying.Pool}
      (hManager : g.pool.manager = m)
      (hKey : g.pool.managerKey = key)
      (hRun :
        Relay.joinPool relayer poolId r g =
          .ok outcome h) :
      Operated m key
        (fun mint =>
          Request.total (r.assets.zip r.maxAmounts) mint)
        g.pool.capital h.pool.capital
  | exited
      {relayer poolId : Address}
      {r : ExitRequest Address}
      {report : ExitReport}
      {g h : Guarded Relaying.Pool}
      (hManager : g.pool.manager = m)
      (hKey : g.pool.managerKey = key)
      (hRun :
        Relay.exitPool relayer poolId r g = .ok report h) :
      Operated m key
        (fun mint =>
          -(Request.total (r.assets.zip r.minAmounts) mint :
            Int))
        g.pool.capital h.pool.capital

namespace Operated

variable {m : Manager Address}
variable {key : Address}
variable {flow : Address → Int}
variable {s t : Position Address (ShareVault Address)}

/- Only live managers operate. -/
theorem live
    (hOperated : Operated m key flow s t) :
    m.live = true := by
  cases hOperated with
  | rebalanced hRun =>
      exact (Manager.rebalance_eq_ok_iff.mp hRun).2.1
  | capitalIn hRun =>
      exact (Manager.capitalIn_eq_ok_iff.mp hRun).2.2.1
  | capitalOut hRun =>
      exact (Manager.capitalOut_eq_ok_iff.mp hRun).2.2.1
  | reported hRun =>
      exact (Manager.reportBalance_eq_ok_iff.mp hRun).2.1
  | joined hManager hKey hRun =>
      subst hManager
      rcases Relay.joinPool_eq_ok_iff.mp hRun with
        ⟨-, l, u, -, hMove, -⟩
      exact (Manager.rebalance_eq_ok_iff.mp hMove).2.1
  | exited hManager hKey hRun =>
      subst hManager
      rcases Relay.exitPool_eq_ok_iff.mp hRun with
        ⟨-, short, p, u, l, -, -, -, hMove, -⟩
      exact (Manager.rebalance_eq_ok_iff.mp hMove).2.1

/- Every operation advances a settled position. -/
theorem advanced
    (hOperated : Operated m key flow s t)
    (hSettled : Manager.Settled m key s) :
    Manager.Advanced m key flow s t := by
  cases hOperated with
  | rebalanced hRun =>
      exact Manager.advanced_of_rebalance hSettled hRun
  | capitalIn hRun =>
      exact Manager.advanced_of_capitalIn hSettled hRun
  | capitalOut hRun =>
      exact (Manager.advanced_of_capitalOut hSettled hRun).2
  | reported hRun =>
      exact Manager.advanced_of_reportBalance hSettled hRun
  | joined hManager hKey hRun =>
      subst hManager hKey
      exact Relay.advanced_of_joinPool hSettled hRun
  | exited hManager hKey hRun =>
      subst hManager hKey
      exact Relay.advanced_of_exitPool hSettled hRun

end Operated

------------------------------------------------------------
-- Books in a Store
------------------------------------------------------------

/-
  The first store has the manager at a key and its books, and
  in the second store the books are replaced.
-/
structure Rebooked
    (key : Address)
    (m : Manager Address)
    (p q : Position Address (ShareVault Address))
    (s t : Store) : Prop where
  manager :
    ∃ space, s.find? key = some (.stored space (.manager m))
  books :
    ∃ ledgerSpace vaultSpace,
      s.find? m.custodian =
          some (.stored ledgerSpace (.ledger p.ledger)) ∧
        s.find? m.vault =
          some (.stored vaultSpace (.shareVault p.vault)) ∧
        (s.insert m.custodian
            (.stored ledgerSpace (.ledger q.ledger))).insert
          m.vault
            (.stored vaultSpace (.shareVault q.vault)) = t

namespace Rebooked

variable {key : Address}
variable {m : Manager Address}
variable {p q : Position Address (ShareVault Address)}
variable {s t : Store}

/- Books are replaced by writing a ledger and a vault. -/
theorem of_insert
    {ledgerKey vaultKey : Address}
    {space ledgerSpace vaultSpace : Nat}
    (hManager :
      s.find? key = some (.stored space (.manager m)))
    (hLedger :
      s.find? ledgerKey =
        some (.stored ledgerSpace (.ledger p.ledger)))
    (hVault :
      s.find? vaultKey =
        some (.stored vaultSpace (.shareVault p.vault)))
    (hCustodian : ledgerKey = m.custodian)
    (hVaultKey : vaultKey = m.vault)
    (hWrites :
      (s.insert ledgerKey
          (.stored ledgerSpace (.ledger q.ledger))).insert
        vaultKey (.stored vaultSpace (.shareVault q.vault)) =
          t) :
    Rebooked key m p q s t := by
  subst hCustodian hVaultKey
  exact
    ⟨⟨space, hManager⟩, ledgerSpace, vaultSpace, hLedger,
      hVault, hWrites⟩

/- Manager, ledger and vault are the records of the store. -/
theorem state?
    (hRebooked : Rebooked key m p q s t) :
    s.state? key = some (.manager m) ∧
      s.state? m.custodian = some (.ledger p.ledger) ∧
      s.state? m.vault = some (.shareVault p.vault) := by
  rcases hRebooked with
    ⟨⟨_, hManager⟩, _, _, hLedger, hVault, -⟩
  exact
    ⟨Store.state?_of_find? hManager,
      Store.state?_of_find? hLedger,
      Store.state?_of_find? hVault⟩

/- Replacing books keeps a store plain. -/
theorem isPlain
    (hRebooked : Rebooked key m p q s t)
    (hPlain : s.IsPlain) :
    t.IsPlain := by
  rcases hRebooked.books with ⟨_, _, -, -, rfl⟩
  exact (hPlain.insert _ _ _).insert _ _ _

end Rebooked

------------------------------------------------------------
-- Opened Accounts
------------------------------------------------------------

/-
  The first records of accounts, each at the address derived
  for it, with what was checked before it was written.  To a
  pool that exists, its authority has to add them.
-/
inductive Opened
    (signed : Address → Prop)
    (s : Store) :
    Address → State Address → Prop where
  | ledger
      {poolId authority : Address}
      (hValid :
        (Creation.newLedger poolId authority).isValid =
          true) :
      Opened signed s (.derived .ledger [poolId])
        (.ledger (Creation.newLedger poolId authority))
  | shareVault
      {authority asset : Address}
      {feeBps : UInt64}
      (hValid :
        (Creation.newShareVault authority asset
          feeBps).isValid = true) :
      Opened signed s (.derived .shareVault [authority, asset])
        (.shareVault
          (Creation.newShareVault authority asset feeBps))
  | gauge
      {authority vault rewardMint : Address} :
      Opened signed s (.derived .gauge [vault])
        (.gauge (Creation.newGauge authority vault rewardMint))
  | forwarder
      {authority : Address} :
      Opened signed s (.derived .forwarder [authority])
        (.forwarder
          { received := [], bump := Address.bump })
  | manager
      {terms : Terms Address}
      {creator ledgerKey vaultKey : Address}
      {l : Ledger Address}
      {v : ShareVault Address}
      {unbound m : Manager Address}
      (hLedger : s.state? ledgerKey = some (.ledger l))
      (hVault : s.state? vaultKey = some (.shareVault v))
      (hDerived :
        ledgerKey = .derived .ledger [terms.poolId])
      (hCreate :
        Manager.create terms Address.bump = .ok unbound)
      (hBind :
        Manager.bind creator ledgerKey l vaultKey v unbound =
          .ok () m)
      (hSigned : signed creator) :
      Opened signed s
        (.derived .manager [terms.poolId, terms.token])
        (.manager m)
  | relayer
      {authority poolId ledgerKey : Address}
      {l : Ledger Address}
      (hLedger : s.state? ledgerKey = some (.ledger l))
      (hDerived : ledgerKey = .derived .ledger [poolId])
      (hAuthority : l.authority = authority)
      (hRelayer : l.relayer = .derived .relayer [poolId])
      (hSigned : signed authority) :
      Opened signed s (.derived .relayer [poolId])
        (.relayer
          (Creation.newRelayer authority poolId ledgerKey))

------------------------------------------------------------
-- Changes of a Store
------------------------------------------------------------

/- One change of a store, and its flow. -/
inductive Change (signed : Address → Prop) :
    (Address → Int) → Store → Store → Prop where
  | opened
      {s : Store}
      {key : Address}
      {space : Nat}
      {state : State Address}
      (hFree : s.state? key = none)
      (hOpened : Opened signed s key state) :
      Change signed (fun _ => 0) s
        (s.insert key (.stored space state))
  | tokenAdded
      {s : Store}
      {key mint : Address}
      {space : Nat}
      {l l' : Ledger Address}
      (hLedger :
        s.find? key = some (.stored space (.ledger l)))
      (hRun : Ledger.addToken mint l = .ok () l')
      (hValid : l'.isValid = true)
      (hSigned : signed l.authority) :
      Change signed (fun _ => 0) s
        (s.insert key (.stored space (.ledger l')))
  | gaugeSet
      {s : Store}
      {key : Address}
      {space : Nat}
      {g g' : Gauge Address}
      (hGauge :
        s.find? key = some (.stored space (.gauge g))) :
      Change signed (fun _ => 0) s
        (s.insert key (.stored space (.gauge g')))
  | forwarderSet
      {s : Store}
      {key : Address}
      {space : Nat}
      {f f' : Forwarder Address}
      (hForwarder :
        s.find? key = some (.stored space (.forwarder f))) :
      Change signed (fun _ => 0) s
        (s.insert key (.stored space (.forwarder f')))
  | activated
      {s : Store}
      {key ledgerKey poolId : Address}
      {space ledgerSpace : Nat}
      {m m' : Manager Address}
      {l l' : Ledger Address}
      (hManager :
        s.find? key = some (.stored space (.manager m)))
      (hLedger :
        s.find? ledgerKey =
          some (.stored ledgerSpace (.ledger l)))
      (hCustodian : ledgerKey = m.custodian)
      (hRun :
        Manager.activate key poolId (m, l) =
          .ok () (m', l')) :
      Change signed (fun _ => 0) s
        ((s.insert key (.stored space (.manager m'))).insert
          ledgerKey (.stored ledgerSpace (.ledger l')))
  | targetsSet
      {s : Store}
      {key caller poolId : Address}
      {space : Nat}
      {targets : Targets}
      {m m' : Manager Address}
      (hManager :
        s.find? key = some (.stored space (.manager m)))
      (hRun :
        Manager.setTargets caller poolId targets m =
          .ok () m')
      (hSigned : signed caller) :
      Change signed (fun _ => 0) s
        (s.insert key (.stored space (.manager m')))
  | operated
      {s t : Store}
      {key : Address}
      {m : Manager Address}
      {flow : Address → Int}
      {p q : Position Address (ShareVault Address)}
      (hRebooked : Rebooked key m p q s t)
      (hOperated : Operated m key flow p q) :
      Change signed flow s t

/- Changes, one after another, and their flow altogether. -/
inductive Changes (signed : Address → Prop) :
    (Address → Int) → Store → Store → Prop where
  | refl
      (s : Store) :
      Changes signed (fun _ => 0) s s
  | head
      {first rest total : Address → Int}
      {s t u : Store}
      (hChange : Change signed first s t)
      (hRest : Changes signed rest t u)
      (hTotal :
        ∀ mint, total mint = first mint + rest mint) :
      Changes signed total s u

variable {signed signed' : Address → Prop}
variable {flow : Address → Int}
variable {s t u : Store}

/- What is opened with some signatures is with more. -/
theorem Opened.mono
    {key : Address}
    {state : State Address}
    (hOpened : Opened signed s key state)
    (hMore : ∀ k, signed k → signed' k) :
    Opened signed' s key state := by
  cases hOpened with
  | ledger hValid => exact .ledger hValid
  | shareVault hValid => exact .shareVault hValid
  | gauge => exact .gauge
  | forwarder => exact .forwarder
  | manager hLedger hVault hDerived hCreate hBind hSigned =>
      exact
        .manager hLedger hVault hDerived hCreate hBind
          (hMore _ hSigned)
  | relayer hLedger hDerived hAuthority hRelayer hSigned =>
      exact
        .relayer hLedger hDerived hAuthority hRelayer
          (hMore _ hSigned)

/- What some signatures change, more do as well. -/
theorem Change.mono
    (hChange : Change signed flow s t)
    (hMore : ∀ k, signed k → signed' k) :
    Change signed' flow s t := by
  cases hChange with
  | opened hFree hOpened =>
      exact .opened hFree (hOpened.mono hMore)
  | tokenAdded hLedger hRun hValid hSigned =>
      exact
        .tokenAdded hLedger hRun hValid (hMore _ hSigned)
  | gaugeSet hGauge => exact .gaugeSet hGauge
  | forwarderSet hForwarder => exact .forwarderSet hForwarder
  | activated hManager hLedger hCustodian hRun =>
      exact .activated hManager hLedger hCustodian hRun
  | targetsSet hManager hRun hSigned =>
      exact .targetsSet hManager hRun (hMore _ hSigned)
  | operated hRebooked hOperated =>
      exact .operated hRebooked hOperated

/- A change keeps a store plain. -/
theorem Change.isPlain
    (hChange : Change signed flow s t)
    (hPlain : s.IsPlain) :
    t.IsPlain := by
  cases hChange with
  | opened => exact hPlain.insert _ _ _
  | tokenAdded => exact hPlain.insert _ _ _
  | gaugeSet => exact hPlain.insert _ _ _
  | forwarderSet => exact hPlain.insert _ _ _
  | activated => exact (hPlain.insert _ _ _).insert _ _ _
  | targetsSet => exact hPlain.insert _ _ _
  | operated hRebooked => exact hRebooked.isPlain hPlain

namespace Changes

variable {first second total : Address → Int}

/- A single change. -/
theorem single
    (hChange : Change signed flow s t) :
    Changes signed flow s t :=
  .head hChange (.refl t) fun _ => (Int.add_zero _).symm

/- What some signatures change, more do as well. -/
theorem mono
    (hChanges : Changes signed flow s t)
    (hMore : ∀ k, signed k → signed' k) :
    Changes signed' flow s t := by
  induction hChanges with
  | refl s => exact .refl s
  | head hChange hRest hSum ih =>
      exact .head (hChange.mono hMore) ih hSum

/- Two sequences of changes in a row. -/
theorem trans
    (hFirst : Changes signed first s t)
    (hSecond : Changes signed second t u)
    (hTotal :
      ∀ mint, total mint = first mint + second mint) :
    Changes signed total s u := by
  induction hFirst generalizing total with
  | refl s =>
      have hEq : total = second := by
        funext mint
        rw [hTotal mint, Int.zero_add]
      exact hEq ▸ hSecond
  | head hChange hRest hSum ih =>
      apply Changes.head hChange
        (ih hSecond fun _ => rfl)
      intro mint
      rw [hTotal mint, hSum mint, Int.add_assoc]

/- Changes keep a store plain. -/
theorem isPlain
    (hChanges : Changes signed flow s t)
    (hPlain : s.IsPlain) :
    t.IsPlain := by
  induction hChanges with
  | refl s => exact hPlain
  | head hChange hRest hSum ih =>
      exact ih (hChange.isPlain hPlain)

end Changes

------------------------------------------------------------
-- Changes Without Flow
------------------------------------------------------------

/- Changes none of which pays anything in or out. -/
inductive Quiet (signed : Address → Prop) :
    Store → Store → Prop where
  | refl
      (s : Store) :
      Quiet signed s s
  | head
      {s t u : Store}
      (hChange : Change signed (fun _ => 0) s t)
      (hRest : Quiet signed t u) :
      Quiet signed s u

namespace Quiet

/- A single change without flow. -/
theorem single
    (hChange : Change signed (fun _ => 0) s t) :
    Quiet signed s t :=
  .head hChange (.refl t)

/- Two sequences of changes without flow in a row. -/
theorem trans
    (hFirst : Quiet signed s t)
    (hSecond : Quiet signed t u) :
    Quiet signed s u := by
  induction hFirst with
  | refl s => exact hSecond
  | head hChange hRest ih =>
      exact .head hChange (ih hSecond)

/- Changes without flow have none altogether. -/
theorem changes
    (hQuiet : Quiet signed s t) :
    Changes signed (fun _ => 0) s t := by
  induction hQuiet with
  | refl s => exact .refl s
  | head hChange hRest ih =>
      exact .head hChange ih fun _ => rfl

end Quiet

end YieldManager

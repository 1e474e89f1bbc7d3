import YieldManager.Program.Execution

/-
  The instructions that open accounts.

  Key definitions include:
    * `Creation.ledger`
    * `Creation.shareVault`
    * `Creation.gauge`
    * `Creation.forwarder`
    * `Creation.manager`
    * `Creation.relayer`
-/

------------------------------------------------------------
-- Ledgers
------------------------------------------------------------

namespace YieldManager

namespace Creation

/- The payer, and the place of an account to be opened. -/
def places : Loader (Meta × Meta) := do
  let authority ← Loader.signer "authority"
  let place ← Loader.place
  Loader.system "system_program"
  return (authority, place)

/- The empty ledger of a pool. -/
def newLedger
    (poolId authority : Address) : Ledger Address where
  poolId := poolId
  authority := authority
  relayer := .ofRelayer poolId
  entries := []
  bump := Address.bump

/- Open the ledger of a pool. -/
def ledger
    (poolId : Address)
    (store : Store)
    (metas : List Meta) : Except Fault Effect := do
  let (authority, place) ← places.load store metas
  let opening ← Opening.begin store authority place
    "pool_ledger" .ledger [poolId]
  authority.expectWritable "authority"
  let book := newLedger poolId authority.key
  Fault.ofRule do
    require (poolId ≠ 0) .emptyPoolId
    require (book.isValid = true) .invalidLedgerConfig
  return { writes := [← opening.write book]
           receipt :=
             { answer := .nothing
               log := [.ledgerCreated book.relayer]
               events := [] } }

------------------------------------------------------------
-- Vaults and Gauges
------------------------------------------------------------

/- The payer, a mint, and the place of a vault over it. -/
def vaultPlaces : Loader (Meta × Address × Meta) := do
  let authority ← Loader.signer "authority"
  let asset ← Loader.mint "asset_mint"
  let place ← Loader.place
  Loader.system "system_program"
  return (authority, asset, place)

/- The empty vault over a mint. -/
def newShareVault
    (authority asset : Address)
    (feeBps : UInt64) : ShareVault Address where
  asset := asset
  authority := authority
  assets := 0
  supply := 0
  feeBps := feeBps
  fees := 0
  holdings := []
  bump := Address.bump

/- Open a vault over a mint. -/
def shareVault
    (feeBps : UInt64)
    (store : Store)
    (metas : List Meta) : Except Fault Effect := do
  let (authority, asset, place) ←
    vaultPlaces.load store metas
  let opening ← Opening.begin store authority place
    "share_vault" .shareVault [authority.key, asset]
  authority.expectWritable "authority"
  let vault := newShareVault authority.key asset feeBps
  Fault.ofRule do
    require (feeBps ≤ FixedPoint.bpsScale) .invalidFee
    require (vault.isValid = true) .invalidLedgerConfig
  return { writes := [← opening.write vault]
           receipt :=
             { answer := .nothing
               log := [.shareVaultCreated feeBps]
               events := [] } }

/- The payer, a vault, a mint, and the place of a gauge. -/
def gaugePlaces :
    Loader (Meta × Loaded ShareVault × Address × Meta) := do
  let authority ← Loader.signer "authority"
  let vault ← Loader.record ShareVault "share_vault"
  let rewardMint ← Loader.mint "reward_mint"
  let place ← Loader.place
  Loader.system "system_program"
  return (authority, vault, rewardMint, place)

/- The empty gauge of a vault. -/
def newGauge
    (authority vault rewardMint : Address) :
    Gauge Address where
  vault := vault
  rewardMint := rewardMint
  authority := authority
  accruals := []
  bump := Address.bump

/- Open the gauge of a vault. -/
def gauge
    (store : Store)
    (metas : List Meta) : Except Fault Effect := do
  let (authority, vault, rewardMint, place) ←
    gaugePlaces.load store metas
  let opening ← Opening.begin store authority place
    "gauge" .gauge [vault.key]
  authority.expectWritable "authority"
  vault.expect (vault.value.authority = authority.key)
    .invalidDependency
  let gauge := newGauge authority.key vault.key rewardMint
  return { writes := [← opening.write gauge]
           receipt :=
             { answer := .nothing
               log := [.gaugeCreated]
               events := [] } }

/- Open the forwarder of an authority. -/
def forwarder
    (store : Store)
    (metas : List Meta) : Except Fault Effect := do
  let (authority, place) ← places.load store metas
  let opening ← Opening.begin store authority place
    "reward_forwarder" .forwarder [authority.key]
  authority.expectWritable "authority"
  let forwarder : Forwarder Address :=
    { received := [], bump := Address.bump }
  return { writes := [← opening.write forwarder]
           receipt :=
             { answer := .nothing
               log := [.forwarderCreated]
               events := [] } }

------------------------------------------------------------
-- Managers and Relayers
------------------------------------------------------------

/- The payer, ledger, vault, and the place of a manager. -/
def managerPlaces :
    Loader
      (Meta × Loaded Ledger × Loaded ShareVault × Meta) := do
  let authority ← Loader.signer "authority"
  let ledger ← Loader.record Ledger "pool_ledger"
  let vault ← Loader.record ShareVault "share_vault"
  let place ← Loader.place
  Loader.system "system_program"
  return (authority, ledger, vault, place)

/- Open a manager, bound to its pool. -/
def manager
    (terms : Terms Address)
    (store : Store)
    (metas : List Meta) : Except Fault Effect := do
  let (authority, ledger, vault, place) ←
    managerPlaces.load store metas
  let opening ← Opening.begin store authority place
    "asset_manager" .manager [terms.poolId, terms.token]
  authority.expectWritable "authority"
  ledger.expectDerived .ledger [terms.poolId]
  ledger.expect (ledger.value.authority = authority.key)
    .onlyPool
  let unbound ←
    Fault.ofRule (Manager.create terms Address.bump)
  let (_, manager) ← Fault.ofAction
    (Manager.bind authority.key ledger.key ledger.value
      vault.key vault.value)
    unbound
  return { writes := [← opening.write manager]
           receipt :=
             { answer := .nothing
               log := [.managerCreated]
               events :=
                 [.managerCreated place.key manager.poolId
                   manager.token manager.vault] } }

/- The payer, a ledger, and the place of its relayer. -/
def relayerPlaces :
    Loader (Meta × Loaded Ledger × Meta) := do
  let authority ← Loader.signer "authority"
  let ledger ← Loader.record Ledger "pool_ledger"
  let place ← Loader.place
  Loader.system "system_program"
  return (authority, ledger, place)

/- The relayer of a pool, with its lock open. -/
def newRelayer
    (authority poolId ledger : Address) :
    RelayerAccount Address where
  authority := authority
  poolId := poolId
  ledger := ledger
  lock := .idle
  bump := Address.bump

/- Open the relayer of a pool. -/
def relayer
    (poolId : Address)
    (store : Store)
    (metas : List Meta) : Except Fault Effect := do
  let (authority, ledger, place) ←
    relayerPlaces.load store metas
  let opening ← Opening.begin store authority place
    "relayer" .relayer [poolId]
  authority.expectWritable "authority"
  ledger.expectDerived .ledger [poolId]
  ledger.expect (ledger.value.authority = authority.key)
    .onlyPool
  ledger.expect (ledger.value.relayer = place.key)
    .invalidDependency
  let relayer := newRelayer authority.key poolId ledger.key
  return { writes := [← opening.write relayer]
           receipt :=
             { answer := .nothing
               log := [.relayerCreated]
               events := [] } }

end Creation

end YieldManager

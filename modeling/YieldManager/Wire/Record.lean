import YieldManager.Manager.Basic
import YieldManager.Relay.Account
import YieldManager.Reward.Forwarder
import YieldManager.Reward.Gauge
import YieldManager.Vault.Shares
import YieldManager.Wire.Codec

/-
  The byte layouts of the records: their fields one after
  another, in the order of their declaration.  Each layout is
  given for any layout of keys.

  Key definitions include:
    * `Wire.balances`
    * `Wire.tokenAmount`
    * `Wire.targets`
    * `Wire.terms`
    * `Wire.entry`
    * `Wire.joinRequest`
    * `Wire.exitRequest`
    * `Wire.holding`
    * `Wire.accrual`
    * `Wire.lock`
    * `Wire.manager`
    * `Wire.ledger`
    * `Wire.shareVault`
    * `Wire.gauge`
    * `Wire.forwarder`
    * `Wire.relayer`
-/

------------------------------------------------------------
-- Parts of Accounts
------------------------------------------------------------

namespace YieldManager

namespace Wire

open Codec (amount byte)

def balances : Codec Balances :=
  (amount.pair amount).iso
    (fun (cash, managed) =>
      { cash := cash, managed := managed })
    (fun b => (b.cash, b.managed))

def targets : Codec Targets :=
  (amount.pair (amount.pair amount)).iso
    (fun (target, upper, lower) =>
      { target := target, upper := upper, lower := lower })
    (fun t => (t.target, t.upper, t.lower))

def lock : Codec Lock :=
  let toBool : Lock → Bool
    | .idle => false
    | .locked => true
  Codec.bool.iso
    (fun b => if b then .locked else .idle)
    toBool

variable {κ : Type} (key : Codec κ)

def tokenAmount : Codec (TokenAmount κ) :=
  (key.pair amount).iso
    (fun (mint, amount) => { mint := mint, amount := amount })
    (fun t => (t.mint, t.amount))

def terms : Codec (Terms κ) :=
  (key.pair (key.pair (key.pair (key.pair
    (key.pair key.option))))).iso
    (fun (poolId, token, custodian, vault, forwarder,
        gauge) =>
      { poolId := poolId
        token := token
        custodian := custodian
        vault := vault
        forwarder := forwarder
        gauge := gauge })
    (fun t =>
      (t.poolId, t.token, t.custodian, t.vault, t.forwarder,
        t.gauge))

def entry : Codec (Entry κ) :=
  (key.pair (amount.pair (amount.pair key))).iso
    (fun (mint, cash, managed, manager) =>
      { mint := mint
        cash := cash
        managed := managed
        manager := manager })
    (fun e => (e.mint, e.cash, e.managed, e.manager))

def joinRequest : Codec (JoinRequest κ) :=
  (key.list.pair amount.list).iso
    (fun (assets, amounts) =>
      { assets := assets, maxAmounts := amounts })
    (fun r => (r.assets, r.maxAmounts))

def exitRequest : Codec (ExitRequest κ) :=
  (key.list.pair amount.list).iso
    (fun (assets, amounts) =>
      { assets := assets, minAmounts := amounts })
    (fun r => (r.assets, r.minAmounts))

def holding : Codec (Holding κ) :=
  (key.pair amount).iso
    (fun (owner, shares) =>
      { owner := owner, shares := shares })
    (fun h => (h.owner, h.shares))

def accrual : Codec (Accrual κ) :=
  (key.pair amount).iso
    (fun (holder, amount) =>
      { holder := holder, amount := amount })
    (fun a => (a.holder, a.amount))

------------------------------------------------------------
-- Accounts
------------------------------------------------------------

def manager : Codec (Manager κ) :=
  (key.pair (key.pair (key.pair (key.pair (key.pair
    (key.option.pair (key.pair (key.pair (targets.pair
      (Codec.bool.pair byte)))))))))).iso
    (fun (poolId, token, custodian, vault, forwarder, gauge,
        rebalancer, authority, targets, live, bump) =>
      { poolId := poolId
        token := token
        custodian := custodian
        vault := vault
        forwarder := forwarder
        gauge := gauge
        rebalancer := rebalancer
        authority := authority
        targets := targets
        live := live
        bump := bump })
    (fun m =>
      (m.poolId, m.token, m.custodian, m.vault, m.forwarder,
        m.gauge, m.rebalancer, m.authority, m.targets, m.live,
        m.bump))

def ledger : Codec (Ledger κ) :=
  (key.pair (key.pair (key.pair
    ((entry key).list.pair byte)))).iso
    (fun (poolId, authority, relayer, entries, bump) =>
      { poolId := poolId
        authority := authority
        relayer := relayer
        entries := entries
        bump := bump })
    (fun l =>
      (l.poolId, l.authority, l.relayer, l.entries, l.bump))

def shareVault : Codec (ShareVault κ) :=
  (key.pair (key.pair (amount.pair (amount.pair (amount.pair
    (amount.pair ((holding key).list.pair byte))))))).iso
    (fun (asset, authority, assets, supply, feeBps, fees,
        holdings, bump) =>
      { asset := asset
        authority := authority
        assets := assets
        supply := supply
        feeBps := feeBps
        fees := fees
        holdings := holdings
        bump := bump })
    (fun v =>
      (v.asset, v.authority, v.assets, v.supply, v.feeBps,
        v.fees, v.holdings, v.bump))

def gauge : Codec (Gauge κ) :=
  (key.pair (key.pair (key.pair
    ((accrual key).list.pair byte)))).iso
    (fun (vault, rewardMint, authority, accruals, bump) =>
      { vault := vault
        rewardMint := rewardMint
        authority := authority
        accruals := accruals
        bump := bump })
    (fun g =>
      (g.vault, g.rewardMint, g.authority, g.accruals, g.bump))

def forwarder : Codec (Forwarder κ) :=
  ((tokenAmount key).list.pair byte).iso
    (fun (received, bump) =>
      { received := received, bump := bump })
    (fun f => (f.received, f.bump))

def relayer : Codec (RelayerAccount κ) :=
  (key.pair (key.pair (key.pair (lock.pair byte)))).iso
    (fun (authority, poolId, ledger, lock, bump) =>
      { authority := authority
        poolId := poolId
        ledger := ledger
        lock := lock
        bump := bump })
    (fun r =>
      (r.authority, r.poolId, r.ledger, r.lock, r.bump))

end Wire

end YieldManager

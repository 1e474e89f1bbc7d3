import YieldManager.Vault.Faulty
import YieldManager.Relay.Reentrant
import YieldManager.Text.Base58
import YieldManager.Program.Notation
import YieldManager.Program.Run
import YieldManager.Proofs.Relay.CashExit
import YieldManager.Proofs.Relay.Allocation
import YieldManager.Proofs.Relay.Reentrancy
import YieldManager.Proofs.Manager.Reports
import YieldManager.Proofs.Vault.Solvency
import YieldManager.Proofs.Ledger.Postings
import YieldManager.Proofs.Reward.Conservation
import YieldManager.Proofs.Program.Totals
import YieldManager.Proofs.Program.Coherence
import YieldManager.Proofs.Program.Authority
import YieldManager.Proofs.Manager.TopUp
import YieldManager.Proofs.Program.Events
import YieldManager.Proofs.Manager.Refusals
import YieldManager.Proofs.Ledger.Settlement
import YieldManager.Proofs.Manager.Forecast
import YieldManager.Proofs.Reward.Forwarding
import YieldManager.Proofs.Unguarded
import YieldManager.Proofs.Occupancy
import YieldManager.Proofs.Program.Capacity
import YieldManager.Proofs.Program.Fitting
import YieldManager.Proofs.Rounding
import YieldManager.Proofs.Ledger.Validity

import ContractMeter.Main
import ContractMeter.Service
import ContractMeter.Session
import ContractMeter.Proofs.Erasure
import ContractMeter.Proofs.Price
import ContractMeter.Proofs.Execution
import ContractMeter.Proofs.Prepayment
import ContractMeter.Proofs.Replay
import ContractMeter.Proofs.Position
import ContractMeter.Proofs.Grammar
import ContractMeter.Proofs.Coverage
import ContractMeter.Proofs.StrictMode
import ContractMeter.Proofs.FirstWarning
import ContractMeter.Proofs.Renaming
import ContractMeter.Proofs.Conservation
import ContractMeter.Proofs.Steady
import ContractMeter.Proofs.Commutation
import ContractMeter.Proofs.Authorship
import ContractMeter.Proofs.Collection
import ContractMeter.Proofs.Bookkeeping
import ContractMeter.Proofs.Tally
import ContractMeter.Proofs.PriceFault
import ContractMeter.Proofs.Verdict
import ContractMeter.Proofs.Injectivity
import ContractMeter.Proofs.HostAccess
import ContractMeter.Proofs.WriteTarget
import ContractMeter.Proofs.Shielding
import ContractMeter.Proofs.SharedLedger
import ContractMeter.Proofs.Headroom
import ContractMeter.Proofs.Unlocated
import ContractMeter.Proofs.Endpoint
import ContractMeter.Proofs.Height
import ContractMeter.Proofs.Composition
import ContractMeter.Proofs.Repetition
import ContractMeter.Proofs.Reordering
import ContractMeter.Proofs.Storage
import ContractMeter.Proofs.Readback
import ContractMeter.Proofs.DumpText
import ContractMeter.Proofs.DumpFault

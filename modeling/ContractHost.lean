import ContractHost.Config.Text
import ContractHost.Dispatch
import ContractHost.Ledger.Layers
import ContractHost.Ledger.Recorder
import ContractHost.Proofs.Fallible
import ContractHost.Proofs.Ledger.Slots
import ContractHost.Proofs.Store.Codec
import ContractHost.Proofs.Store.Contents
import ContractHost.Proofs.Store.Isolation
import ContractHost.Proofs.Execution.Dispatch
import ContractHost.Proofs.Execution.Requests
import ContractHost.Proofs.Store.Prices
import ContractHost.Proofs.Execution.Steps
import ContractHost.Proofs.Gas.Accounting
import ContractHost.Proofs.Gas.Limits
import ContractHost.Proofs.Execution.Frames
import ContractHost.Proofs.Execution.Lockstep
import ContractHost.Proofs.Execution.Independence
import ContractHost.Proofs.Ledger.Apply
import ContractHost.Proofs.Ledger.Overlay
import ContractHost.Proofs.Ledger.Workload
import ContractHost.Proofs.Ledger.Transfers
import ContractHost.Proofs.Ledger.Writes
import ContractHost.Proofs.Lockstep
import ContractHost.Proofs.Store.Lockstep
import ContractHost.Proofs.Store.Namespaces
import ContractHost.Proofs.Execution.Actors
import ContractHost.Proofs.Execution.Callers
import ContractHost.Proofs.Execution.Namespaces
import ContractHost.Proofs.Execution.Nesting
import ContractHost.Proofs.Store.Exactness
import ContractHost.Proofs.Execution.Events
import ContractHost.Proofs.Store.Needs
import ContractHost.Proofs.Gas.Unmetered
import ContractHost.Proofs.Registry
import ContractHost.Proofs.Ledger.Supply
import ContractHost.Proofs.Execution.Precedence
import ContractHost.Proofs.Store.Overwriting
import ContractHost.Proofs.Store.Deletion
import ContractHost.Proofs.Store.Accesses
import ContractHost.Proofs.Store.Canonical
import ContractHost.Proofs.Store.Reading
import ContractHost.Proofs.Store.Termination
import ContractHost.Proofs.Store.Opening
import ContractHost.Proofs.Ledger.Faults
import ContractHost.Proofs.Store.Faults
import ContractHost.Proofs.Gas.Machine
import ContractHost.Proofs.Word
import ContractHost.Proofs.Store.Words
import ContractHost.Proofs.Gas.Clamping
import ContractHost.Proofs.Hexadecimal
import ContractHost.Proofs.Decimal
import ContractHost.Proofs.Json.Text
import ContractHost.Proofs.Config

import DmaController.Word
import DmaController.Register
import DmaController.TransferId
import DmaController.DoneBits
import DmaController.Description
import DmaController.Config
import DmaController.Failure
import DmaController.Interrupt
import DmaController.LogEntry
import DmaController.Journal
import DmaController.Bus
import DmaController.RegisterBlock
import DmaController.RegisterFile
import DmaController.Memory
import DmaController.Pool
import DmaController.Driver.Basic
import DmaController.Driver.Start
import DmaController.Driver.Submit
import DmaController.Driver.Receive
import DmaController.Driver.Collect
import DmaController.Sim.Core
import DmaController.Sim.Bench
import DmaController.Cell
import DmaController.Signal
import DmaController.Shared
import DmaController.Proofs.Leads
import DmaController.Proofs.Operations
import DmaController.Proofs.Hardware
import DmaController.Proofs.Session
import DmaController.Proofs.Soundness
import DmaController.Proofs.Changes
import DmaController.Proofs.Custody
import DmaController.Proofs.Ownership
import DmaController.Proofs.Delivery
import DmaController.Proofs.Execution
import DmaController.Proofs.Quiescence
import DmaController.Proofs.Flight
import DmaController.Proofs.Sequence
import DmaController.Proofs.Entries
import DmaController.Proofs.Refusal
import DmaController.Proofs.Turnover
import DmaController.Proofs.Chronicle
import DmaController.Proofs.Harvest
import DmaController.Proofs.Order
import DmaController.Proofs.Halt
import DmaController.Proofs.Stream
import DmaController.Proofs.Lossless
import DmaController.Proofs.Ledger
import DmaController.Proofs.Conservation
import DmaController.Proofs.Tasks
import DmaController.Proofs.Replay
import DmaController.Proofs.Representation
import DmaController.Proofs.Interleaving
import DmaController.Proofs.Waiting
import DmaController.Proofs.Signalled
import DmaController.Proofs.Takeback
import DmaController.Proofs.Addresses
import DmaController.Proofs.Payload
import DmaController.Proofs.Pages
import DmaController.Proofs.Permanence
import DmaController.Proofs.Retention
import DmaController.Proofs.Framing
import DmaController.Proofs.Tenancy
import DmaController.Proofs.Settlement
import DmaController.Proofs.Dispatch
import DmaController.Proofs.Patience
import DmaController.Proofs.Staleness
import DmaController.Proofs.Overdue
import DmaController.Proofs.Rounds
import DmaController.Proofs.Acceptance
import DmaController.Proofs.Priming
import DmaController.Proofs.Admission
import DmaController.Proofs.Bookkeeping

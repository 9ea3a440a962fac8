import DmaController.LogEntry

/-!
The journal of a driver: every access it makes and everything it does with its slots, in order.
The other records (bus accesses, log, deliveries, delays) are views of the journal.
-/
namespace DmaController

/-- A transfer as it is programmed into the hardware. -/
structure Transfer where
  direction : Direction
  id : TransferId
  length : Nat
  address : Word
  deriving DecidableEq, Repr

inductive Action
  | read (offset : Offset) (value : Word)
  | write (offset : Offset) (value : Word)
  | log (entry : LogEntry)
  /-- A buffer of this many bytes was given out to be filled. -/
  | offered (capacity : Nat)
  /-- A slot was handed to the hardware. -/
  | submitted (transfer : Transfer)
  /-- A completed transfer's bytes were passed on, and its slot was taken back. -/
  | delivered (id : TransferId) (data : Bytes)
  /-- A completed transfer's slot was taken back without passing its bytes on. -/
  | reclaimed (id : TransferId)
  /-- Every slot was taken back at once; so many were in flight. -/
  | released (count : Nat)
  | delayed (microseconds : Nat)
  deriving DecidableEq, Repr

abbrev Journal := Array Action

/-- One access on the register bus. -/
inductive Access
  | read (offset : Offset) (value : Word)
  | write (offset : Offset) (value : Word)
  deriving DecidableEq, Repr

namespace Action

def access? : Action → Option Access
  | read offset value => some (.read offset value)
  | write offset value => some (.write offset value)
  | _ => none

def entry? : Action → Option LogEntry
  | log entry => some entry
  | _ => none

def offer? : Action → Option Nat
  | offered capacity => some capacity
  | _ => none

def submission? : Action → Option Transfer
  | submitted transfer => some transfer
  | _ => none

def delivery? : Action → Option (TransferId × Bytes)
  | delivered id data => some (id, data)
  | _ => none

def delay? : Action → Option Nat
  | delayed microseconds => some microseconds
  | _ => none

end Action

namespace Journal

def accesses (journal : Journal) : List Access := journal.toList.filterMap Action.access?

def entries (journal : Journal) : List LogEntry := journal.toList.filterMap Action.entry?

def offers (journal : Journal) : List Nat := journal.toList.filterMap Action.offer?

def submissions (journal : Journal) : List Transfer := journal.toList.filterMap Action.submission?

def deliveries (journal : Journal) : List (TransferId × Bytes) :=
  journal.toList.filterMap Action.delivery?

def delays (journal : Journal) : List Nat := journal.toList.filterMap Action.delay?

end Journal
end DmaController

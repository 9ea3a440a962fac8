import DmaController.Config
import DmaController.Description
import DmaController.Failure
import DmaController.TransferId

/-!
What a driver has to say while it works. An entry is kept as data; its level and its wording are
read off it in one place each.
-/
namespace DmaController

inductive Level
  | trace
  | debug
  | info
  | warn
  | error
  deriving DecidableEq, Repr

namespace Level

def name : Level → String
  | trace => "trace"
  | debug => "debug"
  | info => "info"
  | warn => "warn"
  | error => "error"

end Level

/-- Which way a transfer moves data. -/
inductive Direction
  | inbound
  | outbound
  deriving DecidableEq, Repr

inductive LogEntry
  | wrongIdentification (found : Word)
  | identified (version : Version) (peripheralId : Word)
  | interfaceFound (interface : Interface)
  | interfaceMissing (version : Version)
  | cannotFillMemory
  | cannotEmptyMemory
  | zeroCapacity
  | limitedToPage (requested : Nat)
  | limitedToBuffer (size requested : Nat)
  | invalidTransferId (raw : Word)
  | queued (direction : Direction) (id : TransferId) (bytes : Nat)
  | timedOut (id : TransferId)
  | refillStopped (cause : TransferError)
  | collected (drained refilled : Nat)
  | streamStarted (count bytes : Nat)
  deriving DecidableEq, Repr

namespace LogEntry

def level : LogEntry → Level
  | wrongIdentification _ | cannotFillMemory | cannotEmptyMemory | zeroCapacity => .error
  | invalidTransferId _ => .error
  | identified .. | streamStarted .. => .info
  | interfaceFound _ | collected .. => .debug
  | interfaceMissing _ | limitedToPage _ | limitedToBuffer .. => .warn
  | timedOut _ | refillStopped _ => .warn
  | queued .. => .trace

def text : LogEntry → String
  | wrongIdentification word => "DMAC identification failed: " ++ word.hex
  | identified version peripheralId =>
    s!"AXI DMAC {version.text} (peripheral id {peripheralId.toNat})"
  | interfaceFound ⟨destination, source⟩ =>
    s!"DMAC interface: dst {destination.kind.name} ({destination.beatLog}), " ++
      s!"src {source.kind.name} ({source.beatLog})"
  | interfaceMissing version =>
    s!"DMAC {version.major}.{version.minor} has no interface register, " ++
      "assuming read and write support"
  | cannotFillMemory => "DMAC cannot transfer into memory"
  | cannotEmptyMemory => "DMAC cannot transfer out of memory"
  | zeroCapacity => "DMAC buffer capacity is zero"
  | limitedToPage requested =>
    s!"limiting DMA buffer size to {transferLimit} bytes, " ++
      s!"{requested} likely exceeds the 4 KiB boundary"
  | limitedToBuffer size requested =>
    s!"limiting DMA buffer size to the {size} byte pool buffers ({requested} requested)"
  | invalidTransferId raw => s!"DMAC reported invalid next transfer id {raw.toNat}"
  | queued .inbound id bytes => s!"read transfer {id.val} queued ({bytes} bytes)"
  | queued .outbound id bytes => s!"write transfer {id.val} queued ({bytes} bytes)"
  | timedOut id => s!"read transfer {id.val} timed out"
  | refillStopped cause => "read refill stopped: " ++ cause.name
  | collected drained refilled => s!"harvested {drained} transfers, requeued {refilled}"
  | streamStarted count bytes => s!"read pipeline started: {count} x {bytes} bytes"

end LogEntry
end DmaController

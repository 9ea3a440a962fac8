import DmaController.Bus

/-!
The registers by name. The enable and pause bits are changed by reading the control register and
writing it back, so its other bits keep their values.
-/
namespace DmaController.RegisterBlock

variable {ω : Type} [RegisterBus ω]

def version : BusM ω Word := BusM.read Register.version

def peripheralId : BusM ω Word := BusM.read Register.peripheralId

def identification : BusM ω Word := BusM.read Register.identification

def interface : BusM ω Word := BusM.read Register.interface

def irqMask : BusM ω Word := BusM.read Register.irqMask

def setIrqMask (mask : Word) : BusM ω Unit := BusM.write Register.irqMask mask

def irqStatus : BusM ω Word := BusM.read Register.irqStatus

/-- Clears the status bits that are set in `bits`. -/
def clearIrqStatus (bits : Word) : BusM ω Unit := BusM.write Register.irqStatus bits

def control : BusM ω Word := BusM.read Register.control

def setControl (value : Word) : BusM ω Unit := BusM.write Register.control value

def flags : BusM ω Word := BusM.read Register.flags

def setFlags (value : Word) : BusM ω Unit := BusM.write Register.flags value

def destination : BusM ω Word := BusM.read Register.destination

def setDestination (address : Word) : BusM ω Unit := BusM.write Register.destination address

def source : BusM ω Word := BusM.read Register.source

def setSource (address : Word) : BusM ω Unit := BusM.write Register.source address

def length : BusM ω Word := BusM.read Register.length

def setLength (value : Word) : BusM ω Unit := BusM.write Register.length value

/-- Programs a length of so many bytes; the register holds one less. -/
def setByteCount (bytes : Nat) : BusM ω Unit := setLength (BitVec.ofNat 32 bytes - 1)

def done : BusM ω Word := BusM.read Register.done

/-- Sets bits of a register and keeps the others. -/
def setBits (offset : Offset) (bits : Word) : BusM ω Unit := do
  BusM.write offset ((← BusM.read offset) ||| bits)

/-- Clears bits of a register and keeps the others. -/
def clearBits (offset : Offset) (bits : Word) : BusM ω Unit := do
  BusM.write offset ((← BusM.read offset) &&& ~~~ bits)

def testBits (offset : Offset) (bits : Word) : BusM ω Bool :=
  return (← BusM.read offset).hasAny bits

def enable : BusM ω Unit := setBits Register.control Control.enable

def disable : BusM ω Unit := clearBits Register.control Control.enable

def pause : BusM ω Unit := setBits Register.control Control.pause

def resume : BusM ω Unit := clearBits Register.control Control.pause

def isEnabled : BusM ω Bool := testBits Register.control Control.enable

def isPaused : BusM ω Bool := testBits Register.control Control.pause

/-- A submission has been queued and not been accepted yet. -/
def submitPending : BusM ω Bool := testBits Register.submit submitBit

/-- The id the hardware will give to the next transfer it accepts. -/
def nextId : BusM ω Word := return (← BusM.read Register.transferId) &&& transferIdField

/-- Queues the transfer that the other registers describe. -/
def queue : BusM ω Unit := BusM.write Register.submit submitBit

/-- Bytes moved so far by the active transfer. -/
def progress : BusM ω Word := return (← BusM.read Register.progress) &&& progressField

end DmaController.RegisterBlock

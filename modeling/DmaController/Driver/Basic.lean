import DmaController.Description
import DmaController.DoneBits
import DmaController.Interrupt
import DmaController.Memory
import DmaController.Pool
import DmaController.RegisterBlock

/-!
A driver and its plain operations: what it answers about itself, the control of the core, and the
look at the done bits that the transfer engine and the collection of completions share.
-/
namespace DmaController

/-- The state of a driver for a pool of `slots` slots of `size` bytes. -/
structure Driver (slots size : Nat) where
  pool : Pool slots size
  config : Config
  version : Version
  peripheralId : Word
  directions : Directions
  /-- The id at which the next collection starts. -/
  cursor : TransferId := .first
  /-- Bytes of each transfer of the inbound stream, while it runs. -/
  stream : Option Nat := none
  /-- The newest submission. Until the hardware accepts it, its done bit is an old one. -/
  newest : Option TransferId := none
  deriving DecidableEq, Repr

/-- Programs of a driver whose device is a `σ`. -/
abbrev DriverM (σ : Type) (slots size : Nat) :=
  StateT (Driver slots size) (BusM (World σ slots size))

namespace Driver

variable {σ : Type} {slots size : Nat}

def capacity (driver : Driver slots size) : Nat := driver.pool.capacity

def inFlight (driver : Driver slots size) : Nat := driver.pool.inFlight

/-- The device address of the slot of `id`. -/
def address [HasSlots slots] (driver : Driver slots size) (id : TransferId) : Word :=
  driver.pool.deviceAddress driver.config.busOffset (Pool.index slots id)

/-- Runs a program of the bus for the driver. -/
def onBus {α : Type} (program : BusM (World σ slots size) α) : DriverM σ slots size α :=
  StateT.lift program

variable [RegisterBus (World σ slots size)]

def log (entry : LogEntry) : DriverM σ slots size Unit := onBus (BusM.log entry)

def record (action : Action) : DriverM σ slots size Unit := onBus (BusM.record action)

def enable : DriverM σ slots size Unit := onBus RegisterBlock.enable

/-- Aborts every outstanding transfer and leaves the pool alone; `reset` or `startStream` has to
come before the next submission. -/
def disable : DriverM σ slots size Unit := onBus RegisterBlock.disable

def pause : DriverM σ slots size Unit := onBus RegisterBlock.pause

def resume : DriverM σ slots size Unit := onBus RegisterBlock.resume

def isEnabled : DriverM σ slots size Bool := onBus RegisterBlock.isEnabled

def isPaused : DriverM σ slots size Bool := onBus RegisterBlock.isPaused

def progress : DriverM σ slots size Word := onBus RegisterBlock.progress

def irqFlags : DriverM σ slots size IrqFlags := return .ofWord (← onBus RegisterBlock.irqStatus)

def doneBits : DriverM σ slots size DoneBits := return ⟨← onBus RegisterBlock.done⟩

/-- The submission that the hardware has not accepted yet. -/
def pendingSubmission : DriverM σ slots size (Option TransferId) := do
  if ← onBus RegisterBlock.submitPending then return (← get).newest else return none

/-- The done bits without the bit of a submission that is still pending. The submit bit is read
first: once it reads clear, a later snapshot no longer shows that id's old bit. -/
def settledDone : DriverM σ slots size DoneBits := do
  let pending ← pendingSubmission
  let done ← doneBits
  match pending with
  | some id => return done.without id
  | none => return done

/-- Unmasks the completion interrupt; pending status is cleared first, so that no old event
fires. -/
def enableIrq : DriverM σ slots size Unit := do
  onBus (RegisterBlock.clearIrqStatus Irq.all)
  onBus (RegisterBlock.setIrqMask Irq.queued)

/-- Masks every interrupt. -/
def disableIrq : DriverM σ slots size Unit := onBus (RegisterBlock.setIrqMask Irq.all)

/-- Clears the completion flag, and says whether it was set. -/
def claimCompletion : DriverM σ slots size Bool := do
  if (← irqFlags).completed then
    onBus (RegisterBlock.clearIrqStatus IrqFlags.completion.toWord)
    return true
  else return false

/-- Disables and enables the core, which aborts every transfer of an enabled core, and takes every
slot back. -/
def restart : DriverM σ slots size Unit := do
  disable
  enable
  record (.released (← get).inFlight)
  modify fun driver =>
    { driver with pool := driver.pool.releaseAll, cursor := .first, newest := none }

/-- Aborts every transfer, takes every slot back and ends the stream; the core is left enabled. -/
def reset : DriverM σ slots size Unit := do
  restart
  modify fun driver => { driver with stream := none }

/-- What a driver does when it is given up: it masks the interrupts and disables the core. -/
def close : DriverM σ slots size Unit := do
  disableIrq
  disable

end Driver
end DmaController

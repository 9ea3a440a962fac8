import DmaController.RegisterFile

/-!
The transfer engine of a simulated core: its registers and what becomes of transfers. Acceptance
gives the pending submission the next id, clears that id's done bit and reads its length and
addresses at that moment. Clearing the enable bit aborts everything that is queued. The engine keeps
a history of what happened to it, in which the actions of its driver stand where they were taken.
-/
namespace DmaController.Sim

/-- A transfer that the core accepted. -/
structure Accepted where
  id : Nat
  length : Nat
  source : Word
  destination : Word
  deriving DecidableEq, Repr

/-- Something that happened to a core, or that its driver did. -/
inductive Event
  | accepted (transfer : Accepted)
  | completed (id : Nat)
  /-- Everything queued and outstanding was given up. -/
  | aborted
  /-- A register was written, while a submission was pending or not. -/
  | written (offset : Offset) (value : Word) (pending : Bool)
  | noted (action : Action)
  deriving DecidableEq, Repr

structure Engine where
  registers : RegisterFile
  nextId : Word := 0
  submitPending : Bool := false
  done : Word := 0
  irqStatus : Word := 0
  /-- The accepted ids that are not completed, oldest first. -/
  outstanding : List Nat := []
  /-- Every accepted transfer, oldest first. -/
  accepted : Array Accepted := #[]
  /-- Everything that happened, newest first. -/
  history : List Event := []
  deriving DecidableEq, Repr

namespace Engine

/-- The id a submission would be accepted under. -/
def acceptId (engine : Engine) : Nat := (engine.nextId &&& transferIdField).toNat

/-- The transfer that the registers describe. -/
def programmed (engine : Engine) : Accepted where
  id := engine.acceptId
  length := (engine.registers.get Register.length).toNat + 1
  source := engine.registers.get Register.source
  destination := engine.registers.get Register.destination

/-- Takes the pending submission over. -/
def takeOver (engine : Engine) : Engine :=
  { engine with
    submitPending := false
    done := engine.done &&& ~~~ BitVec.twoPow 32 engine.acceptId
    nextId := if engine.acceptId ≥ 30 then 0 else BitVec.ofNat 32 (engine.acceptId + 1)
    accepted := engine.accepted.push engine.programmed
    outstanding := engine.outstanding ++ [engine.acceptId]
    history := .accepted engine.programmed :: engine.history }

/-- Marks a transfer done and raises the completion flag. -/
def complete (engine : Engine) (id : Nat) : Engine :=
  { engine with
    outstanding := engine.outstanding.filter (· != id)
    done := engine.done ||| BitVec.twoPow 32 id
    irqStatus := engine.irqStatus ||| Irq.completed
    history := .completed id :: engine.history }

/-- Forgets the pending submission and everything that is outstanding. -/
def abort (engine : Engine) : Engine :=
  { engine with
    outstanding := []
    submitPending := false
    nextId := 0
    done := 0
    history := .aborted :: engine.history }

/-- What a register shows. -/
def peek (engine : Engine) (offset : Offset) : Word :=
  if offset = Register.submit then if engine.submitPending then 1 else 0
  else if offset = Register.transferId then engine.nextId
  else if offset = Register.done then engine.done
  else if offset = Register.irqStatus then engine.irqStatus
  else engine.registers.get offset

def setRegister (engine : Engine) (offset : Offset) (value : Word) : Engine :=
  { engine with registers := engine.registers.set offset value }

/-- The core can move data. -/
def isEnabled (engine : Engine) : Bool :=
  (engine.registers.get Register.control).hasAny Control.enable

/-- What a write of the control register does. -/
def setControl (engine : Engine) (value : Word) : Engine :=
  if engine.isEnabled && !value.hasAny Control.enable then
    engine.abort.setRegister Register.control value
  else engine.setRegister Register.control value

/-- Puts an event into the history. -/
def remember (engine : Engine) (event : Event) : Engine :=
  { engine with history := event :: engine.history }

/-- What a register write does by itself; the submission that it may queue stays pending. -/
def write (engine : Engine) (offset : Offset) (value : Word) : Engine :=
  let engine := engine.remember (.written offset value engine.submitPending)
  if offset = Register.submit then
    { engine with submitPending := engine.submitPending || value.hasAny submitBit }
  else if offset = Register.irqStatus then
    { engine with irqStatus := engine.irqStatus &&& ~~~ value }
  else if offset = Register.transferId ∨ offset = Register.done then engine
  else if offset = Register.control then engine.setControl value
  else engine.setRegister offset value

/-- An engine alone, which takes nothing over by itself. -/
instance : RegisterBus Engine where
  read offset engine := (engine.peek offset, engine)
  write offset value engine := engine.write offset value
  note action engine := engine.remember (.noted action)

end Engine
end DmaController.Sim

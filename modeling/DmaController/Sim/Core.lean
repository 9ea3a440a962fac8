import DmaController.Sim.Engine

/-!
A simulated core: a transfer engine, and when it accepts what it is given. A submission is accepted
at once, after a number of looks at the submit bit, or when told to.
-/
namespace DmaController.Sim

structure Core extends Engine where
  autoAccept : Bool := true
  autoComplete : Bool := false
  /-- Looks at a pending submit bit before it is accepted, if looks have this effect. -/
  acceptAfter : Option Nat := none
  looksLeft : Nat := 0
  /-- Looks that found the submit bit set. -/
  pendingLooks : Nat := 0
  /-- Every register write, oldest first. -/
  writes : Array (Offset × Word) := #[]
  deriving DecidableEq, Repr

namespace Core

/-- A core of version 4.4.97 that moves data in both directions. -/
def fresh : Core where
  registers := .ofList [(Register.identification, signature), (Register.version, 0x00040461),
    (Register.interface, 0x0303)]

def setRegister (core : Core) (offset : Offset) (value : Word) : Core :=
  { core with toEngine := core.toEngine.setRegister offset value }

/-- Marks a transfer done and raises the completion flag. -/
def complete (core : Core) (id : Nat) : Core :=
  { core with toEngine := core.toEngine.complete id }

/-- Completes every outstanding transfer. -/
def completeAll (core : Core) : Core := core.outstanding.foldl complete core

/-- Accepts the pending submission, if there is one. -/
def accept (core : Core) : Core :=
  if core.submitPending then
    let engine := core.toEngine.takeOver
    { core with toEngine := if core.autoComplete then engine.complete core.acceptId else engine }
  else core

/-- The id that `accept` gives out. -/
def acceptedId? (core : Core) : Option Nat :=
  if core.submitPending then some core.acceptId else none

/-- What a look at the submit bit does. -/
def look (core : Core) : Core :=
  if core.submitPending then
    let core := { core with pendingLooks := core.pendingLooks + 1 }
    if core.acceptAfter.isSome then
      if core.looksLeft = 0 then core.accept
      else { core with looksLeft := core.looksLeft - 1 }
    else core
  else core

theorem look_of_clear {core : Core} (h : core.submitPending = false) : core.look = core := by
  rw [look, h]
  rfl

/-- What a register shows. -/
def peek (core : Core) (offset : Offset) : Word := core.toEngine.peek offset

def read (core : Core) (offset : Offset) : Word × Core :=
  let core := if offset = Register.submit then core.look else core
  (core.peek offset, core)

/-- Puts a queued submission on the way to its acceptance. -/
def expedite (core : Core) : Core :=
  let core := { core with looksLeft := core.acceptAfter.getD 0 }
  if core.autoAccept then core.accept else core

def write (core : Core) (offset : Offset) (value : Word) : Core :=
  let core := { core with
    toEngine := core.toEngine.write offset value
    writes := core.writes.push (offset, value) }
  if offset = Register.submit ∧ value.hasAny submitBit then core.expedite else core

/-- Accepts each submission after so many looks that found it pending, and not by itself. -/
def acceptAfterLooks (core : Core) (looks : Nat) : Core :=
  { core with autoAccept := false, acceptAfter := some looks }

/-- Puts an action of the driver into the history. -/
def note (core : Core) (action : Action) : Core :=
  { core with toEngine := core.toEngine.remember (.noted action) }

instance : RegisterBus Core where
  read offset core := core.read offset
  write offset value core := core.write offset value
  note action core := core.note action

end Core
end DmaController.Sim

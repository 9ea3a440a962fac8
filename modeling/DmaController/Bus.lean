import DmaController.Journal

/-!
The register bus. A bus is any world whose registers can be read and written; reading may change
the world, and nothing is promised about the value read. Programs over a bus keep a journal, and a
world may take note of what they do between their accesses.
-/
namespace DmaController

class RegisterBus (ω : Type) where
  read : Offset → ω → Word × ω
  write : Offset → Word → ω → ω
  /-- What the world makes of an action that is no access; most worlds do not notice it. -/
  note : Action → ω → ω := fun _ world => world

/-- A world, and the journal of what has been done to it. -/
structure Port (ω : Type) where
  world : ω
  journal : Journal := #[]

/-- Programs that act on a world and keep the journal. -/
abbrev BusM (ω : Type) := StateM (Port ω)

namespace BusM

variable {ω : Type}

/-- Lets something happen in the world that is no access of the driver. -/
def alter (change : ω → ω) : BusM ω Unit :=
  modify fun port => { port with world := change port.world }

def world : BusM ω ω := return (← get).world

theorem alter_run (change : ω → ω) (port : Port ω) :
    (alter change).run port = ((), { port with world := change port.world }) := rfl

/-- Puts an action into the journal. -/
def enter (action : Action) : BusM ω Unit :=
  modify fun port => { port with journal := port.journal.push action }

variable [RegisterBus ω]

/-- Puts an action that is no access into the journal, and lets the world know. -/
def record (action : Action) : BusM ω Unit := do
  alter (RegisterBus.note action)
  enter action

def log (entry : LogEntry) : BusM ω Unit := record (.log entry)

def read (offset : Offset) : BusM ω Word := do
  let (value, world) := RegisterBus.read offset (← world)
  alter fun _ => world
  enter (.read offset value)
  return value

def write (offset : Offset) (value : Word) : BusM ω Unit := do
  alter (RegisterBus.write offset value)
  enter (.write offset value)

theorem record_run (action : Action) (port : Port ω) :
    (record action).run port =
      ((), { world := RegisterBus.note action port.world,
             journal := port.journal.push action }) := rfl

theorem read_run (offset : Offset) (port : Port ω) :
    (read offset).run port =
      ((RegisterBus.read offset port.world).1,
        { world := (RegisterBus.read offset port.world).2,
          journal := port.journal.push (.read offset (RegisterBus.read offset port.world).1) }) :=
  rfl

theorem write_run (offset : Offset) (value : Word) (port : Port ω) :
    (write offset value).run port =
      ((), { world := RegisterBus.write offset value port.world,
             journal := port.journal.push (.write offset value) }) := rfl

end BusM
end DmaController

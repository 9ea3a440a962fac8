import DmaController.Interrupt
import DmaController.Memory
import DmaController.Sim.Core

/-!
A bench for drivers: a simulated core, an interrupt line, and a script of stimuli that reach the
hardware at chosen points of a driver's work. A stimulus may come before any register access, while
a buffer is filled or consumed, and during a pause.
-/
namespace DmaController.Sim

inductive Line
  | unconnected
  | counting (acknowledged : Nat) (sink : Option Word)
  deriving DecidableEq, Repr

namespace Line

def acknowledge : Line → Line
  | unconnected => unconnected
  | counting acknowledged sink => counting (acknowledged + 1) sink

def registerSink (sink : Word) : Line → Line
  | unconnected => unconnected
  | counting acknowledged _ => counting acknowledged (some sink)

def acknowledged : Line → Nat
  | unconnected => 0
  | counting acknowledged _ => acknowledged

def sink : Line → Option Word
  | unconnected => none
  | counting _ sink => sink

end Line

/-- Something that happens to the hardware. -/
inductive Stimulus
  | setRegister (offset : Offset) (value : Word)
  | read (offset : Offset)
  | write (offset : Offset) (value : Word)
  | autoAccept (on : Bool)
  | autoComplete (on : Bool)
  | submitPending (on : Bool)
  | acceptAfter (looks : Nat)
  | accept
  | nextId (raw : Word)
  | complete (id : Nat)
  /-- Completes a transfer, if it is outstanding. -/
  | finish (id : Nat)
  | completeAll
  | clearWrites
  /-- The device stores bytes into a buffer. -/
  | store (slot start : Nat) (data : Bytes)
  deriving DecidableEq, Repr

namespace Stimulus

/-- What a stimulus does to the core. -/
def onCore (core : Core) : Stimulus → Core
  | setRegister offset value => core.setRegister offset value
  | read offset => (core.read offset).2
  | write offset value => core.write offset value
  | autoAccept on => { core with autoAccept := on }
  | autoComplete on => { core with autoComplete := on }
  | submitPending on => { core with submitPending := on }
  | acceptAfter looks => core.acceptAfterLooks looks
  | accept => core.accept
  | nextId raw => { core with nextId := raw }
  | complete id => core.complete id
  | finish id => if id ∈ core.outstanding then core.complete id else core
  | completeAll => core.completeAll
  | clearWrites => { core with writes := #[] }
  | store .. => core

/-- What a stimulus does to the buffers; a store to no slot is lost. -/
def onMemory {slots size : Nat} (memory : Memory slots size) : Stimulus → Memory slots size
  | store slot start data =>
    if h : slot < slots then memory.store ⟨slot, h⟩ start data else memory
  | _ => memory

end Stimulus

/-- A kind of point in a driver's work. -/
inductive Occasion
  | read (offset : Offset)
  | write (offset : Offset)
  | fill
  | consume
  | pause
  deriving DecidableEq, Repr

/-- The stimuli that come at an occasion when it is met for the nth time, counted from one. -/
abbrev Script := Occasion → Nat → List Stimulus

structure Bench where
  core : Core := .fresh
  line : Line := .counting 0 none
  script : Script := fun _ _ => []
  /-- How often each occasion was met. -/
  met : List (Occasion × Nat) := []

namespace Bench

def timesMet (bench : Bench) (occasion : Occasion) : Nat := (bench.met.lookup occasion).getD 0

def meet (bench : Bench) (occasion : Occasion) : Bench :=
  { bench with
    met := (occasion, bench.timesMet occasion + 1) :: bench.met.filter (·.1 != occasion) }

/-- Starts a script from its beginning. -/
def follow (bench : Bench) (script : Script) : Bench := { bench with script, met := [] }

end Bench

variable {slots size : Nat}

/-- Lets a stimulus reach the hardware. -/
def stimulate (world : World Bench slots size) (stimulus : Stimulus) : World Bench slots size where
  device := { world.device with core := stimulus.onCore world.device.core }
  memory := stimulus.onMemory world.memory

/-- Lets the script have its way at an occasion. -/
def occur (occasion : Occasion) (world : World Bench slots size) : World Bench slots size :=
  let world := { world with device := world.device.meet occasion }
  (world.device.script occasion (world.device.timesMet occasion)).foldl stimulate world

instance : RegisterBus (World Bench slots size) where
  read offset world :=
    let world := occur (.read offset) world
    let (value, core) := world.device.core.read offset
    (value, { world with device := { world.device with core } })
  write offset value world :=
    let world := occur (.write offset) world
    { world with device := { world.device with core := world.device.core.write offset value } }
  note action world :=
    { world with device := { world.device with core := world.device.core.note action } }

instance : InterruptLine (World Bench slots size) where
  acknowledge world :=
    { world with device := { world.device with line := world.device.line.acknowledge } }
  registerSink sink world :=
    { world with device := { world.device with line := world.device.line.registerSink sink } }

/-- A consumer that leaves the hardware to its script. -/
def consume (_ : Bytes) (world : World Bench slots size) : World Bench slots size :=
  occur .consume world

/-- A pause that leaves the hardware to its script. -/
def pause (_ : Nat) (world : World Bench slots size) : World Bench slots size := occur .pause world

end DmaController.Sim

import DmaController.Cell
import DmaController.Driver.Collect
import DmaController.Signal

/-!
A driver that tasks and the interrupt routine share. It is installed after it has been started, and
only one of them works with it at a time.
-/
namespace DmaController

structure Shared (slots size : Nat) where
  cell : Cell (Option (Driver slots size)) := .idle none
  signal : Signal := {}
  deriving DecidableEq, Repr

/-- What the interrupt routine of a shared driver did. -/
structure Service where
  /-- The number of transfers collected, if the interrupt was a completion. -/
  collected : Option Nat
  /-- The waker to call. -/
  woken : Option Waker
  deriving DecidableEq, Repr

namespace Shared

variable {σ : Type} {slots size : Nat} {α : Type}

/-- The installed driver, unless somebody works with it. -/
def driver? (shared : Shared slots size) : Option (Driver slots size) := shared.cell.value?.join

def isInstalled (shared : Shared slots size) : Bool := shared.driver?.isSome

/-- The shared driver as it is seen while somebody works with it. -/
def whileHeld (shared : Shared slots size) : Shared slots size := { shared with cell := .held }

/-- Installs a driver; the one that was installed before. -/
def install (driver : Driver slots size) (shared : Shared slots size) :
    Except Reentry (Option (Driver slots size) × Shared slots size) := do
  let (replaced, cell) ← shared.cell.access fun old _ => (old, some driver)
  return (replaced, { shared with cell })

/-- Takes the installed driver out. -/
def uninstall (shared : Shared slots size) :
    Except Reentry (Option (Driver slots size) × Shared slots size) := do
  let (removed, cell) ← shared.cell.access fun old _ => (old, none)
  return (removed, { shared with cell })

/-- Runs a program of the installed driver; there is no answer without one. Coming while the driver
is held is a fault. -/
def run (shared : Shared slots size) (program : DriverM σ slots size α) :
    BusM (World σ slots size) (Except Reentry (Option α × Shared slots size)) := do
  match shared.cell with
  | .held => return .error .reentered
  | .idle none => return .ok (none, shared)
  | .idle (some driver) =>
    let (answer, driver) ← program.run driver
    return .ok (some answer, { shared with cell := .idle (some driver) })

/-- Runs a program like `run`, and does nothing while the driver is held. -/
def tryRun (shared : Shared slots size) (program : DriverM σ slots size α) :
    BusM (World σ slots size) (Option α × Shared slots size) := do
  match ← shared.run program with
  | .error _ => return (none, shared)
  | .ok (answer, shared) => return (answer, shared)

/-- The interrupt routine of the shared driver up to the end of its first critical section: the
number of transfers collected, if the interrupt was a completion, and what the routine goes on to
do, which ends with the waker to call. Completions are announced to who waits for them. -/
def collect [HasSlots slots] [RegisterBus (World σ slots size)]
    [InterruptLine (World σ slots size)] (shared : Shared slots size)
    (consume : Bytes → World σ slots size → World σ slots size) :
    BusM (World σ slots size)
      (Except Reentry (Option Nat × Signal.Program (Option Waker) × Shared slots size)) := do
  match ← shared.run (Driver.serviceInterrupt consume) with
  | .error fault => return .error fault
  | .ok (answer, shared) =>
    let collected := answer.join
    return .ok (collected, .announce (collected.getD 0), shared)

/-- The interrupt routine of the shared driver, with nobody else between its sections. -/
def onInterrupt [HasSlots slots] [RegisterBus (World σ slots size)]
    [InterruptLine (World σ slots size)] (shared : Shared slots size)
    (consume : Bytes → World σ slots size → World σ slots size) :
    BusM (World σ slots size) (Except Reentry (Service × Shared slots size)) := do
  match ← shared.collect consume with
  | .error fault => return .error fault
  | .ok (collected, rest, shared) =>
    let (woken, signal) := rest.run shared.signal
    return .ok (⟨collected, woken⟩, { shared with signal })

/-- One poll of a task that waits for completions, with nobody else between its sections. -/
def poll (shared : Shared slots size) (waker : Waker) : Option Nat × Shared slots size :=
  let (answer, signal) := shared.signal.poll waker
  (answer, { shared with signal })

end Shared
end DmaController

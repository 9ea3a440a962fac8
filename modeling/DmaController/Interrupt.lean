import DmaController.Register

/-!
Interrupt status flags, and the line to the platform's interrupt controller.
-/
namespace DmaController

structure IrqFlags where
  /-- A queued transfer was accepted. -/
  queued : Bool := false
  /-- Some transfer completed. -/
  completed : Bool := false
  deriving DecidableEq, Repr

namespace IrqFlags

def ofWord (status : Word) : IrqFlags := ⟨status.hasAny Irq.queued, status.hasAny Irq.completed⟩

/-- The word that clears exactly these flags. -/
def toWord (flags : IrqFlags) : Word :=
  (if flags.queued then Irq.queued else 0) ||| (if flags.completed then Irq.completed else 0)

def any (flags : IrqFlags) : Bool := flags.queued || flags.completed

/-- The completion flag alone. -/
def completion : IrqFlags := { completed := true }

theorem ofWord_toWord (flags : IrqFlags) : ofWord flags.toWord = flags := by
  obtain ⟨queued, completed⟩ := flags
  cases queued <;> cases completed <;> decide

end IrqFlags

/-- A world with an interrupt controller. A driver acknowledges the line once it has cleared the
device's status and drained completions. -/
class InterruptLine (ω : Type) where
  acknowledge : ω → ω
  /-- Names the handler that the platform runs when the line fires. -/
  registerSink : Word → ω → ω

end DmaController

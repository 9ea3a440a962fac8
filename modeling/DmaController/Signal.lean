/-!
The signal from the interrupt routine to a task that waits for completions: a count of completions
that nobody has taken yet, and the waker to call. Each operation of the signal is one critical
section. A poll of the task and an announcement of the routine are programs of such sections,
between which others may come.
-/
namespace DmaController

/-- The name of a task's waker. -/
abbrev Waker := Nat

/-- Room for the waker that is to be called next. -/
structure WakerSlot where
  waker : Option Waker := none
  deriving DecidableEq, Repr

namespace WakerSlot

/-- Takes the place of any waker registered before. -/
def register (_ : WakerSlot) (waker : Waker) : WakerSlot := ⟨some waker⟩

/-- The waker to call, which is then no longer registered. -/
def take (slot : WakerSlot) : Option Waker × WakerSlot := (slot.waker, {})

def isRegistered (slot : WakerSlot) : Bool := slot.waker.isSome

theorem isRegistered_register (slot : WakerSlot) (waker : Waker) :
    (slot.register waker).isRegistered = true := rfl

theorem isRegistered_take (slot : WakerSlot) : slot.take.2.isRegistered = false := rfl

end WakerSlot

structure Signal where
  /-- The completions that nobody has taken yet. There is no bound on them here; a counter of `w`
  bits holds them unless `2 ^ w` or more are added before a wait takes them. -/
  completions : Nat := 0
  slot : WakerSlot := {}
  deriving DecidableEq, Repr

namespace Signal

def takeCompletions (signal : Signal) : Nat × Signal :=
  (signal.completions, { signal with completions := 0 })

def addCompletions (signal : Signal) (count : Nat) : Signal :=
  { signal with completions := signal.completions + count }

def registerWaker (signal : Signal) (waker : Waker) : Signal :=
  { signal with slot := signal.slot.register waker }

def takeWaker (signal : Signal) : Option Waker × Signal :=
  (signal.slot.take.1, { signal with slot := signal.slot.take.2 })

/-- Critical sections one after another. What comes next may depend on what a section answers. -/
inductive Program (α : Type)
  | done (answer : α)
  | takeCompletions (next : Nat → Program α)
  | addCompletions (count : Nat) (next : Program α)
  | registerWaker (waker : Waker) (next : Program α)
  | takeWaker (next : Option Waker → Program α)

namespace Program

variable {α : Type}

/-- The next section alone; what the program has still to do after it. -/
def step : Program α → Signal → Program α × Signal
  | done answer, signal => (done answer, signal)
  | takeCompletions next, signal => (next signal.takeCompletions.1, signal.takeCompletions.2)
  | addCompletions count next, signal => (next, signal.addCompletions count)
  | registerWaker waker next, signal => (next, signal.registerWaker waker)
  | takeWaker next, signal => (next signal.takeWaker.1, signal.takeWaker.2)

/-- All sections, with nobody else between them. -/
def run : Program α → Signal → α × Signal
  | done answer, signal => (answer, signal)
  | takeCompletions next, signal => (next signal.takeCompletions.1).run signal.takeCompletions.2
  | addCompletions count next, signal => next.run (signal.addCompletions count)
  | registerWaker waker next, signal => next.run (signal.registerWaker waker)
  | takeWaker next, signal => (next signal.takeWaker.1).run signal.takeWaker.2

/-- Looks for completions that came in while a waker was left. -/
def lookAgain : Program (Option Nat) :=
  takeCompletions fun count => done (if count = 0 then none else some count)

/-- Leaves a waker, and looks once more, so that no completion that came in between is missed. -/
def leaveWaker (waker : Waker) : Program (Option Nat) := registerWaker waker lookAgain

/-- Takes the completions, if there are any; otherwise leaves a waker. -/
def poll (waker : Waker) : Program (Option Nat) :=
  takeCompletions fun count => if 0 < count then done (some count) else leaveWaker waker

theorem poll_ne_lookAgain (waker : Waker) : poll waker ≠ lookAgain := by
  intro h
  have hnone : leaveWaker waker = done none := congrFun (takeCompletions.inj h) 0
  cases hnone

/-- Takes the waker that is to be called. -/
def fetchWaker : Program (Option Waker) := takeWaker done

/-- Adds completions, if there are any, and takes the waker that is to be called for them. -/
def announce (count : Nat) : Program (Option Waker) :=
  if 0 < count then addCompletions count fetchWaker else done none

end Program

/-- A poll that nobody disturbs. -/
def poll (signal : Signal) (waker : Waker) : Option Nat × Signal :=
  (Program.poll waker).run signal

theorem poll_fst (signal : Signal) (waker : Waker) : (signal.poll waker).1 =
    if 0 < signal.completions then some signal.completions else none := by
  by_cases hpos : 0 < signal.completions
  · simp [poll, Program.poll, Program.run, takeCompletions, hpos]
  · simp only [poll, Program.poll, Program.run, takeCompletions, hpos, if_false]
    rfl

/-- A poll never answers with zero. -/
theorem poll_ne_zero (signal : Signal) (waker : Waker) : (signal.poll waker).1 ≠ some 0 := by
  rw [poll_fst]
  split
  case isTrue hpos =>
    intro h
    rw [Option.some.inj h] at hpos
    exact Nat.lt_irrefl 0 hpos
  case isFalse => simp

end Signal
end DmaController

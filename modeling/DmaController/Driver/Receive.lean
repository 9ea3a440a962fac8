import DmaController.Driver.Submit

/-!
Passing a completed transfer's bytes on, and the single inbound transfer that is waited for.
-/
namespace DmaController.Driver

variable {σ : Type} {slots size : Nat} [HasSlots slots] [RegisterBus (World σ slots size)]

/-- Passes the bytes of the slot of `id` on and takes the slot back. -/
def deliver (consume : Bytes → World σ slots size → World σ slots size) (id : TransferId) :
    DriverM σ slots size Unit := do
  let driver ← get
  let world ← onBus BusM.world
  let data := world.memory.bytes (Pool.index slots id) (driver.pool.slot id).size
  record (.delivered id data)
  onBus (BusM.alter (consume data))
  modify fun driver => { driver with pool := driver.pool.release id }

/-- Looks at the done bits until `id` is done, with a pause between two looks and at most so many
pauses; whether it was done. -/
def awaitDone (pause : Nat → World σ slots size → World σ slots size) (id : TransferId) :
    Nat → DriverM σ slots size Bool
  | 0 => return (← settledDone).isDone id
  | pauses + 1 => do
    if (← settledDone).isDone id then return true
    let length := (← get).config.pollPause
    record (.delayed length)
    onBus (BusM.alter (pause length))
    awaitDone pause id pauses

/-- Queues one inbound transfer, waits for it and passes its bytes on; its size. After a timeout
its slot stays in flight. -/
def receive (bytes : Nat) (consume : Bytes → World σ slots size → World σ slots size)
    (pause : Nat → World σ slots size → World σ slots size) :
    DriverM σ slots size (Except Failure Nat) := do
  unless (← get).directions.inbound do return .error (.transfer .notSupported)
  if ← onBus RegisterBlock.submitPending then return .error (.transfer .queueFull)
  match ← request bytes with
  | .error cause => return .error (.transfer cause)
  | .ok id =>
    unless ← awaitDone pause id (← get).config.pollCount do
      log (.timedOut id)
      return .error (.wait .timeout)
    let received := ((← get).pool.slot id).size
    deliver consume id
    return .ok received

end DmaController.Driver

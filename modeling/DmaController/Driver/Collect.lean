import DmaController.Driver.Receive

/-!
Collecting completions. A done bit stays set until its id is used again, so it does not tell which
completions are new: a slot is drained only while it is in flight under exactly the id whose bit is
set in the settled snapshot. The scan starts at the cursor, so slots are drained in ring order.
-/
namespace DmaController.Driver

variable {σ : Type} {slots size : Nat} [HasSlots slots] [RegisterBus (World σ slots size)]

/-- Delivers the slot of `id` if it is in flight under `id` and that is done; whether it was. -/
def drain (done : DoneBits) (consume : Bytes → World σ slots size → World σ slots size)
    (id : TransferId) : DriverM σ slots size Bool := do
  if done.isDone id && ((← get).pool.slot id).transferId? == some id then
    deliver consume id
    return true
  else return false

/-- Drains the slots of `ids` in turn; those that were drained. -/
def drainAll (done : DoneBits) (consume : Bytes → World σ slots size → World σ slots size) :
    List TransferId → DriverM σ slots size (List TransferId)
  | [] => return []
  | id :: ids => do
    if ← drain done consume id then return id :: (← drainAll done consume ids)
    else drainAll done consume ids

/-- Moves the cursor past the last of the drained ids. -/
def advance (drained : List TransferId) : DriverM σ slots size Unit := do
  if let some last := drained.getLast? then
    modify fun driver => { driver with cursor := last.next }

/-- Refills the stream, if it runs, after so many transfers were drained. -/
def refillStream (drained : Nat) : DriverM σ slots size Unit := do
  if let some bytes := (← get).stream then
    let refilled ← refill bytes
    if 0 < drained then log (.collected drained refilled)

/-- Drains every completed transfer of one snapshot, moves the cursor past the last of them, and
refills the stream; how many were drained. -/
def collect (consume : Bytes → World σ slots size → World σ slots size) :
    DriverM σ slots size Nat := do
  let done ← settledDone
  let drained ← drainAll done consume (← get).cursor.lap
  advance drained
  refillStream drained.length
  return drained.length

/-- Clears the completion flag and runs `body`, if the flag was set. -/
def onCompletion {α : Type} (body : DriverM σ slots size α) : DriverM σ slots size (Option α) := do
  if ← claimCompletion then return some (← body) else return none

def acknowledge [InterruptLine (World σ slots size)] : DriverM σ slots size Unit :=
  onBus (BusM.alter InterruptLine.acknowledge)

def registerSink [InterruptLine (World σ slots size)] (sink : Word) :
    DriverM σ slots size Unit :=
  onBus (BusM.alter (InterruptLine.registerSink sink))

/-- The interrupt routine: collects if the interrupt was a completion, and then acknowledges the
line in any case. -/
def serviceInterrupt [InterruptLine (World σ slots size)]
    (consume : Bytes → World σ slots size → World σ slots size) :
    DriverM σ slots size (Option Nat) := do
  let collected ← onCompletion (collect consume)
  acknowledge
  return collected

/-- Starts the inbound stream: restarts the core, unmasks the completion interrupt and fills the
queue; how many transfers were queued. Every collection refills it. -/
def startStream (bytes : Nat) : DriverM σ slots size (Except TransferError Nat) := do
  unless (← get).directions.inbound do return .error .notSupported
  let some granted := (← get).requestSize? bytes | return .error .bufferExceeded
  restart
  modify fun driver => { driver with stream := some granted }
  enableIrq
  let queued ← refill granted
  log (.streamStarted queued granted)
  return .ok queued

end DmaController.Driver

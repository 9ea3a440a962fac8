import DmaController.Driver.Basic

/-!
Submitting transfers. A slot goes to the hardware in `submit` only, which marks it in flight,
programs its length and address, and sets the submit bit last.
-/
namespace DmaController

/-- What fills an outbound buffer. Of the usable buffer it is shown, it makes the bytes that are
put at the buffer's start, as far as they fit, and the length that it claims to have filled. What
happens in the world during the call follows the bytes. -/
structure Producer (ω : Type) where
  produce : Bytes → Bytes × Nat
  meanwhile : ω → ω

namespace Driver

variable {σ : Type} {slots size : Nat}

/-- The size of an inbound transfer: zero asks for the whole capacity, and more is refused. -/
def requestSize? (driver : Driver slots size) (bytes : Nat) : Option Nat :=
  if bytes = 0 then some driver.capacity
  else if driver.capacity < bytes then none
  else some bytes

variable [HasSlots slots] [RegisterBus (World σ slots size)]

/-- Lets `source` fill the slot of `id`; the length it claims. -/
def fill (source : Producer (World σ slots size)) (id : TransferId) : DriverM σ slots size Nat := do
  let capacity := (← get).capacity
  let slot := Pool.index slots id
  let world ← onBus BusM.world
  let (data, claimed) := source.produce (world.memory.bytes slot capacity)
  record (.offered capacity)
  onBus (BusM.alter fun world =>
    source.meanwhile { world with memory := world.memory.store slot 0 (data.extract 0 capacity) })
  return claimed

/-- The id the next transfer will have, if the hardware reports a valid one. -/
def nextId? : DriverM σ slots size (Option TransferId) := do
  let raw ← onBus RegisterBlock.nextId
  let id? := TransferId.ofWord? raw
  if id?.isNone then log (.invalidTransferId raw)
  return id?

/-- Makes the slot of `id` free, if the transfer it holds is done; whether it is free. -/
def reclaim (id : TransferId) : DriverM σ slots size Bool := do
  match ((← get).pool.slot id).transferId? with
  | none => return true
  | some previous =>
    if (← settledDone).isDone previous then
      record (.reclaimed previous)
      modify fun driver => { driver with pool := driver.pool.release id }
      return true
    else return false

/-- Hands the slot of `id` to the hardware. -/
def submit (direction : Direction) (id : TransferId) (bytes : Nat) :
    DriverM σ slots size Unit := do
  let address := (← get).address id
  modify fun driver =>
    { driver with pool := driver.pool.submit id bytes, newest := some id }
  record (.submitted ⟨direction, id, bytes, address⟩)
  onBus (RegisterBlock.setByteCount bytes)
  match direction with
  | .inbound => onBus (RegisterBlock.setDestination address)
  | .outbound => onBus (RegisterBlock.setSource address)
  onBus RegisterBlock.queue
  log (.queued direction id bytes)

/-- Finds a slot for an outbound transfer, that of the next id. A completed transfer that still
holds the slot loses it. -/
def claimSlot : DriverM σ slots size (Except TransferError TransferId) := do
  unless (← get).directions.outbound do return .error .notSupported
  if ← onBus RegisterBlock.submitPending then return .error .queueFull
  let some id ← nextId? | return .error .deviceError
  unless ← reclaim id do return .error .queueFull
  return .ok id

/-- Queues an outbound transfer, filled by `source`. -/
def send (source : Producer (World σ slots size)) :
    DriverM σ slots size (Except TransferError TransferId) := do
  match ← claimSlot with
  | .error cause => return .error cause
  | .ok id =>
    let bytes ← fill source id
    if (← get).capacity < bytes then return .error .bufferExceeded
    if bytes = 0 then return .error .invalidLength
    submit .outbound id bytes
    return .ok id

/-- Reads the submit bit until it is clear, at most `limit` times; whether it was clear. -/
def awaitAccepted : Nat → DriverM σ slots size Bool
  | 0 => return false
  | limit + 1 => do
    if ← onBus RegisterBlock.submitPending then awaitAccepted limit else return true

/-- Queues an outbound transfer and stays until the hardware has accepted it. There is no answer if
that has not happened after `limit` looks. -/
def sendAndWait (limit : Nat) (source : Producer (World σ slots size)) :
    DriverM σ slots size (Option (Except TransferError TransferId)) := do
  match ← send source with
  | .error cause => return some (.error cause)
  | .ok id => if ← awaitAccepted limit then return some (.ok id) else return none

/-- Queues one inbound transfer into the slot of the next id. -/
def request (bytes : Nat) : DriverM σ slots size (Except TransferError TransferId) := do
  let some granted := (← get).requestSize? bytes | return .error .bufferExceeded
  let some id ← nextId? | return .error .deviceError
  if ((← get).pool.slot id).isInFlight then return .error .queueFull
  submit .inbound id granted
  return .ok id

/-- Queues inbound transfers, at most so many, while the hardware takes them; how many. -/
def requestUpTo (bytes : Nat) : Nat → DriverM σ slots size Nat
  | 0 => return 0
  | room + 1 => do
    if ← onBus RegisterBlock.submitPending then return 0
    match ← request bytes with
    | .ok _ => return (← requestUpTo bytes room) + 1
    | .error .queueFull => return 0
    | .error cause =>
      log (.refillStopped cause)
      return 0

/-- Queues inbound transfers until the hardware stops taking them. Each takes a free slot, so there
are never more tries than free slots and one. -/
def refill (bytes : Nat) : DriverM σ slots size Nat := do
  requestUpTo bytes ((← get).pool.freeCount + 1)

end Driver
end DmaController

import DmaController.Proofs.Harvest
import DmaController.RegisterFile

/-!
A collection from any state. The pool may hold anything in flight, as long as each transfer is in
the slot of its id, and the registers may show anything. Main statement: a collection passes on
the slots in flight under a settled id, each once and in ring order from the cursor on, and what
else it does is to take them back, to move the cursor and to refill the stream.
-/
namespace DmaController

/-- On a lap from `start`, the distance from `start` grows. -/
theorem TransferId.lap_sorted (start : TransferId) :
    start.lap.Pairwise fun a b => a - start < b - start := by
  refine List.pairwise_map.2 (List.Pairwise.imp_of_mem ?_ List.pairwise_lt_range)
  intro a b ha hb hlt
  -- The distance of an id on the lap is its place there.
  have hplace : ∀ distance < 31, (start.ahead distance - start).val = distance := by
    intro distance hdistance
    have hstart := start.isLt
    rw [Fin.sub_def]
    simp only [val_ahead, transferIdCount] at *
    omega
  rw [Fin.lt_def, hplace a (List.mem_range.1 ha), hplace b (List.mem_range.1 hb)]
  exact hlt

variable {σ : Type} {slots size : Nat} {α β : Type}

/-- Takes back every slot that is in flight under a done id. -/
def Pool.settle (pool : Pool slots size) (done : DoneBits) : Pool slots size :=
  { pool with
    slots := pool.slots.map fun slot =>
      if slot.transferId?.any done.isDone then slot.release else slot }

theorem Pool.ext_slotAt {pool pool' : Pool slots size} (hbase : pool.base = pool'.base)
    (hcapacity : pool.capacity = pool'.capacity) (h : ∀ i, pool.slotAt i = pool'.slotAt i) :
    pool = pool' := by
  have hslots : pool.slots = pool'.slots := Vector.ext fun i hi => h ⟨i, hi⟩
  cases pool
  cases pool'
  simp_all

theorem Pool.slotAt_settle (pool : Pool slots size) (done : DoneBits) (i : Fin slots) :
    (pool.settle done).slotAt i =
      if (pool.slotAt i).transferId?.any done.isDone then (pool.slotAt i).release
      else pool.slotAt i :=
  Vector.getElem_map ..

namespace Driver

/-- The driver after these ids were drained on this snapshot. -/
def drained (driver : Driver slots size) (done : DoneBits) (ids : List TransferId) :
    Driver slots size :=
  { driver with
    pool := driver.pool.settle done
    cursor := (ids.getLast?.map (·.next)).getD driver.cursor }

/-- These are the done ids under which a slot is in flight, in ring order from the cursor on. -/
structure Due (driver : Driver slots size) (done : DoneBits) (ids : List TransferId) : Prop where
  sorted : ids.Pairwise fun a b => a - driver.cursor < b - driver.cursor
  mem_iff : ∀ id, id ∈ ids ↔
    done.isDone id = true ∧ ∃ i, (driver.pool.slotAt i).transferId? = some id

/-- There is only one such order of the ids that are due. -/
theorem Due.unique {driver : Driver slots size} {done : DoneBits} {ids ids' : List TransferId}
    (h : driver.Due done ids) (h' : driver.Due done ids') : ids = ids' := by
  have hperm : ids.Perm ids' := by
    refine (List.perm_ext_iff_of_nodup ?_ ?_).2 fun id => (h.mem_iff id).trans (h'.mem_iff id).symm
    · exact h.sorted.imp fun hlt heq => hlt.ne (congrArg (· - driver.cursor) heq)
    · exact h'.sorted.imp fun hlt heq => hlt.ne (congrArg (· - driver.cursor) heq)
  refine hperm.eq_of_pairwise ?_ h.sorted h'.sorted
  intro a b _ _ hlt hgt
  exact absurd hlt (lt_asymm hgt)

variable [HasSlots slots]

/-- Every transfer in flight is in the slot of its id. -/
def Placed (driver : Driver slots size) : Prop :=
  ∀ i id, (driver.pool.slotAt i).transferId? = some id → i = Pool.index slots id

variable {driver : Driver slots size} {done : DoneBits}

theorem Placed.holds_iff (h : driver.Placed) {id : TransferId} :
    driver.Holds id ↔ ∃ i, (driver.pool.slotAt i).transferId? = some id := by
  constructor
  · intro hholds
    exact ⟨_, hholds⟩
  · rintro ⟨i, hi⟩
    obtain rfl := h i id hi
    exact hi

/-- A lap drains what is due. -/
theorem Placed.due (h : driver.Placed) (done : DoneBits) :
    driver.Due done (driver.cursor.lap.filter (driver.drains done)) where
  sorted := driver.cursor.lap_sorted.filter _
  mem_iff id := by
    rw [List.mem_filter, drains_eq_true, h.holds_iff]
    exact and_iff_right (TransferId.mem_lap _ _)

end Driver

variable [HasSlots slots]

/-- To take back the slots that are due is to take back every slot under a done id. -/
theorem Driver.Due.releases {driver : Driver slots size} {done : DoneBits} {ids : List TransferId}
    (h : driver.Due done ids) (hplaced : driver.Placed) :
    ids.foldl Pool.release driver.pool = driver.pool.settle done := by
  obtain ⟨hbase, hcapacity⟩ := driver.pool.releases_eq ids
  refine Pool.ext_slotAt hbase hcapacity fun i => ?_
  have hdue : (∃ id ∈ ids, i = Pool.index slots id) ↔
      (driver.pool.slotAt i).transferId?.any done.isDone = true := by
    rw [Option.any_eq_true]
    constructor
    · rintro ⟨id, hmem, rfl⟩
      obtain ⟨hdone, hholds⟩ := (h.mem_iff id).1 hmem
      exact ⟨id, hplaced.holds_iff.2 hholds, hdone⟩
    · rintro ⟨id, hid, hdone⟩
      exact ⟨id, (h.mem_iff id).2 ⟨hdone, i, hid⟩, hplaced i id hid⟩
  rw [Pool.slotAt_releases, Pool.slotAt_settle, if_congr hdue rfl rfl]

variable [RegisterBus (World σ slots size)]

namespace Driver

theorem reap_outcome (consume : Bytes → World σ slots size → World σ slots size)
    {driver : Driver slots size} (hplaced : driver.Placed) (port : Port (World σ slots size)) :
    let submit := (BusM.read Register.submit).run port
    let done := (BusM.read Register.done).run submit.2
    let settled := driver.settled submit.1 done.1
    ∃ ids, driver.Due settled ids ∧ (reap consume).outcome driver port =
      ((ids, driver.drained settled ids), ids.foldl (driver.handOn consume) done.2) := by
  intro submit done settled
  let ids := driver.cursor.lap.filter (driver.drains settled)
  have hdue : driver.Due settled ids := hplaced.due settled
  refine ⟨ids, hdue, ?_⟩
  unfold reap
  rw [DriverM.outcome_bind, settledDone_outcome, DriverM.outcome_get, DriverM.outcome_bind,
    drainAll_outcome _ _ driver.cursor.nodup_lap]
  change ((ids, ((advance ids).outcome _ _).1.2), ((advance ids).outcome _ _).2) = _
  rw [advance_outcome]
  unfold drained
  rw [← hdue.releases hplaced]
  rfl

end Driver

section Buffers

/-- The registers leave the buffers alone, and so does `consume`. -/
structure SparesBuffers (consume : Bytes → World σ slots size → World σ slots size) : Prop where
  read (offset : Offset) (world : World σ slots size) :
    (RegisterBus.read offset world).2.memory = world.memory
  write (offset : Offset) (value : Word) (world : World σ slots size) :
    (RegisterBus.write offset value world).memory = world.memory
  note (action : Action) (world : World σ slots size) :
    (RegisterBus.note action world).memory = world.memory
  consume (data : Bytes) (world : World σ slots size) : (consume data world).memory = world.memory

omit [HasSlots slots] [RegisterBus (World σ slots size)] in
/-- Registers that a device has of its own lie outside the buffers. -/
theorem SparesBuffers.of_device {τ : Type} [RegisterBus τ]
    {consume : Bytes → World τ slots size → World τ slots size}
    (hconsume : ∀ data world, (consume data world).memory = world.memory) :
    SparesBuffers consume :=
  ⟨fun _ _ => rfl, fun _ _ _ => rfl, fun _ _ => rfl, hconsume⟩

/-- Run anywhere, the program leaves the buffers as they are. -/
def LeavesBuffers (program : DriverM σ slots size α) : Prop :=
  ∀ driver port, (program.outcome driver port).2.world.memory = port.world.memory

variable {consume : Bytes → World σ slots size → World σ slots size}

namespace LeavesBuffers

omit [HasSlots slots] [RegisterBus (World σ slots size)] in
theorem pure (a : α) : LeavesBuffers (Pure.pure a : DriverM σ slots size α) := fun _ _ => rfl

omit [HasSlots slots] [RegisterBus (World σ slots size)] in
theorem bind {program : DriverM σ slots size β} {next : β → DriverM σ slots size α}
    (h : LeavesBuffers program) (hnext : ∀ b, LeavesBuffers (next b)) :
    LeavesBuffers (program >>= next) :=
  fun driver port => (hnext _ _ _).trans (h driver port)

omit [HasSlots slots] [RegisterBus (World σ slots size)] in
theorem get : LeavesBuffers (MonadState.get : DriverM σ slots size _) := fun _ _ => rfl

omit [HasSlots slots] [RegisterBus (World σ slots size)] in
theorem change (f : Driver slots size → Driver slots size) :
    LeavesBuffers (modify f : DriverM σ slots size Unit) := fun _ _ => rfl

end LeavesBuffers

namespace SparesBuffers

variable (h : SparesBuffers consume)
include h

omit [HasSlots slots] in
theorem log (entry : LogEntry) : LeavesBuffers (Driver.log entry : DriverM σ slots size Unit) :=
  fun _ port => h.note _ port.world

omit [HasSlots slots] in
theorem testBits (offset : Offset) (bits : Word) :
    LeavesBuffers (Driver.onBus (RegisterBlock.testBits offset bits) : DriverM σ slots size Bool) :=
  fun _ port => h.read offset port.world

theorem submit (direction : Direction) (id : TransferId) (bytes : Nat) :
    LeavesBuffers (Driver.submit direction id bytes : DriverM σ slots size Unit) := by
  have hwrite : ∀ offset value,
      LeavesBuffers (Driver.onBus (BusM.write offset value) : DriverM σ slots size Unit) :=
    fun offset value _ port => h.write offset value port.world
  have hmarked : ∀ transfer,
      LeavesBuffers (Driver.record (.submitted transfer) : DriverM σ slots size Unit) :=
    fun _ _ port => h.note _ port.world
  refine .bind .get fun driver => .bind (.change _) fun _ => .bind (hmarked _) fun _ =>
    .bind (hwrite _ _) fun _ => ?_
  cases direction with
  | inbound => exact .bind (hwrite _ _) fun _ => .bind (hwrite _ _) fun _ => h.log _
  | outbound => exact .bind (hwrite _ _) fun _ => .bind (hwrite _ _) fun _ => h.log _

theorem request (bytes : Nat) : LeavesBuffers
    (Driver.request bytes : DriverM σ slots size (Except TransferError TransferId)) := by
  have hnext : LeavesBuffers (Driver.nextId? : DriverM σ slots size _) := by
    refine .bind (fun _ port => h.read Register.transferId port.world) fun raw => ?_
    dsimp only
    split_ifs
    · exact .bind (h.log _) fun _ => .pure _
    · exact .pure _
  refine .bind .get fun driver => ?_
  cases driver.requestSize? bytes with
  | none => exact .pure _
  | some granted =>
    refine .bind hnext fun id? => ?_
    cases id? with
    | none => exact .pure _
    | some id =>
      refine .bind .get fun driver => ?_
      split_ifs
      · exact .pure _
      · exact .bind (h.submit _ _ _) fun _ => .pure _

theorem refill (bytes : Nat) : LeavesBuffers (Driver.refill bytes : DriverM σ slots size Nat) := by
  have hrequests : ∀ room,
      LeavesBuffers (Driver.requestUpTo bytes room : DriverM σ slots size Nat) := by
    intro room
    induction room with
    | zero => exact .pure 0
    | succ room ih =>
      refine .bind (h.testBits _ _) fun pending => ?_
      split_ifs
      · exact .pure 0
      refine .bind (h.request bytes) fun answer => ?_
      cases answer with
      | ok id => exact .bind ih fun _ => .pure _
      | error cause =>
        cases cause with
        | queueFull => exact .pure 0
        | _ => exact .bind (h.log _) fun _ => .pure 0
  exact .bind .get fun _ => hrequests _

theorem refillStream (drained : Nat) :
    LeavesBuffers (Driver.refillStream drained : DriverM σ slots size Unit) := by
  refine .bind .get fun driver => ?_
  cases driver.stream with
  | none => exact .pure _
  | some bytes =>
    refine .bind (h.refill bytes) fun refilled => ?_
    split_ifs
    · exact h.log _
    · exact .pure _

theorem handOn (driver : Driver slots size) (ids : List TransferId)
    (port : Port (World σ slots size)) :
    (ids.foldl (driver.handOn consume) port).world.memory = port.world.memory ∧
      (ids.foldl (driver.handOn consume) port).journal.toList =
        port.journal.toList ++ ids.map fun id => .delivered id
          (port.world.memory.bytes (Pool.index slots id) (driver.pool.slot id).size) := by
  induction ids generalizing port with
  | nil => exact ⟨rfl, (List.append_nil _).symm⟩
  | cons id ids ih =>
    have hone : (driver.handOn consume port id).world.memory = port.world.memory :=
      (h.consume _ _).trans (h.note _ _)
    obtain ⟨hmemory, hjournal⟩ := ih (driver.handOn consume port id)
    refine ⟨hmemory.trans hone, ?_⟩
    rw [List.foldl_cons, hjournal, hone, List.map_cons]
    simp [Driver.handOn]

end SparesBuffers

end Buffers

namespace Driver

end Driver
end DmaController

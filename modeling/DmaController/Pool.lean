import DmaController.Memory

/-!
The pool of buffer slots. Transfer ids fall onto slots modulo the number of slots; a slot belongs
to software, or is in flight under one id. The bytes are kept in `Memory`; the pool keeps who owns
them, how many count, and where they lie. Main statements: what a submission and a release do to
each slot.
-/
namespace DmaController

inductive Ownership
  | free
  | inFlight (id : TransferId)
  deriving DecidableEq, Repr

structure Slot where
  /-- Bytes of the current or last transfer. -/
  size : Nat := 0
  owner : Ownership := .free
  deriving DecidableEq, Repr

namespace Slot

/-- The id the slot is in flight under. -/
def transferId? (slot : Slot) : Option TransferId :=
  match slot.owner with
  | .free => none
  | .inFlight id => some id

def isInFlight (slot : Slot) : Bool := slot.transferId?.isSome

/-- Takes the slot back from the hardware; its size stays readable. -/
def release (slot : Slot) : Slot := { slot with owner := .free }

theorem isInFlight_release (slot : Slot) : slot.release.isInFlight = false := rfl

end Slot

/-- There is at least one slot. The zero is named, so that it is the same one for every reader. -/
abbrev HasSlots (slots : Nat) : Prop := @NeZero Nat Zero.ofOfNat0 slots

/-- `slots` slots whose buffers have `size` bytes. -/
structure Pool (slots size : Nat) where
  /-- Host address of the first slot. -/
  base : Nat
  /-- Usable bytes of each slot. -/
  capacity : Nat
  slots : Vector Slot slots
  deriving DecidableEq, Repr

namespace Pool

variable {slots size : Nat}

/-- The usable part of a buffer when so many bytes are asked for. -/
def clamp (size requested : Nat) : Nat := min (min requested size) transferLimit

/-- Every slot free, with the largest capacity. -/
def fresh (slots size base : Nat) : Pool slots size where
  base := base
  capacity := clamp size size
  slots := Vector.replicate slots {}

/-- Sets the capacity and takes every slot back, empty. -/
def resize (pool : Pool slots size) (requested : Nat) : Pool slots size where
  base := pool.base
  capacity := clamp size requested
  slots := Vector.replicate slots {}

/-- What there is to say when a request is lowered. -/
def resizeWarning (size requested : Nat) : Option LogEntry :=
  if transferLimit < requested then some (.limitedToPage requested)
  else if size < requested then some (.limitedToBuffer size requested)
  else none

def roundUp (n unit : Nat) : Nat := (n + unit - 1) / unit * unit

/-- Host bytes from one slot to the next: the buffer, rounded up to eight bytes, and eighteen
bytes of bookkeeping, on whole pages. -/
def stride (size : Nat) : Nat := roundUp (roundUp size 8 + 18) transferBoundary

/-- Host bytes that the pool takes up. -/
def memoryUsage (slots size : Nat) : Nat := slots * stride size

def hostAddress (pool : Pool slots size) (slot : Fin slots) : Nat :=
  pool.base + slot.val * stride size

/-- The address at which the device sees a slot: the low word of the host address, moved by the
bus offset. -/
def deviceAddress (pool : Pool slots size) (busOffset : Word) (slot : Fin slots) : Word :=
  BitVec.ofNat 32 (pool.hostAddress slot) + busOffset

def inFlight (pool : Pool slots size) : Nat := pool.slots.countP Slot.isInFlight

def freeCount (pool : Pool slots size) : Nat := pool.slots.countP (!·.isInFlight)

/-- Takes every slot back. -/
def releaseAll (pool : Pool slots size) : Pool slots size :=
  { pool with slots := pool.slots.map Slot.release }

/-- The slot at an index. -/
def slotAt (pool : Pool slots size) (i : Fin slots) : Slot := pool.slots.get i

theorem slotAt_set (pool : Pool slots size) (i k : Fin slots) (slot : Slot) :
    ({ pool with slots := pool.slots.set i slot i.isLt } : Pool slots size).slotAt k =
      if k = i then slot else pool.slotAt k := by
  change (pool.slots.set i slot)[k.val] = if k = i then slot else pool.slots[k.val]
  simp [Vector.getElem_set, Fin.ext_iff, eq_comm]

theorem slotAt_releaseAll (pool : Pool slots size) (k : Fin slots) :
    pool.releaseAll.slotAt k = (pool.slotAt k).release := by
  change (pool.slots.map Slot.release)[k.val] = (pool.slots[k.val]).release
  simp

variable [HasSlots slots]

/-- The slot that backs a transfer id. -/
def index (slots : Nat) [HasSlots slots] (id : TransferId) : Fin slots := Fin.ofNat slots id.val

def slot (pool : Pool slots size) (id : TransferId) : Slot := pool.slotAt (index slots id)

/-- The slot at a raw index, which wraps. -/
def get (pool : Pool slots size) (i : Nat) : Slot := pool.slotAt (Fin.ofNat slots i)

/-- Hands the slot of `id` to the hardware with `bytes` bytes. -/
def submit (pool : Pool slots size) (id : TransferId) (bytes : Nat) : Pool slots size :=
  { pool with slots := pool.slots.set (index slots id) ⟨bytes, .inFlight id⟩ }

/-- Takes the slot of `id` back. -/
def release (pool : Pool slots size) (id : TransferId) : Pool slots size :=
  { pool with slots := pool.slots.set (index slots id) (pool.slot id).release }

theorem val_index (id : TransferId) : (index slots id).val = id.val % slots := rfl

theorem slot_of_index (pool : Pool slots size) {id other : TransferId}
    (h : index slots id = index slots other) : pool.slot id = pool.slot other :=
  congrArg pool.slotAt h

theorem slotAt_submit (pool : Pool slots size) (id : TransferId) (bytes : Nat) (k : Fin slots) :
    (pool.submit id bytes).slotAt k =
      if k = index slots id then ⟨bytes, .inFlight id⟩ else pool.slotAt k :=
  pool.slotAt_set ..

theorem slotAt_release (pool : Pool slots size) (id : TransferId) (k : Fin slots) :
    (pool.release id).slotAt k =
      if k = index slots id then (pool.slot id).release else pool.slotAt k :=
  pool.slotAt_set ..

theorem size_release (pool : Pool slots size) (id : TransferId) (k : Fin slots) :
    ((pool.release id).slotAt k).size = (pool.slotAt k).size := by
  rw [slotAt_release]
  split
  · subst_vars
    rfl
  · rfl

theorem inFlight_release {pool : Pool slots size} {id : TransferId}
    (h : (pool.slot id).isInFlight = true) : (pool.release id).inFlight + 1 = pool.inFlight := by
  have hcell : pool.slots[(Pool.index slots id).val].isInFlight = true := h
  have hpos := pool.slots.boole_getElem_le_countP (p := Slot.isInFlight) (Pool.index slots id).isLt
  rw [if_pos hcell] at hpos
  unfold inFlight release
  rw [Vector.countP_set, if_pos hcell, Slot.isInFlight_release]
  simp only [Bool.false_eq_true, if_false]
  omega

/-- A release takes a slot back and hands out none. -/
theorem transferId?_of_release {pool : Pool slots size} {id other : TransferId} {k : Fin slots}
    (h : ((pool.release id).slotAt k).transferId? = some other) :
    (pool.slotAt k).transferId? = some other := by
  rw [slotAt_release] at h
  split at h
  · cases h
  · exact h

theorem slot_submit_self (pool : Pool slots size) (id : TransferId) (bytes : Nat) :
    (pool.submit id bytes).slot id = ⟨bytes, .inFlight id⟩ := by
  rw [slot, slotAt_submit, if_pos rfl]

theorem slot_release_self (pool : Pool slots size) (id : TransferId) :
    (pool.release id).slot id = (pool.slot id).release := by
  rw [slot, slotAt_release, if_pos rfl]

theorem slot_submit_of_ne (pool : Pool slots size) {id other : TransferId}
    (h : index slots other ≠ index slots id) (bytes : Nat) :
    (pool.submit id bytes).slot other = pool.slot other := by
  rw [slot, slotAt_submit, if_neg h, slot]

theorem slot_release_of_ne (pool : Pool slots size) {id other : TransferId}
    (h : index slots other ≠ index slots id) : (pool.release id).slot other = pool.slot other := by
  rw [slot, slotAt_release, if_neg h, slot]

end Pool
end DmaController

import DmaController.Bus

/-!
The buffers that the host and the device share. Main statements: what a store leaves in a buffer,
byte for byte, and that it leaves the other buffers alone.
-/
namespace DmaController

/-- `slots` buffers of `size` bytes each. -/
structure Memory (slots size : Nat) where
  buffers : Vector (Vector UInt8 size) slots
  deriving DecidableEq, Repr

namespace Memory

variable {slots size : Nat}

def zero : Memory slots size := ⟨Vector.replicate slots (Vector.replicate size 0)⟩

/-- The first `count` bytes of a buffer. -/
def bytes (memory : Memory slots size) (slot : Fin slots) (count : Nat) : Bytes :=
  memory.buffers[slot].toArray.extract 0 count

/-- Puts `data` into a buffer from `start` on; what would lie past the buffer's end is dropped. -/
def store (memory : Memory slots size) (slot : Fin slots) (start : Nat) (data : Bytes) :
    Memory slots size :=
  let old := memory.buffers[slot]
  ⟨memory.buffers.set slot
    (Vector.ofFn fun i => if start ≤ i.val then data[i.val - start]?.getD old[i] else old[i])⟩

theorem size_bytes (memory : Memory slots size) (slot : Fin slots) (count : Nat) :
    (memory.bytes slot count).size = min count size := by simp [bytes]

theorem getElem_bytes (memory : Memory slots size) (slot : Fin slots) {count i : Nat}
    (hi : i < (memory.bytes slot count).size) (hs : i < size) :
    (memory.bytes slot count)[i] = memory.buffers[slot][i] := by simp [bytes]

theorem buffer_store_self (memory : Memory slots size) (slot : Fin slots) (start : Nat)
    (data : Bytes) {i : Nat} (hi : i < size) :
    (memory.store slot start data).buffers[slot][i] =
      if start ≤ i then data[i - start]?.getD memory.buffers[slot][i]
      else memory.buffers[slot][i] := by simp [store]

theorem buffer_store_of_ne (memory : Memory slots size) {slot other : Fin slots}
    (h : other ≠ slot) (start : Nat) (data : Bytes) :
    (memory.store slot start data).buffers[other] = memory.buffers[other] := by
  have hval : slot.val ≠ other.val := fun e => h (Fin.ext e.symm)
  simp [store, hval]

theorem bytes_store_of_ne (memory : Memory slots size) {slot other : Fin slots}
    (h : other ≠ slot) (start : Nat) (data : Bytes) (count : Nat) :
    (memory.store slot start data).bytes other count = memory.bytes other count := by
  unfold bytes
  rw [buffer_store_of_ne memory h]

/-- A store from the start of a buffer reads back, if it fits. -/
theorem bytes_store (memory : Memory slots size) (slot : Fin slots) (data : Bytes)
    (h : data.size ≤ size) : (memory.store slot 0 data).bytes slot data.size = data := by
  apply Array.ext
  · simp [size_bytes, h]
  · intro i hi hd
    rw [getElem_bytes _ _ hi (by omega), buffer_store_self _ _ _ _ (by omega)]
    simp [hd]

end Memory

/-- A device together with the buffers it shares with the host. -/
structure World (σ : Type) (slots size : Nat) where
  device : σ
  memory : Memory slots size

/-- A device with registers of its own, as a world whose memory its registers do not touch. -/
instance (σ : Type) (slots size : Nat) [RegisterBus σ] : RegisterBus (World σ slots size) where
  read offset world :=
    let (value, device) := RegisterBus.read offset world.device
    (value, { world with device })
  write offset value world :=
    { world with device := RegisterBus.write offset value world.device }
  note action world := { world with device := RegisterBus.note action world.device }

end DmaController

import DmaController.TransferId

/-!
Snapshots of the transfer-done register, one bit for each transfer id. Bit 31 belongs to no id.
-/
namespace DmaController

structure DoneBits where
  word : Word
  deriving DecidableEq, Repr

namespace DoneBits

def none : DoneBits := ⟨0⟩

def isDone (bits : DoneBits) (id : TransferId) : Bool := bits.word.getLsbD id.val

/-- The snapshot with the bit of `id` cleared. -/
def without (bits : DoneBits) (id : TransferId) : DoneBits :=
  ⟨bits.word &&& ~~~ BitVec.twoPow 32 id.val⟩

/-- No transfer is marked done. -/
def isEmpty (bits : DoneBits) : Bool := bits.word &&& 0x7FFFFFFF == 0

/-- The ids marked done, in rising order. -/
def ids (bits : DoneBits) : List TransferId := TransferId.first.lap.filter bits.isDone

theorem isDone_without (bits : DoneBits) (id other : TransferId) :
    (bits.without id).isDone other = (bits.isDone other && decide (other ≠ id)) := by
  have h : other.val < 32 := other.val_lt
  by_cases hid : id = other
  · simp [isDone, without, hid, h]
  · have hval : id.val ≠ other.val := fun e => hid (Fin.ext e)
    simp [isDone, without, h, Ne.symm hval, Ne.symm hid]

theorem isDone_without_self (bits : DoneBits) (id : TransferId) :
    (bits.without id).isDone id = false := by simp [isDone_without]

theorem isDone_none (id : TransferId) : none.isDone id = false := by simp [isDone, none]

theorem mem_ids (bits : DoneBits) (id : TransferId) : id ∈ bits.ids ↔ bits.isDone id = true := by
  simp [ids, TransferId.mem_lap]

end DoneBits
end DmaController

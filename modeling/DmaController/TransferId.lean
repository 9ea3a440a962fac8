import DmaController.Register

/-!
Transfer ids. The hardware numbers transfers from 0 to 30 and then starts again, so the ids form
a ring. Main statements: a lap from any id visits every id once.
-/
namespace DmaController

/-- Number of transfer ids the hardware hands out. -/
def transferIdCount : Nat := 31

abbrev TransferId := Fin transferIdCount

namespace TransferId

/-- The id the hardware assigns first after it is enabled. -/
def first : TransferId := ⟨0, by decide⟩

/-- The id a raw word names; only 31 words name one. -/
def ofWord? (raw : Word) : Option TransferId :=
  if h : raw.toNat < transferIdCount then some ⟨raw.toNat, h⟩ else none

/-- The id `distance` places further round the ring. -/
def ahead (id : TransferId) (distance : Nat) : TransferId :=
  ⟨(id.val + distance) % transferIdCount, Nat.mod_lt _ (by decide)⟩

def next (id : TransferId) : TransferId := id.ahead 1

/-- Every id once, in ring order, from `id` on. -/
def lap (id : TransferId) : List TransferId := (List.range transferIdCount).map id.ahead

def toWord (id : TransferId) : Word := BitVec.ofNat 32 id.val

/-- Every id has a bit in a word. -/
theorem val_lt (id : TransferId) : id.val < 32 := Nat.lt_succ_of_lt id.isLt

theorem val_ahead (id : TransferId) (distance : Nat) :
    (id.ahead distance).val = (id.val + distance) % 31 := rfl

/-- After the last id comes the first. -/
theorem val_next (id : TransferId) : id.next.val = (id.val + 1) % 31 := rfl

theorem ahead_zero (id : TransferId) : id.ahead 0 = id :=
  Fin.ext (Nat.mod_eq_of_lt id.isLt)

theorem ahead_ahead (id : TransferId) (a b : Nat) : (id.ahead a).ahead b = id.ahead (a + b) := by
  apply Fin.ext
  simp only [val_ahead]
  omega

theorem ahead_count (id : TransferId) : id.ahead transferIdCount = id := by
  apply Fin.ext
  have := id.isLt
  simp only [val_ahead, transferIdCount] at *
  omega

theorem length_lap (id : TransferId) : id.lap.length = transferIdCount := by simp [lap]

theorem mem_lap (start id : TransferId) : id ∈ start.lap := by
  have hs := start.isLt
  have hi := id.isLt
  refine List.mem_map.2 ⟨(id.val + (31 - start.val)) % 31, ?_, ?_⟩
  · exact List.mem_range.2 (Nat.mod_lt _ (by decide))
  · apply Fin.ext
    simp only [val_ahead, transferIdCount] at *
    omega

theorem nodup_lap (id : TransferId) : id.lap.Nodup := by
  refine List.pairwise_map.2 (List.Pairwise.imp_of_mem ?_ List.nodup_range)
  intro a b ha hb hne h
  have ha := List.mem_range.1 ha
  have hb := List.mem_range.1 hb
  have h := congrArg Fin.val h
  simp only [val_ahead, transferIdCount] at *
  omega

theorem ofWord?_eq_some_iff {raw : Word} {id : TransferId} :
    ofWord? raw = some id ↔ raw.toNat = id.val := by
  unfold ofWord?
  split
  · simp [Fin.ext_iff]
  · have := id.isLt
    simp only [reduceCtorEq, false_iff]
    omega

theorem ofWord?_toWord (id : TransferId) : ofWord? id.toWord = some id := by
  have h := id.isLt
  rw [ofWord?_eq_some_iff, toWord, BitVec.toNat_ofNat]
  simp only [transferIdCount] at h
  omega

end TransferId
end DmaController

import DmaController.Bus

/-!
Plain registers, which hold what was written last and start at zero. Main statements: a word
reads back at its offset, and a write leaves the other offsets alone.
-/
namespace DmaController

structure RegisterFile where
  cells : List (Offset × Word) := []
  deriving DecidableEq, Repr

namespace RegisterFile

def get (file : RegisterFile) (offset : Offset) : Word := (file.cells.lookup offset).getD 0

def set (file : RegisterFile) (offset : Offset) (value : Word) : RegisterFile :=
  ⟨(offset, value) :: file.cells.filter (·.1 != offset)⟩

def ofList (cells : List (Offset × Word)) : RegisterFile :=
  cells.foldl (fun file cell => file.set cell.1 cell.2) {}

theorem lookup_filter_ne {cells : List (Offset × Word)} {a b : Offset} (h : b ≠ a) :
    (cells.filter (·.1 != a)).lookup b = cells.lookup b := by
  induction cells with
  | nil => rfl
  | cons cell cells ih =>
    obtain ⟨c, v⟩ := cell
    by_cases hc : c = a
    · subst hc
      have hb : (b == c) = false := beq_eq_false_iff_ne.2 h
      simp [List.lookup_cons, hb, ih]
    · simp [List.lookup_cons, hc, ih]

theorem get_set_self (file : RegisterFile) (offset : Offset) (value : Word) :
    (file.set offset value).get offset = value := by simp [get, set]

theorem get_set_of_ne (file : RegisterFile) {a b : Offset} (h : b ≠ a) (value : Word) :
    (file.set a value).get b = file.get b := by
  have hb : (b == a) = false := beq_eq_false_iff_ne.2 h
  simp [get, set, List.lookup_cons, hb, lookup_filter_ne h]

theorem get_set (file : RegisterFile) (a b : Offset) (value : Word) :
    (file.set a value).get b = if b = a then value else file.get b := by
  split
  · subst_vars
    exact get_set_self file _ value
  · exact get_set_of_ne file (by assumption) value

theorem get_empty (offset : Offset) : get {} offset = 0 := rfl

instance : RegisterBus RegisterFile where
  read offset file := (file.get offset, file)
  write offset value file := file.set offset value

end RegisterFile
end DmaController

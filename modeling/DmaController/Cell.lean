/-!
Exclusive access. A cell holds a value that one holder at a time may change; who comes while it is
held is turned away. A holder sees the cell as everybody else does: held.
-/
namespace DmaController

inductive Cell (α : Type) where
  | idle (value : α)
  | held
  deriving DecidableEq, Repr

/-- The fault of entering a cell that is held already. -/
inductive Reentry
  | reentered
  deriving DecidableEq, Repr

namespace Cell

variable {α β : Type}

def value? : Cell α → Option α
  | idle value => some value
  | held => none

/-- Runs `act` on the value and the cell as it is meanwhile. Entering a held cell is a fault. -/
def access (act : α → Cell α → β × α) : Cell α → Except Reentry (β × Cell α)
  | idle value =>
    let (result, value) := act value held
    .ok (result, idle value)
  | held => .error .reentered

/-- Runs `act` like `access`, and does nothing if the cell is held. -/
def tryAccess (act : α → Cell α → β × α) (cell : Cell α) : Option β × Cell α :=
  match cell.access act with
  | .ok (result, cell) => (some result, cell)
  | .error _ => (none, cell)

theorem access_held (act : α → Cell α → β × α) : held.access act = .error .reentered := rfl

theorem tryAccess_held (act : α → Cell α → β × α) : held.tryAccess act = (none, held) := rfl

theorem tryAccess_idle (act : α → Cell α → β × α) (value : α) :
    (idle value).tryAccess act = (some (act value held).1, idle (act value held).2) := rfl

end Cell
end DmaController

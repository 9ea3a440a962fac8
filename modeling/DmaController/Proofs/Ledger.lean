import DmaController.Proofs.Entries
import Mathlib.Algebra.GroupWithZero.Nat

/-!
The books of a driver. Every action that hands a slot out or takes slots back answers to the pool,
and nothing else moves a slot. The checks are the driver's own: nothing is assumed about the world,
so the books are kept on a bus whose registers show anything at all. Main statements: books balance,
and a slot that comes to be held was handed to the hardware in between.
-/
namespace DmaController

variable {slots size : Nat}

namespace Pool

theorem inFlight_replicate (base capacity : Nat) :
    ({ base, capacity, slots := Vector.replicate slots {} } : Pool slots size).inFlight = 0 := by
  simp [inFlight, Vector.countP_replicate, Slot.isInFlight, Slot.transferId?]

theorem inFlight_releaseAll (pool : Pool slots size) : pool.releaseAll.inFlight = 0 := by
  unfold inFlight releaseAll
  refine Vector.countP_eq_zero.2 fun slot hmem => ?_
  obtain ⟨old, -, rfl⟩ := Vector.mem_map.1 hmem
  simp [Slot.isInFlight_release]

variable [HasSlots slots]

theorem inFlight_submit {pool : Pool slots size} {id : TransferId}
    (h : (pool.slot id).isInFlight = false) (bytes : Nat) :
    (pool.submit id bytes).inFlight = pool.inFlight + 1 := by
  have hcell : pool.slots[(Pool.index slots id).val].isInFlight = false := h
  have hheld : ({ size := bytes, owner := .inFlight id } : Slot).isInFlight = true := rfl
  unfold inFlight submit
  rw [Vector.countP_set, hcell, hheld]
  simp

end Pool

namespace Action

def reclaim? : Action → Option TransferId
  | reclaimed id => some id
  | _ => none

def release? : Action → Option Nat
  | released count => some count
  | _ => none

/-- Whether it is a write of the submit register. -/
def isQueue : Action → Bool
  | write offset _ => offset == Register.submit
  | _ => false

/-- Actions that move no slot. -/
def IsIdle : Action → Prop
  | write offset _ => offset ≠ Register.submit
  | read .. | log _ | offered _ | delayed _ => True
  | submitted _ | delivered .. | reclaimed _ | released _ => False

end Action

theorem Action.IsPassive.isIdle {action : Action} (h : action.IsPassive) : action.IsIdle := by
  cases action <;> trivial

theorem Action.IsIdle.isQueue_eq {action : Action} (h : action.IsIdle) :
    action.isQueue = false := by
  cases action with
  | write offset value => exact beq_eq_false_iff_ne.2 h
  | _ => rfl

theorem Passive.isIdle {actions : List Action} (h : Passive actions) :
    ∀ action ∈ actions, action.IsIdle := fun action hmem => (h action hmem).isIdle

theorem deliveries_of_idle {actions : List Action} (h : ∀ action ∈ actions, action.IsIdle) :
    actions.filterMap Action.delivery? = [] := by
  refine List.filterMap_eq_nil_iff.2 fun action hmem => ?_
  have hidle := h action hmem
  cases action <;> first | rfl | exact hidle.elim

namespace Journal

def reclaims (journal : Journal) : List TransferId := journal.toList.filterMap Action.reclaim?

/-- The sizes of the releases of all slots at once. -/
def releases (journal : Journal) : List Nat := journal.toList.filterMap Action.release?

/-- The number of writes of the submit register. -/
def queued (journal : Journal) : Nat := journal.toList.countP Action.isQueue

end Journal

/-- The actions that hand the slot of a transfer to the hardware. -/
def Transfer.handover (transfer : Transfer) : List Action :=
  [.submitted transfer, .write Register.length (BitVec.ofNat 32 transfer.length - 1),
    .write transfer.direction.register transfer.address, .write Register.submit submitBit]

variable [HasSlots slots]

/-- Actions that belong together, and what becomes of the pool by them. -/
inductive Posting : Pool slots size → List Action → Pool slots size → Prop
  | idle (pool) {action : Action} (h : action.IsIdle) : Posting pool [action] pool
  | submit (pool) (transfer : Transfer) (h : (pool.slot transfer.id).isInFlight = false) :
      Posting pool transfer.handover (pool.submit transfer.id transfer.length)
  | deliver (pool) (id : TransferId) (data : Bytes)
      (h : (pool.slot id).transferId? = some id) :
      Posting pool [.delivered id data] (pool.release id)
  | reclaim (pool) (id previous : TransferId) (h : (pool.slot id).transferId? = some previous) :
      Posting pool [.reclaimed previous] (pool.release id)
  | release (pool) : Posting pool [.released pool.inFlight] pool.releaseAll

/-- One posting after the other. -/
inductive Ledger : Pool slots size → List Action → Pool slots size → Prop
  | nil (pool) : Ledger pool [] pool
  | cons {pool pool₁ pool' : Pool slots size} {actions later : List Action}
      (h : Posting pool actions pool₁) (hlater : Ledger pool₁ later pool') :
      Ledger pool (actions ++ later) pool'

section Ledger

variable {pool pool₁ pool' : Pool slots size} {actions later front back : List Action}
variable {id : TransferId} {data : Bytes} {i : Fin slots}

namespace Posting

theorem balance (h : Posting pool actions pool') :
    pool.inFlight + actions.countP Action.isQueue =
      pool'.inFlight + (actions.filterMap Action.delivery?).length +
        (actions.filterMap Action.reclaim?).length +
        (actions.filterMap Action.release?).sum := by
  have hheld : ∀ {id other : TransferId}, (pool.slot id).transferId? = some other →
      (pool.release id).inFlight + 1 = pool.inFlight := fun h =>
    Pool.inFlight_release (by rw [Slot.isInFlight, h]; rfl)
  cases h with
  | @idle action h =>
    rw [List.countP_singleton, h.isQueue_eq]
    cases action <;> first | rfl | exact h.elim
  | submit transfer hfree =>
    have hqueued : transfer.handover.countP Action.isQueue = 1 := by
      obtain ⟨direction, id, length, address⟩ := transfer
      cases direction <;> rfl
    rw [Pool.inFlight_submit hfree, hqueued]
    rfl
  | deliver id data hid => exact (hheld hid).symm
  | reclaim id previous hid => exact (hheld hid).symm
  | release =>
    rw [Pool.inFlight_releaseAll]
    exact (Nat.zero_add _).symm

/-- Only a handover makes a free slot a held one. -/
theorem handed (h : Posting pool actions pool') (hfree : (pool.slotAt i).isInFlight = false)
    (hheld : (pool'.slotAt i).isInFlight = true) :
    ∃ transfer : Transfer, Pool.index slots transfer.id = i ∧ actions = transfer.handover := by
  have hrelease : ∀ id, ((pool.release id).slotAt i).isInFlight = false := by
    intro id
    rw [Pool.slotAt_release]
    split_ifs
    · rfl
    · exact hfree
  cases h with
  | idle => cases hfree.symm.trans hheld
  | submit transfer =>
    rw [Pool.slotAt_submit] at hheld
    split_ifs at hheld with hindex
    · exact ⟨transfer, hindex.symm, rfl⟩
    · cases hfree.symm.trans hheld
  | deliver id | reclaim id => cases (hrelease id).symm.trans hheld
  | release => cases (congrArg Slot.isInFlight (pool.slotAt_releaseAll i)).symm.trans hheld

theorem of_delivered (h : Posting pool actions pool') (hmem : .delivered id data ∈ actions) :
    actions = [.delivered id data] ∧ (pool.slot id).transferId? = some id ∧
      pool' = pool.release id := by
  cases h with
  | idle h =>
    obtain rfl := List.mem_singleton.1 hmem
    exact h.elim
  | deliver id data h =>
    obtain ⟨rfl, rfl⟩ := Action.delivered.inj (List.mem_singleton.1 hmem)
    exact ⟨rfl, h, rfl⟩
  | submit | reclaim | release => simp [Transfer.handover] at hmem

theorem of_submitted {transfer : Transfer} (h : Posting pool actions pool')
    (hmem : .submitted transfer ∈ actions) : actions = transfer.handover := by
  cases h with
  | idle h =>
    obtain rfl := List.mem_singleton.1 hmem
    exact h.elim
  | submit other hfree =>
    have heq : transfer = other := by simpa [Transfer.handover] using hmem
    rw [heq]
  | deliver | reclaim | release => simp at hmem

/-- Each submission is queued once. -/
theorem length_submissions (h : Posting pool actions pool') :
    (actions.filterMap Action.submission?).length = actions.countP Action.isQueue := by
  cases h with
  | @idle action h =>
    rw [List.countP_singleton, h.isQueue_eq]
    cases action <;> first | rfl | exact h.elim
  | submit transfer hfree =>
    obtain ⟨direction, id, length, address⟩ := transfer
    cases direction <;> rfl
  | deliver | reclaim | release => rfl

end Posting

namespace Ledger

theorem single (h : Posting pool actions pool') : Ledger pool actions pool' := by
  rw [← List.append_nil actions]
  exact .cons h (.nil pool')

theorem append (h : Ledger pool actions pool₁) (hlater : Ledger pool₁ later pool') :
    Ledger pool (actions ++ later) pool' := by
  induction h with
  | nil => exact hlater
  | cons h _ ih =>
    rw [List.append_assoc]
    exact .cons h (ih hlater)

theorem idle (h : ∀ action ∈ actions, action.IsIdle) : Ledger pool actions pool := by
  induction actions with
  | nil => exact .nil pool
  | cons action actions ih =>
    obtain ⟨haction, hactions⟩ := List.forall_mem_cons.1 h
    exact .cons (.idle pool haction) (ih hactions)

theorem prepend {looked : List Action} (hlooked : Passive looked) (h : Ledger pool actions pool') :
    Ledger pool (looked ++ actions) pool' :=
  .append (.idle hlooked.isIdle) h

/-- What was in flight and what was queued is in flight, or was taken back. -/
theorem balance (h : Ledger pool actions pool') :
    pool.inFlight + actions.countP Action.isQueue =
      pool'.inFlight + (actions.filterMap Action.delivery?).length +
        (actions.filterMap Action.reclaim?).length +
        (actions.filterMap Action.release?).sum := by
  induction h with
  | nil => simp
  | cons h _ ih =>
    have hposting := h.balance
    simp only [List.countP_append, List.filterMap_append, List.length_append, List.sum_append]
    omega

/-- A slot that is free at first and held in the end was handed to the hardware in between. -/
theorem handed (h : Ledger pool actions pool') (hfree : (pool.slotAt i).isInFlight = false)
    (hheld : (pool'.slotAt i).isInFlight = true) :
    ∃ transfer : Transfer, Pool.index slots transfer.id = i ∧ transfer.handover <:+: actions := by
  induction h with
  | nil => cases hfree.symm.trans hheld
  | @cons pool pool₁ pool' actions later h _ ih =>
    cases hslot : (pool₁.slotAt i).isInFlight with
    | false =>
      obtain ⟨transfer, hindex, hinfix⟩ := ih hslot hheld
      exact ⟨transfer, hindex, hinfix.trans (List.suffix_append actions later).isInfix⟩
    | true =>
      obtain ⟨transfer, hindex, rfl⟩ := h.handed hfree hslot
      exact ⟨transfer, hindex, (List.prefix_append _ later).isInfix⟩

/-- At a delivery the slot is held, and it is free after it. -/
theorem cut (h : Ledger pool (front ++ .delivered id data :: back) pool') :
    ∃ pool₁, Ledger pool front pool₁ ∧ (pool₁.slot id).transferId? = some id ∧
      Ledger (pool₁.release id) back pool' := by
  generalize hwhole : front ++ .delivered id data :: back = whole at h
  induction h generalizing front with
  | nil => simp at hwhole
  | @cons pool pool₁ pool' actions later h hlater ih =>
    rcases List.append_eq_append_iff.1 hwhole with ⟨rest, hactions, hback⟩ | ⟨rest, rfl, hrest⟩
    · cases rest with
      | nil =>
        have hhead : [] ++ .delivered id data :: back = later := hback
        obtain ⟨pool₂, hfront, hid, hrest⟩ := ih hhead
        rw [List.append_nil] at hactions
        obtain rfl := hactions
        have hwhole := (single h).append hfront
        rw [List.append_nil] at hwhole
        exact ⟨pool₂, hwhole, hid, hrest⟩
      | cons first rest =>
        obtain ⟨rfl, rfl⟩ := List.cons.inj hback
        have hmem : .delivered id data ∈ actions := by simp [hactions]
        obtain ⟨heq, hid, rfl⟩ := h.of_delivered hmem
        obtain ⟨rfl, rfl⟩ : front = [] ∧ rest = [] := by
          have hlength := congrArg List.length (hactions.symm.trans heq)
          simp only [List.length_append, List.length_cons, List.length_nil] at hlength
          exact ⟨List.length_eq_zero_iff.1 (by omega), List.length_eq_zero_iff.1 (by omega)⟩
        exact ⟨pool, .nil pool, hid, hlater⟩
    · obtain ⟨pool₂, hfront, hid, hback⟩ := ih hrest.symm
      exact ⟨pool₂, .cons h hfront, hid, hback⟩

/-- Between two deliveries from one slot lies a handover of that slot. -/
theorem between {between : List Action} {other : TransferId} {data' : Bytes}
    (h : Ledger pool (front ++ .delivered id data ::
      (between ++ .delivered other data' :: back)) pool')
    (hslot : Pool.index slots other = Pool.index slots id) :
    ∃ transfer : Transfer, Pool.index slots transfer.id = Pool.index slots id ∧
      transfer.handover <:+: between := by
  obtain ⟨pool₁, -, -, hlater⟩ := h.cut
  obtain ⟨pool₂, hbetween, hother, -⟩ := hlater.cut
  refine hbetween.handed ?_ ?_
  · exact congrArg Slot.isInFlight (pool₁.slot_release_self id)
  · rw [← hslot]
    exact congrArg Option.isSome hother

/-- A transfer that is submitted is programmed and queued at once. -/
theorem handover {transfer : Transfer}
    (h : Ledger pool (front ++ .submitted transfer :: back) pool') :
    transfer.handover <+: .submitted transfer :: back := by
  generalize hwhole : front ++ .submitted transfer :: back = whole at h
  induction h generalizing front with
  | nil => simp at hwhole
  | @cons pool pool₁ pool' actions later h hlater ih =>
    rcases List.append_eq_append_iff.1 hwhole with ⟨rest, hactions, hback⟩ | ⟨rest, rfl, hrest⟩
    · cases rest with
      | nil =>
        have hhead : [] ++ .submitted transfer :: back = later := hback
        exact ih hhead
      | cons first rest =>
        obtain ⟨rfl, rfl⟩ := List.cons.inj hback
        have hmem : .submitted transfer ∈ actions := by simp [hactions]
        have hhandover := (h.of_submitted hmem).symm.trans hactions
        -- A handover has its submission in front, and there only.
        cases front with
        | nil =>
          rw [hhandover]
          exact List.prefix_append (.submitted transfer :: rest) later
        | cons other front =>
          have htail := congrArg List.tail hhandover
          have hmem : .submitted transfer ∈ transfer.handover.tail := by simp [htail]
          simp [Transfer.handover] at hmem
    · exact ih hrest.symm

/-- Each submission is queued once. -/
theorem length_submissions (h : Ledger pool actions pool') :
    (actions.filterMap Action.submission?).length = actions.countP Action.isQueue := by
  induction h with
  | nil => rfl
  | cons h _ ih =>
    rw [List.filterMap_append, List.length_append, List.countP_append, h.length_submissions, ih]

end Ledger
end Ledger

end DmaController

import DmaController.Proofs.Chronicle
import DmaController.Proofs.Quiescence

/-!
A refill leaves transfers in flight. If a slot is in flight before, it stays so. If none is, then
nothing is on its way in the hardware either: what the driver reads is what the engine shows, and
the first request gets the slot of the next id.
-/
namespace DmaController

open Sim

variable {slots size : Nat}

theorem Pool.inFlight_pos {pool : Pool slots size} :
    0 < pool.inFlight ↔ ∃ i : Fin slots, (pool.slotAt i).isInFlight = true := by
  refine Vector.countP_pos_iff.trans ⟨?_, ?_⟩
  · rintro ⟨slot, hmem, hslot⟩
    obtain ⟨i, hi, rfl⟩ := Vector.mem_iff_getElem.1 hmem
    exact ⟨⟨i, hi⟩, hslot⟩
  · rintro ⟨i, hi⟩
    exact ⟨_, Vector.getElem_mem i.isLt, hi⟩

theorem Requested.inFlight_pos {driver d : Driver slots size} {bytes : Nat} {actions : List Action}
    (h : Requested bytes driver d actions) (hpos : 0 < driver.inFlight) : 0 < d.inFlight := by
  obtain ⟨i, hi⟩ := Pool.inFlight_pos.1 hpos
  refine Pool.inFlight_pos.2 ⟨i, ?_⟩
  rw [h.slotAt_eq i hi]
  exact hi

/-- Started in a calm world, the program ends with `Q`. -/
def Ends {α : Type} (still : Engine) (program : DriverM Bench slots size α)
    (Q : α → Driver slots size → Prop) (driver : Driver slots size) : Prop :=
  ∀ port, Calm still port.world →
    Q (program.outcome driver port).1.1 (program.outcome driver port).1.2

namespace Ends

variable {α β : Type} {still : Engine} {driver driver₁ : Driver slots size} {b : β}
variable {Q : α → Driver slots size → Prop}

/-- The world stays calm, and what comes then ends with `Q`. -/
theorem look {program : DriverM Bench slots size β} {next : β → DriverM Bench slots size α}
    (h : Yields still program driver b driver₁) (hnext : Ends still (next b) Q driver₁) :
    Ends still (program >>= next) Q driver := by
  intro port hcalm
  rw [h.outcome_bind hcalm]
  exact hnext _ (h port hcalm).2

theorem get {next : Driver slots size → DriverM Bench slots size α}
    (h : Ends still (next driver) Q driver) : Ends still (MonadState.get >>= next) Q driver :=
  fun port hcalm => h port hcalm

theorem of_enters {program : DriverM Bench slots size α}
    (h : Enters program (fun a d _ => Q a d) driver) : Ends still program Q driver := by
  intro port _
  obtain ⟨_, -, hQ⟩ := h port
  exact hQ

/-- What comes then does not need a calm world. -/
theorem seq {program : DriverM Bench slots size β} {next : β → DriverM Bench slots size α}
    {R : β → Driver slots size → Prop} (h : Ends still program R driver)
    (hnext : ∀ b d, R b d → Enters (next b) (fun a d' _ => Q a d') d) :
    Ends still (program >>= next) Q driver := by
  intro port hcalm
  obtain ⟨_, -, hQ⟩ := hnext _ _ (h port hcalm) (program.outcome driver port).2
  exact hQ

end Ends

variable [HasSlots slots]

namespace Driver

variable {still : Engine} {driver : Driver slots size} {bytes granted : Nat} {id : TransferId}

theorem submitted_inFlight_pos (driver : Driver slots size) (transfer : Transfer) :
    0 < (driver.submitted transfer).inFlight := by
  refine Pool.inFlight_pos.2 ⟨Pool.index slots transfer.id, ?_⟩
  exact congrArg Slot.isInFlight (driver.pool.slot_submit_self transfer.id transfer.length)

section Calm

variable (hsize : driver.requestSize? bytes = some granted)
variable (hid : TransferId.ofWord? (still.nextId &&& transferIdField) = some id)
variable (hfree : (driver.pool.slot id).isInFlight = false)
include hsize hid hfree

theorem request_ends : Ends still (request bytes) (fun answer d =>
    answer = .ok id ∧ 0 < d.inFlight) driver := by
  unfold request
  refine .get ?_
  rw [hsize]
  refine .look (nextId?_yields hid) (.get ?_)
  rw [if_neg (by simp [hfree])]
  refine .of_enters (.seq (submit_enters _ _ _) ?_)
  intro _ d actions h
  obtain ⟨rfl, -⟩ := h
  exact .pure ⟨rfl, driver.submitted_inFlight_pos _⟩

theorem refill_ends : Ends still (refill bytes) (fun _ d => 0 < d.inFlight) driver := by
  refine .get (.look submitPending_yields ?_)
  rw [if_neg Bool.false_ne_true]
  refine .seq (request_ends hsize hid hfree) ?_
  intro answer d h
  obtain ⟨rfl, hpos⟩ := h
  refine .seq (requestUpTo_enters bytes _) ?_
  intro _ d' _ hrequested
  exact .pure (hrequested.inFlight_pos hpos)

end Calm

/-- After a collection it is the refill that decides what is in flight. -/
theorem refillStream_driver {port : Port (World Bench slots size)} {drained : Nat}
    (h : driver.stream = some bytes) : ((refillStream drained).outcome driver port).1.2 =
      ((refill bytes).outcome driver port).1.2 := by
  unfold refillStream
  rw [DriverM.outcome_get, h]
  change ((refill bytes >>= _).outcome driver port).1.2 = _
  rw [DriverM.outcome_bind]
  split <;> rfl

end Driver

/-- While the core runs, a refill leaves transfers in flight. -/
theorem Regular.refill_sustains {s : Scene Bench slots size}
    (hlawful : s.port.world.device.script.IsLawful) (hregular : s.bare.Regular)
    (hphase : s.known.phase = .running) {bytes granted : Nat}
    (hsize : s.driver.requestSize? bytes = some granted) :
    0 < ((Driver.refill bytes).outcome s.driver s.port).1.2.inFlight := by
  by_cases hpos : 0 < s.driver.inFlight
  · have henters : Enters (Driver.refill bytes : DriverM Bench slots size Nat)
        (fun _ => Requested bytes s.driver) s.driver :=
      Driver.refill_enters bytes
    obtain ⟨_, -, hrequested⟩ := henters s.port
    exact hrequested.inFlight_pos hpos
  have hfree : ∀ i : Fin slots, (s.driver.pool.slotAt i).isInFlight = false := by
    intro i
    refine Bool.eq_false_iff.2 fun hi => hpos ?_
    exact Pool.inFlight_pos.2 ⟨i, hi⟩
  have hunheld : ∀ id, ¬ s.driver.Holds id := by
    intro id hholds
    have hid : (s.driver.pool.slot id).isInFlight = true :=
      Option.isSome_iff_exists.2 ⟨id, hholds⟩
    cases (hfree _).symm.trans hid
  have hcustody := hregular.custody.running hphase
  -- A pending or outstanding transfer would hold its slot.
  have hpending : s.port.world.device.core.submitPending = false := by
    refine Bool.eq_false_iff.2 fun hpending => ?_
    obtain ⟨newest, -, -, hholds, -⟩ := hcustody.queued hpending
    exact hunheld newest.id hholds
  have houtstanding : s.port.world.device.core.outstanding = [] := by
    refine List.eq_nil_iff_forall_not_mem.2 fun n hn => ?_
    obtain ⟨transfer, -, hholds, -⟩ := hcustody.running n hn
    exact hunheld transfer.id hholds
  have hcalm : Calm s.port.world.device.core.toEngine s.port.world :=
    ⟨hlawful, hpending, houtstanding, rfl, rfl⟩
  have hlt : s.port.world.device.core.acceptId < transferIdCount := by
    have hlt : s.port.world.device.core.nextId.toNat < 31 := hcustody.nextId_lt
    rw [Engine.acceptId_of_lt _ hlt]
    exact hlt
  have hnext : TransferId.ofWord? (s.port.world.device.core.nextId &&& transferIdField) =
      some ⟨s.port.world.device.core.acceptId, hlt⟩ := TransferId.ofWord?_eq_some_iff.2 rfl
  exact Driver.refill_ends hsize hnext (hfree _) s.port hcalm

end DmaController

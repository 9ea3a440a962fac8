import DmaController.Proofs.Custody

/-!
No slot is taken back too early. Whenever the bytes of a slot are passed on, or a slot is reclaimed,
the transfer that the slot was last submitted for has since been accepted and completed, and nothing
was given up. A done bit that is left over from an older transfer is never taken for a new one.
-/
namespace DmaController

open Sim

variable {slots size : Nat} [HasSlots slots]

/-- Nothing was submitted into the slot, and nothing was given up. -/
def Quiet (slot : Fin slots) (events : List Event) : Prop :=
  ∀ event ∈ events, event ≠ .aborted ∧
    ∀ transfer, event = .noted (.submitted transfer) → Pool.index slots transfer.id ≠ slot

/-- The event took place when `P` held of the history, and the slot has been quiet since. -/
def Since (slot : Fin slots) (event : Event) (P : List Event → Prop) (past : List Event) : Prop :=
  ∃ later earlier, past = later ++ event :: earlier ∧ Quiet slot later ∧ P earlier

/-- The latest submission into the slot is of this transfer. -/
def Submitted (slot : Fin slots) (transfer : Transfer) : List Event → Prop :=
  Since slot (.noted (.submitted transfer)) fun _ => Pool.index slots transfer.id = slot

/-- The latest transfer of the slot was accepted. -/
def Started (slot : Fin slots) (transfer : Transfer) (past : List Event) : Prop :=
  ∃ accepted : Accepted, accepted.id = transfer.id.val ∧
    Since slot (.accepted accepted) (Submitted slot transfer) past

/-- The latest transfer of the slot was accepted and completed. -/
def Fulfilled (slot : Fin slots) (transfer : Transfer) : List Event → Prop :=
  Since slot (.completed transfer.id.val) (Started slot transfer)

section Stage

variable {slot : Fin slots} {transfer : Transfer} {event : Event} {P : List Event → Prop}
variable {past : List Event}

theorem Since.here (h : P past) : Since slot event P (event :: past) :=
  ⟨[], past, rfl, fun _ hmem => absurd hmem List.not_mem_nil, h⟩

theorem Since.cons {other : Event} (h : Since slot event P past) (hother : Quiet slot [other]) :
    Since slot event P (other :: past) := by
  obtain ⟨later, earlier, rfl, hquiet, hP⟩ := h
  refine ⟨other :: later, earlier, rfl, ?_, hP⟩
  intro event hmem
  rcases List.mem_cons.1 hmem with rfl | hmem
  · exact hother _ (List.mem_singleton_self _)
  · exact hquiet event hmem

/-- What a stage says of the history. -/
def Stage.Tells (slot : Fin slots) (past : List Event) : Stage → Prop
  | queued transfer => Submitted slot transfer past
  | running transfer => Started slot transfer past
  | finished transfer => Fulfilled slot transfer past
  | none | aborted _ => True

theorem Stage.Tells.cons {stage : Stage} (h : stage.Tells slot past) (hevent : Quiet slot [event]) :
    stage.Tells slot (event :: past) := by
  cases stage with
  | none | aborted => trivial
  | queued transfer => exact Since.cons h hevent
  | running transfer =>
    obtain ⟨accepted, hid, h⟩ := h
    exact ⟨accepted, hid, h.cons hevent⟩
  | finished transfer => exact Since.cons h hevent

theorem quiet_of_ne (hevent : event ≠ .aborted) (h : ∀ transfer,
    event.submission? = some transfer → Pool.index slots transfer.id ≠ slot) :
    Quiet slot [event] := by
  intro other hmem
  obtain rfl := List.mem_singleton.1 hmem
  exact ⟨hevent, fun transfer heq => h transfer (heq ▸ rfl)⟩

theorem quiet_of_none (hevent : event ≠ .aborted) (h : event.submission? = none) :
    Quiet slot [event] :=
  quiet_of_ne hevent fun transfer hsome => by cases h.symm.trans hsome

theorem Stage.Tells.accept {stage : Stage} (h : stage.Tells slot past) (accepted : Accepted) :
    (stage.accept accepted.id).Tells slot (.accepted accepted :: past) := by
  have hquiet : Quiet slot [.accepted accepted] := quiet_of_none (by simp) rfl
  cases stage with
  | queued transfer =>
    rw [Stage.accept]
    by_cases hid : transfer.id.val = accepted.id
    · rw [if_pos hid]
      exact ⟨accepted, hid.symm, Since.here h⟩
    · rw [if_neg hid]
      exact h.cons hquiet
  | none | running | finished | aborted => exact h.cons hquiet

theorem Stage.Tells.complete {stage : Stage} (h : stage.Tells slot past) (id : Nat) :
    (stage.complete id).Tells slot (.completed id :: past) := by
  have hquiet : Quiet slot [.completed id] := quiet_of_none (by simp) rfl
  cases stage with
  | running transfer =>
    rw [Stage.complete]
    by_cases hid : transfer.id.val = id
    · rw [if_pos hid]
      subst hid
      exact Since.here h
    · rw [if_neg hid]
      exact h.cons hquiet
  | none | queued | finished | aborted => exact h.cons hquiet

/-- Every stage is what it says. -/
theorem stage_tells (slot : Fin slots) (past : List Event) :
    (stage slot past).Tells slot past := by
  induction past with
  | nil => trivial
  | cons event past ih =>
    cases event with
    | accepted accepted => exact ih.accept accepted
    | completed id => exact ih.complete id
    | aborted =>
      rw [stage]
      cases stage slot past <;> trivial
    | written offset value pending => exact ih.cons (quiet_of_none (by simp) rfl)
    | noted action =>
      rw [stage]
      cases haction : action.submission? with
      | none =>
        exact ih.cons (quiet_of_none (by simp) haction)
      | some transfer =>
        obtain rfl := Action.eq_submitted haction
        dsimp only
        by_cases hslot : Pool.index slots transfer.id = slot
        · rw [if_pos hslot]
          exact Since.here hslot
        · rw [if_neg hslot]
          refine ih.cons (quiet_of_ne (by simp) ?_)
          intro other hother
          obtain rfl := Option.some.inj (haction.symm.trans hother)
          exact hslot

end Stage

/-- Every slot that was taken back had a fulfilled transfer. -/
def Vouched (slots : Nat) [HasSlots slots] : List Event → Prop
  | [] => True
  | event :: past => Vouched slots past ∧
    ∀ id, event.freed? = some id →
      ∃ transfer : Transfer, transfer.id = id ∧ Fulfilled (Pool.index slots id) transfer past

namespace Vouched

variable {past : List Event} {event : Event}

theorem cons (h : Vouched slots past) (hevent : event.freed? = none) :
    Vouched slots (event :: past) := by
  refine ⟨h, fun id hfreed => ?_⟩
  cases hevent.symm.trans hfreed

theorem of_append {later : List Event} (h : Vouched slots (later ++ past)) :
    Vouched slots past := by
  induction later with
  | nil => exact h
  | cons event later ih => exact ih h.1

theorem alike {e e' : Engine} (h : Vouched slots e.history) (he : e.Alike e') :
    Vouched slots e'.history := by
  rcases he.history_eq with heq | ⟨event, hplain, heq⟩
  · rw [heq]
    exact h
  · rw [heq]
    exact h.cons hplain.freed?_eq

variable {d d' : Driver slots size} {k k' : Known} {e e' : Engine}

/-- Slots are taken back one by one only on settled done bits. -/
theorem change (h : k.phase ≠ .lost → Vouched slots e.history) (hcustody : InCustody d k e)
    (hchange : Change d k e d' k' e') : k'.phase ≠ .lost → Vouched slots e'.history := by
  intro hlost
  cases hchange with
  | turn hturn =>
    cases hturn with
    | takeOver | complete => exact (h hlost).cons rfl
  | learn hphase => exact h (hphase ▸ hlost)
  | plain _ _ _ hphase _ _ he => exact (h (hphase ▸ hlost)).alike he
  | abort value =>
    have hold : k.phase ≠ .lost := fun hphase => hlost (by rw [hphase]; rfl)
    have hwritten : Vouched slots (.written Register.control value e.submitPending :: e.history) :=
      (h hold).cons rfl
    exact hwritten.cons rfl
  | halt hdraft henabled he =>
    have hold : k.phase ≠ .lost := fun hphase => hlost (by rw [hphase]; rfl)
    exact (h hold).alike he
  | mark transfer hdraft hquiet hid hadmits hphase =>
    have hold : k.phase ≠ .lost := fun hlost' => hlost (by rw [hphase, hlost']; rfl)
    exact (h hold).cons rfl
  | queue transfer hdraft hdrafted hquiet hcarries hphase => exact (h (hphase ▸ hlost)).cons rfl
  | release id previous action haction hdone hslot =>
    refine ⟨h hlost, fun id' hfreed => ?_⟩
    obtain rfl := Option.some.inj (haction.symm.trans hfreed)
    cases hphase : k.phase with
    | running =>
      have hrunning := hcustody.running hphase
      obtain ⟨hindex, -⟩ := hrunning.placed _ previous hslot
      obtain ⟨transfer, hid, hfinished⟩ := hrunning.finished_of_release hdone hslot
      refine ⟨transfer, hid, ?_⟩
      have htells := stage_tells (Pool.index slots id) e.history
      rw [hfinished] at htells
      rw [hindex]
      exact htells
    | halted =>
      obtain ⟨-, -, hnone⟩ := hcustody.halted hphase
      cases (hnone previous).symm.trans hdone
    | lost => exact absurd hphase hlost
  | restart hfree haddress hphase hphase' hdone hdraft hdraft' henabled he =>
    have hold : k.phase ≠ .lost := fun hlost' => hlost (by rw [hphase', hlost']; rfl)
    exact (h hold).alike he

end Vouched

theorem Scene.Attained.vouched {s : Scene Engine slots size}
    (h : s.Attained Engine.IsUnused) (hphase : s.known.phase ≠ .lost) :
    Vouched slots s.engine.history := by
  suffices hboth : InCustody s.driver s.known s.engine ∧
      (s.known.phase ≠ .lost → Vouched slots s.engine.history) from hboth.2 hphase
  refine h.invariant
    (P := fun d k e => InCustody d k e ∧ (k.phase ≠ .lost → Vouched slots e.history)) ?_ ?_
  · intro d e _ he
    refine ⟨⟨by simp, fun _ => ⟨he.toIsIdle, rfl, DoneBits.isDone_none⟩⟩, fun _ => ?_⟩
    rw [he.history_eq]
    trivial
  · intro d k e d' k' e' hsound h hchange
    exact ⟨h.1.change hsound hchange, Vouched.change h.2 h.1 hchange⟩

namespace Session

variable {phase : Phase} {rig : Rig slots size}

/-- A slot is delivered or reclaimed only after its latest transfer has been fulfilled. -/
theorem freed_fulfilled (h : Session Engine.IsUnused phase rig) (hphase : phase ≠ .lost)
    {later past : List Event} {action : Action} {id : TransferId}
    (hhistory : rig.core.history = later ++ .noted action :: past)
    (haction : action.freed? = some id) :
    ∃ transfer : Transfer, transfer.id = id ∧ Fulfilled (Pool.index slots id) transfer past := by
  obtain ⟨-, known, hends, hattained⟩ := h.attained
  have hnot : known.phase ≠ .lost := (hends.phase_eq.resolve_left hphase).symm ▸ hphase
  have hvouched := hattained.vouched hnot
  change Vouched slots rig.core.history at hvouched
  rw [hhistory] at hvouched
  exact hvouched.of_append.2 id haction

/-- Two bytes were sent, and their transfer was completed and collected. -/
def collected : Rig 2 16 :=
  Call.collect.perform (((Call.send fun _ => (#[1, 2], 2)).perform Rig.small).stimulate (.finish 0))

theorem freed_fulfilled_collected :
    collected.core.history =
      [] ++ .noted (.delivered .first #[1, 2]) :: collected.core.history.tail ∧
    ∃ transfer : Transfer, transfer.id = .first ∧
      Fulfilled (Pool.index 2 .first) transfer collected.core.history.tail := by
  have hsent := Rig.small_session.call (.send fun _ => (#[1, 2], 2))
  have hsession : Session Engine.IsUnused .running collected :=
    (hsent.stimulus (.finish 0) trivial).call .collect
  have hhistory : collected.core.history =
      [] ++ .noted (.delivered .first #[1, 2]) :: collected.core.history.tail := by decide +kernel
  exact ⟨hhistory, freed_fulfilled hsession (by simp) hhistory rfl⟩

end Session
end DmaController

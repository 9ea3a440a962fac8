import DmaController.Proofs.Custody

/-!
Driver and hardware agree about who owns the slots. Between the calls of a session, every
outstanding transfer and the pending one hold their own slots, and every slot in flight has its
transfer in exactly one of three places. Dropping the driver leaves a core that the next one can be
started on.
-/
namespace DmaController

open Sim

/-- Where the transfer is that a slot is in flight for. -/
inductive Whereabouts
  | pending
  | outstanding
  | completed
  deriving DecidableEq, Repr

variable {slots size : Nat} [HasSlots slots]

/-- The transfer `id` is there. The done bit of a pending id is an old one and tells nothing. -/
def Whereabouts.Has (driver : Driver slots size) (engine : Engine) (id : TransferId) :
    Whereabouts → Prop
  | pending => engine.submitPending = true ∧ driver.newest = some id
  | outstanding => id.val ∈ engine.outstanding
  | completed => engine.isDone id.val = true ∧
      ¬ (engine.submitPending = true ∧ driver.newest = some id)

/-- Driver and engine agree about the slots. -/
structure Agrees (driver : Driver slots size) (engine : Engine) : Prop where
  nodup : engine.outstanding.Nodup
  holds_of_outstanding : ∀ n ∈ engine.outstanding, ∃ id : TransferId, id.val = n ∧ driver.Holds id
  holds_of_pending : engine.submitPending = true → ∃ id : TransferId,
    driver.newest = some id ∧ engine.nextId.toNat = id.val ∧ driver.Holds id
  index_eq : ∀ (i : Fin slots) (id : TransferId), (driver.pool.slotAt i).transferId? = some id →
    Pool.index slots id = i
  whereabouts : ∀ (i : Fin slots) (id : TransferId), (driver.pool.slotAt i).transferId? = some id →
    ∃! place : Whereabouts, place.Has driver engine id

namespace Custody

variable {d : Driver slots size} {k : Known} {e : Engine}

/-- A transfer in two places would be in two stages. -/
theorem place_unique (h : Custody d k e) {id : TransferId} {place place' : Whereabouts}
    (hplace : place.Has d e id) (hplace' : place'.Has d e id) : place = place' := by
  have hpending : e.submitPending = true ∧ d.newest = some id → id.val ∈ e.outstanding → False := by
    intro hnew hmem
    obtain ⟨newest, hnewest, -, -, hqueued⟩ := h.queued hnew.1
    obtain ⟨transfer, hid, -, -, hrunning⟩ := h.running _ hmem
    have heq : transfer.id = newest.id :=
      (Fin.ext hid).trans (Option.some.inj (hnew.2.symm.trans hnewest))
    rw [heq, hqueued] at hrunning
    cases hrunning
  have hdone : e.isDone id.val = true → id.val ∈ e.outstanding → False := by
    intro hbit hmem
    obtain ⟨-, -, -, hnot, -⟩ := h.running _ hmem
    cases hnot.symm.trans hbit
  cases place <;> cases place'
  · rfl
  · exact (hpending hplace hplace').elim
  · exact absurd hplace hplace'.2
  · exact (hpending hplace' hplace).elim
  · rfl
  · exact (hdone hplace'.1 hplace).elim
  · exact absurd hplace' hplace.2
  · exact (hdone hplace.1 hplace').elim
  · rfl

theorem agrees (h : Custody d k e) (hdraft : k.draft = .none) : Agrees d e where
  nodup := h.nodup
  holds_of_outstanding n hn := by
    obtain ⟨transfer, hid, hholds, -⟩ := h.running n hn
    exact ⟨transfer.id, hid, hholds⟩
  holds_of_pending hpending := by
    obtain ⟨newest, hnewest, hid, hholds, -⟩ := h.queued hpending
    exact ⟨newest.id, hnewest, (e.acceptId_of_lt h.nextId_lt).symm.trans hid, hholds⟩
  index_eq i id hslot := (h.placed i id hslot).1
  whereabouts i id hslot := by
    obtain ⟨hindex, hplace⟩ := h.placed i id hslot
    have hhas : ∃ place : Whereabouts, place.Has d e id := by
      rcases hplace with ⟨transfer, ht, -⟩ | hnew | hmem | ⟨hbit, transfer, rfl, hfinished⟩
      · simp [hdraft, Draft.transfer?] at ht
      · exact ⟨.pending, hnew⟩
      · exact ⟨.outstanding, hmem⟩
      · refine ⟨.completed, hbit, fun hnew => ?_⟩
        obtain ⟨newest, hnewest, -, -, hqueued⟩ := h.queued hnew.1
        obtain heq := Option.some.inj (hnew.2.symm.trans hnewest)
        rw [← hindex, heq, hqueued] at hfinished
        cases hfinished
    obtain ⟨place, hplace⟩ := hhas
    exact ⟨place, hplace, fun _ hother => h.place_unique hother hplace⟩

end Custody

namespace Session

variable {phase : Phase} {rig : Rig slots size}

/-- A core that a driver was dropped from is as good as a fresh one. -/
theorem isIdle_close (h : Session Engine.IsIdle phase rig) (hphase : phase ≠ .lost) :
    (rig.run Driver.close).core.toEngine.IsIdle := by
  obtain ⟨hlawful, known, hends, hattained⟩ := h.attained
  obtain ⟨known', hpath, hknown⟩ :=
    Rig.run_path (Driver.close_leads hends.draft_eq)
  have hold : known.phase = phase := hends.phase_eq.resolve_left hphase
  have hhalted : known'.phase = .halted := by
    refine (congrArg Known.phase hknown).trans ?_
    change known.phase.halt = .halted
    rw [hold]
    cases phase with
    | lost => exact absurd rfl hphase
    | running | halted => rfl
  have hattained' := hattained.path (hpath.bare hlawful).2
  exact ((hattained'.inCustody fun _ => id).halted hhalted).1

/-- While the driver of a session runs, it and the hardware agree about the slots. The session may have
begun on any core with nothing queued, outstanding or done and the next id zero, which a fresh core
is and, by `isIdle_close`, one that a driver was just dropped from. -/
theorem ownership_agrees (h : Session Engine.IsIdle .running rig) :
    Agrees rig.driver rig.core.toEngine := by
  obtain ⟨-, known, hends, hattained⟩ := h.attained
  have hphase : known.phase = .running := hends.phase_eq.resolve_left (by simp)
  exact ((hattained.inCustody fun _ => id).running hphase).agrees hends.draft_eq

/-- One transfer is outstanding and one is pending. -/
theorem ownership_agrees_two_sent :
    let first := (Call.send fun _ => (#[1, 2], 2)).perform Rig.small
    let rig := (Call.send fun _ => (#[3], 1)).perform (first.stimulate (.autoAccept false))
    rig.core.outstanding = [0] ∧ rig.core.submitPending = true ∧
      Agrees rig.driver rig.core.toEngine := by
  have hsmall := Rig.small_session.mono fun _ h => h.toIsIdle
  have hfirst := hsmall.call (.send fun _ => (#[1, 2], 2))
  have hslow := hfirst.stimulus (.autoAccept false) trivial
  exact ⟨rfl, rfl, ownership_agrees (hslow.call (.send fun _ => (#[3], 1)))⟩

end Session
end DmaController

import DmaController.Proofs.Custody
import Mathlib.Data.List.Forall2
import Mathlib.Data.List.Nodup
import Mathlib.Order.Fin.Basic

/-!
The transfers in flight, in the order in which they were submitted. The history tells which they are
and which of the accepted ones are not completed. Main statement: while the core runs and completes
the oldest transfer first, the completed transfers in flight stand in front of the others.
-/
namespace DmaController

open Sim

namespace Sim

def Event.accepted? : Event → Option Accepted
  | accepted transfer => some transfer
  | _ => none

def Event.delivery? (event : Event) : Option (TransferId × Bytes) :=
  event.action?.bind Action.delivery?

/-- The events since everything was given up for the last time. -/
def sinceAbort : List Event → List Event
  | [] => []
  | .aborted :: _ => []
  | event :: past => event :: sinceAbort past

/-- What `f` reads off the events since the last abort, oldest first. -/
def recent {α : Type} (f : Event → Option α) (history : List Event) : List α :=
  (sinceAbort history).reverse.filterMap f

/-- The ids that were accepted and not completed since the last abort, oldest first. -/
def unfinished : List Event → List Nat
  | [] => []
  | .aborted :: _ => []
  | .accepted transfer :: past => unfinished past ++ [transfer.id]
  | .completed id :: past => (unfinished past).filter (· != id)
  | _ :: past => unfinished past

/-- Since the last abort, only the oldest of the unfinished transfers was ever completed. -/
def InOrder : List Event → Prop
  | [] => True
  | .aborted :: _ => True
  | .completed id :: past => (unfinished past).head? = some id ∧ InOrder past
  | _ :: past => InOrder past

instance decidableInOrder : (history : List Event) → Decidable (InOrder history)
  | [] => .isTrue trivial
  | .aborted :: _ => .isTrue trivial
  | .completed _ :: past =>
    have := decidableInOrder past
    inferInstanceAs (Decidable (_ ∧ _))
  | .accepted _ :: past => decidableInOrder past
  | .written .. :: past => decidableInOrder past
  | .noted _ :: past => decidableInOrder past

/-- The submissions since the last abort whose slots were not taken back, oldest first. -/
def flight : List Event → List Transfer
  | [] => []
  | .aborted :: _ => []
  | event :: past =>
    match event.freed? with
    | some id => (flight past).filter (·.id != id)
    | none => flight past ++ event.submission?.toList

section History

variable {α : Type} {f : Event → Option α} {event : Event} {past : List Event}

theorem sinceAbort_cons (h : event ≠ .aborted) :
    sinceAbort (event :: past) = event :: sinceAbort past := by
  cases event <;> first | rfl | exact absurd rfl h

theorem recent_cons (h : event ≠ .aborted) :
    recent f (event :: past) = recent f past ++ (f event).toList := by
  unfold recent
  rw [sinceAbort_cons h, List.reverse_cons, List.filterMap_append]
  cases hf : f event <;> simp [hf]

theorem recent_cons_none (hevent : event ≠ .aborted) (h : f event = none) :
    recent f (event :: past) = recent f past := by
  rw [recent_cons hevent, h]
  exact List.append_nil _

theorem flight_freed {id : TransferId} (h : event.freed? = some id) :
    flight (event :: past) = (flight past).filter (·.id != id) := by
  cases event with
  | noted => simp only [flight, h]
  | _ => cases h

theorem flight_cons (hevent : event ≠ .aborted) (h : event.freed? = none) :
    flight (event :: past) = flight past ++ event.submission?.toList := by
  cases event with
  | aborted => exact absurd rfl hevent
  | noted => simp only [flight, h]
  | _ => rfl

theorem flight_cons_none (hevent : event ≠ .aborted) (h : event.freed? = none)
    (hnone : event.submission? = none) : flight (event :: past) = flight past := by
  rw [flight_cons hevent h, hnone]
  exact List.append_nil _

/-- An abort forgets all; anything else adds to what was. -/
theorem InOrder.of_cons (hevent : event ≠ .aborted) (h : InOrder (event :: past)) :
    InOrder past := by
  cases event with
  | aborted => exact absurd rfl hevent
  | completed => exact h.2
  | accepted | written | noted => exact h

end History
end Sim

namespace Sim

variable {α : Type} {f : Event → Option α} {event : Event} {e e' : Engine}

theorem Event.IsPlain.ne_aborted (h : event.IsPlain) : event ≠ .aborted := by
  rintro rfl
  exact h

theorem Event.IsPlain.submission?_eq (h : event.IsPlain) : event.submission? = none := by
  cases event with
  | noted => exact h.1
  | written => rfl
  | accepted | completed | aborted => exact h.elim

theorem recent_alike (he : e.Alike e') (hf : ∀ event : Event, event.IsPlain → f event = none) :
    recent f e'.history = recent f e.history := by
  rcases he.history_eq with heq | ⟨event, hplain, heq⟩
  · rw [heq]
  · rw [heq, recent_cons_none hplain.ne_aborted (hf event hplain)]

theorem flight_alike (he : e.Alike e') : flight e'.history = flight e.history := by
  rcases he.history_eq with heq | ⟨event, hplain, heq⟩
  · rw [heq]
  · rw [heq, flight_cons_none hplain.ne_aborted hplain.freed?_eq hplain.submission?_eq]

theorem unfinished_alike (he : e.Alike e') : unfinished e'.history = unfinished e.history := by
  rcases he.history_eq with heq | ⟨event, hplain, heq⟩
  · rw [heq]
  · rw [heq]
    cases event with
    | written | noted => rfl
    | accepted | completed | aborted => exact hplain.elim

theorem inOrder_alike (he : e.Alike e') : InOrder e'.history ↔ InOrder e.history := by
  rcases he.history_eq with heq | ⟨event, hplain, heq⟩
  · rw [heq]
  · rw [heq]
    cases event with
    | written | noted => exact Iff.rfl
    | accepted | completed | aborted => exact hplain.elim

end Sim

variable {slots size : Nat} [HasSlots slots]

/-- The transfers in flight hold their slots, each its own, and no other slot is in flight. The
newest submission is the last of them, if it is among them. -/
structure Lined (d : Driver slots size) (flight : List Transfer) : Prop where
  slot_eq : ∀ transfer ∈ flight, d.pool.slot transfer.id = ⟨transfer.length, .inFlight transfer.id⟩
  mem_of_slot : ∀ (i : Fin slots) (id : TransferId), (d.pool.slotAt i).transferId? = some id →
    ∃ transfer ∈ flight, transfer.id = id ∧ Pool.index slots id = i
  apart : (flight.map fun transfer => Pool.index slots transfer.id).Nodup
  last_of_newest : ∀ transfer ∈ flight, d.newest = some transfer.id →
    flight.getLast? = some transfer

namespace Lined

variable {d d' : Driver slots size} {flight : List Transfer} {transfer other : Transfer}

theorem nil (hfree : ∀ i : Fin slots, (d.pool.slotAt i).transferId? = none) : Lined d [] where
  slot_eq _ hmem := absurd hmem List.not_mem_nil
  mem_of_slot i id hslot := by cases (hfree i).symm.trans hslot
  apart := List.nodup_nil
  last_of_newest _ hmem := absurd hmem List.not_mem_nil

theorem same (h : Lined d flight) (hpool : d'.pool = d.pool) (hnewest : d'.newest = d.newest) :
    Lined d' flight := by
  obtain ⟨hslot, hmem, hapart, hlast⟩ := h
  refine ⟨?_, ?_, hapart, ?_⟩
  · rw [hpool]
    exact hslot
  · rw [hpool]
    exact hmem
  · rw [hnewest]
    exact hlast

theorem holds (h : Lined d flight) (hmem : transfer ∈ flight) : d.Holds transfer.id :=
  congrArg Slot.transferId? (h.slot_eq transfer hmem)

/-- Two transfers in flight of one slot are the same. -/
theorem eq_of_index (h : Lined d flight) (hmem : transfer ∈ flight) (hother : other ∈ flight)
    (hindex : Pool.index slots transfer.id = Pool.index slots other.id) : transfer = other :=
  List.inj_on_of_nodup_map h.apart hmem hother hindex

/-- Transfers at different places in the line have different ids. -/
theorem ne_of_split {front back : List Transfer} (h : Lined d (front ++ back))
    (hfront : transfer ∈ front) (hback : other ∈ back) : transfer.id ≠ other.id := by
  have hapart := h.apart
  rw [List.map_append] at hapart
  intro heq
  exact (List.nodup_append.1 hapart).2.2 _ (List.mem_map.2 ⟨transfer, hfront, rfl⟩) _
    (List.mem_map.2 ⟨other, hback, rfl⟩) (congrArg (Pool.index slots) heq)

theorem mark (h : Lined d flight) (hadmits : d.Admits transfer) :
    Lined (d.submitted transfer) (flight ++ [transfer]) := by
  have hne : ∀ other ∈ flight, Pool.index slots other.id ≠ Pool.index slots transfer.id := by
    intro other hmem hindex
    have hfree : (d.pool.slot other.id).isInFlight = false := by
      rw [d.pool.slot_of_index hindex]
      exact hadmits.free
    rw [h.slot_eq other hmem] at hfree
    cases hfree
  refine ⟨?_, ?_, ?_, ?_⟩
  · intro other hmem
    rcases List.mem_append.1 hmem with hmem | hmem
    · exact (Pool.slot_submit_of_ne _ (hne other hmem) _).trans (h.slot_eq other hmem)
    · obtain rfl := List.mem_singleton.1 hmem
      exact Pool.slot_submit_self ..
  · intro i id hslot
    have hcell := d.pool.slotAt_submit transfer.id transfer.length i
    by_cases hi : i = Pool.index slots transfer.id
    · rw [if_pos hi] at hcell
      obtain rfl := Option.some.inj ((congrArg Slot.transferId? hcell).symm.trans hslot)
      exact ⟨transfer, List.mem_append_right _ (List.mem_singleton_self _), rfl, hi.symm⟩
    · rw [if_neg hi] at hcell
      have hold := (congrArg Slot.transferId? hcell).symm.trans hslot
      obtain ⟨other, hmem, hother⟩ := h.mem_of_slot i id hold
      exact ⟨other, List.mem_append_left _ hmem, hother⟩
  · rw [List.map_append]
    refine List.nodup_append.2 ⟨h.apart, List.nodup_singleton _, ?_⟩
    intro slot hslot new hnew
    obtain ⟨other, hmem, rfl⟩ := List.mem_map.1 hslot
    obtain rfl := List.mem_singleton.1 hnew
    exact hne other hmem
  · intro other hmem hnewest
    rcases List.mem_append.1 hmem with hmem | hmem
    · have hid : transfer.id = other.id := Option.some.inj hnewest
      exact absurd (congrArg (Pool.index slots) hid.symm) (hne other hmem)
    · obtain rfl := List.mem_singleton.1 hmem
      exact List.getLast?_concat

theorem release (h : Lined d flight) {id previous : TransferId}
    (hslot : (d.pool.slot id).transferId? = some previous)
    (hindex : Pool.index slots previous = Pool.index slots id) :
    Lined (d.withPool (d.pool.release id)) (flight.filter (·.id != previous)) := by
  have hsplit : ∀ {other : Transfer}, other ∈ flight.filter (·.id != previous) →
      other ∈ flight ∧ other.id ≠ previous := by
    intro other hmem
    obtain ⟨hmem, hne⟩ := List.mem_filter.1 hmem
    exact ⟨hmem, by simpa using hne⟩
  refine ⟨?_, ?_, h.apart.sublist (List.filter_sublist.map _), ?_⟩
  · intro other hmem
    obtain ⟨hmem, hne⟩ := hsplit hmem
    have hother : Pool.index slots other.id ≠ Pool.index slots id := by
      intro heq
      rw [← d.pool.slot_of_index heq, h.slot_eq other hmem] at hslot
      exact hne (Option.some.inj hslot)
    exact (Pool.slot_release_of_ne _ hother).trans (h.slot_eq other hmem)
  · intro i other hheld
    obtain ⟨transfer, hmem, rfl, hi⟩ := h.mem_of_slot i other (Pool.transferId?_of_release hheld)
    refine ⟨transfer, List.mem_filter.2 ⟨hmem, ?_⟩, rfl, hi⟩
    rw [bne_iff_ne]
    rintro rfl
    have hcell := d.pool.slotAt_release id i
    rw [if_pos (hi.symm.trans hindex)] at hcell
    cases (congrArg Slot.transferId? hcell).symm.trans hheld
  · intro other hmem hnewest
    obtain ⟨hmem', -⟩ := hsplit hmem
    obtain ⟨front, heq⟩ := List.getLast?_eq_some_iff.1 (h.last_of_newest other hmem' hnewest)
    have hkeep := (List.mem_filter.1 hmem).2
    have hsingle : [other].filter (·.id != previous) = [other] := by simp [hkeep]
    rw [heq, List.filter_append, hsingle]
    exact List.getLast?_concat

end Lined

/-- While the core runs the transfers in flight are lined up; after a halt there are none. -/
structure InLine (d : Driver slots size) (k : Known) (e : Engine) : Prop where
  running : k.phase = .running → Lined d (flight e.history)
  halted : k.phase = .halted → flight e.history = []

section Change

variable {d d' : Driver slots size} {k k' : Known} {e e' : Engine}

omit [HasSlots slots] in
theorem flight_turn (hturn : Turn e e') : flight e'.history = flight e.history := by
  cases hturn with
  | takeOver | complete => exact flight_cons_none (by simp) rfl rfl

theorem InLine.change (h : InLine d k e) (hcustody : InCustody d k e)
    (hchange : Change d k e d' k' e') : InLine d' k' e' := by
  cases hchange with
  | turn hturn =>
    refine ⟨fun hrunning => ?_, fun hhalted => (flight_turn hturn).trans (h.halted hhalted)⟩
    rw [flight_turn hturn]
    exact h.running hrunning
  | learn hphase => exact ⟨fun hk => h.running (hphase ▸ hk), fun hk => h.halted (hphase ▸ hk)⟩
  | plain hpool hconfig hnewest hphase hdone hdraft he =>
    refine ⟨fun hrunning => ?_, fun hhalted => ?_⟩
    · rw [flight_alike he]
      exact (h.running (hphase ▸ hrunning)).same hpool hnewest
    · exact (flight_alike he).trans (h.halted (hphase ▸ hhalted))
  | abort => exact ⟨fun hrunning => absurd hrunning k.phase.halt_ne_running, fun _ => rfl⟩
  | halt hdraft hdisabled he =>
    refine ⟨fun hrunning => absurd hrunning k.phase.halt_ne_running, fun hhalted => ?_⟩
    cases hphase : k.phase with
    | running => cases (hcustody.running hphase).enabled.symm.trans hdisabled
    | halted => exact (flight_alike he).trans (h.halted hphase)
    | lost => simp [hphase, Phase.halt] at hhalted
  | mark transfer hdraft hquiet hid hadmits hphase =>
    cases hold : k.phase with
    | running =>
      refine ⟨fun _ => ?_, fun hhalted => by simp [hphase, hold, Phase.submit] at hhalted⟩
      have hflight : flight (.noted (.submitted transfer) :: e.history) =
          flight e.history ++ [transfer] := flight_cons (by simp) rfl
      change Lined _ (flight (.noted (.submitted transfer) :: e.history))
      rw [hflight]
      exact (h.running hold).mark hadmits
    | halted | lost => constructor <;> simp [hphase, hold, Phase.submit]
  | queue transfer hdraft hdrafted hquiet hcarries hphase =>
    have hflight : flight (.written Register.submit submitBit false :: e.history) =
        flight e.history := flight_cons_none (by simp) rfl rfl
    refine ⟨fun hrunning => ?_, fun hhalted => hflight.trans (h.halted (hphase ▸ hhalted))⟩
    change Lined d (flight (.written Register.submit submitBit false :: e.history))
    rw [hflight]
    exact h.running (hphase ▸ hrunning)
  | release id previous action haction hdone hslot =>
    have hflight : flight (.noted action :: e.history) = _ := flight_freed haction
    refine ⟨fun hrunning => ?_, fun hhalted => ?_⟩
    · change Lined _ (flight (.noted action :: e.history))
      rw [hflight]
      exact (h.running hrunning).release hslot ((hcustody.running hrunning).placed _ _ hslot).1
    · refine hflight.trans ?_
      rw [h.halted hhalted]
      rfl
  | restart hfree haddress hphase hphase' hdone hdraft hdraft' henabled he =>
    refine ⟨fun hrunning => ?_, fun hhalted => ?_⟩
    · cases hold : k.phase with
      | running => exact absurd hold hphase
      | halted =>
        rw [flight_alike he, h.halted hold]
        refine .nil fun i => ?_
        rw [hfree]
        rfl
      | lost => simp [hphase', hold, Phase.restart] at hrunning
    · exact absurd (hphase'.symm.trans hhalted) k.phase.restart_ne_halted

/-- What is submitted and not accepted. -/
def awaited (k : Known) (e : Engine) : List Nat :=
  if e.submitPending then [e.acceptId] else (k.draft.transfer?.map (·.id.val)).toList

/-- The transfers in flight are first finished ones, then the outstanding ones in the order of their
acceptance, and then the one that awaits its acceptance. -/
def FinishedFirst (k : Known) (e : Engine) : Prop :=
  ∃ finished waiting, flight e.history = finished ++ waiting ∧
    waiting.map (·.id.val) = e.outstanding ++ awaited k e ∧
    ∀ transfer ∈ finished, e.isDone transfer.id.val = true

theorem unfinished_change (h : e.outstanding = unfinished e.history)
    (hchange : Change d k e d' k' e') : e'.outstanding = unfinished e'.history := by
  cases hchange with
  | turn hturn =>
    cases hturn with
    | takeOver => exact congrArg (· ++ [e.acceptId]) h
    | complete id => exact congrArg (List.filter (· != id)) h
  | learn => exact h
  | plain _ _ _ _ _ _ he => rw [unfinished_alike he, he.outstanding_eq, h]
  | abort => rfl
  | halt _ _ he => rw [unfinished_alike he, he.outstanding_eq, h]
  | mark => exact h
  | queue => exact h
  | release => exact h
  | restart _ _ _ _ _ _ _ _ he => rw [unfinished_alike he, he.outstanding_eq, h]

end Change

namespace FinishedFirst

variable {d d' : Driver slots size} {k k' : Known} {e e' : Engine} {transfer : Transfer}

omit [HasSlots slots] in
theorem awaited_pending (h : e.submitPending = true) : awaited k e = [e.acceptId] := if_pos h

theorem awaited_quiet (h : e.submitPending = false) :
    awaited k e = (k.draft.transfer?.map (·.id.val)).toList := by
  rw [awaited, h]
  rfl

theorem takeOver (h : FinishedFirst k e) (hline : Lined d (flight e.history))
    (hdraft : k.draft.transfer? = none) (hpending : e.submitPending = true) :
    FinishedFirst k e.takeOver := by
  obtain ⟨finished, waiting, hflight, hwaiting, hdone⟩ := h
  rw [awaited_pending hpending] at hwaiting
  have hawaited : awaited k e.takeOver = [] := by
    rw [awaited_quiet rfl, hdraft]
    rfl
  refine ⟨finished, waiting, ?_, ?_, ?_⟩
  · rw [flight_turn (.takeOver e hpending), hflight]
  · rw [hwaiting, hawaited, List.append_nil]
    rfl
  · intro transfer hmem
    have hne : transfer.id.val ≠ e.acceptId := by
      have haccept : e.acceptId ∈ waiting.map (·.id.val) := by simp [hwaiting]
      obtain ⟨newest, hnewest, hid⟩ := List.mem_map.1 haccept
      rw [← hid]
      rw [hflight] at hline
      exact fun heq => hline.ne_of_split hmem hnewest (Fin.ext heq)
    rw [e.isDone_takeOver transfer.id.val_lt, hdone transfer hmem, decide_eq_true hne]
    rfl

/-- The oldest unfinished transfer joins the finished ones. -/
theorem complete (h : FinishedFirst k e) {id : Nat} (hnodup : e.outstanding.Nodup)
    (holdest : e.outstanding.head? = some id) : FinishedFirst k (e.complete id) := by
  obtain ⟨finished, waiting, hflight, hwaiting, hdone⟩ := h
  obtain ⟨rest, houtstanding⟩ := List.head?_eq_some_iff.1 holdest
  rw [houtstanding, List.cons_append] at hwaiting
  obtain ⟨oldest, waiting, rfl, hid, hrest⟩ := List.map_eq_cons_iff.1 hwaiting
  refine ⟨finished ++ [oldest], waiting, ?_, ?_, ?_⟩
  · rw [List.append_assoc]
    exact (flight_cons_none (by simp) rfl rfl).trans hflight
  · have hkept : (e.complete id).outstanding = rest := by
      rw [houtstanding] at hnodup
      have hnot := (List.nodup_cons.1 hnodup).1
      have hrest : rest.filter (· != id) = rest := by
        refine List.filter_eq_self.2 fun n hn => ?_
        rw [bne_iff_ne]
        rintro rfl
        exact hnot hn
      simp [Engine.complete, houtstanding, hrest]
    rw [hrest, hkept]
    rfl
  · intro transfer hmem
    rw [e.isDone_complete transfer.id.val_lt]
    rcases List.mem_append.1 hmem with hmem | hmem
    · rw [hdone transfer hmem, Bool.true_or]
    · obtain rfl := List.mem_singleton.1 hmem
      rw [decide_eq_true hid, Bool.or_true]

theorem mark (h : FinishedFirst k e) (hdraft : k.draft = .none)
    (hquiet : e.submitPending = false) (hdraft' : k'.draft.transfer? = some transfer) :
    FinishedFirst k' (e.remember (.noted (.submitted transfer))) := by
  obtain ⟨finished, waiting, hflight, hwaiting, hdone⟩ := h
  have hbefore : awaited k e = [] := by
    rw [awaited_quiet hquiet, hdraft]
    rfl
  have hafter : awaited k' (e.remember (.noted (.submitted transfer))) = [transfer.id.val] := by
    rw [awaited_quiet (e := e.remember _) hquiet, hdraft']
    rfl
  refine ⟨finished, waiting ++ [transfer], ?_, ?_, hdone⟩
  · refine (flight_cons (by simp) rfl).trans ?_
    rw [hflight, List.append_assoc]
    rfl
  · rw [List.map_append, hwaiting, hbefore, hafter, List.append_nil]
    rfl

theorem queue (h : FinishedFirst k e) (hdraft : k.draft.transfer? = some transfer)
    (hquiet : e.submitPending = false) (hid : e.acceptId = transfer.id.val) :
    FinishedFirst k' { e.remember (.written Register.submit submitBit false) with
      submitPending := true } := by
  obtain ⟨finished, waiting, hflight, hwaiting, hdone⟩ := h
  have hbefore : awaited k e = [transfer.id.val] := by
    rw [awaited_quiet hquiet, hdraft]
    rfl
  refine ⟨finished, waiting, (flight_cons_none (by simp) rfl rfl).trans hflight, ?_, hdone⟩
  rw [hwaiting, hbefore, awaited_pending rfl, ← hid]
  rfl

/-- A transfer that a settled snapshot shows is not one that the hardware still has to do. -/
theorem not_waiting (hsound : Sound d k e) (hcustody : Custody d k e)
    {id : TransferId} (hdone : k.done.isDone id = true) (hholds : d.Holds id) :
    id.val ∉ e.outstanding ++ awaited k e := by
  obtain ⟨hbit, transfer, rfl, hstage⟩ := hcustody.settled id hdone hholds
  intro hmem
  rcases List.mem_append.1 hmem with hmem | hmem
  · obtain ⟨-, -, -, hunset, -⟩ := hcustody.running _ hmem
    cases hunset.symm.trans hbit
  · cases hpending : e.submitPending with
    | true =>
      obtain ⟨newest, -, hid, -, hqueued⟩ := hcustody.queued hpending
      rw [awaited_pending hpending] at hmem
      have hsame : transfer.id = newest.id := Fin.ext ((List.mem_singleton.1 hmem).trans hid)
      rw [hsame, hqueued] at hstage
      cases hstage
    | false =>
      have hdraft : k.draft.transfer? = none :=
        Option.eq_none_iff_forall_ne_some.2 (hsound.not_drafted_of_done hdone)
      rw [awaited_quiet hpending, hdraft] at hmem
      exact absurd hmem List.not_mem_nil

/-- A slot that is taken back was that of a finished transfer. -/
theorem release (h : FinishedFirst k e) (hsound : Sound d k e) (hcustody : Custody d k e)
    {id previous : TransferId} {action : Action} (haction : action.freed? = some previous)
    (hdone : k.done.isDone previous = true)
    (hslot : (d.pool.slot id).transferId? = some previous) :
    FinishedFirst k (e.remember (.noted action)) := by
  obtain ⟨finished, waiting, hflight, hwaiting, hfinished⟩ := h
  obtain ⟨hindex, -⟩ := hcustody.placed _ previous hslot
  have hholds : d.Holds previous := by
    unfold Driver.Holds
    rw [d.pool.slot_of_index hindex]
    exact hslot
  have hnot := not_waiting hsound hcustody hdone hholds
  rw [← hwaiting] at hnot
  have hkept : waiting.filter (·.id != previous) = waiting := by
    refine List.filter_eq_self.2 fun other hmem => bne_iff_ne.2 ?_
    rintro rfl
    exact hnot (List.mem_map.2 ⟨other, hmem, rfl⟩)
  have hfreed : (Event.noted action).freed? = some previous := haction
  refine ⟨finished.filter (·.id != previous), waiting, ?_, hwaiting, ?_⟩
  · refine (flight_freed hfreed).trans ?_
    rw [hflight, List.filter_append, hkept]
  · exact fun other hmem => hfinished other (List.mem_filter.1 hmem).1

theorem change (h : InOrder e.history → k.phase = .running → FinishedFirst k e)
    (hsound : Sound d k e) (hcustody : InCustody d k e) (hline : InLine d k e)
    (hunfinished : e.outstanding = unfinished e.history) (hchange : Change d k e d' k' e') :
    InOrder e'.history → k'.phase = .running → FinishedFirst k' e' := by
  intro horder hrunning
  cases hchange with
  | turn hturn =>
    cases hturn with
    | takeOver hpending =>
      have hdraft : k.draft.transfer? = none := by
        refine Option.eq_none_iff_forall_ne_some.2 fun transfer ht => ?_
        cases (hsound.quiet_of_drafted ht).symm.trans hpending
      exact (h horder hrunning).takeOver (hline.running hrunning) hdraft hpending
    | complete id hid =>
      refine (h horder.2 hrunning).complete (hcustody.running hrunning).nodup ?_
      rw [hunfinished]
      exact horder.1
  | learn hphase hdraft hdraft' =>
    have hsame : awaited k' e = awaited k e := by
      unfold awaited
      rw [hdraft, hdraft']
    unfold FinishedFirst
    rw [hsame]
    exact h horder (hphase ▸ hrunning)
  | plain hpool hconfig hnewest hphase hdone hdraft he =>
    obtain ⟨finished, waiting, hflight, hwaiting, hfinished⟩ :=
      h ((inOrder_alike he).1 horder) (hphase ▸ hrunning)
    have hsame : awaited k' e' = awaited k e := by
      unfold awaited
      rw [he.pending_eq, he.acceptId_eq, hdraft]
    have hbits : e'.isDone = e.isDone := by
      unfold Engine.isDone
      rw [he.done_eq]
    refine ⟨finished, waiting, (flight_alike he).trans hflight, ?_, ?_⟩
    · rw [hsame, he.outstanding_eq]
      exact hwaiting
    · rw [hbits]
      exact hfinished
  | abort => exact absurd hrunning k.phase.halt_ne_running
  | halt => exact absurd hrunning k.phase.halt_ne_running
  | mark transfer hdraft hquiet hid hadmits hphase hdone hdraft' =>
    have hold : k.phase = .running := by
      rw [hphase] at hrunning
      cases hold : k.phase <;> simp [hold, Phase.submit] at hrunning ⊢
    exact (h horder hold).mark hdraft hquiet hdraft'
  | queue transfer hdraft hdrafted hquiet hcarries hphase =>
    exact (h horder (hphase ▸ hrunning)).queue hdraft hquiet hcarries.id_eq
  | release id previous action haction hdone hslot =>
    exact (h horder hrunning).release hsound (hcustody.running hrunning) haction hdone hslot
  | restart hfree haddress hphase hphase' hdone hdraft hdraft' henabled he =>
    have hold : k.phase = .halted := by
      rw [hphase'] at hrunning
      cases hold : k.phase with
      | running => exact absurd hold hphase
      | halted => rfl
      | lost => simp [hold, Phase.restart] at hrunning
    obtain ⟨hidle, -⟩ := hcustody.halted hold
    have hidle' := hidle.alike he
    have hnone : awaited k' e' = [] := by
      rw [awaited_quiet hidle'.pending_eq, hdraft']
      rfl
    refine ⟨[], [], ?_, ?_, fun _ hmem => absurd hmem List.not_mem_nil⟩
    · rw [flight_alike he, hline.halted hold]
      rfl
    · rw [hidle'.outstanding_eq, hnone]
      rfl

end FinishedFirst
end DmaController

import DmaController.Proofs.Delivery
import DmaController.Proofs.Conduct
import DmaController.Proofs.Flight

/-!
How a slot passes from one transfer to the next. Between two submissions into one slot, if nothing
is given up, the first transfer's slot is taken back exactly once: its bytes are delivered, or an
outbound request reclaims the slot. Bytes that were received can get lost in this second way, and in
no other.
-/
namespace DmaController

open Sim

variable {slots size : Nat} [HasSlots slots]

/-- The actions that took a slot back, newest first. -/
def takings (slot : Fin slots) (events : List Event) : List Action :=
  (events.filterMap Event.action?).filter fun action =>
    action.freed?.map (Pool.index slots) == some slot

/-- Slots change hands one at a time: a submission finds no transfer in flight in its slot, and only
the slot of a transfer in flight is taken back. -/
def Exclusive (slots : Nat) [HasSlots slots] : List Event → Prop
  | [] => True
  | event :: past => Exclusive slots past ∧
    (∀ transfer, event.submission? = some transfer →
      ∀ other ∈ flight past, Pool.index slots other.id ≠ Pool.index slots transfer.id) ∧
    ∀ id, event.freed? = some id → ∃ transfer ∈ flight past, transfer.id = id

theorem Sim.Event.eq_submitted {event : Event} {transfer : Transfer}
    (h : event.submission? = some transfer) : event = .noted (.submitted transfer) := by
  cases event with
  | noted action => exact congrArg _ (Action.eq_submitted h)
  | accepted | completed | aborted | written => cases h

theorem Sim.Event.eq_noted_of_freed {event : Event} {id : TransferId} (h : event.freed? = some id) :
    ∃ action : Action, action.freed? = some id ∧ event = .noted action := by
  cases event with
  | noted action => exact ⟨action, h, rfl⟩
  | accepted | completed | aborted | written => cases h

section Takings

variable {slot : Fin slots} {event : Event} {events : List Event} {action : Action}

theorem takings_of_ne (h : event.freed?.map (Pool.index slots) ≠ some slot) :
    takings slot (event :: events) = takings slot events := by
  unfold takings
  cases event with
  | noted action =>
    exact List.filter_cons_of_neg fun heq => h (beq_iff_eq.1 heq)
  | _ => rfl

theorem takings_of_eq (h : action.freed?.map (Pool.index slots) = some slot) :
    takings slot (.noted action :: events) = action :: takings slot events :=
  List.filter_cons_of_pos (by simpa using h)

end Takings

namespace Exclusive

variable {past : List Event} {event : Event} {slot : Fin slots} {transfer : Transfer}

theorem cons (h : Exclusive slots past) (hsubmitted : event.submission? = none)
    (hfreed : event.freed? = none) : Exclusive slots (event :: past) := by
  refine ⟨h, fun transfer htransfer => ?_, fun id hid => ?_⟩
  · cases hsubmitted.symm.trans htransfer
  · cases hfreed.symm.trans hid

theorem of_append {later : List Event} (h : Exclusive slots (later ++ past)) :
    Exclusive slots past := by
  induction later with
  | nil => exact h
  | cons event later ih => exact ih h.1

/-- Since its submission a transfer is in flight, alone in its slot, or the slot was taken back once
and nothing is in flight there. -/
theorem turnover {between : List Event}
    (h : Exclusive slots (between ++ .noted (.submitted transfer) :: past))
    (hquiet : Quiet (Pool.index slots transfer.id) between) :
    let now := flight (between ++ .noted (.submitted transfer) :: past)
    (takings (Pool.index slots transfer.id) between = [] ∧ transfer ∈ now ∧
      ∀ other ∈ now, Pool.index slots other.id = Pool.index slots transfer.id →
        other = transfer) ∨
    ∃ action : Action, action.freed? = some transfer.id ∧
      takings (Pool.index slots transfer.id) between = [action] ∧
      ∀ other ∈ now, Pool.index slots other.id ≠ Pool.index slots transfer.id := by
  intro now
  induction between with
  | nil =>
    have hnow : now = flight past ++ [transfer] := flight_cons (by simp) rfl
    refine .inl ⟨rfl, by simp [hnow], fun other hmem hindex => ?_⟩
    rw [hnow] at hmem
    rcases List.mem_append.1 hmem with hmem | hmem
    · exact absurd hindex (h.2.1 transfer rfl other hmem)
    · exact List.mem_singleton.1 hmem
  | cons event between ih =>
    obtain ⟨⟨hevent, hother⟩, hquiet⟩ := List.forall_mem_cons.1 hquiet
    have ih := ih h.1 hquiet
    cases hfreed : event.freed? with
    | none =>
      have htakings : takings (Pool.index slots transfer.id) (event :: between) =
          takings (Pool.index slots transfer.id) between := takings_of_ne (by simp [hfreed])
      have hnow : now = flight (between ++ .noted (.submitted transfer) :: past) ++
          event.submission?.toList := flight_cons hevent hfreed
      have hnew : ∀ other ∈ event.submission?.toList,
          Pool.index slots other.id ≠ Pool.index slots transfer.id := by
        intro other hmem
        exact hother other (Event.eq_submitted (Option.mem_toList.1 hmem))
      rw [hnow, htakings]
      rcases ih with ⟨hnone, hmem, halone⟩ | ⟨action, haction, hone, hempty⟩
      · refine .inl ⟨hnone, List.mem_append_left _ hmem, fun other hmem hindex => ?_⟩
        rcases List.mem_append.1 hmem with hmem | hmem
        · exact halone other hmem hindex
        · exact absurd hindex (hnew other hmem)
      · exact .inr ⟨action, haction, hone, List.forall_mem_append.2 ⟨hempty, hnew⟩⟩
    | some id =>
      have hnow : now = (flight (between ++ .noted (.submitted transfer) :: past)).filter
          (·.id != id) := flight_freed hfreed
      obtain ⟨taken, htaken, rfl⟩ := h.2.2 id hfreed
      have hsub : ∀ other ∈ now, other ∈ flight (between ++ .noted (.submitted transfer) :: past) ∧
          other.id ≠ taken.id := by
        intro other hmem
        rw [hnow] at hmem
        obtain ⟨hmem, hne⟩ := List.mem_filter.1 hmem
        exact ⟨hmem, bne_iff_ne.1 hne⟩
      by_cases hindex : Pool.index slots taken.id = Pool.index slots transfer.id
      · rcases ih with ⟨hnone, hmem, halone⟩ | ⟨-, -, -, hempty⟩
        · obtain rfl := halone taken htaken hindex
          obtain ⟨action, haction, rfl⟩ := Event.eq_noted_of_freed hfreed
          refine .inr ⟨action, haction, ?_, fun other hother heq => ?_⟩
          · rw [takings_of_eq (by simp [haction]), hnone]
          · obtain ⟨hmem, hne⟩ := hsub other hother
            exact hne (congrArg Transfer.id (halone other hmem heq))
        · exact absurd hindex (hempty taken htaken)
      · have htakings : takings (Pool.index slots transfer.id) (event :: between) =
            takings (Pool.index slots transfer.id) between :=
          takings_of_ne (by simpa [hfreed] using hindex)
        rw [htakings]
        rcases ih with ⟨hnone, hmem, halone⟩ | ⟨action, haction, hone, hempty⟩
        · refine .inl ⟨hnone, ?_, fun other hother => halone other (hsub other hother).1⟩
          rw [hnow]
          refine List.mem_filter.2 ⟨hmem, bne_iff_ne.2 fun heq => hindex ?_⟩
          rw [heq]
        · exact .inr ⟨action, haction, hone, fun other hother => hempty other (hsub other hother).1⟩

theorem alike {e e' : Engine} (h : Exclusive slots e.history) (he : e.Alike e') :
    Exclusive slots e'.history := by
  rcases he.history_eq with heq | ⟨event, hplain, heq⟩
  · rw [heq]
    exact h
  · rw [heq]
    exact h.cons hplain.submission?_eq hplain.freed?_eq

variable {d d' : Driver slots size} {k k' : Known} {e e' : Engine}

theorem change (h : k.phase ≠ .lost → Exclusive slots e.history) (hcustody : InCustody d k e)
    (hline : InLine d k e) (hchange : Change d k e d' k' e') :
    k'.phase ≠ .lost → Exclusive slots e'.history := by
  intro hlost
  cases hchange with
  | turn hturn =>
    cases hturn with
    | takeOver | complete => exact (h hlost).cons rfl rfl
  | learn hphase => exact h (hphase ▸ hlost)
  | plain _ _ _ hphase _ _ he => exact (h (hphase ▸ hlost)).alike he
  | abort value =>
    have hold : k.phase ≠ .lost := fun hphase => hlost (by rw [hphase]; rfl)
    have hwritten :
        Exclusive slots (.written Register.control value e.submitPending :: e.history) :=
      (h hold).cons rfl rfl
    exact hwritten.cons rfl rfl
  | halt hdraft henabled he =>
    have hold : k.phase ≠ .lost := fun hphase => hlost (by rw [hphase]; rfl)
    exact (h hold).alike he
  | mark transfer hdraft hquiet hid hadmits hphase =>
    cases hold : k.phase with
    | running =>
      refine ⟨h (by simp [hold]), fun other hother => ?_, fun id hid => by cases hid⟩
      obtain rfl := Option.some.inj hother
      intro present hmem hindex
      have hslot := (hline.running hold).slot_eq present hmem
      have hfree := hadmits.free
      rw [← d.pool.slot_of_index hindex, hslot] at hfree
      cases hfree
    | halted | lost =>
      rw [hold] at hphase
      exact absurd hphase hlost
  | queue transfer hdraft hdrafted hquiet hcarries hphase => exact (h (hphase ▸ hlost)).cons rfl rfl
  | release id previous action haction hdone hslot =>
    refine ⟨h hlost, fun transfer htransfer => ?_, fun id' hfreed => ?_⟩
    · cases (action.submission?_of_freed? haction).symm.trans htransfer
    · obtain rfl := Option.some.inj (haction.symm.trans hfreed)
      cases hphase : k.phase with
      | running =>
        obtain ⟨transfer, hmem, hid, -⟩ := (hline.running hphase).mem_of_slot _ previous hslot
        exact ⟨transfer, hmem, hid⟩
      | halted =>
        obtain ⟨-, -, hnone⟩ := hcustody.halted hphase
        cases (hnone previous).symm.trans hdone
      | lost => exact absurd hphase hlost
  | restart hfree haddress hphase hphase' hdone hdraft hdraft' henabled he =>
    have hold : k.phase ≠ .lost := fun hlost' => hlost (by rw [hphase', hlost']; rfl)
    exact (h hold).alike he

end Exclusive

theorem Scene.Attained.exclusive {s : Scene Engine slots size} (h : s.Attained Engine.IsUnused)
    (hphase : s.known.phase ≠ .lost) : Exclusive slots s.engine.history := by
  suffices hall : InCustody s.driver s.known s.engine ∧ InLine s.driver s.known s.engine ∧
      (s.known.phase ≠ .lost → Exclusive slots s.engine.history) from hall.2.2 hphase
  refine h.invariant (P := fun d k e => InCustody d k e ∧ InLine d k e ∧
    (k.phase ≠ .lost → Exclusive slots e.history)) ?_ ?_
  · intro d e _ he
    have hflight : flight e.history = [] := by
      rw [he.history_eq]
      rfl
    have hexclusive : Exclusive slots e.history := by
      rw [he.history_eq]
      trivial
    exact ⟨⟨by simp, fun _ => ⟨he.toIsIdle, rfl, DoneBits.isDone_none⟩⟩,
      ⟨by simp, fun _ => hflight⟩, fun _ => hexclusive⟩
  · intro d k e d' k' e' hsound h hchange
    obtain ⟨hcustody, hline, hexclusive⟩ := h
    exact ⟨hcustody.change hsound hchange, hline.change hcustody hchange,
      Exclusive.change hexclusive hcustody hline hchange⟩

def Action.IsReclaim : Action → Prop
  | .reclaimed _ => True
  | _ => False

theorem Action.IsPassive.not_reclaim (action : Action) (h : action.IsPassive) :
    ¬ action.IsReclaim := by
  cases action with
  | reclaimed => exact fun _ => h
  | _ => exact id

/-- A call for an outbound transfer. -/
def Call.IsOutbound : Call → Prop
  | .send _ | .sendAndWait .. => True
  | _ => False

/-- The program reclaims no slot. -/
abbrev Reclaimless {σ α : Type} (program : DriverM σ slots size α) : Prop :=
  Does (fun action => ¬ action.IsReclaim) program

theorem handles_reclaimless : Handles fun action => ¬ action.IsReclaim where
  passive := Action.IsPassive.not_reclaim
  submitted _ := not_false
  delivered _ _ := not_false
  written _ _ _ := not_false

namespace Driver

variable {σ : Type} [RegisterBus (World σ slots size)]

omit [HasSlots slots] in
theorem enable_reclaimless : Reclaimless (enable : DriverM σ slots size Unit) :=
  .update (fun _ => not_false) fun _ => not_false

omit [HasSlots slots] in
theorem disable_reclaimless : Reclaimless (disable : DriverM σ slots size Unit) :=
  .update (fun _ => not_false) fun _ => not_false

omit [HasSlots slots] in
theorem restart_reclaimless : Reclaimless (restart : DriverM σ slots size Unit) :=
  restart_does (fun _ => not_false) (fun _ => not_false) fun _ => not_false

theorem startStream_reclaimless (bytes : Nat) :
    Reclaimless (startStream bytes : DriverM σ slots size (Except TransferError Nat)) :=
  startStream_does handles_reclaimless (fun _ => not_false) (fun _ => not_false) not_false not_false
    bytes

end Driver

/-- Only an outbound request reclaims slots. -/
theorem Call.reclaimless {call : Call} (h : ¬ call.IsOutbound) (rig : Rig slots size) :
    ∃ actions, (call.perform rig).port.journal.toList = rig.port.journal.toList ++ actions ∧
      ∀ action ∈ actions, ¬ action.IsReclaim := by
  have hrun : ∀ {α : Type} {program : DriverM Bench slots size α}, Reclaimless program →
      ∃ actions, (rig.run program).port.journal.toList = rig.port.journal.toList ++ actions ∧
        ∀ action ∈ actions, ¬ action.IsReclaim := fun hprogram => hprogram rig.driver rig.port
  cases call with
  | send | sendAndWait => exact absurd trivial h
  | receive bytes => exact hrun (Driver.receive_does handles_reclaimless bytes _ _)
  | collect => exact hrun (Driver.collect_does handles_reclaimless _)
  | serviceInterrupt => exact hrun (Driver.serviceInterrupt_does handles_reclaimless not_false _)
  | claimCompletion => exact hrun (Driver.claimCompletion_does (fun _ => not_false) not_false)
  | startStream bytes => exact hrun (Driver.startStream_reclaimless bytes)
  | reset => exact hrun (.bind Driver.restart_reclaimless fun _ => .change _)
  | enable => exact hrun Driver.enable_reclaimless
  | disable => exact hrun Driver.disable_reclaimless
  | pause => exact hrun (.update (fun _ => not_false) fun _ => not_false)
  | resume => exact hrun (.update (fun _ => not_false) fun _ => not_false)
  | enableIrq => exact hrun (Driver.enableIrq_does not_false not_false)
  | disableIrq => exact hrun (.write not_false)
  | acknowledge => exact hrun (.alter _)
  | registerSink sink => exact hrun (.alter _)
  | isEnabled | isPaused | progress | irqFlags | doneBits =>
    exact hrun (.looks Action.IsPassive.not_reclaim fun _ => .read _ _)

namespace Session

variable {phase : Phase} {rig : Rig slots size}

/-- Between two submissions into one slot, without an abort, the slot is taken back exactly once: the
transfer's bytes are delivered, or an outbound request reclaims its slot. -/
theorem slot_turnover (h : Session Engine.IsUnused phase rig) (hphase : phase ≠ .lost) :
    (∀ (later between past : List Event) (next transfer : Transfer),
      rig.core.history = later ++ .noted (.submitted next) ::
        (between ++ .noted (.submitted transfer) :: past) →
      Pool.index slots next.id = Pool.index slots transfer.id →
      Quiet (Pool.index slots transfer.id) between →
      ∃ action, takings (Pool.index slots transfer.id) between = [action] ∧
        ((∃ data, action = .delivered transfer.id data) ∨ action = .reclaimed transfer.id)) ∧
    ∀ call : Call, ¬ call.IsOutbound → ∃ actions,
      (call.perform rig).port.journal.toList = rig.port.journal.toList ++ actions ∧
        ∀ id, .reclaimed id ∉ actions := by
  refine ⟨fun later between past next transfer hhistory hindex hquiet => ?_, fun call hcall => ?_⟩
  · obtain ⟨-, known, hends, hattained⟩ := h.attained
    have hnot : known.phase ≠ .lost := (hends.phase_eq.resolve_left hphase).symm ▸ hphase
    have hexclusive := hattained.exclusive hnot
    change Exclusive slots rig.core.history at hexclusive
    rw [hhistory] at hexclusive
    obtain ⟨hbetween, hfree, -⟩ := hexclusive.of_append
    have hfree := hfree next rfl
    rcases hbetween.turnover hquiet with ⟨-, hmem, -⟩ | ⟨action, haction, hone, -⟩
    · exact absurd hindex.symm (hfree transfer hmem)
    · refine ⟨action, hone, ?_⟩
      cases action with
      | delivered id data =>
        obtain rfl := Option.some.inj haction
        exact .inl ⟨data, rfl⟩
      | reclaimed id =>
        obtain rfl := Option.some.inj haction
        exact .inr rfl
      | read | write | log | offered | submitted | released | delayed => cases haction
  · obtain ⟨actions, hjournal, hactions⟩ := call.reclaimless hcall rig
    exact ⟨actions, hjournal, fun id hmem => hactions _ hmem trivial⟩

end Session

theorem quiet_of_forall {slot : Fin slots} {events : List Event}
    (h : ∀ event ∈ events, event ≠ .aborted ∧ event.submission? = none) : Quiet slot events := by
  intro event hmem
  obtain ⟨hevent, hnone⟩ := h event hmem
  exact quiet_of_none hevent hnone event (List.mem_singleton_self _)

namespace Session

/-- Two bytes are received by a driver that does not wait long enough for them. -/
def late : Rig 1 16 := ((Call.receive 2).perform Rig.single).stimulate (.finish 0)

theorem late_session : Session Engine.IsUnused .running late :=
  (Rig.single_session.call (.receive 2)).stimulus (.finish 0) trivial

/-- The late bytes are collected before their slot is used again. -/
theorem slot_turnover_delivered :
    let rig := (Call.send fun _ => (#[7], 1)).perform (Call.collect.perform late)
    let history := rig.core.history
    let between := (history.drop 6).take 10
    history = history.take 5 ++ .noted (.submitted ⟨.outbound, .next .first, 1, 0⟩) ::
      (between ++ .noted (.submitted ⟨.inbound, .first, 2, 0⟩) :: history.drop 17) ∧
    ∃ action, takings (Pool.index 1 .first) between = [action] ∧
      ((∃ data, action = .delivered .first data) ∨ action = .reclaimed .first) := by
  intro rig history between
  have hsession : Session Engine.IsUnused .running rig :=
    (late_session.call .collect).call (.send fun _ => (#[7], 1))
  have hhistory : history = history.take 5 ++ .noted (.submitted ⟨.outbound, .next .first, 1, 0⟩) ::
      (between ++ .noted (.submitted ⟨.inbound, .first, 2, 0⟩) :: history.drop 17) := by
    decide +kernel
  have hquiet : Quiet (Pool.index 1 .first) between := quiet_of_forall (by decide +kernel)
  exact ⟨hhistory, (slot_turnover hsession (by simp)).1 _ _ _ _ _ hhistory (by decide) hquiet⟩

/-- The late bytes have come, and are lost to an outbound request that takes their slot. -/
theorem slot_turnover_unread :
    let rig := (Call.send fun _ => (#[7], 1)).perform late
    let history := rig.core.history
    let between := (history.drop 6).take 10
    Session Engine.IsUnused .running rig ∧
    history = history.take 5 ++ .noted (.submitted ⟨.outbound, .next .first, 1, 0⟩) ::
      (between ++ .noted (.submitted ⟨.inbound, .first, 2, 0⟩) :: history.drop 17) ∧
    Quiet (Pool.index 1 .first) between ∧ .completed 0 ∈ between ∧
    takings (Pool.index 1 .first) between = [.reclaimed .first] := by
  intro rig history between
  exact ⟨late_session.call (.send fun _ => (#[7], 1)), by decide +kernel,
    quiet_of_forall (by decide +kernel), by decide +kernel, by decide +kernel⟩

end Session
end DmaController

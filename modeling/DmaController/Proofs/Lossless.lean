import DmaController.Proofs.Execution
import DmaController.Proofs.Stream

/-!
The inbound stream is lossless and in order. A driver starts its stream on an enabled core, and from
then on only collects; the hardware accepts when it likes and completes the oldest transfer first.
Main statement: what was delivered, followed by what is in flight as the slots tell it from the
cursor on, is what the hardware accepted since the start, followed by the submission that is
pending; and something is always in flight.
-/
namespace DmaController

open Sim

namespace Sim

/-- The submission that the hardware has not accepted, as its registers describe it. -/
def Engine.upcoming (engine : Engine) : List Accepted :=
  if engine.submitPending then [engine.programmed] else []

theorem sinceAbort_subset (history : List Event) : sinceAbort history ⊆ history := by
  induction history with
  | nil => exact List.Subset.refl _
  | cons event past ih =>
    by_cases hevent : event = .aborted
    · subst hevent
      exact List.nil_subset _
    · rw [sinceAbort_cons hevent]
      exact List.cons_subset_cons _ ih

theorem mem_of_recent {α : Type} {f : Event → Option α} {history : List Event} {a : α}
    (h : a ∈ recent f history) : a ∈ history.filterMap f := by
  obtain ⟨event, hmem, ha⟩ := List.mem_filterMap.1 h
  exact List.mem_filterMap.2 ⟨event, sinceAbort_subset _ (List.mem_reverse.1 hmem), ha⟩

end Sim

/-- Between two calls, what is not accepted is what is pending. -/
theorem Coming.upcoming {k : Known} {e : Engine} {coming : List Transfer} (h : Coming k e coming)
    (hdraft : k.draft = .none) : List.Forall₂ Accepted.Carries e.upcoming coming := by
  unfold Engine.upcoming
  cases h with
  | none hquiet hnone =>
    rw [hquiet]
    exact .nil
  | drafted hquiet hdrafted =>
    rw [hdraft] at hdrafted
    cases hdrafted
  | pending hpending hnone hcarries =>
    rw [if_pos hpending]
    exact .cons hcarries .nil

variable {slots size : Nat} [HasSlots slots]

namespace Driver

/-- The inbound transfer that was delivered. -/
def received (driver : Driver slots size) (delivery : TransferId × Bytes) : Transfer :=
  ⟨.inbound, delivery.1, delivery.2.size, driver.address delivery.1⟩

/-- The inbound transfers in flight, as the slots tell it, in ring order from the cursor on. -/
def queue (driver : Driver slots size) : List Transfer :=
  (driver.cursor.lap.filter fun id => (driver.pool.slot id).transferId? == some id).map fun id =>
    ⟨.inbound, id, (driver.pool.slot id).size, driver.address id⟩

end Driver

/-- Runs of a driver whose stream was started on an enabled core, when the history was `past`. Each
transfer is to bring `granted` bytes. -/
inductive Streaming (granted : Nat) (past : List Event) : Rig slots size → Prop
  | start {phase : Phase} {rig : Rig slots size} {bytes queued : Nat}
      (h : Session Engine.IsUnused phase rig) (henabled : rig.core.isEnabled = true)
      (hhistory : rig.core.history = past)
      (hgranted : rig.driver.requestSize? bytes = some granted)
      (hanswer : ((Driver.startStream bytes).outcome rig.driver rig.port).1.1 = .ok queued) :
      Streaming granted past ((Call.startStream bytes).perform rig)
  | call {rig : Rig slots size} (h : Streaming granted past rig) (call : Call)
      (hcall : call.KeepsStream) : Streaming granted past (call.perform rig)
  | stimulus {rig : Rig slots size} (h : Streaming granted past rig) (stimulus : Stimulus)
      (hlawful : stimulus.IsLawful) : Streaming granted past (rig.stimulate stimulus)
  | follow {rig : Rig slots size} (h : Streaming granted past rig) (script : Script)
      (hlawful : script.IsLawful) : Streaming granted past (rig.follow script)

namespace Streaming

variable {granted : Nat} {past : List Event} {rig : Rig slots size}

theorem session (h : Streaming granted past rig) :
    ∃ phase, Session Engine.IsUnused phase rig := by
  induction h with
  | start h => exact ⟨_, h.call _⟩
  | call _ call _ ih => exact ⟨_, ih.choose_spec.call call⟩
  | stimulus _ stimulus hlawful ih => exact ⟨_, ih.choose_spec.stimulus stimulus hlawful⟩
  | follow _ script hlawful ih => exact ⟨_, ih.choose_spec.follow script hlawful⟩

theorem streams (h : Streaming granted past rig) :
    ∃ known, Streams granted past (rig.scene known) := by
  induction h with
  | @start phase rig bytes queued h henabled hhistory hgranted hanswer =>
    obtain ⟨hlawful, known, -, hattained⟩ := h.attained
    have hsound : Sound rig.driver known rig.core.toEngine := hattained.sound
    obtain ⟨hlawful', hgiven⟩ := rig.driver.disable_gives_up hlawful henabled
    obtain ⟨granted', hgranted', hstart⟩ := Driver.startStream_outcome hanswer
    obtain rfl := Option.some.inj (hgranted.symm.trans hgranted')
    obtain ⟨hle, hpos⟩ := Driver.requestSize?_bounds hgranted
    let s : Scene Bench slots size :=
      ⟨rig.driver, { phase := .halted }, (Driver.disable.outcome rig.driver rig.port).2⟩
    obtain ⟨known', -, hstreams⟩ : Leads Drifts (Driver.restream granted) _ s :=
      Streams.start hlawful' rfl hgiven hsound.capacity_le (hpos hsound.capacity_pos) hle
        (Nat.le_trans hle h.capacity_le)
    have hperform : (Call.startStream bytes).perform rig =
        ⟨((Driver.restream granted).outcome s.driver s.port).1.2,
          ((Driver.restream granted).outcome s.driver s.port).2⟩ := by
      rw [← hstart]
      rfl
    rw [hperform, ← hhistory]
    exact ⟨known', hstreams⟩
  | call _ call hcall ih =>
    obtain ⟨known, hstreams⟩ := ih
    exact hstreams.call hcall
  | @stimulus rig _ stimulus hlawful ih =>
    obtain ⟨known, hstreams⟩ := ih
    have hlapse := stimulate_lapse rig.port.world hlawful
    obtain ⟨events, hchronicle⟩ := Chronicle.lapse hlapse
    have hidles : (rig.scene known).Idles ((rig.stimulate stimulus).scene known) :=
      ⟨hstreams.lawful, hstreams.regular.path (path_of_lapse _ _ _ hlapse),
        hchronicle.unmoved_of_minor (by simp)⟩
    exact ⟨known, hstreams.idles hidles ⟨hstreams.rests.draft_eq, hstreams.rests.phase_eq⟩ rfl⟩
  | @follow rig _ script hlawful ih =>
    obtain ⟨known, hstreams⟩ := ih
    have hidles : (rig.scene known).Idles ((rig.follow script).scene known) :=
      ⟨hlawful, hstreams.regular, .refl _⟩
    exact ⟨known, hstreams.idles hidles ⟨hstreams.rests.draft_eq, hstreams.rests.phase_eq⟩ rfl⟩

/-- A transfer of the stream is what its id and its length tell. -/
theorem transfer_eq (h : Streaming granted past rig) {transfer : Transfer}
    (hmem : transfer ∈ recent Event.submission? rig.core.history) :
    transfer = ⟨.inbound, transfer.id, granted, rig.driver.address transfer.id⟩ := by
  obtain ⟨known, hstreams⟩ := h.streams
  obtain ⟨phase, hsession⟩ := h.session
  obtain ⟨-, _, -, hattained⟩ := hsession.attained
  have hrecorded : Recorded rig.driver (submissions rig.core.history) := hattained.recorded
  obtain ⟨hdirection, hlength⟩ := hstreams.inbound transfer hmem
  have haddress := hrecorded.address_eq transfer (mem_of_recent hmem)
  obtain ⟨direction, id, length, address⟩ := transfer
  obtain rfl : direction = .inbound := hdirection
  obtain rfl : length = granted := hlength
  exact congrArg (Transfer.mk .inbound id length) haddress

/-- The slots tell of the transfers in flight, in the order of their submission. -/
theorem queue_eq (h : Streaming granted past rig) (horder : InOrder rig.core.history) :
    rig.driver.queue = flight rig.core.history := by
  obtain ⟨known, hstreams⟩ := h.streams
  have hline : Lined rig.driver (flight rig.core.history) := hstreams.line
  have hsub : ((flight rig.core.history).map (·.id)).Sublist rig.driver.cursor.lap :=
    (hstreams.queued horder).sublist_lap hstreams.regular.numbered hline
  rw [Driver.queue, hline.filter_holds hsub (TransferId.nodup_lap _), List.map_map]
  refine (List.map_congr_left fun transfer hmem => ?_).trans (List.map_id _)
  have htransfer := h.transfer_eq ((flight_sublist _).subset hmem)
  have hlength : transfer.length = granted := congrArg Transfer.length htransfer
  rw [Function.comp_apply, hline.slot_eq transfer hmem, hlength]
  exact htransfer.symm

/-- What was delivered are the submissions before those in flight. -/
theorem received_append_queue (h : Streaming granted past rig)
    (horder : InOrder rig.core.history) :
    rig.deliveries.map rig.driver.received ++ rig.driver.queue =
      recent Event.submission? rig.core.history := by
  obtain ⟨known, hstreams⟩ := h.streams
  obtain ⟨done, hsplit, hdone⟩ := (hstreams.queued horder).split
  have hsplit : recent Event.submission? rig.core.history = done ++ flight rig.core.history :=
    hsplit
  have hdone : done.map (·.id) = rig.deliveries.map Prod.fst := hdone
  let transferOf : TransferId → Transfer :=
    fun id => ⟨.inbound, id, granted, rig.driver.address id⟩
  have hreceived : rig.deliveries.map rig.driver.received = done :=
    calc rig.deliveries.map rig.driver.received
      _ = (rig.deliveries.map Prod.fst).map transferOf := by
        rw [List.map_map]
        refine List.map_congr_left fun delivery hmem => ?_
        rw [Driver.received, hstreams.size_eq delivery hmem]
        rfl
      _ = done.map (fun transfer => transferOf transfer.id) := by
        rw [← hdone, List.map_map]
        rfl
      _ = done := by
        refine (List.map_congr_left fun transfer hmem => ?_).trans (List.map_id _)
        refine (h.transfer_eq ?_).symm
        rw [hsplit]
        exact List.mem_append_left _ hmem
  rw [hreceived, h.queue_eq horder, hsplit]

/-- Nothing is lost, delivered twice or out of order, and something is always in flight. -/
theorem lossless (h : Streaming granted past rig) :
    past <:+ rig.core.history ∧ rig.core.history.count .aborted = past.count .aborted + 1 ∧
    0 < rig.driver.inFlight ∧ (∀ delivery ∈ rig.deliveries, delivery.2.size = granted) ∧
    (InOrder rig.core.history → List.Forall₂ Accepted.Carries
      (recent Event.accepted? rig.core.history ++ rig.core.upcoming)
      (rig.deliveries.map rig.driver.received ++ rig.driver.queue)) := by
  obtain ⟨known, hstreams⟩ := h.streams
  refine ⟨hstreams.grows, hstreams.aborted_eq, hstreams.inFlight_pos, hstreams.size_eq,
    fun horder => ?_⟩
  rw [h.received_append_queue horder]
  obtain ⟨taken, coming, hsplit, hcarries, hcoming⟩ := hstreams.regular.numbered.accepted
  have hsplit : recent Event.submission? rig.core.history = taken ++ coming := hsplit
  rw [hsplit]
  refine List.rel_append hcarries ?_
  exact hcoming.upcoming hstreams.rests.draft_eq

/-- Two slots stream four bytes each. One transfer is completed and collected, and the hardware does
not accept at once what is submitted for it. -/
def collectedOne : Rig 2 16 :=
  let started := (Call.startStream 4).perform Rig.small
  Call.collect.perform ((started.stimulate (.autoAccept false)).stimulate (.finish 0))

theorem collectedOne_streaming : Streaming 4 Rig.small.core.history collectedOne := by
  have hanswer : ((Driver.startStream 4).outcome Rig.small.driver Rig.small.port).1.1 = .ok 2 := by
    decide +kernel
  have hstarted : Streaming 4 Rig.small.core.history ((Call.startStream 4).perform Rig.small) :=
    .start Rig.small_session (by decide +kernel) rfl rfl hanswer
  exact ((hstarted.stimulus (.autoAccept false) trivial).stimulus (.finish 0) trivial).call
    .collect trivial

theorem lossless_collected : InOrder collectedOne.core.history ∧
    collectedOne.deliveries.map (·.1.val) = [0] ∧
    collectedOne.driver.queue.map (·.id.val) = [1, 2] ∧
    collectedOne.core.upcoming.map (·.id) = [2] ∧ 0 < collectedOne.driver.inFlight ∧
    List.Forall₂ Accepted.Carries
      (recent Event.accepted? collectedOne.core.history ++ collectedOne.core.upcoming)
      (collectedOne.deliveries.map collectedOne.driver.received ++ collectedOne.driver.queue) := by
  have horder : InOrder collectedOne.core.history := by decide +kernel
  obtain ⟨-, -, hinFlight, -, hcarries⟩ := lossless collectedOne_streaming
  exact ⟨horder, by decide +kernel, by decide +kernel, by decide +kernel, hinFlight,
    hcarries horder⟩

end Streaming
end DmaController

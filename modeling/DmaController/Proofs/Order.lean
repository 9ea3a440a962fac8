import DmaController.Proofs.Conduct
import DmaController.Proofs.Harvest
import DmaController.Proofs.Session

/-!
The order in which collections deliver. The hardware completes the oldest transfer first, and
transfers are sent and received in any mixture. A collection scans the ring from the cursor, so it
keeps the order of submission if the transfers in flight stand on the ring in that order, seen from
the cursor. Only collections move the cursor: transfers that are received or reclaimed can take the
ids a lap ahead of it, and then newer transfers come first. Main statement: as long as no collection
finds the cursor lapped, all collections together deliver in the order of submission.
-/
namespace DmaController

open Sim

namespace Sim

theorem flight_cons_sublist {event : Event} {past : List Event} (h : event ≠ .aborted) :
    (flight (event :: past)).Sublist (flight past ++ event.submission?.toList) := by
  cases hfreed : event.freed? with
  | none =>
    rw [flight_cons h hfreed]
  | some id =>
    rw [flight_freed hfreed]
    exact List.filter_sublist.trans (List.sublist_append_left _ _)

/-- Nothing is in flight that was not submitted, and the order is that of the submissions. -/
theorem flight_sublist (history : List Event) :
    (flight history).Sublist (recent Event.submission? history) := by
  induction history with
  | nil => exact .refl _
  | cons event past ih =>
    by_cases hevent : event = .aborted
    · subst hevent
      exact .refl _
    · rw [recent_cons hevent]
      exact (flight_cons_sublist hevent).trans (ih.append_right _)

theorem flight_append_sublist {events past : List Event} (h : .aborted ∉ events) :
    (flight (events ++ past)).Sublist
      (flight past ++ events.reverse.filterMap Event.submission?) := by
  induction events with
  | nil => simp
  | cons event events ih =>
    obtain ⟨hevent, h⟩ := List.ne_and_not_mem_of_not_mem_cons h
    have hsplit : (event :: events).reverse.filterMap Event.submission? =
        events.reverse.filterMap Event.submission? ++ event.submission?.toList := by
      rw [List.reverse_cons, List.filterMap_append]
      cases hsubmitted : event.submission? <;> simp [hsubmitted]
    rw [hsplit, ← List.append_assoc]
    exact (flight_cons_sublist hevent.symm).trans ((ih h).append_right _)

end Sim

/-- From `e` to `e'` there was no abort: what was in flight went, or stayed in its place, and new
transfers came behind. -/
structure Grown (e e' : Engine) (fresh : List Transfer) : Prop where
  flight_sublist : (flight e'.history).Sublist (flight e.history ++ fresh)
  submissions_eq : recent Event.submission? e'.history =
    recent Event.submission? e.history ++ fresh
  inOrder : InOrder e'.history → InOrder e.history

/-- What comes in front of those in flight stays in front of them. -/
theorem Grown.sublist {e e' : Engine} {fresh front : List Transfer} (h : Grown e e' fresh)
    (hfront : (front ++ flight e.history).Sublist (recent Event.submission? e.history)) :
    (front ++ flight e'.history).Sublist (recent Event.submission? e'.history) := by
  rw [h.submissions_eq]
  refine ((List.append_sublist_append_left front).2 h.flight_sublist).trans ?_
  rw [← List.append_assoc]
  exact hfront.append_right fresh

theorem Chronicle.grown {e e' : Engine} {actions : List Action} {events : List Event}
    (h : Chronicle e e' actions events)
    (hactions : ∀ value, .write Register.control value ∉ actions) :
    Grown e e' (actions.filterMap Action.submission?) := by
  have hspared : .aborted ∉ events :=
    (h.enabled fun value hmem => absurd hmem (hactions value)).1
  refine ⟨?_, h.recent_submissions hspared, h.inOrder hspared⟩
  rw [h.history_eq, ← h.submissions_eq]
  exact flight_append_sublist hspared

variable {slots size : Nat} [HasSlots slots]

namespace Rig

/-- Seen from the cursor, the transfers in flight stand on the ring in the order in which they were
submitted. -/
def Unlapped (rig : Rig slots size) : Prop :=
  ((flight rig.core.history).map (·.id)).Sublist rig.driver.cursor.lap

instance (rig : Rig slots size) : Decidable rig.Unlapped :=
  inferInstanceAs (Decidable (List.Sublist _ _))

/-- The deliveries since the last abort, oldest first. -/
def deliveries (rig : Rig slots size) : List (TransferId × Bytes) :=
  recent Event.delivery? rig.core.history

/-- What a collection delivers now: the transfers in flight that its deliveries name. -/
def collected (rig : Rig slots size) : List Transfer :=
  ((Call.collect.perform rig).deliveries.drop rig.deliveries.length).filterMap fun delivery =>
    (flight rig.core.history).find? (·.id = delivery.1)

end Rig

/-- A call that submits a transfer, if it can, and aborts none. -/
def Call.IsTransfer : Call → Prop
  | .send _ | .sendAndWait .. | .receive _ => True
  | _ => False

/-- A run of a driver in which transfers are sent, received and collected, with all that its
collections have delivered. No collection finds the cursor lapped. -/
inductive Mixture : Rig slots size → List Transfer → Prop
  | start {rig : Rig slots size} (h : Session Engine.IsUnused .running rig) : Mixture rig []
  | transfer {rig : Rig slots size} {collected : List Transfer} (h : Mixture rig collected)
      (call : Call) (hcall : call.IsTransfer) : Mixture (call.perform rig) collected
  | collect {rig : Rig slots size} {collected : List Transfer} (h : Mixture rig collected)
      (hunlapped : rig.Unlapped) : Mixture (Call.collect.perform rig) (collected ++ rig.collected)
  | stimulus {rig : Rig slots size} {collected : List Transfer} (h : Mixture rig collected)
      (stimulus : Stimulus) (hlawful : stimulus.IsLawful) :
      Mixture (rig.stimulate stimulus) collected
  | follow {rig : Rig slots size} {collected : List Transfer} (h : Mixture rig collected)
      (script : Script) (hlawful : script.IsLawful) : Mixture (rig.follow script) collected

variable {rig : Rig slots size} {collected : List Transfer}

theorem Mixture.session (h : Mixture rig collected) : Session Engine.IsUnused .running rig := by
  induction h with
  | start h => exact h
  | @transfer rig collected _ call hcall ih =>
    have hphase : call.phase rig.driver .running = .running := by
      cases call <;> first | rfl | exact hcall.elim
    rw [← hphase]
    exact ih.call call
  | @collect rig collected _ _ ih =>
    have hphase : Call.collect.phase rig.driver .running = .running := ite_self _
    rw [← hphase]
    exact ih.call .collect
  | stimulus _ stimulus hlawful ih => exact ih.stimulus stimulus hlawful
  | follow _ script hlawful ih => exact ih.follow script hlawful

/-- What a call adds to the journal is what its history tells. -/
theorem Call.chronicle (call : Call) {phase : Phase} {known : Known}
    (hlawful : rig.port.world.device.script.IsLawful) (h : (rig.scene known).Ends phase) :
    ∃ actions events,
      (call.perform rig).port.journal.toList = rig.port.journal.toList ++ actions ∧
      Chronicle rig.core.toEngine (call.perform rig).core.toEngine actions events := by
  obtain ⟨known', hpath, -⟩ := call.ends h
  exact (hpath.bare hlawful).2.chronicle

/-- No call for a transfer writes the control register. -/
theorem Call.IsTransfer.spares {call : Call} (h : call.IsTransfer) (rig : Rig slots size) :
    ∃ actions, (call.perform rig).port.journal.toList = rig.port.journal.toList ++ actions ∧
      ∀ action ∈ actions, ∀ value, action ≠ .write Register.control value := by
  have hspares : Handles fun action => ∀ value, action ≠ .write Register.control value := by
    refine ⟨fun action hpassive => ?_, nofun, nofun, fun offset value hoffset other heq => ?_⟩
    · rintro value rfl
      exact hpassive
    · obtain ⟨rfl, -⟩ := Action.write.inj heq
      exact absurd hoffset (by decide)
  cases call with
  | send produce => exact Driver.send_does hspares nofun _ rig.driver rig.port
  | sendAndWait limit produce =>
    exact Driver.sendAndWait_does hspares nofun limit _ rig.driver rig.port
  | receive bytes => exact Driver.receive_does hspares bytes _ _ rig.driver rig.port
  | _ => exact h.elim

theorem Session.grown (h : Session Engine.IsUnused .running rig) {call : Call}
    (hcall : call.IsTransfer) :
    ∃ fresh, Grown rig.core.toEngine (call.perform rig).core.toEngine fresh := by
  obtain ⟨hlawful, known, hends, -⟩ := h.attained
  obtain ⟨actions, events, hjournal, hchronicle⟩ := call.chronicle hlawful hends
  obtain ⟨actions', hjournal', hspares⟩ := hcall.spares rig
  obtain rfl : actions' = actions := List.append_cancel_left (hjournal'.symm.trans hjournal)
  exact ⟨_, hchronicle.grown fun value hmem => hspares _ hmem value rfl⟩

omit [HasSlots slots] in
/-- The hardware moves between two calls. -/
theorem Rig.stimulate_grown (rig : Rig slots size) {stimulus : Stimulus} (h : stimulus.IsLawful) :
    Grown rig.core.toEngine (rig.stimulate stimulus).core.toEngine [] := by
  obtain ⟨events, hchronicle⟩ := Chronicle.lapse (stimulate_lapse rig.port.world h)
  exact hchronicle.grown (by simp)

/-- The transfer in flight of an id. -/
theorem Lined.find?_id {d : Driver slots size} {line : List Transfer} {transfer : Transfer}
    (h : Lined d line) (hmem : transfer ∈ line) :
    line.find? (·.id = transfer.id) = some transfer := by
  obtain ⟨other, hother⟩ : ∃ other, line.find? (·.id = transfer.id) = some other := by
    refine Option.isSome_iff_exists.1 (List.find?_isSome.2 ⟨transfer, hmem, ?_⟩)
    exact decide_eq_true rfl
  have hid : other.id = transfer.id := by simpa using List.find?_some hother
  rw [hother, h.eq_of_index (List.mem_of_find?_eq_some hother) hmem
    (congrArg (Pool.index slots) hid)]

theorem Lined.filter_front {d : Driver slots size} {front later : List Transfer}
    (h : Lined d (front ++ later)) :
    (front ++ later).filter (·.id ∉ front.map (·.id)) = later := by
  have hfront : front.filter (·.id ∉ front.map (·.id)) = [] := by
    refine List.filter_eq_nil_iff.2 fun transfer hmem => ?_
    simpa using ⟨transfer, hmem, rfl⟩
  have hlater : later.filter (·.id ∉ front.map (·.id)) = later := by
    refine List.filter_eq_self.2 fun transfer hmem => ?_
    simp only [List.mem_map, not_exists, not_and, decide_eq_true_eq]
    exact fun other hother => h.ne_of_split hother hmem
  rw [List.filter_append, hfront, hlater, List.nil_append]

/-- If the cursor is not lapped, a collection delivers the oldest transfers in flight, and the
others stay in their order. -/
theorem Session.collects_front (h : Session Engine.IsUnused .running rig)
    (hunlapped : rig.Unlapped) (horder : InOrder (Call.collect.perform rig).core.history) :
    InOrder rig.core.history ∧ ∃ served later fresh,
      (Call.collect.perform rig).deliveries = rig.deliveries ++ served ∧
      served.map Prod.fst = rig.collected.map (·.id) ∧
      flight rig.core.history = rig.collected ++ later ∧
      flight (Call.collect.perform rig).core.history = later ++ fresh ∧
      recent Event.submission? (Call.collect.perform rig).core.history =
        recent Event.submission? rig.core.history ++ fresh := by
  obtain ⟨hlawful, known, hends, hattained⟩ := h.attained
  have hphase : known.phase = .running := hends.phase_eq.resolve_left (by simp)
  have hregular : (rig.scene known).bare.Regular := hattained.regular
  obtain ⟨known', -, -, served, fresh, -, hcollected⟩ :=
    Driver.collect_collects hlawful hregular hends.draft_eq hphase
  have hline : Lined rig.driver (flight rig.core.history) := hregular.line.running hphase
  obtain ⟨front, later, hflight, hserved⟩ := hcollected.served_first horder hunlapped
  have hdeliveries : (Call.collect.perform rig).deliveries = rig.deliveries ++ served :=
    hcollected.moved.deliveries_eq
  have hflight' : flight rig.core.history = front ++ later := hflight
  have hfront : rig.collected = front := by
    have hfind : ∀ transfer ∈ front, (flight rig.core.history).find? (·.id = transfer.id) =
        some transfer := fun transfer hmem =>
      hline.find?_id (hflight' ▸ List.mem_append_left _ hmem)
    calc rig.collected
      _ = served.filterMap fun delivery => (flight rig.core.history).find? (·.id = delivery.1) := by
        rw [Rig.collected, hdeliveries, List.drop_left]
      _ = (served.map Prod.fst).filterMap fun id =>
          (flight rig.core.history).find? (·.id = id) := by
        rw [List.filterMap_map]
        rfl
      _ = front.filterMap some := by
        rw [hserved, List.filterMap_map]
        exact List.filterMap_congr hfind
      _ = front := List.filterMap_some
  rw [hfront]
  refine ⟨hcollected.moved.inOrder horder, served, later, fresh, hdeliveries, hserved, hflight', ?_,
    hcollected.moved.submissions_eq⟩
  have hsplit : Lined rig.driver (front ++ later) := hflight' ▸ hline
  refine hcollected.moved.flight_eq.trans ?_
  rw [hserved, hflight, hsplit.filter_front]

namespace Mixture

/-- All collections of a run deliver in the order of submission, and before all that is in flight;
and what they deliver is what was in flight under those ids. -/
theorem collected_in_order (h : Mixture rig collected) (horder : InOrder rig.core.history) :
    (collected ++ flight rig.core.history).Sublist
      (recent Event.submission? rig.core.history) ∧
    (rig.Unlapped → InOrder (Call.collect.perform rig).core.history → ∃ served,
      (Call.collect.perform rig).deliveries = rig.deliveries ++ served ∧
        served.map Prod.fst = rig.collected.map (·.id)) := by
  constructor
  · induction h with
    | start h => exact flight_sublist _
    | @transfer rig collected h call hcall ih =>
      obtain ⟨fresh, hgrown⟩ := h.session.grown hcall
      exact hgrown.sublist (ih (hgrown.inOrder horder))
    | @collect rig collected h hunlapped ih =>
      obtain ⟨horder', served, later, fresh, -, -, hflight, hflight', hsubmitted⟩ :=
        h.session.collects_front hunlapped horder
      have hbefore := (ih horder').append_right fresh
      rw [hflight] at hbefore
      rw [hflight', hsubmitted]
      simpa only [List.append_assoc] using hbefore
    | @stimulus rig collected h stimulus hlawful ih =>
      have hgrown := rig.stimulate_grown hlawful
      exact hgrown.sublist (ih (hgrown.inOrder horder))
    | follow h script hlawful ih => exact ih horder
  · intro hunlapped horder'
    obtain ⟨-, served, -, -, hdeliveries, hids, -⟩ :=
      h.session.collects_front hunlapped horder'
    exact ⟨served, hdeliveries, hids⟩

/-- So many transfers were sent, each of them completed before the next, and none was collected. -/
def sendMany : Nat → Rig 2 16
  | 0 => Rig.small
  | n + 1 => ((Call.send fun _ => (#[UInt8.ofNat n], 1)).perform (sendMany n)).stimulate
      (.finish (n % 31))

theorem sendMany_mixture (n : Nat) : Mixture (sendMany n) [] := by
  induction n with
  | zero => exact .start Rig.small_session
  | succ n ih => exact (ih.transfer (.send _) trivial).stimulus _ trivial

/-- Two transfers were sent, and a collection delivers them. -/
theorem collected_in_order_two : (sendMany 2).Unlapped ∧
    InOrder (Call.collect.perform (sendMany 2)).core.history ∧
    ((sendMany 2).collected ++ flight (Call.collect.perform (sendMany 2)).core.history).Sublist
      (recent Event.submission? (Call.collect.perform (sendMany 2)).core.history) ∧
    (sendMany 2).collected.map (·.id.val) = [0, 1] := by
  have hunlapped : (sendMany 2).Unlapped := by decide +kernel
  have horder : InOrder (Call.collect.perform (sendMany 2)).core.history := by decide +kernel
  have hcollect := (sendMany_mixture 2).collect hunlapped
  exact ⟨hunlapped, horder, (hcollect.collected_in_order horder).1, by decide +kernel⟩

/-- After a whole lap without a collection the cursor is lapped, and the newer transfer comes
first. -/
theorem collected_lapped : Mixture (sendMany 32) [] ∧ ¬ (sendMany 32).Unlapped ∧
    InOrder (Call.collect.perform (sendMany 32)).core.history ∧
    (flight (sendMany 32).core.history).map (·.id.val) = [29, 0] ∧
    (Call.collect.perform (sendMany 32)).deliveries.map (·.1.val) = [0, 29] :=
  ⟨sendMany_mixture 32, by decide +kernel, by decide +kernel, by decide +kernel, by decide +kernel⟩

end Mixture
end DmaController

import DmaController.Proofs.Conduct
import DmaController.Proofs.Delivery
import DmaController.Proofs.Harvest

/-!
No completion interrupt is lost. Between two calls, a transfer that is done and not yet collected
keeps the completion flag raised, whatever was called before, unless the flag was cleared for a
caller's own use. Steps alone keep this up as long as nobody clears the flag. The interrupt routine
clears it before it takes its snapshot, so what the snapshot does not show has been completed since;
the bit that the snapshot leaves out is that of a transfer that was pending when it was taken.
-/
namespace DmaController

open Relation Sim

/-- The transfer has been submitted, and has come at least so far since: it waits, it was accepted,
or it is complete. -/
def Stage.HasCome (transfer : Transfer) (far : Nat) : Stage → Prop
  | queued other => other = transfer ∧ far = 0
  | running other => other = transfer ∧ far ≤ 1
  | finished other => other = transfer ∧ far ≤ 2
  | none | aborted _ => False

namespace Stage.HasCome

variable {transfer : Transfer} {far : Nat} {stage : Stage}

theorem accept (h : stage.HasCome transfer far) (id : Nat) :
    (stage.accept id).HasCome transfer far := by
  cases stage with
  | queued other =>
    obtain ⟨rfl, rfl⟩ := h
    rw [Stage.accept]
    split_ifs
    · exact ⟨rfl, Nat.zero_le _⟩
    · exact ⟨rfl, rfl⟩
  | none | running | finished | aborted => exact h

theorem complete (h : stage.HasCome transfer far) (id : Nat) :
    (stage.complete id).HasCome transfer far := by
  cases stage with
  | running other =>
    obtain ⟨rfl, hfar⟩ := h
    rw [Stage.complete]
    split_ifs
    · exact ⟨rfl, Nat.le_succ_of_le hfar⟩
    · exact ⟨rfl, hfar⟩
  | none | queued | finished | aborted => exact h

theorem accepted (h : stage.HasCome transfer 0) :
    (stage.accept transfer.id.val).HasCome transfer 1 := by
  cases stage with
  | queued other =>
    obtain ⟨rfl, -⟩ := h
    rw [Stage.accept, if_pos rfl]
    exact ⟨rfl, Nat.le_refl 1⟩
  | running other => exact ⟨h.1, Nat.le_refl 1⟩
  | finished other => exact ⟨h.1, Nat.le_succ 1⟩
  | none | aborted => exact h

theorem completed (h : stage.HasCome transfer 1) :
    (stage.complete transfer.id.val).HasCome transfer 2 := by
  cases stage with
  | running other =>
    obtain ⟨rfl, -⟩ := h
    rw [Stage.complete, if_pos rfl]
    exact ⟨rfl, Nat.le_refl 2⟩
  | finished other => exact ⟨h.1, Nat.le_refl 2⟩
  | queued other => exact absurd h.2 Nat.one_ne_zero
  | none | aborted => exact h

theorem eq_finished (h : stage.HasCome transfer 2) : stage = .finished transfer := by
  cases stage with
  | finished other => rw [h.1]
  | running other => exact absurd h.2 (by decide)
  | queued other => exact absurd h.2 (by decide)
  | none | aborted => exact h.elim

variable {slots : Nat} [HasSlots slots] {slot : Fin slots} {later past : List Event}

/-- While a slot is left alone, its transfer only comes further. -/
theorem quiet (h : (DmaController.stage slot past).HasCome transfer far)
    (hquiet : Quiet slot later) :
    (DmaController.stage slot (later ++ past)).HasCome transfer far := by
  induction later with
  | nil => exact h
  | cons event later ih =>
    obtain ⟨⟨hspared, hother⟩, hquiet⟩ := List.forall_mem_cons.1 hquiet
    have ih := ih hquiet
    cases event with
    | accepted other => exact ih.accept other.id
    | completed id => exact ih.complete id
    | aborted => exact absurd rfl hspared
    | written offset value pending => exact ih
    | noted action =>
      rw [List.cons_append]
      cases hsubmitted : action.submission? with
      | none => rwa [stage_noted slot _ hsubmitted]
      | some other =>
        obtain rfl := Action.eq_submitted hsubmitted
        rwa [stage_submitted_of_ne _ (hother other rfl)]

end Stage.HasCome

variable {slots size : Nat} [HasSlots slots]

/-- A transfer that was accepted and completed has finished its slot. -/
theorem Fulfilled.stage_eq {slot : Fin slots} {transfer : Transfer} {past : List Event}
    (h : Fulfilled slot transfer past) : stage slot past = .finished transfer := by
  obtain ⟨since, _, rfl, hsince, accepted, hid, between, _, rfl, hbetween, waiting, past, rfl,
    hwaiting, rfl⟩ := h
  let submitted := waiting ++ .noted (.submitted transfer) :: past
  let started := between ++ .accepted accepted :: submitted
  have hqueued : (stage (Pool.index slots transfer.id) submitted).HasCome transfer 0 := by
    refine Stage.HasCome.quiet ?_ hwaiting
    rw [stage_submitted_self]
    exact ⟨rfl, rfl⟩
  have hrunning : (stage (Pool.index slots transfer.id)
      (.accepted accepted :: submitted)).HasCome transfer 1 := by
    rw [stage, hid]
    exact hqueued.accepted
  have hfinished : (stage (Pool.index slots transfer.id)
      (.completed transfer.id.val :: started)).HasCome transfer 2 :=
    (hrunning.quiet hbetween).completed
  exact (hfinished.quiet hsince).eq_finished

namespace Sim.Engine

/-- The completion flag is raised. -/
def signals (engine : Engine) : Bool := engine.irqStatus.hasAny Irq.completed

variable (engine : Engine)

theorem signals_complete (id : Nat) : (engine.complete id).signals = true :=
  Word.hasAny_or_right (by decide)

theorem irqStatus_write {offset : Offset} (h : offset ≠ Register.irqStatus) (value : Word) :
    (engine.write offset value).irqStatus = engine.irqStatus := by
  unfold write setControl
  dsimp only
  split_ifs <;> rfl

end Sim.Engine

/-- The slot of `id` is in flight under `id`, and its transfer is done. -/
structure Awaits (d : Driver slots size) (e : Engine) (id : TransferId) : Prop where
  holds : d.Holds id
  done_eq : e.isDone id.val = true
  finished : ∃ transfer, stage (Pool.index slots id) e.history = .finished transfer

/-- Every transfer that is done and not collected keeps the completion flag raised. -/
def Alert (d : Driver slots size) (e : Engine) : Prop :=
  ∀ id, Awaits d e id → e.signals = true

theorem Alert.of_free {d : Driver slots size} {e : Engine}
    (h : ∀ i : Fin slots, (d.pool.slotAt i).transferId? = none) : Alert d e := by
  intro id hawaits
  cases (h _).symm.trans hawaits.holds

section Change

variable {d d' : Driver slots size} {k k' : Known} {e e' : Engine} {id : TransferId}

theorem Awaits.alike (h : Awaits d' e' id) (hpool : d'.pool = d.pool) (he : e.Alike e') :
    Awaits d e id := by
  obtain ⟨hholds, hdone, transfer, hstage⟩ := h
  refine ⟨?_, ?_, transfer, (stage_alike _ he).symm.trans hstage⟩
  · rwa [Driver.Holds, hpool] at hholds
  · rwa [Engine.isDone, he.done_eq] at hdone

/-- What is done was done before the step, or the step completed it. -/
theorem Awaits.of_change (h : Awaits d' e' id) (hchange : Change d k e d' k' e') :
    Awaits d e id ∨ e'.signals = true := by
  cases hchange with
  | turn hturn =>
    cases hturn with
    | takeOver =>
      obtain ⟨hholds, hdone, transfer, hstage⟩ := h
      rw [e.isDone_takeOver id.val_lt, Bool.and_eq_true] at hdone
      refine .inl ⟨hholds, hdone.1, transfer, ?_⟩
      change (stage _ e.history).accept e.acceptId = _ at hstage
      cases hbefore : stage (Pool.index slots id) e.history with
      | queued other =>
        rw [hbefore, Stage.accept] at hstage
        split_ifs at hstage
      | none | running | finished | aborted => rwa [hbefore] at hstage
    | complete other => exact .inr (e.signals_complete other)
  | learn => exact .inl h
  | plain hpool _ _ _ _ _ he => exact .inl (h.alike hpool he)
  | abort value =>
    have hdone : BitVec.getLsbD (0 : Word) id.val = true := h.done_eq
    simp at hdone
  | halt _ _ he => exact .inl (h.alike rfl he)
  | mark transfer =>
    obtain ⟨hholds, hdone, other, hstage⟩ := h
    by_cases hindex : Pool.index slots id = Pool.index slots transfer.id
    · have hqueued : stage (Pool.index slots id)
          (.noted (.submitted transfer) :: e.history) = .queued transfer := by
        rw [hindex, stage_submitted_self]
      cases hqueued.symm.trans hstage
    · refine .inl ⟨?_, hdone, other, (stage_submitted_of_ne _ (Ne.symm hindex)).symm.trans hstage⟩
      exact (congrArg Slot.transferId? (Pool.slot_submit_of_ne _ hindex _)).symm.trans hholds
  | queue => exact .inl ⟨h.holds, h.done_eq, h.finished⟩
  | release _ _ action haction =>
    obtain ⟨hholds, hdone, transfer, hstage⟩ := h
    refine .inl ⟨Pool.transferId?_of_release hholds, hdone, transfer, ?_⟩
    exact (stage_noted _ _ (action.submission?_of_freed? haction)).symm.trans hstage
  | restart hfree =>
    exact absurd h.holds (Driver.not_holds (congrArg Slot.owner (hfree _)))

/-- A transfer that the driver prepares, or that it has queued, waits to be accepted. -/
structure Queues (d : Driver slots size) (k : Known) (e : Engine) : Prop where
  drafted : ∀ transfer, k.draft.transfer? = some transfer →
    stage (Pool.index slots transfer.id) e.history = .queued transfer
  pending : e.submitPending = true → ∀ id, d.newest = some id → d.Holds id →
    ∃ transfer, stage (Pool.index slots id) e.history = .queued transfer

theorem Queues.not_awaits (h : Queues d k e) (hpending : e.submitPending = true)
    (hnewest : d.newest = some id) : ¬ Awaits d e id := by
  intro hawaits
  obtain ⟨transfer, hfinished⟩ := hawaits.finished
  obtain ⟨queued, hqueued⟩ := h.pending hpending id hnewest hawaits.holds
  cases hqueued.symm.trans hfinished

theorem Queues.change (h : Queues d k e) (hsound : Sound d k e)
    (hchange : Change d k e d' k' e') : Queues d' k' e' := by
  have hnone : k'.draft = .none → ∀ transfer, k'.draft.transfer? = some transfer →
      stage (Pool.index slots transfer.id) e'.history = .queued transfer := by
    intro hdraft transfer htransfer
    rw [hdraft] at htransfer
    cases htransfer
  cases hchange with
  | turn hturn =>
    cases hturn with
    | takeOver hpending =>
      refine ⟨fun transfer htransfer => ?_, fun hnot => absurd hnot Bool.false_ne_true⟩
      cases (hsound.quiet_of_drafted htransfer).symm.trans hpending
    | complete other =>
      refine ⟨fun transfer htransfer => ?_, fun hpending id hnewest hholds => ?_⟩
      · exact congrArg (Stage.complete other) (h.drafted transfer htransfer)
      · obtain ⟨transfer, hqueued⟩ := h.pending hpending id hnewest hholds
        exact ⟨transfer, congrArg (Stage.complete other) hqueued⟩
  | learn _ _ hdraft => exact ⟨hnone hdraft, h.pending⟩
  | plain hpool _ hnewest _ _ hdraft he =>
    refine ⟨?_, ?_⟩
    · simpa only [hdraft, stage_alike _ he] using h.drafted
    · simpa only [he.pending_eq, hnewest, Driver.Holds, hpool, stage_alike _ he] using h.pending
  | abort => exact ⟨hnone rfl, fun hnot => absurd hnot Bool.false_ne_true⟩
  | halt _ _ he =>
    refine ⟨hnone rfl, ?_⟩
    simpa only [he.pending_eq, stage_alike _ he] using h.pending
  | mark transfer _ hquiet _ _ _ _ hdraft =>
    refine ⟨fun other hother => ?_, fun hpending => ?_⟩
    · obtain rfl := Option.some.inj (hdraft.symm.trans hother)
      exact stage_submitted_self _ _
    · cases hquiet.symm.trans hpending
  | queue transfer hdraft hdrafted _ _ _ _ hdraft' =>
    refine ⟨hnone hdraft', fun _ id hnewest _ => ⟨transfer, ?_⟩⟩
    obtain rfl := Option.some.inj (hdrafted.newest_eq.symm.trans hnewest)
    exact h.drafted transfer hdraft
  | release _ _ action haction =>
    have hstage : ∀ slot : Fin slots, stage slot (.noted action :: e.history) =
        stage slot e.history := fun slot => stage_noted slot _ (action.submission?_of_freed? haction)
    refine ⟨fun transfer htransfer => ?_, fun hpending id hnewest hholds => ?_⟩
    · exact (hstage _).trans (h.drafted transfer htransfer)
    · obtain ⟨transfer, hqueued⟩ :=
        h.pending hpending id hnewest (Pool.transferId?_of_release hholds)
      exact ⟨transfer, (hstage _).trans hqueued⟩
  | restart hfree _ _ _ _ _ hdraft =>
    refine ⟨hnone hdraft, fun _ id _ hholds => ?_⟩
    exact absurd hholds (Driver.not_holds (congrArg Slot.owner (hfree _)))

end Change

theorem Scene.Attained.queues {ready : Engine → Prop} {s : Scene Engine slots size}
    (h : s.Attained ready) : Queues s.driver s.known s.engine := by
  refine h.invariant ?_ fun _ _ _ _ _ _ hsound h => h.change hsound
  intro d e hfresh _
  refine ⟨nofun, fun _ id hnewest => ?_⟩
  cases hfresh.newest_eq.symm.trans hnewest

/-- Anything but a write that clears interrupt flags. -/
def Action.SparesFlags : Action → Prop
  | .write offset _ => offset ≠ Register.irqStatus
  | _ => True

/-- From `s` to `s'` no flag was cleared: whatever has been done since has raised the flag. -/
structure Heeds (s s' : Scene Engine slots size) : Prop where
  signals_of : s.engine.signals = true → s'.engine.signals = true
  awaits_of : ∀ id, Awaits s'.driver s'.engine id →
    Awaits s.driver s.engine id ∨ s'.engine.signals = true

section Heeds

variable {s s' s'' : Scene Engine slots size} {ready : Engine → Prop}

theorem Heeds.refl (s : Scene Engine slots size) : Heeds s s := ⟨id, fun _ => .inl⟩

theorem Heeds.trans (h : Heeds s s') (h' : Heeds s' s'') : Heeds s s'' where
  signals_of hsignals := h'.signals_of (h.signals_of hsignals)
  awaits_of id hawaits := by
    rcases h'.awaits_of id hawaits with hawaits | hsignals
    · exact (h.awaits_of id hawaits).imp_right h'.signals_of
    · exact .inr hsignals

theorem Heeds.alert (h : Heeds s s') (halert : Alert s.driver s.engine) :
    Alert s'.driver s'.engine := by
  intro id hawaits
  rcases h.awaits_of id hawaits with hawaits | hsignals
  · exact h.signals_of (halert id hawaits)
  · exact hsignals

/-- A step that clears no flag keeps the completion flag raised. -/
theorem Step.signals (h : Step Lapse s s') : ∃ actions,
    s'.port.journal.toList = s.port.journal.toList ++ actions ∧
      ((∀ action ∈ actions, action.SparesFlags) →
        s.engine.signals = true → s'.engine.signals = true) := by
  obtain ⟨actions, hjournal, hentry⟩ := h.entry
  refine ⟨actions, hjournal, fun hspares hsignals => ?_⟩
  rcases hentry with ⟨-, hturn | heq⟩ | ⟨action, rfl, -, heq⟩
  · generalize s'.engine = e at hturn ⊢
    cases hturn with
    | takeOver => exact hsignals
    | complete id => exact s.engine.signals_complete id
  · rwa [heq]
  · rw [heq]
    cases action with
    | write offset value =>
      have hoffset : offset ≠ Register.irqStatus := hspares _ (List.mem_singleton_self _)
      rwa [Deed.apply, Engine.signals, s.engine.irqStatus_write hoffset]
    | _ => exact hsignals

theorem Path.heeds (h : Path Lapse s s') (hattained : s.Attained ready) : ∃ actions,
    s'.port.journal.toList = s.port.journal.toList ++ actions ∧
      ((∀ action ∈ actions, action.SparesFlags) → Heeds s s') := by
  refine h.along .refl (fun h h' => h.trans h') ?_
  intro s₁ s₂ hpath hstep
  obtain ⟨actions, hjournal, hsignals⟩ := hstep.signals
  have hchange := (hattained.path hpath).sound.step_change hstep
  exact ⟨actions, hjournal, fun hspares =>
    ⟨hsignals hspares, fun _ hawaits => hawaits.of_change hchange⟩⟩

end Heeds

/-- A driver on a bench stands where a path from its start has brought it. -/
structure Scene.Stands (ready : Engine → Prop) (s : Scene Bench slots size) : Prop where
  lawful : s.port.world.device.script.IsLawful
  attained : s.bare.Attained ready

namespace Leads

variable {ready : Engine → Prop} {s : Scene Bench slots size} {α : Type}
variable {program : DriverM Bench slots size α} {Q : α → Scene Bench slots size → Prop}

/-- A program that keeps to the protocol, and of which it is known what it enters. -/
theorem stands {R : α → Driver slots size → List Action → Prop} (h : Leads Drifts program Q s)
    (henters : Enters program R s.driver) (hs : s.Stands ready) :
    Leads Drifts program (fun a s' => Q a s' ∧ s'.Stands ready ∧ ∃ actions, R a s'.driver actions ∧
      ((∀ action ∈ actions, action.SparesFlags) → Heeds s.bare s'.bare)) s := by
  obtain ⟨known, hpath, hQ⟩ := h
  obtain ⟨actions, hjournal, hR⟩ := henters s.port
  obtain ⟨hlawful', hpath'⟩ := hpath.bare hs.lawful
  obtain ⟨actions', hjournal', hheeds⟩ := hpath'.heeds hs.attained
  obtain rfl : actions' = actions := List.append_cancel_left (hjournal'.symm.trans hjournal)
  exact ⟨known, hpath, hQ, ⟨hlawful', hs.attained.path hpath'⟩, actions', hR, hheeds⟩

/-- A program that keeps to the protocol and clears no flag. -/
theorem heeds (h : Leads Drifts program Q s) (hspares : Does Action.SparesFlags program)
    (hs : s.Stands ready) : Leads Drifts program (fun a s' =>
      Q a s' ∧ s'.Stands ready ∧ Heeds s.bare s'.bare) s := by
  refine (h.stands (hspares s.driver) hs).mono fun a s' h => ?_
  obtain ⟨hQ, hs', actions, hactions, hheeds⟩ := h
  exact ⟨hQ, hs', hheeds hactions⟩

end Leads

theorem handles_sparesFlags : Handles Action.SparesFlags where
  passive action h := by cases action <;> trivial
  submitted _ := trivial
  delivered _ _ := trivial
  written offset value hoffset := by
    rintro rfl
    exact absurd hoffset (by decide)

namespace Driver

section Snapshot

variable {driver : Driver slots size} {port : Port (World Bench slots size)}

omit [HasSlots slots] in
/-- The submit bit was seen set when the read showed it so. -/
theorem pendingSubmission_shows {id : TransferId}
    (h : (pendingSubmission.outcome driver port).1.1 = some id) :
    (pendingSubmission.outcome driver port).2.world.device.core.submitPending = true := by
  have hread := (RegisterBus.read Register.submit port.world).2.device.core.toEngine.peek_submit
  unfold pendingSubmission at h ⊢
  rw [DriverM.outcome_bind] at h ⊢
  split_ifs at h ⊢ with hpending
  · exact hread.symm.trans hpending
  · cases h

/-- What a scan over `ids` leaves in flight was in flight before, and what it leaves of `ids` was
not done. -/
theorem drainAll_leaves {σ : Type} [RegisterBus (World σ slots size)] (done : DoneBits)
    (consume : Bytes → World σ slots size → World σ slots size) {ids : List TransferId}
    (hnodup : ids.Nodup) (driver : Driver slots size) :
    Enters (drainAll done consume ids) (fun _ d _ =>
      ∀ id, d.Holds id → driver.Holds id ∧ (id ∈ ids → done.isDone id = false)) driver := by
  intro port
  rw [drainAll_outcome done consume hnodup]
  obtain ⟨served, -, -, hjournal⟩ :=
    driver.handOn_served consume (ids.filter (driver.drains done)) port
  refine ⟨_, hjournal, fun id hholds => ?_⟩
  change (((ids.filter (driver.drains done)).foldl Pool.release driver.pool).slotAt
    (Pool.index slots id)).transferId? = some id at hholds
  rw [Pool.slotAt_releases] at hholds
  split_ifs at hholds with hreleased
  · cases hholds
  · refine ⟨hholds, fun hmem => Bool.eq_false_iff.2 fun hdone => hreleased ⟨id, ?_, rfl⟩⟩
    exact List.mem_filter.2 ⟨hmem, drains_eq_true.2 ⟨hdone, hholds⟩⟩

end Snapshot

variable {ready : Engine → Prop} {phase : Phase} {s : Scene Bench slots size}

/-- What a settled snapshot does not show has been done since its look at the submit bit. -/
theorem settledDone_shows (hs : s.Stands ready) (hdraft : s.known.draft = .none) :
    Leads Drifts settledDone (fun bits s' => (s'.driver = s.driver ∧ s.known.Extends s'.known ∧
      s'.known.done = bits) ∧ s'.Stands ready ∧ ∀ id, Awaits s'.driver s'.bare.engine id →
        bits.isDone id = true ∨ s'.bare.engine.signals = true) s := by
  unfold settledDone
  refine .seq (((pendingSubmission_leads hdraft).also
    (P := fun pending d port => (∀ id, pending = some id → s.driver.newest = some id) ∧
      ∀ id, pending = some id → port.world.device.core.submitPending = true)
    ⟨fun _ => pendingSubmission_newest, fun _ => pendingSubmission_shows⟩).heeds
      (.looks handles_sparesFlags.passive fun _ => pendingSubmission_looks) hs) ?_
  intro pending s₁ h
  obtain ⟨⟨⟨hd₁, hk₁, hsettle⟩, hnewest, hshown⟩, hs₁, -⟩ := h
  refine .seq (((doneBits_leads (hk₁.draft_eq.trans hdraft)).also
    (P := fun bits _ port => bits.word = port.world.device.core.done) rfl).heeds
    (.looks handles_sparesFlags.passive fun _ => doneBits_looks) hs₁) ?_
  intro bits s₂ h
  obtain ⟨⟨⟨hd₂, hk₂, hbits⟩, hword⟩, hs₂, hheeds⟩ := h
  have hsettled := hbits.trans (hsettle bits)
  have hshows : ∀ id, Awaits s₂.driver s₂.bare.engine id →
      bits.isDone id = true ∧ pending ≠ some id ∨ s₂.bare.engine.signals = true := by
    intro id hawaits
    refine (hheeds.awaits_of id hawaits).imp_left fun hbefore => ⟨?_, fun hpending => ?_⟩
    · have hbit : s₂.port.world.device.core.done.getLsbD id.val = true := hawaits.done_eq
      rwa [DoneBits.isDone, hword]
    · refine hs₁.attained.queues.not_awaits (hshown id hpending) ?_ hbefore
      exact (congrArg Driver.newest hd₁).trans (hnewest id hpending)
  cases pending with
  | none => exact .pure ⟨⟨hd₂.trans hd₁, hk₁.trans hk₂, hsettled⟩, hs₂, fun id hawaits =>
      (hshows id hawaits).imp_left And.left⟩
  | some newest =>
    refine .pure ⟨⟨hd₂.trans hd₁, hk₁.trans hk₂, hsettled⟩, hs₂, fun id hawaits => ?_⟩
    refine (hshows id hawaits).imp_left fun h => ?_
    rw [DoneBits.isDone_without, h.1, Bool.true_and, decide_eq_true]
    rintro rfl
    exact h.2 rfl

/-- Whatever a collection leaves uncollected raises the completion flag. -/
theorem collect_alerts (hs : s.Stands ready) (hrests : s.Rests phase) :
    Leads Drifts (collect Sim.consume) (fun _ s' => s'.Stands ready ∧
      Alert s'.driver s'.bare.engine) s := by
  have hconsume : ∀ data (world : World Bench slots size), Drifts world (Sim.consume data world) :=
    fun _ => occur_drifts .consume
  unfold collect
  refine .seq (settledDone_shows hs hrests.draft_eq) ?_
  intro bits s₁ h
  obtain ⟨⟨-, hk₁, rfl⟩, hs₁, hshows⟩ := h
  refine .bind (.get (.seq ((drainAll_leads hconsume _).stands
    ((drainAll_leaves _ _ (TransferId.nodup_lap _) _).and
      (drainAll_does handles_sparesFlags _ _ _ _)) hs₁) ?_))
  intro drained s₂ h
  obtain ⟨⟨hk₂, -⟩, hs₂, actions, ⟨hleaves, hspares⟩, hheeds⟩ := h
  have hheeds := hheeds hspares
  have halert : Alert s₂.driver s₂.bare.engine := by
    intro id hawaits
    obtain ⟨-, hmissed⟩ := hleaves id hawaits.holds
    rcases hheeds.awaits_of id hawaits with hbefore | hsignals
    · rcases hshows id hbefore with hshown | hsignals
      · cases (hmissed (TransferId.mem_lap _ id)).symm.trans hshown
      · exact hheeds.signals_of hsignals
    · exact hsignals
  have hrests₂ : s₂.Rests phase := by
    refine hrests.keeps ?_
    rw [hk₂]
    exact hk₁.toKeeps
  refine .seq ((advance_leads drained).heeds (advance_does drained) hs₂) ?_
  intro _ s₃ h
  obtain ⟨⟨hk₃, -⟩, hs₃, hheeds₃⟩ := h
  have hrests₃ : s₃.Rests phase :=
    ⟨by rw [hk₃, hrests₂.draft_eq], by rw [hk₃]; exact hrests₂.phase_eq⟩
  refine .seq
    ((refillStream_leads _ hrests₃).heeds (refillStream_does handles_sparesFlags _) hs₃) ?_
  intro _ s₄ h
  obtain ⟨-, hs₄, hheeds₄⟩ := h
  exact .pure ⟨hs₄, hheeds₄.alert (hheeds₃.alert halert)⟩

omit [HasSlots slots] in
/-- No flag is cleared unless the completion flag was found raised. -/
theorem claimCompletion_spares {σ : Type} [RegisterBus (World σ slots size)]
    (driver : Driver slots size) : Enters (claimCompletion : DriverM σ slots size Bool)
      (fun claimed _ actions => claimed = false → ∀ action ∈ actions, action.SparesFlags) driver := by
  unfold claimCompletion irqFlags
  refine .bind (.bind (.read fun value => .pure ?_))
  split_ifs
  · exact .bind (.write (.pure nofun))
  · exact .pure fun _ => List.forall_mem_singleton.2 trivial

theorem serviceInterrupt_alerts (hs : s.Stands ready) (hrests : s.Rests phase)
    (halert : Alert s.driver s.bare.engine) :
    Leads Drifts (serviceInterrupt Sim.consume) (fun _ s' => Alert s'.driver s'.bare.engine) s := by
  have hline : ∀ world : World Bench slots size, Drifts world (InterruptLine.acknowledge world) :=
    fun _ => ⟨rfl, fun _ => .refl⟩
  unfold serviceInterrupt onCompletion
  refine .bind (.seq ((claimCompletion_leads hrests.draft_eq).stands (claimCompletion_spares _) hs)
    ?_)
  intro claimed s₁ h
  obtain ⟨hstays, hs₁, actions, hspares, hheeds⟩ := h
  have hrests₁ : s₁.Rests phase := ⟨hstays.draft_eq, by rw [hstays.phase_eq]; exact hrests.phase_eq⟩
  split_ifs with hclaimed
  · refine .seq (collect_alerts hs₁ hrests₁) ?_
    intro collected s₂ h
    obtain ⟨hs₂, halert₂⟩ := h
    exact .pure (.bind (.alter (hline _) (.pure halert₂)))
  · have halert₁ := (hheeds (hspares (by simpa using hclaimed))).alert halert
    exact .pure (.bind (.alter (hline _) (.pure halert₁)))

/-- A stream starts with free slots, so nothing is lost with the flags that it clears. -/
theorem startStream_alerts (bytes : Nat) (hs : s.Stands ready) (hdraft : s.known.draft = .none)
    (halert : Alert s.driver s.bare.engine) :
    Leads Drifts (startStream bytes) (fun _ s' => Alert s'.driver s'.bare.engine) s := by
  unfold startStream
  refine .bind (.get ?_)
  split_ifs
  swap
  · exact .pure halert
  refine .bind (.get ?_)
  cases s.driver.requestSize? bytes with
  | none => exact .pure halert
  | some granted =>
    refine .seq ((restart_leads hdraft).stands restart_enters hs) ?_
    intro _ s₁ h
    obtain ⟨⟨hd₁, hdraft₁, -⟩, hs₁, -⟩ := h
    let s₂ : Scene Bench slots size :=
      { s₁ with driver := { s₁.driver with stream := some granted } }
    have hstep : Step Drifts s₁ s₂ := ⟨.inward, .stream _ _ _, rfl, trivial⟩
    have hs₂ : s₂.Stands ready :=
      ⟨hs₁.lawful, hs₁.attained.path (hstep.bare hs₁.lawful).2⟩
    have hdraft₂ : s₂.known.draft = .none := hdraft₁
    refine .bind (.inward (.stream _ _ _)
      (.seq ((enableIrq_leads hdraft₂).stands enableIrq_enters hs₂) ?_))
    intro _ s₃ h
    obtain ⟨hstays, hs₃, -⟩ := h
    have hfree : ∀ i : Fin slots, (s₃.driver.pool.slotAt i).transferId? = none := by
      intro i
      have hpool : s₃.driver.pool = s.driver.pool.releaseAll :=
        (congrArg Driver.pool hstays.driver_eq).trans (congrArg Driver.pool hd₁)
      rw [hpool, s.driver.pool.slotAt_releaseAll]
      rfl
    have hrests₃ : s₃.Rests s₃.known.phase := ⟨hstays.draft_eq, .inl rfl⟩
    refine .seq ((refill_leads granted hrests₃).heeds (refill_does handles_sparesFlags granted)
      hs₃) ?_
    intro queued s₄ h
    obtain ⟨-, hs₄, hheeds⟩ := h
    refine .seq (Leads.heeds (Q := fun _ _ => True) (.log trivial) (.record trivial) hs₄) ?_
    intro _ s₅ h
    obtain ⟨-, -, hheeds₅⟩ := h
    exact .pure (hheeds₅.alert (hheeds.alert (.of_free hfree)))

end Driver

/-- A call that clears the completion flag for its caller's own use. -/
def Call.IsClaim : Call → Prop
  | .claimCompletion | .enableIrq => True
  | _ => False

/-- A call that clears no flag at all. -/
def Call.SparesFlags : Call → Prop
  | .claimCompletion | .enableIrq | .serviceInterrupt | .startStream _ => False
  | _ => True

theorem Call.SparesFlags.does {call : Call} (h : call.SparesFlags) (rig : Rig slots size) :
    ∃ actions, (call.perform rig).port.journal.toList = rig.port.journal.toList ++ actions ∧
      ∀ action ∈ actions, action.SparesFlags := by
  have hrun : ∀ {α : Type} {program : DriverM Bench slots size α},
      Does Action.SparesFlags program →
      ∃ actions, (rig.run program).port.journal.toList = rig.port.journal.toList ++ actions ∧
        ∀ action ∈ actions, action.SparesFlags := fun hprogram => hprogram rig.driver rig.port
  have hcontrol : ∀ value, Action.SparesFlags (.write Register.control value) :=
    fun _ => show Register.control ≠ Register.irqStatus by decide
  have hmask : ∀ value, Action.SparesFlags (.write Register.irqMask value) :=
    fun _ => show Register.irqMask ≠ Register.irqStatus by decide
  have hrestart : Does Action.SparesFlags (Driver.restart : DriverM Bench slots size Unit) :=
    Driver.restart_does (fun _ => trivial) hcontrol fun _ => trivial
  cases call with
  | send => exact hrun (Driver.send_does handles_sparesFlags (fun _ => trivial) _)
  | sendAndWait limit =>
    exact hrun (Driver.sendAndWait_does handles_sparesFlags (fun _ => trivial) limit _)
  | receive bytes => exact hrun (Driver.receive_does handles_sparesFlags bytes _ _)
  | collect => exact hrun (Driver.collect_does handles_sparesFlags _)
  | reset => exact hrun (.bind hrestart fun _ => .change _)
  | enable | disable | pause | resume =>
    exact hrun (.update (fun _ => trivial) fun _ => hcontrol _)
  | disableIrq => exact hrun (.write (hmask _))
  | acknowledge | registerSink => exact hrun (.alter _)
  | isEnabled | isPaused | progress | irqFlags | doneBits =>
    exact hrun (.looks handles_sparesFlags.passive fun _ => .read _ _)
  | serviceInterrupt | claimCompletion | startStream | enableIrq => exact h.elim

/-- A run in which the completion flag is cleared by the interrupt routine and by the start of a
stream only. -/
inductive Attended (ready : Engine → Prop) : Rig slots size → Prop
  | start {world : World Bench slots size} {config : Config} {pool : Pool slots size}
      {driver : Driver slots size} {port : Port (World Bench slots size)}
      (hready : ready world.device.core.toEngine) (hlawful : world.device.script.IsLawful)
      (h : (Driver.start config pool).run ⟨world, #[]⟩ = (.ok driver, port)) :
      Attended ready ⟨driver, port⟩
  | call {rig : Rig slots size} (h : Attended ready rig) (call : Call) (hcall : ¬ call.IsClaim) :
      Attended ready (call.perform rig)
  | stimulus {rig : Rig slots size} (h : Attended ready rig) (stimulus : Stimulus)
      (hlawful : stimulus.IsLawful) : Attended ready (rig.stimulate stimulus)
  | follow {rig : Rig slots size} (h : Attended ready rig) (script : Script)
      (hlawful : script.IsLawful) : Attended ready (rig.follow script)

section Attended

variable {ready : Engine → Prop} {phase : Phase} {rig : Rig slots size} {known : Known}

theorem Attended.session (h : Attended ready rig) : ∃ phase, Session ready phase rig := by
  induction h with
  | start hready hlawful h => exact ⟨_, .start hready hlawful h⟩
  | call _ call _ ih =>
    obtain ⟨phase, ih⟩ := ih
    exact ⟨_, ih.call call⟩
  | stimulus _ stimulus hlawful ih =>
    obtain ⟨phase, ih⟩ := ih
    exact ⟨_, ih.stimulus stimulus hlawful⟩
  | follow _ script hlawful ih =>
    obtain ⟨phase, ih⟩ := ih
    exact ⟨_, ih.follow script hlawful⟩

/-- Every call but a claim leaves a driver alert. -/
theorem Call.alerts (call : Call) (hcall : ¬ call.IsClaim) (hs : (rig.scene known).Stands ready)
    (hends : (rig.scene known).Ends phase) (halert : Alert rig.driver rig.core.toEngine) :
    Alert (call.perform rig).driver (call.perform rig).core.toEngine := by
  have hrests : (rig.scene known).Rests known.phase := ⟨hends.draft_eq, .inl rfl⟩
  have hspares : call.SparesFlags → Alert (call.perform rig).driver
      (call.perform rig).core.toEngine := by
    intro h
    obtain ⟨known', hpath, -⟩ := call.ends hends
    obtain ⟨actions, hjournal, hactions⟩ := h.does rig
    obtain ⟨actions', hjournal', hheeds⟩ := (hpath.bare hs.lawful).2.heeds hs.attained
    obtain rfl : actions' = actions := List.append_cancel_left (hjournal'.symm.trans hjournal)
    exact (hheeds hactions).alert halert
  cases call with
  | claimCompletion | enableIrq => exact absurd trivial hcall
  | serviceInterrupt =>
    obtain ⟨_, -, halert'⟩ := Driver.serviceInterrupt_alerts hs hrests halert
    exact halert'
  | startStream bytes =>
    obtain ⟨_, -, halert'⟩ := Driver.startStream_alerts bytes hs hends.draft_eq halert
    exact halert'
  | _ => exact hspares trivial

theorem Attended.alert (h : Attended ready rig) : Alert rig.driver rig.core.toEngine := by
  induction h with
  | start _ _ h =>
    have hfresh := Driver.start_fresh h
    refine .of_free fun i => ?_
    rw [hfresh.slotAt_eq]
    rfl
  | call h call hcall ih =>
    obtain ⟨phase, hsession⟩ := h.session
    obtain ⟨hlawful, known, hends, hattained⟩ := hsession.attained
    exact call.alerts hcall ⟨hlawful, hattained⟩ hends ih
  | @stimulus rig h stimulus hlawful ih =>
    obtain ⟨phase, hsession⟩ := h.session
    obtain ⟨-, known, -, hattained⟩ := hsession.attained
    obtain ⟨actions, hjournal, hheeds⟩ := (path_of_lapse rig.driver known rig.port.journal
      (stimulate_lapse rig.port.world hlawful)).heeds hattained
    obtain rfl : actions = [] :=
      List.append_cancel_left (hjournal.symm.trans (List.append_nil _).symm)
    exact (hheeds fun _ hmem => absurd hmem List.not_mem_nil).alert ih
  | follow _ _ _ ih => exact ih

/-- No completion interrupt is lost: between two calls, a slot that is in flight for a transfer that
was accepted and completed since keeps the completion flag raised. -/
theorem Attended.completion_signalled (h : Attended ready rig) (i : Fin slots)
    (transfer : Transfer) (hheld : (rig.driver.pool.slotAt i).transferId? = some transfer.id)
    (hfulfilled : Fulfilled i transfer rig.core.history)
    (hdone : rig.core.isDone transfer.id.val = true) :
    rig.core.irqStatus.hasAny Irq.completed = true := by
  have hstage := hfulfilled.stage_eq
  obtain ⟨_, _, -, -, _, -, _, _, -, -, _, _, -, -, rfl⟩ := hfulfilled
  exact h.alert transfer.id ⟨hheld, hdone, transfer, hstage⟩

namespace Attended

/-- Two transfers were sent, and the first is done. While the interrupt routine passes it on, the
second is completed. -/
def overtaken : Rig 2 16 :=
  let sent := (Call.send fun _ => (#[2], 1)).perform
    ((Call.send fun _ => (#[1], 1)).perform Rig.small)
  Call.serviceInterrupt.perform ((sent.stimulate (.finish 0)).follow fun occasion _ =>
    if occasion = .consume then [.finish 1] else [])

theorem overtaken_attended : Attended Engine.IsUnused overtaken := by
  have hstarted : Attended Engine.IsUnused Rig.small :=
    .start Engine.isUnused_fresh Script.isLawful_none Rig.small_started
  have hfirst := hstarted.call (.send fun _ => (#[1], 1)) not_false
  have hsecond := hfirst.call (.send fun _ => (#[2], 1)) not_false
  refine .call (.follow (hsecond.stimulus (.finish 0) trivial) _ ?_) .serviceInterrupt not_false
  intro occasion _ stimulus hmem
  dsimp only at hmem
  split_ifs at hmem
  · obtain rfl := List.mem_singleton.1 hmem
    trivial
  · exact absurd hmem List.not_mem_nil

/-- The routine has cleared the flag, and the transfer that it has left in flight has raised it
again. -/
theorem completion_signalled_overtaken :
    let transfer : Transfer := ⟨.outbound, .next .first, 1, 0x1000⟩
    (overtaken.driver.pool.slotAt 1).transferId? = some transfer.id ∧
    Fulfilled (1 : Fin 2) transfer overtaken.core.history ∧
    overtaken.core.isDone transfer.id.val = true ∧
    overtaken.core.irqStatus.hasAny Irq.completed = true := by
  intro transfer
  have hheld : (overtaken.driver.pool.slotAt 1).transferId? = some transfer.id := by decide +kernel
  have hdone : overtaken.core.isDone transfer.id.val = true := by decide +kernel
  have hstage : stage (1 : Fin 2) overtaken.core.history = .finished transfer := by decide +kernel
  have hfulfilled : Fulfilled (1 : Fin 2) transfer overtaken.core.history := by
    have htells := stage_tells (1 : Fin 2) overtaken.core.history
    rwa [hstage] at htells
  exact ⟨hheld, hfulfilled, hdone,
    completion_signalled overtaken_attended 1 transfer hheld hfulfilled hdone⟩

end Attended

end Attended

end DmaController

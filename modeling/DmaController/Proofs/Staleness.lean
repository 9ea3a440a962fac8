import DmaController.Proofs.Replay
import DmaController.Proofs.Signalled

/-!
Stale done bits. A done bit stays set until its id is accepted again, so the id of a new submission
may show the bit of an old transfer. What keeps the driver from taking it for a completion is that
only the newest submission can be pending, and that its acceptance clears just its bit. So a slot
becomes ripe for a collection by a completion and by nothing else. Main statement: a collection that
follows another one, with no completion since that began, finds nothing.
-/
namespace DmaController

open Relation Sim

variable {slots size : Nat} [HasSlots slots]

/-- While a slot is in flight, a pending submission is that of the newest id, and it will be
accepted under that. -/
def Attributed (d : Driver slots size) (e : Engine) : Prop :=
  e.submitPending = true → ∀ id, d.Holds id →
    ∃ newest, d.newest = some newest ∧ e.acceptId = newest.val

/-- The slot of `id` is in flight under `id`, its done bit is set, and the bit counts: the
submission of `id` is neither being prepared nor pending. -/
structure Ripe (d : Driver slots size) (k : Known) (e : Engine) (id : TransferId) : Prop where
  holds : d.Holds id
  done_eq : e.isDone id.val = true
  accepted : ¬ (e.submitPending = true ∧ d.newest = some id)
  undrafted : ∀ transfer, k.draft.transfer? = some transfer → transfer.id ≠ id

namespace Sim.Engine

/-- How many transfers were completed. -/
def completions (engine : Engine) : Nat :=
  engine.history.countP fun event => event matches .completed _

end Sim.Engine

section Change

variable {d d' : Driver slots size} {k k' : Known} {e e' : Engine} {id : TransferId}

theorem Attributed.of_quiet (h : e.submitPending = false) : Attributed d e := by
  intro hpending
  cases h.symm.trans hpending

theorem Attributed.alike (h : Attributed d e) (hpool : d'.pool = d.pool)
    (hnewest : d'.newest = d.newest) (he : e.Alike e') : Attributed d' e' := by
  intro hpending id hholds
  rw [hnewest, he.acceptId_eq]
  rw [Driver.Holds, hpool] at hholds
  exact h (he.pending_eq.symm.trans hpending) id hholds

theorem Attributed.change (h : Attributed d e) (hchange : Change d k e d' k' e') :
    Attributed d' e' := by
  cases hchange with
  | turn hturn =>
    cases hturn with
    | takeOver => exact .of_quiet rfl
    | complete => exact h
  | learn => exact h
  | plain hpool _ hnewest _ _ _ he => exact h.alike hpool hnewest he
  | abort => exact .of_quiet rfl
  | halt _ _ he => exact h.alike rfl rfl he
  | mark _ _ hquiet => exact .of_quiet hquiet
  | queue transfer _ hdrafted _ hcarries =>
    exact fun _ _ _ => ⟨transfer.id, hdrafted.newest_eq, hcarries.id_eq⟩
  | release => exact fun hpending id hholds => h hpending id (Pool.transferId?_of_release hholds)
  | restart hfree =>
    intro _ id hholds
    exact absurd hholds (Driver.not_holds (congrArg Slot.owner (hfree _)))

/-- An acceptance leaves the bit of a ripe transfer alone. -/
theorem Ripe.ne_acceptId (h : Ripe d k e id) (hattributed : Attributed d e)
    (hpending : e.submitPending = true) : id.val ≠ e.acceptId := by
  obtain ⟨newest, hnewest, hid⟩ := hattributed hpending id h.holds
  intro heq
  obtain rfl : id = newest := Fin.ext (heq.trans hid)
  exact h.accepted ⟨hpending, hnewest⟩

/-- What is ripe stays ripe when the engine moves. -/
theorem Ripe.turn (h : Ripe d k e id) (hattributed : Attributed d e) (hturn : Turn e e') :
    Ripe d k e' id := by
  cases hturn with
  | takeOver hpending =>
    refine { h with done_eq := ?_, accepted := fun hnot => Bool.false_ne_true hnot.1 }
    rw [e.isDone_takeOver id.val_lt, h.done_eq,
      decide_eq_true (h.ne_acceptId hattributed hpending)]
    rfl
  | complete other =>
    refine { h with done_eq := ?_ }
    rw [e.isDone_complete id.val_lt, h.done_eq, Bool.true_or]

theorem Engine.completions_alike (he : e.Alike e') : e'.completions = e.completions := by
  unfold Sim.Engine.completions
  rcases he.history_eq with heq | ⟨event, hplain, heq⟩
  · rw [heq]
  · rw [heq, List.countP_cons_of_neg]
    cases event with
    | completed => exact hplain.elim
    | _ => simp

/-- A step adds completions to those before it. -/
theorem Change.completions_le (h : Change d k e d' k' e') : e.completions ≤ e'.completions := by
  cases h with
  | turn hturn =>
    cases hturn with
    | takeOver => exact (List.countP_cons_of_neg (by simp)).ge
    | complete => exact (Nat.le_succ _).trans (List.countP_cons_of_pos (by simp)).ge
  | learn => exact le_rfl
  | plain _ _ _ _ _ _ he | halt _ _ he | restart _ _ _ _ _ _ _ _ he =>
    exact (Engine.completions_alike he).ge
  | abort value =>
    change _ ≤ List.countP _
      (.aborted :: .written Register.control value e.submitPending :: e.history)
    rw [List.countP_cons_of_neg (by simp), List.countP_cons_of_neg (by simp)]
    exact le_rfl
  | mark => exact (List.countP_cons_of_neg (by simp)).ge
  | queue => exact (List.countP_cons_of_neg (by simp)).ge
  | release => exact (List.countP_cons_of_neg (by simp)).ge

/-- Only a completion makes a transfer ripe. -/
theorem Ripe.of_change (h : Ripe d' k' e' id) (hattributed : Attributed d e)
    (hchange : Change d k e d' k' e') : Ripe d k e id ∨ e.completions < e'.completions := by
  obtain ⟨hholds, hdone, haccepted, hundrafted⟩ := h
  have hnone : k.draft = .none → ∀ transfer, k.draft.transfer? = some transfer →
      transfer.id ≠ id := by
    intro hdraft transfer htransfer
    rw [hdraft] at htransfer
    cases htransfer
  cases hchange with
  | turn hturn =>
    cases hturn with
    | takeOver hpending =>
      rw [e.isDone_takeOver id.val_lt, Bool.and_eq_true, decide_eq_true_eq] at hdone
      refine .inl ⟨hholds, hdone.1, fun hnewest => ?_, hundrafted⟩
      -- The acceptance has cleared the bit of the newest id, so `id` is not that.
      obtain ⟨newest, heq, hid⟩ := hattributed hpending id hholds
      obtain rfl : newest = id := Option.some.inj (heq.symm.trans hnewest.2)
      exact hdone.2 hid.symm
    | complete =>
      exact .inr ((Nat.lt_succ_self _).trans_eq (List.countP_cons_of_pos (by simp)).symm)
  | learn _ hdraft => exact .inl ⟨hholds, hdone, haccepted, hnone hdraft⟩
  | plain hpool _ hnewest _ _ hdraft he =>
    left
    rw [Driver.Holds, hpool] at hholds
    rw [Engine.isDone, he.done_eq] at hdone
    rw [he.pending_eq, hnewest] at haccepted
    rw [hdraft] at hundrafted
    exact ⟨hholds, hdone, haccepted, hundrafted⟩
  | abort value =>
    change BitVec.getLsbD (0 : Word) id.val = true at hdone
    simp at hdone
  | halt hdraft _ he =>
    left
    rw [Engine.isDone, he.done_eq] at hdone
    rw [he.pending_eq] at haccepted
    exact ⟨hholds, hdone, haccepted, hnone hdraft⟩
  | mark transfer hdraft hquiet _ _ _ _ hdraft' =>
    have hne : transfer.id ≠ id := hundrafted transfer hdraft'
    refine .inl ⟨?_, hdone, fun hpending => ?_, hnone hdraft⟩
    · have hslot : ((d.pool.submit transfer.id transfer.length).slot id).transferId? = some id :=
        hholds
      by_cases hindex : Pool.index slots id = Pool.index slots transfer.id
      · rw [Pool.slot_of_index _ hindex, Pool.slot_submit_self] at hslot
        exact absurd (Option.some.inj hslot) hne
      · rwa [Pool.slot_submit_of_ne _ hindex] at hslot
    · cases hquiet.symm.trans hpending.1
  | queue transfer hdraft hdrafted hquiet =>
    refine .inl ⟨hholds, hdone, fun hpending => ?_, fun other hother heq => ?_⟩
    · cases hquiet.symm.trans hpending.1
    · obtain rfl := Option.some.inj (hdraft.symm.trans hother)
      exact haccepted ⟨rfl, heq ▸ hdrafted.newest_eq⟩
  | release => exact .inl ⟨Pool.transferId?_of_release hholds, hdone, haccepted, hundrafted⟩
  | restart hfree =>
    exact absurd hholds (Driver.not_holds (congrArg Slot.owner (hfree _)))

/-- What the driver takes for done is ripe. -/
def Founded (d : Driver slots size) (k : Known) (e : Engine) : Prop :=
  ∀ id, k.done.isDone id = true → d.Holds id → Ripe d k e id

theorem Founded.of_none (h : k.done = .none) : Founded d k e := by
  intro id hid
  rw [h, DoneBits.isDone_none] at hid
  cases hid

theorem Founded.change (h : Founded d k e) (hattributed : Attributed d e)
    (hchange : Change d k e d' k' e') : Founded d' k' e' := by
  cases hchange with
  | turn hturn => exact fun id hid hholds => (h id hid hholds).turn hattributed hturn
  | learn _ hdraft hdraft' hdone =>
    intro id hid hholds
    have hundrafted : ∀ transfer, k'.draft.transfer? = some transfer → transfer.id ≠ id := by
      intro transfer htransfer
      rw [hdraft'] at htransfer
      cases htransfer
    rcases hdone id hid with hid | ⟨hbit, haccepted⟩
    · exact { h id hid hholds with undrafted := hundrafted }
    · exact ⟨hholds, hbit, haccepted, hundrafted⟩
  | plain hpool _ hnewest _ hdone hdraft he =>
    intro id hid hholds
    rw [hdone] at hid
    have hripe := h id hid (by rwa [Driver.Holds, hpool] at hholds)
    refine ⟨hholds, ?_, ?_, ?_⟩
    · rw [Engine.isDone, he.done_eq]
      exact hripe.done_eq
    · rw [he.pending_eq, hnewest]
      exact hripe.accepted
    · rw [hdraft]
      exact hripe.undrafted
  | abort | halt => exact .of_none rfl
  | mark _ _ _ _ _ _ hdone | queue _ _ _ _ _ _ hdone | restart _ _ _ _ hdone =>
    exact .of_none hdone
  | release =>
    intro id hid hholds
    exact { h id hid (Pool.transferId?_of_release hholds) with holds := hholds }

end Change

variable {ready : Engine → Prop}

namespace Scene.Attained

variable {s : Scene Engine slots size}

theorem attributed (h : s.Attained ready) : Attributed s.driver s.engine := by
  refine h.invariant (P := fun d _ e => Attributed d e) ?_ fun _ _ _ _ _ _ _ h => h.change
  intro d e hfresh _ _ id hholds
  exact absurd hholds (hfresh.not_holds id)

theorem founded (h : s.Attained ready) : Founded s.driver s.known s.engine :=
  h.induct (P := fun s => Founded s.driver s.known s.engine)
    (fun _ hbegins => .of_none (by rw [hbegins.known_eq]))
    fun _ _ hattained h hstep => h.change hattained.attributed (hattained.sound.step_change hstep)

end Scene.Attained

/-- From `s` to `s'` nothing became ripe unless something was completed. -/
structure Ripens (s s' : Scene Engine slots size) : Prop where
  completions_le : s.engine.completions ≤ s'.engine.completions
  ripe_of : ∀ id, Ripe s'.driver s'.known s'.engine id →
    Ripe s.driver s.known s.engine id ∨ s.engine.completions < s'.engine.completions

section Ripens

variable {s s' s'' : Scene Engine slots size}

theorem Ripens.refl (s : Scene Engine slots size) : Ripens s s := ⟨le_rfl, fun _ => .inl⟩

theorem Ripens.trans (h : Ripens s s') (h' : Ripens s' s'') : Ripens s s'' where
  completions_le := h.completions_le.trans h'.completions_le
  ripe_of id hripe := by
    rcases h'.ripe_of id hripe with hripe | hlt
    · exact (h.ripe_of id hripe).imp_right fun hlt => hlt.trans_le h'.completions_le
    · exact .inr (h.completions_le.trans_lt hlt)

theorem Path.ripens (h : Path Lapse s s') (hattained : s.Attained ready) : Ripens s s' := by
  induction h with
  | refl => exact .refl s
  | tail hpath hstep ih =>
    have hattained := hattained.path hpath
    have hchange := hattained.sound.step_change hstep
    exact ih.trans ⟨hchange.completions_le, fun _ hripe =>
      hripe.of_change hattained.attributed hchange⟩

/-- What is ripe stays ripe while the driver only looks. -/
theorem Step.ripe (h : Step Lapse s s') (hattributed : Attributed s.driver s.engine) :
    ∃ actions, s'.port.journal.toList = s.port.journal.toList ++ actions ∧
      (Passive actions → ∀ id, Ripe s.driver s.known s.engine id →
        Ripe s'.driver s'.known s'.engine id) := by
  obtain ⟨driver, known, ⟨engine, memory⟩, journal⟩ := s
  obtain ⟨driver', known', ⟨engine', memory'⟩, journal'⟩ := s'
  obtain ⟨deed, hprotocol, hserves, -⟩ := h
  refine ⟨deed.actions, hserves.journal_eq, fun hpassive id hripe => ?_⟩
  cases hprotocol with
  | read offset value =>
    obtain ⟨hworld, -⟩ := Port.mk.inj hserves.2
    obtain rfl : engine' = engine := (World.mk.inj hworld).1
    refine { hripe with undrafted := fun transfer htransfer => hripe.undrafted transfer ?_ }
    rwa [← Known.draft_learn known driver.newest offset value]
  | remark action hremark =>
    cases action with
    | log | offered | delayed =>
      obtain ⟨hworld, -⟩ := Port.mk.inj hserves
      obtain rfl : engine' = engine.remember (.noted _) := (World.mk.inj hworld).1
      exact { hripe with }
    | _ => exact hremark.elim
  | meanwhile =>
    cases hserves.1 with
    | turn _ hturn => exact hripe.turn hattributed hturn
    | store => exact hripe
  | adopt _ _ _ hfresh => exact absurd hripe.holds (hfresh.not_holds id)
  | fill | turn | stream =>
    obtain ⟨hworld, -⟩ := Port.mk.inj hserves
    obtain rfl : engine' = engine := (World.mk.inj hworld).1
    exact { hripe with }
  | _ => exact False.elim (hpassive _ (List.mem_singleton_self _))

end Ripens

/-- Between the two scenes the driver only looks. -/
structure Watches (s s' : Scene Engine slots size) : Prop where
  path : Path Lapse s s'
  passive : ∃ actions, s'.port.journal.toList = s.port.journal.toList ++ actions ∧ Passive actions

theorem Watches.ripe {s s' : Scene Engine slots size} (h : Watches s s')
    (hattained : s.Attained ready) {id : TransferId}
    (hripe : Ripe s.driver s.known s.engine id) : Ripe s'.driver s'.known s'.engine id := by
  obtain ⟨actions, hjournal, hpassive⟩ := h.passive
  obtain ⟨actions', hjournal', hkeeps⟩ := h.path.along (P := Action.IsPassive)
    (R := fun s s' => ∀ id, Ripe s.driver s.known s.engine id →
      Ripe s'.driver s'.known s'.engine id)
    (fun _ _ h => h) (fun h h' id hripe => h' id (h id hripe))
    fun hpath hstep => hstep.ripe (hattained.path hpath).attributed
  obtain rfl : actions' = actions := List.append_cancel_left (hjournal'.symm.trans hjournal)
  exact hkeeps hpassive id hripe

namespace Leads

variable {s : Scene Bench slots size} {α : Type} {program : DriverM Bench slots size α}
variable {Q : α → Scene Bench slots size → Prop}

/-- A program that keeps to the protocol ripens nothing by itself. -/
theorem ripens (h : Leads Drifts program Q s) (hs : s.Stands ready) :
    Leads Drifts program (fun a s' => Q a s' ∧ s'.Stands ready ∧ Ripens s.bare s'.bare) s := by
  obtain ⟨known, hpath, hQ⟩ := h
  obtain ⟨hlawful', hpath'⟩ := hpath.bare hs.lawful
  exact ⟨known, hpath, hQ, ⟨hlawful', hs.attained.path hpath'⟩, hpath'.ripens hs.attained⟩

/-- A program that keeps to the protocol and only looks. -/
theorem watches (h : Leads Drifts program Q s) (hlooks : Looks program s.driver)
    (hs : s.Stands ready) : Leads Drifts program (fun a s' =>
      Q a s' ∧ s'.Stands ready ∧ Watches s.bare s'.bare) s := by
  obtain ⟨known, hpath, hQ⟩ := h
  obtain ⟨hlawful', hpath'⟩ := hpath.bare hs.lawful
  obtain ⟨actions, hjournal, -, hpassive⟩ := hlooks s.port
  exact ⟨known, hpath, hQ, ⟨hlawful', hs.attained.path hpath'⟩, hpath', actions, hjournal, hpassive⟩

end Leads

namespace Driver

section Collect

variable {s : Scene Bench slots size} {phase : Phase} {id : TransferId}

/-- A settled snapshot leaves out no done bit but that of a submission that was seen pending. -/
theorem settledDone_watches (hs : s.Stands ready) (hdraft : s.known.draft = .none) :
    Leads Drifts settledDone (fun bits s' => (s'.driver = s.driver ∧ s.known.Extends s'.known ∧
      s'.known.done = bits) ∧ s'.Stands ready ∧ ∃ seen : Scene Bench slots size,
        seen.Stands ready ∧ Watches s.bare seen.bare ∧ Watches seen.bare s'.bare ∧
        ∀ id, s'.bare.engine.isDone id.val = true →
          ¬ (seen.bare.engine.submitPending = true ∧ seen.driver.newest = some id) →
          bits.isDone id = true) s := by
  unfold settledDone
  refine .seq (((pendingSubmission_leads hdraft).also
    (P := fun pending d port => (∀ id, pending = some id → s.driver.newest = some id) ∧
      ∀ id, pending = some id → port.world.device.core.submitPending = true)
    ⟨fun _ => pendingSubmission_newest, fun _ => pendingSubmission_shows⟩).watches
      pendingSubmission_looks hs) ?_
  intro pending s₁ h
  obtain ⟨⟨⟨hd₁, hk₁, hsettle⟩, hnewest, hshown⟩, hs₁, hwatches₁⟩ := h
  refine .seq (((doneBits_leads (hk₁.draft_eq.trans hdraft)).also
    (P := fun bits _ port => bits.word = port.world.device.core.done) rfl).watches
      doneBits_looks hs₁) ?_
  intro bits s₂ h
  obtain ⟨⟨⟨hd₂, hk₂, hbits⟩, hword⟩, hs₂, hwatches₂⟩ := h
  have hsettled := hbits.trans (hsettle bits)
  have hset : ∀ id : TransferId, s₂.bare.engine.isDone id.val = true → bits.isDone id = true := by
    intro id hdone
    rw [DoneBits.isDone, hword]
    exact hdone
  cases pending with
  | none =>
    exact .pure ⟨⟨hd₂.trans hd₁, hk₁.trans hk₂, hsettled⟩, hs₂, s₁, hs₁, hwatches₁, hwatches₂,
      fun id hdone _ => hset id hdone⟩
  | some newest =>
    refine .pure ⟨⟨hd₂.trans hd₁, hk₁.trans hk₂, hsettled⟩, hs₂, s₁, hs₁, hwatches₁, hwatches₂,
      fun id hdone haccepted => ?_⟩
    rw [DoneBits.isDone_without, hset id hdone, Bool.true_and, decide_eq_true]
    rintro rfl
    exact haccepted ⟨hshown id rfl, (congrArg Driver.newest hd₁).trans (hnewest id rfl)⟩

/-- A settled snapshot shows what is ripe at the end of it, if nothing was completed meanwhile. -/
theorem settledDone_ripe (hs : s.Stands ready) (hdraft : s.known.draft = .none) :
    Leads Drifts settledDone (fun bits s' => (s'.driver = s.driver ∧ s.known.Extends s'.known ∧
      s'.known.done = bits) ∧ s'.Stands ready ∧ Ripens s.bare s'.bare ∧
        ∀ id, Ripe s'.driver s'.known s'.bare.engine id → bits.isDone id = true ∨
          s.bare.engine.completions < s'.bare.engine.completions) s := by
  refine (settledDone_watches hs hdraft).mono fun bits s' h => ?_
  obtain ⟨hbits, hs', seen, hseen, hwatches, hwatches', hshows⟩ := h
  have hripens := hwatches.path.ripens hs.attained
  have hripens' := hwatches'.path.ripens hseen.attained
  refine ⟨hbits, hs', hripens.trans hripens', fun id hripe => ?_⟩
  rcases hripens'.ripe_of id hripe with hbefore | hlt
  · exact .inl (hshows id hripe.done_eq hbefore.accepted)
  · exact .inr (hripens.completions_le.trans_lt hlt)

/-- A settled snapshot shows what was ripe before it. -/
theorem settledDone_finds (hs : s.Stands ready) (hdraft : s.known.draft = .none)
    (hripe : Ripe s.driver s.known s.bare.engine id) :
    (settledDone.outcome s.driver s.port).1.1.isDone id = true := by
  obtain ⟨_, -, -, -, seen, hseen, hwatches, hwatches', hshows⟩ := settledDone_watches hs hdraft
  have hbefore : Ripe seen.driver seen.known seen.bare.engine id := hwatches.ripe hs.attained hripe
  exact hshows id (hwatches'.ripe hseen.attained hbefore).done_eq hbefore.accepted

/-- From `s` to `s'` a collection drained nothing but what was ripe or was completed meanwhile, and
it left nothing ripe but what was completed meanwhile. -/
structure Combed (ready : Engine → Prop) (s s' : Scene Bench slots size) : Prop where
  stands : s'.Stands ready
  draft_eq : s'.known.draft = .none
  ripens : Ripens s.bare s'.bare
  found : ∀ id, s.driver.drains (settledDone.outcome s.driver s.port).1.1 id = true →
    Ripe s.driver s.known s.bare.engine id ∨
      s.bare.engine.completions < s'.bare.engine.completions
  left_of : ∀ id, Ripe s'.driver s'.known s'.bare.engine id →
    s.bare.engine.completions < s'.bare.engine.completions

theorem collect_combs (hs : s.Stands ready) (hrests : s.Rests phase) :
    Leads Drifts (collect Sim.consume) (fun _ s' => Combed ready s s') s := by
  have hconsume : ∀ data (world : World Bench slots size), Drifts world (Sim.consume data world) :=
    fun _ => occur_drifts .consume
  unfold collect
  refine .seq ((settledDone_ripe hs hrests.draft_eq).also
    (P := fun bits _ _ => bits = (settledDone.outcome s.driver s.port).1.1) rfl) ?_
  intro bits s₁ h
  obtain ⟨⟨⟨hd₁, hk₁, rfl⟩, hs₁, hripens₁, hshows⟩, hsnapshot⟩ := h
  refine .bind (.get (.seq (((drainAll_leads hconsume _).also
    (P := fun _ d _ => ∀ id, d.Holds id → s₁.driver.Holds id ∧ s₁.known.done.isDone id = false)
    ?_).ripens hs₁) ?_))
  · obtain ⟨_, -, hleaves⟩ := drainAll_leaves s₁.known.done Sim.consume (TransferId.nodup_lap _)
      s₁.driver s₁.port
    exact fun id hholds => (hleaves id hholds).imp_right fun h => h (TransferId.mem_lap _ id)
  intro drained s₂ h
  obtain ⟨⟨⟨hk₂, -⟩, hleaves⟩, hs₂, hripens₂⟩ := h
  have hrests₂ : s₂.Rests phase := by
    refine hrests.keeps ?_
    rw [hk₂]
    exact hk₁.toKeeps
  refine .seq ((advance_leads drained).ripens hs₂) ?_
  intro _ s₃ h
  obtain ⟨⟨hk₃, -⟩, hs₃, hripens₃⟩ := h
  have hrests₃ : s₃.Rests phase :=
    ⟨by rw [hk₃, hrests₂.draft_eq], by rw [hk₃]; exact hrests₂.phase_eq⟩
  refine .seq ((refillStream_leads _ hrests₃).ripens hs₃) ?_
  intro _ s₄ h
  obtain ⟨⟨hrests₄, -⟩, hs₄, hripens₄⟩ := h
  have hripens₂₄ := hripens₂.trans (hripens₃.trans hripens₄)
  have hripens := hripens₁.trans hripens₂₄
  refine .pure ⟨hs₄, hrests₄.draft_eq, hripens, fun id hdrains => ?_, fun id hripe => ?_⟩
  · rw [← hsnapshot, ← hd₁] at hdrains
    obtain ⟨hdone, hholds⟩ := drains_eq_true.1 hdrains
    refine (hripens₁.ripe_of id (hs₁.attained.founded id hdone hholds)).imp_right fun hlt => ?_
    exact hlt.trans_le hripens₂₄.completions_le
  · rcases (hripens₃.trans hripens₄).ripe_of id hripe with hripe | hlt
    · obtain ⟨hholds, hmissed⟩ := hleaves id hripe.holds
      rcases hripens₂.ripe_of id hripe with hripe | hlt
      · rcases hshows id hripe with hshown | hlt
        · cases hmissed.symm.trans hshown
        · exact hlt.trans_le hripens₂₄.completions_le
      · exact hripens₁.completions_le.trans_lt
          (hlt.trans_le (hripens₃.trans hripens₄).completions_le)
    · exact (hripens₁.trans hripens₂).completions_le.trans_lt hlt

end Collect

section Idle

variable {σ : Type} [RegisterBus (World σ slots size)] {driver : Driver slots size}
variable {port : Port (World σ slots size)}

/-- A collection that drains nothing only refills the stream. -/
theorem collect_outcome (consume : Bytes → World σ slots size → World σ slots size)
    (h : ∀ id, driver.drains (settledDone.outcome driver port).1.1 id = false) :
    let looked := (settledDone.outcome driver port).2
    (collect consume).outcome driver port =
      ((0, ((refillStream 0).outcome driver looked).1.2),
        ((refillStream 0).outcome driver looked).2) := by
  intro looked
  have hdriver : (settledDone.outcome driver port).1.2 = driver := by rw [settledDone_outcome]
  have hnone : driver.cursor.lap.filter
      (driver.drains (settledDone.outcome driver port).1.1) = [] :=
    List.filter_eq_nil_iff.2 fun id _ => Bool.eq_false_iff.1 (h id)
  unfold collect
  rw [DriverM.outcome_bind, hdriver, DriverM.outcome_get, DriverM.outcome_bind,
    drainAll_outcome _ consume (TransferId.nodup_lap _), hnone]
  rfl

/-- Such a collection delivers nothing, takes no slot back and leaves the cursor where it is. -/
theorem collect_idle (h : ∀ id, driver.drains (settledDone.outcome driver port).1.1 id = false) :
    ∃ d port', (∀ consume, (collect consume).outcome driver port = ((0, d), port')) ∧
      port'.journal.deliveries = port.journal.deliveries ∧
      (∀ i : Fin slots, (driver.pool.slotAt i).isInFlight = true →
        d.pool.slotAt i = driver.pool.slotAt i) ∧ d.cursor = driver.cursor := by
  refine ⟨_, _, fun consume => collect_outcome consume h, ?_⟩
  have hlooks : Looks (settledDone : DriverM σ slots size DoneBits) driver := settledDone_looks
  obtain ⟨looked, hjournal, -, hpassive⟩ := hlooks port
  obtain ⟨actions, hjournal', hrequested, -⟩ :=
    refillStream_enters 0 driver (settledDone.outcome driver port).2
  refine ⟨?_, hrequested.slotAt_eq, hrequested.cursor_eq⟩
  unfold Journal.deliveries
  rw [hjournal', hjournal, List.filterMap_append, List.filterMap_append,
    deliveries_of_idle hpassive.isIdle, hrequested.deliveries_eq, List.append_nil, List.append_nil]

end Idle

end Driver

/-- Nothing is called between the two rigs: the hardware moves, or gets another script. -/
inductive Rig.Elapses (rig : Rig slots size) : Rig slots size → Prop
  | refl : Elapses rig rig
  | stimulus {later : Rig slots size} (h : Elapses rig later) (stimulus : Stimulus)
      (hlawful : stimulus.IsLawful) : Elapses rig (later.stimulate stimulus)
  | follow {later : Rig slots size} (h : Elapses rig later) (script : Script)
      (hlawful : script.IsLawful) : Elapses rig (later.follow script)

section Elapses

variable {rig later : Rig slots size} {known : Known} {phase : Phase}

theorem Rig.Elapses.ripens (h : rig.Elapses later) (hs : (rig.scene known).Stands ready) :
    (later.scene known).Stands ready ∧
      Ripens (rig.scene known).bare (later.scene known).bare := by
  induction h with
  | refl => exact ⟨hs, .refl _⟩
  | @stimulus later _ stimulus hlawful ih =>
    obtain ⟨hstands, hripens⟩ := ih
    have hpath : Path Lapse (later.scene known).bare
        ((later.stimulate stimulus).scene known).bare :=
      path_of_lapse _ _ _ (stimulate_lapse later.port.world hlawful)
    exact ⟨⟨hstands.lawful, hstands.attained.path hpath⟩,
      hripens.trans (hpath.ripens hstands.attained)⟩
  | follow _ script hlawful ih => exact ⟨⟨hlawful, ih.1.attained⟩, ih.2⟩

/-- A second collection finds nothing, if nothing was completed since the first one began: it calls
no consumer, takes no slot back, and does not move the cursor. Submissions may be accepted all the
while, and the stream may have taken the slots again that the first one drained. -/
theorem Session.collect_again (h : Session ready phase rig)
    (helapses : (Call.collect.perform rig).Elapses later)
    (hnone : (Call.collect.perform later).core.completions = rig.core.completions) :
    ∃ d port, (∀ consume, (Driver.collect consume).outcome later.driver later.port =
      ((0, d), port)) ∧ port.journal.deliveries = later.port.journal.deliveries ∧
      (∀ i : Fin slots, (later.driver.pool.slotAt i).isInFlight = true →
        d.pool.slotAt i = later.driver.pool.slotAt i) ∧ d.cursor = later.driver.cursor := by
  refine Driver.collect_idle fun id => Bool.eq_false_iff.2 fun hdrains => ?_
  obtain ⟨hlawful, known, hends, hattained⟩ := h.attained
  have hrests : (rig.scene known).Rests known.phase := ⟨hends.draft_eq, .inl rfl⟩
  obtain ⟨known₁, -, hfirst⟩ := Driver.collect_combs ⟨hlawful, hattained⟩ hrests
  obtain ⟨hstands, hbetween⟩ := helapses.ripens hfirst.stands
  have hrests₁ : (later.scene known₁).Rests known₁.phase := ⟨hfirst.draft_eq, .inl rfl⟩
  obtain ⟨known₂, -, hsecond⟩ := Driver.collect_combs hstands hrests₁
  have hle₁ : rig.core.completions ≤ (Call.collect.perform rig).core.completions :=
    hfirst.ripens.completions_le
  have hle₂ : (Call.collect.perform rig).core.completions ≤ later.core.completions :=
    hbetween.completions_le
  have hle₃ : later.core.completions ≤ (Call.collect.perform later).core.completions :=
    hsecond.ripens.completions_le
  -- What the second collection drains was left ripe by the first one, or was completed since that.
  rcases hsecond.found id hdrains with hripe | hlt
  · rcases hbetween.ripe_of id hripe with hripe | hlt
    · have hlt : rig.core.completions < (Call.collect.perform rig).core.completions :=
        hfirst.left_of id hripe
      omega
    · have hlt : (Call.collect.perform rig).core.completions < later.core.completions := hlt
      omega
  · have hlt : later.core.completions < (Call.collect.perform later).core.completions := hlt
    omega

/-- A stream over two slots, whose first transfer is done. The first collection drains it and takes
its slot again, which the hardware accepts only after that. -/
theorem Session.collect_again_streaming :
    let rig := ((Call.startStream 0).perform Rig.small).stimulate (.finish 0)
    let later := (Call.collect.perform (rig.stimulate (.autoAccept false))).stimulate .accept
    (Call.collect.perform later).core.completions = rig.core.completions ∧
    ∃ d port, (∀ consume, (Driver.collect consume).outcome later.driver later.port =
      ((0, d), port)) ∧ port.journal.deliveries = later.port.journal.deliveries ∧
      (∀ i : Fin 2, (later.driver.pool.slotAt i).isInFlight = true →
        d.pool.slotAt i = later.driver.pool.slotAt i) ∧ d.cursor = later.driver.cursor := by
  intro rig later
  have hcompletions : (Call.collect.perform later).core.completions = rig.core.completions := by
    decide +kernel
  have hrig := ((Rig.small_session.call (.startStream 0)).stimulus (.finish 0) trivial).stimulus
    (.autoAccept false) trivial
  have hlater : (Call.collect.perform (rig.stimulate (.autoAccept false))).Elapses later :=
    .stimulus .refl .accept trivial
  exact ⟨hcompletions, collect_again hrig hlater hcompletions⟩

end Elapses

end DmaController

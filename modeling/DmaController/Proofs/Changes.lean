import DmaController.Proofs.Session
import DmaController.Proofs.Soundness

/-!
What a step changes. Seen from the transfers there are few kinds of steps: the engine moves, the
driver learns something, aborts, marks a slot, queues its transfer, takes slots back, or does
something that no transfer notices. Invariants of transfers are proved for these kinds alone.
-/
namespace DmaController

open Sim

def Action.freed? : Action → Option TransferId
  | delivered id _ | reclaimed id => some id
  | _ => none

theorem Action.eq_submitted {action : Action} {transfer : Transfer}
    (h : action.submission? = some transfer) : action = .submitted transfer := by
  cases action with
  | submitted other => rw [Option.some.inj h]
  | _ => cases h

theorem Action.submission?_of_freed? {action : Action} {id : TransferId}
    (h : action.freed? = some id) : action.submission? = none := by
  cases action <;> first | rfl | cases h

namespace Sim

def Event.action? : Event → Option Action
  | noted action => some action
  | _ => none

def Event.submission? (event : Event) : Option Transfer := event.action?.bind Action.submission?

/-- The transfer whose slot is taken back. -/
def Event.freed? (event : Event) : Option TransferId := event.action?.bind Action.freed?

/-- Events that no transfer notices. -/
def Event.IsPlain : Event → Prop
  | written offset _ pending => pending = true → ¬ Register.IsTransfer offset
  | noted action => action.submission? = none ∧ action.freed? = none
  | accepted _ | completed _ | aborted => False

theorem Event.IsPlain.freed?_eq {event : Event} (h : event.IsPlain) : event.freed? = none := by
  cases event with
  | written => rfl
  | noted action => exact h.2
  | accepted | completed | aborted => exact h.elim

/-- The transfer is accepted as it was submitted. -/
structure Accepted.Carries (accepted : Accepted) (transfer : Transfer) : Prop where
  id_eq : accepted.id = transfer.id.val
  length_eq : accepted.length = transfer.length
  address_eq : match transfer.direction with
    | .inbound => accepted.destination = transfer.address
    | .outbound => accepted.source = transfer.address

namespace Engine

/-- An engine after something that no transfer notices. -/
structure Alike (e e' : Engine) : Prop where
  pending_eq : e'.submitPending = e.submitPending
  nextId_eq : e'.nextId = e.nextId
  done_eq : e'.done = e.done
  outstanding_eq : e'.outstanding = e.outstanding
  accepted_eq : e'.accepted = e.accepted
  enabled_of : e.isEnabled = true → e'.isEnabled = true
  programmed_eq : e.submitPending = true → e'.programmed = e.programmed
  history_eq : e'.history = e.history ∨ ∃ event, event.IsPlain ∧ e'.history = event :: e.history

variable {e e' : Engine}

theorem Alike.refl (e : Engine) : e.Alike e := ⟨rfl, rfl, rfl, rfl, rfl, id, fun _ => rfl, .inl rfl⟩

theorem Alike.remember {event : Event} (h : event.IsPlain) : e.Alike (e.remember event) :=
  ⟨rfl, rfl, rfl, rfl, rfl, id, fun _ => rfl, .inr ⟨event, h, rfl⟩⟩

theorem Alike.acceptId_eq (h : e.Alike e') : e'.acceptId = e.acceptId := by
  unfold acceptId
  rw [h.nextId_eq]

theorem Alike.setRegister {offset : Offset} {value : Word}
    (henabled : e.isEnabled = true → (e.setRegister offset value).isEnabled = true)
    (hquiet : e.submitPending = true → ¬ Register.IsTransfer offset) :
    e.Alike ((e.remember (.written offset value e.submitPending)).setRegister offset value) where
  pending_eq := rfl
  nextId_eq := rfl
  done_eq := rfl
  outstanding_eq := rfl
  accepted_eq := rfl
  enabled_of := henabled
  programmed_eq hpending := by
    have hoffset := hquiet hpending
    simp only [Register.IsTransfer, not_or] at hoffset
    obtain ⟨hlength, hsource, hdestination, -⟩ := hoffset
    simp only [programmed, acceptId, Engine.setRegister, Engine.remember]
    rw [RegisterFile.get_set_of_ne _ (Ne.symm hlength),
      RegisterFile.get_set_of_ne _ (Ne.symm hsource),
      RegisterFile.get_set_of_ne _ (Ne.symm hdestination)]
  history_eq := .inr ⟨.written offset value e.submitPending, hquiet, rfl⟩

theorem Alike.setRegister_of_ne {offset : Offset} {value : Word}
    (hcontrol : offset ≠ Register.control)
    (hquiet : e.submitPending = true → ¬ Register.IsTransfer offset) :
    e.Alike ((e.remember (.written offset value e.submitPending)).setRegister offset value) := by
  refine .setRegister ?_ hquiet
  rw [isEnabled_setRegister _ _ hcontrol]
  exact id

end Engine
end Sim

variable {slots size : Nat} [HasSlots slots]

/-- The kinds of steps, seen from the transfers. -/
inductive Change (d : Driver slots size) (k : Known) (e : Engine) :
    Driver slots size → Known → Engine → Prop
  | turn {e'} (h : Turn e e') : Change d k e d k e'
  | learn {k'} (hphase : k'.phase = k.phase) (hdraft : k.draft = .none) (hdraft' : k'.draft = .none)
      (hdone : ∀ id, k'.done.isDone id = true → k.done.isDone id = true ∨
        e.done.getLsbD id.val = true ∧ ¬ (e.submitPending = true ∧ d.newest = some id)) :
      Change d k e d k' e
  | plain {d' k' e'} (hpool : d'.pool = d.pool) (hconfig : d'.config = d.config)
      (hnewest : d'.newest = d.newest) (hphase : k'.phase = k.phase) (hdone : k'.done = k.done)
      (hdraft : k'.draft.transfer? = k.draft.transfer?) (he : e.Alike e') : Change d k e d' k' e'
  | abort (value) (hdraft : k.draft = .none) (henabled : e.isEnabled = true)
      (hcleared : value.hasAny Control.enable = false) : Change d k e d { phase := k.phase.halt }
        ((e.remember (.written Register.control value e.submitPending)).abort.setRegister
          Register.control value)
  | halt {e'} (hdraft : k.draft = .none) (henabled : e.isEnabled = false) (he : e.Alike e') :
      Change d k e d { phase := k.phase.halt } e'
  | mark {k'} (transfer) (hdraft : k.draft = .none) (hquiet : e.submitPending = false)
      (hid : e.acceptId = transfer.id.val) (hadmits : d.Admits transfer)
      (hphase : k'.phase = k.phase.submit) (hdone : k'.done = .none)
      (hdraft' : k'.draft.transfer? = some transfer) :
      Change d k e (d.submitted transfer) k' (e.remember (.noted (.submitted transfer)))
  | queue {k'} (transfer) (hdraft : k.draft.transfer? = some transfer)
      (hdrafted : Drafted d k transfer) (hquiet : e.submitPending = false)
      (hcarries : e.programmed.Carries transfer) (hphase : k'.phase = k.phase)
      (hdone : k'.done = .none) (hdraft' : k'.draft = .none) :
      Change d k e d k' { e.remember (.written Register.submit submitBit false) with
        submitPending := true }
  | release (id previous) (action) (haction : action.freed? = some previous)
      (hdone : k.done.isDone previous = true)
      (hslot : (d.pool.slot id).transferId? = some previous) :
      Change d k e (d.withPool (d.pool.release id)) k (e.remember (.noted action))
  | restart {d' k' e'} (hfree : ∀ i : Fin slots, d'.pool.slotAt i = (d.pool.slotAt i).release)
      (haddress : d'.address = d.address) (hphase : k.phase ≠ .running)
      (hphase' : k'.phase = k.phase.restart) (hdone : k'.done = .none) (hdraft : k.draft = .none)
      (hdraft' : k'.draft = .none) (henabled : e.isEnabled = true) (he : e.Alike e') :
      Change d k e d' k' e'

theorem Change.control (d : Driver slots size) (k : Known) {e : Engine} {value : Word}
    {enabled : Bool} (hkeeps : e.isEnabled = true → value.hasAny Control.enable = true) :
    Change d k e d { k with last := none, enabled := enabled }
      (e.write Register.control value) := by
  rw [e.write_control hkeeps]
  refine .plain rfl rfl rfl rfl rfl rfl (.setRegister ?_ fun _ => by decide)
  rw [Engine.isEnabled_setControl]
  exact hkeeps

namespace Sound

variable {d d' : Driver slots size} {k k' : Known} {e e' : Engine}

theorem change_learn (h : Sound d k e) (offset : Offset) (hdraft : k.draft = .none) :
    Change d k e d (k.learn d.newest offset (e.peek offset)) e := by
  refine .learn (Known.phase_learn ..) hdraft ((Known.draft_learn ..).trans hdraft) ?_
  intro id hid
  by_cases hoffset : offset = Register.done
  · subst hoffset
    change (k.look.settle ⟨e.done⟩).isDone id = true at hid
    obtain ⟨hbit, hlook⟩ := Look.isDone_settle hid
    refine .inr ⟨hbit, ?_⟩
    intro hnew
    obtain ⟨hpending, hnewest⟩ := hnew
    rcases hlook with hlook | ⟨newest, hlook, hne⟩
    · simp [h.quiet_of_look hlook] at hpending
    · exact hne ((h.newest_of_look newest hlook).trans hnewest)
  · rw [Known.done_learn _ _ _ _ hoffset] at hid
    exact .inl hid

/-- When a submission is queued, the engine's registers describe it. -/
theorem carries (h : Sound d k e) {transfer : Transfer} (hdraft : k.draft = .addressed transfer) :
    e.programmed.Carries transfer := by
  have hdrafted := h.drafted transfer (by rw [hdraft]; rfl)
  have hprogrammed := h.programmed
  rw [hdraft] at hprogrammed
  obtain ⟨hlength, haddress⟩ := hprogrammed
  refine ⟨h.acceptId_eq hdrafted.clear_eq _ hdrafted.next_eq, ?_, ?_⟩
  · have hpos := hdrafted.length_pos
    have hle : transfer.length ≤ 0xF00 := hdrafted.length_le
    have hone : (1 : Word).toNat = 1 := rfl
    simp only [Engine.programmed, hlength, BitVec.toNat_sub, BitVec.toNat_ofNat, hone]
    omega
  · cases hdirection : transfer.direction with
    | inbound => exact (congrArg e.registers.get (by rw [hdirection]; rfl)).trans haddress
    | outbound => exact (congrArg e.registers.get (by rw [hdirection]; rfl)).trans haddress

theorem change {deed : Deed slots} (h : Sound d k e) (hprotocol : Protocol d k deed d' k')
    (hfits : deed.Fits e) : Change d k e d' k' (deed.apply e) := by
  cases hprotocol with
  | read offset value hdraft =>
    obtain rfl : e.peek offset = value := hfits
    exact h.change_learn offset hdraft
  | remark action hremark =>
    cases action with
    | log | offered | delayed => exact .plain rfl rfl rfl rfl rfl rfl (.remember ⟨rfl, rfl⟩)
    | read | write | submitted | delivered | reclaimed | released => exact hremark.elim
  | irq offset value hoffset =>
    rcases hoffset with rfl | rfl
    · exact .plain rfl rfl rfl rfl rfl rfl (.setRegister_of_ne (by decide) fun _ => by decide)
    · have hplain : ¬ Register.IsTransfer Register.irqStatus := by decide
      exact .plain rfl rfl rfl rfl rfl rfl ⟨rfl, rfl, rfl, rfl, rfl, id, fun _ => rfl,
        .inr ⟨.written Register.irqStatus value e.submitPending, fun _ => hplain, rfl⟩⟩
  | acyclic value hlast =>
    exact .plain rfl rfl rfl rfl rfl rfl (.setRegister_of_ne (by decide) fun _ => by decide)
  | pause value hlast => exact .control d k (h.enabled_pause hlast)
  | resume value hlast => exact .control d k (h.enabled_resume hlast)
  | enable value hlast => exact .control d k fun _ => Word.hasAny_or_right (by decide)
  | disable value hlast hdraft =>
    have hcleared : (value &&& ~~~ Control.enable).hasAny Control.enable = false := by
      rw [Word.hasAny, BitVec.and_assoc]
      simp [Control.enable]
    cases henabled : e.isEnabled with
    | true =>
      rw [Deed.apply, e.write_control_abort henabled hcleared]
      exact .abort _ hdraft henabled hcleared
    | false =>
      rw [Deed.apply, e.write_control (by simp [henabled])]
      exact .halt hdraft henabled (.setRegister (by simp [henabled]) fun _ => by decide)
  | mark transfer hclear hnext hdraft hadmits =>
    exact .mark transfer hdraft (h.quiet_of_clear hclear) (h.acceptId_eq hclear _ hnext) hadmits
      rfl rfl rfl
  | measure transfer hdraft =>
    have hquiet : e.submitPending = false := h.quiet_of_drafted (by rw [hdraft]; rfl)
    refine .plain rfl rfl rfl rfl rfl (by rw [hdraft]; rfl) (.setRegister_of_ne (by decide) ?_)
    simp [hquiet]
  | direct transfer hdraft =>
    have hquiet : e.submitPending = false := h.quiet_of_drafted (by rw [hdraft]; rfl)
    rw [Deed.apply, Engine.write_address]
    refine .plain rfl rfl rfl rfl rfl (by rw [hdraft]; rfl) (.setRegister_of_ne ?_ ?_)
    · cases transfer.direction <;> decide
    · simp [hquiet]
  | queue transfer hdraft =>
    have hdrafted := h.drafted transfer (by rw [hdraft]; rfl)
    have hquiet := h.quiet_of_clear hdrafted.clear_eq
    rw [Deed.apply, Engine.write_submit, hquiet]
    exact .queue transfer (by rw [hdraft]; rfl) hdrafted hquiet (h.carries hdraft) rfl rfl rfl
  | deliver id data hdone hslot =>
    exact .release id id (.delivered id data) rfl hdone hslot
  | reclaim id previous hdone hslot =>
    exact .release id previous (.reclaimed previous) rfl hdone hslot
  | restart henabled hphase hdraft =>
    exact .restart d.pool.slotAt_releaseAll rfl hphase rfl rfl hdraft hdraft
      (h.enabled_eq henabled) (.remember ⟨rfl, rfl⟩)
  | adopt henabled hphase hdraft hfresh =>
    refine .restart (fun i => ?_) rfl hphase rfl rfl hdraft hdraft (h.enabled_eq henabled) (.refl e)
    rw [hfresh.slotAt_eq]
    rfl
  | fill | meanwhile | turn | stream => exact .plain rfl rfl rfl rfl rfl rfl (.refl e)

end Sound

variable {s s' : Scene Engine slots size} {ready : Engine → Prop}

/-- A step is a move of the engine or a deed of the driver. -/
theorem Step.engine (h : Step Lapse s s') :
    (s'.driver = s.driver ∧ s'.known = s.known ∧
      (Turn s.engine s'.engine ∨ s'.engine = s.engine)) ∨
    ∃ deed, Protocol s.driver s.known deed s'.driver s'.known ∧ deed.Fits s.engine ∧
      s'.engine = deed.apply s.engine := by
  obtain ⟨driver, known, ⟨engine, memory⟩, journal⟩ := s
  obtain ⟨driver', known', ⟨engine', memory'⟩, journal'⟩ := s'
  obtain ⟨deed, hprotocol, hserves, -⟩ := h
  cases deed with
  | act action =>
    right
    refine ⟨.act action, hprotocol, ?_⟩
    cases action with
    | read offset value =>
      obtain ⟨hvalue, hport⟩ := hserves
      obtain ⟨hworld, -⟩ := Port.mk.inj hport
      exact ⟨hvalue, (World.mk.inj hworld).1⟩
    | _ =>
      obtain ⟨hworld, -⟩ := Port.mk.inj hserves
      exact ⟨trivial, (World.mk.inj hworld).1⟩
  | stored slot data =>
    obtain ⟨hworld, -⟩ := Port.mk.inj hserves
    exact .inr ⟨_, hprotocol, trivial, (World.mk.inj hworld).1⟩
  | meanwhile =>
    left
    cases hprotocol
    refine ⟨rfl, rfl, ?_⟩
    cases hserves.1 with
    | turn _ hturn => exact .inl hturn
    | store => exact .inr rfl
  | inward =>
    obtain ⟨hworld, -⟩ := Port.mk.inj hserves
    exact .inr ⟨_, hprotocol, trivial, (World.mk.inj hworld).1⟩

/-- What a step puts into the journal. -/
theorem Step.entry (h : Step Lapse s s') : ∃ actions,
    s'.port.journal.toList = s.port.journal.toList ++ actions ∧
      (actions = [] ∧ (Turn s.engine s'.engine ∨ s'.engine = s.engine) ∨
        ∃ action, actions = [action] ∧ (Deed.act action : Deed slots).Fits s.engine ∧
          s'.engine = (Deed.act action : Deed slots).apply s.engine) := by
  obtain ⟨driver, known, ⟨engine, memory⟩, journal⟩ := s
  obtain ⟨driver', known', ⟨engine', memory'⟩, journal'⟩ := s'
  obtain ⟨deed, hprotocol, hserves, -⟩ := h
  cases deed with
  | act action =>
    cases action with
    | read offset value =>
      obtain ⟨hvalue, hport⟩ := hserves
      obtain ⟨hworld, rfl⟩ := Port.mk.inj hport
      exact ⟨_, Array.toList_push .., .inr ⟨_, rfl, hvalue, (World.mk.inj hworld).1⟩⟩
    | _ =>
      obtain ⟨hworld, rfl⟩ := Port.mk.inj hserves
      exact ⟨_, Array.toList_push .., .inr ⟨_, rfl, trivial, (World.mk.inj hworld).1⟩⟩
  | stored | inward =>
    obtain ⟨hworld, rfl⟩ := Port.mk.inj hserves
    exact ⟨[], (List.append_nil _).symm, .inl ⟨rfl, .inr (World.mk.inj hworld).1⟩⟩
  | meanwhile =>
    obtain ⟨hlapse, hjournal⟩ := hserves
    obtain rfl : journal' = journal := hjournal
    refine ⟨[], (List.append_nil _).symm, .inl ⟨rfl, ?_⟩⟩
    cases hlapse with
    | turn _ hturn => exact .inl hturn
    | store => exact .inr rfl

theorem Sound.step (h : Sound s.driver s.known s.engine) (hstep : Step Lapse s s') :
    Sound s'.driver s'.known s'.engine := by
  rcases hstep.engine with ⟨hdriver, hknown, hturn | hengine⟩ | ⟨deed, hprotocol, hfits, hengine⟩
  · rw [hdriver, hknown]
    exact h.turn hturn
  · rw [hdriver, hknown, hengine]
    exact h
  · rw [hengine]
    exact h.deed hprotocol hfits

theorem Sound.step_change (h : Sound s.driver s.known s.engine) (hstep : Step Lapse s s') :
    Change s.driver s.known s.engine s'.driver s'.known s'.engine := by
  rcases hstep.engine with ⟨hdriver, hknown, hturn | hengine⟩ | ⟨deed, hprotocol, hfits, hengine⟩
  · rw [hdriver, hknown]
    exact .turn hturn
  · rw [hdriver, hknown, hengine]
    exact .plain rfl rfl rfl rfl rfl rfl (.refl _)
  · rw [hengine]
    exact h.change hprotocol hfits

namespace Scene.Attained

theorem sound (h : s.Attained ready) : Sound s.driver s.known s.engine := by
  refine h.induct ?_ fun _ _ _ => Sound.step
  intro s₀ hbegins
  rw [hbegins.known_eq]
  exact .ignorant hbegins.fresh.capacity_pos hbegins.fresh.capacity_le _

/-- An invariant of transfers holds wherever a driver comes, if it begins with a fresh driver on a
halted core and every kind of step preserves it. -/
theorem invariant {P : Driver slots size → Known → Engine → Prop}
    (hbegin : ∀ d e, d.Fresh → ready e → P d { phase := .halted } e)
    (hchange : ∀ d k e d' k' e', Sound d k e → P d k e → Change d k e d' k' e' → P d' k' e')
    (h : s.Attained ready) : P s.driver s.known s.engine := by
  refine h.induct (P := fun s => P s.driver s.known s.engine) ?_ ?_
  · intro s₀ hbegins
    rw [hbegins.known_eq]
    exact hbegin _ _ hbegins.fresh hbegins.engine_ready
  · intro s₁ s₂ hattained h₁ hstep
    exact hchange _ _ _ _ _ _ hattained.sound h₁ (hattained.sound.step_change hstep)

end Scene.Attained

/-- The history has all that the driver did, apart from its register accesses. -/
def Scene.Tells (s : Scene Engine slots size) : Prop :=
  (s.engine.history.filterMap Event.action?).reverse =
    s.port.journal.toList.filter (·.access?.isNone)

theorem Sim.Engine.actions_write (engine : Engine) (offset : Offset) (value : Word) :
    (engine.write offset value).history.filterMap Event.action? =
      engine.history.filterMap Event.action? := by
  have hwritten : (Event.written offset value engine.submitPending).action? = none := rfl
  have haborted : Event.aborted.action? = none := rfl
  unfold Engine.write Engine.setControl
  dsimp only
  split_ifs <;> simp [Engine.remember, Engine.abort, Engine.setRegister, hwritten, haborted]

theorem Scene.Tells.step (h : s.Tells) (hstep : Step Lapse s s') : s'.Tells := by
  obtain ⟨driver, known, ⟨engine, memory⟩, journal⟩ := s
  obtain ⟨driver', known', ⟨engine', memory'⟩, journal'⟩ := s'
  obtain ⟨deed, hprotocol, hserves, -⟩ := hstep
  change (engine.history.filterMap Event.action?).reverse = journal.toList.filter _ at h
  change (engine'.history.filterMap Event.action?).reverse = journal'.toList.filter _
  cases deed with
  | act action =>
    cases action with
    | read offset value =>
      obtain ⟨hworld, rfl⟩ := Port.mk.inj hserves.2
      obtain rfl : engine' = engine := (World.mk.inj hworld).1
      simpa [Action.access?] using h
    | write offset value =>
      obtain ⟨hworld, rfl⟩ := Port.mk.inj hserves
      obtain rfl : engine' = engine.write offset value := (World.mk.inj hworld).1
      simpa [Action.access?, Engine.actions_write] using h
    | log | offered | submitted | delivered | reclaimed | released | delayed =>
      obtain ⟨hworld, rfl⟩ := Port.mk.inj hserves
      obtain rfl : engine' = engine.remember (.noted _) := (World.mk.inj hworld).1
      simpa [Action.access?, Engine.remember, Event.action?] using h
  | stored slot data =>
    obtain ⟨hworld, rfl⟩ := Port.mk.inj hserves
    obtain rfl : engine' = engine := (World.mk.inj hworld).1
    exact h
  | meanwhile =>
    obtain ⟨hlapse, hjournal⟩ := hserves
    obtain rfl : journal' = journal := hjournal
    cases hlapse with
    | turn _ hturn =>
      cases hturn with
      | takeOver | complete =>
        exact (congrArg List.reverse (List.filterMap_cons_none rfl)).trans h
    | store => exact h
  | inward =>
    obtain ⟨hworld, rfl⟩ := Port.mk.inj hserves
    obtain rfl : engine' = engine := (World.mk.inj hworld).1
    exact h

theorem Scene.Attained.tells (h : s.Attained Engine.IsUnused) : s.Tells := by
  refine h.induct ?_ fun _ _ _ => Scene.Tells.step
  intro s₀ hbegins
  have hhistory : s₀.engine.history = [] := hbegins.engine_ready.history_eq
  unfold Scene.Tells
  rw [hhistory, hbegins.journal_eq]
  rfl

end DmaController

import DmaController.Proofs.Entries
import DmaController.Proofs.Sequence

/-!
From the journal to the history. A path adds actions to the journal and events to the history, and
the events tell of the actions. So what an operation puts into the journal decides what becomes of
the transfers in flight, whatever the hardware does meanwhile.
-/
namespace DmaController

open Relation Sim

namespace Sim

variable {α : Type} {f : Event → Option α} {events past : List Event}

theorem recent_append (h : .aborted ∉ events) :
    recent f (events ++ past) = recent f past ++ events.reverse.filterMap f := by
  induction events with
  | nil => exact (List.append_nil _).symm
  | cons event events ih =>
    obtain ⟨hevent, h⟩ := List.ne_and_not_mem_of_not_mem_cons h
    rw [List.cons_append, recent_cons hevent.symm, ih h, List.reverse_cons, List.filterMap_append,
      List.append_assoc]
    cases hf : f event <;> simp [hf]

theorem flight_append_submitted (h : .aborted ∉ events)
    (hfreed : ∀ event ∈ events, event.freed? = none) :
    flight (events ++ past) = flight past ++ events.reverse.filterMap Event.submission? := by
  induction events with
  | nil => exact (List.append_nil _).symm
  | cons event events ih =>
    obtain ⟨hevent, h⟩ := List.ne_and_not_mem_of_not_mem_cons h
    obtain ⟨hthis, hfreed⟩ := List.forall_mem_cons.1 hfreed
    rw [List.cons_append, flight_cons hevent.symm hthis, ih h hfreed, List.reverse_cons,
      List.filterMap_append, List.append_assoc]
    cases hf : event.submission? <;> simp [hf]

theorem flight_append_freed (h : .aborted ∉ events)
    (hsubmitted : ∀ event ∈ events, event.submission? = none) :
    flight (events ++ past) =
      (flight past).filter fun transfer => transfer.id ∉ events.filterMap Event.freed? := by
  induction events with
  | nil => simp
  | cons event events ih =>
    obtain ⟨hevent, h⟩ := List.ne_and_not_mem_of_not_mem_cons h
    obtain ⟨hthis, hsubmitted⟩ := List.forall_mem_cons.1 hsubmitted
    have ih := ih h hsubmitted
    cases hfreed : event.freed? with
    | none =>
      rw [List.cons_append, flight_cons_none hevent.symm hfreed hthis, ih,
        List.filterMap_cons_none hfreed]
    | some id =>
      rw [List.cons_append, flight_freed hfreed, ih, List.filter_filter,
        List.filterMap_cons_some hfreed]
      refine List.filter_congr fun transfer _ => ?_
      by_cases hid : transfer.id = id <;> simp [hid]

theorem InOrder.of_append (h : .aborted ∉ events) (horder : InOrder (events ++ past)) :
    InOrder past := by
  induction events with
  | nil => exact horder
  | cons event events ih =>
    obtain ⟨hevent, h⟩ := List.ne_and_not_mem_of_not_mem_cons h
    exact ih h (horder.of_cons hevent.symm)

end Sim

/-- From `e` to `e'` these events happened, newest first, while the driver did these actions. -/
structure Chronicle (e e' : Engine) (actions : List Action) (events : List Event) : Prop where
  history_eq : e'.history = events ++ e.history
  told_eq : events.reverse.filterMap Event.action? = actions.filter (·.access?.isNone)
  enabled : (∀ value, .write Register.control value ∈ actions →
      value.hasAny Control.enable = true) →
    .aborted ∉ events ∧ (e.isEnabled = true → e'.isEnabled = true ∧
      ∀ value, .read Register.control value ∈ actions → value.hasAny Control.enable = true)

namespace Chronicle

variable {e e' e'' : Engine} {actions later : List Action} {events more : List Event}

theorem refl (e : Engine) : Chronicle e e [] [] :=
  ⟨rfl, rfl, fun _ => ⟨List.not_mem_nil, fun h => ⟨h, by simp⟩⟩⟩

theorem trans (h : Chronicle e e' actions events) (h' : Chronicle e' e'' later more) :
    Chronicle e e'' (actions ++ later) (more ++ events) where
  history_eq := by rw [h'.history_eq, h.history_eq, List.append_assoc]
  told_eq := by
    rw [List.reverse_append, List.filterMap_append, List.filter_append, h.told_eq, h'.told_eq]
  enabled hwrites := by
    obtain ⟨hspared, hkept⟩ := h.enabled fun value hmem => hwrites value (by simp [hmem])
    obtain ⟨hspared', hkept'⟩ := h'.enabled fun value hmem => hwrites value (by simp [hmem])
    refine ⟨by simp [hspared, hspared'], fun henabled => ?_⟩
    obtain ⟨henabled₁, hreads⟩ := hkept henabled
    obtain ⟨henabled₂, hreads'⟩ := hkept' henabled₁
    refine ⟨henabled₂, fun value hmem => ?_⟩
    rcases List.mem_append.1 hmem with hmem | hmem
    · exact hreads value hmem
    · exact hreads' value hmem

/-- The hardware moves, and the driver does nothing. -/
theorem turn (h : Turn e e') : ∃ events, Chronicle e e' [] events := by
  cases h with
  | takeOver =>
    exact ⟨[.accepted e.programmed], rfl, rfl, fun _ => ⟨by simp, fun h => ⟨h, by simp⟩⟩⟩
  | complete id => exact ⟨[.completed id], rfl, rfl, fun _ => ⟨by simp, fun h => ⟨h, by simp⟩⟩⟩

theorem remember (e : Engine) {action : Action} (h : action.access? = none) :
    Chronicle e (e.remember (.noted action)) [action] [.noted action] := by
  refine ⟨rfl, by simp [h, Event.action?], fun _ => ⟨by simp, fun henabled => ⟨henabled, ?_⟩⟩⟩
  intro value hmem
  obtain rfl := List.mem_singleton.1 hmem
  cases h

theorem read (e : Engine) (offset : Offset) :
    Chronicle e e [.read offset (e.peek offset)] [] := by
  refine ⟨rfl, rfl, fun _ => ⟨List.not_mem_nil, fun henabled => ⟨henabled, fun value hmem => ?_⟩⟩⟩
  obtain ⟨rfl, rfl⟩ := Action.read.inj (List.mem_singleton.1 hmem)
  exact henabled

theorem write (e : Engine) (offset : Offset) (value : Word) :
    ∃ events, Chronicle e (e.write offset value) [.write offset value] events := by
  have hwritten : ∀ e' : Engine,
      e'.history = .written offset value e.submitPending :: e.history →
      ((offset = Register.control → value.hasAny Control.enable = true) → e.isEnabled = true →
        e'.isEnabled = true) →
      Chronicle e e' [.write offset value] [.written offset value e.submitPending] := by
    intro e' hhistory henabled
    refine ⟨hhistory, rfl, fun hwrites => ⟨by simp, fun h => ⟨henabled ?_ h, by simp⟩⟩⟩
    rintro rfl
    exact hwrites value (List.mem_singleton_self _)
  by_cases hcontrol : offset = Register.control
  · subst hcontrol
    by_cases hkeeps : e.isEnabled = true → value.hasAny Control.enable = true
    · rw [e.write_control hkeeps]
      refine ⟨_, hwritten _ rfl fun hvalue _ => ?_⟩
      rw [Engine.isEnabled_setControl]
      exact hvalue rfl
    · obtain ⟨henabled, hcleared⟩ := Classical.not_imp.1 hkeeps
      have hcleared : value.hasAny Control.enable = false := by simpa using hcleared
      rw [e.write_control_abort henabled hcleared]
      refine ⟨[.aborted, .written Register.control value e.submitPending], rfl, rfl, ?_⟩
      intro hwrites
      cases hcleared.symm.trans (hwrites value (List.mem_singleton_self _))
  · refine ⟨_, hwritten _ ?_ fun _ henabled => ?_⟩
    · unfold Engine.write
      split_ifs <;> rfl
    · unfold Engine.write
      dsimp only
      split_ifs
      · exact henabled
      · exact henabled
      · exact henabled
      · rw [Engine.isEnabled_setRegister _ _ hcontrol]
        exact henabled

section Effect

variable (h : Chronicle e e' actions events)
include h

theorem grows : e.history <:+ e'.history := ⟨events, h.history_eq.symm⟩

theorem filterMap_told {β : Type} {g : Action → Option β}
    (hg : ∀ action, action.access? ≠ none → g action = none) :
    events.reverse.filterMap (fun event => event.action?.bind g) = actions.filterMap g := by
  rw [← List.filterMap_filterMap, h.told_eq, List.filterMap_filter]
  refine List.filterMap_congr fun action _ => ?_
  split_ifs with haccess
  · rfl
  · exact (hg action (by simpa using haccess)).symm

theorem submissions_eq :
    events.reverse.filterMap Event.submission? = actions.filterMap Action.submission? := by
  refine h.filterMap_told fun action haccess => ?_
  cases action <;> first | rfl | exact absurd rfl haccess

theorem deliveries_eq :
    events.reverse.filterMap Event.delivery? = actions.filterMap Action.delivery? := by
  refine h.filterMap_told fun action haccess => ?_
  cases action <;> first | rfl | exact absurd rfl haccess

theorem freed_eq :
    events.reverse.filterMap Event.freed? = actions.filterMap Action.freed? := by
  refine h.filterMap_told fun action haccess => ?_
  cases action <;> first | rfl | exact absurd rfl haccess

variable (hspared : .aborted ∉ events)
include hspared

theorem recent_submissions : recent Event.submission? e'.history =
    recent Event.submission? e.history ++ actions.filterMap Action.submission? := by
  rw [h.history_eq, recent_append hspared, h.submissions_eq]

theorem recent_deliveries : recent Event.delivery? e'.history =
    recent Event.delivery? e.history ++ actions.filterMap Action.delivery? := by
  rw [h.history_eq, recent_append hspared, h.deliveries_eq]

theorem flight_submitted (hfreed : actions.filterMap Action.freed? = []) :
    flight e'.history = flight e.history ++ actions.filterMap Action.submission? := by
  have hnone := List.filterMap_eq_nil_iff.1 (h.freed_eq.trans hfreed)
  rw [h.history_eq, flight_append_submitted hspared, h.submissions_eq]
  exact fun event hmem => hnone event (List.mem_reverse.2 hmem)

theorem flight_freed (hsubmitted : actions.filterMap Action.submission? = []) :
    flight e'.history = (flight e.history).filter fun transfer =>
      transfer.id ∉ actions.filterMap Action.freed? := by
  have hnone := List.filterMap_eq_nil_iff.1 (h.submissions_eq.trans hsubmitted)
  rw [h.history_eq, flight_append_freed hspared]
  · rw [← h.freed_eq, List.filterMap_reverse]
    simp only [List.mem_reverse]
  · exact fun event hmem => hnone event (List.mem_reverse.2 hmem)

theorem inOrder (horder : InOrder e'.history) : InOrder e.history := by
  rw [h.history_eq] at horder
  exact horder.of_append hspared

theorem count_aborted : e'.history.count .aborted = e.history.count .aborted := by
  rw [h.history_eq, List.count_append, List.count_eq_zero.2 hspared, Nat.zero_add]

end Effect

end Chronicle

variable {slots size : Nat} [HasSlots slots] {s s' : Scene Engine slots size}

/-- A step adds to journal and history. -/
theorem Step.chronicle (h : Step Lapse s s') : ∃ actions events,
    s'.port.journal.toList = s.port.journal.toList ++ actions ∧
      Chronicle s.engine s'.engine actions events := by
  obtain ⟨actions, hjournal, ⟨rfl, hturn | heq⟩ | ⟨action, rfl, hfits, heq⟩⟩ := h.entry
  · obtain ⟨events, hchronicle⟩ := Chronicle.turn hturn
    exact ⟨[], events, hjournal, hchronicle⟩
  · exact ⟨[], [], hjournal, heq ▸ .refl _⟩
  · rw [heq]
    cases action with
    | read offset value =>
      obtain rfl : s.engine.peek offset = value := hfits
      exact ⟨_, [], hjournal, .read s.engine offset⟩
    | write offset value =>
      obtain ⟨events, hchronicle⟩ := Chronicle.write s.engine offset value
      exact ⟨_, events, hjournal, hchronicle⟩
    | _ => exact ⟨_, _, hjournal, .remember s.engine rfl⟩

theorem Path.chronicle (h : Path Lapse s s') : ∃ actions events,
    s'.port.journal.toList = s.port.journal.toList ++ actions ∧
      Chronicle s.engine s'.engine actions events := by
  induction h with
  | refl => exact ⟨[], [], (List.append_nil _).symm, .refl _⟩
  | tail _ hstep ih =>
    obtain ⟨actions, events, hjournal, hchronicle⟩ := ih
    obtain ⟨later, more, hjournal', hchronicle'⟩ := hstep.chronicle
    refine ⟨actions ++ later, more ++ events, ?_, hchronicle.trans hchronicle'⟩
    rw [hjournal', hjournal, List.append_assoc]

omit [HasSlots slots] in
/-- Time passes for the device alone. -/
theorem Chronicle.lapse {world world' : World Engine slots size}
    (h : ReflTransGen Lapse world world') :
    ∃ events, Chronicle world.device world'.device [] events := by
  induction h with
  | refl => exact ⟨[], .refl _⟩
  | tail _ hlapse ih =>
    obtain ⟨events, hbefore⟩ := ih
    cases hlapse with
    | turn _ hturn =>
      obtain ⟨more, hmore⟩ := Chronicle.turn hturn
      exact ⟨more ++ events, hbefore.trans hmore⟩
    | store => exact ⟨events, hbefore⟩

/-- Actions that no transfer notices. -/
def Action.IsMinor : Action → Prop
  | .read .. | .log _ | .offered _ | .delayed _ | .released _ => True
  | .write offset _ => offset ≠ Register.control
  | .submitted _ | .delivered .. | .reclaimed _ => False

/-- Minor actions, and writes of the control register that keep the enable bit. -/
def Action.SparesTransfers (action : Action) : Prop :=
  action.IsMinor ∨
    ∃ value, action = .write Register.control value ∧ value.hasAny Control.enable = true

theorem Action.IsPassive.isMinor {action : Action} (h : action.IsPassive) : action.IsMinor := by
  cases action <;> trivial

/-- From `e` to `e'` nothing was submitted, taken back or given up. -/
structure Unmoved (e e' : Engine) : Prop where
  grows : e.history <:+ e'.history
  flight_eq : flight e'.history = flight e.history
  submissions_eq : recent Event.submission? e'.history = recent Event.submission? e.history
  deliveries_eq : recent Event.delivery? e'.history = recent Event.delivery? e.history
  aborted_eq : e'.history.count .aborted = e.history.count .aborted
  inOrder : InOrder e'.history → InOrder e.history

namespace Unmoved

variable {e e' e'' : Engine} {actions : List Action} {events : List Event}

theorem refl (e : Engine) : Unmoved e e := ⟨List.suffix_rfl, rfl, rfl, rfl, rfl, id⟩

theorem trans (h : Unmoved e e') (h' : Unmoved e' e'') : Unmoved e e'' where
  grows := h.grows.trans h'.grows
  flight_eq := h'.flight_eq.trans h.flight_eq
  submissions_eq := h'.submissions_eq.trans h.submissions_eq
  deliveries_eq := h'.deliveries_eq.trans h.deliveries_eq
  aborted_eq := h'.aborted_eq.trans h.aborted_eq
  inOrder horder := h.inOrder (h'.inOrder horder)

end Unmoved

theorem Chronicle.unmoved {e e' : Engine} {actions : List Action} {events : List Event}
    (h : Chronicle e e' actions events) (hactions : ∀ action ∈ actions, action.SparesTransfers) :
    Unmoved e e' := by
  have hspared : .aborted ∉ events := by
    refine (h.enabled fun value hmem => ?_).1
    rcases hactions _ hmem with hminor | ⟨other, heq, hkeeps⟩
    · exact absurd rfl hminor
    · obtain ⟨-, rfl⟩ := Action.write.inj heq
      exact hkeeps
  have hnone : ∀ {β : Type} (g : Action → Option β), (∀ action, action.IsMinor → g action = none) →
      (∀ value, g (.write Register.control value) = none) → actions.filterMap g = [] := by
    refine fun g hminor hcontrol => List.filterMap_eq_nil_iff.2 fun action hmem => ?_
    rcases hactions action hmem with h | ⟨value, rfl, -⟩
    · exact hminor action h
    · exact hcontrol value
  have hsubmitted := hnone Action.submission? (fun action h => by cases action <;> trivial)
    fun _ => rfl
  have hdelivered := hnone Action.delivery? (fun action h => by cases action <;> trivial)
    fun _ => rfl
  have hfreed := hnone Action.freed? (fun action h => by cases action <;> trivial) fun _ => rfl
  refine ⟨h.grows, ?_, ?_, ?_, h.count_aborted hspared, h.inOrder hspared⟩
  · rw [h.flight_submitted hspared hfreed, hsubmitted, List.append_nil]
  · rw [h.recent_submissions hspared, hsubmitted, List.append_nil]
  · rw [h.recent_deliveries hspared, hdelivered, List.append_nil]

/-- From `e` to `e'` these transfers were delivered, and then these were submitted. -/
structure Moved (e e' : Engine) (served : List (TransferId × Bytes)) (fresh : List Transfer) :
    Prop where
  grows : e.history <:+ e'.history
  flight_eq : flight e'.history =
    (flight e.history).filter (·.id ∉ served.map Prod.fst) ++ fresh
  submissions_eq : recent Event.submission? e'.history =
    recent Event.submission? e.history ++ fresh
  deliveries_eq : recent Event.delivery? e'.history = recent Event.delivery? e.history ++ served
  aborted_eq : e'.history.count .aborted = e.history.count .aborted
  inOrder : InOrder e'.history → InOrder e.history

section Moved

variable {e e' e'' : Engine} {served : List (TransferId × Bytes)} {fresh : List Transfer}
variable {events : List Event}

theorem Unmoved.moved (h : Unmoved e e') (h' : Moved e' e'' served fresh) :
    Moved e e'' served fresh where
  grows := h.grows.trans h'.grows
  flight_eq := by rw [h'.flight_eq, h.flight_eq]
  submissions_eq := by rw [h'.submissions_eq, h.submissions_eq]
  deliveries_eq := by rw [h'.deliveries_eq, h.deliveries_eq]
  aborted_eq := h'.aborted_eq.trans h.aborted_eq
  inOrder horder := h.inOrder (h'.inOrder horder)

theorem Moved.unmoved (h : Moved e e' served fresh) (h' : Unmoved e' e'') :
    Moved e e'' served fresh where
  grows := h.grows.trans h'.grows
  flight_eq := by rw [h'.flight_eq, h.flight_eq]
  submissions_eq := by rw [h'.submissions_eq, h.submissions_eq]
  deliveries_eq := by rw [h'.deliveries_eq, h.deliveries_eq]
  aborted_eq := h'.aborted_eq.trans h.aborted_eq
  inOrder horder := h.inOrder (h'.inOrder horder)

theorem Moved.submit (h : Moved e e' served []) (h' : Moved e' e'' [] fresh) :
    Moved e e'' served fresh where
  grows := h.grows.trans h'.grows
  flight_eq := by
    rw [h'.flight_eq, h.flight_eq, List.append_nil]
    simp
  submissions_eq := by rw [h'.submissions_eq, h.submissions_eq, List.append_nil]
  deliveries_eq := by rw [h'.deliveries_eq, h.deliveries_eq, List.append_nil]
  aborted_eq := h'.aborted_eq.trans h.aborted_eq
  inOrder horder := h.inOrder (h'.inOrder horder)

theorem Chronicle.delivered
    (h : Chronicle e e' (served.map fun entry => .delivered entry.1 entry.2) events) :
    Moved e e' served [] := by
  have hspared := (h.enabled (by simp)).1
  have hsubmitted : (served.map fun entry => Action.delivered entry.1 entry.2).filterMap
      Action.submission? = [] := by simp [Action.submission?]
  have hdelivered : (served.map fun entry => Action.delivered entry.1 entry.2).filterMap
      Action.delivery? = served := by simp [List.filterMap_map, Function.comp_def, Action.delivery?]
  have hfreed : (served.map fun entry => Action.delivered entry.1 entry.2).filterMap
      Action.freed? = served.map Prod.fst := by
    simp [List.filterMap_map, Function.comp_def, Action.freed?]
  refine ⟨h.grows, ?_, ?_, ?_, h.count_aborted hspared, h.inOrder hspared⟩
  · rw [h.flight_freed hspared hsubmitted, hfreed, List.append_nil]
  · rw [h.recent_submissions hspared, hsubmitted]
  · rw [h.recent_deliveries hspared, hdelivered]

theorem Chronicle.requested {slots size : Nat} {driver d : Driver slots size} {bytes : Nat}
    {actions : List Action} (h : Chronicle e e' actions events)
    (hrequested : Requested bytes driver d actions) :
    Moved e e' [] (actions.filterMap Action.submission?) := by
  have hspared : .aborted ∉ events :=
    (h.enabled fun value hmem => absurd rfl (hrequested.admits _ hmem)).1
  have hdelivered := hrequested.deliveries_eq
  have hfreed : actions.filterMap Action.freed? = [] := by
    refine List.filterMap_eq_nil_iff.2 fun action hmem => ?_
    have hadmits := hrequested.admits action hmem
    cases action <;> trivial
  refine ⟨h.grows, ?_, h.recent_submissions hspared, ?_, h.count_aborted hspared,
    h.inOrder hspared⟩
  · rw [h.flight_submitted hspared hfreed]
    simp
  · rw [h.recent_deliveries hspared, hdelivered]

end Moved

theorem Passive.minor {actions : List Action} (h : Passive actions) :
    ∀ action ∈ actions, action.IsMinor := fun action hmem => (h action hmem).isMinor

theorem Chronicle.unmoved_of_minor {e e' : Engine} {actions : List Action} {events : List Event}
    (h : Chronicle e e' actions events) (hminor : ∀ action ∈ actions, action.IsMinor) :
    Unmoved e e' := h.unmoved fun action hmem => .inl (hminor action hmem)

/-- A stretch of a driver's work on a bench. -/
structure Scene.Follows (s s' : Scene Bench slots size) (actions : List Action)
    (events : List Event) : Prop where
  lawful : s'.port.world.device.script.IsLawful
  regular : s'.bare.Regular
  chronicle : Chronicle s.bare.engine s'.bare.engine actions events

/-- A program that keeps to the protocol, and of which it is known what it enters, leaves its trace
in the history. -/
theorem Leads.traced {α : Type} {program : DriverM Bench slots size α} {s : Scene Bench slots size}
    {Q : α → Scene Bench slots size → Prop} {R : α → Driver slots size → List Action → Prop}
    (h : Leads Drifts program Q s) (henters : Enters program R s.driver)
    (hlawful : s.port.world.device.script.IsLawful) (hregular : s.bare.Regular) :
    Leads Drifts program (fun a s' => Q a s' ∧ ∃ actions events,
      s.Follows s' actions events ∧ R a s'.driver actions) s := by
  obtain ⟨known, hpath, hQ⟩ := h
  obtain ⟨actions, hjournal, hR⟩ := henters s.port
  obtain ⟨hlawful', hpath'⟩ := hpath.bare hlawful
  obtain ⟨actions', events, hjournal', hchronicle⟩ := hpath'.chronicle
  obtain rfl : actions' = actions :=
    List.append_cancel_left (hjournal'.symm.trans hjournal)
  exact ⟨known, hpath, hQ, actions', events, ⟨hlawful', hregular.path hpath', hchronicle⟩, hR⟩

/-- The transfers are as they were. -/
structure Scene.Idles (s s' : Scene Bench slots size) : Prop where
  lawful : s'.port.world.device.script.IsLawful
  regular : s'.bare.Regular
  unmoved : Unmoved s.bare.engine s'.bare.engine

theorem Scene.Idles.trans {s s' s'' : Scene Bench slots size} (h : s.Idles s')
    (h' : s'.Idles s'') : s.Idles s'' :=
  ⟨h'.lawful, h'.regular, h.unmoved.trans h'.unmoved⟩

/-- A program that keeps to the protocol and spares the transfers. -/
theorem Leads.idles {α : Type} {program : DriverM Bench slots size α} {s : Scene Bench slots size}
    {Q : α → Scene Bench slots size → Prop} (h : Leads Drifts program Q s)
    (hdoes : Does Action.SparesTransfers program)
    (hlawful : s.port.world.device.script.IsLawful) (hregular : s.bare.Regular) :
    Leads Drifts program (fun a s' => Q a s' ∧ s.Idles s') s := by
  refine (h.traced (hdoes s.driver) hlawful hregular).mono fun a s' h => ?_
  obtain ⟨hQ, actions, events, hfollows, hactions⟩ := h
  exact ⟨hQ, hfollows.lawful, hfollows.regular, hfollows.chronicle.unmoved hactions⟩

/-- What is known of the outcome itself, whatever the driver knows. -/
theorem Leads.also {α σ : Type} [RegisterBus (World σ slots size)] {s : Scene σ slots size}
    {free : World σ slots size → World σ slots size → Prop} {program : DriverM σ slots size α}
    {Q : α → Scene σ slots size → Prop}
    {P : α → Driver slots size → Port (World σ slots size) → Prop} (h : Leads free program Q s)
    (hP : P (program.outcome s.driver s.port).1.1 (program.outcome s.driver s.port).1.2
      (program.outcome s.driver s.port).2) :
    Leads free program (fun a s' => Q a s' ∧ P a s'.driver s'.port) s := by
  obtain ⟨known, hpath, hQ⟩ := h
  exact ⟨known, hpath, hQ, hP⟩

end DmaController

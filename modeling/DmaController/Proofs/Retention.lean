import DmaController.Proofs.Soundness
import DmaController.RegisterFile

/-!
Registers that hold what is written. Two registers have bits that do not belong to the driver, and
it changes its own by reading such a register and writing it back. That spares the other bits on a
device that keeps these registers as they were written. Plain registers do, and so does a bench
whose script leaves them alone, whatever they hold at first.
-/
namespace DmaController

/-- Registers that a driver reads and writes back. -/
def Register.IsShared (offset : Offset) : Prop := offset = control ∨ offset = flags

instance : DecidablePred Register.IsShared := fun _ => inferInstanceAs (Decidable (_ ∨ _))

/-- What there is to tell of the shared registers of a world. -/
class SharedRegisters (ω : Type) where
  /-- The word that a shared register holds. -/
  held : ω → Offset → Word
  /-- Nobody writes the shared registers but the driver. -/
  Reserved : ω → Prop
  /-- How often everything was given up. -/
  aborts : ω → Nat

open SharedRegisters

/-- The shared registers are as they were, and nothing was given up. -/
structure Undisturbed {ω : Type} [SharedRegisters ω] (world world' : ω) : Prop where
  reserved : Reserved world'
  held_eq : ∀ offset, Register.IsShared offset → held world' offset = held world offset
  aborts_eq : aborts world' = aborts world

/-- This does not touch the shared registers, as long as nobody else does. -/
def Untroubled {ω : Type} [SharedRegisters ω] (world world' : ω) : Prop :=
  Reserved world → Undisturbed world world'

section Untroubled

variable {ω : Type} [SharedRegisters ω] {a b c : ω}

theorem Undisturbed.refl (h : Reserved a) : Undisturbed a a := ⟨h, fun _ _ => rfl, rfl⟩

theorem Undisturbed.trans (hab : Undisturbed a b) (hbc : Undisturbed b c) : Undisturbed a c where
  reserved := hbc.reserved
  held_eq offset hshared := (hbc.held_eq offset hshared).trans (hab.held_eq offset hshared)
  aborts_eq := hbc.aborts_eq.trans hab.aborts_eq

theorem Untroubled.refl : Untroubled a a := Undisturbed.refl

theorem Untroubled.trans (hab : Untroubled a b) (hbc : Untroubled b c) : Untroubled a c := by
  intro h
  have hb := hab h
  exact hb.trans (hbc hb.reserved)

end Untroubled

/-- A device whose shared registers hold what was written last. -/
class Retentive (σ : Type) (slots size : Nat) [RegisterBus (World σ slots size)] extends
    SharedRegisters (World σ slots size) where
  read_untroubled (offset : Offset) (world : World σ slots size) :
    Untroubled world (RegisterBus.read offset world).2
  read_eq {offset : Offset} {world : World σ slots size} (hreserved : Reserved world)
    (hshared : Register.IsShared offset) : (RegisterBus.read offset world).1 = held world offset
  write_untroubled {offset : Offset} (hoffset : ¬ Register.IsShared offset) (value : Word)
    (world : World σ slots size) : Untroubled world (RegisterBus.write offset value world)
  write_reserved {offset : Offset} {world : World σ slots size} (hreserved : Reserved world)
    (hshared : Register.IsShared offset) (value : Word) :
    Reserved (RegisterBus.write offset value world)
  held_write {offset other : Offset} {world : World σ slots size} (hreserved : Reserved world)
    (hshared : Register.IsShared offset) (hother : Register.IsShared other) (value : Word) :
    held (RegisterBus.write offset value world) other =
      if other = offset then value else held world other
  /-- Only the enable bit gives anything up. -/
  aborts_write {value : Word} {world : World σ slots size} (hreserved : Reserved world)
    (hvalue : value.getLsbD 0 = (held world Register.control).getLsbD 0) :
    aborts (RegisterBus.write Register.control value world) = aborts world
  note_untroubled (action : Action) (world : World σ slots size) :
    Untroubled world (RegisterBus.note action world)
  store_untroubled (world : World σ slots size) (memory : Memory slots size) :
    Untroubled world { world with memory }

theorem Word.hasAny_enable (word : Word) : word.hasAny Control.enable = word.getLsbD 0 := by
  have hbit : Control.enable = BitVec.twoPow 32 0 := rfl
  rw [hbit]
  exact hasAny_twoPow word (by decide)

variable {slots size : Nat}

/-- Plain registers give nothing up. -/
instance : SharedRegisters (World RegisterFile slots size) where
  held world offset := world.device.get offset
  Reserved _ := True
  aborts _ := 0

instance : Retentive RegisterFile slots size where
  read_untroubled _ _ := .refl
  read_eq _ _ := rfl
  write_untroubled {offset} hoffset value world _ := by
    refine ⟨trivial, fun other hother => ?_, rfl⟩
    refine world.device.get_set_of_ne ?_ value
    rintro rfl
    exact hoffset hother
  write_reserved _ _ _ := trivial
  held_write {_ _ world} _ _ _ value := world.device.get_set _ _ value
  aborts_write _ _ := rfl
  note_untroubled _ _ := .refl
  store_untroubled _ _ _ := ⟨trivial, fun _ _ => rfl, rfl⟩

namespace Sim

/-- The shared registers of the engines are the same, and nothing was given up in between. -/
structure Engine.Undisturbed (e e' : Engine) : Prop where
  get_eq : ∀ offset, Register.IsShared offset → e'.registers.get offset = e.registers.get offset
  aborts_eq : e'.history.count .aborted = e.history.count .aborted

namespace Engine.Undisturbed

variable {e e' e'' : Engine}

theorem refl (e : Engine) : Undisturbed e e := ⟨fun _ _ => rfl, rfl⟩

theorem trans (h : Undisturbed e e') (h' : Undisturbed e' e'') : Undisturbed e e'' where
  get_eq offset hshared := (h'.get_eq offset hshared).trans (h.get_eq offset hshared)
  aborts_eq := h'.aborts_eq.trans h.aborts_eq

/-- Nothing but the history and what is not a register has changed. -/
theorem of_cons {event : Event} (hregisters : e'.registers = e.registers)
    (hhistory : e'.history = event :: e.history) (hevent : event ≠ .aborted) :
    Undisturbed e e' where
  get_eq _ _ := by rw [hregisters]
  aborts_eq := by rw [hhistory, List.count_cons_of_ne hevent]

theorem remember (e : Engine) (event : Event) (h : event ≠ .aborted) :
    Undisturbed e (e.remember event) := of_cons rfl rfl h

theorem setRegister (e : Engine) {offset : Offset} (h : ¬ Register.IsShared offset)
    (value : Word) : Undisturbed e (e.setRegister offset value) where
  get_eq other hother := by
    refine e.registers.get_set_of_ne ?_ value
    rintro rfl
    exact h hother
  aborts_eq := rfl

theorem complete (e : Engine) (id : Nat) : Undisturbed e (e.complete id) :=
  of_cons rfl rfl nofun

theorem turns (h : Turns e e') : Undisturbed e e' := by
  induction h with
  | refl => exact refl e
  | tail _ hturn ih =>
    cases hturn with
    | takeOver => exact ih.trans (of_cons rfl rfl nofun)
    | complete id => exact ih.trans (complete _ id)

theorem write (e : Engine) {offset : Offset} (h : ¬ Register.IsShared offset) (value : Word) :
    Undisturbed e (e.write offset value) := by
  have hremember := remember e (.written offset value e.submitPending) nofun
  unfold Engine.write
  dsimp only
  split_ifs with hsubmit hstatus hreadonly hcontrol
  · exact ⟨hremember.get_eq, hremember.aborts_eq⟩
  · exact ⟨hremember.get_eq, hremember.aborts_eq⟩
  · exact hremember
  · exact absurd (.inl hcontrol) h
  · exact hremember.trans (setRegister _ h value)

end Engine.Undisturbed

namespace Stimulus

/-- The stimulus leaves the shared registers alone. -/
def SparesShared : Stimulus → Prop
  | setRegister offset _ | write offset _ => ¬ Register.IsShared offset
  | _ => True

theorem SparesShared.undisturbed {stimulus : Stimulus} (h : stimulus.SparesShared) (core : Core) :
    Engine.Undisturbed core.toEngine (stimulus.onCore core).toEngine := by
  cases stimulus with
  | setRegister offset value => exact .setRegister _ h value
  | write offset value =>
    exact (Engine.Undisturbed.write _ h value).trans (.turns (core.write_turns offset value))
  | read offset => exact .turns (core.read_turns offset)
  | accept => exact .turns core.accept_turns
  | complete id => exact .complete _ id
  | finish id =>
    by_cases hid : id ∈ core.outstanding
    · rw [onCore, if_pos hid]
      exact .complete _ id
    · rw [onCore, if_neg hid]
      exact .refl _
  | completeAll =>
    have hall : ∀ (ids : List Nat) (core : Core),
        Engine.Undisturbed core.toEngine (ids.foldl Core.complete core).toEngine := by
      intro ids
      induction ids with
      | nil => exact fun core => .refl _
      | cons id ids ih =>
        exact fun core => (Engine.Undisturbed.complete _ id).trans (ih (core.complete id))
    exact hall core.outstanding core
  | autoAccept | autoComplete | submitPending | acceptAfter | nextId | clearWrites | store =>
    exact ⟨fun _ _ => rfl, rfl⟩

end Stimulus

/-- No stimulus of the script touches the shared registers. -/
def Script.SparesShared (script : Script) : Prop :=
  ∀ occasion time, ∀ stimulus ∈ script occasion time, stimulus.SparesShared

instance : SharedRegisters (World Bench slots size) where
  held world offset := world.device.core.registers.get offset
  Reserved world := world.device.script.SparesShared
  aborts world := world.device.core.history.count .aborted

/-- The script stays, and the engine is not disturbed. -/
theorem untroubled_of_engine {world world' : World Bench slots size}
    (hscript : world'.device.script = world.device.script)
    (h : world.device.script.SparesShared →
      Engine.Undisturbed world.device.core.toEngine world'.device.core.toEngine) :
    Untroubled world world' := by
  intro hspares
  constructor
  · change world'.device.script.SparesShared
    rw [hscript]
    exact hspares
  · exact (h hspares).get_eq
  · exact (h hspares).aborts_eq

theorem stimulate_untroubled (world : World Bench slots size) {stimulus : Stimulus}
    (h : stimulus.SparesShared) : Untroubled world (stimulate world stimulus) :=
  untroubled_of_engine rfl fun _ => h.undisturbed world.device.core

theorem occur_untroubled (occasion : Occasion) (world : World Bench slots size) :
    Untroubled world (occur occasion world) := by
  have hfold : ∀ (stimuli : List Stimulus) (world : World Bench slots size),
      (∀ stimulus ∈ stimuli, stimulus.SparesShared) →
        Untroubled world (stimuli.foldl stimulate world) := by
    intro stimuli
    induction stimuli with
    | nil => exact fun _ _ => .refl
    | cons stimulus stimuli ih =>
      intro world h
      obtain ⟨hfirst, hrest⟩ := List.forall_mem_cons.1 h
      exact (stimulate_untroubled world hfirst).trans (ih _ hrest)
  intro hreserved
  let met : World Bench slots size := { world with device := world.device.meet occasion }
  have hmet : Untroubled world met := untroubled_of_engine rfl fun _ => .refl _
  exact hmet.trans (hfold _ met (hreserved occasion _)) hreserved

/-- What a bench holds after a write of a shared register. -/
theorem get_write_shared (engine : Engine) {offset other : Offset}
    (hshared : Register.IsShared offset) (value : Word) :
    (engine.write offset value).registers.get other =
      if other = offset then value else engine.registers.get other := by
  rcases hshared with rfl | rfl
  · by_cases henabled : engine.isEnabled = true → value.hasAny Control.enable = true
    · rw [engine.write_control henabled]
      exact engine.registers.get_set _ _ value
    · obtain ⟨henabled, hcleared⟩ := Classical.not_imp.1 henabled
      rw [engine.write_control_abort henabled (by simpa using hcleared)]
      exact engine.registers.get_set _ _ value
  · exact engine.registers.get_set _ _ value

instance : Retentive Bench slots size where
  read_untroubled offset world := by
    refine (occur_untroubled (.read offset) world).trans (untroubled_of_engine rfl fun _ => ?_)
    exact .turns ((occur (.read offset) world).device.core.read_turns offset)
  read_eq {offset world} hreserved hshared := by
    have hheld := (occur_untroubled (.read offset) world hreserved).held_eq offset hshared
    refine Eq.trans ?_ hheld
    rcases hshared with rfl | rfl <;> rfl
  write_untroubled {offset} hoffset value world := by
    refine (occur_untroubled (.write offset) world).trans (untroubled_of_engine rfl fun _ => ?_)
    exact (Engine.Undisturbed.write _ hoffset value).trans (.turns (Core.write_turns ..))
  write_reserved {offset world} hreserved _ value :=
    (occur_untroubled (.write offset) world hreserved).reserved
  held_write {offset other world} hreserved hshared hother value := by
    have hheld := (occur_untroubled (.write offset) world hreserved).held_eq other hother
    have hturns := Engine.Undisturbed.turns
      ((occur (.write offset) world).device.core.write_turns offset value)
    refine (hturns.get_eq other hother).trans ?_
    rw [get_write_shared _ hshared]
    exact congrArg _ hheld
  aborts_write {value world} hreserved hvalue := by
    have hmet := occur_untroubled (.write Register.control) world hreserved
    have hturns := Engine.Undisturbed.turns
      ((occur (.write Register.control) world).device.core.write_turns Register.control value)
    refine (hturns.aborts_eq.trans ?_).trans hmet.aborts_eq
    have henabled : (occur (.write Register.control) world).device.core.isEnabled =
        value.hasAny Control.enable := by
      rw [Word.hasAny_enable, hvalue, ← Word.hasAny_enable]
      exact congrArg (·.hasAny Control.enable) (hmet.held_eq Register.control (.inl rfl))
    rw [Engine.write_control _ fun h => henabled ▸ h]
    exact (Engine.Undisturbed.remember _ (.written ..) nofun).aborts_eq
  note_untroubled action world :=
    untroubled_of_engine rfl fun _ => .remember _ _ nofun
  store_untroubled world memory := untroubled_of_engine rfl fun _ => .refl _

end Sim
end DmaController

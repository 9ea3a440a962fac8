import DmaController.Proofs.Protocol
import DmaController.Sim.Bench

/-!
How the hardware moves. Whatever makes it move, an engine either takes a pending submission over or
completes an outstanding transfer. A bench whose script keeps to such events is therefore followed
by its engine alone: a path of a driver on the bench is a path of the driver on the engine.
-/
namespace DmaController

namespace Sim

open Relation

/-- An engine moves by itself. -/
inductive Turn : Engine → Engine → Prop
  | takeOver (engine : Engine) (h : engine.submitPending = true) : Turn engine engine.takeOver
  | complete (engine : Engine) (id : Nat) (h : id ∈ engine.outstanding) :
      Turn engine (engine.complete id)

abbrev Turns : Engine → Engine → Prop := ReflTransGen Turn

namespace Core

variable (core : Core)

theorem accept_turns : Turns core.toEngine core.accept.toEngine := by
  unfold accept
  split_ifs with hpending hauto
  · have hmem : core.acceptId ∈ core.toEngine.takeOver.outstanding := by simp [Engine.takeOver]
    exact .head (.takeOver _ hpending) (.single (.complete _ _ hmem))
  · exact .single (.takeOver _ hpending)
  · exact .refl

theorem look_turns : Turns core.toEngine core.look.toEngine := by
  unfold look
  dsimp only
  split_ifs
  · exact accept_turns { core with pendingLooks := core.pendingLooks + 1 }
  · exact .refl
  · exact .refl
  · exact .refl

/-- A read shows what the engine has come to. -/
theorem read_turns (offset : Offset) : Turns core.toEngine (core.read offset).2.toEngine := by
  unfold read
  split_ifs
  · exact core.look_turns
  · exact .refl

theorem expedite_turns : Turns core.toEngine core.expedite.toEngine := by
  unfold expedite
  dsimp only
  split_ifs
  · exact accept_turns { core with looksLeft := core.acceptAfter.getD 0 }
  · exact .refl

/-- A write may be followed by moves of the engine. -/
theorem write_turns (offset : Offset) (value : Word) :
    Turns (core.toEngine.write offset value) (core.write offset value).toEngine := by
  unfold write
  dsimp only
  split_ifs
  · exact expedite_turns { core with
      toEngine := core.toEngine.write offset value
      writes := core.writes.push (offset, value) }
  · exact .refl

end Core

namespace Stimulus

/-- Stimuli that a core can meet while a driver owns it: it accepts what is pending, completes what
is outstanding, and does so sooner or later, its registers are read, and its device stores bytes. -/
def IsLawful : Stimulus → Prop
  | read _ | autoAccept _ | autoComplete _ | acceptAfter _ | accept | finish _ | clearWrites
  | store .. => True
  | setRegister .. | write .. | submitPending _ | nextId _ | complete _ | completeAll => False

theorem onCore_turns (core : Core) {stimulus : Stimulus} (h : stimulus.IsLawful) :
    Turns core.toEngine (stimulus.onCore core).toEngine := by
  cases stimulus with
  | read offset => exact core.read_turns offset
  | accept => exact core.accept_turns
  | finish id =>
    by_cases hid : id ∈ core.outstanding
    · simpa [onCore, hid, Core.complete] using ReflTransGen.single (Turn.complete _ id hid)
    · simpa [onCore, hid] using ReflTransGen.refl
  | autoAccept | autoComplete | acceptAfter | clearWrites | store => exact .refl
  | setRegister | write | submitPending | nextId | complete | completeAll => exact h.elim

end Stimulus

/-- Every stimulus of the script is lawful. -/
def Script.IsLawful (script : Script) : Prop :=
  ∀ occasion time, ∀ stimulus ∈ script occasion time, stimulus.IsLawful

theorem Script.isLawful_none : Script.IsLawful fun _ _ => [] :=
  fun _ _ _ hmem => absurd hmem List.not_mem_nil

variable {slots size : Nat}

/-- The device moves by itself, or it stores bytes into a buffer. -/
inductive Lapse : World Engine slots size → World Engine slots size → Prop
  | turn {engine engine' : Engine} (memory : Memory slots size) (h : Turn engine engine') :
      Lapse ⟨engine, memory⟩ ⟨engine', memory⟩
  | store (engine : Engine) (memory : Memory slots size) (slot : Fin slots) (start : Nat)
      (data : Bytes) : Lapse ⟨engine, memory⟩ ⟨engine, memory.store slot start data⟩

/-- The engine of a bench with the bench's buffers. -/
def bare (world : World Bench slots size) : World Engine slots size :=
  ⟨world.device.core.toEngine, world.memory⟩

/-- How a bench may move while its driver waits: its script is kept, and its engine moves. -/
def Drifts (world world' : World Bench slots size) : Prop :=
  world'.device.script = world.device.script ∧
    (world.device.script.IsLawful → ReflTransGen Lapse (bare world) (bare world'))

theorem lapse_turns {engine engine' : Engine} (memory : Memory slots size)
    (h : Turns engine engine') :
    ReflTransGen Lapse (⟨engine, memory⟩ : World Engine slots size) ⟨engine', memory⟩ := by
  induction h with
  | refl => exact .refl
  | tail _ h ih => exact ih.tail (.turn memory h)

theorem stimulate_lapse (world : World Bench slots size) {stimulus : Stimulus}
    (h : stimulus.IsLawful) :
    ReflTransGen Lapse (bare world) (bare (stimulate world stimulus)) := by
  refine (lapse_turns world.memory (stimulus.onCore_turns world.device.core h)).trans ?_
  cases stimulus with
  | store slot start data =>
    by_cases hslot : slot < slots
    · have hstep := Lapse.store world.device.core.toEngine world.memory ⟨slot, hslot⟩ start data
      simpa [bare, stimulate, Stimulus.onMemory, Stimulus.onCore, hslot] using
        ReflTransGen.single hstep
    · simpa [bare, stimulate, Stimulus.onMemory, Stimulus.onCore, hslot] using ReflTransGen.refl
  | _ => exact .refl

theorem foldl_stimulate_lapse (stimuli : List Stimulus) (world : World Bench slots size)
    (h : ∀ stimulus ∈ stimuli, stimulus.IsLawful) :
    ReflTransGen Lapse (bare world) (bare (stimuli.foldl stimulate world)) := by
  induction stimuli generalizing world with
  | nil => exact .refl
  | cons stimulus stimuli ih =>
    have hfirst := stimulate_lapse world (h stimulus List.mem_cons_self)
    exact hfirst.trans (ih _ fun other hmem => h other (List.mem_cons_of_mem _ hmem))

theorem script_foldl_stimulate (stimuli : List Stimulus) (world : World Bench slots size) :
    (stimuli.foldl stimulate world).device.script = world.device.script := by
  induction stimuli generalizing world with
  | nil => rfl
  | cons stimulus stimuli ih => exact ih (stimulate world stimulus)

theorem occur_drifts (occasion : Occasion) (world : World Bench slots size) :
    Drifts world (occur occasion world) := by
  refine ⟨script_foldl_stimulate _ _, fun hlawful => ?_⟩
  exact foldl_stimulate_lapse _ { world with device := world.device.meet occasion }
    (hlawful occasion _)

end Sim

open Relation Sim

variable {slots size : Nat}

/-- A driver at work on a bench, as it works on the engine. -/
def Scene.bare (s : Scene Bench slots size) : Scene Engine slots size :=
  ⟨s.driver, s.known, ⟨Sim.bare s.port.world, s.port.journal⟩⟩

variable [HasSlots slots]

/-- Time passes for the device alone. -/
theorem path_of_lapse (driver : Driver slots size) (known : Known) (journal : Journal)
    {world world' : World Engine slots size} (h : ReflTransGen Lapse world world') :
    Path Lapse ⟨driver, known, ⟨world, journal⟩⟩ ⟨driver, known, ⟨world', journal⟩⟩ := by
  induction h with
  | refl => exact .refl
  | tail _ h ih => exact ih.tail ⟨.meanwhile, .meanwhile _ _, ⟨h, rfl⟩, trivial⟩

/-- What a driver does on a bench it does on the engine, with the moves of the engine between. -/
theorem Step.bare {s s' : Scene Bench slots size} (h : Step Drifts s s')
    (hlawful : s.port.world.device.script.IsLawful) :
    s'.port.world.device.script = s.port.world.device.script ∧ Path Lapse s.bare s'.bare := by
  obtain ⟨driver, known, world, journal⟩ := s
  obtain ⟨driver', known', port'⟩ := s'
  obtain ⟨deed, hprotocol, hserves, hshows⟩ := h
  cases deed with
  | act action =>
    cases action with
    | read offset value =>
      obtain ⟨hvalue, rfl⟩ := hserves
      obtain ⟨hscript, hdrift⟩ := occur_drifts (.read offset) world
      let met := occur (.read offset) world
      have hturns := lapse_turns met.memory (met.device.core.read_turns offset)
      have hbefore := (hdrift hlawful).trans hturns
      exact ⟨hscript, (path_of_lapse driver known journal hbefore).tail
        ⟨_, hprotocol, ⟨hvalue, rfl⟩, trivial⟩⟩
    | write offset value =>
      obtain rfl := hserves
      obtain ⟨hscript, hdrift⟩ := occur_drifts (.write offset) world
      let met := occur (.write offset) world
      let written : Port (World Engine slots size) :=
        ⟨⟨met.device.core.toEngine.write offset value, met.memory⟩,
          journal.push (.write offset value)⟩
      have hbefore := path_of_lapse driver known journal (hdrift hlawful)
      have hwrite : Step Lapse ⟨driver, known, ⟨Sim.bare met, journal⟩⟩
        ⟨driver', known', written⟩ := ⟨_, hprotocol, rfl, trivial⟩
      have hafter := path_of_lapse driver' known' written.journal
        (lapse_turns met.memory (met.device.core.write_turns offset value))
      exact ⟨hscript, (hbefore.tail hwrite).trans hafter⟩
    | _ =>
      obtain rfl := hserves
      exact ⟨rfl, .single ⟨_, hprotocol, rfl, hshows⟩⟩
  | stored slot data =>
    obtain rfl := hserves
    exact ⟨rfl, .single ⟨_, hprotocol, rfl, trivial⟩⟩
  | meanwhile =>
    obtain ⟨⟨hscript, hdrift⟩, hjournal⟩ := hserves
    obtain ⟨world', journal'⟩ := port'
    obtain rfl : journal' = journal := hjournal
    cases hprotocol
    exact ⟨hscript, path_of_lapse _ _ _ (hdrift hlawful)⟩
  | inward =>
    obtain rfl := hserves
    exact ⟨rfl, .single ⟨_, hprotocol, rfl, trivial⟩⟩

/-- The same holds for a whole path. -/
theorem Path.bare {s s' : Scene Bench slots size} (h : Path Drifts s s')
    (hlawful : s.port.world.device.script.IsLawful) :
    s'.port.world.device.script.IsLawful ∧ Path Lapse s.bare s'.bare := by
  induction h with
  | refl => exact ⟨hlawful, .refl⟩
  | tail _ hstep ih =>
    obtain ⟨hscript, hpath⟩ := hstep.bare ih.1
    exact ⟨hscript ▸ ih.1, ih.2.trans hpath⟩

end DmaController

import DmaController.Proofs.Chronicle

/-!
What disabling an enabled core does, whatever went on before: everything is given up, once, and the
core is idle. So after it all that holds of transfers holds, even if it was lost before.
-/
namespace DmaController

open Relation Sim

namespace Sim

theorem Core.write_control (core : Core) (value : Word) :
    (core.write Register.control value).toEngine =
      core.toEngine.write Register.control value := by
  have hne : ¬ (Register.control = Register.submit ∧ value.hasAny submitBit) :=
    fun h => absurd h.1 (by decide)
  unfold write
  rw [if_neg hne]

/-- From `e` to `e'` everything was given up, once, and nothing was begun since. -/
structure GivenUp (e e' : Engine) : Prop where
  idle : e'.IsIdle
  history_eq : ∃ events, e'.history = .aborted :: (events ++ e.history) ∧ .aborted ∉ events

namespace GivenUp

variable {e e' : Engine} (h : GivenUp e e')
include h

theorem grows : e.history <:+ e'.history := by
  obtain ⟨events, hhistory, -⟩ := h.history_eq
  exact ⟨.aborted :: events, hhistory.symm⟩

theorem count_aborted : e'.history.count .aborted = e.history.count .aborted + 1 := by
  obtain ⟨events, hhistory, hspared⟩ := h.history_eq
  rw [hhistory, List.count_cons_self, List.count_append, List.count_eq_zero.2 hspared,
    Nat.zero_add]

theorem flight_eq : flight e'.history = [] := by
  obtain ⟨events, hhistory, -⟩ := h.history_eq
  rw [hhistory]
  rfl

theorem unfinished_eq : unfinished e'.history = [] := by
  obtain ⟨events, hhistory, -⟩ := h.history_eq
  rw [hhistory]
  rfl

theorem recent_eq {α : Type} (f : Event → Option α) : recent f e'.history = [] := by
  obtain ⟨events, hhistory, -⟩ := h.history_eq
  rw [hhistory]
  rfl

end GivenUp

variable {slots size : Nat}

theorem read_lapse (offset : Offset) {world : World Bench slots size}
    (hlawful : world.device.script.IsLawful) :
    (RegisterBus.read offset world).2.device.script = world.device.script ∧
      ReflTransGen Lapse (bare world) (bare (RegisterBus.read offset world).2) := by
  obtain ⟨hscript, hdrift⟩ := occur_drifts (.read offset) world
  let met := occur (.read offset) world
  exact ⟨hscript, (hdrift hlawful).trans
    (lapse_turns met.memory (met.device.core.read_turns offset))⟩

end Sim

variable {slots size : Nat}

/-- The core of a bench is disabled while it is enabled. -/
theorem Driver.disable_gives_up (driver : Driver slots size) {port : Port (World Bench slots size)}
    (hlawful : port.world.device.script.IsLawful)
    (henabled : port.world.device.core.isEnabled = true) :
    let after := (disable.outcome driver port).2.world.device
    after.script.IsLawful ∧ GivenUp port.world.device.core.toEngine after.core.toEngine := by
  intro after
  obtain ⟨hscript, hread⟩ := read_lapse Register.control hlawful
  let world := (RegisterBus.read Register.control port.world).2
  let value := (RegisterBus.read Register.control port.world).1 &&& ~~~ Control.enable
  obtain ⟨hscript', hdrift⟩ := occur_drifts (.write Register.control) world
  obtain ⟨events, hchronicle⟩ := Chronicle.lapse (hread.trans (hdrift (hscript ▸ hlawful)))
  obtain ⟨hspared, hkept⟩ := hchronicle.enabled (by simp)
  let met := (occur (.write Register.control) world).device.core
  have hmet : met.isEnabled = true := (hkept henabled).1
  have hcleared : value.hasAny Control.enable = false := by
    simp [value, Word.hasAny, BitVec.and_assoc]
  have hafter : after.core.toEngine = met.toEngine.write Register.control value :=
    met.write_control value
  refine ⟨?_, ?_⟩
  · change (occur (.write Register.control) world).device.script.IsLawful
    rw [hscript', hscript]
    exact hlawful
  · rw [hafter, Engine.write_control_abort _ hmet hcleared]
    refine ⟨⟨rfl, rfl, rfl, rfl⟩,
      .written Register.control value met.submitPending :: events, ?_, by simp [hspared]⟩
    exact congrArg
      (fun past => .aborted :: .written Register.control value met.submitPending :: past)
      hchronicle.history_eq

variable [HasSlots slots]

/-- A driver that has disabled an enabled core knows where it stands. -/
theorem Sim.GivenUp.regular {e e' : Engine} (h : GivenUp e e') {d : Driver slots size}
    (hpos : 0 < d.capacity) (hle : d.capacity ≤ transferLimit) :
    Regular d { phase := .halted } e' :=
  .idle (.ignorant hpos hle _) h.idle h.flight_eq h.unfinished_eq (h.recent_eq _) (h.recent_eq _)

end DmaController

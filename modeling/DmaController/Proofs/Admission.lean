import DmaController.Proofs.Dispatch
import DmaController.Proofs.Framing
import Mathlib.Algebra.GroupWithZero.Nat

/-!
The start of a driver in full. It reads what the device says about itself, and the first thing that
is not as it should be turns the start down. Main statement: the answer of every start, for every
content of the registers, every configuration and every pool, and what it has written: nothing if it
is turned down, and otherwise one bit of the flags and one bit of the control register.
-/
namespace DmaController

open Sim

/-- Registers that a start reads. -/
def Register.IsProbed (offset : Offset) : Prop :=
  offset = identification ∨ offset = version ∨ offset = peripheralId ∨ offset = interface ∨
    offset = flags ∨ offset = control

instance : DecidablePred Register.IsProbed := fun _ => inferInstanceAs (Decidable (_ ∨ _))

/-- A device that shows what these registers hold, and is not changed by being read there. -/
class Legible (σ : Type) [RegisterBus σ] where
  held : σ → Offset → Word
  read_eq {offset : Offset} (h : Register.IsProbed offset) (device : σ) :
    RegisterBus.read offset device = (held device offset, device)
  held_note (action : Action) (device : σ) : held (RegisterBus.note action device) = held device
  held_write {offset : Offset} (h : offset ≠ Register.flags) (value : Word) (device : σ) :
    held (RegisterBus.write Register.flags value device) offset = held device offset

instance : Legible RegisterFile where
  held := RegisterFile.get
  read_eq _ _ := rfl
  held_note _ _ := rfl
  held_write h value file := file.get_set_of_ne h value

instance : Legible Core where
  held core := core.registers.get
  read_eq h core := by
    rcases h with rfl | rfl | rfl | rfl | rfl | rfl <;> rfl
  held_note _ _ := rfl
  held_write h value core := core.registers.get_set_of_ne h value

/-- The directions that the registers declare. Below version 4.4 they declare none, and the core is
taken to offer both. -/
def offered (held : Offset → Word) : Directions :=
  if (held Register.version).toNat < 0x00040400 then { inbound := true, outbound := true }
  else
    { inbound := (held Register.interface).extractLsb' 4 2 == 0
      outbound := (held Register.interface).extractLsb' 12 2 == 0 }

/-- The first thing that stands in the way of a start. -/
def objection? (config : Config) (size : Nat) (held : Offset → Word) : Option StartError :=
  if held Register.identification ≠ 0x444D4143 then some .notIdentified
  else if config.requireInbound && !(offered held).inbound then some .inboundUnsupported
  else if config.requireOutbound && !(offered held).outbound then some .outboundUnsupported
  else if min (min config.maxTransfer size) 0xF00 = 0 then some .invalidConfig
  else none

section Decoders

variable (raw : Word)

theorem Word.toNat_field (low count : Nat) {mask : Word} (hmask : mask.toNat = 2 ^ count - 1) :
    (raw >>> low &&& mask).toNat = raw.toNat / 2 ^ low % 2 ^ count := by
  rw [BitVec.toNat_and, BitVec.toNat_ushiftRight, Nat.shiftRight_eq_div_pow, hmask,
    Nat.and_two_pow_sub_one_eq_mod]

theorem Version.hasInterface_ofWord :
    (Version.ofWord raw).hasInterface = !decide (raw.toNat < 0x00040400) := by
  have hmajor : (Version.ofWord raw).major = raw.toNat / 65536 := by
    change (raw >>> 16).toNat = _
    rw [BitVec.toNat_ushiftRight, Nat.shiftRight_eq_div_pow]
  have hminor : (Version.ofWord raw).minor = raw.toNat / 256 % 256 := raw.toNat_field 8 8 rfl
  unfold hasInterface
  rw [hmajor, hminor, Bool.eq_iff_iff]
  simp only [Bool.or_eq_true, Bool.and_eq_true, decide_eq_true_eq, beq_iff_eq, Bool.not_eq_true',
    decide_eq_false_iff_not]
  omega

theorem BusKind.ofWord_beq_memoryMapped (low : Nat) :
    (BusKind.ofWord (raw >>> low &&& 3) == .memoryMapped) = (raw.extractLsb' low 2 == 0) := by
  have hfield : raw >>> low &&& 3 = 0 ↔ raw.extractLsb' low 2 = 0 := by
    rw [← BitVec.toNat_inj, ← BitVec.toNat_inj, raw.toNat_field low 2 rfl,
      BitVec.extractLsb'_toNat, Nat.shiftRight_eq_div_pow]
    exact Iff.rfl
  have hkind : BusKind.ofWord (raw >>> low &&& 3) = .memoryMapped ↔ raw >>> low &&& 3 = 0 := by
    unfold BusKind.ofWord
    split_ifs <;> simp_all
  rw [Bool.eq_iff_iff, beq_iff_eq, beq_iff_eq, hkind, hfield]

theorem Interface.directions_ofWord : (Interface.ofWord raw).directions =
    { inbound := raw.extractLsb' 4 2 == 0, outbound := raw.extractLsb' 12 2 == 0 } := by
  unfold Interface.directions
  rw [← BusKind.ofWord_beq_memoryMapped raw 4, ← BusKind.ofWord_beq_memoryMapped raw 12]
  rfl

end Decoders

variable {σ : Type} {slots size : Nat}

theorem Pool.slotAt_resize (pool : Pool slots size) (requested : Nat) (i : Fin slots) :
    (pool.resize requested).slotAt i = ⟨0, .free⟩ := by
  change (Vector.replicate slots ({} : Slot))[i.val] = _
  rw [Vector.getElem_replicate]

variable [RegisterBus σ] [Legible σ] {α : Type}

/-- From one port to the other nothing was written, and the registers hold what they held. -/
structure Probed (port port' : Port (World σ slots size)) : Prop extends Surveyed port port' where
  held_eq : Legible.held port'.world.device = Legible.held port.world.device

/-- Run at this port, the program ends with `Q`. -/
def Runs (program : BusM (World σ slots size) α) (Q : α → Port (World σ slots size) → Prop)
    (port : Port (World σ slots size)) : Prop := Q (program.run port).1 (program.run port).2

namespace Probed

variable {before port : Port (World σ slots size)} {Q : α → Port (World σ slots size) → Prop}

theorem refl (port : Port (World σ slots size)) : Probed port port := ⟨.refl port, rfl⟩

/-- A register that is looked at shows what it held at first. -/
theorem read (h : Probed before port) {offset : Offset} (hprobed : Register.IsProbed offset)
    {next : Word → BusM (World σ slots size) α}
    (hnext : ∀ port', Probed before port' →
      Runs (next (Legible.held before.world.device offset)) Q port') :
    Runs (BusM.read offset >>= next) Q port := by
  have hread := Legible.read_eq hprobed port.world.device
  have hvalue : ((BusM.read offset).run port).1 = Legible.held before.world.device offset := by
    rw [← h.held_eq]
    exact congrArg Prod.fst hread
  have hheld : Legible.held ((BusM.read offset).run port).2.world.device =
      Legible.held port.world.device := congrArg (fun read => Legible.held read.2) hread
  have hafter : Probed before ((BusM.read offset).run port).2 :=
    ⟨h.toSurveyed.trans (.read offset port), hheld.trans h.held_eq⟩
  have hrest := hnext _ hafter
  rw [← hvalue] at hrest
  exact hrest

theorem log (h : Probed before port) (entry : LogEntry) {next : Unit → BusM (World σ slots size) α}
    (hnext : ∀ port', Probed before port' → Runs (next ()) Q port') :
    Runs (BusM.log entry >>= next) Q port :=
  hnext _
    { toSurveyed := h.toSurveyed.trans (.record rfl rfl port)
      held_eq := (Legible.held_note (.log entry) port.world.device).trans h.held_eq }

/-- What a device says about its directions is what its registers declare. -/
theorem findDirections (h : Probed before port) {next : Directions → BusM (World σ slots size) α}
    (hnext : ∀ port', Probed before port' →
      Runs (next (offered (Legible.held before.world.device))) Q port') :
    Runs (Driver.findDirections (.ofWord (Legible.held before.world.device Register.version)) >>=
      next) Q port := by
  unfold Driver.findDirections
  rw [Version.hasInterface_ofWord]
  unfold offered at hnext
  by_cases hold : (Legible.held before.world.device Register.version).toNat < 0x00040400
  · rw [if_pos hold] at hnext
    rw [decide_eq_true hold, Bool.not_true, if_neg Bool.false_ne_true, bind_assoc]
    refine h.log _ fun port' h' => ?_
    rw [pure_bind]
    exact hnext port' h'
  · rw [if_neg hold, ← Interface.directions_ofWord] at hnext
    rw [decide_eq_false hold, Bool.not_false, if_pos rfl, bind_assoc]
    refine h.read (by decide) fun port' h' => ?_
    rw [bind_assoc]
    refine h'.log _ fun port'' h'' => ?_
    rw [pure_bind]
    exact hnext port'' h''

theorem sizePool (h : Probed before port) {config : Config} {pool : Pool slots size}
    {next : Pool slots size → BusM (World σ slots size) α}
    (hnext : ∀ port', Probed before port' → Runs (next (pool.resize config.maxTransfer)) Q port') :
    Runs (Driver.sizePool config pool >>= next) Q port := by
  unfold Driver.sizePool
  cases Pool.resizeWarning size config.maxTransfer with
  | none => exact hnext port h
  | some warning =>
    change Runs ((BusM.log warning >>= fun _ => pure (pool.resize config.maxTransfer)) >>= next) Q
      port
    rw [bind_assoc]
    refine h.log warning fun port' h' => ?_
    rw [pure_bind]
    exact hnext port' h'

end Probed

/-- Nothing was done, and the pool is handed back; it has come to no harm unless it is the pool that
did not fit. -/
structure TurnedDown (pool : Pool slots size) (cause : StartError)
    (before : Port (World σ slots size)) (answer : Except (Refusal slots size) (Driver slots size))
    (after : Port (World σ slots size)) : Prop extends Probed before after where
  answer_eq : ∃ pool', answer = .error ⟨cause, pool'⟩ ∧ (cause ≠ .invalidConfig → pool' = pool)

/-- A driver was started. Of the flags the lowest bit was cleared, and of the control register it
was set. -/
structure Admitted (config : Config) (before : Port (World σ slots size))
    (answer : Except (Refusal slots size) (Driver slots size)) (after : Port (World σ slots size)) :
    Prop where
  answer_eq : ∃ driver, answer = .ok driver ∧
    driver.directions = offered (Legible.held before.world.device) ∧
    driver.capacity = min (min config.maxTransfer size) 0xF00 ∧
    ∀ i : Fin slots, driver.pool.slotAt i = ⟨0, .free⟩
  memory_eq : after.world.memory = before.world.memory
  writes_eq : ∃ flags control : Word, after.journal.writes = before.journal.writes ++
      [(Register.flags, flags), (Register.control, control)] ∧
    (∀ i < 32, flags.getLsbD i =
      (decide (i ≠ 0) && (Legible.held before.world.device Register.flags).getLsbD i)) ∧
    ∀ i < 32, control.getLsbD i =
      (decide (i = 0) || (Legible.held before.world.device Register.control).getLsbD i)

/-- The decision on a start. -/
def Decided (config : Config) (pool : Pool slots size) (before : Port (World σ slots size))
    (answer : Except (Refusal slots size) (Driver slots size)) (after : Port (World σ slots size)) :
    Prop :=
  match objection? config size (Legible.held before.world.device) with
  | some cause => TurnedDown pool cause before answer after
  | none => Admitted config before answer after

section Decided

variable {config : Config} {pool pool' : Pool slots size} {before port : Port (World σ slots size)}
variable {cause : StartError}

/-- A start that is turned down. -/
theorem Probed.refuse (h : Probed before port)
    (hcause : objection? config size (Legible.held before.world.device) = some cause)
    (hpool : cause ≠ .invalidConfig → pool' = pool) :
    Runs (pure (.error ⟨cause, pool'⟩)) (Decided config pool before) port := by
  unfold Runs Decided
  rw [hcause]
  exact ⟨h, pool', rfl, hpool⟩

/-- A register is read and written back. -/
theorem Legible.update {offset : Offset} (hprobed : Register.IsProbed offset) (f : Word → Word)
    (port : Port (World σ slots size)) :
    let after := ((do BusM.write offset (f (← BusM.read offset))) :
      BusM (World σ slots size) Unit).run port |>.2
    after.world.device =
        RegisterBus.write offset (f (held port.world.device offset)) port.world.device ∧
      after.world.memory = port.world.memory ∧
      after.journal.writes =
        port.journal.writes ++ [(offset, f (held port.world.device offset))] := by
  have hread := Legible.read_eq hprobed port.world.device
  refine ⟨?_, rfl, ?_⟩
  · change RegisterBus.write offset (f (RegisterBus.read offset port.world.device).1)
      (RegisterBus.read offset port.world.device).2 = _
    rw [hread]
  · change Journal.writes ((port.journal.push (.read offset
      (RegisterBus.read offset port.world.device).1)).push (.write offset
        (f (RegisterBus.read offset port.world.device).1))) = _
    rw [hread]
    simp only [Journal.writes, Array.toList_push, List.append_assoc, List.filterMap_append]
    rfl

/-- A start that is not turned down. -/
theorem Probed.grant (h : Probed before port) {driver : Driver slots size}
    (hnone : objection? config size (Legible.held before.world.device) = none)
    (hdirections : driver.directions = offered (Legible.held before.world.device))
    (hcapacity : driver.capacity = min (min config.maxTransfer size) 0xF00)
    (hslots : ∀ i : Fin slots, driver.pool.slotAt i = ⟨0, .free⟩) :
    Runs (do
      RegisterBlock.clearBits Register.flags cyclicFlag
      RegisterBlock.enable
      return .ok driver) (Decided config pool before) port := by
  have hcyclic : cyclicFlag = BitVec.twoPow 32 0 := rfl
  have henable : Control.enable = BitVec.twoPow 32 0 := rfl
  let cleared := ((RegisterBlock.clearBits Register.flags cyclicFlag).run port).2
  obtain ⟨hdevice, hmemory, hwrites⟩ :=
    Legible.update (.inr (.inr (.inr (.inr (.inl rfl))))) (· &&& ~~~ cyclicFlag) port
  obtain ⟨-, hmemory', hwrites'⟩ :=
    Legible.update (.inr (.inr (.inr (.inr (.inr rfl))))) (· ||| Control.enable) cleared
  change cleared.journal.writes = _ at hwrites
  have hcontrol : Legible.held cleared.world.device Register.control =
      Legible.held before.world.device Register.control := by
    rw [← h.held_eq]
    exact (congrArg (Legible.held · Register.control) hdevice).trans
      (Legible.held_write (by decide) _ _)
  unfold Runs Decided
  rw [hnone]
  change Admitted config before _ _
  refine ⟨⟨driver, rfl, hdirections, hcapacity, hslots⟩,
    hmemory'.trans (hmemory.trans h.memory_eq),
    Legible.held before.world.device Register.flags &&& ~~~ cyclicFlag,
    Legible.held before.world.device Register.control ||| Control.enable, ?_, ?_, ?_⟩
  · rw [hcontrol, hwrites, h.held_eq, h.writes_eq, List.append_assoc] at hwrites'
    exact hwrites'
  · intro i hi
    simp [hcyclic, hi, Bool.and_comm]
  · intro i hi
    simp [henable, hi, Bool.or_comm]

/-- Every start ends as its registers, its configuration and its buffers decide. -/
theorem Driver.start_exact (config : Config) (pool : Pool slots size)
    (port : Port (World σ slots size)) :
    Runs (Driver.start config pool) (Decided config pool port) port := by
  -- Each check that is passed takes one branch of `objection?` away.
  unfold Driver.start
  refine (Probed.refl port).read (by decide) fun port₁ h₁ => ?_
  split_ifs with hword
  · exact h₁.log _ fun port' h' => h'.refuse (if_pos hword) fun _ => rfl
  refine h₁.read (by decide) fun port₂ h₂ => h₂.read (by decide) fun port₃ h₃ =>
    h₃.log _ fun port₄ h₄ => h₄.findDirections fun port₅ h₅ => ?_
  split_ifs with hinbound houtbound
  · exact h₅.log _ fun port' h' => h'.refuse
      ((if_neg hword).trans (if_pos hinbound)) fun _ => rfl
  · exact h₅.log _ fun port' h' => h'.refuse
      ((if_neg hword).trans ((if_neg hinbound).trans (if_pos houtbound))) fun _ => rfl
  refine h₅.sizePool fun port₆ h₆ => ?_
  split_ifs with hcapacity
  · exact h₆.log _ fun port' h' => h'.refuse ((if_neg hword).trans
      ((if_neg hinbound).trans ((if_neg houtbound).trans (if_pos hcapacity)))) (absurd rfl)
  exact h₆.grant ((if_neg hword).trans ((if_neg hinbound).trans
    ((if_neg houtbound).trans (if_neg hcapacity)))) rfl rfl (pool.slotAt_resize _)

end Decided

/-- A core is started that is paused and in cyclic mode. -/
theorem Driver.start_exact_paused :
    let core := (Core.fresh.setRegister Register.flags 7).setRegister Register.control 2
    let port : Port (World Core 2 16) := ⟨⟨core, .zero⟩, #[]⟩
    let ran := (Driver.start .inbound (.fresh 2 16 0)).run port
    Admitted .inbound port ran.1 ran.2 ∧
      ran.2.journal.writes = [(Register.flags, 6), (Register.control, 3)] := by
  intro core port ran
  have hnone : objection? .inbound 16 (Legible.held core) = none := by decide +kernel
  have hdecided : Decided .inbound (.fresh 2 16 0) port ran.1 ran.2 :=
    Driver.start_exact .inbound (.fresh 2 16 0) port
  unfold Decided at hdecided
  rw [hnone] at hdecided
  exact ⟨hdecided, by decide +kernel⟩

end DmaController

import DmaController.Proofs.Conduct
import DmaController.Proofs.Halt
import DmaController.Proofs.Ledger
import DmaController.Proofs.Ownership

/-!
What the hardware does when all slots are taken back at once. A restart and a dropped driver disable
the core first, and that gives up everything, but only if the core was enabled. What was submitted
on a disabled core outlives its slot, and so does what a driver finds queued when it is started.
Main statement: a restart and a dropped driver leave a quiet core if it was enabled or was quiet
before, a start leaves one if it was quiet before, and on hardware that does nothing by itself only
then. No core comes to anything else as long as nothing is submitted while it is disabled.
-/
namespace DmaController

open Relation Sim

namespace Sim

/-- Nothing is outstanding and nothing is pending, so no slot is addressed. -/
structure Engine.IsQuiet (engine : Engine) : Prop where
  pending_eq : engine.submitPending = false
  outstanding_eq : engine.outstanding = []

theorem Engine.IsIdle.isQuiet {engine : Engine} (h : engine.IsIdle) : engine.IsQuiet :=
  ⟨h.pending_eq, h.outstanding_eq⟩

namespace Engine

variable {engine e e' : Engine} {offset : Offset} {value : Word}

theorem isQuiet_congr (hpending : e'.submitPending = e.submitPending)
    (houtstanding : e'.outstanding = e.outstanding) : e'.IsQuiet ↔ e.IsQuiet := by
  refine ⟨fun h => ⟨?_, ?_⟩, fun h => ⟨?_, ?_⟩⟩
  · exact hpending.symm.trans h.pending_eq
  · exact houtstanding.symm.trans h.outstanding_eq
  · exact hpending.trans h.pending_eq
  · exact houtstanding.trans h.outstanding_eq

theorem IsQuiet.turn (h : e.IsQuiet) (hturn : Turn e e') : e'.IsQuiet := by
  cases hturn with
  | takeOver hpending => cases h.pending_eq.symm.trans hpending
  | complete id hid =>
    rw [h.outstanding_eq] at hid
    exact absurd hid List.not_mem_nil

/-- Only a write of the submit register makes work, and only disabling an enabled core ends it. -/
theorem isQuiet_write (hoffset : offset ≠ Register.submit) :
    (engine.write offset value).IsQuiet ↔
      (offset = Register.control ∧ engine.isEnabled = true ∧
        value.hasAny Control.enable = false) ∨ engine.IsQuiet := by
  by_cases hcontrol : offset = Register.control
  · subst hcontrol
    by_cases hclears : engine.isEnabled = true ∧ value.hasAny Control.enable = false
    · rw [engine.write_control_abort hclears.1 hclears.2]
      exact ⟨fun _ => .inl ⟨rfl, hclears⟩, fun _ => ⟨rfl, rfl⟩⟩
    · rw [engine.write_control fun henabled => by simpa [henabled] using hclears]
      exact Iff.trans (b := engine.IsQuiet) (isQuiet_congr rfl rfl) (by simp [hclears])
  · have hquiet : (engine.write offset value).IsQuiet ↔ engine.IsQuiet := by
      unfold Engine.write
      dsimp only
      rw [if_neg hoffset]
      split_ifs <;> exact isQuiet_congr rfl rfl
    exact hquiet.trans (by simp [hcontrol])

theorem isQuiet_control (h : engine.isEnabled = true → value.hasAny Control.enable = true) :
    (engine.write Register.control value).IsQuiet ↔ engine.IsQuiet := by
  rw [isQuiet_write (by decide)]
  refine or_iff_right ?_
  rintro ⟨-, henabled, hcleared⟩
  cases hcleared.symm.trans (h henabled)

/-- Clearing the enable bit makes an enabled core quiet, and nothing else does. -/
theorem isQuiet_disable (value : Word) :
    (engine.write Register.control (value &&& ~~~ Control.enable)).IsQuiet ↔
      engine.isEnabled = true ∨ engine.IsQuiet := by
  have hcleared : (value &&& ~~~ Control.enable).hasAny Control.enable = false := by
    simp [Word.hasAny, BitVec.and_assoc]
  rw [isQuiet_write (by decide)]
  simp [hcleared]

end Engine

/-- The hardware does nothing by itself at any occasion. -/
def Bench.IsStill (bench : Bench) : Prop := ∀ occasion time, bench.script occasion time = []

section Still

variable {slots size : Nat} {world : World Bench slots size} {offset : Offset}

theorem occur_still (h : world.device.IsStill) (occasion : Occasion) :
    (occur occasion world).device.IsStill ∧
      (occur occasion world).device.core = world.device.core := by
  have hscript : (world.device.meet occasion).script occasion
      ((world.device.meet occasion).timesMet occasion) = [] := h occasion _
  unfold occur
  dsimp only
  rw [hscript]
  exact ⟨h, rfl⟩

theorem read_still (h : world.device.IsStill) (hoffset : offset ≠ Register.submit) :
    (RegisterBus.read offset world).1 = world.device.core.peek offset ∧
      (RegisterBus.read offset world).2.device.IsStill ∧
      (RegisterBus.read offset world).2.device.core = world.device.core := by
  obtain ⟨hstill, hcore⟩ := occur_still h (.read offset)
  have hread : (occur (.read offset) world).device.core.read offset =
      (world.device.core.peek offset, world.device.core) := by
    unfold Core.read
    rw [if_neg hoffset, hcore]
  exact ⟨congrArg Prod.fst hread, hstill, congrArg Prod.snd hread⟩

theorem write_still (h : world.device.IsStill) (hoffset : offset ≠ Register.submit) (value : Word) :
    (RegisterBus.write offset value world).device.IsStill ∧
      (RegisterBus.write offset value world).device.core.toEngine =
        world.device.core.toEngine.write offset value := by
  obtain ⟨hstill, hcore⟩ := occur_still h (.write offset)
  refine ⟨hstill, ?_⟩
  change ((occur (.write offset) world).device.core.write offset value).toEngine = _
  unfold Core.write
  rw [if_neg fun h => hoffset h.1, hcore]

end Still
end Sim

/-- Actions that neither queue a transfer nor disable the core, nor ask for a pending submission,
which may be accepted then. -/
def Action.Spares : Action → Prop
  | .read offset _ => offset ≠ Register.submit
  | .write offset value => offset ≠ Register.submit ∧
    (offset = Register.control → value.hasAny Control.enable = true)
  | _ => True

section StillPath

variable {slots size : Nat} [HasSlots slots] {s s' : Scene Bench slots size}

theorem Step.still (h : Step (fun world world' => world' = world) s s') : ∃ actions,
    s'.port.journal.toList = s.port.journal.toList ++ actions ∧
      ((∀ action ∈ actions, action.Spares) → s.port.world.device.IsStill →
        s'.port.world.device.IsStill ∧
          (s'.port.world.device.core.IsQuiet ↔ s.port.world.device.core.IsQuiet)) := by
  obtain ⟨driver, known, world, journal⟩ := s
  obtain ⟨driver', known', world', journal'⟩ := s'
  obtain ⟨deed, -, hserves, -⟩ := h
  cases deed with
  | act action =>
    cases action with
    | read offset value =>
      obtain ⟨rfl, rfl⟩ := Port.mk.inj hserves.2
      refine ⟨_, Array.toList_push .., fun hspares hstill => ?_⟩
      obtain ⟨-, hstill', hcore⟩ := read_still hstill (hspares _ (List.mem_singleton_self _))
      exact ⟨hstill', iff_of_eq (congrArg (fun core : Core => core.IsQuiet) hcore)⟩
    | write offset value =>
      obtain ⟨rfl, rfl⟩ := Port.mk.inj hserves
      refine ⟨_, Array.toList_push .., fun hspares hstill => ?_⟩
      obtain ⟨hoffset, hcontrol⟩ := hspares _ (List.mem_singleton_self _)
      obtain ⟨hstill', hengine⟩ := write_still hstill hoffset value
      refine ⟨hstill', (iff_of_eq (congrArg Engine.IsQuiet hengine)).trans ?_⟩
      refine (Engine.isQuiet_write hoffset).trans (or_iff_right ?_)
      rintro ⟨heq, -, hcleared⟩
      cases hcleared.symm.trans (hcontrol heq)
    | _ =>
      obtain ⟨rfl, rfl⟩ := Port.mk.inj hserves
      exact ⟨_, Array.toList_push .., fun _ hstill => ⟨hstill, Engine.isQuiet_congr rfl rfl⟩⟩
  | stored | inward =>
    obtain ⟨rfl, rfl⟩ := Port.mk.inj hserves
    exact ⟨[], (List.append_nil _).symm, fun _ hstill => ⟨hstill, Iff.rfl⟩⟩
  | meanwhile =>
    obtain ⟨hworld, hjournal⟩ := hserves
    obtain rfl : world' = world := hworld
    obtain rfl : journal' = journal := hjournal
    exact ⟨[], (List.append_nil _).symm, fun _ hstill => ⟨hstill, Iff.rfl⟩⟩

/-- On still hardware all comes from the driver. -/
theorem Path.still (h : Path (fun world world' => world' = world) s s') : ∃ actions,
    s'.port.journal.toList = s.port.journal.toList ++ actions ∧
      ((∀ action ∈ actions, action.Spares) → s.port.world.device.IsStill →
        s'.port.world.device.IsStill ∧
          (s'.port.world.device.core.IsQuiet ↔ s.port.world.device.core.IsQuiet)) := by
  refine h.along (fun _ hstill => ⟨hstill, Iff.rfl⟩) ?_ fun _ hstep => hstep.still
  intro s₁ s₂ s₃ h₁₂ h₂₃ hstill
  obtain ⟨hstill₂, hquiet₂⟩ := h₁₂ hstill
  obtain ⟨hstill₃, hquiet₃⟩ := h₂₃ hstill₂
  exact ⟨hstill₃, hquiet₃.trans hquiet₂⟩

end StillPath

section Path

variable {slots size : Nat} [HasSlots slots] {s s' : Scene Engine slots size}

theorem Path.quiet (h : Path Lapse s s') : ∃ actions,
    s'.port.journal.toList = s.port.journal.toList ++ actions ∧
      ((∀ action ∈ actions, action.isQueue = false) → s.engine.IsQuiet → s'.engine.IsQuiet) := by
  refine h.along (R := fun s s' => s.engine.IsQuiet → s'.engine.IsQuiet) (fun _ => id)
    (fun h h' hquiet => h' (h hquiet)) ?_
  intro s₁ s₂ _ hstep
  obtain ⟨actions, hjournal, hentry⟩ := hstep.entry
  refine ⟨actions, hjournal, fun hqueue hquiet => ?_⟩
  rcases hentry with ⟨-, hturn | heq⟩ | ⟨action, rfl, -, heq⟩
  · exact hquiet.turn hturn
  · rwa [heq]
  · rw [heq]
    cases action with
    | write offset value =>
      have hoffset : (offset == Register.submit) = false := hqueue _ (List.mem_singleton_self _)
      exact (Engine.isQuiet_write (by simpa using hoffset)).2 (.inr hquiet)
    | _ => exact ⟨hquiet.pending_eq, hquiet.outstanding_eq⟩

end Path

namespace Leads

variable {slots size : Nat} [HasSlots slots] {s : Scene Bench slots size} {α : Type}
variable {program : DriverM Bench slots size α} {Q : α → Scene Bench slots size → Prop}
variable (h : Leads Drifts program Q s) (hlawful : s.port.world.device.script.IsLawful)
include h hlawful

theorem lawful : (program.outcome s.driver s.port).2.world.device.script.IsLawful := by
  obtain ⟨known, hpath, -⟩ := h
  exact (hpath.bare hlawful).1

/-- A program that queues nothing keeps a quiet core quiet. -/
theorem quiet (hdoes : Does (fun action => action.isQueue = false) program)
    (hquiet : s.port.world.device.core.IsQuiet) :
    (program.outcome s.driver s.port).2.world.device.core.IsQuiet := by
  obtain ⟨known, hpath, -⟩ := h
  exact hdoes.elim s.driver (hpath.bare hlawful).2.quiet hquiet

variable (hdoes : Does (fun action => ∀ value, action = .write Register.control value →
  value.hasAny Control.enable = true) program)
include hdoes

/-- A program that never clears the enable bit leaves its trace in the history. -/
theorem chronicled : ∃ actions events, Chronicle s.port.world.device.core.toEngine
    (program.outcome s.driver s.port).2.world.device.core.toEngine actions events ∧
    ∀ value, .write Register.control value ∈ actions → value.hasAny Control.enable = true := by
  obtain ⟨known, hpath, -⟩ := h
  obtain ⟨actions, hjournal, hactions⟩ := hdoes s.driver s.port
  obtain ⟨actions', events, hjournal', hchronicle⟩ := (hpath.bare hlawful).2.chronicle
  obtain rfl : actions' = actions := List.append_cancel_left (hjournal'.symm.trans hjournal)
  exact ⟨actions', events, hchronicle, fun value hmem => hactions _ hmem value rfl⟩

theorem enabled (henabled : s.port.world.device.core.isEnabled = true) :
    (program.outcome s.driver s.port).2.world.device.core.isEnabled = true := by
  obtain ⟨actions, events, hchronicle, hwrites⟩ := h.chronicled hlawful hdoes
  exact ((hchronicle.enabled hwrites).2 henabled).1

theorem spared : ∃ events, (program.outcome s.driver s.port).2.world.device.core.history =
    events ++ s.port.world.device.core.history ∧ .aborted ∉ events := by
  obtain ⟨actions, events, hchronicle, hwrites⟩ := h.chronicled hlawful hdoes
  exact ⟨events, hchronicle.history_eq, (hchronicle.enabled hwrites).1⟩

end Leads

namespace Driver

section Plain

variable {slots size : Nat} {σ : Type} [HasSlots slots] [RegisterBus (World σ slots size)]

/-- All that a stream does once its core has been restarted. -/
def fillStream (granted : Nat) : DriverM σ slots size (Except TransferError Nat) := do
  modify fun driver => { driver with stream := some granted }
  enableIrq
  let queued ← refill granted
  log (.streamStarted queued granted)
  return .ok queued

theorem startStream_eq (bytes : Nat) : (startStream bytes : DriverM σ slots size _) = (do
    unless (← get).directions.inbound do return .error .notSupported
    let some granted := (← get).requestSize? bytes | return .error .bufferExceeded
    restart
    fillStream granted) := rfl

end Plain

variable {slots size : Nat} [HasSlots slots]
variable (driver : Driver slots size) {port : Port (World Bench slots size)}

section Lawful

variable (hlawful : port.world.device.script.IsLawful)
include hlawful

omit driver in
/-- A start queues nothing, and it gives nothing up. -/
theorem start_spares {config : Config} {pool : Pool slots size} {driver : Driver slots size}
    {port' : Port (World Bench slots size)} (h : (start config pool).run port = (.ok driver, port')) :
    (port.world.device.core.IsQuiet → port'.world.device.core.IsQuiet) ∧ ∃ events,
      port'.world.device.core.history = events ++ port.world.device.core.history ∧
      .aborted ∉ events := by
  let s : Scene Bench slots size := ⟨driver, {}, port⟩
  have hleads : Leads Drifts (onBus (start config pool)) _ s := start_leads config pool rfl
  have hport : ((onBus (start config pool)).outcome s.driver s.port).2 = port' := by
    rw [outcome_onBus, h]
  rw [← hport]
  refine ⟨hleads.quiet hlawful (start_does (fun _ _ _ => rfl) (fun _ => rfl) (fun _ => rfl)
    (fun _ => rfl) config pool), hleads.spared hlawful (start_does ?_ ?_ ?_ ?_ config pool)⟩
  · intro offset value _ other heq
    cases heq
  · intro entry other heq
    cases heq
  · intro value other heq
    exact absurd (Action.write.inj heq).1 (by decide)
  · intro value other heq
    rw [← (Action.write.inj heq).2]
    exact Word.hasAny_or_right (by decide)

/-- A core that is enabled or quiet is quiet once it has been disabled. -/
theorem disable_quiet
    (hcore : port.world.device.core.isEnabled = true ∨ port.world.device.core.IsQuiet) :
    (disable.outcome driver port).2.world.device.script.IsLawful ∧
      (disable.outcome driver port).2.world.device.core.IsQuiet := by
  let s : Scene Bench slots size := ⟨driver, {}, port⟩
  have hleads : Leads Drifts disable _ s := disable_leads rfl
  refine ⟨hleads.lawful hlawful, ?_⟩
  rcases hcore with henabled | hquiet
  · exact (disable_gives_up driver hlawful henabled).2.idle.isQuiet
  · exact hleads.quiet hlawful (.update (fun _ => rfl) fun _ => rfl) hquiet

theorem restart_quiet
    (hcore : port.world.device.core.isEnabled = true ∨ port.world.device.core.IsQuiet) :
    (restart.outcome driver port).2.world.device.core.IsQuiet := by
  obtain ⟨hlawful₁, hquiet₁⟩ := driver.disable_quiet hlawful hcore
  let s : Scene Bench slots size := ⟨driver, {}, (disable.outcome driver port).2⟩
  have hleads : Leads Drifts enable _ s := enable_leads rfl
  have hquiet₂ := hleads.quiet hlawful₁ (.update (fun _ => rfl) fun _ => rfl) hquiet₁
  have hsame : (restart.outcome driver port).2.world.device.core.IsQuiet ↔
      (enable.outcome s.driver s.port).2.world.device.core.IsQuiet := Engine.isQuiet_congr rfl rfl
  exact hsame.2 hquiet₂

theorem close_quiet
    (hcore : port.world.device.core.isEnabled = true ∨ port.world.device.core.IsQuiet) :
    (close.outcome driver port).2.world.device.core.IsQuiet := by
  let s : Scene Bench slots size := ⟨driver, {}, port⟩
  have hleads : Leads Drifts disableIrq _ s := disableIrq_leads rfl
  refine (driver.disable_quiet (hleads.lawful hlawful) ?_).2
  rcases hcore with henabled | hquiet
  · refine .inl (hleads.enabled hlawful (.write fun value heq => ?_) henabled)
    exact absurd (Action.write.inj heq).1 (by decide)
  · exact .inr (hleads.quiet hlawful (.write rfl) hquiet)

end Lawful

section Still

variable (hstill : port.world.device.IsStill)
include hstill

omit driver in
/-- On still hardware a start changes nothing about what is addressed. -/
theorem start_still {config : Config} {pool : Pool slots size} {driver : Driver slots size}
    {port' : Port (World Bench slots size)} (h : (start config pool).run port = (.ok driver, port')) :
    port'.world.device.core.IsQuiet ↔ port.world.device.core.IsQuiet := by
  let s : Scene Bench slots size := ⟨driver, {}, port⟩
  obtain ⟨known, hpath, -⟩ : Leads (fun world world' => world' = world)
      (onBus (start config pool)) _ s := start_leads config pool rfl
  have hspares : Does Action.Spares
      (onBus (start config pool) : DriverM Bench slots size _) := by
    refine start_does (fun _ _ => id) (fun _ => trivial) (fun _ => ?_) (fun _ => ?_) config pool
    · exact ⟨by decide, fun h => absurd h (by decide)⟩
    · exact ⟨by decide, fun _ => Word.hasAny_or_right (by decide)⟩
  have hquiet := (hspares.elim driver hpath.still hstill).2
  rw [outcome_onBus, h] at hquiet
  exact hquiet

omit [HasSlots slots] in
/-- On still hardware a register that is read and written back is all that changes. -/
theorem update_still {offset : Offset} (hoffset : offset ≠ Register.submit) (f : Word → Word) :
    let after := ((onBus (do BusM.write offset (f (← BusM.read offset)))).outcome driver
      port).2.world.device
    after.IsStill ∧ after.core.toEngine = port.world.device.core.toEngine.write offset
      (f (port.world.device.core.peek offset)) := by
  obtain ⟨hvalue, hstill₁, hcore₁⟩ := read_still hstill hoffset
  obtain ⟨hstill₂, hengine₂⟩ :=
    write_still hstill₁ hoffset (f (RegisterBus.read offset port.world).1)
  refine ⟨hstill₂, hengine₂.trans ?_⟩
  rw [hvalue, hcore₁]

omit [HasSlots slots] in
theorem disable_still :
    (disable.outcome driver port).2.world.device.IsStill ∧
      ((disable.outcome driver port).2.world.device.core.IsQuiet ↔
        port.world.device.core.isEnabled = true ∨ port.world.device.core.IsQuiet) := by
  obtain ⟨hstill', hengine⟩ := driver.update_still hstill
    (show Register.control ≠ Register.submit by decide) fun value => value &&& ~~~ Control.enable
  refine ⟨hstill', ?_⟩
  refine (iff_of_eq (congrArg Engine.IsQuiet hengine)).trans ?_
  exact Engine.isQuiet_disable _

omit [HasSlots slots] in
/-- On still hardware a restart leaves a quiet core only if the core was enabled or quiet. -/
theorem restart_still : (restart.outcome driver port).2.world.device.core.IsQuiet ↔
    port.world.device.core.isEnabled = true ∨ port.world.device.core.IsQuiet := by
  obtain ⟨hstill₁, hquiet₁⟩ := driver.disable_still hstill
  obtain ⟨-, hengine⟩ := driver.update_still hstill₁
    (show Register.control ≠ Register.submit by decide) fun value => value ||| Control.enable
  have hsame : (restart.outcome driver port).2.world.device.core.IsQuiet ↔
      (enable.outcome driver (disable.outcome driver port).2).2.world.device.core.IsQuiet :=
    Engine.isQuiet_congr rfl rfl
  calc (restart.outcome driver port).2.world.device.core.IsQuiet
    _ ↔ (enable.outcome driver (disable.outcome driver port).2).2.world.device.core.IsQuiet := hsame
    _ ↔ (disable.outcome driver port).2.world.device.core.IsQuiet :=
      (iff_of_eq (congrArg Engine.IsQuiet hengine)).trans
        (Engine.isQuiet_control fun _ => Word.hasAny_or_right (by decide))
    _ ↔ _ := hquiet₁

omit [HasSlots slots] in
theorem close_still : (close.outcome driver port).2.world.device.core.IsQuiet ↔
    port.world.device.core.isEnabled = true ∨ port.world.device.core.IsQuiet := by
  have hmask : Register.irqMask ≠ Register.submit := by decide
  obtain ⟨hstill₁, hengine⟩ := write_still hstill hmask Irq.all
  let masked : Port (World Bench slots size) := (disableIrq.outcome driver port).2
  have hmasked : masked.world.device.core.toEngine =
      port.world.device.core.toEngine.write Register.irqMask Irq.all := hengine
  have henabled : masked.world.device.core.isEnabled = port.world.device.core.isEnabled := by
    refine (congrArg Engine.isEnabled hmasked).trans ?_
    exact Engine.isEnabled_setRegister _ _ (by decide)
  have hquiet : masked.world.device.core.IsQuiet ↔ port.world.device.core.IsQuiet := by
    refine (iff_of_eq (congrArg Engine.IsQuiet hmasked)).trans ?_
    exact Engine.isQuiet_congr rfl rfl
  calc (close.outcome driver port).2.world.device.core.IsQuiet
    _ ↔ masked.world.device.core.isEnabled = true ∨ masked.world.device.core.IsQuiet :=
      (driver.disable_still hstill₁).2
    _ ↔ _ := by rw [henabled, hquiet]

end Still

end Driver

namespace Rig

variable {slots size : Nat} [HasSlots slots]

/-- Whichever call takes all slots back or gives the pool up, it leaves a quiet core right behind. A
stream is refilled after that. -/
structure YieldsQuiet (rig : Rig slots size) : Prop where
  restart : (rig.run Driver.restart).core.IsQuiet
  reset : (Call.reset.perform rig).core.IsQuiet
  stream : ∀ bytes, rig.driver.acceptsStream bytes = true → ∃ granted,
    (Call.startStream bytes).perform rig = (rig.run Driver.restart).run (Driver.fillStream granted)
  close : (rig.run Driver.close).core.IsQuiet

variable (rig : Rig slots size)

omit [HasSlots slots] in
theorem run_congr {α : Type} {program program' : DriverM Bench slots size α}
    (h : program.outcome rig.driver rig.port = program'.outcome rig.driver rig.port) :
    rig.run program = rig.run program' := by
  unfold run
  rw [h]

omit [HasSlots slots] in
theorem run_seq {α : Type} (program : DriverM Bench slots size Unit)
    (next : DriverM Bench slots size α) :
    rig.run (do program; next) = (rig.run program).run next := rfl

theorem startStream_restarts {bytes : Nat} (h : rig.driver.acceptsStream bytes = true) :
    ∃ granted, (Call.startStream bytes).perform rig =
      (rig.run Driver.restart).run (Driver.fillStream granted) := by
  obtain ⟨hinbound, hgranted⟩ := Bool.and_eq_true_iff.1 h
  obtain ⟨granted, hgranted⟩ := Option.isSome_iff_exists.1 hgranted
  have houtcome : (Driver.startStream bytes).outcome rig.driver rig.port =
      (do Driver.restart; Driver.fillStream granted : DriverM Bench slots size _).outcome
        rig.driver rig.port := by
    rw [Driver.startStream_eq, DriverM.outcome_get, if_pos hinbound]
    rw [DriverM.outcome_get, hgranted]
  exact ⟨granted, (rig.run_congr houtcome).trans (rig.run_seq Driver.restart _)⟩

variable {rig}

theorem yieldsQuiet (hlawful : rig.port.world.device.script.IsLawful)
    (hcore : rig.core.isEnabled = true ∨ rig.core.IsQuiet) : rig.YieldsQuiet where
  restart := rig.driver.restart_quiet hlawful hcore
  reset := rig.driver.restart_quiet hlawful hcore
  stream _ := rig.startStream_restarts
  close := rig.driver.close_quiet hlawful hcore

end Rig

/-- Unless something was submitted while the core was halted, a driver finds its core enabled or
quiet. -/
theorem Session.enabled_or_quiet {slots size : Nat} [HasSlots slots] {rig : Rig slots size}
    {phase : Phase} (h : Session Engine.IsIdle phase rig) (hphase : phase ≠ .lost) :
    rig.core.isEnabled = true ∨ rig.core.IsQuiet := by
  obtain ⟨-, known, hends, hattained⟩ := h.attained
  have hknown : known.phase = phase := hends.phase_eq.resolve_left hphase
  have hcustody := hattained.inCustody fun _ => id
  cases phase with
  | running => exact .inl (hcustody.running hknown).enabled
  | halted => exact .inr (hcustody.halted hknown).1.isQuiet
  | lost => exact absurd rfl hphase

namespace Rig

variable {slots size : Nat} [HasSlots slots]

/-- When all slots are taken back from hardware that no longer addresses them, for every driver and
every state of its core. -/
theorem takeback_quiet (rig : Rig slots size) (hlawful : rig.port.world.device.script.IsLawful) :
    (rig.core.isEnabled = true ∨ rig.core.IsQuiet → rig.YieldsQuiet) ∧
    (∀ phase, Session Engine.IsIdle phase rig → phase ≠ .lost → rig.YieldsQuiet) ∧
    (∀ config pool driver port, (Driver.start config pool).run rig.port = (.ok driver, port) →
      (rig.core.IsQuiet → port.world.device.core.IsQuiet) ∧
      ∃ events, port.world.device.core.history = events ++ rig.core.history ∧ .aborted ∉ events) ∧
    (rig.port.world.device.IsStill →
      ((rig.run Driver.restart).core.IsQuiet ↔ rig.core.isEnabled = true ∨ rig.core.IsQuiet) ∧
      ((rig.run Driver.close).core.IsQuiet ↔ rig.core.isEnabled = true ∨ rig.core.IsQuiet) ∧
      ∀ config pool driver port, (Driver.start config pool).run rig.port = (.ok driver, port) →
        (port.world.device.core.IsQuiet ↔ rig.core.IsQuiet)) := by
  refine ⟨yieldsQuiet hlawful, ?session, ?start, ?still⟩
  case session =>
    intro phase h hphase
    exact yieldsQuiet hlawful (h.enabled_or_quiet hphase)
  case start =>
    intro config pool driver port h
    exact Driver.start_spares hlawful h
  case still =>
    intro hstill
    refine ⟨rig.driver.restart_still hstill, rig.driver.close_still hstill, ?_⟩
    intro config pool driver port h
    exact Driver.start_still hstill h

/-- One transfer is outstanding. -/
def sent : Rig 2 16 := (Call.send fun _ => (#[1, 2], 2)).perform small

/-- The driver that sent the transfer may take its slot back, and another driver that is started
right there may not. -/
theorem takeback_quiet_sent :
    let next := (Driver.start {} (Pool.fresh 2 16 0)).run sent.port
    sent.core.outstanding = [0] ∧ sent.YieldsQuiet ∧ (sent.run Driver.restart).core.IsQuiet ∧
      next.1 = .ok small.driver ∧ small.driver.inFlight = 0 ∧ ¬ next.2.world.device.core.IsQuiet := by
  intro next
  have hsent := (small_session.mono fun _ h => h.toIsIdle).call (.send fun _ => (#[1, 2], 2))
  have houtstanding : sent.core.outstanding = [0] := by decide +kernel
  have henabled : sent.core.isEnabled = true := by decide +kernel
  have hnext : next = (.ok small.driver, next.2) := rfl
  have hlawful : sent.port.world.device.script.IsLawful := Script.isLawful_none
  have hstill : sent.port.world.device.IsStill := fun _ _ => rfl
  obtain ⟨-, hyields, -, hexact⟩ := takeback_quiet sent hlawful
  obtain ⟨hrestart, -, hstart⟩ := hexact hstill
  refine ⟨houtstanding, hyields .running hsent (by decide), hrestart.2 (.inl henabled),
    congrArg Prod.fst hnext, rfl, fun hquiet => ?_⟩
  have hbefore := (hstart _ _ _ _ hnext).1 hquiet
  cases hbefore.outstanding_eq.symm.trans houtstanding

/-- A stream is collected after its core was disabled, and so a transfer is submitted that no reset
gives up. -/
def refilled : Rig 2 16 :=
  let streaming := (Call.startStream 0).perform (small.stimulate (.autoAccept false))
  let completed := (streaming.stimulate .accept).stimulate (.finish 0)
  Call.collect.perform (Call.disable.perform (Call.collect.perform completed))

theorem takeback_refilled :
    let after := Call.reset.perform refilled
    Session Engine.IsUnused .lost refilled ∧ after.driver.inFlight = 0 ∧
      after.core.submitPending = true ∧ (after.stimulate .accept).core.outstanding = [0] := by
  have hslow := small_session.stimulus (.autoAccept false) trivial
  have hstream := (hslow.call (.startStream 0)).stimulus .accept trivial
  have hcollect := (hstream.stimulus (.finish 0) trivial).call .collect
  obtain ⟨phase, rfl, hsession⟩ : ∃ phase, phase = .lost ∧ Session Engine.IsUnused phase refilled :=
    ⟨_, by decide +kernel, (hcollect.call .disable).call .collect⟩
  exact ⟨hsession, by decide +kernel, by decide +kernel, by decide +kernel⟩

end Rig

end DmaController

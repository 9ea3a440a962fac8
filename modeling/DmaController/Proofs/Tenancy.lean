import DmaController.Proofs.Framing
import DmaController.Proofs.Replay
import DmaController.Proofs.Takeback

/-!
A driver touches only the register bits that are its own. Whatever the registers of a device hold
when the first driver is started on it, and whatever is done with that driver and its successors,
the other bits of the control register and of the flags register keep their values, on every device
that holds what is written. Main statements: this frame, all writes that a driver makes at all, and
that the enable bit and the pause bit are changed only by the operations that are about them.
-/
namespace DmaController

open SharedRegisters

variable {σ : Type} {slots size : Nat} [RegisterBus (World σ slots size)] [Retentive σ slots size]
variable {s s' : Scene σ slots size}

section Control

variable {world : World σ slots size}

/-- A register is read and written back. -/
def RegisterBus.update (offset : Offset) (f : Word → Word) (world : World σ slots size) :
    World σ slots size :=
  RegisterBus.write offset (f (RegisterBus.read offset world).1) (RegisterBus.read offset world).2

theorem RegisterBus.update_control (hreserved : Reserved world) (f : Word → Word) :
    Reserved (update Register.control f world) ∧
      held (update Register.control f world) Register.control =
        f (held world Register.control) := by
  obtain ⟨hreserved₁, -, -⟩ := Retentive.read_untroubled Register.control world hreserved
  constructor
  · exact Retentive.write_reserved hreserved₁ (.inl rfl) _
  · unfold update
    rw [Retentive.held_write hreserved₁ (.inl rfl) (.inl rfl), if_pos rfl,
      Retentive.read_eq hreserved (.inl rfl)]

/-- An update of the control register that keeps the enable bit gives nothing up. -/
theorem RegisterBus.update_spares (hreserved : Reserved world) {f : Word → Word}
    (hf : ∀ word, (f word).getLsbD 0 = word.getLsbD 0) :
    (held (update Register.control f world) Register.control).getLsbD 0 =
      (held world Register.control).getLsbD 0 ∧
    aborts (update Register.control f world) = aborts world := by
  obtain ⟨hreserved₁, hheld₁, haborts₁⟩ :=
    Retentive.read_untroubled Register.control world hreserved
  constructor
  · rw [(update_control hreserved f).2]
    exact hf _
  · refine Eq.trans (Retentive.aborts_write hreserved₁ ?_) haborts₁
    rw [hf, Retentive.read_eq hreserved (.inl rfl), hheld₁ Register.control (.inl rfl)]

theorem RegisterBus.update_enable (hreserved : Reserved world) :
    (held (update Register.control (· ||| Control.enable) world) Register.control).getLsbD 1 =
      (held world Register.control).getLsbD 1 := by
  rw [(update_control hreserved _).2]
  exact Word.getLsbD_set (Control.getLsbD_enable (by decide))

theorem RegisterBus.update_disable (hreserved : Reserved world) :
    (held (update Register.control (· &&& ~~~ Control.enable) world) Register.control).getLsbD 1 =
      (held world Register.control).getLsbD 1 := by
  rw [(update_control hreserved _).2]
  exact Word.getLsbD_clear (Control.getLsbD_enable (by decide))

namespace Driver

variable {port : Port (World σ slots size)} (driver : Driver slots size)

omit [Retentive σ slots size] in
theorem outcome_restart : (restart.outcome driver port).2.world =
    RegisterBus.note (.released driver.inFlight)
      (RegisterBus.update Register.control (· ||| Control.enable)
        (RegisterBus.update Register.control (· &&& ~~~ Control.enable) port.world)) := rfl

omit [Retentive σ slots size] in
theorem outcome_close : (close.outcome driver port).2.world =
    RegisterBus.update Register.control (· &&& ~~~ Control.enable)
      (RegisterBus.write Register.irqMask Irq.all port.world) := rfl

theorem restart_control (hreserved : Reserved port.world) :
    Reserved (restart.outcome driver port).2.world ∧
      (held (restart.outcome driver port).2.world Register.control).getLsbD 1 =
        (held port.world Register.control).getLsbD 1 := by
  have hreserved₁ := (RegisterBus.update_control hreserved (· &&& ~~~ Control.enable)).1
  have hreserved₂ := (RegisterBus.update_control hreserved₁ (· ||| Control.enable)).1
  obtain ⟨hreserved₃, hheld₃, -⟩ :=
    Retentive.note_untroubled (.released driver.inFlight) _ hreserved₂
  rw [outcome_restart]
  refine ⟨hreserved₃, ?_⟩
  rw [hheld₃ Register.control (.inl rfl), RegisterBus.update_enable hreserved₁,
    RegisterBus.update_disable hreserved]

theorem close_control (hreserved : Reserved port.world) :
    (held (close.outcome driver port).2.world Register.control).getLsbD 1 =
      (held port.world Register.control).getLsbD 1 := by
  have hmask : ¬ Register.IsShared Register.irqMask := by decide
  obtain ⟨hreserved₁, hheld₁, -⟩ := Retentive.write_untroubled hmask Irq.all port.world hreserved
  rw [outcome_close, RegisterBus.update_disable hreserved₁, hheld₁ Register.control (.inl rfl)]

end Driver
end Control

/-- The action writes no shared register. -/
def Action.SparesShared : Action → Prop
  | .write offset _ => ¬ Register.IsShared offset
  | _ => True

section Undisturbed

variable [HasSlots slots]

theorem Step.undisturbed (h : Step Untroubled s s') : ∃ actions,
    s'.port.journal.toList = s.port.journal.toList ++ actions ∧
      ((∀ action ∈ actions, action.SparesShared) → Untroubled s.port.world s'.port.world) := by
  obtain ⟨driver, known, port⟩ := s
  obtain ⟨driver', known', port'⟩ := s'
  obtain ⟨deed, -, hserves, -⟩ := h
  refine ⟨deed.actions, hserves.journal_eq, fun hspares => ?_⟩
  cases deed with
  | act action =>
    cases action with
    | read offset value =>
      obtain ⟨-, rfl⟩ := hserves
      exact Retentive.read_untroubled offset _
    | write offset value =>
      obtain rfl := hserves
      exact Retentive.write_untroubled (hspares _ (List.mem_singleton_self _)) value _
    | _ =>
      obtain rfl := hserves
      exact Retentive.note_untroubled _ _
  | stored slot data =>
    obtain rfl := hserves
    exact Retentive.store_untroubled _ _
  | meanwhile => exact hserves.1
  | inward =>
    obtain rfl : port' = port := hserves
    exact .refl

/-- A path that writes no shared register leaves them all alone. -/
theorem Path.undisturbed (h : Path Untroubled s s') : ∃ actions,
    s'.port.journal.toList = s.port.journal.toList ++ actions ∧
      ((∀ action ∈ actions, action.SparesShared) → Untroubled s.port.world s'.port.world) :=
  h.along (R := fun s s' => Untroubled s.port.world s'.port.world) (fun _ => .refl) .trans
    fun _ hstep => hstep.undisturbed

end Undisturbed

namespace Driver

variable [HasSlots slots]

omit [Retentive σ slots size] in
theorem fillStream_does (granted : Nat) : Does Action.SparesShared
    (fillStream granted : DriverM σ slots size (Except TransferError Nat)) := by
  have hhandles : Handles Action.SparesShared := by
    refine ⟨fun action h => ?_, fun _ => trivial, fun _ _ => trivial, fun offset _ h => ?_⟩
    · cases action <;> trivial
    · rcases h with rfl | rfl | rfl | rfl <;> exact show ¬ Register.IsShared _ by decide
  have hstatus : ¬ Register.IsShared Register.irqStatus := by decide
  have hmask : ¬ Register.IsShared Register.irqMask := by decide
  exact .bind (.change _) fun _ => .bind (enableIrq_does hstatus hmask) fun _ =>
    .bind (refill_does hhandles granted) fun _ => .bind (.record trivial) fun _ => .pure _

omit [Retentive σ slots size] in
theorem fillStream_leads {free : World σ slots size → World σ slots size → Prop} (granted : Nat)
    (hdraft : s.known.draft = .none) : Leads free (fillStream granted) (fun _ _ => True) s := by
  refine .bind (.inward (.stream _ _ (some granted)) (.seq (enableIrq_leads hdraft) ?_))
  intro _ s₁ h
  have hrests : s₁.Rests s₁.known.phase := ⟨h.draft_eq, .inl rfl⟩
  exact .seq (refill_leads granted hrests) fun _ _ _ => .bind (.log (.pure trivial))

theorem startStream_control (driver : Driver slots size) {port : Port (World σ slots size)}
    (hreserved : Reserved port.world) (bytes : Nat) :
    (held ((startStream bytes).outcome driver port).2.world Register.control).getLsbD 1 =
      (held port.world Register.control).getLsbD 1 := by
  rw [startStream_eq, DriverM.outcome_get]
  by_cases hable : driver.directions.inbound = true
  · rw [if_pos hable, DriverM.outcome_get]
    cases driver.requestSize? bytes with
    | none => rfl
    | some granted =>
      obtain ⟨hreserved₁, hheld₁⟩ := driver.restart_control hreserved
      let s₁ : Scene σ slots size :=
        ⟨(restart.outcome driver port).1.2, {}, (restart.outcome driver port).2⟩
      obtain ⟨known, hpath, -⟩ : Leads Untroubled (fillStream granted) _ s₁ :=
        fillStream_leads granted rfl
      have hundisturbed := (fillStream_does granted).elim s₁.driver hpath.undisturbed hreserved₁
      refine Eq.trans ?_ hheld₁
      exact congrArg (·.getLsbD 1) (hundisturbed.held_eq Register.control (.inl rfl))
  · rw [if_neg hable]
    rfl

end Driver

variable [HasSlots slots] [InterruptLine (World σ slots size)]

/-- What becomes of a device on which drivers are started, used and given up one after another, and
which nobody else touches: whether one was started already, the one there is, and its port. -/
inductive Tenancy (world₀ : World σ slots size) :
    Bool → Option (Driver slots size) → Port (World σ slots size) → Prop
  | vacant (h : Reserved world₀) : Tenancy world₀ false none ⟨world₀, #[]⟩
  | start {begun : Bool} {former : Option (Driver slots size)}
      {port port' : Port (World σ slots size)} {config : Config} {pool : Pool slots size}
      {driver : Driver slots size} (h : Tenancy world₀ begun former port)
      (hstart : (Driver.start config pool).run port = (.ok driver, port')) :
      Tenancy world₀ true (some driver) port'
  | refused {begun : Bool} {former : Option (Driver slots size)}
      {port port' : Port (World σ slots size)} {config : Config} {pool : Pool slots size}
      {refusal : Refusal slots size} (h : Tenancy world₀ begun former port)
      (hstart : (Driver.start config pool).run port = (.error refusal, port')) :
      Tenancy world₀ begun former port'
  | perform {begun : Bool} {driver : Driver slots size} {port : Port (World σ slots size)}
      {α : Type} {program : DriverM σ slots size α} (h : Tenancy world₀ begun (some driver) port)
      (htask : Task Untroubled program) :
      Tenancy world₀ begun (some (program.outcome driver port).1.2) (program.outcome driver port).2
  | close {begun : Bool} {driver : Driver slots size} {port : Port (World σ slots size)}
      (h : Tenancy world₀ begun (some driver) port) :
      Tenancy world₀ begun none (Driver.close.outcome driver port).2
  | meanwhile {begun : Bool} {driver? : Option (Driver slots size)}
      {port : Port (World σ slots size)} (h : Tenancy world₀ begun driver? port)
      {world : World σ slots size} (hfree : Untroubled port.world world) :
      Tenancy world₀ begun driver? { port with world }

section Tame

theorem tolerates_isTame : Tolerates Action.IsTame := by
  have hother : ∀ {offset : Offset} (value : Word), offset ≠ Register.irqStatus →
      offset ≠ Register.irqMask → Action.IsTame (.write offset value) :=
    fun _ hstatus hmask => ⟨fun h => absurd h hstatus, fun h => absurd h hmask⟩
  constructor
  · refine ⟨fun action h => ?_, fun _ => trivial, fun _ _ => trivial, fun offset value h => ?_⟩
    · cases action <;> trivial
    · rcases h with rfl | rfl | rfl | rfl <;> exact hother value (by decide) (by decide)
  · exact fun _ => trivial
  · exact fun _ => trivial
  · exact fun value => hother value (by decide) (by decide)
  · exact fun flags h => ⟨fun _ => h, fun heq => absurd heq (by decide)⟩
  · exact fun flags h => ⟨fun heq => absurd heq (by decide), fun _ => h⟩

omit [HasSlots slots] [InterruptLine (World σ slots size)] [Retentive σ slots size] in
theorem Driver.start_tame (config : Config) (pool : Pool slots size) :
    Does Action.IsTame (onBus (start config pool) : DriverM σ slots size _) :=
  start_does (fun _ _ _ => trivial) (fun _ => trivial)
    (fun _ => ⟨fun h => absurd h (by decide), fun h => absurd h (by decide)⟩)
    (fun _ => tolerates_isTame.control _) config pool

omit [HasSlots slots] [InterruptLine (World σ slots size)] [Retentive σ slots size] in
theorem Driver.close_tame : Does Action.IsTame (close : DriverM σ slots size Unit) :=
  .bind (.write (tolerates_isTame.irqMask _ (.inr rfl))) fun _ =>
    .update (fun _ => trivial) fun _ => tolerates_isTame.control _

end Tame

variable {world₀ : World σ slots size} {begun : Bool} {driver? : Option (Driver slots size)}
variable {port : Port (World σ slots size)}

/-- A device as it is while drivers come and go. -/
structure Port.Kept (world₀ : World σ slots size) (begun : Bool)
    (port : Port (World σ slots size)) : Prop where
  framed : port.Framed (held world₀ Register.control) (held world₀ Register.flags)
  tame : ∀ action ∈ port.journal.toList, action.IsTame
  begun : begun = true → ∃ value, .write Register.flags value ∈ port.journal.toList

omit [InterruptLine (World σ slots size)] in
theorem Port.Kept.outcome {α : Type} {program : DriverM σ slots size α}
    {Q : α → Scene σ slots size → Prop} (h : port.Kept world₀ begun) (driver : Driver slots size)
    (hleads : Leads Untroubled program Q ⟨driver, {}, port⟩) (hdoes : Does Action.IsTame program) :
    (program.outcome driver port).2.Kept world₀ begun := by
  obtain ⟨known, hpath, -⟩ := hleads
  obtain ⟨actions, hjournal, htame⟩ := hdoes driver port
  have hscene : Scene.Framed _ _ ⟨driver, {}, port⟩ := ⟨h.framed, nofun, nofun⟩
  refine ⟨(hscene.path hpath).framed, ?_, fun hbegun => ?_⟩
  · rw [hjournal]
    exact List.forall_mem_append.2 ⟨h.tame, htame⟩
  · obtain ⟨value, hmem⟩ := h.begun hbegun
    rw [hjournal]
    exact ⟨value, List.mem_append_left _ hmem⟩

namespace Tenancy

theorem kept (h : Tenancy world₀ begun driver? port) : port.Kept world₀ begun := by
  have hstarts : ∀ {begun port port'} {config : Config} {pool : Pool slots size}
      {answer : Except (Refusal slots size) (Driver slots size)} (driver : Driver slots size),
      port.Kept world₀ begun → (Driver.start config pool).run port = (answer, port') →
        port'.Kept world₀ begun := by
    intro begun port port' config pool answer driver hkept hstart
    have hafter := hkept.outcome driver (Driver.start_leads config pool rfl)
      (Driver.start_tame config pool)
    rw [Driver.outcome_onBus, hstart] at hafter
    exact hafter
  induction h with
  | vacant hreserved =>
    exact ⟨⟨hreserved, fun _ _ => rfl, fun _ _ => rfl, nofun, nofun⟩, nofun, nofun⟩
  | @start begun _ port port' config pool driver h hstart ih =>
    obtain ⟨hframed, htame, -⟩ := hstarts driver ih hstart
    refine ⟨hframed, htame, fun _ => ?_⟩
    obtain ⟨actions, hjournal, hstarted⟩ := Driver.start_enters config pool driver port
    rw [Driver.outcome_onBus, hstart] at hjournal hstarted
    obtain ⟨-, -, value, hmem⟩ := hstarted driver rfl
    rw [hjournal]
    exact ⟨value, List.mem_append_right _ hmem⟩
  | @refused _ _ _ _ config pool _ h hstart ih =>
    let nobody : Driver slots size :=
      { pool, config, version := .ofWord 0, peripheralId := 0, directions := {} }
    exact hstarts nobody ih hstart
  | @perform _ driver _ _ _ h htask ih =>
    exact ih.outcome driver (htask.leads rfl) (htask.operation.does tolerates_isTame)
  | @close _ driver _ h ih => exact ih.outcome driver (Driver.close_leads rfl) Driver.close_tame
  | meanwhile h hfree ih =>
    exact ⟨ih.framed.undisturbed hfree fun _ _ => .inl, ih.tame, ih.begun⟩

/-- A driver touches only the register bits that are its own, whatever the registers hold at first.
The other bits of the control and the flags register keep their values, and no transfer is cyclic
once a driver was started. Only bits of the driver are written anywhere. Pausing and resuming keep
the enable bit, so nothing is given up; what enables or disables the core keeps the pause bit. -/
theorem frame (h : Tenancy world₀ begun driver? port) :
    (∀ i, 2 ≤ i → (held port.world Register.control).getLsbD i =
      (held world₀ Register.control).getLsbD i) ∧
    (∀ i, 1 ≤ i → (held port.world Register.flags).getLsbD i =
      (held world₀ Register.flags).getLsbD i) ∧
    (begun = true → (held port.world Register.flags).getLsbD 0 = false) ∧
    (∀ offset value, .write offset value ∈ port.journal.toList → Register.Touches
      (held world₀ Register.control) (held world₀ Register.flags) offset value) ∧
    ∀ driver : Driver slots size,
      (∀ program : DriverM σ slots size Unit, program = Driver.pause ∨ program = Driver.resume →
        (held (program.outcome driver port).2.world Register.control).getLsbD 0 =
          (held port.world Register.control).getLsbD 0 ∧
        aborts (program.outcome driver port).2.world = aborts port.world) ∧
      (∀ program : DriverM σ slots size Unit, program = Driver.enable ∨ program = Driver.disable ∨
          program = Driver.reset ∨ program = Driver.close →
        (held (program.outcome driver port).2.world Register.control).getLsbD 1 =
          (held port.world Register.control).getLsbD 1) ∧
      ∀ bytes, (held ((Driver.startStream bytes).outcome driver port).2.world
        Register.control).getLsbD 1 = (held port.world Register.control).getLsbD 1 := by
  obtain ⟨hframed, htame, hbegun⟩ := h.kept
  have hreserved := hframed.reserved
  refine ⟨hframed.control_eq, hframed.flags_eq, fun hstarted => ?_, ?_, fun driver => ⟨?_, ?_, ?_⟩⟩
  · obtain ⟨value, hmem⟩ := hbegun hstarted
    exact hframed.acyclic value hmem
  · intro offset value hmem
    obtain ⟨hstatus, hmask⟩ := htame _ hmem
    by_cases hoffset : offset = Register.irqStatus
    · subst hoffset
      exact .irqStatus (hstatus rfl)
    by_cases hoffset' : offset = Register.irqMask
    · subst hoffset'
      exact .irqMask (hmask rfl)
    · exact hframed.touches offset value hmem hoffset hoffset'
  · rintro program (rfl | rfl)
    · exact RegisterBus.update_spares hreserved
        fun _ => Word.getLsbD_set (Control.getLsbD_pause (by decide))
    · exact RegisterBus.update_spares hreserved
        fun _ => Word.getLsbD_clear (Control.getLsbD_pause (by decide))
  · rintro program (rfl | rfl | rfl | rfl)
    · exact RegisterBus.update_enable hreserved
    · exact RegisterBus.update_disable hreserved
    · exact (driver.restart_control hreserved).2
    · exact driver.close_control hreserved
  · exact driver.startStream_control hreserved

end Tenancy

open Sim

/-- A core whose registers were in use: it is paused, bits that belong to others are set, and so is
the cyclic flag. Its hardware completes what it can at every occasion. -/
def Sim.worn : World Bench 1 16 where
  device :=
    { core :=
        { registers := .ofList [(Register.identification, signature),
            (Register.version, 0x00040461), (Register.interface, 0x0303),
            (Register.control, 0xF0F0F0F2), (Register.flags, 0xABCDEF01)] }
      script := fun _ _ => [.completeAll] }
  memory := .zero

/-- A driver started on it. -/
def Rig.worn : Rig 1 16 where
  driver :=
    { pool := (Pool.fresh 1 16 0).resize transferLimit, config := {}, version := ⟨4, 4, 97⟩
      peripheralId := 0, directions := {} }
  port := ((Driver.start {} (Pool.fresh 1 16 0)).run ⟨Sim.worn, #[]⟩).2

/-- After a reset the core is enabled and still paused, and the other bits are as they were. -/
theorem Tenancy.frame_worn :
    let port := (Call.reset.perform Rig.worn).port
    held port.world Register.control = 0xF0F0F0F3 ∧ held port.world Register.flags = 0xABCDEF00 ∧
      (∀ i, 2 ≤ i → (held port.world Register.control).getLsbD i =
        (held Sim.worn Register.control).getLsbD i) ∧
      ∀ offset value, .write offset value ∈ port.journal.toList → Register.Touches
        (held Sim.worn Register.control) (held Sim.worn Register.flags) offset value := by
  intro port
  have hstart : (Driver.start {} (Pool.fresh 1 16 0)).run ⟨Sim.worn, #[]⟩ =
      (.ok Rig.worn.driver, Rig.worn.port) := rfl
  have hvacant : Tenancy Sim.worn false none ⟨Sim.worn, #[]⟩ :=
    .vacant fun _ _ => List.forall_mem_singleton.2 trivial
  obtain ⟨hcontrol, -, -, hwrites, -⟩ := frame ((hvacant.start hstart).perform .reset)
  exact ⟨by decide +kernel, by decide +kernel, hcontrol, hwrites⟩

end DmaController

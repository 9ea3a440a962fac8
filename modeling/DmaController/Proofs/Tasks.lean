import DmaController.Proofs.Conservation

/-!
Operations whose callbacks keep to themselves. A task is an operation together with what its
callbacks may do to the world. Main statements: a task keeps to the protocol, with the world moving
between its steps only as its callbacks may move it, and what actions an operation takes at most.
-/
namespace DmaController

variable {σ : Type} {slots size : Nat} {α : Type} [HasSlots slots]
variable [RegisterBus (World σ slots size)] [InterruptLine (World σ slots size)]

/-- An operation whose callbacks move the world only as `free` has it. -/
inductive Task (free : World σ slots size → World σ slots size → Prop) :
    {α : Type} → DriverM σ slots size α → Prop
  | send {source : Producer (World σ slots size)}
      (hsource : ∀ world, free world (source.meanwhile world)) : Task free (Driver.send source)
  | sendAndWait (limit : Nat) {source : Producer (World σ slots size)}
      (hsource : ∀ world, free world (source.meanwhile world)) :
      Task free (Driver.sendAndWait limit source)
  | receive (bytes : Nat) {consume : Bytes → World σ slots size → World σ slots size}
      {pause : Nat → World σ slots size → World σ slots size}
      (hconsume : ∀ data world, free world (consume data world))
      (hpause : ∀ length world, free world (pause length world)) :
      Task free (Driver.receive bytes consume pause)
  | collect {consume : Bytes → World σ slots size → World σ slots size}
      (hconsume : ∀ data world, free world (consume data world)) :
      Task free (Driver.collect consume)
  | serviceInterrupt {consume : Bytes → World σ slots size → World σ slots size}
      (hconsume : ∀ data world, free world (consume data world))
      (hline : ∀ world : World σ slots size, free world (InterruptLine.acknowledge world)) :
      Task free (Driver.serviceInterrupt consume)
  | claimCompletion : Task free Driver.claimCompletion
  | startStream (bytes : Nat) : Task free (Driver.startStream bytes)
  | reset : Task free Driver.reset
  | enable : Task free Driver.enable
  | disable : Task free Driver.disable
  | pause : Task free Driver.pause
  | resume : Task free Driver.resume
  | enableIrq : Task free Driver.enableIrq
  | disableIrq : Task free Driver.disableIrq
  | acknowledge
      (hline : ∀ world : World σ slots size, free world (InterruptLine.acknowledge world)) :
      Task free Driver.acknowledge
  | registerSink {sink : Word}
      (hline : ∀ world : World σ slots size, free world (InterruptLine.registerSink sink world)) :
      Task free (Driver.registerSink sink)
  | isEnabled : Task free Driver.isEnabled
  | isPaused : Task free Driver.isPaused
  | progress : Task free Driver.progress
  | irqFlags : Task free Driver.irqFlags
  | doneBits : Task free Driver.doneBits

variable {free : World σ slots size → World σ slots size → Prop} {program : DriverM σ slots size α}

theorem Task.operation (h : Task free program) : Operation program := by
  cases h <;> constructor

/-- Every operation is a task, if its callbacks may do anything. -/
theorem Operation.task (h : Operation program) : Task (fun _ _ => True) program := by
  cases h <;> constructor <;> intros <;> trivial

/-- A task leaves no submission on its way behind. -/
theorem Task.leads (h : Task free program) {s : Scene σ slots size}
    (hdraft : s.known.draft = .none) :
    Leads free program (fun _ s' => s'.known.draft = .none) s := by
  have hrests : s.Rests s.known.phase := ⟨hdraft, .inl rfl⟩
  cases h with
  | send hsource => exact (Driver.send_leads hsource hrests).mono fun _ _ h => h.draft_eq
  | sendAndWait limit hsource =>
    exact (Driver.sendAndWait_leads limit hsource hrests).mono fun _ _ h => h.draft_eq
  | receive bytes hconsume hpause =>
    exact (Driver.receive_leads hconsume hpause bytes hrests).mono fun _ _ h => h.draft_eq
  | collect hconsume => exact (Driver.collect_leads hconsume hrests).mono fun _ _ h => h.1.draft_eq
  | serviceInterrupt hconsume hline =>
    exact (Driver.serviceInterrupt_leads hline hconsume hrests).mono fun _ _ h => h.1.draft_eq
  | claimCompletion => exact (Driver.claimCompletion_leads hdraft).mono fun _ _ h => h.draft_eq
  | startStream bytes => exact (Driver.startStream_leads bytes hdraft).mono fun _ _ h => h.1
  | reset => exact (Driver.reset_leads hdraft).mono fun _ _ h => h.1
  | enable => exact (Driver.enable_leads hdraft).mono fun _ _ h => h.1.draft_eq
  | disable => exact (Driver.disable_leads hdraft).mono fun _ _ h => by rw [h.2]
  | pause => exact (Driver.pause_leads hdraft).mono fun _ _ h => h.draft_eq
  | resume => exact (Driver.resume_leads hdraft).mono fun _ _ h => h.draft_eq
  | enableIrq => exact (Driver.enableIrq_leads hdraft).mono fun _ _ h => h.draft_eq
  | disableIrq => exact (Driver.disableIrq_leads hdraft).mono fun _ _ h => h.draft_eq
  | acknowledge hline => exact Driver.acknowledge_leads hline fun _ => hdraft
  | registerSink hline => exact Leads.alter (hline _) hdraft
  | isEnabled | isPaused | progress | irqFlags | doneBits =>
    exact (Driver.read_leads hdraft _ _).mono fun _ _ h => h.draft_eq

/-- All that operations do is allowed: of the registers they write those of a transfer, the control
register, and two values each of the interrupt status and of the interrupt mask. -/
structure Tolerates (P : Action → Prop) : Prop extends Handles P where
  reclaimed : ∀ id, P (.reclaimed id)
  released : ∀ count, P (.released count)
  control : ∀ value, P (.write Register.control value)
  irqStatus : ∀ flags, flags = Irq.completed ∨ flags = Irq.all → P (.write Register.irqStatus flags)
  irqMask : ∀ flags, flags = Irq.queued ∨ flags = Irq.all → P (.write Register.irqMask flags)

theorem Operation.does {P : Action → Prop} (hP : Tolerates P) (h : Operation program) :
    Does P program := by
  have hlook : ∀ {offset : Offset} (value : Word), P (.read offset value) :=
    fun _ => hP.passive _ trivial
  have hrestart : Does P (Driver.restart : DriverM σ slots size Unit) :=
    Driver.restart_does hlook hP.control hP.released
  have hcleared := hP.irqStatus Irq.all (.inr rfl)
  have hmask := hP.irqMask Irq.queued (.inl rfl)
  cases h with
  | send source => exact Driver.send_does hP.toHandles hP.reclaimed source
  | sendAndWait limit source => exact Driver.sendAndWait_does hP.toHandles hP.reclaimed limit source
  | receive bytes consume pause => exact Driver.receive_does hP.toHandles bytes consume pause
  | collect consume => exact Driver.collect_does hP.toHandles consume
  | serviceInterrupt consume =>
    exact Driver.serviceInterrupt_does hP.toHandles (hP.irqStatus _ (.inl rfl)) consume
  | claimCompletion => exact Driver.claimCompletion_does hlook (hP.irqStatus _ (.inl rfl))
  | startStream bytes =>
    exact Driver.startStream_does hP.toHandles hP.control hP.released hcleared hmask bytes
  | reset => exact .bind hrestart fun _ => .change _
  | enable | disable | pause | resume => exact .update hlook fun _ => hP.control _
  | enableIrq => exact Driver.enableIrq_does hcleared hmask
  | disableIrq => exact .write (hP.irqMask _ (.inr rfl))
  | acknowledge | registerSink => exact .alter _
  | isEnabled | isPaused | progress | irqFlags | doneBits =>
    exact .looks hP.passive fun _ => .read _ _

end DmaController

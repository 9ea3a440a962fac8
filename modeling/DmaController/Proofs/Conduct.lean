import DmaController.Proofs.Entries
import DmaController.Proofs.Soundness

/-!
What the operations do, whoever runs them: one statement for each about every kind of action that
it may put into the journal.
-/
namespace DmaController

/-- Looking, queueing a transfer and delivering one are allowed, and of the registers those may be
written that a transfer is made of. -/
structure Handles (P : Action → Prop) : Prop where
  passive : ∀ action, action.IsPassive → P action
  submitted : ∀ transfer, P (.submitted transfer)
  delivered : ∀ id data, P (.delivered id data)
  written : ∀ offset value, Register.IsTransfer offset → P (.write offset value)

/-- Reading and logging are allowed, and what a transfer is submitted with. -/
structure Submits (P : Action → Prop) : Prop where
  read : ∀ offset value, P (.read offset value)
  log : ∀ entry, P (.log entry)
  submitted : ∀ transfer, P (.submitted transfer)
  written : ∀ offset value, Register.IsTransfer offset → P (.write offset value)

variable {σ : Type} {slots size : Nat} {P : Action → Prop}

theorem Handles.submits (h : Handles P) : Submits P where
  read _ _ := h.passive _ trivial
  log _ := h.passive _ trivial
  submitted := h.submitted
  written := h.written

namespace Driver

section Control

variable [RegisterBus (World σ slots size)]

theorem restart_does (hread : ∀ value, P (.read Register.control value))
    (hwrite : ∀ value, P (.write Register.control value))
    (hreleased : ∀ count, P (.released count)) : Does P (restart : DriverM σ slots size Unit) :=
  .bind (.update hread fun _ => hwrite _) fun _ => .bind (.update hread fun _ => hwrite _) fun _ =>
    .bind .get fun _ => .bind (.record (hreleased _)) fun _ => .change _

/-- A start looks, clears the cyclic flag and enables the core, if it comes so far. -/
theorem start_does (hlook : ∀ offset value, offset ≠ Register.submit → P (.read offset value))
    (htold : ∀ entry, P (.log entry)) (hflags : ∀ value, P (.write Register.flags value))
    (hcontrol : ∀ value, P (.write Register.control (value ||| Control.enable))) (config : Config)
    (pool : Pool slots size) : Does P (onBus (start config pool) : DriverM σ slots size _) := by
  have hread : ∀ offset, offset ≠ Register.submit →
      Does P (onBus (BusM.read offset) : DriverM σ slots size Word) :=
    fun _ hoffset => .read fun _ => hlook _ _ hoffset
  have hlog : ∀ entry, Does P (onBus (BusM.log entry) : DriverM σ slots size Unit) :=
    fun _ => .record (htold _)
  have hrefuse : ∀ (cause : StartError) (entry : LogEntry), Does P
      (onBus (do BusM.log entry; return .error ⟨cause, pool⟩) : DriverM σ slots size
        (Except (Refusal slots size) (Driver slots size))) :=
    fun _ _ => .lift (hlog _) fun _ => .pure _
  have hdirections : ∀ version, Does P
      (onBus (findDirections version) : DriverM σ slots size Directions) := by
    intro version
    unfold findDirections
    split_ifs
    · exact .lift (hread _ (by decide)) fun _ => .lift (hlog _) fun _ => .pure _
    · exact .lift (hlog _) fun _ => .pure _
  have hsize : Does P (onBus (sizePool config pool) : DriverM σ slots size (Pool slots size)) := by
    unfold sizePool
    cases Pool.resizeWarning size config.maxTransfer with
    | none => exact .pure _
    | some warning => exact .lift (hlog _) fun _ => .pure _
  refine .lift (hread _ (by decide)) fun word => ?_
  split_ifs
  · exact hrefuse _ _
  refine .lift (hread _ (by decide)) fun version => .lift (hread _ (by decide)) fun _ => ?_
  refine .lift (hlog _) fun _ => .lift (hdirections _) fun directions => ?_
  split_ifs
  · exact hrefuse _ _
  · exact hrefuse _ _
  refine .lift hsize fun sized => ?_
  split_ifs
  · exact .lift (hlog _) fun _ => .pure _
  exact .lift (.update (fun _ => hlook _ _ (by decide)) fun _ => hflags _) fun _ =>
    .lift (.update (fun _ => hlook _ _ (by decide)) hcontrol) fun _ => .pure _

/-- A driver is started with the configuration that it is given, and with the pool resized for it,
after the flags register was written. -/
theorem start_enters (config : Config) (pool : Pool slots size) (d : Driver slots size) :
    Enters (onBus (start config pool) : DriverM σ slots size _) (fun answer _ actions =>
      ∀ driver, answer = .ok driver → driver.pool = pool.resize config.maxTransfer ∧
        driver.config = config ∧ ∃ value, .write Register.flags value ∈ actions) d := by
  have hdirections : ∀ version driver, Enters
      (onBus (findDirections version) : DriverM σ slots size _) (fun _ _ _ => True) driver := by
    intro version driver
    unfold findDirections
    split_ifs
    · exact .lift (.read fun _ => .lift (.log (.pure trivial)))
    · exact .lift (.log (.pure trivial))
  have hpool : ∀ driver, Enters (onBus (sizePool config pool) : DriverM σ slots size _)
      (fun sized _ _ => sized = pool.resize config.maxTransfer) driver := by
    intro driver
    unfold sizePool
    cases Pool.resizeWarning size config.maxTransfer with
    | none => exact .pure rfl
    | some warning => exact .lift (.log (.pure rfl))
  unfold start
  refine .lift (.read fun word => ?_)
  split_ifs
  · exact .lift (.log (.pure nofun))
  refine .lift (.read fun version => .lift (.read fun id => .lift (.log (.lift ?_))))
  refine (hdirections _ _).mono fun directions d _ _ => ?_
  split_ifs
  · exact .lift (.log (.pure nofun))
  · exact .lift (.log (.pure nofun))
  refine .lift ((hpool d).mono fun sized d' _ hsized => ?_)
  split_ifs
  · exact .lift (.log (.pure nofun))
  refine .lift (.lift (.read fun flags => .write (.lift (.lift (.read fun control => .write ?_)))))
  refine .pure fun driver hdriver => ?_
  obtain rfl := Except.ok.inj hdriver
  exact ⟨hsized, rfl, flags &&& ~~~ cyclicFlag, by simp⟩

theorem start_sized {config : Config} {pool : Pool slots size} {started : Driver slots size}
    {port port' : Port (World σ slots size)}
    (h : (start config pool).run port = (.ok started, port')) :
    started.pool = pool.resize config.maxTransfer ∧ started.config = config := by
  obtain ⟨_, -, hstarted⟩ := start_enters config pool started port
  rw [outcome_onBus, h] at hstarted
  obtain ⟨hpool, hconfig, -⟩ := hstarted started rfl
  exact ⟨hpool, hconfig⟩

theorem enableIrq_does (hcleared : P (.write Register.irqStatus Irq.all))
    (hmask : P (.write Register.irqMask Irq.queued)) :
    Does P (enableIrq : DriverM σ slots size Unit) :=
  .bind (.write hcleared) fun _ => .write hmask

theorem claimCompletion_does (hread : ∀ value, P (.read Register.irqStatus value))
    (hcleared : P (.write Register.irqStatus Irq.completed)) :
    Does P (claimCompletion : DriverM σ slots size Bool) := by
  refine .bind (.bind (.read hread) fun _ => .pure _) fun flags => ?_
  split_ifs
  · exact .bind (.write hcleared) fun _ => .pure _
  · exact .pure _

end Control

section Requests

variable [RegisterBus (World σ slots size)] (hP : Submits P)
include hP

theorem nextId?_does : Does P (nextId? : DriverM σ slots size _) := by
  refine .bind (.lift (.read (hP.read _)) fun _ => .pure _) fun raw => ?_
  dsimp only
  split_ifs
  · exact .bind (.record (hP.log _)) fun _ => .pure _
  · exact .pure _

variable [HasSlots slots]

theorem submit_does (direction : Direction) (id : TransferId) (bytes : Nat) :
    Does P (submit direction id bytes : DriverM σ slots size Unit) := by
  refine fun driver => (submit_enters direction id bytes).mono fun _ _ actions h => ?_
  obtain ⟨-, rfl⟩ := h
  simp only [List.forall_mem_cons, List.not_mem_nil, false_imp_iff, implies_true, and_true]
  exact ⟨hP.submitted _, hP.written _ _ (by decide), hP.written _ _ direction.isTransfer_register,
    hP.written _ _ (by decide), hP.log _⟩

theorem request_does (bytes : Nat) :
    Does P (request bytes : DriverM σ slots size (Except TransferError TransferId)) := by
  refine .bind .get fun driver => ?_
  cases driver.requestSize? bytes with
  | none => exact .pure _
  | some granted =>
    refine .bind (nextId?_does hP) fun id? => ?_
    cases id? with
    | none => exact .pure _
    | some id =>
      refine .bind .get fun driver => ?_
      split_ifs
      · exact .pure _
      · exact .bind (submit_does hP _ _ _) fun _ => .pure _

end Requests

section Transfers

variable (hP : Handles P)
include hP

section Plain

variable [RegisterBus (World σ slots size)]

theorem settledDone_does : Does P (settledDone : DriverM σ slots size DoneBits) :=
  .looks hP.passive fun _ => settledDone_looks

theorem awaitAccepted_does (limit : Nat) :
    Does P (awaitAccepted limit : DriverM σ slots size Bool) :=
  .looks hP.passive fun _ => awaitAccepted_looks limit

end Plain

variable [HasSlots slots] [RegisterBus (World σ slots size)]

theorem deliver_does (consume : Bytes → World σ slots size → World σ slots size)
    (id : TransferId) : Does P (deliver consume id) := by
  refine fun driver => (deliver_enters consume id).mono fun _ _ actions h => ?_
  obtain ⟨-, data, -, rfl⟩ := h
  exact List.forall_mem_singleton.2 (hP.delivered id data)

theorem refill_does (bytes : Nat) : Does P (refill bytes : DriverM σ slots size Nat) := by
  have hrequests : ∀ room, Does P (requestUpTo bytes room : DriverM σ slots size Nat) := by
    intro room
    induction room with
    | zero => exact .pure 0
    | succ room ih =>
      refine .bind (.looks hP.passive fun _ => submitPending_looks) fun pending => ?_
      split_ifs
      · exact .pure 0
      refine .bind (request_does hP.submits bytes) fun answer => ?_
      cases answer with
      | ok id => exact .bind ih fun _ => .pure _
      | error cause =>
        cases cause with
        | queueFull => exact .pure 0
        | _ => exact .bind (.record (hP.passive _ trivial)) fun _ => .pure 0
  exact .bind .get fun _ => hrequests _

/-- An outbound transfer may also reclaim its slot. -/
theorem send_does (hreclaimed : ∀ id, P (.reclaimed id)) (source : Producer (World σ slots size)) :
    Does P (send source) := by
  have hreclaim : ∀ id, Does P (reclaim id : DriverM σ slots size Bool) := by
    refine fun id => .bind .get fun driver => ?_
    cases (driver.pool.slot id).transferId? with
    | none => exact .pure _
    | some previous =>
      refine .bind (settledDone_does hP) fun done => ?_
      split_ifs
      · exact .bind (.record (hreclaimed previous)) fun _ => .bind (.change _) fun _ => .pure _
      · exact .pure _
  have hclaim : Does P (claimSlot : DriverM σ slots size _) := by
    refine .bind .get fun driver => ?_
    split_ifs
    swap
    · exact .pure _
    refine .bind (.looks hP.passive fun _ => submitPending_looks) fun pending => ?_
    split_ifs
    · exact .pure _
    refine .bind (.looks hP.passive fun _ => nextId?_looks) fun id? => ?_
    cases id? with
    | none => exact .pure _
    | some id =>
      refine .bind (hreclaim id) fun freed => ?_
      split_ifs
      · exact .pure _
      · exact .pure _
  refine .bind hclaim fun answer => ?_
  cases answer with
  | error cause => exact .pure _
  | ok id =>
    refine .bind (.looks hP.passive fun _ => fill_looks source id) fun bytes => .bind .get ?_
    intro driver
    split_ifs
    · exact .pure _
    · exact .pure _
    · exact .bind (submit_does hP.submits _ _ _) fun _ => .pure _

theorem sendAndWait_does (hreclaimed : ∀ id, P (.reclaimed id)) (limit : Nat)
    (source : Producer (World σ slots size)) : Does P (sendAndWait limit source) := by
  refine .bind (send_does hP hreclaimed source) fun answer => ?_
  cases answer with
  | error cause => exact .pure _
  | ok id =>
    refine .bind (awaitAccepted_does hP limit) fun accepted => ?_
    split_ifs
    · exact .pure _
    · exact .pure _

theorem receive_does (bytes : Nat) (consume : Bytes → World σ slots size → World σ slots size)
    (pause : Nat → World σ slots size → World σ slots size) :
    Does P (receive bytes consume pause) := by
  refine .bind .get fun driver => ?_
  split_ifs
  swap
  · exact .pure _
  refine .bind (.looks hP.passive fun _ => submitPending_looks) fun pending => ?_
  split_ifs
  · exact .pure _
  refine .bind (request_does hP.submits bytes) fun answer => ?_
  cases answer with
  | error cause => exact .pure _
  | ok id =>
    refine .bind .get fun driver => .bind (.looks hP.passive fun _ => awaitDone_looks _ _ _) ?_
    intro done
    split_ifs
    · exact .bind .get fun _ => .bind (deliver_does hP _ _) fun _ => .pure _
    · exact .bind (.record (hP.passive _ trivial)) fun _ => .pure _

theorem drainAll_does (done : DoneBits)
    (consume : Bytes → World σ slots size → World σ slots size) (ids : List TransferId) :
    Does P (drainAll done consume ids) := by
  induction ids with
  | nil => exact .pure _
  | cons id ids ih =>
    have hdrain : Does P (drain done consume id) := by
      refine .bind .get fun driver => ?_
      split_ifs
      · exact .bind (deliver_does hP consume id) fun _ => .pure _
      · exact .pure _
    refine .bind hdrain fun drained => ?_
    split_ifs
    · exact .bind ih fun _ => .pure _
    · exact ih

omit [HasSlots slots] [RegisterBus (World σ slots size)] hP in
theorem advance_does (drained : List TransferId) :
    Does P (advance drained : DriverM σ slots size Unit) := by
  unfold advance
  cases drained.getLast? with
  | none => exact .pure _
  | some last => exact .change _

theorem refillStream_does (drained : Nat) :
    Does P (refillStream drained : DriverM σ slots size Unit) := by
  refine .bind .get fun driver => ?_
  cases driver.stream with
  | none => exact .pure _
  | some bytes =>
    refine .bind (refill_does hP bytes) fun refilled => ?_
    split_ifs
    · exact .record (hP.passive _ trivial)
    · exact .pure _

theorem collect_does (consume : Bytes → World σ slots size → World σ slots size) :
    Does P (collect consume) :=
  .bind (settledDone_does hP) fun done => .bind .get fun _ =>
    .bind (drainAll_does hP done consume _) fun drained => .bind (advance_does drained) fun _ =>
      .bind (refillStream_does hP _) fun _ => .pure _

theorem serviceInterrupt_does [InterruptLine (World σ slots size)]
    (hcleared : P (.write Register.irqStatus Irq.completed))
    (consume : Bytes → World σ slots size → World σ slots size) :
    Does P (serviceInterrupt consume) := by
  have hbody : Does P (onCompletion (collect consume)) := by
    refine .bind (claimCompletion_does (fun _ => hP.passive _ trivial) hcleared) fun claimed => ?_
    split_ifs
    · exact .bind (collect_does hP consume) fun _ => .pure _
    · exact .pure _
  exact .bind hbody fun _ => .bind (.alter _) fun _ => .pure _

theorem startStream_does (hcontrol : ∀ value, P (.write Register.control value))
    (hreleased : ∀ count, P (.released count)) (hcleared : P (.write Register.irqStatus Irq.all))
    (hmask : P (.write Register.irqMask Irq.queued)) (bytes : Nat) :
    Does P (startStream bytes : DriverM σ slots size (Except TransferError Nat)) := by
  refine .bind .get fun driver => ?_
  split_ifs
  swap
  · exact .pure _
  refine .bind .get fun driver => ?_
  cases driver.requestSize? bytes with
  | none => exact .pure _
  | some granted =>
    exact .bind (restart_does (fun _ => hP.passive _ trivial) hcontrol hreleased) fun _ =>
      .bind (.change _) fun _ => .bind (enableIrq_does hcleared hmask) fun _ =>
        .bind (refill_does hP granted) fun _ => .bind (.record (hP.passive _ trivial)) fun _ =>
          .pure _

end Transfers

end Driver
end DmaController

import DmaController.Proofs.Operations

/-!
What a program puts into the journal. Nothing is assumed about the world here: whatever it shows,
the program adds some actions to the journal, and the statements tell which, together with the
answer and the driver that go with them. There is one rule for each way to put a program together,
and one statement for each operation.
-/
namespace DmaController

/-- Actions that look at the device or tell of something, and do nothing. -/
def Action.IsPassive : Action → Prop
  | .read .. | .log _ | .offered _ | .delayed _ => True
  | _ => False

/-- Nothing was done. -/
def Passive (actions : List Action) : Prop := ∀ action ∈ actions, action.IsPassive

namespace Passive

variable {actions later : List Action} {action : Action}

theorem nil : Passive [] := fun _ hmem => absurd hmem List.not_mem_nil

theorem single (h : action.IsPassive) : Passive [action] := by
  intro other hmem
  obtain rfl := List.mem_singleton.1 hmem
  exact h

theorem append (h : Passive actions) (hlater : Passive later) : Passive (actions ++ later) :=
  List.forall_mem_append.2 ⟨h, hlater⟩

end Passive

variable {σ : Type} {slots size : Nat} {α β : Type}

/-- Run by this driver at any port, the program puts some actions into the journal and ends with
`Q`, which is told its answer, the driver that it leaves and those actions. -/
def Enters (program : DriverM σ slots size α)
    (Q : α → Driver slots size → List Action → Prop) (driver : Driver slots size) : Prop :=
  ∀ port : Port (World σ slots size), ∃ actions,
    (program.outcome driver port).2.journal.toList = port.journal.toList ++ actions ∧
    Q (program.outcome driver port).1.1 (program.outcome driver port).1.2 actions

namespace Enters

variable {driver : Driver slots size} {Q R : α → Driver slots size → List Action → Prop}

theorem mono {program : DriverM σ slots size α} (h : Enters program R driver)
    (himp : ∀ a d actions, R a d actions → Q a d actions) : Enters program Q driver := by
  intro port
  obtain ⟨actions, hjournal, hR⟩ := h port
  exact ⟨actions, hjournal, himp _ _ _ hR⟩

/-- Two statements about what one program enters. -/
theorem and {program : DriverM σ slots size α} (hQ : Enters program Q driver)
    (hR : Enters program R driver) :
    Enters program (fun a d actions => Q a d actions ∧ R a d actions) driver := by
  intro port
  obtain ⟨actions, hjournal, hQ⟩ := hQ port
  obtain ⟨actions', hjournal', hR⟩ := hR port
  obtain rfl : actions' = actions := List.append_cancel_left (hjournal'.symm.trans hjournal)
  exact ⟨actions', hjournal, hQ, hR⟩

theorem pure {a : α} (h : Q a driver []) :
    Enters (Pure.pure a : DriverM σ slots size α) Q driver :=
  fun _ => ⟨[], (List.append_nil _).symm, h⟩

theorem bind {program : DriverM σ slots size β} {next : β → DriverM σ slots size α}
    (h : Enters program
      (fun b d actions => Enters (next b) (fun a d' later => Q a d' (actions ++ later)) d) driver) :
    Enters (program >>= next) Q driver := by
  intro port
  obtain ⟨actions, hjournal, hnext⟩ := h port
  obtain ⟨later, hjournal', hQ⟩ := hnext (program.outcome driver port).2
  refine ⟨actions ++ later, ?_, hQ⟩
  rw [DriverM.outcome_bind, hjournal', hjournal, List.append_assoc]

/-- A program of which it is known what it enters, and then another one. -/
theorem seq {program : DriverM σ slots size β} {next : β → DriverM σ slots size α}
    {R : β → Driver slots size → List Action → Prop} (h : Enters program R driver)
    (hnext : ∀ b d actions, R b d actions →
      Enters (next b) (fun a d' later => Q a d' (actions ++ later)) d) :
    Enters (program >>= next) Q driver :=
  .bind (h.mono hnext)

theorem lift {program : BusM (World σ slots size) β} {next : β → BusM (World σ slots size) α}
    (h : Enters (Driver.onBus program) (fun b d actions =>
      Enters (Driver.onBus (next b)) (fun a d' later => Q a d' (actions ++ later)) d) driver) :
    Enters (Driver.onBus (program >>= next)) Q driver := .bind h

theorem get {next : Driver slots size → DriverM σ slots size α}
    (h : Enters (next driver) Q driver) : Enters (MonadState.get >>= next) Q driver :=
  fun port => h port

theorem world {Q : World σ slots size → Driver slots size → List Action → Prop}
    (h : ∀ world, Q world driver []) : Enters (Driver.onBus BusM.world) Q driver :=
  fun port => ⟨[], (List.append_nil _).symm, h port.world⟩

theorem alter {Q : Unit → Driver slots size → List Action → Prop}
    {change : World σ slots size → World σ slots size} (h : Q () driver []) :
    Enters (Driver.onBus (BusM.alter change)) Q driver :=
  fun _ => ⟨[], (List.append_nil _).symm, h⟩

theorem change {Q : Unit → Driver slots size → List Action → Prop}
    {f : Driver slots size → Driver slots size} (h : Q () (f driver) []) :
    Enters (modify f : DriverM σ slots size Unit) Q driver :=
  fun _ => ⟨[], (List.append_nil _).symm, h⟩

variable [RegisterBus (World σ slots size)]

theorem read {Q : Word → Driver slots size → List Action → Prop} {offset : Offset}
    (h : ∀ value, Q value driver [.read offset value]) :
    Enters (Driver.onBus (BusM.read offset : BusM (World σ slots size) Word)) Q driver :=
  fun _ => ⟨_, Array.toList_push .., h _⟩

theorem write {Q : Unit → Driver slots size → List Action → Prop} {offset : Offset} {value : Word}
    (h : Q () driver [.write offset value]) :
    Enters (Driver.onBus (BusM.write offset value : BusM (World σ slots size) Unit)) Q driver :=
  fun _ => ⟨_, Array.toList_push .., h⟩

theorem record {Q : Unit → Driver slots size → List Action → Prop} {action : Action}
    (h : Q () driver [action]) :
    Enters (Driver.record action : DriverM σ slots size Unit) Q driver :=
  fun _ => ⟨_, Array.toList_push .., h⟩

theorem log {Q : Unit → Driver slots size → List Action → Prop} {entry : LogEntry}
    (h : Q () driver [.log entry]) :
    Enters (Driver.log entry : DriverM σ slots size Unit) Q driver := .record h

end Enters

/-- Nothing was done, and the driver is as it was. -/
structure Untouched (driver d : Driver slots size) (actions : List Action) : Prop where
  driver_eq : d = driver
  passive : Passive actions

theorem Untouched.nil (driver : Driver slots size) : Untouched driver driver [] := ⟨rfl, .nil⟩

theorem Untouched.prepend {driver d : Driver slots size} {looked actions : List Action}
    (hlooked : Passive looked) (h : Untouched driver d actions) :
    Untouched driver d (looked ++ actions) := ⟨h.driver_eq, hlooked.append h.passive⟩

/-- The program does nothing but look and tell. -/
def Looks (program : DriverM σ slots size α) (driver : Driver slots size) : Prop :=
  Enters program (fun _ => Untouched driver) driver

/-- A program that only looks, and then another one. What is told of the other one has to bear a
look in front of it. -/
theorem Enters.look {driver : Driver slots size} {program : DriverM σ slots size β}
    {next : β → DriverM σ slots size α} {Q : α → Driver slots size → List Action → Prop}
    (hQ : ∀ {a d looked actions}, Passive looked → Q a d actions → Q a d (looked ++ actions))
    (h : Looks program driver) (hnext : ∀ b, Enters (next b) Q driver) :
    Enters (program >>= next) Q driver := by
  refine .seq h ?_
  intro b d looked h'
  obtain ⟨rfl, hlooked⟩ := h'
  exact (hnext b).mono fun _ _ _ => hQ hlooked

namespace Looks

variable {driver : Driver slots size}

theorem pure (a : α) : Looks (Pure.pure a : DriverM σ slots size α) driver :=
  Enters.pure (.nil driver)

theorem bind {program : DriverM σ slots size β} {next : β → DriverM σ slots size α}
    (h : Looks program driver) (hnext : ∀ b, Looks (next b) driver) :
    Looks (program >>= next) driver :=
  Enters.look .prepend h hnext

theorem get {next : Driver slots size → DriverM σ slots size α} (h : Looks (next driver) driver) :
    Looks (MonadState.get >>= next) driver := Enters.get h

theorem world : Looks (Driver.onBus BusM.world : DriverM σ slots size _) driver :=
  Enters.world fun _ => ⟨rfl, .nil⟩

theorem alter (change : World σ slots size → World σ slots size) :
    Looks (Driver.onBus (BusM.alter change)) driver := Enters.alter ⟨rfl, .nil⟩

variable [RegisterBus (World σ slots size)]

theorem remark {action : Action} (h : action.IsPassive) :
    Looks (Driver.record action : DriverM σ slots size Unit) driver :=
  Enters.record ⟨rfl, .single h⟩

theorem access (offset : Offset) :
    Looks (Driver.onBus (BusM.read offset) : DriverM σ slots size Word) driver :=
  Enters.read fun _ => ⟨rfl, .single trivial⟩

/-- A look at a register, whatever is made of its value. -/
theorem read (offset : Offset) (f : Word → α) :
    Looks (Driver.onBus (do return f (← BusM.read offset)) : DriverM σ slots size α) driver := by
  have h : Looks (Driver.onBus (BusM.read offset) >>= fun value =>
      Pure.pure (f value) : DriverM σ slots size α) driver :=
    .bind (.access offset) fun value => .pure _
  exact h

end Looks

/-- Whoever runs it, the program does only what `P` allows. -/
def Does (P : Action → Prop) (program : DriverM σ slots size α) : Prop :=
  ∀ driver, Enters program (fun _ _ actions => ∀ action ∈ actions, P action) driver

namespace Does

variable {P : Action → Prop}

theorem pure (a : α) : Does P (Pure.pure a : DriverM σ slots size α) :=
  fun _ => Enters.pure fun _ hmem => absurd hmem List.not_mem_nil

theorem bind {program : DriverM σ slots size β} {next : β → DriverM σ slots size α}
    (h : Does P program) (hnext : ∀ b, Does P (next b)) : Does P (program >>= next) := by
  refine fun driver => .seq (h driver) fun b d actions hactions => ?_
  exact (hnext b d).mono fun _ _ _ hlater => List.forall_mem_append.2 ⟨hactions, hlater⟩

theorem lift {program : BusM (World σ slots size) β} {next : β → BusM (World σ slots size) α}
    (h : Does P (Driver.onBus program)) (hnext : ∀ b, Does P (Driver.onBus (next b))) :
    Does P (Driver.onBus (program >>= next)) := .bind h hnext

theorem get : Does P (MonadState.get : DriverM σ slots size _) :=
  fun _ _ => ⟨[], (List.append_nil _).symm, fun _ hmem => absurd hmem List.not_mem_nil⟩

theorem alter (change : World σ slots size → World σ slots size) :
    Does P (Driver.onBus (BusM.alter change)) :=
  fun _ => Enters.alter fun _ hmem => absurd hmem List.not_mem_nil

theorem change (f : Driver slots size → Driver slots size) :
    Does P (modify f : DriverM σ slots size Unit) :=
  fun _ => Enters.change fun _ hmem => absurd hmem List.not_mem_nil

/-- What follows from doing only what is allowed follows for a program that does nothing else. -/
theorem elim {program : DriverM σ slots size α} {port : Port (World σ slots size)} {R : Prop}
    (h : Does P program) (driver : Driver slots size)
    (hR : ∃ actions, (program.outcome driver port).2.journal.toList = port.journal.toList ++ actions ∧
      ((∀ action ∈ actions, P action) → R)) : R := by
  obtain ⟨actions, hjournal, hactions⟩ := h driver port
  obtain ⟨actions', hjournal', hR⟩ := hR
  obtain rfl : actions' = actions := List.append_cancel_left (hjournal'.symm.trans hjournal)
  exact hR hactions

theorem looks {program : DriverM σ slots size α} (hP : ∀ action, action.IsPassive → P action)
    (h : ∀ driver, Looks program driver) : Does P program :=
  fun driver => (h driver).mono fun _ _ _ h' action hmem => hP action (h'.passive action hmem)

variable [RegisterBus (World σ slots size)]

theorem record {action : Action} (h : P action) :
    Does P (Driver.record action : DriverM σ slots size Unit) :=
  fun _ => Enters.record (List.forall_mem_singleton.2 h)

theorem read {offset : Offset} (h : ∀ value, P (.read offset value)) :
    Does P (Driver.onBus (BusM.read offset) : DriverM σ slots size Word) :=
  fun _ => Enters.read fun value => List.forall_mem_singleton.2 (h value)

theorem write {offset : Offset} {value : Word} (h : P (.write offset value)) :
    Does P (Driver.onBus (BusM.write offset value) : DriverM σ slots size Unit) :=
  fun _ => Enters.write (List.forall_mem_singleton.2 h)

/-- A register is read and written back. -/
theorem update {offset : Offset} {f : Word → Word} (hread : ∀ value, P (.read offset value))
    (hwrite : ∀ value, P (.write offset (f value))) :
    Does P (Driver.onBus (do BusM.write offset (f (← BusM.read offset))) :
      DriverM σ slots size Unit) := by
  have h : Does P (Driver.onBus (BusM.read offset) >>= fun value =>
      Driver.onBus (BusM.write offset (f value)) : DriverM σ slots size Unit) :=
    .bind (.read hread) fun value => .write (hwrite value)
  exact h

end Does

theorem Driver.requestSize?_congr {driver d : Driver slots size}
    (h : d.capacity = driver.capacity) (bytes : Nat) :
    d.requestSize? bytes = driver.requestSize? bytes := by
  unfold Driver.requestSize?
  rw [h]

/-- What a driver may do for a request of so many inbound bytes. -/
def Driver.MayRequest (driver : Driver slots size) (bytes : Nat) : Action → Prop
  | .submitted transfer =>
    transfer.direction = .inbound ∧ driver.requestSize? bytes = some transfer.length
  | .write offset _ => offset ≠ Register.control
  | .delivered .. | .reclaimed _ | .released _ => False
  | .read .. | .log _ | .offered _ | .delayed _ => True

/-- Inbound transfers of the size that is granted were submitted into free slots. -/
structure Requested (bytes : Nat) (driver d : Driver slots size) (actions : List Action) :
    Prop where
  cursor_eq : d.cursor = driver.cursor
  stream_eq : d.stream = driver.stream
  capacity_eq : d.capacity = driver.capacity
  slotAt_eq : ∀ i : Fin slots, (driver.pool.slotAt i).isInFlight = true →
    d.pool.slotAt i = driver.pool.slotAt i
  admits : ∀ action ∈ actions, driver.MayRequest bytes action

namespace Requested

variable {driver d d' : Driver slots size} {bytes : Nat} {actions later : List Action}

theorem look (h : Passive actions) : Requested bytes driver driver actions where
  cursor_eq := rfl
  stream_eq := rfl
  capacity_eq := rfl
  slotAt_eq _ _ := rfl
  admits action hmem := by
    have hpassive := h action hmem
    cases action <;> trivial

theorem trans (h : Requested bytes driver d actions) (h' : Requested bytes d d' later) :
    Requested bytes driver d' (actions ++ later) where
  cursor_eq := h'.cursor_eq.trans h.cursor_eq
  stream_eq := h'.stream_eq.trans h.stream_eq
  capacity_eq := h'.capacity_eq.trans h.capacity_eq
  slotAt_eq i hi := by
    have hslot := h.slotAt_eq i hi
    exact (h'.slotAt_eq i (by rw [hslot, hi])).trans hslot
  admits := by
    refine List.forall_mem_append.2 ⟨h.admits, fun action hmem => ?_⟩
    have hadmits := h'.admits action hmem
    cases action with
    | submitted transfer =>
      refine ⟨hadmits.1, ?_⟩
      rw [← Driver.requestSize?_congr h.capacity_eq]
      exact hadmits.2
    | _ => exact hadmits

theorem deliveries_eq (h : Requested bytes driver d actions) :
    actions.filterMap Action.delivery? = [] := by
  refine List.filterMap_eq_nil_iff.2 fun action hmem => ?_
  have hadmits := h.admits action hmem
  cases action with
  | delivered => exact hadmits.elim
  | _ => rfl

theorem granted_eq (h : Requested bytes driver d actions) {transfer : Transfer}
    (hmem : transfer ∈ actions.filterMap Action.submission?) :
    transfer.direction = .inbound ∧ driver.requestSize? bytes = some transfer.length := by
  obtain ⟨action, haction, hsubmitted⟩ := List.mem_filterMap.1 hmem
  have hadmits := h.admits action haction
  cases action with
  | submitted other =>
    obtain rfl := Option.some.inj hsubmitted
    exact hadmits
  | _ => cases hsubmitted

theorem submit [HasSlots slots] {granted : Nat} {id : TransferId} {address value : Word}
    {entry : LogEntry} (hsize : driver.requestSize? bytes = some granted)
    (hfree : (driver.pool.slot id).isInFlight = false) :
    Requested bytes driver (driver.submitted ⟨.inbound, id, granted, address⟩)
      [.submitted ⟨.inbound, id, granted, address⟩, .write Register.length value,
        .write Register.destination address, .write Register.submit submitBit, .log entry] where
  cursor_eq := rfl
  stream_eq := rfl
  capacity_eq := rfl
  slotAt_eq i hi := by
    refine (driver.pool.slotAt_submit id granted i).trans (if_neg ?_)
    rintro rfl
    cases hi.symm.trans hfree
  admits := by
    have hlength : Register.length ≠ Register.control := by decide
    have hdestination : Register.destination ≠ Register.control := by decide
    have hsubmit : Register.submit ≠ Register.control := by decide
    simp [Driver.MayRequest, hsize, hlength, hdestination, hsubmit]

end Requested

variable [RegisterBus (World σ slots size)]

namespace Driver

variable {driver : Driver slots size}

theorem submitPending_looks :
    Looks (onBus RegisterBlock.submitPending : DriverM σ slots size Bool) driver := .read _ _

theorem pendingSubmission_looks : Looks (pendingSubmission : DriverM σ slots size _) driver := by
  refine .bind submitPending_looks fun pending => ?_
  cases pending with
  | false => exact .pure none
  | true => exact .get (.pure _)

theorem doneBits_looks : Looks (doneBits : DriverM σ slots size DoneBits) driver :=
  .bind (.access Register.done) fun _ => .pure _

theorem settledDone_looks : Looks (settledDone : DriverM σ slots size DoneBits) driver := by
  refine .bind pendingSubmission_looks fun pending => .bind doneBits_looks fun done => ?_
  cases pending with
  | none => exact .pure done
  | some id => exact .pure _

theorem nextId?_looks : Looks (nextId? : DriverM σ slots size _) driver := by
  refine .bind (.read _ _) fun raw => ?_
  dsimp only
  split_ifs
  · exact .bind (.remark trivial) fun _ => .pure _
  · exact .pure _

theorem fill_looks [HasSlots slots] (source : Producer (World σ slots size)) (id : TransferId) :
    Looks (fill source id) driver :=
  .get (.bind .world fun _ => .bind (.remark trivial) fun _ => .bind (.alter _) fun _ => .pure _)

theorem awaitAccepted_looks (limit : Nat) :
    Looks (awaitAccepted limit : DriverM σ slots size Bool) driver := by
  induction limit with
  | zero => exact .pure false
  | succ limit ih =>
    refine .bind submitPending_looks fun pending => ?_
    split_ifs
    · exact ih
    · exact .pure true

theorem awaitDone_looks (pause : Nat → World σ slots size → World σ slots size) (id : TransferId)
    (pauses : Nat) : Looks (awaitDone pause id pauses) driver := by
  induction pauses with
  | zero => exact .bind settledDone_looks fun _ => .pure _
  | succ pauses ih =>
    refine .bind settledDone_looks fun done => ?_
    split_ifs
    · exact .pure true
    · exact .get (.bind (.remark trivial) fun _ => .bind (.alter _) fun _ => ih)

/-- The slot is marked and the transfer is programmed; what is not a write tells of it. -/
theorem submit_enters [HasSlots slots] (direction : Direction) (id : TransferId) (bytes : Nat) :
    Enters (submit direction id bytes : DriverM σ slots size Unit) (fun _ d actions =>
      let transfer : Transfer := ⟨direction, id, bytes, driver.address id⟩
      d = driver.submitted transfer ∧
        actions = [.submitted transfer, .write Register.length (BitVec.ofNat 32 bytes - 1),
          .write direction.register transfer.address, .write Register.submit submitBit,
          .log (.queued direction id bytes)]) driver := by
  unfold submit
  refine .get (.bind (.change (.bind (.record (.bind (.write ?_))))))
  cases direction with
  | inbound => exact .bind (.write (.bind (.write (.log ⟨rfl, rfl⟩))))
  | outbound => exact .bind (.write (.bind (.write (.log ⟨rfl, rfl⟩))))

theorem disable_enters : Enters (disable : DriverM σ slots size Unit) (fun _ d actions =>
    d = driver ∧ ∃ value, actions = [.read Register.control value,
      .write Register.control (value &&& ~~~ Control.enable)]) driver :=
  .lift (.read fun value => .write ⟨rfl, value, rfl⟩)

theorem enable_enters : Enters (enable : DriverM σ slots size Unit) (fun _ d actions =>
    d = driver ∧ ∃ value, actions = [.read Register.control value,
      .write Register.control (value ||| Control.enable)]) driver :=
  .lift (.read fun value => .write ⟨rfl, value, rfl⟩)

theorem enableIrq_enters : Enters (enableIrq : DriverM σ slots size Unit) (fun _ d actions =>
    d = driver ∧ actions = [.write Register.irqStatus Irq.all, .write Register.irqMask Irq.queued])
    driver :=
  .bind (.write (.write ⟨rfl, rfl⟩))

theorem restart_enters : Enters (restart : DriverM σ slots size Unit) (fun _ d _ =>
    d = driver.restarted) driver := by
  unfold restart
  refine .seq disable_enters ?_
  intro _ d _ h
  obtain ⟨rfl, -⟩ := h
  refine .seq enable_enters ?_
  intro _ d _ h
  obtain ⟨rfl, -⟩ := h
  exact .get (.bind (.record (.change rfl)))

variable [HasSlots slots]

theorem request_enters (bytes : Nat) :
    Enters (request bytes : DriverM σ slots size (Except TransferError TransferId))
      (fun answer d actions => (∀ cause, answer = .error cause → Untouched driver d actions) ∧
        ∀ id, answer = .ok id → Requested bytes driver d actions) driver := by
  unfold request
  refine .get ?_
  cases hsize : driver.requestSize? bytes with
  | none => exact .pure ⟨fun _ _ => .nil driver, by simp⟩
  | some granted =>
    refine .look ?_ nextId?_looks fun id? => ?_
    · exact fun hlooked h => ⟨fun cause hcause => (h.1 cause hcause).prepend hlooked,
        fun id hid => (Requested.look hlooked).trans (h.2 id hid)⟩
    · cases id? with
      | none => exact .pure ⟨fun _ _ => .nil driver, by simp⟩
      | some id =>
        refine .get ?_
        split_ifs with hbusy
        · exact .pure ⟨fun _ _ => .nil driver, by simp⟩
        · refine .seq (submit_enters _ _ _) ?_
          intro _ d actions h
          obtain ⟨rfl, rfl⟩ := h
          refine .pure ⟨by simp, fun _ _ => ?_⟩
          exact .submit hsize (by simpa using hbusy)

theorem requestUpTo_enters (bytes room : Nat) :
    Enters (requestUpTo bytes room : DriverM σ slots size Nat)
      (fun _ => Requested bytes driver) driver := by
  induction room generalizing driver with
  | zero => exact .pure (.look .nil)
  | succ room ih =>
    refine .look (fun hlooked h => (Requested.look hlooked).trans h) submitPending_looks
      fun pending => ?_
    split_ifs
    · exact .pure (.look .nil)
    refine .seq (request_enters bytes) ?_
    intro answer d actions h
    obtain ⟨hrefused, hgranted⟩ := h
    cases answer with
    | ok id =>
      refine .seq ih fun _ d' later h => .pure ?_
      exact (hgranted id rfl).trans (h.trans (.look .nil))
    | error cause =>
      obtain ⟨rfl, hactions⟩ := hrefused _ rfl
      cases cause with
      | queueFull => exact .pure (.look (hactions.append .nil))
      | _ => exact .bind (.log (.pure (.look (hactions.append (.append (.single trivial) .nil)))))

theorem refill_enters (bytes : Nat) :
    Enters (refill bytes : DriverM σ slots size Nat) (fun _ => Requested bytes driver) driver :=
  .get (requestUpTo_enters bytes _)

theorem deliver_enters (consume : Bytes → World σ slots size → World σ slots size)
    (id : TransferId) : Enters (deliver consume id) (fun _ d actions =>
      d = driver.withPool (driver.pool.release id) ∧ ∃ data : Bytes,
        data.size = min (driver.pool.slot id).size size ∧ actions = [.delivered id data])
      driver := by
  unfold deliver
  refine .get (.bind (.world fun world => ?_))
  exact .bind (.record (.bind (.alter (.change ⟨rfl, _, Memory.size_bytes .., rfl⟩))))

end Driver
end DmaController

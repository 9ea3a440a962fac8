import DmaController.Proofs.Conduct
import DmaController.Proofs.Harvest
import DmaController.Proofs.Ledger

/-!
Transfers are conserved on any bus. Every operation of a driver keeps the books of its pool, whatever
the registers show. So, wherever a driver comes that was started on a bus of which nothing is known,
the transfers that were queued are in flight, or were delivered, reclaimed or given up; a slot is
handed to the hardware between two deliveries from it; and a collection answers with the number of
its deliveries.
-/
namespace DmaController

variable {σ : Type} {slots size : Nat} {α β : Type}

variable [HasSlots slots]

/-- Run by this driver, the program keeps the books of its pool. -/
def Books (program : DriverM σ slots size α) (driver : Driver slots size) : Prop :=
  Enters program (fun _ d actions => Ledger driver.pool actions d.pool) driver

namespace Books

variable {driver : Driver slots size}

theorem pure (a : α) : Books (Pure.pure a : DriverM σ slots size α) driver :=
  Enters.pure (.nil _)

/-- A program of which it is known how it ends, and then another one. -/
theorem seq {program : DriverM σ slots size β} {next : β → DriverM σ slots size α}
    {R : β → Driver slots size → Prop}
    (h : Enters program (fun b d actions => Ledger driver.pool actions d.pool ∧ R b d) driver)
    (hnext : ∀ b d, R b d → Books (next b) d) : Books (program >>= next) driver := by
  refine Enters.seq h ?_
  intro b d actions h
  exact (hnext b d h.2).mono fun _ _ _ => h.1.append

theorem bind {program : DriverM σ slots size β} {next : β → DriverM σ slots size α}
    (h : Books program driver) (hnext : ∀ b d, Books (next b) d) :
    Books (program >>= next) driver :=
  .seq (R := fun _ _ => True) (h.mono fun _ _ _ h' => ⟨h', trivial⟩) fun b d _ => hnext b d

theorem get {next : Driver slots size → DriverM σ slots size α} (h : Books (next driver) driver) :
    Books (MonadState.get >>= next) driver := Enters.get h

theorem alter (change : World σ slots size → World σ slots size) :
    Books (Driver.onBus (BusM.alter change)) driver := Enters.alter (.nil _)

theorem change {f : Driver slots size → Driver slots size}
    (h : (f driver).pool = driver.pool) :
    Books (modify f : DriverM σ slots size Unit) driver :=
  Enters.change (h ▸ .nil _)

theorem looks {program : DriverM σ slots size α} (h : Looks program driver) :
    Books program driver := by
  refine h.mono fun _ _ _ h' => ?_
  rw [h'.driver_eq]
  exact .idle h'.passive.isIdle

/-- After a look the driver is as it was. -/
theorem look {program : DriverM σ slots size β} {next : β → DriverM σ slots size α}
    (h : Looks program driver) (hnext : ∀ b, Books (next b) driver) :
    Books (program >>= next) driver := by
  exact Enters.look (fun hlooked h' => h'.prepend hlooked) h hnext

variable [RegisterBus (World σ slots size)]

theorem record {action : Action} (h : action.IsIdle) :
    Books (Driver.record action : DriverM σ slots size Unit) driver :=
  Enters.record (.idle (List.forall_mem_singleton.2 h))

theorem write {offset : Offset} {value : Word} (h : offset ≠ Register.submit) :
    Books (Driver.onBus (BusM.write offset value) : DriverM σ slots size Unit) driver :=
  Enters.write (.idle (List.forall_mem_singleton.2 h))

/-- A register is read and written back. -/
theorem update {offset : Offset} {f : Word → Word} (h : offset ≠ Register.submit) :
    Books (Driver.onBus (do BusM.write offset (f (← BusM.read offset))) :
      DriverM σ slots size Unit) driver := by
  have h : Books (Driver.onBus (BusM.read offset) >>= fun value =>
      Driver.onBus (BusM.write offset (f value)) : DriverM σ slots size Unit) driver :=
    .look (.access offset) fun value => .write h
  exact h

end Books

variable [RegisterBus (World σ slots size)]

namespace Driver

variable {driver : Driver slots size}

theorem submit_books (direction : Direction) {id : TransferId} (bytes : Nat)
    (hfree : (driver.pool.slot id).isInFlight = false) :
    Books (submit direction id bytes : DriverM σ slots size Unit) driver := by
  refine (submit_enters direction id bytes).mono fun _ d actions h => ?_
  obtain ⟨rfl, rfl⟩ := h
  exact .cons (.submit driver.pool ⟨direction, id, bytes, driver.address id⟩ hfree)
    (.single (.idle _ trivial))

theorem deliver_books (consume : Bytes → World σ slots size → World σ slots size)
    {id : TransferId} (hid : (driver.pool.slot id).transferId? = some id) :
    Books (deliver consume id) driver := by
  refine (deliver_enters consume id).mono fun _ d actions h => ?_
  obtain ⟨rfl, data, -, rfl⟩ := h
  exact .single (.deliver driver.pool id data hid)

theorem reclaim_books (id : TransferId) :
    Enters (reclaim id : DriverM σ slots size Bool) (fun freed d actions =>
      Ledger driver.pool actions d.pool ∧ (freed = true → (d.pool.slot id).isInFlight = false))
      driver := by
  unfold reclaim
  refine .get ?_
  cases hslot : (driver.pool.slot id).transferId? with
  | none => exact .pure ⟨.nil _, fun _ => congrArg Option.isSome hslot⟩
  | some previous =>
    refine .look ?_ settledDone_looks fun done => ?_
    · exact fun hlooked h =>
        ⟨h.1.prepend hlooked, h.2⟩
    · split_ifs
      · refine .bind (.record (.bind (.change (.pure ⟨?_, fun _ => ?_⟩))))
        · exact .single (.reclaim driver.pool id previous hslot)
        · exact congrArg Slot.isInFlight (driver.pool.slot_release_self id)
      · exact .pure ⟨.nil _, by simp⟩

/-- The slot that was found is free. -/
theorem claimSlot_books :
    Enters (claimSlot : DriverM σ slots size (Except TransferError TransferId))
      (fun answer d actions => Ledger driver.pool actions d.pool ∧
        ∀ id, answer = .ok id → (d.pool.slot id).isInFlight = false) driver := by
  have hlook : ∀ {a : Except TransferError TransferId} {d : Driver slots size}
      {looked actions : List Action}, Passive looked →
      (Ledger driver.pool actions d.pool ∧
        ∀ id, a = .ok id → (d.pool.slot id).isInFlight = false) →
      Ledger driver.pool (looked ++ actions) d.pool ∧
        ∀ id, a = .ok id → (d.pool.slot id).isInFlight = false :=
    fun hlooked h => ⟨h.1.prepend hlooked, h.2⟩
  unfold claimSlot
  refine .get ?_
  split_ifs
  swap
  · exact .pure ⟨.nil _, by simp⟩
  refine .look hlook submitPending_looks fun pending => ?_
  split_ifs
  · exact .pure ⟨.nil _, by simp⟩
  refine .look hlook nextId?_looks fun id? => ?_
  cases id? with
  | none => exact .pure ⟨.nil _, by simp⟩
  | some id =>
    refine .seq (reclaim_books id) ?_
    intro freed d actions h
    obtain ⟨hledger, hfree⟩ := h
    split_ifs with hfreed
    · refine .pure ⟨hledger.append (.nil _), fun other hother => ?_⟩
      obtain rfl := Except.ok.inj hother
      exact hfree hfreed
    · exact .pure ⟨hledger.append (.nil _), by simp⟩

theorem send_books (source : Producer (World σ slots size)) : Books (send source) driver := by
  unfold send
  refine .seq claimSlot_books fun answer d hfree => ?_
  cases answer with
  | error cause => exact .pure _
  | ok id =>
    refine .look (fill_looks source id) fun bytes => .get ?_
    split_ifs
    · exact .pure _
    · exact .pure _
    · exact .bind (submit_books _ _ (hfree id rfl)) fun _ _ => .pure _

theorem sendAndWait_books (limit : Nat) (source : Producer (World σ slots size)) :
    Books (sendAndWait limit source) driver := by
  refine .bind (send_books source) fun answer d => ?_
  cases answer with
  | error cause => exact .pure _
  | ok id =>
    refine .look (awaitAccepted_looks limit) fun accepted => ?_
    split_ifs
    · exact .pure _
    · exact .pure _

/-- A transfer that was requested holds its slot under its own id. -/
theorem request_books (bytes : Nat) :
    Enters (request bytes : DriverM σ slots size (Except TransferError TransferId))
      (fun answer d actions => Ledger driver.pool actions d.pool ∧
        ∀ id, answer = .ok id → (d.pool.slot id).transferId? = some id) driver := by
  unfold request
  refine .get ?_
  cases driver.requestSize? bytes with
  | none => exact .pure ⟨.nil _, by simp⟩
  | some granted =>
    refine .look ?_ nextId?_looks fun id? => ?_
    · exact fun hlooked h =>
        ⟨h.1.prepend hlooked, h.2⟩
    · cases id? with
      | none => exact .pure ⟨.nil _, by simp⟩
      | some id =>
        refine .get ?_
        split_ifs with hbusy
        · exact .pure ⟨.nil _, by simp⟩
        · refine .seq ((submit_enters .inbound id granted).and
            (submit_books .inbound granted (by simpa using hbusy))) ?_
          intro _ d actions h
          obtain ⟨⟨rfl, -⟩, hledger⟩ := h
          refine .pure ⟨hledger.append (.nil _), fun other hother => ?_⟩
          obtain rfl := Except.ok.inj hother
          exact congrArg Slot.transferId? (driver.pool.slot_submit_self id granted)

theorem refill_books (bytes : Nat) : Books (refill bytes : DriverM σ slots size Nat) driver := by
  have hrequests : ∀ (room : Nat) (driver : Driver slots size),
      Books (requestUpTo bytes room : DriverM σ slots size Nat) driver := by
    intro room
    induction room with
    | zero => exact fun _ => .pure 0
    | succ room ih =>
      refine fun driver => .look submitPending_looks fun pending => ?_
      split_ifs
      · exact .pure 0
      refine .seq (request_books bytes) fun answer d _ => ?_
      cases answer with
      | ok id => exact .bind (ih d) fun _ _ => .pure _
      | error cause =>
        cases cause with
        | queueFull => exact .pure 0
        | _ => exact .bind (.record trivial) fun _ _ => .pure 0
  exact .get (hrequests _ driver)

theorem receive_books (bytes : Nat)
    (consume : Bytes → World σ slots size → World σ slots size)
    (pause : Nat → World σ slots size → World σ slots size) :
    Books (receive bytes consume pause) driver := by
  unfold receive
  refine .get ?_
  split_ifs
  swap
  · exact .pure _
  refine .look submitPending_looks fun pending => ?_
  split_ifs
  · exact .pure _
  refine .seq (request_books bytes) fun answer d hid => ?_
  cases answer with
  | error cause => exact .pure _
  | ok id =>
    refine .get (.look (awaitDone_looks pause id _) fun done => ?_)
    split_ifs
    · exact .get (.bind (deliver_books consume (hid id rfl)) fun _ _ => .pure _)
    · exact .bind (.record trivial) fun _ _ => .pure _

theorem drainAll_books (done : DoneBits)
    (consume : Bytes → World σ slots size → World σ slots size) (ids : List TransferId) :
    Books (drainAll done consume ids) driver := by
  induction ids generalizing driver with
  | nil => exact .pure _
  | cons id ids ih =>
    have hdrain : Books (drain done consume id) driver := by
      refine .get ?_
      split_ifs with hdrains
      · rw [Bool.and_eq_true, beq_iff_eq] at hdrains
        exact .bind (deliver_books consume hdrains.2) fun _ _ => .pure _
      · exact .pure _
    refine .bind hdrain fun drained d => ?_
    split_ifs
    · exact .bind ih fun _ _ => .pure _
    · exact ih

/-- What is drained is delivered, so it was in flight. -/
theorem reap_books (consume : Bytes → World σ slots size → World σ slots size) :
    Enters (reap consume) (fun drained d actions => Ledger driver.pool actions d.pool ∧
      (actions.filterMap Action.delivery?).length = drained.length ∧
      drained.length ≤ driver.inFlight) driver := by
  unfold reap
  refine .seq settledDone_looks ?_
  intro done d looked h
  obtain ⟨rfl, hlooked⟩ := h
  refine .get (.seq ((drainAll_enters done consume d.cursor.nodup_lap d).and
    (drainAll_books done consume _)) ?_)
  intro _ d' actions h
  obtain ⟨⟨served, rfl, -, hdrained⟩, hledger⟩ := h
  refine .seq (advance_enters _ d') ?_
  intro _ d'' moved h
  obtain ⟨rfl, rfl⟩ := h
  have hall := hledger.prepend hlooked
  have hdeliveries : (looked ++ actions).filterMap Action.delivery? = served := by
    rw [List.filterMap_append, deliveries_of_idle hlooked.isIdle, hdrained.actions_eq,
      List.filterMap_map]
    exact List.filterMap_some
  have hqueued : (looked ++ actions).countP Action.isQueue = 0 := by
    refine List.countP_eq_zero.2 fun action hmem => ?_
    rw [hdrained.actions_eq] at hmem
    rcases List.mem_append.1 hmem with hmem | hmem
    · have hpassive := hlooked action hmem
      cases action <;> first | exact Bool.false_ne_true | exact hpassive.elim
    · obtain ⟨entry, -, rfl⟩ := List.mem_map.1 hmem
      exact Bool.false_ne_true
  have hbalance := hall.balance
  rw [hdeliveries, hqueued] at hbalance
  refine .pure ?_
  simp only [List.append_nil, List.length_map]
  refine ⟨hall, congrArg List.length hdeliveries, ?_⟩
  change served.length ≤ d.pool.inFlight
  omega

/-- A collection answers with the number of its deliveries, and those were in flight before. -/
theorem collect_books (consume : Bytes → World σ slots size → World σ slots size) :
    Enters (collect consume) (fun collected d actions => Ledger driver.pool actions d.pool ∧
      (actions.filterMap Action.delivery?).length = collected ∧ collected ≤ driver.inFlight)
      driver := by
  have hrefill : ∀ (drained : Nat) (d : Driver slots size),
      Books (refillStream drained : DriverM σ slots size Unit) d := by
    refine fun drained d => .get ?_
    cases d.stream with
    | none => exact .pure _
    | some bytes =>
      refine .bind (refill_books bytes) fun refilled d' => ?_
      split
      · exact .record trivial
      · exact .pure _
  rw [collect_eq]
  refine .seq (reap_books consume) ?_
  intro drained d actions h
  obtain ⟨hledger, hdeliveries, hle⟩ := h
  refine .seq ((refillStream_enters _ d).and (hrefill _ d)) ?_
  intro _ d' later h
  obtain ⟨⟨hrequested, -⟩, hledger'⟩ := h
  have hnone := hrequested.deliveries_eq
  refine .pure ?_
  rw [List.append_nil]
  refine ⟨hledger.append hledger', ?_, hle⟩
  rw [List.filterMap_append, hnone, List.append_nil]
  exact hdeliveries

omit [HasSlots slots] in
theorem claimCompletion_enters :
    Enters (claimCompletion : DriverM σ slots size Bool) (fun _ d actions =>
      d = driver ∧ ∀ action ∈ actions, action.IsIdle) driver := by
  have hflags : Looks (irqFlags : DriverM σ slots size IrqFlags) driver :=
    .bind (.access _) fun _ => .pure _
  refine .look (fun hlooked h => ⟨h.1, List.forall_mem_append.2 ⟨hlooked.isIdle, h.2⟩⟩) hflags ?_
  intro flags
  have hstatus : Register.irqStatus ≠ Register.submit := by decide
  split_ifs
  · exact .bind (.write (.pure ⟨rfl, List.forall_mem_singleton.2 hstatus⟩))
  · exact .pure ⟨rfl, List.forall_mem_nil _⟩

theorem claimCompletion_books : Books (claimCompletion : DriverM σ slots size Bool) driver := by
  refine claimCompletion_enters.mono fun _ d actions h => ?_
  rw [h.1]
  exact .idle h.2

theorem enableIrq_books : Books (enableIrq : DriverM σ slots size Unit) driver :=
  .bind (.write (by decide)) fun _ _ => .write (by decide)

theorem restart_books : Books (restart : DriverM σ slots size Unit) driver := by
  refine .bind (.update (by decide)) fun _ d => .bind (.update (by decide)) fun _ d' => .get ?_
  exact Enters.bind (.record (.change (.single (.release d'.pool))))

theorem reset_books : Books (reset : DriverM σ slots size Unit) driver :=
  .bind restart_books fun _ _ => .change rfl

theorem startStream_books (bytes : Nat) :
    Books (startStream bytes : DriverM σ slots size (Except TransferError Nat)) driver := by
  refine .get ?_
  split_ifs
  swap
  · exact .pure _
  refine .get ?_
  cases driver.requestSize? bytes with
  | none => exact .pure _
  | some granted =>
    refine .bind restart_books fun _ _ => .bind (.change rfl) fun _ _ => ?_
    exact .bind enableIrq_books fun _ _ => .bind (refill_books granted) fun _ _ =>
      .bind (.record trivial) fun _ _ => .pure _

/-- The interrupt routine answers with the number of its deliveries, if it collects. -/
theorem serviceInterrupt_books [InterruptLine (World σ slots size)]
    (consume : Bytes → World σ slots size → World σ slots size) :
    Enters (serviceInterrupt consume) (fun collected d actions =>
      Ledger driver.pool actions d.pool ∧
        (actions.filterMap Action.delivery?).length = collected.getD 0 ∧
        collected.getD 0 ≤ driver.inFlight) driver := by
  unfold serviceInterrupt onCompletion
  refine .bind (.seq claimCompletion_enters ?_)
  intro claimed d claims h
  obtain ⟨rfl, hclaims⟩ := h
  have hnone := deliveries_of_idle hclaims
  split_ifs
  · refine .seq (collect_books consume) ?_
    intro collected d' actions h
    obtain ⟨hledger, hdeliveries, hle⟩ := h
    refine .pure (.bind (.alter (.pure ?_)))
    simp only [List.append_nil, List.filterMap_append, hnone, List.nil_append]
    exact ⟨.append (.idle hclaims) hledger, hdeliveries, hle⟩
  · refine .pure (.bind (.alter (.pure ?_)))
    simp only [List.append_nil, hnone]
    exact ⟨.idle hclaims, rfl, Nat.zero_le _⟩

end Driver

/-- What a caller may ask of a driver, with the callbacks that go with it. -/
inductive Operation [InterruptLine (World σ slots size)] :
    {α : Type} → DriverM σ slots size α → Prop
  | send (source : Producer (World σ slots size)) : Operation (Driver.send source)
  | sendAndWait (limit : Nat) (source : Producer (World σ slots size)) :
      Operation (Driver.sendAndWait limit source)
  | receive (bytes : Nat) (consume : Bytes → World σ slots size → World σ slots size)
      (pause : Nat → World σ slots size → World σ slots size) :
      Operation (Driver.receive bytes consume pause)
  | collect (consume : Bytes → World σ slots size → World σ slots size) :
      Operation (Driver.collect consume)
  | serviceInterrupt (consume : Bytes → World σ slots size → World σ slots size) :
      Operation (Driver.serviceInterrupt consume)
  | claimCompletion : Operation Driver.claimCompletion
  | startStream (bytes : Nat) : Operation (Driver.startStream bytes)
  | reset : Operation Driver.reset
  | enable : Operation Driver.enable
  | disable : Operation Driver.disable
  | pause : Operation Driver.pause
  | resume : Operation Driver.resume
  | enableIrq : Operation Driver.enableIrq
  | disableIrq : Operation Driver.disableIrq
  | acknowledge : Operation Driver.acknowledge
  | registerSink (sink : Word) : Operation (Driver.registerSink sink)
  | isEnabled : Operation Driver.isEnabled
  | isPaused : Operation Driver.isPaused
  | progress : Operation Driver.progress
  | irqFlags : Operation Driver.irqFlags
  | doneBits : Operation Driver.doneBits

theorem Operation.books [InterruptLine (World σ slots size)] {program : DriverM σ slots size α}
    (h : Operation program) (driver : Driver slots size) : Books program driver := by
  cases h with
  | send source => exact Driver.send_books source
  | sendAndWait limit source => exact Driver.sendAndWait_books limit source
  | receive bytes consume pause => exact Driver.receive_books bytes consume pause
  | collect consume => exact (Driver.collect_books consume).mono fun _ _ _ h => h.1
  | serviceInterrupt consume =>
    exact (Driver.serviceInterrupt_books consume).mono fun _ _ _ h => h.1
  | claimCompletion => exact Driver.claimCompletion_books
  | startStream bytes => exact Driver.startStream_books bytes
  | reset => exact Driver.reset_books
  | enable | disable | pause | resume => exact .update (by decide)
  | enableIrq => exact Driver.enableIrq_books
  | disableIrq => exact .write (by decide)
  | acknowledge | registerSink => exact .alter _
  | isEnabled | isPaused | progress => exact .looks (.read _ _)
  | irqFlags | doneBits => exact .look (.access _) fun _ => .pure _

/-- Where a driver and its bus come to that was started on that bus. Between two operations anything
may have become of the world. -/
inductive Course [InterruptLine (World σ slots size)] :
    Driver slots size → Port (World σ slots size) → Prop
  | start {world : World σ slots size} {config : Config} {pool : Pool slots size}
      {driver : Driver slots size} {port : Port (World σ slots size)}
      (h : (Driver.start config pool).run ⟨world, #[]⟩ = (.ok driver, port)) : Course driver port
  | perform {driver : Driver slots size} {port : Port (World σ slots size)} {α : Type}
      {program : DriverM σ slots size α} (h : Course driver port) (hprogram : Operation program) :
      Course (program.outcome driver port).1.2 (program.outcome driver port).2
  | meanwhile {driver : Driver slots size} {port : Port (World σ slots size)}
      (h : Course driver port) (world : World σ slots size) :
      Course driver { port with world }

namespace Course

variable [InterruptLine (World σ slots size)]
variable {driver : Driver slots size} {port : Port (World σ slots size)}

/-- The books of a driver open with a pool that has no slot in flight. -/
theorem ledger (h : Course driver port) : ∃ pool : Pool slots size, pool.inFlight = 0 ∧
    Ledger pool port.journal.toList driver.pool := by
  induction h with
  | @start world config pool driver port h =>
    have hflags : Register.flags ≠ Register.submit := by decide
    have hcontrol : Register.control ≠ Register.submit := by decide
    obtain ⟨actions, hjournal, hactions⟩ := Driver.start_does (P := Action.IsIdle)
      (fun _ _ _ => trivial) (fun _ => trivial) (fun _ => hflags) (fun _ => hcontrol) config pool
      driver ⟨world, #[]⟩
    rw [Driver.outcome_onBus, h] at hjournal
    obtain rfl : port.journal.toList = actions := hjournal.trans (List.nil_append _)
    have hfresh := Driver.start_fresh h
    refine ⟨driver.pool, ?_, .idle hactions⟩
    rw [Pool.inFlight, hfresh.slots_eq]
    exact @Pool.inFlight_replicate _ size 0 0
  | @perform driver port _ program _ hprogram ih =>
    obtain ⟨pool, hpool, hledger⟩ := ih
    obtain ⟨actions, hjournal, hbooks⟩ := hprogram.books driver port
    rw [hjournal]
    exact ⟨pool, hpool, hledger.append hbooks⟩
  | meanwhile _ _ ih => exact ih

/-- Transfers are conserved: those that were queued are in flight, or were delivered, reclaimed or
given up; a slot is handed to the hardware between two deliveries from it; and a collection answers
with the number of its deliveries, which were all in flight before. -/
theorem conserved (h : Course driver port) :
    port.journal.queued = driver.inFlight + port.journal.deliveries.length +
      port.journal.reclaims.length + port.journal.releases.sum ∧
    (∀ front between back id data id' data',
      port.journal.toList =
        front ++ .delivered id data :: (between ++ .delivered id' data' :: back) →
      Pool.index slots id' = Pool.index slots id →
      ∃ transfer : Transfer, Pool.index slots transfer.id = Pool.index slots id ∧
        transfer.handover <:+: between) ∧
    (∀ consume, ∃ actions,
      ((Driver.collect consume).outcome driver port).2.journal.toList =
        port.journal.toList ++ actions ∧
      ((Driver.collect consume).outcome driver port).1.1 =
        (actions.filterMap Action.delivery?).length ∧
      ((Driver.collect consume).outcome driver port).1.1 ≤ driver.inFlight) ∧
    ∀ consume, ∃ actions,
      ((Driver.serviceInterrupt consume).outcome driver port).2.journal.toList =
        port.journal.toList ++ actions ∧
      ((Driver.serviceInterrupt consume).outcome driver port).1.1.getD 0 =
        (actions.filterMap Action.delivery?).length ∧
      ((Driver.serviceInterrupt consume).outcome driver port).1.1.getD 0 ≤ driver.inFlight := by
  obtain ⟨pool, hpool, hledger⟩ := h.ledger
  refine ⟨?_, ?_, fun consume => ?_, fun consume => ?_⟩
  · have hbalance := hledger.balance
    rw [hpool, Nat.zero_add] at hbalance
    exact hbalance
  · intro front between back id data id' data' hjournal hslot
    rw [hjournal] at hledger
    exact hledger.between hslot
  · obtain ⟨actions, hjournal, -, hdeliveries, hle⟩ := Driver.collect_books consume port
    exact ⟨actions, hjournal, hdeliveries.symm, hle⟩
  · obtain ⟨actions, hjournal, -, hdeliveries, hle⟩ := Driver.serviceInterrupt_books consume port
    exact ⟨actions, hjournal, hdeliveries.symm, hle⟩

/-- A round in which a core names its first id once more, a transfer is sent, done and collected. -/
def round (rig : Rig 2 16) : Rig 2 16 :=
  let sent := (Call.send fun _ => (#[1], 1)).perform (rig.stimulate (.nextId 0))
  Call.collect.perform (sent.stimulate (.complete 0))

theorem round_course {rig : Rig 2 16} (h : Course rig.driver rig.port) :
    Course (round rig).driver (round rig).port := by
  have hnamed := h.meanwhile (Sim.stimulate rig.port.world (.nextId 0))
  have hsent := hnamed.perform (.send ⟨fun _ => (#[1], 1), Sim.occur .fill⟩)
  exact (hsent.meanwhile _).perform (.collect Sim.consume)

/-- Two transfers with one id were delivered from one slot. -/
theorem conserved_twice :
    let rig := round (round Rig.small)
    rig.port.journal.deliveries.map (·.1.val) = [0, 0] ∧ rig.driver.inFlight = 0 ∧
      rig.port.journal.queued = rig.driver.inFlight + rig.port.journal.deliveries.length +
        rig.port.journal.reclaims.length + rig.port.journal.releases.sum := by
  have hstart : Course Rig.small.driver Rig.small.port := .start Rig.small_started
  have hcourse := round_course (round_course hstart)
  exact ⟨by decide +kernel, by decide +kernel, (conserved hcourse).1⟩

end Course
end DmaController

import DmaController.Proofs.Conduct
import DmaController.Proofs.Harvest
import Mathlib.Algebra.GroupWithZero.Nat
import Mathlib.Data.Nat.Find

/-!
How long a blocking request waits. After it has queued its transfer it looks at the done bits,
pauses and looks again, until its transfer is seen done or its pauses are spent. Main statements:
after how many pauses which answer comes, and for how long it pauses altogether, whatever the device
does.
-/
namespace DmaController

variable {σ : Type} {slots size : Nat}

/-- Either one of the first moments is the first to show it, or none of them does. -/
theorem first_or_never (shown : Nat → Bool) (limit : Nat) :
    (∃ count ≤ limit, shown count = true ∧ ∀ k < count, shown k = false) ∨
      ∀ k ≤ limit, shown k = false := by
  by_cases hsome : ∃ count, count ≤ limit ∧ shown count = true
  · obtain ⟨hle, hshown⟩ := Nat.find_spec hsome
    refine .inl ⟨Nat.find hsome, hle, hshown, fun k hk => Bool.eq_false_iff.2 fun hthis => ?_⟩
    exact Nat.find_min hsome hk ⟨Nat.le_trans hk.le hle, hthis⟩
  · exact .inr fun k hk => Bool.eq_false_iff.2 fun hthis => hsome ⟨k, hk, hthis⟩

namespace Config

variable (config : Config)

/-- So many pauses fit into the timeout, unless not even one does. -/
theorem pauses_le {count : Nat} (h : count ≤ config.pollCount) :
    count * config.pollPause ≤ config.timeout.toNat ∨
      config.timeout.toNat < config.pollPause ∧ count ≤ 1 := by
  rcases Nat.lt_or_ge config.timeout.toNat config.pollPause with hshort | hlong
  · rw [pollCount, Nat.div_eq_of_lt hshort] at h
    exact .inr ⟨hshort, h⟩
  · have hone : 1 ≤ config.timeout.toNat / config.pollPause :=
      Nat.div_pos hlong config.pollPause_pos
    rw [pollCount, Nat.max_eq_left hone] at h
    exact .inl ((Nat.mul_le_mul_right _ h).trans (Nat.div_mul_le_self _ _))

/-- All pauses together are no more microseconds than a word can hold. -/
theorem pauses_lt : config.pollCount * config.pollPause < 2 ^ 32 := by
  have htimeout := config.timeout.isLt
  have hpause : config.pollPause < 2 ^ 32 := max_lt config.pollInterval.isLt (by decide)
  rcases config.pauses_le le_rfl with hfits | ⟨-, hone⟩
  · exact Nat.lt_of_le_of_lt hfits htimeout
  · exact Nat.lt_of_le_of_lt (Nat.mul_le_mul_right _ hone) (by omega)

end Config

namespace Journal

variable (journal : Journal) (action : Action)

theorem delays_push :
    delays (Array.push journal action) = journal.delays ++ action.delay?.toList := by
  rw [delays, Array.toList_push, List.filterMap_append]
  cases h : action.delay? <;> simp [delays, h]

theorem deliveries_push :
    deliveries (Array.push journal action) = journal.deliveries ++ action.delivery?.toList := by
  rw [deliveries, Array.toList_push, List.filterMap_append]
  cases h : action.delivery? <;> simp [deliveries, h]

end Journal

section Port

variable [RegisterBus (World σ slots size)] (port : Port (World σ slots size))

namespace Port

/-- After a look at the submit bit and then at the done bits. -/
def looked : Port (World σ slots size) :=
  ((BusM.read Register.done).run ((BusM.read Register.submit).run port).2).2

/-- A look shows that no submission is pending, and then that the done bit of `id` is set. -/
def showsDone (id : TransferId) : Bool :=
  let submit := (BusM.read Register.submit).run port
  !submit.1.hasAny submitBit && DoneBits.isDone ⟨((BusM.read Register.done).run submit.2).1⟩ id

/-- After a look and a pause of so many microseconds. -/
def paused (pause : Nat → World σ slots size → World σ slots size) (length : Nat) :
    Port (World σ slots size) where
  world := pause length (RegisterBus.note (.delayed length) port.looked.world)
  journal := port.looked.journal.push (.delayed length)

variable {port}

theorem delays_looked : port.looked.journal.delays = port.journal.delays := by
  simp [looked, BusM.read_run, Journal.delays_push, Action.delay?]

theorem deliveries_looked : port.looked.journal.deliveries = port.journal.deliveries := by
  simp [looked, BusM.read_run, Journal.deliveries_push, Action.delivery?]

variable {pause : Nat → World σ slots size → World σ slots size} {length : Nat}

/-- After so many looks, each with a pause behind it. -/
def waited (port : Port (World σ slots size))
    (pause : Nat → World σ slots size → World σ slots size) (length : Nat) :
    Nat → Port (World σ slots size)
  | 0 => port
  | count + 1 => (port.paused pause length).waited pause length count

theorem delays_waited (count : Nat) : (port.waited pause length count).journal.delays =
    port.journal.delays ++ List.replicate count length := by
  induction count generalizing port with
  | zero => exact (List.append_nil _).symm
  | succ count ih =>
    rw [waited, ih, paused, Journal.delays_push, delays_looked, List.append_assoc]
    rfl

theorem deliveries_waited (count : Nat) :
    (port.waited pause length count).journal.deliveries = port.journal.deliveries := by
  induction count generalizing port with
  | zero => rfl
  | succ count ih =>
    rw [waited, ih, paused, Journal.deliveries_push, deliveries_looked]
    exact List.append_nil _

end Port
end Port

namespace Driver

variable [RegisterBus (World σ slots size)]

variable {driver : Driver slots size} {id : TransferId} {port : Port (World σ slots size)}
variable {pause : Nat → World σ slots size → World σ slots size}

/-- While `id` is the newest submission, its done bit counts once nothing is pending. -/
theorem settledDone_newest (hnewest : driver.newest = some id)
    (port : Port (World σ slots size)) :
    (settledDone.outcome driver port).1.1.isDone id = port.showsDone id ∧
      (settledDone.outcome driver port).1.2 = driver ∧
      (settledDone.outcome driver port).2 = port.looked := by
  rw [settledDone_outcome]
  refine ⟨?_, rfl, rfl⟩
  unfold settled Port.showsDone
  rw [hnewest]
  cases hpending : ((BusM.read Register.submit).run port).1.hasAny submitBit with
  | true => simp [hpending, DoneBits.isDone_without_self]
  | false => simp [hpending]

theorem awaitDone_zero (hnewest : driver.newest = some id) :
    (awaitDone pause id 0).outcome driver port = ((port.showsDone id, driver), port.looked) := by
  obtain ⟨hshows, hdriver, hlooked⟩ := settledDone_newest hnewest port
  rw [← hshows, ← hlooked]
  exact congrArg (fun d => ((_, d), _)) hdriver

theorem awaitDone_succ (hnewest : driver.newest = some id) (pauses : Nat) :
    (awaitDone pause id (pauses + 1)).outcome driver port =
      if port.showsDone id then ((true, driver), port.looked)
      else (awaitDone pause id pauses).outcome driver
        (port.paused pause driver.config.pollPause) := by
  obtain ⟨hshows, hdriver, hlooked⟩ := settledDone_newest hnewest port
  rw [awaitDone, DriverM.outcome_bind, hshows, hdriver, hlooked]
  split_ifs
  · rfl
  · rfl

variable {pauses : Nat}

/-- The first look that shows the newest submission done ends the wait. -/
theorem awaitDone_done (hnewest : driver.newest = some id) {count : Nat} (hle : count ≤ pauses)
    (hshows : (port.waited pause driver.config.pollPause count).showsDone id = true)
    (hfirst : ∀ k < count, (port.waited pause driver.config.pollPause k).showsDone id = false) :
    (awaitDone pause id pauses).outcome driver port =
      ((true, driver), (port.waited pause driver.config.pollPause count).looked) := by
  induction count generalizing pauses port with
  | zero =>
    cases pauses with
    | zero =>
      rw [awaitDone_zero hnewest]
      exact congrArg (fun shown => ((shown, driver), _)) hshows
    | succ pauses =>
      rw [awaitDone_succ hnewest]
      exact if_pos hshows
  | succ count ih =>
    cases pauses with
    | zero => exact absurd hle (Nat.not_succ_le_zero count)
    | succ pauses =>
      have hnot : port.showsDone id = false := hfirst 0 (Nat.zero_lt_succ count)
      rw [awaitDone_succ hnewest, hnot, if_neg Bool.false_ne_true]
      exact ih (Nat.le_of_succ_le_succ hle) hshows fun k hk =>
        hfirst (k + 1) (Nat.succ_lt_succ hk)

/-- A wait that no look ends spends its pauses. -/
theorem awaitDone_spent (hnewest : driver.newest = some id)
    (hnever : ∀ k ≤ pauses,
      (port.waited pause driver.config.pollPause k).showsDone id = false) :
    (awaitDone pause id pauses).outcome driver port =
      ((false, driver), (port.waited pause driver.config.pollPause pauses).looked) := by
  induction pauses generalizing port with
  | zero =>
    have hnot : port.showsDone id = false := hnever 0 le_rfl
    rw [awaitDone_zero hnewest, hnot]
    rfl
  | succ pauses ih =>
    have hnot : port.showsDone id = false := hnever 0 (Nat.zero_le _)
    rw [awaitDone_succ hnewest, hnot, if_neg Bool.false_ne_true]
    exact ih fun k hk => hnever (k + 1) (Nat.succ_le_succ hk)

variable [HasSlots slots]

/-- A blocking request as far as the submission of its transfer. -/
def enqueue (bytes : Nat) : DriverM σ slots size (Except TransferError TransferId) := do
  unless (← get).directions.inbound do return .error .notSupported
  if ← onBus RegisterBlock.submitPending then return .error .queueFull
  request bytes

/-- The rest of a blocking request, whose transfer is `id`. -/
def await (id : TransferId) (consume : Bytes → World σ slots size → World σ slots size)
    (pause : Nat → World σ slots size → World σ slots size) :
    DriverM σ slots size (Except Failure Nat) := do
  unless ← awaitDone pause id (← get).config.pollCount do
    log (.timedOut id)
    return .error (.wait .timeout)
  let received := ((← get).pool.slot id).size
  deliver consume id
  return .ok received

theorem receive_outcome (bytes : Nat) (consume : Bytes → World σ slots size → World σ slots size)
    (pause : Nat → World σ slots size → World σ slots size) (driver : Driver slots size)
    (port : Port (World σ slots size)) :
    let queued := (enqueue bytes).outcome driver port
    (receive bytes consume pause).outcome driver port =
      match queued.1.1 with
      | .error cause => ((.error (.transfer cause), queued.1.2), queued.2)
      | .ok id => (await id consume pause).outcome queued.1.2 queued.2 := by
  intro queued
  subst queued
  unfold receive enqueue
  rw [DriverM.outcome_get, DriverM.outcome_get]
  split_ifs
  swap
  · rfl
  rw [DriverM.outcome_bind, DriverM.outcome_bind]
  split_ifs
  · rfl
  rw [DriverM.outcome_bind]
  cases ((request bytes).outcome ((onBus RegisterBlock.submitPending).outcome driver port).1.2
    ((onBus RegisterBlock.submitPending).outcome driver port).2).1.1 with
  | error cause => rfl
  | ok id => rfl

/-- A transfer that was queued has the size that is granted. It is in the slot of its id and the
newest. -/
theorem enqueue_enters (bytes : Nat) (driver : Driver slots size) :
    Enters (enqueue bytes : DriverM σ slots size (Except TransferError TransferId))
      (fun answer d _ => ∀ id, answer = .ok id → ∃ granted,
        driver.requestSize? bytes = some granted ∧
          d = driver.submitted ⟨.inbound, id, granted, driver.address id⟩) driver := by
  unfold enqueue request
  refine .get ?_
  split_ifs
  swap
  · exact .pure fun _ hanswer => by cases hanswer
  refine .look (fun _ h => h) submitPending_looks fun pending => ?_
  split_ifs
  · exact .pure fun _ hanswer => by cases hanswer
  refine .get ?_
  cases driver.requestSize? bytes with
  | none => exact .pure fun _ hanswer => by cases hanswer
  | some granted =>
    refine .look (fun _ h => h) nextId?_looks fun id? => ?_
    cases id? with
    | none => exact .pure fun _ hanswer => by cases hanswer
    | some id =>
      refine .get ?_
      split_ifs
      · exact .pure fun _ hanswer => by cases hanswer
      refine .seq (submit_enters .inbound id granted) fun _ d _ hsubmitted => .pure ?_
      rintro _ ⟨⟩
      exact ⟨granted, rfl, hsubmitted.1⟩

theorem enqueue_does {P : Action → Prop} (hP : Submits P) (bytes : Nat) :
    Does P (enqueue bytes : DriverM σ slots size (Except TransferError TransferId)) := by
  refine .bind .get fun driver => ?_
  split_ifs
  swap
  · exact .pure _
  refine .bind (.lift (.read (hP.read _)) fun _ => .pure _) fun pending => ?_
  split_ifs
  · exact .pure _
  · exact request_does hP bytes

section Await

variable {driver : Driver slots size} {id : TransferId} {port : Port (World σ slots size)}
variable {consume : Bytes → World σ slots size → World σ slots size}
variable {pause : Nat → World σ slots size → World σ slots size}

theorem await_done (hnewest : driver.newest = some id) {count : Nat}
    (hle : count ≤ driver.config.pollCount)
    (hshows : (port.waited pause driver.config.pollPause count).showsDone id = true)
    (hfirst : ∀ k < count, (port.waited pause driver.config.pollPause k).showsDone id = false) :
    (await id consume pause).outcome driver port =
      ((.ok (driver.pool.slot id).size, driver.withPool (driver.pool.release id)),
        driver.handOn consume (port.waited pause driver.config.pollPause count).looked id) := by
  unfold await
  rw [DriverM.outcome_get, DriverM.outcome_bind, awaitDone_done hnewest hle hshows hfirst]
  rfl

theorem await_spent (hnewest : driver.newest = some id)
    (hnever : ∀ k ≤ driver.config.pollCount,
      (port.waited pause driver.config.pollPause k).showsDone id = false) :
    (await id consume pause).outcome driver port =
      ((.error (.wait .timeout), driver), ((BusM.log (.timedOut id)).run
        (port.waited pause driver.config.pollPause driver.config.pollCount).looked).2) := by
  unfold await
  rw [DriverM.outcome_get, DriverM.outcome_bind, awaitDone_spent hnewest hnever]
  rfl

end Await

/-- Up to the submission of its transfer a request neither pauses nor passes anything on. -/
theorem enqueue_journal (bytes : Nat) (driver : Driver slots size)
    (port : Port (World σ slots size)) :
    ((enqueue bytes).outcome driver port).2.journal.delays = port.journal.delays ∧
      ((enqueue bytes).outcome driver port).2.journal.deliveries = port.journal.deliveries := by
  have hsubmits : Submits fun action => action.delay? = none ∧ action.delivery? = none :=
    ⟨fun _ _ => ⟨rfl, rfl⟩, fun _ => ⟨rfl, rfl⟩, fun _ => ⟨rfl, rfl⟩, fun _ _ _ => ⟨rfl, rfl⟩⟩
  obtain ⟨actions, hjournal, hactions⟩ := enqueue_does hsubmits bytes driver port
  unfold Journal.delays Journal.deliveries
  rw [hjournal, List.filterMap_append, List.filterMap_append,
    List.filterMap_eq_nil_iff.2 fun action hmem => (hactions action hmem).1,
    List.filterMap_eq_nil_iff.2 fun action hmem => (hactions action hmem).2]
  exact ⟨List.append_nil _, List.append_nil _⟩

end Driver

variable [HasSlots slots]

/-- A blocking request was served: its transfer was seen done at `seen`, where `driver` passed the
bytes of its slot on, once, and took the slot back. -/
structure Received [RegisterBus (World σ slots size)] (driver : Driver slots size)
    (before seen : Port (World σ slots size)) (id : TransferId)
    (consume : Bytes → World σ slots size → World σ slots size) (pauses : List Nat)
    (ran : (Except Failure Nat × Driver slots size) × Port (World σ slots size)) : Prop where
  answer_eq : ran.1.1 = .ok (driver.pool.slot id).size
  driver_eq : ran.1.2 = driver.withPool (driver.pool.release id)
  port_eq : ran.2 = driver.handOn consume seen id
  delays_eq : ran.2.journal.delays = before.journal.delays ++ pauses
  deliveries_eq : ran.2.journal.deliveries = before.journal.deliveries ++
    [(id, seen.world.memory.bytes (Pool.index slots id) (driver.pool.slot id).size)]

omit [HasSlots slots] in
/-- A blocking request was given up: nothing was passed on, and its slot stays as it is in `driver`.
-/
structure TimedOut (driver : Driver slots size) (before : Port (World σ slots size))
    (pauses : List Nat)
    (ran : (Except Failure Nat × Driver slots size) × Port (World σ slots size)) : Prop where
  answer_eq : ran.1.1 = .error (.wait .timeout)
  driver_eq : ran.1.2 = driver
  delays_eq : ran.2.journal.delays = before.journal.delays ++ pauses
  deliveries_eq : ran.2.journal.deliveries = before.journal.deliveries

namespace Driver

section Waits

variable [RegisterBus (World σ slots size)] {driver : Driver slots size} {id : TransferId}
variable {before port : Port (World σ slots size)}
variable {pause : Nat → World σ slots size → World σ slots size}

theorem await_received (hnewest : driver.newest = some id)
    (hdelays : port.journal.delays = before.journal.delays)
    (hdeliveries : port.journal.deliveries = before.journal.deliveries) {count : Nat}
    (hle : count ≤ driver.config.pollCount)
    (hshows : (port.waited pause driver.config.pollPause count).showsDone id = true)
    (hfirst : ∀ k < count, (port.waited pause driver.config.pollPause k).showsDone id = false)
    (consume : Bytes → World σ slots size → World σ slots size) :
    Received driver before (port.waited pause driver.config.pollPause count).looked id consume
      (List.replicate count driver.config.pollPause)
      ((await id consume pause).outcome driver port) := by
  rw [await_done hnewest hle hshows hfirst]
  refine ⟨rfl, rfl, rfl, ?_, ?_⟩
  · rw [handOn, Journal.delays_push, Port.delays_looked, Port.delays_waited, hdelays]
    exact List.append_nil _
  · rw [handOn, Journal.deliveries_push, Port.deliveries_looked, Port.deliveries_waited,
      hdeliveries]
    rfl

/-- A wait that is given up never comes to its consumer. -/
theorem await_timedOut (hnewest : driver.newest = some id)
    (hdelays : port.journal.delays = before.journal.delays)
    (hdeliveries : port.journal.deliveries = before.journal.deliveries)
    (hnever : ∀ k ≤ driver.config.pollCount,
      (port.waited pause driver.config.pollPause k).showsDone id = false) :
    ∃ ran, (∀ consume, (await id consume pause).outcome driver port = ran) ∧
      TimedOut driver before (List.replicate driver.config.pollCount driver.config.pollPause)
        ran := by
  refine ⟨_, fun consume => await_spent hnewest hnever, rfl, rfl, ?_, ?_⟩
  · rw [BusM.log, BusM.record_run, Journal.delays_push, Port.delays_looked, Port.delays_waited,
      hdelays]
    exact List.append_nil _
  · rw [BusM.log, BusM.record_run, Journal.deliveries_push, Port.deliveries_looked,
      Port.deliveries_waited, hdeliveries]
    exact List.append_nil _

theorem receive_enqueued {bytes : Nat}
    (henqueued : ((enqueue bytes).outcome driver port).1.1 = .ok id)
    (consume : Bytes → World σ slots size → World σ slots size)
    (pause : Nat → World σ slots size → World σ slots size) :
    (receive bytes consume pause).outcome driver port = (await id consume pause).outcome
      ((enqueue bytes).outcome driver port).1.2 ((enqueue bytes).outcome driver port).2 := by
  have hreceive := receive_outcome bytes consume pause driver port
  simp only [henqueued] at hreceive
  exact hreceive

/-- A request that queued its transfer goes on with the bytes that are granted, until the first look
that shows the transfer done, or until its pauses are spent. -/
theorem receive_waits {bytes : Nat}
    (henqueued : ((enqueue bytes).outcome driver port).1.1 = .ok id)
    (pause : Nat → World σ slots size → World σ slots size) :
    let queued := (enqueue bytes).outcome driver port
    let length := driver.config.pollPause
    let after := queued.2.waited pause length
    ∃ granted, driver.requestSize? bytes = some granted ∧
      queued.1.2 = driver.submitted ⟨.inbound, id, granted, driver.address id⟩ ∧
      (∀ count ≤ driver.config.pollCount, (after count).showsDone id = true →
        (∀ k < count, (after k).showsDone id = false) →
        ∀ consume, Received queued.1.2 port (after count).looked id consume
          (List.replicate count length) ((receive bytes consume pause).outcome driver port)) ∧
      ((∀ k ≤ driver.config.pollCount, (after k).showsDone id = false) →
        ∃ ran, (∀ consume, (receive bytes consume pause).outcome driver port = ran) ∧
          TimedOut queued.1.2 port (List.replicate driver.config.pollCount length) ran) := by
  intro queued length after
  obtain ⟨-, -, hqueued⟩ := enqueue_enters bytes driver port
  obtain ⟨granted, hsize, hdriver⟩ := hqueued id henqueued
  obtain ⟨hdelays, hdeliveries⟩ := enqueue_journal bytes driver port
  let filed := driver.submitted ⟨.inbound, id, granted, driver.address id⟩
  have hnewest : filed.newest = some id := rfl
  have hreceive : ∀ consume, (receive bytes consume pause).outcome driver port =
      (await id consume pause).outcome filed queued.2 := by
    intro consume
    rw [receive_enqueued henqueued, hdriver]
  rw [show queued.1.2 = filed from hdriver]
  refine ⟨granted, hsize, rfl, fun count hle hshows hfirst consume => ?_, fun hnever => ?_⟩
  · rw [hreceive]
    exact await_received hnewest hdelays hdeliveries hle hshows hfirst consume
  · simp only [hreceive]
    exact await_timedOut hnewest hdelays hdeliveries hnever

end Waits

variable [RegisterBus (World σ slots size)]

/-- A request pauses a number of times that fits into the timeout, or once. -/
theorem receive_pauses (bytes : Nat) (driver : Driver slots size) (port : Port (World σ slots size))
    (consume : Bytes → World σ slots size → World σ slots size)
    (pause : Nat → World σ slots size → World σ slots size) :
    ∃ count ≤ driver.config.pollCount,
      ((receive bytes consume pause).outcome driver port).2.journal.delays =
        port.journal.delays ++ List.replicate count driver.config.pollPause := by
  cases hanswer : ((enqueue bytes).outcome driver port).1.1 with
  | error cause =>
    have hreceive := receive_outcome bytes consume pause driver port
    simp only [hanswer] at hreceive
    rw [hreceive]
    exact ⟨0, Nat.zero_le _, (enqueue_journal bytes driver port).1.trans (List.append_nil _).symm⟩
  | ok id =>
    obtain ⟨granted, -, -, hreceived, htimedOut⟩ := receive_waits hanswer pause
    let after := ((enqueue bytes).outcome driver port).2.waited pause driver.config.pollPause
    have hcases := first_or_never (fun count => (after count).showsDone id) driver.config.pollCount
    rcases hcases with ⟨count, hle, hshows, hfirst⟩ | hnever
    · exact ⟨count, hle, (hreceived count hle hshows hfirst consume).delays_eq⟩
    · obtain ⟨ran, hran, htimedOut⟩ := htimedOut hnever
      rw [hran]
      exact ⟨_, le_rfl, htimedOut.delays_eq⟩

/-- A request pauses no longer than its timeout, unless a single pause is longer than that. -/
theorem receive_patience (bytes : Nat) (driver : Driver slots size)
    (port : Port (World σ slots size))
    (consume : Bytes → World σ slots size → World σ slots size)
    (pause : Nat → World σ slots size → World σ slots size) :
    ∃ spent, ((receive bytes consume pause).outcome driver port).2.journal.delays =
        port.journal.delays ++ spent ∧
      spent.sum ≤ max driver.config.timeout.toNat driver.config.pollPause ∧
      (driver.config.timeout.toNat < spent.sum ↔
        driver.config.timeout.toNat < driver.config.pollPause ∧ spent ≠ []) := by
  obtain ⟨count, hle, hdelays⟩ := receive_pauses bytes driver port consume pause
  refine ⟨_, hdelays, ?_⟩
  rw [List.sum_replicate_nat, Ne, List.replicate_eq_nil_iff]
  rcases driver.config.pauses_le hle with hfits | ⟨hshort, hone⟩
  · refine ⟨Nat.le_trans hfits (Nat.le_max_left ..), fun hlong => absurd hfits hlong.not_ge, ?_⟩
    rintro ⟨hshort, hsome⟩
    exact hshort.trans_le (Nat.le_mul_of_pos_left _ (Nat.pos_of_ne_zero hsome))
  · rcases Nat.le_one_iff_eq_zero_or_eq_one.1 hone with rfl | rfl
    · simp
    · simp [hshort]

/-- A driver that waits ten microseconds between two looks pauses once for a transfer that does not
complete, although its timeout is zero. -/
theorem receive_patience_exceeded :
    let driver : Driver 1 16 :=
      { Rig.single.driver with config := { timeout := 0, pollInterval := 10 } }
    let ran := (receive 2 Sim.consume Sim.pause).outcome driver Rig.single.port
    ran.1.1 = .error (.wait .timeout) ∧ ran.2.journal.delays = [10] ∧
      driver.config.timeout.toNat < ran.2.journal.delays.sum ∧
      ran.2.journal.delays.sum ≤ max driver.config.timeout.toNat driver.config.pollPause := by
  intro driver ran
  obtain ⟨spent, hdelays, hle, -⟩ := receive_patience 2 driver Rig.single.port Sim.consume Sim.pause
  have hnone : Rig.single.port.journal.delays = [] := by decide +kernel
  rw [hnone, List.nil_append] at hdelays
  refine ⟨by decide +kernel, by decide +kernel, by decide +kernel, ?_⟩
  rw [hdelays]
  exact hle

end Driver
end DmaController

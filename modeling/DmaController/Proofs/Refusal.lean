import DmaController.Proofs.Entries
import DmaController.Proofs.Session

/-!
Refused requests. A request that is refused has written no register and leaves its driver as it was,
but for one thing: an outbound request claims its slot before it learns what its producer has
filled, so a refusal for the length may have taken a completed transfer's slot back. This holds of
every driver, in whatever state it is and whatever the device shows.
-/
namespace DmaController

variable {σ : Type} {slots size : Nat} [HasSlots slots]

/-- What a look for a slot leaves: the driver as it was, or with one slot reclaimed. -/
inductive Cleared (driver : Driver slots size) : Driver slots size → List Action → Prop
  | intact {actions} (h : Passive actions) : Cleared driver driver actions
  | reclaimed {id previous front back} (hslot : (driver.pool.slot id).transferId? = some previous)
      (hfront : Passive front) (hback : Passive back) :
      Cleared driver (driver.withPool (driver.pool.release id))
        (front ++ .reclaimed previous :: back)

namespace Cleared

variable {driver d : Driver slots size} {actions more : List Action}

theorem prepend (hmore : Passive more) (h : Cleared driver d actions) :
    Cleared driver d (more ++ actions) := by
  cases h with
  | intact h => exact .intact (hmore.append h)
  | reclaimed hslot hfront hback =>
    rw [← List.append_assoc]
    exact .reclaimed hslot (hmore.append hfront) hback

theorem append (h : Cleared driver d actions) (hmore : Passive more) :
    Cleared driver d (actions ++ more) := by
  cases h with
  | intact h => exact .intact (h.append hmore)
  | reclaimed hslot hfront hback =>
    rw [List.append_assoc, List.cons_append]
    exact .reclaimed hslot hfront (hback.append hmore)

end Cleared

/-- What a refusal leaves. Only a wrong length is found out after a slot may have been reclaimed. -/
def Refused (driver d : Driver slots size) (actions : List Action) (cause : TransferError) : Prop :=
  Untouched driver d actions ∨
    ((cause = .bufferExceeded ∨ cause = .invalidLength) ∧ Cleared driver d actions)

variable [RegisterBus (World σ slots size)]

namespace Driver

section Entries

variable {driver : Driver slots size}

theorem reclaim_enters (id : TransferId) :
    Enters (reclaim id : DriverM σ slots size Bool) (fun freed d actions =>
      Cleared driver d actions ∧ (freed = false → Untouched driver d actions)) driver := by
  unfold reclaim
  refine .get ?_
  cases hslot : (driver.pool.slot id).transferId? with
  | none => exact .pure ⟨.intact .nil, by simp⟩
  | some previous =>
    refine .look ?_ settledDone_looks fun done => ?_
    · exact fun hlooked h => ⟨h.1.prepend hlooked, fun hfreed => (h.2 hfreed).prepend hlooked⟩
    · split_ifs
      · exact .bind (.record (.bind (.change (.pure ⟨.reclaimed hslot .nil .nil, by simp⟩))))
      · exact .pure ⟨.intact .nil, fun _ => .nil driver⟩

theorem claimSlot_enters :
    Enters (claimSlot : DriverM σ slots size (Except TransferError TransferId))
      (fun answer d actions => Cleared driver d actions ∧
        ∀ cause, answer = .error cause → Untouched driver d actions) driver := by
  have hrefuse : ∀ cause : TransferError,
      Enters (pure (.error cause) : DriverM σ slots size (Except TransferError TransferId))
        (fun answer d actions => Cleared driver d actions ∧
          ∀ cause, answer = .error cause → Untouched driver d actions) driver :=
    fun _ => .pure ⟨.intact .nil, fun _ _ => .nil driver⟩
  unfold claimSlot
  refine .get ?_
  split_ifs
  swap
  · exact hrefuse .notSupported
  refine .look (fun hlooked h => ⟨h.1.prepend hlooked, fun cause hcause =>
    (h.2 cause hcause).prepend hlooked⟩) submitPending_looks fun pending => ?_
  split_ifs
  · exact hrefuse .queueFull
  refine .look (fun hlooked h => ⟨h.1.prepend hlooked, fun cause hcause =>
    (h.2 cause hcause).prepend hlooked⟩) nextId?_looks fun id? => ?_
  cases id? with
  | none => exact hrefuse .deviceError
  | some id =>
    refine .seq (reclaim_enters id) ?_
    intro freed d actions h
    obtain ⟨hcleared, hkept⟩ := h
    split_ifs with hfreed
    · exact .pure ⟨hcleared.append .nil, by simp⟩
    · obtain ⟨rfl, hactions⟩ := hkept (by simpa using hfreed)
      exact .pure ⟨.intact (hactions.append .nil), fun _ _ => ⟨rfl, hactions.append .nil⟩⟩

theorem send_enters (source : Producer (World σ slots size)) :
    Enters (send source) (fun answer d actions =>
      ∀ cause, answer = .error cause → Refused driver d actions cause) driver := by
  unfold send
  refine .seq claimSlot_enters ?_
  intro answer d actions h
  obtain ⟨hcleared, hkept⟩ := h
  cases answer with
  | error cause =>
    obtain ⟨rfl, hactions⟩ := hkept cause rfl
    exact .pure fun _ _ => .inl ⟨rfl, hactions.append .nil⟩
  | ok id =>
    refine .seq (fill_looks source id) ?_
    intro bytes d filled h
    obtain ⟨rfl, hfilled⟩ := h
    have hcleared' := hcleared.append (hfilled.append .nil)
    refine .get ?_
    split_ifs
    · refine .pure fun cause hcause => .inr ⟨.inl ?_, hcleared'⟩
      exact (Except.error.inj hcause).symm
    · refine .pure fun cause hcause => .inr ⟨.inr ?_, hcleared'⟩
      exact (Except.error.inj hcause).symm
    · exact .seq (submit_enters _ _ _) fun _ _ _ _ => .pure (by simp)

/-- Staying for the hardware is never refused. -/
theorem sendAndWait_enters (limit : Nat) (source : Producer (World σ slots size)) :
    Enters (sendAndWait limit source) (fun answer d actions =>
      ∀ cause, answer = some (.error cause) → Refused driver d actions cause) driver := by
  unfold sendAndWait
  refine .seq (send_enters source) ?_
  intro answer d actions h
  cases answer with
  | error refusal =>
    refine .pure fun cause hcause => ?_
    obtain rfl := Except.error.inj (Option.some.inj hcause)
    rw [List.append_nil]
    exact h refusal rfl
  | ok id =>
    refine .seq (awaitAccepted_looks limit) fun accepted d looked _ => ?_
    split_ifs
    · exact .pure (by simp)
    · exact .pure (by simp)

theorem receive_enters (bytes : Nat)
    (consume : Bytes → World σ slots size → World σ slots size)
    (pause : Nat → World σ slots size → World σ slots size) :
    Enters (receive bytes consume pause) (fun answer d actions =>
      ∀ cause, answer = .error (.transfer cause) → Untouched driver d actions) driver := by
  unfold receive
  refine .get ?_
  split_ifs
  swap
  · exact .pure fun _ _ => .nil driver
  refine .look (fun hlooked h cause hcause => (h cause hcause).prepend hlooked)
    submitPending_looks fun pending => ?_
  split_ifs
  · exact .pure fun _ _ => .nil driver
  refine .seq (request_enters bytes) ?_
  intro answer d actions h
  cases answer with
  | error cause =>
    obtain ⟨rfl, hactions⟩ := h.1 cause rfl
    exact .pure fun _ _ => ⟨rfl, hactions.append .nil⟩
  | ok id =>
    -- The transfer is queued: only the wait can still fail.
    refine .get (.seq (awaitDone_looks pause id _) fun done d' looked h' => ?_)
    split_ifs
    · exact .get (.seq (deliver_enters consume id) fun _ _ _ _ => .pure (by simp))
    · exact .bind (.log (.pure (by simp)))

theorem startStream_enters (bytes : Nat) :
    Enters (startStream bytes : DriverM σ slots size (Except TransferError Nat))
      (fun answer d actions => ∀ cause, answer = .error cause → Untouched driver d actions)
      driver := by
  unfold startStream
  refine .get ?_
  split_ifs
  swap
  · exact .pure fun _ _ => .nil driver
  refine .get ?_
  cases driver.requestSize? bytes with
  | none => exact .pure fun _ _ => .nil driver
  | some granted =>
    refine .seq restart_enters fun _ _ _ _ => .bind (.change ?_)
    exact .seq enableIrq_enters fun _ _ _ _ => .seq (refill_enters granted) fun _ _ _ _ =>
      .bind (.log (.pure (by simp)))

end Entries
end Driver

/-- What a request has done that was refused: no register was written, and nothing of the driver has
changed but, if that is `allowed`, the owner of one slot that was reclaimed. -/
structure Harmless (allowed : Prop) (driver d : Driver slots size) (before after : Journal) :
    Prop where
  cursor_eq : d.cursor = driver.cursor
  stream_eq : d.stream = driver.stream
  newest_eq : d.newest = driver.newest
  size_eq : ∀ i : Fin slots, (d.pool.slotAt i).size = (driver.pool.slotAt i).size
  owner_eq : ∃ actions, after.toList = before.toList ++ actions ∧
    (∀ offset value, .write offset value ∉ actions) ∧
    ((∀ i : Fin slots, (d.pool.slotAt i).owner = (driver.pool.slotAt i).owner) ∨
      allowed ∧ ∃ id previous, (driver.pool.slot id).owner = .inFlight previous ∧
        .reclaimed previous ∈ actions ∧ ∀ i : Fin slots, (d.pool.slotAt i).owner =
          if i = Pool.index slots id then .free else (driver.pool.slotAt i).owner)

theorem Slot.owner_eq {slot : Slot} {id : TransferId} (h : slot.transferId? = some id) :
    slot.owner = .inFlight id := by
  cases howner : slot.owner with
  | free => simp [transferId?, howner] at h
  | inFlight other =>
    rw [transferId?, howner] at h
    exact congrArg _ (Option.some.inj h)

section Harmless

variable {allowed : Prop} {cause : TransferError} {driver d : Driver slots size} {before after : Journal}
variable {actions : List Action}

omit [HasSlots slots] in
theorem Passive.not_write (h : Passive actions) (offset : Offset) (value : Word) :
    .write offset value ∉ actions := fun hmem => h _ hmem

theorem Untouched.harmless (h : Untouched driver d actions)
    (hjournal : after.toList = before.toList ++ actions) :
    Harmless allowed driver d before after := by
  obtain ⟨rfl, hactions⟩ := h
  exact ⟨rfl, rfl, rfl, fun _ => rfl, actions, hjournal, hactions.not_write, .inl fun _ => rfl⟩

theorem Cleared.harmless (h : Cleared driver d actions) (hallowed : allowed)
    (hjournal : after.toList = before.toList ++ actions) :
    Harmless allowed driver d before after := by
  cases h with
  | intact h => exact Untouched.harmless ⟨rfl, h⟩ hjournal
  | @reclaimed id previous front back hslot hfront hback =>
    refine ⟨rfl, rfl, rfl, driver.pool.size_release id, _, hjournal, ?_,
      .inr ⟨hallowed, id, previous, Slot.owner_eq hslot, by simp, fun i => ?_⟩⟩
    · have hreclaimed : ∀ offset value, Action.write offset value ≠ .reclaimed previous := by simp
      intro offset value hmem
      rcases List.mem_append.1 hmem with hmem | hmem
      · exact hfront.not_write _ _ hmem
      · rcases List.mem_cons.1 hmem with heq | hmem
        · exact hreclaimed _ _ heq
        · exact hback.not_write _ _ hmem
    · change ((driver.pool.release id).slotAt i).owner = _
      rw [Pool.slotAt_release]
      split_ifs <;> rfl

theorem Refused.harmless (h : Refused driver d actions cause)
    (hjournal : after.toList = before.toList ++ actions) :
    Harmless (cause = .bufferExceeded ∨ cause = .invalidLength) driver d before after := by
  rcases h with huntouched | ⟨hcause, hcleared⟩
  · exact huntouched.harmless hjournal
  · exact hcleared.harmless hcause hjournal

end Harmless

namespace Driver

variable (driver : Driver slots size) (port : Port (World σ slots size))

/-- A request that is refused does no harm, whatever the driver's state and whatever the device
shows; only an outbound request whose producer claims a wrong length may have cost a slot. -/
theorem refused_harmless (cause : TransferError) :
    (∀ source : Producer (World σ slots size),
      ((send source).outcome driver port).1.1 = .error cause →
        Harmless (cause = .bufferExceeded ∨ cause = .invalidLength) driver
          ((send source).outcome driver port).1.2 port.journal
          ((send source).outcome driver port).2.journal) ∧
    (∀ limit (source : Producer (World σ slots size)),
      ((sendAndWait limit source).outcome driver port).1.1 = some (.error cause) →
        Harmless (cause = .bufferExceeded ∨ cause = .invalidLength) driver
          ((sendAndWait limit source).outcome driver port).1.2 port.journal
          ((sendAndWait limit source).outcome driver port).2.journal) ∧
    (∀ bytes consume pause,
      ((receive bytes consume pause).outcome driver port).1.1 = .error (.transfer cause) →
        Harmless False driver ((receive bytes consume pause).outcome driver port).1.2 port.journal
          ((receive bytes consume pause).outcome driver port).2.journal) ∧
    ∀ bytes, ((startStream bytes).outcome driver port).1.1 = .error cause →
      Harmless False driver ((startStream bytes).outcome driver port).1.2 port.journal
        ((startStream bytes).outcome driver port).2.journal := by
  refine ⟨fun source hanswer => ?_, fun limit source hanswer => ?_,
    fun bytes consume pause hanswer => ?_, fun bytes hanswer => ?_⟩
  · obtain ⟨actions, hjournal, hrefused⟩ := send_enters source port
    exact (hrefused cause hanswer).harmless hjournal
  · obtain ⟨actions, hjournal, hrefused⟩ := sendAndWait_enters limit source port
    exact (hrefused cause hanswer).harmless hjournal
  · obtain ⟨actions, hjournal, huntouched⟩ := receive_enters bytes consume pause port
    exact (huntouched cause hanswer).harmless hjournal
  · obtain ⟨actions, hjournal, huntouched⟩ := startStream_enters bytes port
    exact (huntouched cause hanswer).harmless hjournal

/-- The one slot holds a completed transfer. A request whose producer claims a byte too many is
refused, and the slot is free. -/
theorem refused_harmless_reclaimed :
    let rig := ((Call.send fun _ => (#[1, 2], 2)).perform Rig.single).stimulate (.finish 0)
    let refused := (send ⟨fun _ => (#[], 17), Sim.occur .fill⟩).outcome rig.driver rig.port
    refused.1.1 = .error .bufferExceeded ∧
      (rig.driver.pool.slotAt 0).owner = .inFlight .first ∧
      (refused.1.2.pool.slotAt 0).owner = .free ∧
      Harmless (TransferError.bufferExceeded = .bufferExceeded ∨
        TransferError.bufferExceeded = .invalidLength) rig.driver refused.1.2 rig.port.journal
        refused.2.journal := by
  intro rig refused
  have hanswer : refused.1.1 = .error .bufferExceeded := by decide +kernel
  exact ⟨hanswer, by decide +kernel, by decide +kernel,
    (refused_harmless rig.driver rig.port .bufferExceeded).1 _ hanswer⟩

end Driver
end DmaController

import DmaController.Proofs.Harvest

/-!
An outbound request in full. It looks at the submit bit, at the next id and, if the slot of that id
is in flight, at the done bits; the first obstacle in this order is its answer. If there is none it
has a buffer filled, and the length that the producer claims decides the rest. Main statement: the
answer, the driver, the buffers and the register writes of every request, for every driver on every
device whose registers are apart from the buffers, and what the looks show on a simulated core.
-/
namespace DmaController

open Sim

variable {σ : Type} {slots size : Nat}

/-- What an outbound request sees of the device before a buffer is filled. -/
structure Survey where
  /-- The submit bit was set at the first look. -/
  pending : Bool
  /-- The next id, unless the id field shows none. -/
  id? : Option TransferId
  /-- The settled done bits at the look after that. -/
  settled : DoneBits

/-- The slot is in flight for a transfer that is not seen done. -/
def Survey.blocks (survey : Survey) (slot : Slot) : Bool :=
  slot.transferId?.any fun previous => !survey.settled.isDone previous

/-- The cause that goes with the first check that has come out true. -/
def firstCause (checks : List (Bool × TransferError)) : Option TransferError :=
  (checks.find? (·.1)).map (·.2)

@[simp]
theorem firstCause_nil : firstCause [] = none := rfl

@[simp]
theorem firstCause_cons (found : Bool) (cause : TransferError)
    (checks : List (Bool × TransferError)) :
    firstCause ((found, cause) :: checks) = if found then some cause else firstCause checks := by
  cases found <;> rfl

namespace Action

def write? : Action → Option (Offset × Word)
  | write offset value => some (offset, value)
  | _ => none

end Action

/-- The register writes of a journal, oldest first. -/
def Journal.writes (journal : Journal) : List (Offset × Word) :=
  journal.toList.filterMap Action.write?

/-- From one port to the other nothing was written, and no buffer was given out or has changed. -/
structure Surveyed (port port' : Port (World σ slots size)) : Prop where
  memory_eq : port'.world.memory = port.world.memory
  offers_eq : port'.journal.offers = port.journal.offers
  writes_eq : port'.journal.writes = port.journal.writes

namespace Surveyed

variable {port port' port'' : Port (World σ slots size)}

theorem refl (port : Port (World σ slots size)) : Surveyed port port := ⟨rfl, rfl, rfl⟩

theorem trans (h : Surveyed port port') (h' : Surveyed port' port'') : Surveyed port port'' where
  memory_eq := h'.memory_eq.trans h.memory_eq
  offers_eq := h'.offers_eq.trans h.offers_eq
  writes_eq := h'.writes_eq.trans h.writes_eq

variable [RegisterBus σ]

theorem read (offset : Offset) (port : Port (World σ slots size)) :
    Surveyed port ((BusM.read offset).run port).2 where
  memory_eq := rfl
  offers_eq := by simp [BusM.read_run, Journal.offers, Action.offer?]
  writes_eq := by simp [BusM.read_run, Journal.writes, Action.write?]

theorem record {action : Action} (hoffer : action.offer? = none) (hwrite : action.write? = none)
    (port : Port (World σ slots size)) : Surveyed port ((BusM.record action).run port).2 where
  memory_eq := rfl
  offers_eq := by simp [BusM.record_run, Journal.offers, hoffer]
  writes_eq := by simp [BusM.record_run, Journal.writes, hwrite]

end Surveyed

theorem Pool.release_of_free [HasSlots slots] {pool : Pool slots size} {id : TransferId}
    (h : (pool.slot id).transferId? = none) : pool.release id = pool := by
  have hslot : (pool.slot id).release = pool.slots[(Pool.index slots id).val] := by
    change Slot.release (pool.slot id) = pool.slot id
    cases howner : (pool.slot id).owner with
    | free => rw [Slot.release, ← howner]
    | inFlight other => simp [Slot.transferId?, howner] at h
  unfold Pool.release
  rw [hslot, Vector.set_getElem_self]

namespace Driver

variable [RegisterBus σ] (driver : Driver slots size) (port : Port (World σ slots size))

/-- What a request that is made now sees, look by look. -/
def survey : Survey :=
  let first := RegisterBlock.submitPending.run port
  let second := RegisterBlock.nextId.run first.2
  { pending := first.1
    id? := TransferId.ofWord? second.1
    settled := (settledDone.outcome driver second.2).1.1 }

/-- What can be wrong about a claimed length. -/
def misfits (claimed : Nat) : List (Bool × TransferError) :=
  [(decide (driver.capacity < claimed), .bufferExceeded),
    (decide (claimed = 0), .invalidLength)]

theorem firstCause_misfits (claimed : Nat) : firstCause (driver.misfits claimed) =
    if driver.capacity < claimed then some .bufferExceeded
    else if claimed = 0 then some .invalidLength else none := by
  simp only [misfits, firstCause_cons, firstCause_nil, decide_eq_true_eq]

theorem settledDone_surveyed : (settledDone.outcome driver port).1.2 = driver ∧
    Surveyed port (settledDone.outcome driver port).2 := by
  rw [settledDone_outcome]
  exact ⟨rfl, (Surveyed.read ..).trans (.read ..)⟩

/-- The next id is read, and if the field shows none, that is logged. -/
theorem nextId?_surveyed : (nextId?.outcome driver port).1 =
      (TransferId.ofWord? (RegisterBlock.nextId.run port).1, driver) ∧
    Surveyed port (nextId?.outcome driver port).2 ∧
    (TransferId.ofWord? (RegisterBlock.nextId.run port).1 ≠ none →
      (nextId?.outcome driver port).2 = (RegisterBlock.nextId.run port).2) := by
  have hread : Surveyed port (RegisterBlock.nextId.run port).2 := .read Register.transferId port
  unfold nextId?
  rw [DriverM.outcome_bind, outcome_onBus]
  dsimp only
  cases hid : TransferId.ofWord? (RegisterBlock.nextId.run port).1 with
  | none => exact ⟨rfl, hread.trans (.record rfl rfl _), (absurd rfl ·)⟩
  | some id => exact ⟨rfl, hread, fun _ => rfl⟩

variable [HasSlots slots]

/-- What stands in the way of filling a buffer, in the order in which it is looked at. -/
def obstacles (survey : Survey) : List (Bool × TransferError) :=
  [(!driver.directions.outbound, .notSupported), (survey.pending, .queueFull),
    (survey.id?.isNone, .deviceError),
    (survey.id?.any fun id => survey.blocks (driver.pool.slot id), .queueFull)]

/-- A slot is taken back unless it is in flight for a transfer that is not seen done. -/
theorem reclaim_surveyed (id : TransferId) (survey : Survey)
    (hsettled : survey.settled = (settledDone.outcome driver port).1.1) :
    let ran := (reclaim id).outcome driver port
    ran.1 = (if survey.blocks (driver.pool.slot id) then (false, driver)
      else (true, driver.withPool (driver.pool.release id))) ∧ Surveyed port ran.2 := by
  obtain ⟨hdriver, hlooked⟩ := settledDone_surveyed driver port
  unfold reclaim Survey.blocks
  rw [DriverM.outcome_get]
  cases hslot : (driver.pool.slot id).transferId? with
  | none =>
    refine ⟨?_, .refl port⟩
    rw [Pool.release_of_free hslot]
    rfl
  | some previous =>
    dsimp only
    rw [DriverM.outcome_bind, hdriver, ← hsettled]
    cases hdone : survey.settled.isDone previous with
    | true =>
      simp only [hdone, Option.any_some, Bool.not_true, Bool.false_eq_true, if_true, if_false]
      exact ⟨rfl, hlooked.trans (.record rfl rfl _)⟩
    | false =>
      simp only [hdone, Option.any_some, Bool.not_false, if_true, Bool.false_eq_true, if_false]
      exact ⟨rfl, hlooked⟩

omit [RegisterBus σ] in
/-- The first obstacle was told, or there was none and the slot of the next id is free. -/
structure Claimed (driver : Driver slots size) (survey : Survey) (port : Port (World σ slots size))
    (ran : (Except TransferError TransferId × Driver slots size) × Port (World σ slots size)) :
    Prop where
  refused : ∀ cause, firstCause (driver.obstacles survey) = some cause →
    ran.1 = (.error cause, driver)
  claimed : firstCause (driver.obstacles survey) = none → ∃ id, survey.id? = some id ∧
    ran.1 = (.ok id, driver.withPool (driver.pool.release id))
  surveyed : Surveyed port ran.2

section Claimed

omit [RegisterBus σ]

variable {driver port} {port' : Port (World σ slots size)} {survey : Survey}

theorem Claimed.of_obstacle {cause : TransferError}
    (hcause : firstCause (driver.obstacles survey) = some cause) (h : Surveyed port port') :
    Claimed driver survey port ((.error cause, driver), port') where
  refused other hother := by rw [Option.some.inj (hcause.symm.trans hother)]
  claimed hnone := by cases hcause.symm.trans hnone
  surveyed := h

theorem Claimed.of_none {id : TransferId} (hnone : firstCause (driver.obstacles survey) = none)
    (hid : survey.id? = some id) (h : Surveyed port port') : Claimed driver survey port
      ((.ok id, driver.withPool (driver.pool.release id)), port') where
  refused cause hcause := by cases hnone.symm.trans hcause
  claimed _ := ⟨id, hid, rfl⟩
  surveyed := h

end Claimed

theorem claimSlot_surveyed :
    Claimed driver (driver.survey port) port (claimSlot.outcome driver port) := by
  let first := RegisterBlock.submitPending.run port
  let second := RegisterBlock.nextId.run first.2
  obtain ⟨survey, hsurvey⟩ : ∃ survey, driver.survey port = survey := ⟨_, rfl⟩
  have hshows : first.1 = survey.pending := congrArg Survey.pending hsurvey
  have hnames : TransferId.ofWord? second.1 = survey.id? := congrArg Survey.id? hsurvey
  have hsettles : (settledDone.outcome driver second.2).1.1 = survey.settled :=
    congrArg Survey.settled hsurvey
  have hfirst : Surveyed port first.2 := .read Register.submit port
  have hsecond : Surveyed port second.2 := hfirst.trans (.read Register.transferId first.2)
  obtain ⟨hnext, hread, hport⟩ := nextId?_surveyed driver first.2
  rw [hsurvey]
  unfold claimSlot
  rw [DriverM.outcome_get]
  cases houtbound : driver.directions.outbound with
  | false => exact .of_obstacle (by simp [obstacles, houtbound]) (.refl port)
  | true =>
    simp only [if_true]
    rw [DriverM.outcome_bind, outcome_onBus, hshows]
    cases hpending : survey.pending with
    | true =>
      exact .of_obstacle (by simp [obstacles, houtbound, hpending]) hfirst
    | false =>
      simp only [Bool.false_eq_true, if_false]
      rw [DriverM.outcome_bind, hnext, hnames]
      cases hid : survey.id? with
      | none =>
        refine .of_obstacle ?_ (hfirst.trans hread)
        simp [obstacles, houtbound, hpending, hid]
      | some id =>
        have hsome : TransferId.ofWord? second.1 ≠ none :=
          fun hnone => Option.some_ne_none id (hid.symm.trans (hnames.symm.trans hnone))
        obtain ⟨hreclaimed, hreclaim⟩ := reclaim_surveyed driver second.2 id survey
          hsettles.symm
        dsimp only at hreclaimed ⊢
        rw [hport hsome, DriverM.outcome_bind, hreclaimed]
        cases hblocked : survey.blocks (driver.pool.slot id) with
        | true =>
          refine .of_obstacle ?_ (hsecond.trans hreclaim)
          simp [obstacles, houtbound, hpending, hid, hblocked]
        | false =>
          refine .of_none ?_ hid (hsecond.trans hreclaim)
          simp [obstacles, houtbound, hpending, hid, hblocked]

/-- A submission writes the length, the address and then the submit bit. -/
theorem submit_writes (id : TransferId) (bytes : Nat) :
    let ran := (submit .outbound id bytes).outcome driver port
    ran.1.2 = driver.submitted ⟨.outbound, id, bytes, driver.address id⟩ ∧
      ran.2.world.memory = port.world.memory ∧ ran.2.journal.offers = port.journal.offers ∧
      ran.2.journal.writes = port.journal.writes ++
        [(Register.length, BitVec.ofNat 32 bytes - 1), (Register.source, driver.address id),
          (Register.submit, submitBit)] := by
  obtain ⟨actions, hjournal, hdriver, rfl⟩ := submit_enters .outbound id bytes port
  refine ⟨hdriver, rfl, ?_, ?_⟩
  · rw [Journal.offers, hjournal, List.filterMap_append]
    exact List.append_nil _
  · rw [Journal.writes, hjournal, List.filterMap_append]
    rfl

/-- The bytes of the slot of `id` that a producer is shown. -/
def shown (id : TransferId) : Bytes := port.world.memory.bytes (Pool.index slots id) driver.capacity

theorem fill_outcome (source : Producer (World σ slots size)) (id : TransferId) :
    let made := source.produce (driver.shown port id)
    let noted := RegisterBus.note (.offered driver.capacity) port.world
    let stored := port.world.memory.store (Pool.index slots id) 0
      (made.1.extract 0 driver.capacity)
    (fill source id).outcome driver port = ((made.2, driver),
      { world := source.meanwhile { noted with memory := stored }
        journal := port.journal.push (.offered driver.capacity) }) := rfl

end Driver

theorem Driver.submitted_release [HasSlots slots] (driver : Driver slots size)
    (transfer : Transfer) :
    (driver.withPool (driver.pool.release transfer.id)).submitted transfer =
      driver.submitted transfer := by
  unfold submitted withPool Pool.release Pool.submit
  simp only [Vector.set_set]

section Dispatched

variable [HasSlots slots]

/-- The buffer of `id` was given out once, and it is as `source` has left it. -/
structure Filled (driver : Driver slots size) (port : Port (World σ slots size))
    (source : Producer (World σ slots size)) (id : TransferId)
    (port' : Port (World σ slots size)) : Prop where
  size_eq : driver.capacity ≤ size → (driver.shown port id).size = driver.capacity
  offers_eq : port'.journal.offers = port.journal.offers ++ [driver.capacity]
  memory_eq : ∃ device, port'.world.memory = (source.meanwhile ⟨device, port.world.memory.store
    (Pool.index slots id) 0
    ((source.produce (driver.shown port id)).1.extract 0 driver.capacity)⟩).memory

/-- How a request ends that met no obstacle: the slot of `id` was filled, and unless the length that
is claimed for it is wrong, it was handed to the device. -/
structure Dispatched (driver : Driver slots size) (port : Port (World σ slots size))
    (source : Producer (World σ slots size)) (id : TransferId)
    (answer : Except TransferError TransferId) (d : Driver slots size)
    (port' : Port (World σ slots size)) : Prop extends Filled driver port source id port' where
  misfit : ∀ cause,
    firstCause (driver.misfits (source.produce (driver.shown port id)).2) = some cause →
    answer = .error cause ∧ d = driver.withPool (driver.pool.release id) ∧
      (d.pool.slot id).owner = .free ∧ port'.journal.writes = port.journal.writes
  queued : firstCause (driver.misfits (source.produce (driver.shown port id)).2) = none →
    let claimed := (source.produce (driver.shown port id)).2
    answer = .ok id ∧ d = driver.submitted ⟨.outbound, id, claimed, driver.address id⟩ ∧
      d.pool.slot id = ⟨claimed, .inFlight id⟩ ∧ d.newest = some id ∧
      port'.journal.writes = port.journal.writes ++
        [(Register.length, BitVec.ofNat 32 claimed - 1), (Register.source, driver.address id),
          (Register.submit, submitBit)]

variable {driver : Driver slots size} {port port' : Port (World σ slots size)}
variable {source : Producer (World σ slots size)} {id : TransferId}

theorem Filled.refused (h : Filled driver port source id port')
    (hwrites : port'.journal.writes = port.journal.writes) {cause : TransferError}
    (hcause : firstCause (driver.misfits (source.produce (driver.shown port id)).2) = some cause) :
    Dispatched driver port source id (.error cause) (driver.withPool (driver.pool.release id))
      port' where
  toFilled := h
  misfit other hother := by
    obtain rfl := Option.some.inj (hcause.symm.trans hother)
    exact ⟨rfl, rfl, congrArg Slot.owner (driver.pool.slot_release_self id), hwrites⟩
  queued hnone := by cases hcause.symm.trans hnone

variable [RegisterBus σ]

theorem Filled.submitted (h : Filled driver port source id port')
    (hwrites : port'.journal.writes = port.journal.writes)
    (hfits : firstCause (driver.misfits (source.produce (driver.shown port id)).2) = none) :
    let claimed := (source.produce (driver.shown port id)).2
    let ran := (Driver.submit .outbound id claimed).outcome
      (driver.withPool (driver.pool.release id)) port'
    Dispatched driver port source id (.ok id) ran.1.2 ran.2 := by
  intro claimed ran
  let transfer : Transfer := ⟨.outbound, id, claimed, driver.address id⟩
  obtain ⟨hdriver, hmemory, hoffers, hqueued⟩ :=
    (driver.withPool (driver.pool.release id)).submit_writes port' id claimed
  have hsubmitted : ran.1.2 = driver.submitted transfer :=
    hdriver.trans (driver.submitted_release transfer)
  refine ⟨⟨h.size_eq, hoffers.trans h.offers_eq, ?_⟩, fun cause hcause => ?_, fun _ => ?_⟩
  · obtain ⟨device, hstored⟩ := h.memory_eq
    exact ⟨device, hmemory.trans hstored⟩
  · cases hfits.symm.trans hcause
  · refine ⟨rfl, hsubmitted, ?_, ?_, hqueued.trans (congrArg (· ++ _) hwrites)⟩
    · rw [hsubmitted]
      exact driver.pool.slot_submit_self id claimed
    · rw [hsubmitted]
      rfl

/-- The producer is asked once, after the looks of the request. -/
theorem Surveyed.fill (h : Surveyed port port') (driver : Driver slots size)
    (source : Producer (World σ slots size)) (id : TransferId) :
    let freed := driver.withPool (driver.pool.release id)
    let ran := (Driver.fill source id).outcome freed port'
    ran.1 = ((source.produce (driver.shown port id)).2, freed) ∧
      ran.2.journal.writes = port.journal.writes ∧ Filled driver port source id ran.2 := by
  intro freed ran
  have hshown : freed.shown port' id = driver.shown port id :=
    congrArg (Memory.bytes · (Pool.index slots id) driver.capacity) h.memory_eq
  have hran : ran = _ := freed.fill_outcome port' source id
  rw [hshown, h.memory_eq] at hran
  rw [hran]
  refine ⟨rfl, ?_, fun hle => ?_, ?_, _, rfl⟩
  · rw [← h.writes_eq]
    simp [Journal.writes, Action.write?]
  · exact (port.world.memory.size_bytes _ _).trans (Nat.min_eq_left hle)
  · rw [← h.offers_eq]
    simp [Journal.offers, Action.offer?, freed, Driver.capacity, Driver.withPool, Pool.release]

end Dispatched

namespace Driver

variable [HasSlots slots] [RegisterBus σ]
variable (driver : Driver slots size) (port : Port (World σ slots size))

omit [HasSlots slots] in
/-- On a simulated core the first look may have the pending submission accepted. What counts is the
core after it: a submission that is still pending then turns the request down, and otherwise its
done bits are the settled ones. -/
theorem survey_core (driver : Driver slots size) (port : Port (World Core slots size)) :
    let survey := driver.survey port
    let core := port.world.device.look
    survey.pending = core.submitPending ∧
      survey.id? = TransferId.ofWord? (core.nextId &&& transferIdField) ∧
      (survey.pending = false → survey.settled = ⟨core.done⟩) := by
  intro survey core
  have hpending : survey.pending = core.submitPending := core.toEngine.peek_submit
  refine ⟨hpending, rfl, fun hclear => ?_⟩
  rw [hpending] at hclear
  have hlook : core.look = core := Core.look_of_clear hclear
  have hsubmit : ((RegisterBus.read Register.submit core).1).hasAny submitBit = false := by
    change (core.look.toEngine.peek Register.submit).hasAny submitBit = false
    rw [hlook, Engine.peek_submit, hclear]
  change (settledDone.outcome driver _).1.1 = _
  rw [settledDone_outcome]
  change driver.settled (RegisterBus.read Register.submit core).1 core.look.done = _
  rw [settled, hsubmit, hlook]
  rfl

/-- Every outbound request, in full. The first obstacle it meets is its answer, and then nothing has
changed. If there is none, its producer fills the slot of the next id once, and its claim is refused
or submitted. -/
theorem send_exact (source : Producer (World σ slots size)) :
    let survey := driver.survey port
    let ran := (send source).outcome driver port
    (∀ cause, firstCause (driver.obstacles survey) = some cause →
      ran.1 = (.error cause, driver) ∧ Surveyed port ran.2) ∧
    (firstCause (driver.obstacles survey) = none → ∃ id, survey.id? = some id ∧
      Dispatched driver port source id ran.1.1 ran.1.2 ran.2) := by
  intro survey ran
  obtain ⟨hrefused, hclaimed, hsurveyed⟩ := claimSlot_surveyed driver port
  obtain ⟨claim, hclaim⟩ : ∃ claim, claimSlot.outcome driver port = claim := ⟨_, rfl⟩
  obtain ⟨⟨answer, driver'⟩, port'⟩ := claim
  rw [hclaim] at hrefused hclaimed hsurveyed
  subst ran
  unfold send
  rw [DriverM.outcome_bind, hclaim]
  refine ⟨fun cause hcause => ?_, fun hnone => ?_⟩
  · obtain ⟨rfl, rfl⟩ := Prod.mk.inj (hrefused cause hcause)
    exact ⟨rfl, hsurveyed⟩
  · obtain ⟨id, hid, hanswer⟩ := hclaimed hnone
    obtain ⟨rfl, rfl⟩ := Prod.mk.inj hanswer
    refine ⟨id, hid, ?_⟩
    obtain ⟨hfill, hwrites, hfilled⟩ := hsurveyed.fill driver source id
    dsimp only
    rw [DriverM.outcome_bind, hfill, DriverM.outcome_get]
    change Dispatched driver port source id (DriverM.outcome (if driver.capacity < _ then _ else _)
      _ _).1.1 (DriverM.outcome (if driver.capacity < _ then _ else _) _ _).1.2
      (DriverM.outcome (if driver.capacity < _ then _ else _) _ _).2
    split_ifs with hlong hzero
    · exact hfilled.refused hwrites (by rw [firstCause_misfits, if_pos hlong])
    · exact hfilled.refused hwrites (by rw [firstCause_misfits, if_neg hlong, if_pos hzero])
    · exact hfilled.submitted hwrites (by rw [firstCause_misfits, if_neg hlong, if_neg hzero])

/-- Two bytes are queued on a core that has just been started. -/
theorem send_exact_queued :
    let port : Port (World Core 1 16) := ⟨⟨.fresh, .zero⟩, #[]⟩
    let ran := (send ⟨fun _ => (#[1, 2], 2), id⟩).outcome Rig.single.driver port
    ran.1.1 = .ok .first ∧ ran.1.2.pool.slot .first = ⟨2, .inFlight .first⟩ ∧
      ran.2.journal.offers = [16] ∧
      ran.2.journal.writes =
        [(Register.length, 1), (Register.source, 0), (Register.submit, 1)] := by
  intro port ran
  obtain ⟨next, hnext, hdispatched⟩ :=
    (send_exact Rig.single.driver port ⟨fun _ => (#[1, 2], 2), id⟩).2 (by decide +kernel)
  obtain rfl : TransferId.first = next := Option.some.inj (Eq.trans (by decide +kernel) hnext)
  obtain ⟨hanswer, -, hslot, -, hwrites⟩ := hdispatched.queued (by decide +kernel)
  exact ⟨hanswer, hslot, hdispatched.offers_eq, hwrites.trans (by decide +kernel)⟩

end Driver
end DmaController

import DmaController.Proofs.Ownership

/-!
No slot leaks. While nothing is pending or outstanding the engine stands still, so what a driver
reads is what the engine shows. Every slot in flight then shows its done bit: one collection drains
them all, and the slot of the next id can always be taken.
-/
namespace DmaController

open Relation Sim

variable {slots size : Nat}

namespace Sim

/-- The engine shows what `still` shows, and nothing is on its way that could change that. -/
structure Calm (still : Engine) (world : World Bench slots size) : Prop where
  lawful : world.device.script.IsLawful
  pending_eq : world.device.core.submitPending = false
  outstanding_eq : world.device.core.outstanding = []
  done_eq : world.device.core.done = still.done
  nextId_eq : world.device.core.nextId = still.nextId

theorem device_of_lapse {world world' : World Engine slots size}
    (hpending : world.device.submitPending = false) (houtstanding : world.device.outstanding = [])
    (h : ReflTransGen Lapse world world') : world'.device = world.device := by
  induction h with
  | refl => rfl
  | tail _ hlapse ih =>
    cases hlapse with
    | store => exact ih
    | turn memory hturn =>
      obtain rfl : _ = world.device := ih
      cases hturn with
      | takeOver h => cases h.symm.trans hpending
      | complete id h =>
        rw [houtstanding] at h
        exact absurd h List.not_mem_nil

namespace Calm

variable {still : Engine} {world world' : World Bench slots size}

theorem drifts (h : Calm still world) (hdrifts : Drifts world world') : Calm still world' := by
  obtain ⟨hscript, hlapse⟩ := hdrifts
  have hdevice := device_of_lapse h.pending_eq h.outstanding_eq (hlapse h.lawful)
  have hengine : world'.device.core.toEngine = world.device.core.toEngine := hdevice
  refine ⟨hscript ▸ h.lawful, ?_, ?_, ?_, ?_⟩
  · rw [hengine, h.pending_eq]
  · rw [hengine, h.outstanding_eq]
  · rw [hengine, h.done_eq]
  · rw [hengine, h.nextId_eq]

/-- A look at a calm core does not change it. -/
theorem read_eq (h : Calm still world) (offset : Offset) : RegisterBus.read offset world =
    ((occur (.read offset) world).device.core.peek offset, occur (.read offset) world) := by
  have hmet := h.drifts (occur_drifts (.read offset) world)
  have hread : (occur (.read offset) world).device.core.read offset =
      ((occur (.read offset) world).device.core.peek offset,
        (occur (.read offset) world).device.core) := by
    unfold Core.read
    split_ifs with hsubmit
    · rw [Core.look_of_clear hmet.pending_eq]
    · rfl
  let met := occur (.read offset) world
  change ((met.device.core.read offset).1,
    { met with device := { met.device with core := (met.device.core.read offset).2 } }) = _
  rw [hread]

theorem read (h : Calm still world) (offset : Offset) :
    Calm still (RegisterBus.read offset world).2 := by
  rw [h.read_eq]
  exact h.drifts (occur_drifts (.read offset) world)

end Calm
end Sim

/-- In a calm world the program gives this answer and leaves this driver. -/
def Yields {α : Type} (still : Engine) (program : DriverM Bench slots size α)
    (driver : Driver slots size) (answer : α) (driver' : Driver slots size) : Prop :=
  ∀ port, Calm still port.world →
    (program.outcome driver port).1 = (answer, driver') ∧
      Calm still (program.outcome driver port).2.world

namespace Yields

variable {α β : Type} {still : Engine} {driver driver₁ driver₂ : Driver slots size} {a : α} {b : β}

theorem pure : Yields still (Pure.pure a) driver a driver := fun _ h => ⟨rfl, h⟩

/-- What follows a program of which the yield is known. -/
theorem outcome_bind {program : DriverM Bench slots size β} {port : Port (World Bench slots size)}
    (h : Yields still program driver b driver₁) (hcalm : Calm still port.world)
    (next : β → DriverM Bench slots size α) : (program >>= next).outcome driver port =
      (next b).outcome driver₁ (program.outcome driver port).2 := by
  rw [DriverM.outcome_bind, (h port hcalm).1]

theorem bind {program : DriverM Bench slots size β} {next : β → DriverM Bench slots size α}
    (h : Yields still program driver b driver₁) (hnext : Yields still (next b) driver₁ a driver₂) :
    Yields still (program >>= next) driver a driver₂ := by
  intro port hcalm
  rw [h.outcome_bind hcalm]
  exact hnext _ (h port hcalm).2

theorem lift {program : BusM (World Bench slots size) β}
    {next : β → BusM (World Bench slots size) α}
    (h : Yields still (Driver.onBus program) driver b driver₁)
    (hnext : Yields still (Driver.onBus (next b)) driver₁ a driver₂) :
    Yields still (Driver.onBus (program >>= next)) driver a driver₂ := by
  have hbind : Yields still (Driver.onBus program >>= fun b => Driver.onBus (next b))
      driver a driver₂ := .bind h hnext
  exact hbind

theorem get : Yields still MonadState.get driver driver driver := fun _ h => ⟨rfl, h⟩

theorem world_bind {next : World Bench slots size → DriverM Bench slots size α}
    (h : ∀ world, Yields still (next world) driver a driver₁) :
    Yields still (Driver.onBus BusM.world >>= next) driver a driver₁ :=
  fun port hcalm => h port.world port hcalm

theorem change (f : Driver slots size → Driver slots size) :
    Yields still (modify f) driver () (f driver) := fun _ h => ⟨rfl, h⟩

theorem record (action : Action) : Yields still (Driver.record action) driver () driver :=
  fun _ h => ⟨rfl, h.lawful, h.pending_eq, h.outstanding_eq, h.done_eq, h.nextId_eq⟩

theorem alter {f : World Bench slots size → World Bench slots size}
    (hdrifts : ∀ world, Drifts world (f world)) :
    Yields still (Driver.onBus (BusM.alter f)) driver () driver :=
  fun _ h => ⟨rfl, h.drifts (hdrifts _)⟩

theorem read {offset : Offset} {value : Word}
    (hvalue : ∀ world : World Bench slots size, Calm still world →
      world.device.core.peek offset = value) :
    Yields still (Driver.onBus (BusM.read offset)) driver value driver := by
  intro port h
  refine ⟨?_, h.read offset⟩
  change ((RegisterBus.read offset port.world).1, driver) = _
  rw [h.read_eq]
  exact congrArg (·, driver) (hvalue _ (h.drifts (occur_drifts _ _)))

end Yields

namespace Driver

variable {still : Engine} {driver : Driver slots size}

theorem submitPending_yields :
    Yields still (onBus RegisterBlock.submitPending) driver false driver := by
  have hread : Yields still (onBus (BusM.read Register.submit)) driver 0 driver := by
    refine .read fun world h => ?_
    change (if world.device.core.submitPending then 1 else 0) = (0 : Word)
    rw [h.pending_eq]
    rfl
  exact .lift hread .pure

theorem settledDone_yields : Yields still settledDone driver ⟨still.done⟩ driver := by
  have hpending : Yields still pendingSubmission driver none driver :=
    .bind submitPending_yields .pure
  have hread : Yields still (onBus RegisterBlock.done) driver still.done driver :=
    .read fun _ h => h.done_eq
  exact .bind hpending (.bind (.bind hread .pure) .pure)

theorem nextId?_yields {id : TransferId}
    (hid : TransferId.ofWord? (still.nextId &&& transferIdField) = some id) :
    Yields still nextId? driver (some id) driver := by
  have hread : Yields still (onBus (BusM.read Register.transferId)) driver still.nextId driver :=
    .read fun _ h => h.nextId_eq
  refine .bind (.lift hread .pure) ?_
  rw [hid]
  exact .pure

variable [HasSlots slots]

theorem deliver_yields (id : TransferId) : Yields still (deliver Sim.consume id) driver ()
    (driver.withPool (driver.pool.release id)) :=
  .bind .get (.world_bind fun _ =>
    .bind (.record _) (.bind (.alter (occur_drifts .consume)) (.change _)))

/-- After a scan of `ids` the slots in flight were in flight before, and none of them is that of a
scanned id that was done. -/
def Scanned (done : DoneBits) (ids : List TransferId) (before after : Pool slots size) : Prop :=
  ∀ (i : Fin slots) (id : TransferId), (after.slotAt i).transferId? = some id →
    (before.slotAt i).transferId? = some id ∧
      (id ∈ ids → Pool.index slots id = i → done.isDone id = false)

theorem Scanned.cons {done : DoneBits} {id : TransferId} {ids : List TransferId}
    {before between after : Pool slots size} (hfirst : Scanned done [id] before between)
    (hrest : Scanned done ids between after) : Scanned done (id :: ids) before after := by
  intro i other hslot
  obtain ⟨hbetween, hother⟩ := hrest i other hslot
  obtain ⟨hbefore, hthis⟩ := hfirst i other hbetween
  refine ⟨hbefore, fun hmem => ?_⟩
  rcases List.mem_cons.1 hmem with hid | hmem
  · exact hthis (List.mem_singleton.2 hid)
  · exact hother hmem

theorem drain_yields (still : Engine) (done : DoneBits) (id : TransferId)
    (driver : Driver slots size) : ∃ (drained : Bool) (pool : Pool slots size),
      Yields still (drain done Sim.consume id) driver drained (driver.withPool pool) ∧
        drained.toNat + pool.inFlight = driver.inFlight ∧ Scanned done [id] driver.pool pool := by
  by_cases hheld : done.isDone id = true ∧ (driver.pool.slot id).transferId? = some id
  · refine ⟨true, driver.pool.release id, .bind .get ?_, ?_, ?_⟩
    · rw [if_pos (by simp [hheld.1, hheld.2])]
      exact .bind (deliver_yields id) .pure
    · rw [Bool.toNat_true, Nat.add_comm]
      exact Pool.inFlight_release (by simp [Slot.isInFlight, hheld.2])
    · intro i other hslot
      refine ⟨Pool.transferId?_of_release hslot, fun hmem hindex => ?_⟩
      obtain rfl := List.mem_singleton.1 hmem
      subst hindex
      change ((driver.pool.release other).slot other).transferId? = some other at hslot
      rw [Pool.slot_release_self] at hslot
      cases hslot
  · refine ⟨false, driver.pool, .bind .get ?_, Nat.zero_add _, ?_⟩
    · rw [if_neg (by simpa using hheld)]
      exact .pure
    · intro i other hslot
      refine ⟨hslot, fun hmem hindex => ?_⟩
      obtain rfl := List.mem_singleton.1 hmem
      subst hindex
      exact Bool.eq_false_iff.2 fun hdone => hheld ⟨hdone, hslot⟩

theorem drainAll_yields (still : Engine) (done : DoneBits) (ids : List TransferId)
    (driver : Driver slots size) : ∃ (drained : List TransferId) (pool : Pool slots size),
      Yields still (drainAll done Sim.consume ids) driver drained (driver.withPool pool) ∧
        drained.length + pool.inFlight = driver.inFlight ∧ Scanned done ids driver.pool pool := by
  induction ids generalizing driver with
  | nil =>
    refine ⟨[], driver.pool, .pure, Nat.zero_add _, ?_⟩
    intro i id hslot
    exact ⟨hslot, fun hmem => absurd hmem List.not_mem_nil⟩
  | cons id ids ih =>
    obtain ⟨first, between, hdrain, hone, hfirst⟩ := drain_yields still done id driver
    obtain ⟨drained, pool, hyields, hcount, hrest⟩ := ih (driver.withPool between)
    change drained.length + pool.inFlight = between.inFlight at hcount
    cases first with
    | true =>
      refine ⟨id :: drained, pool, .bind hdrain (.bind hyields .pure), ?_, hfirst.cons hrest⟩
      rw [Bool.toNat_true] at hone
      rw [List.length_cons]
      omega
    | false =>
      refine ⟨drained, pool, .bind hdrain hyields, ?_, hfirst.cons hrest⟩
      rw [Bool.toNat_false] at hone
      omega

theorem reclaim_yields {id : TransferId} (h : ∀ previous,
    (driver.pool.slot id).transferId? = some previous → (⟨still.done⟩ : DoneBits).isDone previous) :
    ∃ pool, Yields still (reclaim id) driver true (driver.withPool pool) ∧
      pool.capacity = driver.capacity := by
  cases hslot : (driver.pool.slot id).transferId? with
  | none =>
    refine ⟨driver.pool, .bind .get ?_, rfl⟩
    rw [hslot]
    exact .pure
  | some previous =>
    refine ⟨driver.pool.release id, .bind .get ?_, rfl⟩
    rw [hslot]
    refine .bind settledDone_yields ?_
    rw [if_pos (h previous hslot)]
    exact .bind (.record _) (.bind (.change _) .pure)

theorem claimSlot_yields {id : TransferId} (houtbound : driver.directions.outbound = true)
    (hid : TransferId.ofWord? (still.nextId &&& transferIdField) = some id)
    (h : ∀ previous, (driver.pool.slot id).transferId? = some previous →
      (⟨still.done⟩ : DoneBits).isDone previous) :
    ∃ pool, Yields still claimSlot driver (.ok id) (driver.withPool pool) ∧
      pool.capacity = driver.capacity := by
  obtain ⟨pool, hreclaim, hcapacity⟩ := reclaim_yields h
  refine ⟨pool, .bind .get ?_, hcapacity⟩
  rw [if_pos houtbound]
  exact .bind submitPending_yields (.bind (nextId?_yields hid) (.bind hreclaim .pure))

theorem refillStream_yields (still : Engine) (drained : Nat) (h : driver.stream = none) :
    Yields still (refillStream drained) driver () driver := by
  refine .bind .get ?_
  rw [h]
  exact .pure

omit [HasSlots slots] in
theorem advance_yields (still : Engine) (driver : Driver slots size) (drained : List TransferId) :
    ∃ cursor, Yields still (advance drained) driver () { driver with cursor } := by
  unfold advance
  cases drained.getLast? with
  | none => exact ⟨driver.cursor, .pure⟩
  | some last => exact ⟨last.next, .change fun driver => { driver with cursor := last.next }⟩

/-- If every slot in flight shows its done bit, a collection drains them all. -/
theorem collect_drains {port : Port (World Bench slots size)} (hcalm : Calm still port.world)
    (h : ∀ (i : Fin slots) (id : TransferId), (driver.pool.slotAt i).transferId? = some id →
      Pool.index slots id = i ∧ still.isDone id.val = true) :
    ((collect Sim.consume).outcome driver port).1.1 = driver.inFlight ∧
      (driver.stream = none → ((collect Sim.consume).outcome driver port).1.2.inFlight = 0) := by
  obtain ⟨drained, pool, hdrain, hcount, hslots⟩ :=
    drainAll_yields still ⟨still.done⟩ driver.cursor.lap driver
  have hempty : pool.inFlight = 0 := by
    refine Vector.countP_eq_zero.2 fun slot hmem hslot => ?_
    obtain ⟨i, hi, rfl⟩ := Vector.mem_iff_getElem.1 hmem
    obtain ⟨id, hid⟩ := Option.isSome_iff_exists.1 hslot
    obtain ⟨hbefore, hnot⟩ := hslots ⟨i, hi⟩ id hid
    obtain ⟨hindex, hdone⟩ := h ⟨i, hi⟩ id hbefore
    cases (hnot (driver.cursor.mem_lap id) hindex).symm.trans hdone
  have hscan : Yields still
      (settledDone >>= fun done => get >>= fun driver =>
        drainAll done Sim.consume driver.cursor.lap) driver drained (driver.withPool pool) :=
    .bind settledDone_yields (.bind .get hdrain)
  constructor
  · have hrest := hscan.outcome_bind hcalm fun drained => do
      advance drained
      refillStream drained.length
      return drained.length
    calc ((collect Sim.consume).outcome driver port).1.1
      _ = drained.length := congrArg (fun outcome => outcome.1.1) hrest
      _ = driver.inFlight := by omega
  · intro hstream
    obtain ⟨cursor, hadvance⟩ := advance_yields still (driver.withPool pool) drained
    have hrefill := refillStream_yields still drained.length
      (show { driver.withPool pool with cursor }.stream = none from hstream)
    have hcollect : Yields still (collect Sim.consume) driver drained.length
        { driver.withPool pool with cursor } :=
      .bind settledDone_yields (.bind .get (.bind hdrain (.bind hadvance (.bind hrefill .pure))))
    rw [(hcollect port hcalm).1]
    exact hempty

/-- Once its slot is claimed, an outbound transfer fails for its length only. -/
theorem send_succeeds {port : Port (World Bench slots size)} {id : TransferId}
    {driver' : Driver slots size} (source : Producer (World Bench slots size))
    (hclaim : (claimSlot.outcome driver port).1 = (.ok id, driver')) :
    let claimed := (source.produce ((claimSlot.outcome driver port).2.world.memory.bytes
      (Pool.index slots id) driver'.capacity)).2
    1 ≤ claimed → claimed ≤ driver'.capacity →
      ((send source).outcome driver port).1.1 = .ok id := by
  intro claimed hpos hle
  unfold send
  rw [DriverM.outcome_bind, hclaim]
  change ((ite (driver'.capacity < claimed) _ _ : DriverM Bench slots size _).outcome _ _).1.1 = _
  rw [if_neg (Nat.not_lt.2 hle), if_neg (Nat.ne_of_gt hpos)]
  rfl

end Driver

variable [HasSlots slots]

/-- When nothing is on its way, every slot in flight is that of a completed transfer. -/
theorem Agrees.isDone {driver : Driver slots size} {engine : Engine} (h : Agrees driver engine)
    (hpending : engine.submitPending = false) (houtstanding : engine.outstanding = [])
    {i : Fin slots} {id : TransferId} (hslot : (driver.pool.slotAt i).transferId? = some id) :
    engine.isDone id.val = true := by
  obtain ⟨place, hplace, -⟩ := h.whereabouts i id hslot
  cases place with
  | pending => cases hplace.1.symm.trans hpending
  | outstanding =>
    change id.val ∈ engine.outstanding at hplace
    rw [houtstanding] at hplace
    exact absurd hplace List.not_mem_nil
  | completed => exact hplace.1

/-- The length that a producer claims when the next outbound transfer, `id`, is queued. -/
def Rig.claimed (rig : Rig slots size) (id : TransferId)
    (source : Producer (World Bench slots size)) : Nat :=
  (source.produce ((rig.run Driver.claimSlot).port.world.memory.bytes (Pool.index slots id)
    rig.driver.capacity)).2

namespace Session

variable {rig : Rig slots size}

/-- With nothing on its way, one collection drains every slot in flight, and an outbound transfer
of a possible length finds its slot. -/
theorem idle_drains (h : Session Engine.IsIdle .running rig)
    (hpending : rig.core.submitPending = false) (houtstanding : rig.core.outstanding = []) :
    ((Driver.collect Sim.consume).outcome rig.driver rig.port).1.1 = rig.driver.inFlight ∧
      (rig.driver.stream = none → (Call.collect.perform rig).driver.inFlight = 0) ∧
      (rig.driver.directions.outbound = true → ∃ id,
        (Driver.claimSlot.outcome rig.driver rig.port).1.1 = .ok id ∧
        ∀ source, 1 ≤ rig.claimed id source → rig.claimed id source ≤ rig.driver.capacity →
          ((Driver.send source).outcome rig.driver rig.port).1.1 = .ok id) := by
  obtain ⟨hlawful, known, hends, hattained⟩ := h.attained
  have hphase : known.phase = .running := hends.phase_eq.resolve_left (by simp)
  have hcustody := (hattained.inCustody fun _ => id).running hphase
  have hagrees : Agrees rig.driver rig.core.toEngine := hcustody.agrees hends.draft_eq
  have hcalm : Calm rig.core.toEngine rig.port.world := ⟨hlawful, hpending, houtstanding, rfl, rfl⟩
  have hdone : ∀ (i : Fin slots) (id : TransferId),
      (rig.driver.pool.slotAt i).transferId? = some id →
        Pool.index slots id = i ∧ rig.core.isDone id.val = true :=
    fun i id hslot => ⟨hagrees.index_eq i id hslot, hagrees.isDone hpending houtstanding hslot⟩
  obtain ⟨hanswer, hempty⟩ := Driver.collect_drains hcalm hdone
  refine ⟨hanswer, hempty, fun houtbound => ?_⟩
  have hlt : rig.core.acceptId < transferIdCount := by
    have hlt : rig.core.nextId.toNat < 31 := hcustody.nextId_lt
    rw [rig.core.acceptId_of_lt hlt]
    exact hlt
  have hnext : TransferId.ofWord? (rig.core.nextId &&& transferIdField) =
      some ⟨rig.core.acceptId, hlt⟩ := TransferId.ofWord?_eq_some_iff.2 rfl
  obtain ⟨pool, hclaim, hcapacity⟩ := Driver.claimSlot_yields houtbound hnext
    fun previous hslot => (hdone _ previous hslot).2
  have hclaimed := (hclaim rig.port hcalm).1
  refine ⟨⟨rig.core.acceptId, hlt⟩, congrArg Prod.fst hclaimed, fun source hpos hle => ?_⟩
  have hcap : (rig.driver.withPool pool).capacity = rig.driver.capacity := hcapacity
  refine Driver.send_succeeds source hclaimed ?_ ?_
  · rw [hcap]
    exact hpos
  · rw [hcap]
    exact hle

/-- One transfer was sent and is completed, and nobody has collected it. -/
theorem idle_drains_one_completed :
    let rig := ((Call.send fun _ => (#[1, 2], 2)).perform Rig.small).stimulate (.finish 0)
    rig.driver.inFlight = 1 ∧ ((Driver.collect Sim.consume).outcome rig.driver rig.port).1.1 = 1 ∧
      (Call.collect.perform rig).driver.inFlight = 0 ∧
      ∃ id, ((Driver.send ⟨fun _ => (#[3], 1), occur .fill⟩).outcome rig.driver rig.port).1.1 =
        .ok id := by
  intro rig
  have hsmall := Rig.small_session.mono fun _ h => h.toIsIdle
  have hsent := hsmall.call (.send fun _ => (#[1, 2], 2))
  have hrig : Session Engine.IsIdle .running rig := hsent.stimulus (.finish 0) trivial
  obtain ⟨hanswer, hempty, hsend⟩ := idle_drains hrig rfl rfl
  obtain ⟨id, -, hsource⟩ := hsend rfl
  have hpos : 1 ≤ rig.driver.capacity := by decide +kernel
  exact ⟨rfl, hanswer, hempty rfl, id, hsource _ (Nat.le_refl 1) hpos⟩

end Session
end DmaController

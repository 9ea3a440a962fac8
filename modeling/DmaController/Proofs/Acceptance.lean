import DmaController.Proofs.Dispatch

/-!
From a submission to its acceptance, on a simulated core. A handover programs the registers and
sets the submit bit; from then on the core takes the transfer over at once, or the looks at the
submit bit count it down. Main statements: what a handover makes of a core, what each look at a core
that counts down does, and that a request that stays until it is accepted makes one look more than
the core counts, for every count and every driver.
-/
namespace DmaController

open Sim

namespace Sim.Core

/-- The record of a transfer that is accepted as it was submitted. Of the side that it does not
use, it shows what the register holds. -/
def taken (core : Core) (transfer : Transfer) : Accepted where
  id := transfer.id.val
  length := transfer.length
  source := match transfer.direction with
    | .inbound => core.registers.get Register.source
    | .outbound => transfer.address
  destination := match transfer.direction with
    | .inbound => transfer.address
    | .outbound => core.registers.get Register.destination

/-- The core once the length and the address of a transfer are in its registers. -/
def program (core : Core) (transfer : Transfer) : Core :=
  ((core.note (.submitted transfer)).write Register.length
    (BitVec.ofNat 32 transfer.length - 1)).write transfer.direction.register transfer.address

/-- The core with a submission that has just been queued. -/
def queue (core : Core) : Core :=
  { core with
    toEngine := core.toEngine.write Register.submit submitBit
    looksLeft := core.acceptAfter.getD 0
    writes := core.writes.push (Register.submit, submitBit) }

/-- Cores that accept in the same manner, and under the same next id. -/
structure Steady (core core' : Core) : Prop where
  autoAccept_eq : core'.autoAccept = core.autoAccept
  acceptAfter_eq : core'.acceptAfter = core.acceptAfter
  nextId_eq : core'.nextId = core.nextId

namespace Steady

variable {core core' core'' : Core}

theorem refl (core : Core) : Steady core core := ⟨rfl, rfl, rfl⟩

theorem trans (h : Steady core core') (h' : Steady core' core'') : Steady core core'' where
  autoAccept_eq := h'.autoAccept_eq.trans h.autoAccept_eq
  acceptAfter_eq := h'.acceptAfter_eq.trans h.acceptAfter_eq
  nextId_eq := h'.nextId_eq.trans h.nextId_eq

theorem note (action : Action) : Steady core (core.note action) := ⟨rfl, rfl, rfl⟩

theorem acceptId_eq (h : Steady core core') : core'.acceptId = core.acceptId := by
  unfold Engine.acceptId
  rw [h.nextId_eq]

end Steady

section Handover

variable (core : Core) (transfer : Transfer)

theorem write_submit :
    core.write Register.submit submitBit =
      if core.autoAccept then core.queue.accept else core.queue := rfl

theorem steady_program : Steady core (core.program transfer) := by
  obtain ⟨direction, id, length, address⟩ := transfer
  cases direction <;> exact ⟨rfl, rfl, rfl⟩

theorem accepted_program : (core.program transfer).accepted = core.accepted := by
  obtain ⟨direction, id, length, address⟩ := transfer
  cases direction <;> rfl

theorem registers_program : (core.program transfer).registers =
    (core.registers.set Register.length (BitVec.ofNat 32 transfer.length - 1)).set
      transfer.direction.register transfer.address := by
  obtain ⟨direction, id, length, address⟩ := transfer
  cases direction <;> rfl

/-- The side that the transfer does not use is left as it was. -/
theorem taken_program : (core.program transfer).taken transfer = core.taken transfer := by
  unfold taken
  rw [registers_program]
  cases transfer.direction <;>
    simp [Direction.register, RegisterFile.get_set, Register.length, Register.source,
      Register.destination]

theorem steady_queue : Steady core core.queue := ⟨rfl, rfl, rfl⟩

theorem submitPending_queue : core.queue.submitPending = true := by
  change (core.toEngine.write Register.submit submitBit).submitPending = true
  rw [Engine.write_submit]

variable {core transfer}

/-- What is handed over is what the registers describe. -/
theorem programmed_queue (hid : core.acceptId = transfer.id.val) (hpos : 0 < transfer.length)
    (hle : transfer.length ≤ transferLimit) :
    (core.program transfer).queue.programmed = core.taken transfer := by
  have hlimit : transfer.length ≤ 0xF00 := hle
  have hone : (1 : Word).toNat = 1 := rfl
  have hlength : (BitVec.ofNat 32 transfer.length - 1).toNat + 1 = transfer.length := by
    simp only [BitVec.toNat_sub, BitVec.toNat_ofNat, hone]
    omega
  have hacceptId : (core.program transfer).queue.acceptId = transfer.id.val :=
    ((core.steady_program transfer).trans (steady_queue _)).acceptId_eq.trans hid
  unfold Engine.programmed taken
  rw [hacceptId]
  change Accepted.mk _ (((core.program transfer).registers.get _).toNat + 1)
    ((core.program transfer).registers.get _) ((core.program transfer).registers.get _) = _
  rw [registers_program]
  generalize BitVec.ofNat 32 transfer.length - 1 = value at hlength ⊢
  cases transfer.direction <;>
    simp [Direction.register, RegisterFile.get_set, Register.length, Register.source,
      Register.destination, hlength]

end Handover

section Accept

variable {core : Core}

theorem submitPending_accept (h : core.submitPending = true) :
    core.accept.submitPending = false := by
  rw [accept, if_pos h]
  split <;> rfl

theorem accepted_accept (h : core.submitPending = true) :
    core.accept.accepted = core.accepted.push core.programmed := by
  rw [accept, if_pos h]
  split <;> rfl

theorem mode_accept (core : Core) : core.accept.autoAccept = core.autoAccept ∧
    core.accept.acceptAfter = core.acceptAfter := by
  unfold accept
  split_ifs <;> exact ⟨rfl, rfl⟩

/-- A look may change the next id, but not how the core accepts. -/
theorem mode_look (core : Core) : core.look.autoAccept = core.autoAccept ∧
    core.look.acceptAfter = core.acceptAfter := by
  unfold look
  dsimp only
  split_ifs
  · exact mode_accept _
  · exact ⟨rfl, rfl⟩
  · exact ⟨rfl, rfl⟩
  · exact ⟨rfl, rfl⟩

end Accept

/-- A submission is pending, and so many looks will find it so until it is accepted. -/
structure Counting (core : Core) (looks : Nat) : Prop where
  pending_eq : core.submitPending = true
  counts : core.acceptAfter.isSome = true
  looksLeft_eq : core.looksLeft = looks

namespace Counting

variable {core : Core} {looks : Nat}

theorem look_eq (h : core.Counting (looks + 1)) :
    core.look = { core with pendingLooks := core.pendingLooks + 1, looksLeft := looks } := by
  obtain ⟨hpending, hcounts, hleft⟩ := h
  have hne : core.looksLeft ≠ 0 := by omega
  have hpred : core.looksLeft - 1 = looks := by omega
  simp only [look, hpending, hcounts, hne, hpred, if_true, if_false]

theorem look (h : core.Counting (looks + 1)) : core.look.Counting looks := by
  rw [h.look_eq]
  exact ⟨h.pending_eq, h.counts, rfl⟩

/-- A core that accepts after so many looks starts to count when a transfer is handed over. -/
theorem handover {transfer : Transfer} {action : Action} (hauto : core.autoAccept = false)
    (hafter : core.acceptAfter = some looks) (hid : core.acceptId = transfer.id.val)
    (hpos : 0 < transfer.length) (hle : transfer.length ≤ transferLimit) :
    let queued := ((core.program transfer).write Register.submit submitBit).note action
    queued.Counting looks ∧ queued.programmed = queued.taken transfer := by
  have hprogram := core.steady_program transfer
  rw [write_submit, hprogram.autoAccept_eq, hauto, if_neg Bool.false_ne_true]
  have hcounts : (core.program transfer).acceptAfter = some looks :=
    hprogram.acceptAfter_eq.trans hafter
  refine ⟨⟨submitPending_queue _, ?_, ?_⟩, ?_⟩
  · change (core.program transfer).acceptAfter.isSome = true
    rw [hcounts]
    rfl
  · change (core.program transfer).acceptAfter.getD 0 = looks
    rw [hcounts]
    rfl
  · exact (programmed_queue hid hpos hle).trans (core.taken_program transfer).symm

theorem look_zero (h : core.Counting 0) :
    core.look = { core with pendingLooks := core.pendingLooks + 1 }.accept := by
  obtain ⟨hpending, hcounts, hleft⟩ := h
  simp only [Core.look, hpending, hcounts, hleft, if_true]

end Counting
end Sim.Core

variable {slots size : Nat} {driver : Driver slots size} {port : Port (World Core slots size)}

/-- The port after a look at the submit bit. -/
def Port.glimpsed (port : Port (World Core slots size)) : Port (World Core slots size) where
  world := { port.world with device := port.world.device.look }
  journal := port.journal.push (.read Register.submit
    (if port.world.device.look.submitPending then 1 else 0))

/-- From one port to the other nothing was done but look at the submit bit. So many looks found it
set, and the last one clear, since the transfer was accepted. -/
structure Awaited (looks : Nat) (transfer : Accepted) (port port' : Port (World Core slots size)) :
    Prop where
  journal_eq : port'.journal.toList = port.journal.toList ++
    (List.replicate looks (.read Register.submit 1) ++ [.read Register.submit 0])
  submitPending_eq : port'.world.device.submitPending = false
  accepted_eq : port'.world.device.accepted = port.world.device.accepted.push transfer

namespace Driver

/-- A look at the submit bit shows the core as the look leaves it. -/
theorem submitPending_core (driver : Driver slots size) (port : Port (World Core slots size)) :
    (onBus RegisterBlock.submitPending).outcome driver port =
      ((port.world.device.look.submitPending, driver), port.glimpsed) :=
  congrArg (fun pending => ((pending, driver), _)) port.world.device.look.toEngine.peek_submit

variable {looks : Nat}

/-- As many looks as the core counts find the submission pending. -/
theorem awaitAccepted_early (h : port.world.device.Counting looks) {limit : Nat}
    (hlimit : limit ≤ looks) :
    ((awaitAccepted limit).outcome driver port).1 = (false, driver) := by
  induction limit generalizing looks port with
  | zero => rfl
  | succ limit ih =>
    obtain ⟨looks, rfl⟩ := Nat.exists_eq_add_of_le' (Nat.lt_of_lt_of_le (Nat.succ_pos limit) hlimit)
    rw [awaitAccepted, DriverM.outcome_bind, submitPending_core, h.look.pending_eq]
    exact ih h.look (Nat.le_of_succ_le_succ hlimit)

/-- The look after those is the last one, and the submission is accepted. -/
theorem awaitAccepted_late (h : port.world.device.Counting looks) {limit : Nat}
    (hlimit : looks < limit) :
    let ran := (awaitAccepted limit).outcome driver port
    ran.1 = (true, driver) ∧ Awaited looks port.world.device.programmed port ran.2 := by
  -- Each look takes one from the count, and `Counting` holds of the core again until it is zero.
  induction looks generalizing limit port with
  | zero =>
    obtain ⟨limit, rfl⟩ := Nat.exists_eq_add_of_le' hlimit
    have hclear : port.world.device.look.submitPending = false := by
      rw [h.look_zero]
      exact Core.submitPending_accept h.pending_eq
    have haccepted : port.world.device.look.accepted =
        port.world.device.accepted.push port.world.device.programmed := by
      rw [h.look_zero]
      exact Core.accepted_accept h.pending_eq
    rw [awaitAccepted, DriverM.outcome_bind, submitPending_core, hclear]
    refine ⟨rfl, ?_, hclear, haccepted⟩
    change port.glimpsed.journal.toList = _
    rw [Port.glimpsed, hclear]
    exact Array.toList_push ..
  | succ looks ih =>
    obtain ⟨limit, rfl⟩ := Nat.exists_eq_add_of_le' (Nat.lt_of_lt_of_le (Nat.succ_pos _) hlimit)
    have hlook : port.glimpsed.world.device.Counting looks := h.look
    rw [awaitAccepted, DriverM.outcome_bind, submitPending_core, h.look.pending_eq]
    obtain ⟨hran, hjournal, hclear, haccepted⟩ := ih hlook (Nat.lt_of_succ_lt_succ hlimit)
    refine ⟨hran, hjournal.trans ?_, hclear, haccepted.trans ?_⟩
    · rw [Port.glimpsed, h.look.pending_eq, Array.toList_push, List.append_assoc]
      rfl
    · rw [Port.glimpsed, h.look_eq]

/-- Run while nothing is pending, the program leaves the core in the same mode and nothing
pending. -/
def Rests {α : Type} (program : DriverM Core slots size α) : Prop :=
  ∀ driver port, port.world.device.submitPending = false →
    Core.Steady port.world.device (program.outcome driver port).2.world.device ∧
      (program.outcome driver port).2.world.device.submitPending = false

namespace Rests

variable {α β : Type}

theorem pure (a : α) : Rests (Pure.pure a : DriverM Core slots size α) :=
  fun _ port hclear => ⟨.refl port.world.device, hclear⟩

theorem bind {program : DriverM Core slots size β} {next : β → DriverM Core slots size α}
    (h : Rests program) (hnext : ∀ b, Rests (next b)) : Rests (program >>= next) := by
  intro driver port hclear
  obtain ⟨hsteady, hclear⟩ := h driver port hclear
  obtain ⟨hsteady', hclear⟩ := hnext _ _ _ hclear
  exact ⟨hsteady.trans hsteady', hclear⟩

theorem lift {program : BusM (World Core slots size) β}
    {next : β → BusM (World Core slots size) α} (h : Rests (onBus program))
    (hnext : ∀ b, Rests (onBus (next b))) : Rests (onBus (program >>= next)) := .bind h hnext

theorem get : Rests (MonadState.get : DriverM Core slots size _) :=
  fun _ port hclear => ⟨.refl port.world.device, hclear⟩

theorem change (f : Driver slots size → Driver slots size) :
    Rests (modify f : DriverM Core slots size Unit) :=
  fun _ port hclear => ⟨.refl port.world.device, hclear⟩

theorem record (action : Action) : Rests (Driver.record action : DriverM Core slots size Unit) :=
  fun _ _ hclear => ⟨.note action, hclear⟩

theorem read (offset : Offset) :
    Rests (onBus (BusM.read offset) : DriverM Core slots size Word) := by
  intro driver port hclear
  have hread : (RegisterBus.read offset port.world).2.device = port.world.device := by
    change (if offset = Register.submit then port.world.device.look else port.world.device) = _
    rw [Core.look_of_clear hclear, ite_self]
  change Core.Steady _ (RegisterBus.read offset port.world).2.device ∧
    (RegisterBus.read offset port.world).2.device.submitPending = false
  rw [hread]
  exact ⟨.refl _, hclear⟩

end Rests

theorem nextId?_rests : Rests (nextId? : DriverM Core slots size _) := by
  refine .bind (.lift (.read _) fun raw => .pure _) fun raw => ?_
  dsimp only
  split_ifs
  · exact .bind (.record _) fun _ => .pure _
  · exact .pure _

theorem settledDone_rests : Rests (settledDone : DriverM Core slots size DoneBits) := by
  refine .bind (.bind (.lift (.read _) fun value => .pure _) fun pending => ?_) fun pending => ?_
  · split_ifs
    · exact .bind .get fun _ => .pure _
    · exact .pure _
  · refine .bind (.bind (.read _) fun value => .pure _) fun done => ?_
    cases pending with
    | none => exact .pure _
    | some id => exact .pure _

variable [HasSlots slots]

theorem reclaim_rests (id : TransferId) : Rests (reclaim id : DriverM Core slots size Bool) := by
  refine .bind .get fun driver => ?_
  split
  · exact .pure _
  · refine .bind settledDone_rests fun done => ?_
    split_ifs
    · exact .bind (.record _) fun _ => .bind (.change _) fun _ => .pure _
    · exact .pure _

/-- After its first look a request finds nothing pending. -/
theorem claimSlot_steady (houtbound : driver.directions.outbound = true)
    (hclear : port.world.device.look.submitPending = false) :
    Core.Steady port.world.device.look (claimSlot.outcome driver port).2.world.device := by
  unfold claimSlot
  rw [DriverM.outcome_get, houtbound]
  change Core.Steady _ (DriverM.outcome (onBus RegisterBlock.submitPending >>= _) driver
    port).2.world.device
  rw [DriverM.outcome_bind, submitPending_core, hclear]
  -- The first look may accept what was pending; all looks after it leave the core alone.
  suffices hrests : Rests _ from (hrests driver port.glimpsed hclear).1
  rw [if_neg Bool.false_ne_true]
  refine .bind nextId?_rests fun id? => ?_
  cases id? with
  | none => exact .pure _
  | some id =>
    refine .bind (reclaim_rests id) fun freed => ?_
    split_ifs
    · exact .pure _
    · exact .pure _

theorem fill_steady {source : Producer (World Core slots size)}
    (hsteady : ∀ world, Core.Steady world.device (source.meanwhile world).device)
    (driver : Driver slots size) (port : Port (World Core slots size)) (id : TransferId) :
    Core.Steady port.world.device ((fill source id).outcome driver port).2.world.device := by
  let noted := port.world.device.note (.offered driver.capacity)
  let stored := port.world.memory.store (Pool.index slots id) 0
    ((source.produce (driver.shown port id)).1.extract 0 driver.capacity)
  have hnoted : Core.Steady port.world.device noted := .note _
  exact hnoted.trans (hsteady ⟨noted, stored⟩)

/-- A submission writes the registers and the submit bit, and then it is logged. -/
theorem submit_core (driver : Driver slots size) (port : Port (World Core slots size))
    (direction : Direction) (id : TransferId) (bytes : Nat) :
    ((submit direction id bytes).outcome driver port).2.world.device =
      (((port.world.device.program ⟨direction, id, bytes, driver.address id⟩).write
        Register.submit submitBit).note (.log (.queued direction id bytes))) := by
  cases direction <;> rfl

/-- A request that meets no obstacle and no misfit hands its transfer to a core in the mode and
under the next id that its first look has left. -/
theorem send_hands {source : Producer (World Core slots size)}
    (hsteady : ∀ world, Core.Steady world.device (source.meanwhile world).device)
    (hnone : firstCause (driver.obstacles (driver.survey port)) = none) {id : TransferId}
    (hid : (driver.survey port).id? = some id)
    (hfits : firstCause (driver.misfits (source.produce (driver.shown port id)).2) = none) :
    let transfer : Transfer :=
      ⟨.outbound, id, (source.produce (driver.shown port id)).2, driver.address id⟩
    ∃ core, Core.Steady port.world.device.look core ∧
      ((send source).outcome driver port).2.world.device =
        ((core.program transfer).write Register.submit submitBit).note
          (.log (.queued .outbound id transfer.length)) := by
  intro transfer
  have hchecks : driver.directions.outbound = true ∧ (driver.survey port).pending = false := by
    simp only [obstacles, firstCause_cons] at hnone
    split_ifs at hnone with houtbound hpending
    exact ⟨by simpa using houtbound, by simpa using hpending⟩
  obtain ⟨houtbound, hpending⟩ := hchecks
  rw [(driver.survey_core port).1] at hpending
  have hclaim := claimSlot_steady houtbound hpending
  obtain ⟨-, hclaimed, hsurveyed⟩ := claimSlot_surveyed driver port
  obtain ⟨other, hother, hanswer⟩ := hclaimed hnone
  obtain rfl : other = id := Option.some.inj (hother.symm.trans hid)
  let freed := driver.withPool (driver.pool.release other)
  let filled := (fill source other).outcome freed (claimSlot.outcome driver port).2
  have hfill : filled.1 = (transfer.length, freed) := (hsurveyed.fill driver source other).1
  rw [firstCause_misfits] at hfits
  split_ifs at hfits with hlong hzero
  refine ⟨filled.2.world.device, hclaim.trans (fill_steady hsteady _ _ _), ?_⟩
  unfold send
  rw [DriverM.outcome_bind, hanswer]
  dsimp only
  rw [DriverM.outcome_bind, hfill, DriverM.outcome_get]
  change (DriverM.outcome (if driver.capacity < transfer.length then _ else _) freed
    filled.2).2.world.device = _
  rw [if_neg hlong]
  change (DriverM.outcome (if transfer.length = 0 then _ else _) freed filled.2).2.world.device = _
  rw [if_neg hzero]
  exact submit_core freed filled.2 .outbound other transfer.length

/-- On a core that accepts after so many looks, a request that stays ends with the look that comes
after these: a smaller limit gives no answer, and every larger one the same. Its answer and its
driver are those of a request that does not stay, and its transfer was accepted last. While the
buffer is filled, the core may do anything but change how it accepts and the next id. -/
theorem sendAndWait_accepted (driver : Driver slots size) (port : Port (World Core slots size))
    (source : Producer (World Core slots size))
    (hauto : port.world.device.autoAccept = false)
    (hafter : port.world.device.acceptAfter = some looks)
    (hcapacity : driver.capacity ≤ transferLimit)
    (hsteady : ∀ world, Core.Steady world.device (source.meanwhile world).device)
    (hnone : firstCause (driver.obstacles (driver.survey port)) = none)
    (hfits : ∀ id, (driver.survey port).id? = some id →
      0 < (source.produce (driver.shown port id)).2 ∧
        (source.produce (driver.shown port id)).2 ≤ driver.capacity) :
    let sent := (send source).outcome driver port
    ∃ id, (driver.survey port).id? = some id ∧ sent.1.1 = .ok id ∧
      (∀ limit ≤ looks, ((sendAndWait limit source).outcome driver port).1.1 = none) ∧
      ∀ limit, looks < limit →
        let waited := (sendAndWait limit source).outcome driver port
        let transfer : Transfer :=
          ⟨.outbound, id, (source.produce (driver.shown port id)).2, driver.address id⟩
        waited.1 = (some (.ok id), sent.1.2) ∧
          Awaited looks (sent.2.world.device.taken transfer) sent.2 waited.2 := by
  intro sent
  obtain ⟨id, hid, hdispatched⟩ := (send_exact driver port source).2 hnone
  obtain ⟨hpos, hle⟩ := hfits id hid
  have hfit : firstCause (driver.misfits (source.produce (driver.shown port id)).2) = none := by
    rw [firstCause_misfits, if_neg (Nat.not_lt.2 hle), if_neg hpos.ne']
  obtain ⟨hanswer, -⟩ := hdispatched.queued hfit
  obtain ⟨core, hkept, hdevice⟩ := send_hands hsteady hnone hid hfit
  have hnext : port.world.device.look.acceptId = id.val := by
    have hword := (driver.survey_core port).2.1.symm.trans hid
    exact TransferId.ofWord?_eq_some_iff.1 hword
  obtain ⟨hmode, hmode'⟩ := port.world.device.mode_look
  let transfer : Transfer :=
    ⟨.outbound, id, (source.produce (driver.shown port id)).2, driver.address id⟩
  have hlength : 0 < transfer.length ∧ transfer.length ≤ transferLimit :=
    ⟨hpos, hle.trans hcapacity⟩
  have htransfer : core.acceptId = transfer.id.val := hkept.acceptId_eq.trans hnext
  obtain ⟨hcounts, hprogrammed⟩ : sent.2.world.device.Counting looks ∧
      sent.2.world.device.programmed = sent.2.world.device.taken transfer := by
    rw [hdevice]
    exact Core.Counting.handover (hkept.autoAccept_eq.trans (hmode.trans hauto))
      (hkept.acceptAfter_eq.trans (hmode'.trans hafter)) htransfer hlength.1 hlength.2
  have hwaits : ∀ limit, (sendAndWait limit source).outcome driver port = (do
      if ← awaitAccepted limit then return some (.ok id) else return none :
        DriverM Core slots size _).outcome sent.1.2 sent.2 := by
    intro limit
    unfold sendAndWait
    rw [DriverM.outcome_bind, hanswer]
  refine ⟨id, hid, hanswer, fun limit hlimit => ?_, fun limit hlimit => ?_⟩
  · rw [hwaits, DriverM.outcome_bind, awaitAccepted_early hcounts hlimit]
    rfl
  · obtain ⟨haccepted, hawaited⟩ := awaitAccepted_late hcounts hlimit
    rw [hprogrammed] at hawaited
    dsimp only
    rw [hwaits, DriverM.outcome_bind, haccepted]
    exact ⟨rfl, hawaited⟩

/-- With two looks to count, the third one ends a wait for the first transfer. -/
theorem sendAndWait_accepted_third :
    let port : Port (World Core 1 16) := ⟨⟨Core.fresh.acceptAfterLooks 2, .zero⟩, #[]⟩
    let source : Producer (World Core 1 16) := ⟨fun _ => (#[1, 2], 2), id⟩
    let waited := (sendAndWait 3 source).outcome Rig.single.driver port
    ((sendAndWait 2 source).outcome Rig.single.driver port).1.1 = none ∧
      waited.1.1 = some (.ok .first) ∧
      waited.2.world.device.submitPending = false ∧
      waited.2.world.device.accepted = #[⟨0, 2, 0, 0⟩] := by
  intro port source waited
  have hfirst : (Rig.single.driver.survey port).id? = some .first := by decide +kernel
  obtain ⟨id, hid, -, hearly, hlate⟩ := sendAndWait_accepted Rig.single.driver port
    source rfl rfl (by decide +kernel) (fun _ => .refl _) (by decide +kernel) fun id hid => by
      obtain rfl := Option.some.inj (hfirst.symm.trans hid)
      decide +kernel
  obtain rfl := Option.some.inj (hfirst.symm.trans hid)
  obtain ⟨hanswer, hawaited⟩ := hlate 3 (by decide)
  refine ⟨hearly 2 le_rfl, congrArg Prod.fst hanswer, hawaited.submitPending_eq, ?_⟩
  exact hawaited.accepted_eq.trans (by decide +kernel)

end Driver
end DmaController

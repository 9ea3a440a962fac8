import DmaController.Proofs.Acceptance
import DmaController.Proofs.Rounds
import DmaController.Proofs.Stream
import DmaController.Proofs.Takeback

/-!
The start of a stream on a core that accepts at once. Whatever is in flight before is given up, and
then the refill goes round the slots: slot after slot is queued under its own number, until the next
id falls onto a slot that is in flight again, after the last slot or after the last id.
-/
namespace DmaController

open Sim

namespace Sim.Core

variable {core before : Core} {transfers : List Transfer}

theorem nextId_accept (h : core.submitPending = true) : core.accept.nextId =
    if core.acceptId ≥ 30 then 0 else BitVec.ofNat 32 (core.acceptId + 1) := by
  rw [accept, if_pos h]
  split <;> rfl

theorem registers_accept (core : Core) : core.accept.registers = core.registers := by
  unfold accept
  split_ifs <;> rfl

/-- Since it was `before`, the core has taken over these transfers and no others. They got the ids
from zero on, and the next submission will be accepted at once. -/
structure Took (before : Core) (transfers : List Transfer) (core : Core) : Prop where
  autoAccept_eq : core.autoAccept = true
  submitPending_eq : core.submitPending = false
  nextId_eq : core.nextId = BitVec.ofNat 32 (transfers.length % transferIdCount)
  accepted_eq : core.accepted.toList = before.accepted.toList ++ transfers.map before.taken
  source_eq : core.registers.get Register.source = before.registers.get Register.source

namespace Took

/-- Disabling an enabled core gives up whatever it has begun. -/
theorem abort {value : Word} (hauto : core.autoAccept = true) (henabled : core.isEnabled = true)
    (hclear : value.hasAny Control.enable = false) :
    Took core [] (core.write Register.control value) := by
  have hengine := (core.write_control value).trans
    (core.toEngine.write_control_abort henabled hclear)
  refine ⟨hauto, ?_, ?_, ?_, ?_⟩
  · rw [hengine]
    rfl
  · rw [hengine]
    rfl
  · rw [hengine]
    exact (List.append_nil _).symm
  · rw [hengine]
    exact RegisterFile.get_set_of_ne _ (by decide) value

variable (h : Took before transfers core)
include h

theorem note (action : Action) : Took before transfers (core.note action) :=
  ⟨h.autoAccept_eq, h.submitPending_eq, h.nextId_eq, h.accepted_eq, h.source_eq⟩

theorem enable {value : Word} (hset : value.hasAny Control.enable = true) :
    Took before transfers (core.write Register.control value) := by
  have hengine := (core.write_control value).trans (core.toEngine.write_control fun _ => hset)
  refine ⟨h.autoAccept_eq, ?_, ?_, ?_, ?_⟩
  · rw [hengine]
    exact h.submitPending_eq
  · rw [hengine]
    exact h.nextId_eq
  · rw [hengine]
    exact h.accepted_eq
  · rw [hengine]
    exact (RegisterFile.get_set_of_ne _ (by decide) value).trans h.source_eq

theorem write_irqStatus (value : Word) :
    Took before transfers (core.write Register.irqStatus value) :=
  ⟨h.autoAccept_eq, h.submitPending_eq, h.nextId_eq, h.accepted_eq, h.source_eq⟩

theorem write_irqMask (value : Word) : Took before transfers (core.write Register.irqMask value) :=
  ⟨h.autoAccept_eq, h.submitPending_eq, h.nextId_eq, h.accepted_eq,
    (RegisterFile.get_set_of_ne _ (by decide) value).trans h.source_eq⟩

theorem acceptId_eq : core.acceptId = transfers.length % transferIdCount := by
  have hlt : transfers.length % transferIdCount < 31 := Nat.mod_lt _ (by decide)
  have hnext : core.nextId.toNat = transfers.length % transferIdCount := by
    rw [h.nextId_eq, BitVec.toNat_ofNat]
    omega
  rw [core.acceptId_of_lt (by omega), hnext]

/-- The transfer that is handed over next is taken over at once. -/
theorem handover {transfer : Transfer} {action : Action}
    (hinbound : transfer.direction = .inbound)
    (hid : transfer.id.val = transfers.length % transferIdCount) (hpos : 0 < transfer.length)
    (hle : transfer.length ≤ transferLimit) : Took before (transfers ++ [transfer])
      (((core.program transfer).write Register.submit submitBit).note action) := by
  have hprogram := core.steady_program transfer
  have hacceptId : (core.program transfer).queue.acceptId = transfer.id.val :=
    ((hprogram.trans (steady_queue _)).acceptId_eq.trans h.acceptId_eq).trans hid.symm
  have hprogrammed := programmed_queue (h.acceptId_eq.trans hid.symm) hpos hle
  have hpending := (core.program transfer).submitPending_queue
  have htaken : core.taken transfer = before.taken transfer := by
    unfold taken
    rw [hinbound, h.source_eq]
  refine .note ?_ action
  rw [write_submit, hprogram.autoAccept_eq, h.autoAccept_eq, if_pos rfl]
  refine ⟨?_, submitPending_accept hpending, ?_, ?_, ?_⟩
  · exact (mode_accept _).1.trans (hprogram.autoAccept_eq.trans h.autoAccept_eq)
  · rw [nextId_accept hpending, hacceptId, hid, List.length_append, List.length_singleton]
    unfold transferIdCount
    split_ifs with hlast
    · -- The last id was given out, and the core begins again with the first.
      have hwrap : (transfers.length + 1) % 31 = 0 := by omega
      rw [hwrap]
      rfl
    · have hnext : (transfers.length + 1) % 31 = transfers.length % 31 + 1 := by omega
      rw [hnext]
  · rw [accepted_accept hpending, hprogrammed, htaken, Array.toList_push, List.map_append,
      ← List.append_assoc]
    exact congrArg (· ++ _) ((congrArg Array.toList (core.accepted_program transfer)).trans
      h.accepted_eq)
  · rw [registers_accept]
    change (core.program transfer).registers.get _ = _
    rw [registers_program, hinbound]
    exact ((RegisterFile.get_set_of_ne _ (by decide) _).trans
      (RegisterFile.get_set_of_ne _ (by decide) _)).trans h.source_eq

end Took
end Sim.Core

theorem TransferId.val_first_ahead {distance : Nat} (h : distance < transferIdCount) :
    (TransferId.first.ahead distance).val = distance := by
  change (0 + distance) % 31 = distance
  rw [Nat.zero_add]
  exact Nat.mod_eq_of_lt h

variable {slots size : Nat} [HasSlots slots]

/-- The inbound transfers under the first ids, in their order. -/
def primers (address : TransferId → Word) (granted count : Nat) : List Transfer :=
  (TransferId.first.lap.take count).map fun id => ⟨.inbound, id, granted, address id⟩

section Primers

variable {address : TransferId → Word} {driver : Driver slots size} {granted count : Nat}

theorem length_primers (h : count ≤ transferIdCount) :
    (primers address granted count).length = count := by
  rw [primers, List.length_map, List.length_take, TransferId.length_lap, Nat.min_eq_left h]

theorem primers_succ (h : count < transferIdCount) :
    primers address granted (count + 1) = primers address granted count ++
      [⟨.inbound, TransferId.first.ahead count, granted,
        address (TransferId.first.ahead count)⟩] := by
  have hget : TransferId.first.lap[count]? = some (TransferId.first.ahead count) := by
    simp [TransferId.lap, h]
  unfold primers
  rw [List.take_add_one, hget, List.map_append]
  rfl

/-- After the first transfers the next one is due. -/
theorem Sim.Core.Took.next {before core : Core}
    (h : Took before (primers address granted count) core) (hcount : count ≤ transferIdCount) :
    TransferId.ofWord? (core.nextId &&& transferIdField) = some (TransferId.first.ahead count) := by
  refine TransferId.ofWord?_eq_some_iff.2 ?_
  change core.acceptId = (0 + count) % 31
  rw [h.acceptId_eq, length_primers hcount, Nat.zero_add]
  rfl

/-- The first slots are in flight, each under its own number, and the others are free. -/
structure Primed (granted count : Nat) (driver : Driver slots size) : Prop where
  slotAt_eq : ∀ (i : Fin slots) (id : TransferId), i.val = id.val → i.val < count →
    driver.pool.slotAt i = ⟨granted, .inFlight id⟩
  free : ∀ i : Fin slots, count ≤ i.val → (driver.pool.slotAt i).isInFlight = false

namespace Primed

theorem submit (h : Primed granted count driver) (hslots : count < slots)
    (hids : count < transferIdCount) {address : Word} : Primed granted (count + 1)
      (driver.submitted ⟨.inbound, TransferId.first.ahead count, granted, address⟩) := by
  have hid : (TransferId.first.ahead count).val = count := TransferId.val_first_ahead hids
  have hindex : (Pool.index slots (TransferId.first.ahead count)).val = count := by
    rw [Pool.val_index, hid, Nat.mod_eq_of_lt hslots]
  have hslot := driver.pool.slotAt_submit (TransferId.first.ahead count) granted
  constructor
  · intro i id hi hlt
    refine (hslot i).trans ?_
    split_ifs with heq
    · have hsame : TransferId.first.ahead count = id := Fin.ext (by omega)
      rw [hsame]
    · have hne : i.val ≠ count := fun hcount => heq (Fin.ext (by omega))
      exact h.slotAt_eq i id hi (by omega)
  · intro i hle
    refine (congrArg Slot.isInFlight ((hslot i).trans (if_neg ?_))).trans (h.free i (by omega))
    rintro rfl
    omega

/-- After the last slot or the last id it is the first slot's turn again. -/
theorem occupied (h : Primed granted count driver) (hcount : count = min slots transferIdCount) :
    (driver.pool.slot (TransferId.first.ahead count)).isInFlight = true := by
  have hslots : 0 < slots := Nat.pos_of_neZero slots
  have hzero : (Pool.index slots (TransferId.first.ahead count)).val = 0 := by
    rw [Pool.val_index]
    change (0 + count) % 31 % slots = 0
    rw [Nat.zero_add, hcount]
    -- With fewer slots than ids the slot number wraps round, and otherwise the id does.
    rcases Nat.lt_or_ge slots 31 with hlt | hge
    · rw [Nat.min_eq_left (show slots ≤ transferIdCount from hlt.le), Nat.mod_eq_of_lt hlt,
        Nat.mod_self]
    · rw [Nat.min_eq_right (show transferIdCount ≤ slots from hge)]
      exact Nat.zero_mod slots
  have hpos : 0 < count := by
    rw [hcount]
    exact Nat.lt_min.2 ⟨hslots, by decide⟩
  exact congrArg Slot.isInFlight (h.slotAt_eq _ .first hzero (by omega))

end Primed
end Primers

namespace Driver

variable {driver : Driver slots size} {port : Port (World Core slots size)}
variable {granted bytes : Nat} {id : TransferId}

/-- A request that asks for no more than there is reads the next id, and the slot of that id
decides. -/
theorem request_core (hsize : driver.requestSize? bytes = some granted)
    (hid : TransferId.ofWord? (port.world.device.nextId &&& transferIdField) = some id) :
    let looked := (RegisterBlock.nextId.run port).2
    (request bytes).outcome driver port =
      if (driver.pool.slot id).isInFlight then ((.error .queueFull, driver), looked)
      else ((.ok id, driver.submitted ⟨.inbound, id, granted, driver.address id⟩),
        ((submit .inbound id granted).outcome driver looked).2) := by
  intro looked
  have hword : TransferId.ofWord? (RegisterBlock.nextId.run port).1 = some id := hid
  obtain ⟨hnext, -, hport⟩ := nextId?_surveyed driver port
  unfold request
  rw [DriverM.outcome_get, hsize]
  dsimp only
  rw [DriverM.outcome_bind, hnext, hport (by rw [hword]; exact Option.some_ne_none id), hword,
    DriverM.outcome_get]
  split_ifs
  · rfl
  · rfl

/-- On a core on which nothing is pending, the slot of the next id decides whether a round of a
refill queues a transfer. -/
theorem refillRound_core (hclear : port.world.device.submitPending = false)
    (hsize : driver.requestSize? bytes = some granted)
    (hid : TransferId.ofWord? (port.world.device.nextId &&& transferIdField) = some id) :
    ∃ looked, looked.world.device = port.world.device ∧
      (refillRound bytes).outcome driver port =
        if (driver.pool.slot id).isInFlight then ((false, driver), looked)
        else ((true, driver.submitted ⟨.inbound, id, granted, driver.address id⟩),
          ((submit .inbound id granted).outcome driver looked).2) := by
  have hlook : port.world.device.look = port.world.device := Core.look_of_clear hclear
  have hglimpsed : TransferId.ofWord? (port.glimpsed.world.device.nextId &&& transferIdField) =
      some id := by
    change TransferId.ofWord? (port.world.device.look.nextId &&& transferIdField) = some id
    rw [hlook]
    exact hid
  refine ⟨(RegisterBlock.nextId.run port.glimpsed).2, hlook, ?_⟩
  unfold refillRound
  rw [DriverM.outcome_bind, submitPending_core, hlook, hclear, if_neg Bool.false_ne_true,
    DriverM.outcome_bind, request_core hsize hglimpsed]
  split_ifs
  · rfl
  · rfl

end Driver

/-- A driver that has just been restarted for a stream. -/
def Driver.prepared (driver : Driver slots size) (granted : Nat) : Driver slots size :=
  { driver.restarted with stream := some granted }

/-- How far the refill has come: so many transfers were queued into their slots, and the core has
taken them over. -/
structure Filling (before : Core) (address : TransferId → Word) (granted count : Nat)
    (driver : Driver slots size) (core : Core) : Prop where
  granted_pos : 0 < granted
  granted_le : granted ≤ transferLimit
  size_eq : driver.requestSize? granted = some granted
  address_eq : driver.address = address
  primed : Primed granted count driver
  took : Core.Took before (primers address granted count) core

namespace Filling

variable {before : Core} {address : TransferId → Word} {granted count : Nat}
variable {driver : Driver slots size} {port : Port (World Core slots size)}

theorem start {core : Core} (hpos : 0 < granted) (hle : granted ≤ driver.capacity)
    (hlimit : driver.capacity ≤ transferLimit) (htook : Core.Took before [] core) :
    Filling before driver.address granted 0 (driver.prepared granted) core where
  granted_pos := hpos
  granted_le := hle.trans hlimit
  size_eq := Driver.requestSize?_self hpos hle
  address_eq := rfl
  primed :=
    { slotAt_eq := fun _ _ _ hlt => absurd hlt (Nat.not_lt_zero _)
      free := fun i _ => congrArg Slot.isInFlight (driver.pool.slotAt_releaseAll i) }
  took := htook

/-- While there is a slot and an id that is not taken, a round takes the next one. -/
theorem more (h : Filling before address granted count driver port.world.device)
    (hcount : count < min slots transferIdCount) :
    ∃ d port', (Driver.refillRound granted).outcome driver port = ((true, d), port') ∧
      Filling before address granted (count + 1) d port'.world.device := by
  obtain ⟨hslots, hids⟩ := Nat.lt_min.1 hcount
  have hid : (TransferId.first.ahead count).val = count := TransferId.val_first_ahead hids
  obtain ⟨looked, hlooked, hround⟩ :=
    Driver.refillRound_core h.took.submitPending_eq h.size_eq (h.took.next hids.le)
  have hfree : (driver.pool.slot (TransferId.first.ahead count)).isInFlight = false := by
    refine h.primed.free _ ?_
    rw [Pool.val_index, hid, Nat.mod_eq_of_lt hslots]
  rw [if_neg (by simp [hfree])] at hround
  refine ⟨_, _, hround, h.granted_pos, h.granted_le, h.size_eq, h.address_eq,
    h.primed.submit hslots hids, ?_⟩
  rw [Driver.submit_core, hlooked, h.address_eq, primers_succ hids]
  refine h.took.handover rfl ?_ h.granted_pos h.granted_le
  rw [length_primers hids.le, Nat.mod_eq_of_lt hids]
  exact hid

/-- After the last slot or the last id a round takes nothing. -/
theorem stop (h : Filling before address granted count driver port.world.device)
    (hcount : count = min slots transferIdCount) :
    ∃ port', (Driver.refillRound granted).outcome driver port = ((false, driver), port') ∧
      port'.world.device = port.world.device := by
  have hids : count ≤ transferIdCount := hcount ▸ Nat.min_le_right _ _
  obtain ⟨looked, hlooked, hround⟩ :=
    Driver.refillRound_core h.took.submitPending_eq h.size_eq (h.took.next hids)
  rw [if_pos (h.primed.occupied hcount)] at hround
  exact ⟨looked, hround, hlooked⟩

/-- From any stage on the refill goes round by round to the last slot or the last id. -/
theorem rounds {rest : Nat} (h : Filling before address granted count driver port.world.device)
    (hcount : count + rest = min slots transferIdCount) :
    ∃ d port', Driver.Rounds granted driver port ((rest, d), port') ∧
      Filling before address granted (min slots transferIdCount) d port'.world.device := by
  -- On the rounds that are left; `Filling` is what each of them keeps.
  induction rest generalizing count driver port with
  | zero =>
    obtain ⟨port', hround, hdevice⟩ := h.stop hcount
    refine ⟨driver, port', .stop hround, ?_⟩
    rw [hdevice, ← hcount]
    exact h
  | succ rest ih =>
    obtain ⟨d, port', hround, hfilling⟩ := h.more (by omega)
    obtain ⟨d', port'', hrounds, hlast⟩ := ih hfilling (by omega)
    exact ⟨d', port'', .more hround hrounds, hlast⟩

end Filling

namespace Driver

variable {driver : Driver slots size} {port : Port (World Core slots size)} {granted : Nat}

omit [HasSlots slots] in
/-- On an enabled core the restart gives everything up, and the stream is set up after it. -/
theorem prepare_core (driver : Driver slots size) (port : Port (World Core slots size))
    (granted : Nat) (hauto : port.world.device.autoAccept = true)
    (henabled : port.world.device.isEnabled = true) :
    let ran := (prepare granted).outcome driver (disable.outcome driver port).2
    ran.1.2 = driver.prepared granted ∧ Core.Took port.world.device [] ran.2.world.device := by
  intro ran
  let core := port.world.device
  let cleared := core.peek Register.control &&& ~~~ Control.enable
  let disabled := core.write Register.control cleared
  let set := disabled.peek Register.control ||| Control.enable
  have hcleared : cleared.hasAny Control.enable = false := by
    simp [cleared, Word.hasAny, BitVec.and_assoc]
  have hset : set.hasAny Control.enable = true := Word.hasAny_or_right (by decide)
  have hdevice : ran.2.world.device = ((((disabled.write Register.control set).note
      (.released driver.inFlight)).write Register.irqStatus Irq.all).write Register.irqMask
        Irq.queued) := rfl
  refine ⟨rfl, ?_⟩
  rw [hdevice]
  exact ((((Core.Took.abort hauto henabled hcleared).enable hset).note _).write_irqStatus
    _).write_irqMask _

/-- How a stream of so many bytes in each transfer starts on the core `before`: every slot that has
an id of its own number is in flight under it, and the core has taken those transfers over, in their
order. -/
structure Primes (driver : Driver slots size) (before : Core) (granted : Nat)
    (ran : (Except TransferError Nat × Driver slots size) × Port (World Core slots size)) :
    Prop where
  answer_eq : ran.1.1 = .ok (min slots transferIdCount)
  inFlight_eq : ran.1.2.inFlight = min slots transferIdCount
  slotAt_eq : ∀ (i : Fin slots) (id : TransferId), i.val = id.val →
    ran.1.2.pool.slotAt i = ⟨granted, .inFlight id⟩
  accepted_eq : ran.2.world.device.accepted.toList = before.accepted.toList ++
    (TransferId.first.lap.take (min slots transferIdCount)).map fun id =>
      ⟨id.val, granted, before.registers.get Register.source, driver.address id⟩
  cursor_eq : ran.1.2.cursor = .first
  stream_eq : ran.1.2.stream = some granted

/-- Once the core has given everything up, the stream fills the pool. -/
theorem restream_primes (hauto : port.world.device.autoAccept = true)
    (henabled : port.world.device.isEnabled = true) (hpos : 0 < granted)
    (hle : granted ≤ driver.capacity) (hlimit : driver.capacity ≤ transferLimit) :
    Primes driver port.world.device granted
      ((restream granted).outcome driver (disable.outcome driver port).2) := by
  obtain ⟨hdriver, htook⟩ := prepare_core driver port granted hauto henabled
  obtain ⟨ready, hready⟩ : ∃ ran,
    (prepare granted).outcome driver (disable.outcome driver port).2 = ran := ⟨_, rfl⟩
  obtain ⟨⟨_, d⟩, port'⟩ := ready
  rw [hready] at hdriver htook
  obtain rfl : d = driver.prepared granted := hdriver
  have hnone : (driver.prepared granted).pool.inFlight = 0 := driver.pool.inFlight_releaseAll
  have hstart := Filling.start hpos hle hlimit htook
  obtain ⟨d, port'', hrounds, hlast⟩ := hstart.rounds (Nat.zero_add _)
  have hrefill := (refill_rounds _ port' granted).unique hrounds
  obtain ⟨_, -, hrefilled⟩ := hrounds.refilled
  obtain ⟨_, -, hrequested⟩ := refill_enters granted port'
  rw [hrefill] at hrequested
  unfold restream
  rw [DriverM.outcome_bind, hready, DriverM.outcome_bind, hrefill]
  refine ⟨rfl, ?_, fun i id hi => ?_, ?_, hrequested.cursor_eq, hrequested.stream_eq⟩
  · exact hrefilled.inFlight_eq.trans (by rw [Driver.inFlight, hnone, Nat.zero_add])
  · exact hlast.primed.slotAt_eq i id hi (Nat.lt_min.2 ⟨i.isLt, hi ▸ id.isLt⟩)
  · refine hlast.took.accepted_eq.trans (congrArg _ ?_)
    rw [primers, List.map_map]
    rfl

/-- The start of a stream that is refused has done nothing. On an enabled core that accepts at once
every other one fills the pool, whatever was in flight, pending, outstanding or done before. -/
theorem startStream_primes (driver : Driver slots size) (port : Port (World Core slots size))
    (bytes : Nat) :
    let ran := (startStream bytes).outcome driver port
    (driver.directions.inbound = false → ran = ((.error .notSupported, driver), port)) ∧
    (driver.directions.inbound = true → driver.capacity < bytes →
      ran = ((.error .bufferExceeded, driver), port)) ∧
    (driver.directions.inbound = true → bytes ≤ driver.capacity → 0 < driver.capacity →
      driver.capacity ≤ transferLimit → port.world.device.autoAccept = true →
      port.world.device.isEnabled = true →
      Primes driver port.world.device (if bytes = 0 then driver.capacity else bytes) ran) := by
  intro ran
  have hran : ran = (startStream bytes).outcome driver port := rfl
  rw [startStream_eq, DriverM.outcome_get] at hran
  refine ⟨fun hinbound => ?_, fun hinbound hlarge => ?_,
    fun hinbound hfits hpos hlimit hauto henabled => ?_⟩
  · rw [hinbound] at hran
    exact hran
  · have hsize : driver.requestSize? bytes = none := requestSize?_eq_none_iff.2 hlarge
    rw [hinbound, if_pos rfl, DriverM.outcome_get, hsize] at hran
    exact hran
  · obtain ⟨granted, hgranted⟩ :
        ∃ granted, (if bytes = 0 then driver.capacity else bytes) = granted := ⟨_, rfl⟩
    have hsize : driver.requestSize? bytes = some granted := by
      rw [requestSize?, ← hgranted, if_neg (Nat.not_lt.2 hfits)]
      split_ifs <;> rfl
    have hbounds : 0 < granted ∧ granted ≤ driver.capacity := by
      rw [← hgranted]
      split_ifs with hzero
      · exact ⟨hpos, le_rfl⟩
      · exact ⟨Nat.pos_of_ne_zero hzero, hfits⟩
    rw [hinbound, if_pos rfl, DriverM.outcome_get, hsize] at hran
    rw [hgranted, hran]
    exact restream_primes hauto henabled hbounds.1 hbounds.2 hlimit

/-- Two slots are queued on a core that has a submission pending and another one outstanding. -/
theorem startStream_primes_two :
    let core : Core := { Core.fresh.setRegister Register.control 1 with
      submitPending := true, outstanding := [7], nextId := 8 }
    let port : Port (World Core 2 16) := ⟨⟨core, .zero⟩, #[]⟩
    let ran := (startStream 8).outcome Rig.small.driver port
    ran.1.1 = .ok 2 ∧ ran.1.2.inFlight = 2 ∧ ran.1.2.stream = some 8 ∧
      ran.2.world.device.accepted.toList =
        [⟨0, 8, 0, Rig.small.driver.address .first⟩,
          ⟨1, 8, 0, Rig.small.driver.address TransferId.first.next⟩] := by
  intro core port ran
  obtain ⟨-, -, hprimes⟩ := startStream_primes Rig.small.driver port 8
  have hprimed := hprimes rfl (by decide) (by decide) (by decide) rfl (by decide +kernel)
  refine ⟨hprimed.answer_eq, hprimed.inFlight_eq, hprimed.stream_eq, ?_⟩
  exact hprimed.accepted_eq.trans (by decide +kernel)

end Driver
end DmaController

import DmaController.Proofs.Replay
import Mathlib.Data.Fintype.Card

/-!
What the pool of a driver stands for, on any bus. Main statements: at every moment of a run each
slot in flight is the one of its id and has a length that the capacity allows, and a slot is only
submitted while it is free; every length that is programmed is the one of the slot that was just
submitted, and no slice of a buffer is longer than the buffer.
-/
namespace DmaController

variable {σ : Type} {slots size : Nat}

namespace Pool

/-- What holds of a pool that was sized for transfers of at most so many bytes. -/
structure Valid [HasSlots slots] (maxTransfer : Nat) (pool : Pool slots size) : Prop where
  /-- All slots have this capacity. -/
  capacity_eq : pool.capacity = min (min maxTransfer size) 0xF00
  capacity_pos : 0 < pool.capacity
  index_eq : ∀ (i : Fin slots) (id : TransferId), (pool.slotAt i).transferId? = some id →
    i.val = id.val % slots ∧ id.val ≤ 30
  distinct : ∀ (i j : Fin slots) (id : TransferId), (pool.slotAt i).transferId? = some id →
    (pool.slotAt j).transferId? = some id → i = j
  inFlight_le : pool.inFlight ≤ min slots 31
  size_pos : ∀ i : Fin slots, (pool.slotAt i).isInFlight = true → 1 ≤ (pool.slotAt i).size
  size_le : ∀ i : Fin slots, (pool.slotAt i).isInFlight = true →
    (pool.slotAt i).size ≤ pool.capacity

theorem inFlight_eq_length (pool : Pool slots size) :
    pool.inFlight = (pool.slots.toList.filterMap Slot.transferId?).length := by
  rw [inFlight, ← Vector.countP_toList, List.length_filterMap_eq_countP]
  rfl

variable [HasSlots slots] {pool : Pool slots size}

/-- Slots in flight have different ids, and so there are never more of them than ids. -/
theorem Orderly.inFlight_le (h : pool.Orderly) : pool.inFlight ≤ min slots transferIdCount := by
  have hnodup : (pool.slots.toList.filterMap Slot.transferId?).Nodup := by
    refine List.Pairwise.filterMap Slot.transferId? (R := fun a b => ∀ id,
      a.transferId? = some id → b.transferId? ≠ some id) ?_ ?_
    · rintro a b hne id hid other hother rfl
      exact hne id hid hother
    · rw [List.pairwise_iff_getElem]
      intro i j hi hj hij id hid hother
      rw [Vector.length_toList] at hi hj
      rw [Vector.getElem_toList] at hid hother
      have hsame := (h.index_eq ⟨i, hi⟩ id hid).symm.trans (h.index_eq ⟨j, hj⟩ id hother)
      exact Nat.ne_of_lt hij (congrArg Fin.val hsame)
  refine Nat.le_min.2 ⟨Vector.countP_le_size, ?_⟩
  rw [inFlight_eq_length]
  simpa using hnodup.length_le_card

theorem Orderly.valid {maxTransfer : Nat} (h : pool.Orderly) (hpos : 0 < pool.capacity)
    (hcapacity : pool.capacity = clamp size maxTransfer) : pool.Valid maxTransfer where
  capacity_eq := hcapacity
  capacity_pos := hpos
  index_eq i id hid := ⟨congrArg Fin.val (h.index_eq i id hid).symm, Nat.le_of_lt_succ id.isLt⟩
  distinct i j id hi hj := (h.index_eq i id hi).symm.trans (h.index_eq j id hj)
  inFlight_le := h.inFlight_le
  size_pos := h.size_pos
  size_le := h.size_le

end Pool

theorem Driver.start_capacity [RegisterBus (World σ slots size)] {config : Config}
    {pool : Pool slots size} {started : Driver slots size} {port port' : Port (World σ slots size)}
    (h : (start config pool).run port = (.ok started, port')) :
    started.capacity = min (min config.maxTransfer size) 0xF00 :=
  congrArg Pool.capacity (start_sized h).1

namespace Onward

variable [HasSlots slots] [RegisterBus (World σ slots size)] [InterruptLine (World σ slots size)]
variable {world : World σ slots size} {config : Config} {pool : Pool slots size}
variable {started driver : Driver slots size} {port₀ port : Port (World σ slots size)}
variable {front : List Action}

theorem pool_eq (h : Onward started port₀ driver port)
    (hstart : (Driver.start config pool).run ⟨world, #[]⟩ = (.ok started, port₀)) :
    driver.pool = started.pool.replay port.journal.toList := by
  obtain ⟨known, hrecounts⟩ := h.recounts hstart
  exact hrecounts.pool_eq

/-- The pool is valid at every moment, in an operation too. -/
theorem valid (h : Onward started port₀ driver port)
    (hstart : (Driver.start config pool).run ⟨world, #[]⟩ = (.ok started, port₀))
    (hfront : front <+: port.journal.toList) :
    (started.pool.replay front).Valid config.maxTransfer := by
  obtain ⟨known, hrecounts⟩ := h.recounts hstart
  refine (hrecounts.orderly front hfront).valid ?_ ?_
  · rw [Pool.capacity_replay]
    exact (Driver.start_fresh hstart).capacity_pos
  · rw [Pool.capacity_replay]
    exact Driver.start_capacity hstart

theorem permits (h : Onward started port₀ driver port)
    (hstart : (Driver.start config pool).run ⟨world, #[]⟩ = (.ok started, port₀)) :
    Throughout started.Permits port.journal.toList := by
  obtain ⟨known, hrecounts⟩ := h.recounts hstart
  exact hrecounts.permits

/-- What is given out to be filled is a buffer's usable part, which the buffer has. -/
theorem offered_eq (h : Onward started port₀ driver port)
    (hstart : (Driver.start config pool).run ⟨world, #[]⟩ = (.ok started, port₀)) {offered : Nat}
    (hoffered : offered ∈ port.journal.offers) :
    offered = min (min config.maxTransfer size) 0xF00 := by
  obtain ⟨action, hmem, hoffer⟩ := List.mem_filterMap.1 hoffered
  obtain ⟨front, back, hjournal⟩ := List.append_of_mem hmem
  cases action with
  | offered capacity =>
    obtain rfl := Option.some.inj hoffer
    exact (h.permits hstart front _ back hjournal).trans (Driver.start_capacity hstart)
  | _ => cases hoffer

/-- The pool of a driver is what the journal says, and it is valid whatever the bus shows: at every
moment the slots in flight are those of different ids, no more than there are slots and ids, with
lengths from one byte to the capacity. A slot is free when it is submitted, and the ids that the
driver keeps are ids. -/
theorem represented (h : Onward started port₀ driver port)
    (hstart : (Driver.start config pool).run ⟨world, #[]⟩ = (.ok started, port₀)) :
    driver.pool = started.pool.replay port.journal.toList ∧
    (∀ front, front <+: port.journal.toList →
      (started.pool.replay front).Valid config.maxTransfer) ∧
    (∀ front transfer back, port.journal.toList = front ++ .submitted transfer :: back →
      ((started.pool.replay front).slot transfer.id).isInFlight = false ∧
        1 ≤ transfer.length ∧ transfer.length ≤ (started.pool.replay front).capacity) ∧
    (∀ offered ∈ port.journal.offers, offered = driver.pool.capacity) ∧
    driver.cursor.val ≤ 30 ∧ ∀ id, driver.newest = some id → id.val ≤ 30 := by
  refine ⟨h.pool_eq hstart, fun front hfront => h.valid hstart hfront, ?_, ?_,
    Nat.le_of_lt_succ driver.cursor.isLt, fun id _ => Nat.le_of_lt_succ id.isLt⟩
  · intro front transfer back hjournal
    obtain ⟨hfree, hpos, hle⟩ := h.permits hstart front _ back hjournal
    refine ⟨hfree, hpos, ?_⟩
    rw [Pool.capacity_replay]
    exact hle
  · intro offered hoffered
    rw [h.offered_eq hstart hoffered, h.pool_eq hstart, Pool.capacity_replay]
    exact (Driver.start_capacity hstart).symm

/-- One slot is in flight. -/
theorem represented_sent :
    let rig := (Call.send fun _ => (#[1], 1)).perform Rig.small
    rig.driver.inFlight = 1 ∧ rig.driver.pool.Valid transferLimit := by
  have hsent : Onward Rig.small.driver Rig.small.port _ _ :=
    Onward.start.perform (.send ⟨fun _ => (#[1], 1), Sim.occur .fill⟩)
  obtain ⟨hpool, hvalid, -⟩ := represented hsent Rig.small_started
  exact ⟨by decide +kernel, hpool ▸ hvalid _ List.prefix_rfl⟩

/-- Lengths and slices are never out of bounds, whatever the bus shows, callers ask for and fillers
claim. The register of the length takes one less than the length of the slot that was just
submitted; a delivery passes on exactly the bytes that its slot counts. -/
theorem lengths_in_bounds (h : Onward started port₀ driver port)
    (hstart : (Driver.start config pool).run ⟨world, #[]⟩ = (.ok started, port₀)) :
    driver.pool = started.pool.replay port.journal.toList ∧
    (∀ front value back, port.journal.toList = front ++ .write Register.length value :: back →
      ∃ transfer, (front.filterMap Action.submission?).getLast? = some transfer ∧
        (started.pool.replay front).slot transfer.id =
          ⟨transfer.length, .inFlight transfer.id⟩ ∧
        1 ≤ transfer.length ∧ transfer.length ≤ min (min config.maxTransfer size) 0xF00 ∧
        value.toNat = transfer.length - 1) ∧
    (∀ front id data back, port.journal.toList = front ++ .delivered id data :: back →
      data.size = ((started.pool.replay front).slot id).size ∧
        ((started.pool.replay front).slot id).size ≤ size) ∧
    ∀ offered ∈ port.journal.offers, offered ≤ size := by
  have hvalid : ∀ {front action back}, port.journal.toList = front ++ action :: back →
      (started.pool.replay front).Valid config.maxTransfer :=
    fun hjournal => h.valid hstart ⟨_, hjournal.symm⟩
  refine ⟨h.pool_eq hstart, ?_, ?_, ?_⟩
  · intro front value back hjournal
    obtain ⟨transfer, ⟨hlast, hslot⟩, hvalue⟩ := (h.permits hstart front _ back hjournal).1 rfl
    have hheld : ((started.pool.replay front).slot transfer.id).isInFlight = true := by
      rw [hslot]
      rfl
    have hpos := (hvalid hjournal).size_pos _ hheld
    have hle := (hvalid hjournal).size_le _ hheld
    rw [show (started.pool.replay front).slotAt _ = _ from hslot] at hpos hle
    rw [(hvalid hjournal).capacity_eq] at hle
    have hlimit : transfer.length ≤ 0xF00 := Nat.le_trans hle (Nat.min_le_right ..)
    refine ⟨transfer, hlast, hslot, hpos, hle, ?_⟩
    rw [hvalue]
    bv_omega
  · intro front id data back hjournal
    obtain ⟨hdata, hid⟩ := h.permits hstart front _ back hjournal
    have hle := (hvalid hjournal).size_le (Pool.index slots id)
      (Option.isSome_iff_exists.2 ⟨id, hid⟩)
    rw [(hvalid hjournal).capacity_eq] at hle
    have hsize : ((started.pool.replay front).slot id).size ≤ size :=
      Nat.le_trans hle (Nat.le_trans (Nat.min_le_left ..) (Nat.min_le_right ..))
    exact ⟨hdata.trans (Nat.min_eq_left hsize), hsize⟩
  · intro offered hoffered
    rw [h.offered_eq hstart hoffered]
    exact Nat.le_trans (Nat.min_le_left ..) (Nat.min_le_right ..)

/-- Two bytes are programmed as a one. -/
theorem lengths_in_bounds_sent :
    let rig := (Call.send fun _ => (#[1, 2], 2)).perform Rig.small
    ∃ (front back : List Action) (transfer : Transfer),
      rig.port.journal.toList = front ++ .write Register.length 1 :: back ∧
        (Rig.small.driver.pool.replay front).slot transfer.id =
          ⟨transfer.length, .inFlight transfer.id⟩ ∧ transfer.length = 2 := by
  intro rig
  have hsent : Onward Rig.small.driver Rig.small.port rig.driver rig.port :=
    Onward.start.perform (.send ⟨fun _ => (#[1, 2], 2), Sim.occur .fill⟩)
  have hmem : .write Register.length 1 ∈ rig.port.journal.toList := by decide +kernel
  obtain ⟨front, back, hjournal⟩ := List.append_of_mem hmem
  obtain ⟨transfer, -, hslot, hpos, -, hvalue⟩ :=
    (lengths_in_bounds hsent Rig.small_started).2.1 front 1 back hjournal
  refine ⟨front, back, transfer, hjournal, hslot, ?_⟩
  change 1 = transfer.length - 1 at hvalue
  omega

end Onward
end DmaController

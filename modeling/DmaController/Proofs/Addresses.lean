import DmaController.Proofs.Representation
import Mathlib.Data.Nat.ModEq

/-!
Where the slots lie for the device. Main statement: as long as the slots that can be in flight have
room in the address space, two of them never share an address of the device, though host addresses
are cut off to one word and the bus offset may wrap; and the address that is programmed for a
transfer is the one of its slot.
-/
namespace DmaController

variable {σ : Type} {slots size : Nat}

namespace Pool

/-- The device addresses of the bytes of a slot that count. -/
def window (pool : Pool slots size) (busOffset : Word) (i : Fin slots) : List Word :=
  (List.range (pool.slotAt i).size).map fun k =>
    pool.deviceAddress busOffset i + BitVec.ofNat 32 k

theorem le_roundUp (n : Nat) {unit : Nat} (h : 0 < unit) : n ≤ roundUp n unit := by
  have hdiv : n + unit - 1 < (n + unit - 1) / unit * unit + unit := Nat.lt_div_mul_add h
  unfold roundUp
  omega

theorem le_stride (size : Nat) : size ≤ stride size :=
  calc size ≤ roundUp size 8 := le_roundUp size (by decide)
    _ ≤ roundUp size 8 + 18 := Nat.le_add_right ..
    _ ≤ stride size := le_roundUp _ (by decide)

/-- A place in a window is a distance from the first slot, cut off to one word and moved. -/
theorem mem_window {pool : Pool slots size} {busOffset address : Word} {i : Fin slots} :
    address ∈ pool.window busOffset i ↔ ∃ k < (pool.slotAt i).size,
      address = BitVec.ofNat 32 (pool.base + (i.val * stride size + k)) + busOffset := by
  have hplace : ∀ k, pool.deviceAddress busOffset i + BitVec.ofNat 32 k =
      BitVec.ofNat 32 (pool.base + (i.val * stride size + k)) + busOffset := by
    intro k
    rw [deviceAddress, hostAddress, BitVec.add_assoc, BitVec.add_comm busOffset,
      ← BitVec.add_assoc, ← BitVec.ofNat_add, Nat.add_assoc]
  simp only [window, hplace, List.mem_map, List.mem_range, eq_comm]

/-- Distances that fit into a word are told apart by it. -/
theorem eq_of_ofNat_base_add {base x y : Nat} (hx : x < 2 ^ 32) (hy : y < 2 ^ 32)
    (h : BitVec.ofNat 32 (base + x) = BitVec.ofNat 32 (base + y)) : x = y := by
  have hmod : base + x ≡ base + y [MOD 2 ^ 32] := by
    simpa only [Nat.ModEq, BitVec.toNat_ofNat] using congrArg BitVec.toNat h
  exact (Nat.ModEq.add_left_cancel' base hmod).eq_of_lt_of_lt hx hy

variable [HasSlots slots] {maxTransfer : Nat} {pool : Pool slots size} {i j : Fin slots}

/-- A slot in flight ends before the next one, and within the room of those that can be so. -/
theorem Valid.distance_lt (h : pool.Valid maxTransfer) (hi : (pool.slotAt i).isInFlight = true)
    {k : Nat} (hk : k < (pool.slotAt i).size) :
    k < stride size ∧ i.val * stride size + k < min slots 31 * stride size := by
  obtain ⟨id, hid⟩ := Option.isSome_iff_exists.1 hi
  obtain ⟨hindex, hid⟩ := h.index_eq i id hid
  have hsize : pool.capacity ≤ size := by
    rw [h.capacity_eq]
    exact Nat.le_trans (Nat.min_le_left ..) (Nat.min_le_right ..)
  have hlt : k < stride size :=
    calc k < (pool.slotAt i).size := hk
      _ ≤ pool.capacity := h.size_le i hi
      _ ≤ size := hsize
      _ ≤ stride size := le_stride size
  have hi : i.val + 1 ≤ min slots 31 :=
    Nat.le_min.2 ⟨i.isLt, hindex ▸ Nat.succ_le_succ (Nat.le_trans (Nat.mod_le ..) hid)⟩
  refine ⟨hlt, ?_⟩
  calc i.val * stride size + k < i.val * stride size + stride size := Nat.add_lt_add_left hlt _
    _ = (i.val + 1) * stride size := (Nat.succ_mul ..).symm
    _ ≤ min slots 31 * stride size := Nat.mul_le_mul_right _ hi

theorem Valid.disjoint_window (h : pool.Valid maxTransfer)
    (hroom : min slots 31 * stride size ≤ 2 ^ 32) (busOffset : Word)
    (hi : (pool.slotAt i).isInFlight = true) (hj : (pool.slotAt j).isInFlight = true)
    (hne : i ≠ j) : (pool.window busOffset i).Disjoint (pool.window busOffset j) := by
  intro address hmem hmem'
  obtain ⟨k, hk, haddress⟩ := mem_window.1 hmem
  obtain ⟨l, hl, haddress'⟩ := mem_window.1 hmem'
  obtain ⟨hk, hx⟩ := h.distance_lt hi hk
  obtain ⟨hl, hy⟩ := h.distance_lt hj hl
  have hsame : i.val * stride size + k = j.val * stride size + l :=
    eq_of_ofNat_base_add (Nat.lt_of_lt_of_le hx hroom) (Nat.lt_of_lt_of_le hy hroom)
      ((BitVec.add_left_inj _).1 (haddress.symm.trans haddress'))
  have hpos : 0 < stride size := Nat.zero_lt_of_lt hk
  have hindex := congrArg (· / stride size) hsame
  simp only [Nat.mul_comm _ (stride size), Nat.mul_add_div hpos, Nat.div_eq_of_lt hk,
    Nat.div_eq_of_lt hl, Nat.add_zero] at hindex
  exact hne (Fin.ext hindex)

end Pool

namespace Onward

variable [HasSlots slots] [RegisterBus (World σ slots size)] [InterruptLine (World σ slots size)]
variable {world : World σ slots size} {config : Config} {pool : Pool slots size}
variable {started driver : Driver slots size} {port₀ port : Port (World σ slots size)}

/-- Transfers in flight never overlap in the memory of the device, at any moment of a run on any
bus; and a transfer's address is the one of the slot that was just marked in flight for it. -/
theorem windows_disjoint (h : Onward started port₀ driver port)
    (hstart : (Driver.start config pool).run ⟨world, #[]⟩ = (.ok started, port₀))
    (hroom : min slots 31 * Pool.stride size ≤ 2 ^ 32) :
    driver.pool = started.pool.replay port.journal.toList ∧
    (∀ front, front <+: port.journal.toList → ∀ i j : Fin slots, i ≠ j →
      ((started.pool.replay front).slotAt i).isInFlight = true →
      ((started.pool.replay front).slotAt j).isInFlight = true →
      ((started.pool.replay front).window config.busOffset i).Disjoint
        ((started.pool.replay front).window config.busOffset j)) ∧
    ∀ front direction value back,
      port.journal.toList = front ++ .write (Direction.register direction) value :: back →
      ∃ transfer, (front.filterMap Action.submission?).getLast? = some transfer ∧
        transfer.direction = direction ∧
        ((started.pool.replay front).slot transfer.id).transferId? = some transfer.id ∧
        value = pool.deviceAddress config.busOffset (Pool.index slots transfer.id) := by
  refine ⟨h.pool_eq hstart, ?_, ?_⟩
  · intro front hfront i j hne hi hj
    exact (h.valid hstart hfront).disjoint_window hroom config.busOffset hi hj hne
  · intro front direction value back hjournal
    obtain ⟨transfer, ⟨hlast, hslot⟩, hdirection, hvalue⟩ :=
      (h.permits hstart front _ back hjournal).2 direction rfl
    refine ⟨transfer, hlast, hdirection, by rw [hslot]; rfl, ?_⟩
    obtain ⟨hpool, hconfig⟩ := Driver.start_sized hstart
    rw [hvalue, Driver.address, hpool, hconfig]
    rfl

/-- The second slot lies where the address space starts again. -/
theorem windows_disjoint_wrapped :
    let config : Config := { busOffset := 0x10 }
    let pool : Pool 2 16 := (Pool.fresh 2 16 0xFFFFF000).resize transferLimit
    let driver : Driver 2 16 :=
      { pool, config, version := ⟨4, 4, 97⟩, peripheralId := 0, directions := {} }
    let port := ((Driver.start config pool).run ⟨⟨{}, .zero⟩, #[]⟩).2
    let send := Call.send fun _ => (#[1, 2], 2)
    let rig := send.perform (send.perform ⟨driver, port⟩)
    let used := pool.replay rig.port.journal.toList
    used.window 0x10 0 = [0xFFFFF010, 0xFFFFF011] ∧ used.window 0x10 1 = [0x10, 0x11] ∧
      (used.window 0x10 0).Disjoint (used.window 0x10 1) := by
  intro config pool driver port send rig used
  have hstart : (Driver.start config pool).run ⟨⟨{}, .zero⟩, #[]⟩ = (.ok driver, port) := rfl
  have hsent : Onward driver port rig.driver rig.port :=
    (Onward.start.perform (.send ⟨fun _ => (#[1, 2], 2), Sim.occur .fill⟩)).perform
      (.send ⟨fun _ => (#[1, 2], 2), Sim.occur .fill⟩)
  refine ⟨by decide +kernel, by decide +kernel, ?_⟩
  exact (windows_disjoint hsent hstart (by decide)).2.1 _ List.prefix_rfl 0 1 (by decide)
    (by decide +kernel) (by decide +kernel)

end Onward
end DmaController

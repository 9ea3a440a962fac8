import DmaController.Proofs.Addresses

/-!
Transfers and pages. No transfer may cross a page boundary of the device. The slots lie on pages of
the host, and no transfer is longer than what surely fits into a page, but the bus offset is taken
as it is. Main statement: a transfer stays within a page of the device exactly if the bus offset's
place in its page leaves room for it; so a bus offset of whole pages is enough.
-/
namespace DmaController

/-- So many addresses from this one on, as the device counts them, lie in one page. -/
def Word.StaysInPage (address : Word) (length : Nat) : Prop :=
  ∃ page, ∀ k < length, (address + BitVec.ofNat 32 k).toNat / transferBoundary = page

theorem Word.staysInPage_iff {address : Word} {length : Nat} (hpos : 0 < length)
    (hle : length ≤ transferBoundary) :
    address.StaysInPage length ↔ address.toNat % transferBoundary + length ≤ transferBoundary := by
  have hplace : ∀ k < length,
      (address + BitVec.ofNat 32 k).toNat = (address.toNat + k) % 2 ^ 32 := by
    intro k hk
    rw [BitVec.toNat_add, BitVec.toNat_ofNat, Nat.add_mod_mod]
  have haddress := address.isLt
  constructor
  · rintro ⟨page, hpage⟩
    have hfirst := hpage 0 hpos
    have hlast := hpage (length - 1) (by omega)
    rw [hplace _ hpos] at hfirst
    rw [hplace _ (by omega)] at hlast
    unfold transferBoundary at *
    omega
  · intro hroom
    refine ⟨address.toNat / transferBoundary, fun k hk => ?_⟩
    rw [hplace k hk]
    unfold transferBoundary at *
    omega

variable {σ : Type} {slots size : Nat}

theorem Pool.dvd_stride (size : Nat) : transferBoundary ∣ stride size := Nat.dvd_mul_left ..

/-- On pages of the host, the bus offset alone places a slot in a page of the device. -/
theorem Pool.deviceAddress_mod {pool : Pool slots size} (hbase : transferBoundary ∣ pool.base)
    (busOffset : Word) (i : Fin slots) :
    (pool.deviceAddress busOffset i).toNat % transferBoundary =
      busOffset.toNat % transferBoundary := by
  obtain ⟨page, hpage⟩ : transferBoundary ∣ pool.hostAddress i :=
    Nat.dvd_add hbase (Nat.dvd_mul_left_of_dvd (dvd_stride size) _)
  have hoffset := busOffset.isLt
  rw [deviceAddress, BitVec.toNat_add, BitVec.toNat_ofNat, hpage]
  unfold transferBoundary
  omega

variable [HasSlots slots] [RegisterBus (World σ slots size)] [InterruptLine (World σ slots size)]
variable {world : World σ slots size} {config : Config} {pool : Pool slots size}
variable {started driver : Driver slots size} {port₀ port : Port (World σ slots size)}

namespace Onward

theorem course (h : Onward started port₀ driver port)
    (hstart : (Driver.start config pool).run ⟨world, #[]⟩ = (.ok started, port₀)) :
    Course driver port := by
  induction h with
  | start => exact .start hstart
  | perform _ hprogram ih => exact ih.perform hprogram
  | meanwhile _ world ih => exact ih.meanwhile world

/-- A transfer that is submitted goes to the hardware at once, with the address of its slot. -/
theorem handed_over (h : Onward started port₀ driver port)
    (hstart : (Driver.start config pool).run ⟨world, #[]⟩ = (.ok started, port₀))
    {front back : List Action} {transfer : Transfer}
    (hjournal : port.journal.toList = front ++ .submitted transfer :: back) :
    transfer.handover <+: .submitted transfer :: back ∧
      transfer.address = pool.deviceAddress config.busOffset (Pool.index slots transfer.id) := by
  obtain ⟨_, -, hledger⟩ := (h.course hstart).ledger
  rw [hjournal] at hledger
  obtain ⟨later, hlater⟩ := hledger.handover
  refine ⟨⟨later, hlater⟩, ?_⟩
  let length : Action := .write Register.length (BitVec.ofNat 32 transfer.length - 1)
  have hsplit : port.journal.toList = (front ++ [.submitted transfer] ++ [length]) ++
      .write transfer.direction.register transfer.address ::
        (.write Register.submit submitBit :: later) := by
    rw [hjournal, ← hlater]
    simp [Transfer.handover, length]
  obtain ⟨other, ⟨hlast, -⟩, -, haddress⟩ := (h.permits hstart _ _ _ hsplit).2 _ rfl
  rw [lastSubmitted_concat rfl, lastSubmitted_submitted] at hlast
  obtain rfl := Option.some.inj hlast
  obtain ⟨hpool, hconfig⟩ := Driver.start_sized hstart
  rw [haddress, Driver.address, hpool, hconfig]
  rfl

/-- Every transfer is submitted once and programmed as it is submitted, and where its slots lie on
pages of the host it stays within a page of the device exactly if the bus offset's place in a page
and its length fit into a page together. That is so for every transfer if the bus offset lies on
whole pages. -/
theorem page_kept (h : Onward started port₀ driver port)
    (hstart : (Driver.start config pool).run ⟨world, #[]⟩ = (.ok started, port₀))
    (hbase : transferBoundary ∣ pool.base) :
    port.journal.submissions.length = port.journal.queued ∧
    (∀ front transfer back, port.journal.toList = front ++ .submitted transfer :: back →
      transfer.handover <+: .submitted transfer :: back ∧
      (transfer.address.StaysInPage transfer.length ↔
        config.busOffset.toNat % transferBoundary + transfer.length ≤ transferBoundary)) ∧
    (config.busOffset.toNat % transferBoundary ≤ transferBoundary - transferLimit →
      ∀ transfer ∈ port.journal.submissions,
        transfer.address.StaysInPage transfer.length) := by
  have hpage : ∀ front transfer back,
      port.journal.toList = front ++ .submitted transfer :: back →
      transfer.handover <+: .submitted transfer :: back ∧ transfer.length ≤ transferLimit ∧
      (transfer.address.StaysInPage transfer.length ↔
        config.busOffset.toNat % transferBoundary + transfer.length ≤ transferBoundary) := by
    intro front transfer back hjournal
    obtain ⟨hhandover, haddress⟩ := h.handed_over hstart hjournal
    obtain ⟨-, hpos, hle⟩ := h.permits hstart front _ back hjournal
    have hlimit : transfer.length ≤ transferLimit :=
      Nat.le_trans hle (Driver.start_fresh hstart).capacity_le
    refine ⟨hhandover, hlimit, ?_⟩
    rw [Word.staysInPage_iff hpos (Nat.le_trans hlimit (by decide)), haddress,
      Pool.deviceAddress_mod hbase]
  refine ⟨?_, ?_, ?_⟩
  · obtain ⟨_, -, hledger⟩ := (h.course hstart).ledger
    exact hledger.length_submissions
  · intro front transfer back hjournal
    obtain ⟨hhandover, -, hiff⟩ := hpage front transfer back hjournal
    exact ⟨hhandover, hiff⟩
  · intro hoffset transfer hmem
    obtain ⟨action, haction, hsubmitted⟩ := List.mem_filterMap.1 hmem
    cases action with
    | submitted other =>
      obtain rfl := Option.some.inj hsubmitted
      obtain ⟨front, back, hjournal⟩ := List.append_of_mem haction
      obtain ⟨-, hlimit, hiff⟩ := hpage front other back hjournal
      refine hiff.2 ?_
      unfold transferBoundary transferLimit at *
      omega
    | _ => cases hsubmitted

/-- Sixteen bytes cross a page where the bus offset ends eight bytes before one. -/
theorem page_kept_crossed :
    let config : Config := { busOffset := 0xFF8 }
    let pool : Pool 1 16 := (Pool.fresh 1 16 0x10000000).resize transferLimit
    let driver : Driver 1 16 :=
      { pool, config, version := ⟨4, 4, 97⟩, peripheralId := 0, directions := {} }
    let port := ((Driver.start config pool).run ⟨⟨{}, .zero⟩, #[]⟩).2
    let rig := (Call.send fun _ => (Array.replicate 16 1, 16)).perform ⟨driver, port⟩
    ∃ (front back : List Action) (transfer : Transfer),
      rig.port.journal.toList = front ++ .submitted transfer :: back ∧
        transfer.address = 0x10000FF8 ∧ transfer.length = 16 ∧
        ¬ transfer.address.StaysInPage transfer.length := by
  intro config pool driver port rig
  have hstart : (Driver.start config pool).run ⟨⟨{}, .zero⟩, #[]⟩ = (.ok driver, port) := rfl
  have hsent : Onward driver port rig.driver rig.port :=
    Onward.start.perform (.send ⟨fun _ => (Array.replicate 16 1, 16), Sim.occur .fill⟩)
  have hmem : .submitted ⟨.outbound, .first, 16, 0x10000FF8⟩ ∈ rig.port.journal.toList := by
    decide +kernel
  obtain ⟨front, back, hjournal⟩ := List.append_of_mem hmem
  have hiff := ((page_kept hsent hstart (by decide)).2.1 front _ back hjournal).2
  refine ⟨front, back, _, hjournal, rfl, rfl, fun hstays => ?_⟩
  exact absurd (hiff.1 hstays) (by decide)

end Onward
end DmaController

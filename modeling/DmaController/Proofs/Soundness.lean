import DmaController.Proofs.Hardware

/-!
What a driver knows is true of its engine. A submit bit that was seen clear stays clear until the
driver queues a transfer, so the id it reads after that is the id the engine will give, and the
registers it programs are those the engine will read.
-/
namespace DmaController

open Sim

namespace Sim.Engine

variable (engine : Engine) (value : Word)

theorem write_address (direction : Direction) : engine.write direction.register value =
    (engine.remember (.written direction.register value engine.submitPending)).setRegister
      direction.register value := by
  cases direction <;> rfl

theorem write_submit : engine.write Register.submit submitBit =
    { engine.remember (.written Register.submit submitBit engine.submitPending) with
      submitPending := true } := by
  simp [write, remember, submitBit, Word.hasAny]

/-- A control write that does not clear the enable bit. -/
theorem write_control {value : Word}
    (h : engine.isEnabled = true → value.hasAny Control.enable = true) :
    engine.write Register.control value =
      (engine.remember (.written Register.control value engine.submitPending)).setRegister
        Register.control value := by
  change (engine.remember _).setControl value = _
  unfold setControl
  rw [if_neg]
  simp only [Bool.and_eq_true, not_and, Bool.not_eq_true, Bool.not_eq_false']
  exact h

/-- A control write that clears the enable bit. -/
theorem write_control_abort {value : Word} (henabled : engine.isEnabled = true)
    (h : value.hasAny Control.enable = false) : engine.write Register.control value =
      (engine.remember (.written Register.control value engine.submitPending)).abort.setRegister
        Register.control value := by
  change (engine.remember _).setControl value = _
  unfold setControl
  rw [h, Bool.not_false, Bool.and_true]
  exact if_pos henabled

theorem isEnabled_setRegister {offset : Offset} (h : offset ≠ Register.control) :
    (engine.setRegister offset value).isEnabled = engine.isEnabled := by
  unfold isEnabled setRegister
  rw [RegisterFile.get_set_of_ne _ h.symm]

theorem isEnabled_setControl :
    (engine.setRegister Register.control value).isEnabled = value.hasAny Control.enable := by
  unfold isEnabled setRegister
  rw [RegisterFile.get_set_self]

theorem peek_submit : (engine.peek Register.submit).hasAny submitBit = engine.submitPending := by
  cases h : engine.submitPending <;> simp [peek, h, Word.hasAny, submitBit]

end Sim.Engine

variable {slots size : Nat}

/-- A read shows what the engine holds. -/
def Deed.Fits (engine : Engine) : Deed slots → Prop
  | .act (.read offset value) => engine.peek offset = value
  | _ => True

/-- What a deed makes of an engine. -/
def Deed.apply (engine : Engine) : Deed slots → Engine
  | .act (.read ..) => engine
  | .act (.write offset value) => engine.write offset value
  | .act action => engine.remember (.noted action)
  | _ => engine

abbrev Scene.engine (s : Scene Engine slots size) : Engine := s.port.world.device

/-- The slot of `id` is in flight under `id`. -/
def Driver.Holds [HasSlots slots] (driver : Driver slots size) (id : TransferId) : Prop :=
  (driver.pool.slot id).transferId? = some id

theorem Driver.not_holds [HasSlots slots] {driver : Driver slots size} {id : TransferId}
    (hfree : (driver.pool.slot id).owner = .free) : ¬ driver.Holds id := by
  intro hholds
  rw [Holds, Slot.transferId?, hfree] at hholds
  cases hholds

theorem Driver.Fresh.not_holds [HasSlots slots] {driver : Driver slots size} (h : driver.Fresh)
    (id : TransferId) : ¬ driver.Holds id :=
  Driver.not_holds (congrArg Slot.owner (h.slotAt_eq _))

/-- Registers that a submission is made of. -/
def Register.IsTransfer (offset : Offset) : Prop :=
  offset = length ∨ offset = source ∨ offset = destination ∨ offset = submit

instance : DecidablePred Register.IsTransfer := fun _ => inferInstanceAs (Decidable (_ ∨ _))

theorem Direction.isTransfer_register (direction : Direction) :
    Register.IsTransfer direction.register := by
  cases direction <;> decide

namespace Draft

/-- The registers hold as much of the transfer as the draft says. -/
def Programmed (registers : RegisterFile) : Draft → Prop
  | none | marked _ => True
  | measured transfer => registers.get Register.length = BitVec.ofNat 32 transfer.length - 1
  | addressed transfer => registers.get Register.length = BitVec.ofNat 32 transfer.length - 1 ∧
      registers.get transfer.direction.register = transfer.address

theorem Programmed.set {registers : RegisterFile} {draft : Draft} (h : draft.Programmed registers)
    {offset : Offset} (value : Word) (hoffset : ¬ Register.IsTransfer offset) :
    draft.Programmed (registers.set offset value) := by
  have hlength : offset ≠ Register.length := fun heq => hoffset (.inl heq)
  have haddress : ∀ direction : Direction, offset ≠ direction.register :=
    fun direction heq => hoffset (heq ▸ direction.isTransfer_register)
  cases draft with
  | none | marked transfer => trivial
  | measured transfer => exact (registers.get_set_of_ne hlength.symm value).trans h
  | addressed transfer =>
    exact ⟨(registers.get_set_of_ne hlength.symm value).trans h.1,
      (registers.get_set_of_ne (haddress _).symm value).trans h.2⟩

end Draft

variable [HasSlots slots]

/-- A transfer whose submission is being prepared. -/
structure Drafted (d : Driver slots size) (k : Known) (transfer : Transfer) : Prop where
  clear_eq : k.clear = true
  next_eq : k.next = some transfer.id
  done_eq : k.done = .none
  newest_eq : d.newest = some transfer.id
  slot_eq : d.pool.slot transfer.id = ⟨transfer.length, .inFlight transfer.id⟩
  length_pos : 0 < transfer.length
  length_le : transfer.length ≤ transferLimit
  address_eq : transfer.address = d.address transfer.id

/-- While a submission is being prepared nothing is known to be done. -/
theorem Drafted.not_done {d : Driver slots size} {k : Known} {transfer : Transfer}
    (h : Drafted d k transfer) (id : TransferId) : ¬ k.done.isDone id = true := by
  rw [h.done_eq, DoneBits.isDone_none]
  exact Bool.false_ne_true

/-- A submission that is on its way keeps its slot until the hardware knows of it. -/
theorem Protocol.drafted {d d' : Driver slots size} {k k' : Known} {deed : Deed slots}
    (h : Protocol d k deed d' k') (hpos : 0 < d.capacity) (hle : d.capacity ≤ transferLimit)
    (hold : ∀ transfer, k.draft.transfer? = some transfer → Drafted d k transfer) :
    ∀ transfer, k'.draft.transfer? = some transfer → Drafted d' k' transfer := by
  intro transfer hdraft
  cases h with
  | read offset value hnone => simp [hnone, Draft.transfer?] at hdraft
  | remark | irq | acyclic | fill | meanwhile => exact hold transfer hdraft
  | pause | resume | enable | turn | stream => exact { hold transfer hdraft with }
  | disable | queue => cases hdraft
  | mark marked hclear hnext hnone hadmits =>
    obtain rfl := Option.some.inj hdraft
    exact ⟨hclear, hnext, rfl, rfl, Pool.slot_submit_self .., hadmits.length_pos hpos,
      Nat.le_trans hadmits.length_le hle, hadmits.address_eq⟩
  | measure measured hmarked => exact { hold transfer (by rw [hmarked]; exact hdraft) with }
  | direct directed hmeasured => exact { hold transfer (by rw [hmeasured]; exact hdraft) with }
  | deliver id data hdone => exact absurd hdone ((hold transfer hdraft).not_done id)
  | reclaim id previous hdone => exact absurd hdone ((hold transfer hdraft).not_done previous)
  | restart _ _ hnone => simp [hnone, Draft.transfer?] at hdraft
  | adopt _ _ hnone => simp [hnone, Draft.transfer?] at hdraft

/-- What is known is true. -/
structure Sound (d : Driver slots size) (k : Known) (e : Engine) : Prop where
  quiet_of_clear : k.clear = true → e.submitPending = false
  quiet_of_look : k.look = .clear → e.submitPending = false
  newest_of_look : ∀ newest, k.look = .pending newest → newest = d.newest
  acceptId_eq : k.clear = true → ∀ id, k.next = some id → e.acceptId = id.val
  control_eq : ∀ value, k.last = some (Register.control, value) →
    e.registers.get Register.control = value
  enabled_eq : k.enabled = true → e.isEnabled = true
  capacity_pos : 0 < d.capacity
  capacity_le : d.capacity ≤ transferLimit
  drafted : ∀ transfer, k.draft.transfer? = some transfer → Drafted d k transfer
  programmed : k.draft.Programmed e.registers

namespace Sound

variable {d d' : Driver slots size} {k k' : Known} {e e' : Engine}

/-- Nothing is known but the phase. -/
theorem ignorant (hpos : 0 < d.capacity) (hle : d.capacity ≤ transferLimit) (phase : Phase) :
    Sound d { phase := phase } e where
  quiet_of_clear := nofun
  quiet_of_look := nofun
  newest_of_look := nofun
  acceptId_eq := nofun
  control_eq := nofun
  enabled_eq := nofun
  capacity_pos := hpos
  capacity_le := hle
  drafted := nofun
  programmed := trivial

theorem turn (h : Sound d k e) (hturn : Turn e e') : Sound d k e' := by
  cases hturn with
  | takeOver hpending =>
    have hclear : ¬ k.clear = true := fun hclear => by simp [h.quiet_of_clear hclear] at hpending
    exact { h with
      quiet_of_clear := fun _ => rfl
      quiet_of_look := fun _ => rfl
      acceptId_eq := fun h' => absurd h' hclear }
  | complete id hid => exact { h with }

theorem learn (h : Sound d k e) (offset : Offset) (hdraft : k.draft = .none) :
    Sound d (k.learn d.newest offset (e.peek offset)) e := by
  have hnone : ∀ transfer, k.draft.transfer? ≠ some transfer := by simp [hdraft, Draft.transfer?]
  unfold Known.learn
  by_cases hsubmit : offset = Register.submit
  · subst hsubmit
    rw [if_pos rfl, e.peek_submit]
    have hclear : (k.clear || !e.submitPending) = true → e.submitPending = false := by
      intro hclear
      rcases Bool.or_eq_true_iff.1 hclear with hclear | hquiet
      · exact h.quiet_of_clear hclear
      · simpa using hquiet
    refine { h with
      quiet_of_clear := hclear, quiet_of_look := ?_, newest_of_look := ?_, acceptId_eq := ?_
      control_eq := ?_, drafted := fun transfer ht => absurd ht (hnone transfer) }
    · intro hlook
      cases hpending : e.submitPending with
      | false => rfl
      | true => simp [hpending] at hlook
    · intro newest hlook
      cases hpending : e.submitPending with
      | false => simp [hpending] at hlook
      | true => simpa [hpending, eq_comm] using hlook
    · intro _ id hnext
      by_cases hk : k.clear = true
      · exact h.acceptId_eq hk id (by simpa [hk] using hnext)
      · simp [hk] at hnext
    · simp [Register.submit, Register.control]
  rw [if_neg hsubmit]
  by_cases hdone : offset = Register.done
  · subst hdone
    rw [if_pos rfl]
    exact { h with
      control_eq := by simp [Register.done, Register.control]
      drafted := fun transfer ht => absurd ht (hnone transfer) }
  rw [if_neg hdone]
  by_cases hid : offset = Register.transferId
  · subst hid
    rw [if_pos rfl]
    refine { h with
      acceptId_eq := ?_, control_eq := ?_
      drafted := fun transfer ht => absurd ht (hnone transfer) }
    · intro _ id hnext
      exact TransferId.ofWord?_eq_some_iff.1 hnext
    · simp [Register.transferId, Register.control]
  rw [if_neg hid]
  refine { h with
    control_eq := ?_, drafted := fun transfer ht => absurd ht (hnone transfer) }
  intro value hlast
  obtain ⟨rfl, rfl⟩ := Prod.mk.inj (Option.some.inj hlast)
  rfl

theorem quiet_of_drafted (h : Sound d k e) {transfer : Transfer}
    (hdraft : k.draft.transfer? = some transfer) : e.submitPending = false :=
  h.quiet_of_clear (h.drafted transfer hdraft).clear_eq

theorem not_drafted_of_done (h : Sound d k e) {id : TransferId} (hdone : k.done.isDone id = true)
    (transfer : Transfer) : k.draft.transfer? ≠ some transfer :=
  fun hdraft => (h.drafted transfer hdraft).not_done id hdone

/-- A write to another register than the control register; a draft may go on with it. -/
theorem setRegister (h : Sound d k e) {draft : Draft} {offset : Offset} {value : Word}
    (event : Event) (hcontrol : offset ≠ Register.control)
    (hdraft : draft.transfer? = k.draft.transfer?)
    (hprogrammed : draft.Programmed (e.registers.set offset value)) :
    Sound d { k with draft } ((e.remember event).setRegister offset value) := by
  refine { h with control_eq := ?_, enabled_eq := ?_, drafted := ?_, programmed := hprogrammed }
  · intro word hlast
    exact (RegisterFile.get_set_of_ne _ hcontrol.symm value).trans (h.control_eq word hlast)
  · intro henabled
    rw [Engine.isEnabled_setRegister _ _ hcontrol]
    exact h.enabled_eq henabled
  · intro transfer ht
    exact { h.drafted transfer (hdraft.symm.trans ht) with }

/-- A write to the control register that leaves the core enabled, if it is. -/
theorem setControl (h : Sound d k e) {value : Word} {enabled : Bool}
    (hkeeps : e.isEnabled = true → value.hasAny Control.enable = true)
    (henabled : enabled = true → value.hasAny Control.enable = true) :
    Sound d { k with last := none, enabled := enabled } (e.write Register.control value) := by
  rw [e.write_control hkeeps]
  refine { h with control_eq := nofun, enabled_eq := ?_, drafted := ?_, programmed := ?_ }
  · intro h'
    rw [Engine.isEnabled_setControl]
    exact henabled h'
  · intro transfer ht
    exact { h.drafted transfer ht with }
  · exact h.programmed.set value (by decide)

theorem enabled_pause (h : Sound d k e) {value : Word}
    (hlast : k.last = some (Register.control, value)) (henabled : e.isEnabled = true) :
    (value ||| Control.pause).hasAny Control.enable = true := by
  rw [← h.control_eq value hlast]
  exact Word.hasAny_or_left henabled

theorem enabled_resume (h : Sound d k e) {value : Word}
    (hlast : k.last = some (Register.control, value)) (henabled : e.isEnabled = true) :
    (value &&& ~~~ Control.pause).hasAny Control.enable = true := by
  rw [← h.control_eq value hlast, Word.hasAny, BitVec.and_assoc]
  exact henabled

theorem deed {deed : Deed slots} (h : Sound d k e) (hprotocol : Protocol d k deed d' k')
    (hfits : deed.Fits e) : Sound d' k' (deed.apply e) := by
  have hdrafted := hprotocol.drafted h.capacity_pos h.capacity_le h.drafted
  cases hprotocol with
  | read offset value hdraft =>
    obtain rfl : e.peek offset = value := hfits
    exact h.learn offset hdraft
  | remark action hremark => cases action <;> first | exact hremark.elim | exact { h with }
  | irq offset value hoffset =>
    rcases hoffset with rfl | rfl
    · exact h.setRegister _ (by decide) rfl (h.programmed.set value (by decide))
    · exact { h with }
  | acyclic value hlast =>
    exact h.setRegister _ (by decide) rfl (h.programmed.set _ (by decide))
  | pause value hlast =>
    exact h.setControl (h.enabled_pause hlast) fun henabled =>
      h.enabled_pause hlast (h.enabled_eq henabled)
  | resume value hlast =>
    exact h.setControl (h.enabled_resume hlast) fun henabled =>
      h.enabled_resume hlast (h.enabled_eq henabled)
  | enable value hlast =>
    have henable : (value ||| Control.enable).hasAny Control.enable = true :=
      Word.hasAny_or_right (by decide)
    exact h.setControl (fun _ => henable) fun _ => henable
  | disable => exact ignorant h.capacity_pos h.capacity_le _
  | mark =>
    exact { h with
      quiet_of_look := nofun, newest_of_look := nofun, drafted := hdrafted, programmed := trivial }
  | measure transfer hdraft =>
    exact h.setRegister _ (by decide) (by rw [hdraft]; rfl) (RegisterFile.get_set_self ..)
  | direct transfer hdraft =>
    have hlength := h.programmed
    rw [hdraft] at hlength
    rw [Deed.apply, Engine.write_address]
    refine h.setRegister _ ?_ (by rw [hdraft]; rfl)
      ⟨(RegisterFile.get_set_of_ne _ ?_ _).trans hlength, RegisterFile.get_set_self ..⟩
    · cases transfer.direction <;> decide
    · cases transfer.direction <;> decide
  | queue transfer hdraft =>
    rw [Deed.apply, Engine.write_submit]
    exact { ignorant h.capacity_pos h.capacity_le k.phase with
      enabled_eq := h.enabled_eq, drafted := nofun }
  | restart | adopt =>
    exact { h with quiet_of_look := nofun, newest_of_look := nofun, drafted := hdrafted }
  | deliver | reclaim | fill | meanwhile | turn | stream => exact { h with drafted := hdrafted }

end Sound
end DmaController

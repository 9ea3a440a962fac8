import DmaController.Proofs.Leads
import DmaController.Proofs.Retention

/-!
What the protocol keeps of the shared registers. A driver writes the control register and the flags
register only as it has read them, but for its own bits. On a device that holds what is written,
every step therefore keeps the other bits of both, and once the flags register was written no
transfer is cyclic.
-/
namespace DmaController

open SharedRegisters

section Bits

variable {word mask : Word} {i : Nat}

theorem Word.getLsbD_set (h : mask.getLsbD i = false) :
    (word ||| mask).getLsbD i = word.getLsbD i := by simp [h]

theorem Word.getLsbD_clear (h : mask.getLsbD i = false) :
    (word &&& ~~~ mask).getLsbD i = word.getLsbD i := by
  by_cases hi : i < 32
  · rw [BitVec.getLsbD_and, BitVec.getLsbD_not, h]
    simp [hi]
  · have hle : 32 ≤ i := by omega
    rw [BitVec.getLsbD_of_ge _ _ hle, BitVec.getLsbD_of_ge _ _ hle]

theorem Control.getLsbD_enable (h : i ≠ 0) : Control.enable.getLsbD i = false := by
  have hbit : Control.enable = BitVec.twoPow 32 0 := rfl
  rw [hbit, BitVec.getLsbD_twoPow]
  simp [Ne.symm h]

theorem Control.getLsbD_pause (h : i ≠ 1) : Control.pause.getLsbD i = false := by
  have hbit : Control.pause = BitVec.twoPow 32 1 := rfl
  rw [hbit, BitVec.getLsbD_twoPow]
  simp [Ne.symm h]

end Bits

/-- What a driver may write where the shared registers held these words at first. -/
inductive Register.Touches (controlWord flagsWord : Word) : Offset → Word → Prop
  | control {value : Word} (h : ∀ i, 2 ≤ i → value.getLsbD i = controlWord.getLsbD i) :
      Touches controlWord flagsWord Register.control value
  | flags {value : Word} (h : ∀ i, 1 ≤ i → value.getLsbD i = flagsWord.getLsbD i)
      (hcyclic : value.getLsbD 0 = false) : Touches controlWord flagsWord Register.flags value
  | submit : Touches controlWord flagsWord Register.submit 1
  | irqStatus {value : Word} (h : value = 2 ∨ value = 3) :
      Touches controlWord flagsWord Register.irqStatus value
  | irqMask {value : Word} (h : value = 1 ∨ value = 3) :
      Touches controlWord flagsWord Register.irqMask value
  | transfer {offset : Offset} {value : Word}
      (h : offset = Register.length ∨ offset = Register.source ∨ offset = Register.destination) :
      Touches controlWord flagsWord offset value

theorem Direction.touches (direction : Direction) (controlWord flagsWord value : Word) :
    Register.Touches controlWord flagsWord direction.register value := by
  cases direction with
  | inbound => exact .transfer (.inr (.inr rfl))
  | outbound => exact .transfer (.inr (.inl rfl))

/-- A write of the interrupt registers writes one of the few values for them. -/
def Action.IsTame : Action → Prop
  | .write offset value => (offset = Register.irqStatus → value = 2 ∨ value = 3) ∧
    (offset = Register.irqMask → value = 1 ∨ value = 3)
  | _ => True

variable {σ : Type} {slots size : Nat} [RegisterBus (World σ slots size)] [Retentive σ slots size]
variable {controlWord flagsWord : Word} {s s' : Scene σ slots size}

/-- What is kept of a device while drivers work on it. The shared registers held these words at
first. -/
structure Port.Framed (controlWord flagsWord : Word) (port : Port (World σ slots size)) : Prop where
  reserved : Reserved port.world
  control_eq : ∀ i, 2 ≤ i → (held port.world Register.control).getLsbD i = controlWord.getLsbD i
  flags_eq : ∀ i, 1 ≤ i → (held port.world Register.flags).getLsbD i = flagsWord.getLsbD i
  acyclic : ∀ value, .write Register.flags value ∈ port.journal.toList →
    (held port.world Register.flags).getLsbD 0 = false
  touches : ∀ offset value, .write offset value ∈ port.journal.toList →
    offset ≠ Register.irqStatus → offset ≠ Register.irqMask →
      Register.Touches controlWord flagsWord offset value

/-- What a driver has read last of the control register is what that holds; of the flags register it
is so but for the cyclic flag, which may have been cleared since. -/
structure Scene.Framed (controlWord flagsWord : Word) (s : Scene σ slots size) : Prop where
  framed : s.port.Framed controlWord flagsWord
  control_read : ∀ value, s.known.last = some (Register.control, value) →
    held s.port.world Register.control = value
  flags_read : ∀ value, s.known.last = some (Register.flags, value) → ∀ i, 1 ≤ i →
    (held s.port.world Register.flags).getLsbD i = value.getLsbD i

/-- Something happens that does not concern the shared registers. -/
theorem Port.Framed.undisturbed {port port' : Port (World σ slots size)}
    (h : port.Framed controlWord flagsWord) (hworld : Untroubled port.world port'.world)
    (hwrites : ∀ offset value, .write offset value ∈ port'.journal.toList →
      .write offset value ∈ port.journal.toList ∨
        (offset ≠ Register.flags ∧ (offset ≠ Register.irqStatus → offset ≠ Register.irqMask →
          Register.Touches controlWord flagsWord offset value))) :
    port'.Framed controlWord flagsWord := by
  obtain ⟨hreserved, hheld, -⟩ := hworld h.reserved
  have hcontrol := hheld Register.control (.inl rfl)
  have hflags := hheld Register.flags (.inr rfl)
  refine ⟨hreserved, ?_, ?_, ?_, ?_⟩
  · rw [hcontrol]
    exact h.control_eq
  · rw [hflags]
    exact h.flags_eq
  · intro value hmem
    rw [hflags]
    rcases hwrites _ _ hmem with hmem | ⟨hne, -⟩
    · exact h.acyclic value hmem
    · exact absurd rfl hne
  · intro offset value hmem
    rcases hwrites _ _ hmem with hmem | ⟨-, htouches⟩
    · exact h.touches offset value hmem
    · exact htouches

omit [RegisterBus (World σ slots size)] [Retentive σ slots size] in
theorem Journal.write_mem_push {journal : Journal} {action : Action} {offset : Offset}
    {value : Word} (h : .write offset value ∈ (journal.push action).toList) :
    .write offset value ∈ journal.toList ∨ action = .write offset value := by
  rw [Array.toList_push, List.mem_append, List.mem_singleton] at h
  exact h.imp_right Eq.symm

namespace Scene.Framed

theorem undisturbed (h : s.Framed controlWord flagsWord)
    (hworld : Untroubled s.port.world s'.port.world)
    (hlast : ∀ offset value, s'.known.last = some (offset, value) →
      s.known.last = some (offset, value) ∨
        (Register.IsShared offset → held s.port.world offset = value))
    (hwrites : ∀ offset value, .write offset value ∈ s'.port.journal.toList →
      .write offset value ∈ s.port.journal.toList ∨
        (offset ≠ Register.flags ∧ (offset ≠ Register.irqStatus → offset ≠ Register.irqMask →
          Register.Touches controlWord flagsWord offset value))) :
    s'.Framed controlWord flagsWord := by
  have hheld := (hworld h.framed.reserved).held_eq
  refine ⟨h.framed.undisturbed hworld hwrites, ?_, ?_⟩
  · intro value hvalue
    rw [hheld Register.control (.inl rfl)]
    rcases hlast _ _ hvalue with hvalue | hvalue
    · exact h.control_read value hvalue
    · exact hvalue (.inl rfl)
  · intro value hvalue i hi
    rw [hheld Register.flags (.inr rfl)]
    rcases hlast _ _ hvalue with hvalue | hvalue
    · exact h.flags_read value hvalue i hi
    · rw [hvalue (.inr rfl)]

/-- An action that is no access. -/
theorem tell (h : s.Framed controlWord flagsWord) {action : Action}
    (haction : ∀ offset value, action ≠ .write offset value) (driver : Driver slots size)
    {known : Known} (hlast : known.last = s.known.last) :
    (s.tell action driver known).Framed controlWord flagsWord := by
  refine h.undisturbed (Retentive.note_untroubled action _) ?_ ?_
  · intro offset value hvalue
    exact .inl (hlast.symm.trans hvalue)
  · intro offset value hmem
    rcases Journal.write_mem_push hmem with hmem | heq
    · exact .inl hmem
    · exact absurd heq (haction offset value)

theorem read (h : s.Framed controlWord flagsWord) (offset : Offset) :
    (s.read offset).Framed controlWord flagsWord := by
  refine h.undisturbed (Retentive.read_untroubled offset _) ?_ ?_
  · intro other value hvalue
    rw [Scene.read, Known.last_learn] at hvalue
    obtain ⟨rfl, rfl⟩ := Prod.mk.inj (Option.some.inj hvalue)
    exact .inr fun hshared => (Retentive.read_eq h.framed.reserved hshared).symm
  · intro other value hmem
    rcases Journal.write_mem_push hmem with hmem | heq
    · exact .inl hmem
    · cases heq

/-- A write of a register that is the driver's own. -/
theorem write (h : s.Framed controlWord flagsWord) {offset : Offset} {value : Word}
    (hoffset : ¬ Register.IsShared offset)
    (htouches : offset ≠ Register.irqStatus → offset ≠ Register.irqMask →
      Register.Touches controlWord flagsWord offset value)
    {known : Known} (hlast : known.last = s.known.last ∨ known.last = none) :
    (s.write offset value known).Framed controlWord flagsWord := by
  refine h.undisturbed (Retentive.write_untroubled hoffset value _) ?_ ?_
  · intro other cell hcell
    change known.last = _ at hcell
    rcases hlast with hlast | hlast
    · exact .inl (hlast.symm.trans hcell)
    · cases hlast.symm.trans hcell
  · intro other cell hmem
    rcases Journal.write_mem_push hmem with hmem | heq
    · exact .inl hmem
    · obtain ⟨rfl, rfl⟩ := Action.write.inj heq
      exact .inr ⟨fun hflags => hoffset (.inr hflags), htouches⟩

/-- The control register is written back as it was read, but for the bits of the driver. -/
theorem writeControl (h : s.Framed controlWord flagsWord) {value word : Word}
    (hvalue : s.known.last = some (Register.control, value))
    (hword : ∀ i, 2 ≤ i → word.getLsbD i = value.getLsbD i) {known : Known}
    (hlast : known.last = none) :
    (s.write Register.control word known).Framed controlWord flagsWord := by
  have hreserved := Retentive.write_reserved h.framed.reserved (.inl rfl) word
  have hcontrol : held (s.write Register.control word known).port.world Register.control = word :=
    (Retentive.held_write h.framed.reserved (.inl rfl) (.inl rfl) word).trans (if_pos rfl)
  have hflags : held (s.write Register.control word known).port.world Register.flags =
      held s.port.world Register.flags :=
    (Retentive.held_write h.framed.reserved (.inl rfl) (.inr rfl) word).trans (if_neg (by decide))
  have hframe : ∀ i, 2 ≤ i → word.getLsbD i = controlWord.getLsbD i := by
    intro i hi
    rw [hword i hi, ← h.control_read value hvalue]
    exact h.framed.control_eq i hi
  have hnone : ∀ cell, (s.write Register.control word known).known.last ≠ some cell := by
    intro cell hcell
    cases hlast.symm.trans hcell
  refine ⟨⟨hreserved, ?_, ?_, ?_, ?_⟩, fun _ hcell => absurd hcell (hnone _),
    fun _ hcell => absurd hcell (hnone _)⟩
  · rw [hcontrol]
    exact hframe
  · rw [hflags]
    exact h.framed.flags_eq
  · intro cell hmem
    rw [hflags]
    rcases Journal.write_mem_push hmem with hmem | heq
    · exact h.framed.acyclic cell hmem
    · exact absurd (Action.write.inj heq).1 (by decide)
  · intro offset cell hmem
    rcases Journal.write_mem_push hmem with hmem | heq
    · exact h.framed.touches offset cell hmem
    · obtain ⟨rfl, rfl⟩ := Action.write.inj heq
      exact fun _ _ => .control hframe

/-- The flags register is written back as it was read, but for the cyclic flag. -/
theorem writeFlags (h : s.Framed controlWord flagsWord) {value : Word}
    (hvalue : s.known.last = some (Register.flags, value)) :
    (s.write Register.flags (value &&& ~~~ cyclicFlag) s.known).Framed controlWord flagsWord := by
  let word := value &&& ~~~ cyclicFlag
  let written := s.write Register.flags word s.known
  have hbits : ∀ i, 1 ≤ i → word.getLsbD i = value.getLsbD i :=
    fun i hi => Word.getLsbD_clear (Control.getLsbD_enable (by omega))
  have hcyclic : word.getLsbD 0 = false := by simp [word, cyclicFlag]
  have hreserved := Retentive.write_reserved h.framed.reserved (.inr rfl) word
  have hcontrol : held written.port.world Register.control = held s.port.world Register.control :=
    (Retentive.held_write h.framed.reserved (.inr rfl) (.inl rfl) word).trans (if_neg (by decide))
  have hflags : held written.port.world Register.flags = word :=
    (Retentive.held_write h.framed.reserved (.inr rfl) (.inr rfl) word).trans (if_pos rfl)
  have hframe : ∀ i, 1 ≤ i → word.getLsbD i = flagsWord.getLsbD i := by
    intro i hi
    rw [hbits i hi, ← h.flags_read value hvalue i hi]
    exact h.framed.flags_eq i hi
  refine ⟨⟨hreserved, ?_, ?_, ?_, ?_⟩, ?_, ?_⟩
  · rw [hcontrol]
    exact h.framed.control_eq
  · rw [hflags]
    exact hframe
  · intro _ _
    rw [hflags]
    exact hcyclic
  · intro offset cell hmem
    rcases Journal.write_mem_push hmem with hmem | heq
    · exact h.framed.touches offset cell hmem
    · obtain ⟨rfl, rfl⟩ := Action.write.inj heq
      exact fun _ _ => .flags hframe hcyclic
  · intro cell hcell
    rw [hcontrol]
    exact h.control_read cell hcell
  · intro cell hcell i hi
    obtain rfl := (Prod.mk.inj (Option.some.inj (hvalue.symm.trans hcell))).2
    rw [hflags]
    exact hbits i hi

variable [HasSlots slots]

theorem step (h : s.Framed controlWord flagsWord) (hstep : Step Untroubled s s') :
    s'.Framed controlWord flagsWord := by
  obtain ⟨driver, known, port⟩ := s
  obtain ⟨driver', known', port'⟩ := s'
  obtain ⟨deed, hprotocol, hserves, -⟩ := hstep
  cases hprotocol with
  | read offset value =>
    obtain ⟨rfl, rfl⟩ := hserves
    exact h.read offset
  | remark action hremark =>
    cases action with
    | log | offered | delayed =>
      obtain rfl := hserves
      exact h.tell (by simp) driver rfl
    | _ => exact hremark.elim
  | irq offset value hoffset =>
    obtain rfl := hserves
    have hunshared : ¬ Register.IsShared offset := by rcases hoffset with rfl | rfl <;> decide
    refine h.write hunshared (fun hstatus hmask => ?_) (.inl rfl)
    rcases hoffset with rfl | rfl
    · exact absurd rfl hmask
    · exact absurd rfl hstatus
  | acyclic value hvalue =>
    obtain rfl := hserves
    exact h.writeFlags hvalue
  | pause value hvalue =>
    obtain rfl := hserves
    exact h.writeControl hvalue
      (fun i hi => Word.getLsbD_set (Control.getLsbD_pause (by omega))) rfl
  | resume value hvalue =>
    obtain rfl := hserves
    exact h.writeControl hvalue
      (fun i hi => Word.getLsbD_clear (Control.getLsbD_pause (by omega))) rfl
  | enable value hvalue =>
    obtain rfl := hserves
    exact h.writeControl hvalue
      (fun i hi => Word.getLsbD_set (Control.getLsbD_enable (by omega))) rfl
  | disable value hvalue =>
    obtain rfl := hserves
    exact h.writeControl hvalue
      (fun i hi => Word.getLsbD_clear (Control.getLsbD_enable (by omega))) rfl
  | measure transfer =>
    obtain rfl := hserves
    exact h.write (by decide) (fun _ _ => .transfer (.inl rfl)) (.inl rfl)
  | direct transfer =>
    obtain rfl := hserves
    refine h.write ?_ (fun _ _ => transfer.direction.touches _ _ _) (.inl rfl)
    cases transfer.direction <;> decide
  | queue =>
    obtain rfl := hserves
    exact h.write (by decide) (fun _ _ => .submit) (.inr rfl)
  | mark | deliver | reclaim | restart =>
    obtain rfl := hserves
    exact h.tell (by simp) _ rfl
  | fill id data =>
    obtain rfl := hserves
    exact h.undisturbed (Retentive.store_untroubled _ _) (fun _ _ => .inl) fun _ _ => .inl
  | meanwhile =>
    obtain ⟨hfree, hjournal⟩ := hserves
    refine h.undisturbed hfree (fun _ _ => .inl) fun offset value hmem => .inl ?_
    rw [← hjournal]
    exact hmem
  | adopt | turn | stream =>
    obtain rfl : port' = port := hserves
    exact h.undisturbed .refl (fun _ _ => .inl) fun _ _ => .inl

theorem path (h : s.Framed controlWord flagsWord) (hpath : Path Untroubled s s') :
    s'.Framed controlWord flagsWord := by
  induction hpath with
  | refl => exact h
  | tail _ hstep ih => exact ih.step hstep

end Scene.Framed

end DmaController

import DmaController.Proofs.Changes

/-!
Who holds a slot. The history of the engine tells how far the latest transfer of each slot has come.
While the core runs, a slot is in flight for a transfer that is being prepared, or is pending, or is
outstanding, or has finished and shows its done bit; after a halt nothing is queued and nothing is
done. A settled snapshot of the done bits shows finished transfers only.
-/
namespace DmaController

open Sim

/-- How far the latest transfer of a slot has come. -/
inductive Stage
  | none
  | queued (transfer : Transfer)
  | running (transfer : Transfer)
  | finished (transfer : Transfer)
  | aborted (transfer : Transfer)
  deriving DecidableEq, Repr

namespace Stage

def accept (id : Nat) : Stage → Stage
  | queued transfer => if transfer.id.val = id then running transfer else queued transfer
  | stage => stage

def complete (id : Nat) : Stage → Stage
  | running transfer => if transfer.id.val = id then finished transfer else running transfer
  | stage => stage

def abort : Stage → Stage
  | queued transfer | running transfer | finished transfer => aborted transfer
  | stage => stage

end Stage

variable {slots size : Nat} [HasSlots slots]

/-- The stage of a slot after a history, which has its newest event first. -/
def stage (slot : Fin slots) : List Event → Stage
  | [] => .none
  | .accepted transfer :: past => (stage slot past).accept transfer.id
  | .completed id :: past => (stage slot past).complete id
  | .aborted :: past => (stage slot past).abort
  | .written .. :: past => stage slot past
  | .noted action :: past =>
    match action.submission? with
    | some transfer =>
      if Pool.index slots transfer.id = slot then .queued transfer else stage slot past
    | none => stage slot past

section Stage

variable (slot : Fin slots) (past : List Event)

theorem stage_noted {action : Action} (h : action.submission? = none) :
    stage slot (.noted action :: past) = stage slot past := by
  rw [stage, h]

theorem stage_plain {event : Event} (h : event.IsPlain) :
    stage slot (event :: past) = stage slot past := by
  cases event with
  | written => rfl
  | noted action => exact stage_noted slot past h.1
  | accepted | completed | aborted => exact h.elim

theorem stage_submitted_self (transfer : Transfer) :
    stage (Pool.index slots transfer.id) (.noted (.submitted transfer) :: past) =
      .queued transfer := by
  simp [stage, Action.submission?]

theorem stage_submitted_of_ne {slot : Fin slots} {transfer : Transfer}
    (h : Pool.index slots transfer.id ≠ slot) :
    stage slot (.noted (.submitted transfer) :: past) = stage slot past := by
  simp [stage, Action.submission?, h]

theorem stage_alike {e e' : Engine} (h : e.Alike e') :
    stage slot e'.history = stage slot e.history := by
  rcases h.history_eq with heq | ⟨event, hplain, heq⟩
  · rw [heq]
  · rw [heq, stage_plain _ _ hplain]

end Stage

namespace Sim.Engine

/-- The done bit of an id. -/
def isDone (engine : Engine) (id : Nat) : Bool := engine.done.getLsbD id

variable (engine : Engine)

theorem isDone_takeOver {id : Nat} (h : id < 32) :
    engine.takeOver.isDone id = (engine.isDone id && decide (id ≠ engine.acceptId)) := by
  by_cases hid : engine.acceptId = id
  · simp [isDone, takeOver, hid, h]
  · simp [isDone, takeOver, h, Ne.symm hid]

theorem isDone_complete {id other : Nat} (h : id < 32) :
    (engine.complete other).isDone id = (engine.isDone id || decide (id = other)) := by
  by_cases hid : other = id
  · simp [isDone, complete, hid, h]
  · simp [isDone, complete, hid, Ne.symm hid]

theorem acceptId_of_lt (h : engine.nextId.toNat < 31) :
    engine.acceptId = engine.nextId.toNat := by
  have hfield : transferIdField.toNat = 2 ^ 5 - 1 := rfl
  rw [acceptId, BitVec.toNat_and, hfield, Nat.and_two_pow_sub_one_eq_mod]
  omega

theorem nextId_takeOver_lt : engine.takeOver.nextId.toNat < 31 := by
  unfold takeOver
  dsimp only
  split_ifs with h
  · decide
  · rw [BitVec.toNat_ofNat]
    omega

end Sim.Engine

namespace Sim.Engine.IsIdle

theorem alike {e e' : Engine} (h : e.IsIdle) (he : e.Alike e') : e'.IsIdle where
  pending_eq := he.pending_eq.trans h.pending_eq
  outstanding_eq := he.outstanding_eq.trans h.outstanding_eq
  done_eq := he.done_eq.trans h.done_eq
  nextId_eq := he.nextId_eq.trans h.nextId_eq

end Sim.Engine.IsIdle

/-- What holds of slots and transfers while the core runs. -/
structure Custody (d : Driver slots size) (k : Known) (e : Engine) : Prop where
  enabled : e.isEnabled = true
  nextId_lt : e.nextId.toNat < 31
  nodup : e.outstanding.Nodup
  drafted : ∀ transfer, k.draft.transfer? = some transfer →
    stage (Pool.index slots transfer.id) e.history = .queued transfer
  queued : e.submitPending = true → ∃ transfer : Transfer, d.newest = some transfer.id ∧
    e.acceptId = transfer.id.val ∧ d.Holds transfer.id ∧
    stage (Pool.index slots transfer.id) e.history = .queued transfer
  running : ∀ n ∈ e.outstanding, ∃ transfer : Transfer, transfer.id.val = n ∧
    d.Holds transfer.id ∧ e.isDone n = false ∧
    stage (Pool.index slots transfer.id) e.history = .running transfer
  placed : ∀ (i : Fin slots) (id : TransferId), (d.pool.slotAt i).transferId? = some id →
    Pool.index slots id = i ∧
    ((∃ transfer, k.draft.transfer? = some transfer ∧ transfer.id = id) ∨
      (e.submitPending = true ∧ d.newest = some id) ∨
      id.val ∈ e.outstanding ∨
      (e.isDone id.val = true ∧
        ∃ transfer : Transfer, transfer.id = id ∧ stage i e.history = .finished transfer))
  settled : ∀ id, k.done.isDone id = true → d.Holds id → e.isDone id.val = true ∧
    ∃ transfer : Transfer, transfer.id = id ∧
      stage (Pool.index slots id) e.history = .finished transfer

namespace Custody

variable {d d' : Driver slots size} {k k' : Known} {e e' : Engine}

theorem takeOver (h : Custody d k e) (hsound : Sound d k e) (hpending : e.submitPending = true) :
    Custody d k e.takeOver := by
  have hdraft : ∀ transfer, k.draft.transfer? ≠ some transfer := by
    intro transfer ht
    simp [hsound.quiet_of_drafted ht] at hpending
  obtain ⟨newest, hnewest, hid, hholds, hstage⟩ := h.queued hpending
  have hstage' : ∀ slot : Fin slots, stage slot e.takeOver.history =
      (stage slot e.history).accept e.acceptId := fun _ => rfl
  have hrunning : stage (Pool.index slots newest.id) e.takeOver.history = .running newest := by
    rw [hstage', hstage, Stage.accept, if_pos hid.symm]
  have hne : ∀ {transfer : Transfer} {stage' : Stage},
      stage (Pool.index slots transfer.id) e.history = stage' → stage' ≠ .queued newest →
      transfer.id.val ≠ e.acceptId := by
    intro transfer stage' hother hne heq
    rw [Fin.ext (heq.trans hid), hstage] at hother
    exact hne hother.symm
  have hdone : ∀ {transfer : Transfer} {stage' : Stage},
      stage (Pool.index slots transfer.id) e.history = stage' → stage' ≠ .queued newest →
      e.takeOver.isDone transfer.id.val = e.isDone transfer.id.val := by
    intro transfer stage' hother hstage'
    rw [e.isDone_takeOver transfer.id.val_lt, decide_eq_true (hne hother hstage'), Bool.and_true]
  refine ⟨h.enabled, e.nextId_takeOver_lt, ?_, fun transfer ht => absurd ht (hdraft transfer),
    fun hnot => absurd hnot Bool.false_ne_true, ?_, ?_, ?_⟩
  · have hnot : e.acceptId ∉ e.outstanding := by
      intro hmem
      obtain ⟨transfer, htransfer, -, -, hother⟩ := h.running _ hmem
      exact hne hother (by simp) htransfer
    exact List.nodup_append.2 ⟨h.nodup, by simp, by
      intro a ha b hb
      obtain rfl := List.mem_singleton.1 hb
      exact fun heq => hnot (heq ▸ ha)⟩
  · intro n hn
    rcases List.mem_append.1 hn with hn | hn
    · obtain ⟨transfer, rfl, hholds', hbit, hother⟩ := h.running n hn
      refine ⟨transfer, rfl, hholds', (hdone hother (by simp)).trans hbit, ?_⟩
      rw [hstage', hother]
      rfl
    · obtain rfl := List.mem_singleton.1 hn
      refine ⟨newest, hid.symm, hholds, ?_, hrunning⟩
      have hlt : e.acceptId < 32 := hid ▸ newest.id.val_lt
      simp [e.isDone_takeOver hlt]
  · intro i id hslot
    obtain ⟨hindex, hplace⟩ := h.placed i id hslot
    refine ⟨hindex, ?_⟩
    rcases hplace with ⟨transfer, ht, -⟩ | ⟨-, hnew⟩ | hmem | ⟨hbit, transfer, rfl, hother⟩
    · exact absurd ht (hdraft transfer)
    · obtain rfl := Option.some.inj (hnewest.symm.trans hnew)
      exact .inr (.inr (.inl (List.mem_append_right _ (by simp [hid]))))
    · exact .inr (.inr (.inl (List.mem_append_left _ hmem)))
    · rw [← hindex] at hother ⊢
      refine .inr (.inr (.inr ⟨(hdone hother (by simp)).trans hbit, transfer, rfl, ?_⟩))
      rw [hstage', hother]
      rfl
  · intro id hsettled hholds'
    obtain ⟨hbit, transfer, rfl, hother⟩ := h.settled id hsettled hholds'
    refine ⟨(hdone hother (by simp)).trans hbit, transfer, rfl, ?_⟩
    rw [hstage', hother]
    rfl

theorem complete (h : Custody d k e) (n : Nat) : Custody d k (e.complete n) := by
  have hstage : ∀ slot : Fin slots, stage slot (e.complete n).history =
      (stage slot e.history).complete n := fun _ => rfl
  have hkeeps : ∀ id : TransferId, e.isDone id.val = true →
      (e.complete n).isDone id.val = true := by
    intro id hbit
    rw [e.isDone_complete id.val_lt, hbit, Bool.true_or]
  refine ⟨h.enabled, h.nextId_lt, h.nodup.filter _, ?_, ?_, ?_, ?_, ?_⟩
  · intro transfer ht
    rw [hstage, h.drafted transfer ht]
    rfl
  · intro hpending
    obtain ⟨newest, hnewest, hid, hholds, hqueued⟩ := h.queued hpending
    refine ⟨newest, hnewest, hid, hholds, ?_⟩
    rw [hstage, hqueued]
    rfl
  · intro m hm
    obtain ⟨hm, hne⟩ := List.mem_filter.1 hm
    obtain ⟨transfer, rfl, hholds, hbit, hrunning⟩ := h.running m hm
    have hne : transfer.id.val ≠ n := by simpa using hne
    refine ⟨transfer, rfl, hholds, ?_, ?_⟩
    · rw [e.isDone_complete transfer.id.val_lt, hbit, decide_eq_false hne]
      rfl
    · rw [hstage, hrunning]
      exact if_neg hne
  · intro i id hslot
    obtain ⟨hindex, hplace⟩ := h.placed i id hslot
    refine ⟨hindex, ?_⟩
    rcases hplace with hdraft | hnew | hmem | ⟨hbit, transfer, rfl, hfinished⟩
    · exact .inl hdraft
    · exact .inr (.inl hnew)
    · by_cases hid : id.val = n
      · obtain ⟨transfer, htransfer, -, -, hrunning⟩ := h.running _ hmem
        obtain rfl : id = transfer.id := Fin.ext htransfer.symm
        refine .inr (.inr (.inr ⟨?_, transfer, rfl, ?_⟩))
        · rw [e.isDone_complete transfer.id.val_lt, decide_eq_true hid,
            Bool.or_true]
        · rw [← hindex, hstage, hrunning]
          exact if_pos hid
      · exact .inr (.inr (.inl (List.mem_filter.2 ⟨hmem, by simpa using hid⟩)))
    · refine .inr (.inr (.inr ⟨hkeeps _ hbit, transfer, rfl, ?_⟩))
      rw [hstage, hfinished]
      rfl
  · intro id hsettled hholds
    obtain ⟨hbit, transfer, rfl, hfinished⟩ := h.settled id hsettled hholds
    refine ⟨hkeeps _ hbit, transfer, rfl, ?_⟩
    rw [hstage, hfinished]
    rfl

theorem learn (h : Custody d k e) (hdraft : k.draft = .none) (hdraft' : k'.draft = .none)
    (hdone : ∀ id, k'.done.isDone id = true → k.done.isDone id = true ∨
      e.isDone id.val = true ∧ ¬ (e.submitPending = true ∧ d.newest = some id)) :
    Custody d k' e := by
  refine { h with drafted := ?_, placed := ?_, settled := ?_ }
  · simp [hdraft', Draft.transfer?]
  · intro i id hslot
    rw [hdraft', ← hdraft]
    exact h.placed i id hslot
  · intro id hid hholds
    rcases hdone id hid with hid | ⟨hbit, hnot⟩
    · exact h.settled id hid hholds
    obtain ⟨-, hplace⟩ := h.placed _ id hholds
    rcases hplace with ⟨transfer, ht, -⟩ | hnew | hmem | hfinished
    · simp [hdraft, Draft.transfer?] at ht
    · exact absurd hnew hnot
    · obtain ⟨-, -, -, hnotDone, -⟩ := h.running _ hmem
      simp [hbit] at hnotDone
    · exact hfinished

theorem plain (h : Custody d k e) (hpool : d'.pool = d.pool) (hnewest : d'.newest = d.newest)
    (hdone : k'.done = k.done) (hdraft : k'.draft.transfer? = k.draft.transfer?)
    (he : e.Alike e') : Custody d' k' e' := by
  have hholds : ∀ id, d'.Holds id ↔ d.Holds id := by
    intro id
    unfold Driver.Holds
    rw [hpool]
  have hisDone : e'.isDone = e.isDone := by
    unfold Engine.isDone
    rw [he.done_eq]
  have hstage : ∀ slot : Fin slots, stage slot e'.history = stage slot e.history :=
    fun slot => stage_alike slot he
  refine ⟨he.enabled_of h.enabled, ?_, ?_, ?_, ?_, ?_, ?_, ?_⟩
  · rw [he.nextId_eq]
    exact h.nextId_lt
  · rw [he.outstanding_eq]
    exact h.nodup
  · simpa only [hdraft, hstage] using h.drafted
  · simpa only [he.pending_eq, he.acceptId_eq, hnewest, hholds, hstage] using h.queued
  · simpa only [he.outstanding_eq, hholds, hisDone, hstage] using h.running
  · simpa only [hpool, hdraft, he.pending_eq, hnewest, he.outstanding_eq, hisDone, hstage] using
      h.placed
  · simpa only [hdone, hholds, hisDone, hstage] using h.settled

/-- The slot of a new submission was free, so every slot in flight is another one. -/
theorem mark (h : Custody d k e) {transfer : Transfer} (hdraft : k.draft = .none)
    (hquiet : e.submitPending = false) (hadmits : d.Admits transfer) (hdone : k'.done = .none)
    (hdraft' : k'.draft.transfer? = some transfer) :
    Custody (d.submitted transfer) k' (e.remember (.noted (.submitted transfer))) := by
  have hfree : (d.pool.slot transfer.id).transferId? = none := by
    simpa [Slot.isInFlight] using hadmits.free
  have hne : ∀ {i : Fin slots} {id : TransferId}, (d.pool.slotAt i).transferId? = some id →
      i ≠ Pool.index slots transfer.id := by
    intro i id hslot heq
    subst heq
    cases hfree.symm.trans hslot
  have hstage : ∀ {i : Fin slots} {id : TransferId}, (d.pool.slotAt i).transferId? = some id →
      stage i (e.remember (.noted (.submitted transfer))).history = stage i e.history :=
    fun hslot => stage_submitted_of_ne _ (hne hslot).symm
  refine ⟨h.enabled, h.nextId_lt, h.nodup, ?_, ?_, ?_, ?_, ?_⟩
  · intro other hother
    obtain rfl := Option.some.inj (hdraft'.symm.trans hother)
    exact stage_submitted_self _ _
  · intro hpending
    cases hquiet.symm.trans hpending
  · intro n hn
    obtain ⟨other, hid, hholds, hbit, hrunning⟩ := h.running n hn
    refine ⟨other, hid, ?_, hbit, (hstage hholds).trans hrunning⟩
    exact (congrArg _ (Pool.slot_submit_of_ne _ (hne hholds) _)).trans hholds
  · intro i id hslot
    have hcell := Pool.slotAt_submit d.pool transfer.id transfer.length i
    by_cases hi : i = Pool.index slots transfer.id
    · rw [if_pos hi] at hcell
      obtain rfl := Option.some.inj ((congrArg Slot.transferId? hcell).symm.trans hslot)
      exact ⟨hi.symm, .inl ⟨transfer, hdraft', rfl⟩⟩
    · rw [if_neg hi] at hcell
      have hold := (congrArg Slot.transferId? hcell).symm.trans hslot
      obtain ⟨hindex, hplace⟩ := h.placed i id hold
      refine ⟨hindex, ?_⟩
      rcases hplace with ⟨other, hother, -⟩ | ⟨hpending, -⟩ | hmem | ⟨hbit, other, hid, hfinished⟩
      · simp [hdraft, Draft.transfer?] at hother
      · cases hquiet.symm.trans hpending
      · exact .inr (.inr (.inl hmem))
      · exact .inr (.inr (.inr ⟨hbit, other, hid, (hstage hold).trans hfinished⟩))
  · simp [hdone, DoneBits.isDone_none]

theorem queue (h : Custody d k e) {transfer : Transfer}
    (hdraft : k.draft.transfer? = some transfer) (hdrafted : Drafted d k transfer)
    (hquiet : e.submitPending = false) (hid : e.acceptId = transfer.id.val)
    (hdone : k'.done = .none) (hdraft' : k'.draft = .none) :
    Custody d k' { e.remember (.written Register.submit submitBit false) with
      submitPending := true } := by
  have hholds : d.Holds transfer.id := congrArg Slot.transferId? hdrafted.slot_eq
  refine ⟨h.enabled, h.nextId_lt, h.nodup, ?_, ?_, h.running, ?_, ?_⟩
  · simp [hdraft', Draft.transfer?]
  · intro _
    exact ⟨transfer, hdrafted.newest_eq, hid, hholds, h.drafted transfer hdraft⟩
  · intro i id hslot
    obtain ⟨hindex, hplace⟩ := h.placed i id hslot
    refine ⟨hindex, ?_⟩
    rcases hplace with ⟨other, hother, rfl⟩ | ⟨hpending, -⟩ | hmem | hfinished
    · obtain rfl := Option.some.inj (hdraft.symm.trans hother)
      exact .inr (.inl ⟨rfl, hdrafted.newest_eq⟩)
    · cases hquiet.symm.trans hpending
    · exact .inr (.inr (.inl hmem))
    · exact .inr (.inr (.inr hfinished))
  · simp [hdone, DoneBits.isDone_none]

/-- A slot that is taken back belonged to a finished transfer. -/
theorem finished_of_release (h : Custody d k e) {id previous : TransferId}
    (hdone : k.done.isDone previous = true)
    (hslot : (d.pool.slot id).transferId? = some previous) :
    ∃ transfer : Transfer, transfer.id = previous ∧
      stage (Pool.index slots id) e.history = .finished transfer := by
  obtain ⟨hindex, -⟩ := h.placed _ previous hslot
  have hholds : d.Holds previous := by
    unfold Driver.Holds
    rw [d.pool.slot_of_index hindex]
    exact hslot
  obtain ⟨-, transfer, hid, hfinished⟩ := h.settled previous hdone hholds
  exact ⟨transfer, hid, by rw [← hindex]; exact hfinished⟩

theorem release (h : Custody d k e) {id previous : TransferId} {action : Action}
    (haction : action.submission? = none) (hdone : k.done.isDone previous = true)
    (hslot : (d.pool.slot id).transferId? = some previous) :
    Custody (d.withPool (d.pool.release id)) k (e.remember (.noted action)) := by
  obtain ⟨transfer, -, hstage⟩ := h.finished_of_release hdone hslot
  have hkeeps : ∀ {other : Transfer} {stage' : Stage}, d.Holds other.id →
      stage (Pool.index slots other.id) e.history = stage' → stage' ≠ .finished transfer →
      (d.withPool (d.pool.release id)).Holds other.id := by
    intro other stage' hholds hother hne
    have hindex : Pool.index slots other.id ≠ Pool.index slots id := by
      intro hindex
      rw [hindex, hstage] at hother
      exact hne hother.symm
    exact (congrArg _ (Pool.slot_release_of_ne _ hindex)).trans hholds
  have hplain : ∀ slot : Fin slots, stage slot (e.remember (.noted action)).history =
      stage slot e.history := fun slot => stage_noted slot _ haction
  refine ⟨h.enabled, h.nextId_lt, h.nodup, ?_, ?_, ?_, ?_, ?_⟩
  · simpa only [hplain] using h.drafted
  · intro hpending
    obtain ⟨newest, hnewest, hid, hholds, hqueued⟩ := h.queued hpending
    exact ⟨newest, hnewest, hid, hkeeps hholds hqueued (by simp), (hplain _).trans hqueued⟩
  · intro n hn
    obtain ⟨other, hid, hholds, hbit, hrunning⟩ := h.running n hn
    exact ⟨other, hid, hkeeps hholds hrunning (by simp), hbit, (hplain _).trans hrunning⟩
  · intro i other hslot'
    have hplaced := h.placed i other (Pool.transferId?_of_release hslot')
    rw [← hplain i] at hplaced
    exact hplaced
  · intro other hother hholds
    have hsettled := h.settled other hother (Pool.transferId?_of_release hholds)
    rw [← hplain _] at hsettled
    exact hsettled

theorem restart (hidle : e.IsIdle) (henabled : e.isEnabled = true)
    (hfree : ∀ i : Fin slots, (d.pool.slotAt i).transferId? = none) (hdone : k.done = .none)
    (hdraft : k.draft = .none) : Custody d k e := by
  refine ⟨henabled, ?_, ?_, ?_, ?_, ?_, ?_, ?_⟩
  · rw [hidle.nextId_eq]
    decide
  · rw [hidle.outstanding_eq]
    exact List.nodup_nil
  · simp [hdraft, Draft.transfer?]
  · simp [hidle.pending_eq]
  · simp [hidle.outstanding_eq]
  · intro i id hslot
    rw [hfree] at hslot
    cases hslot
  · simp [hdone, DoneBits.isDone_none]

end Custody

/-- What holds in each phase; a lost phase promises nothing. -/
structure InCustody (d : Driver slots size) (k : Known) (e : Engine) : Prop where
  running : k.phase = .running → Custody d k e
  halted : k.phase = .halted →
    e.IsIdle ∧ k.draft.transfer? = none ∧ ∀ id, k.done.isDone id = false

namespace InCustody

variable {d d' : Driver slots size} {k k' : Known} {e e' : Engine}

theorem turn (h : InCustody d k e) (hsound : Sound d k e) (hturn : Turn e e') :
    InCustody d k e' := by
  cases hturn with
  | takeOver hpending =>
    refine ⟨fun hphase => (h.running hphase).takeOver hsound hpending, fun hphase => ?_⟩
    cases (h.halted hphase).1.pending_eq.symm.trans hpending
  | complete id hid =>
    refine ⟨fun hphase => (h.running hphase).complete id, fun hphase => ?_⟩
    rw [(h.halted hphase).1.outstanding_eq] at hid
    exact absurd hid List.not_mem_nil

theorem change (h : InCustody d k e) (hsound : Sound d k e) (hchange : Change d k e d' k' e') :
    InCustody d' k' e' := by
  cases hchange with
  | turn hturn => exact h.turn hsound hturn
  | learn hphase hdraft hdraft' hdone =>
    refine ⟨fun hrunning => ?_, fun hhalted => ?_⟩
    · exact (h.running (hphase.symm.trans hrunning)).learn hdraft hdraft' hdone
    · obtain ⟨hidle, -, hnone⟩ := h.halted (hphase.symm.trans hhalted)
      refine ⟨hidle, by rw [hdraft']; rfl, fun id => ?_⟩
      cases hid : k'.done.isDone id with
      | false => rfl
      | true =>
        rcases hdone id hid with hid | ⟨hbit, -⟩
        · simp [hnone id] at hid
        · simp [hidle.done_eq] at hbit
  | plain hpool hconfig hnewest hphase hdone hdraft he =>
    refine ⟨fun hrunning => ?_, fun hhalted => ?_⟩
    · exact (h.running (hphase.symm.trans hrunning)).plain hpool hnewest hdone hdraft he
    · obtain ⟨hidle, hnone, hclear⟩ := h.halted (hphase.symm.trans hhalted)
      exact ⟨hidle.alike he, hdraft.trans hnone, by rw [hdone]; exact hclear⟩
  | abort value hdraft henabled hcleared =>
    refine ⟨fun hrunning => ?_, fun _ => ⟨⟨rfl, rfl, rfl, rfl⟩, rfl, DoneBits.isDone_none⟩⟩
    exact absurd hrunning k.phase.halt_ne_running
  | halt hdraft hdisabled he =>
    refine ⟨fun hrunning => absurd hrunning k.phase.halt_ne_running, fun hhalted => ?_⟩
    cases hphase : k.phase with
    | running => cases (h.running hphase).enabled.symm.trans hdisabled
    | halted => exact ⟨(h.halted hphase).1.alike he, rfl, DoneBits.isDone_none⟩
    | lost => simp [hphase, Phase.halt] at hhalted
  | mark transfer hdraft hquiet hid hadmits hphase hdone hdraft' =>
    cases hold : k.phase with
    | running =>
      have hcustody := (h.running hold).mark hdraft hquiet hadmits hdone hdraft'
      exact ⟨fun _ => hcustody, fun hhalted => by simp [hphase, hold, Phase.submit] at hhalted⟩
    | halted | lost => constructor <;> simp [hphase, hold, Phase.submit]
  | queue transfer hdraft hdrafted hquiet hcarries hphase hdone hdraft' =>
    refine ⟨fun hrunning => ?_, fun hhalted => ?_⟩
    · exact (h.running (hphase.symm.trans hrunning)).queue hdraft hdrafted hquiet hcarries.id_eq
        hdone hdraft'
    · obtain ⟨-, hnone, -⟩ := h.halted (hphase.symm.trans hhalted)
      cases hnone.symm.trans hdraft
  | release id previous action haction hdone hslot =>
    refine ⟨fun hrunning => ?_, fun hhalted => ?_⟩
    · exact (h.running hrunning).release (action.submission?_of_freed? haction) hdone hslot
    · simp [(h.halted hhalted).2.2 previous] at hdone
  | restart hfree haddress hphase hphase' hdone hdraft hdraft' henabled he =>
    refine ⟨fun hrunning => ?_, fun hhalted => ?_⟩
    · cases hold : k.phase with
      | running => exact absurd hold hphase
      | halted =>
        refine .restart ((h.halted hold).1.alike he) (he.enabled_of henabled) ?_ hdone hdraft'
        intro i
        rw [hfree]
        rfl
      | lost => simp [hphase', hold, Phase.restart] at hrunning
    · exact absurd (hphase'.symm.trans hhalted) k.phase.restart_ne_halted

end InCustody

theorem Scene.Attained.inCustody {s : Scene Engine slots size} {ready : Engine → Prop}
    (hready : ∀ e, ready e → e.IsIdle) (h : s.Attained ready) :
    InCustody s.driver s.known s.engine := by
  refine h.invariant ?_ fun _ _ _ _ _ _ hsound h => h.change hsound
  intro d e _ he
  exact ⟨by simp, fun _ => ⟨hready e he, rfl, DoneBits.isDone_none⟩⟩

end DmaController

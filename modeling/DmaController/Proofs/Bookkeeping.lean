import DmaController.Proofs.Custody

/-!
The books of a simulated core, whoever handles it: a driver, its hardware, or someone who overwrites
the next id and the submit bit, and marks transfers done that never were. Main statement: whatever
is done to a fresh core, what is outstanding is not marked done, the log grows by one transfer for
each acceptance, and only an acceptance of its id or an abort clears a done bit.
-/
namespace DmaController.Sim

namespace Stimulus

/-- The operation queues a submission. -/
def submits : Stimulus → Bool
  | write offset value => offset == Register.submit && value.hasAny submitBit
  | _ => false

/-- The operation clears the enable bit of an enabled core. -/
def aborts (core : Core) : Stimulus → Bool
  | write offset value =>
    offset == Register.control && core.isEnabled && !value.hasAny Control.enable
  | _ => false

/-- The operation takes the submit bit from set to clear, and by an acceptance: the bit was set or
is set by the operation, it is clear afterwards, and neither an abort nor an overwrite cleared it. -/
def accepts (core : Core) (stimulus : Stimulus) : Bool :=
  (core.submitPending || stimulus.submits) && !(stimulus.onCore core).submitPending &&
    !stimulus.aborts core && stimulus != .submitPending false

end Stimulus

namespace Core

/-- The core after these operations, one after the other. -/
def undergo (core : Core) (stimuli : List Stimulus) : Core :=
  stimuli.foldl (fun core stimulus => stimulus.onCore core) core

/-- What these operations accept: at each acceptance, the transfer that the registers describe. -/
def intake (core : Core) : List Stimulus → List Accepted
  | [] => []
  | stimulus :: later =>
    (if stimulus.accepts core then [core.programmed] else []) ++ (stimulus.onCore core).intake later

end Core

namespace Engine

theorem acceptId_lt (engine : Engine) : engine.acceptId < 32 := by
  have hfield : transferIdField.toNat = 2 ^ 5 - 1 := rfl
  rw [acceptId, BitVec.toNat_and, hfield, Nat.and_two_pow_sub_one_eq_mod]
  exact Nat.mod_lt _ (by decide)

theorem lt_of_isDone {engine : Engine} {id : Nat} (h : engine.isDone id = true) : id < 32 :=
  BitVec.lt_of_getLsbD h

/-- Taking over touches the done bit of one id. -/
theorem isDone_takeOver_of_ne {engine : Engine} {id : Nat} (h : id ≠ engine.acceptId) :
    engine.takeOver.isDone id = engine.isDone id := by
  by_cases hid : id < 32
  · simp [isDone_takeOver engine hid, h]
  · -- An id without a bit is done on no engine.
    have hclear : ∀ e : Engine, e.isDone id = false :=
      fun e => Bool.eq_false_iff.2 fun hdone => hid (lt_of_isDone hdone)
    rw [hclear, hclear]

theorem isDone_complete_of_ne {engine : Engine} {id other : Nat} (h : id ≠ other) :
    (engine.complete other).isDone id = engine.isDone id := by
  simp [isDone, complete, Ne.symm h]

/-- From `e` to `e'` the pending submission was accepted; it may have been completed at once. -/
structure Accepting (e e' : Engine) : Prop where
  pending_eq : e'.submitPending = false
  accepted_eq : e'.accepted = e.accepted.push e.programmed
  nextId_lt : e'.nextId.toNat < 31
  outstanding_of : ∀ id ∈ e'.outstanding, id = e.acceptId ∨ id ∈ e.outstanding
  undone : e.acceptId ∈ e'.outstanding → e'.isDone e.acceptId = false
  isDone_of_ne : ∀ id, id ≠ e.acceptId → e'.isDone id = e.isDone id

theorem Accepting.takeOver (e : Engine) : e.Accepting e.takeOver where
  pending_eq := rfl
  accepted_eq := rfl
  nextId_lt := e.nextId_takeOver_lt
  outstanding_of id hmem := by
    rcases List.mem_append.1 hmem with hmem | hmem
    · exact .inr hmem
    · exact .inl (List.mem_singleton.1 hmem)
  undone _ := by simp [isDone_takeOver e e.acceptId_lt]
  isDone_of_ne _ := isDone_takeOver_of_ne

theorem Accepting.complete {e e' : Engine} (h : e.Accepting e') :
    e.Accepting (e'.complete e.acceptId) where
  pending_eq := h.pending_eq
  accepted_eq := h.accepted_eq
  nextId_lt := h.nextId_lt
  outstanding_of id hmem := h.outstanding_of id (List.mem_filter.1 hmem).1
  undone hmem := absurd (List.mem_filter.1 hmem).2 (by simp)
  isDone_of_ne id hne := (isDone_complete_of_ne hne).trans (h.isDone_of_ne id hne)

/-- It does not matter whether the submission was queued just before. -/
theorem Accepting.of_queued {e e' : Engine} {history : List Event}
    (h : Engine.Accepting { e with submitPending := true, history } e') : e.Accepting e' :=
  ⟨h.pending_eq, h.accepted_eq, h.nextId_lt, h.outstanding_of, h.undone, h.isDone_of_ne⟩

/-- From `e` to `e'` nothing happened to transfers but that some were completed. -/
structure Completing (e e' : Engine) : Prop where
  accepted_eq : e'.accepted = e.accepted
  outstanding_of : ∀ id ∈ e'.outstanding, id ∈ e.outstanding ∧ e'.isDone id = e.isDone id
  isDone_of : ∀ id, e.isDone id = true → e'.isDone id = true

namespace Completing

variable {e e' e'' : Engine}

/-- The transfers were left alone. -/
theorem of_eq (haccepted : e'.accepted = e.accepted) (houtstanding : e'.outstanding = e.outstanding)
    (hdone : e'.done = e.done) : Completing e e' where
  accepted_eq := haccepted
  outstanding_of id hmem := ⟨houtstanding ▸ hmem, congrArg (·.getLsbD id) hdone⟩
  isDone_of id h := (congrArg (·.getLsbD id) hdone).trans h

theorem trans (h : Completing e e') (h' : Completing e' e'') : Completing e e'' where
  accepted_eq := h'.accepted_eq.trans h.accepted_eq
  outstanding_of id hmem := by
    obtain ⟨hmem, hdone⟩ := h'.outstanding_of id hmem
    obtain ⟨hmem, hdone'⟩ := h.outstanding_of id hmem
    exact ⟨hmem, hdone.trans hdone'⟩
  isDone_of id hdone := h'.isDone_of id (h.isDone_of id hdone)

theorem complete (e : Engine) (id : Nat) : Completing e (e.complete id) where
  accepted_eq := rfl
  outstanding_of other hmem := by
    obtain ⟨hmem, hne⟩ := List.mem_filter.1 hmem
    exact ⟨hmem, isDone_complete_of_ne (by simpa using hne)⟩
  isDone_of other hdone := by simp [isDone_complete e (lt_of_isDone hdone), hdone]

theorem foldl (ids : List Nat) (e : Engine) : Completing e (ids.foldl Engine.complete e) := by
  induction ids generalizing e with
  | nil => exact .of_eq rfl rfl rfl
  | cons id ids ih => exact (complete e id).trans (ih (e.complete id))

end Completing

/-- Completing leaves the submit bit and the next id alone. -/
theorem foldl_complete_eq (ids : List Nat) (engine : Engine) :
    ∃ done irqStatus outstanding history,
      ids.foldl complete engine = { engine with done, irqStatus, outstanding, history } := by
  induction ids generalizing engine with
  | nil => exact ⟨_, _, _, _, rfl⟩
  | cons id ids ih =>
    obtain ⟨done, irqStatus, outstanding, history, heq⟩ := ih (engine.complete id)
    exact ⟨done, irqStatus, outstanding, history, heq⟩

section Fold

variable {ids : List Nat} {engine : Engine}

theorem mem_outstanding_foldl {id : Nat} :
    id ∈ (ids.foldl complete engine).outstanding ↔ id ∈ engine.outstanding ∧ id ∉ ids := by
  induction ids generalizing engine with
  | nil => simp
  | cons other ids ih =>
    rw [List.foldl_cons, ih]
    simp [complete, and_assoc]

theorem isDone_foldl {id : Nat} (h : id < 32) :
    (ids.foldl complete engine).isDone id = (engine.isDone id || decide (id ∈ ids)) := by
  induction ids generalizing engine with
  | nil => simp
  | cons other ids ih =>
    rw [List.foldl_cons, ih, isDone_complete engine h]
    simp [Bool.or_assoc]

end Fold

theorem write_queue (engine : Engine) {value : Word} (h : value.hasAny submitBit = true) :
    engine.write Register.submit value =
      { engine with
        submitPending := true
        history := .written Register.submit value engine.submitPending :: engine.history } := by
  simp [write, remember, h]

/-- A write that neither queues a submission nor aborts changes registers and flags only. -/
theorem write_plain (engine : Engine) {offset : Offset} {value : Word}
    (hsubmits : (Stimulus.write offset value).submits = false)
    (haborts : offset = Register.control → engine.isEnabled = true →
      value.hasAny Control.enable = true) :
    ∃ registers irqStatus history,
      engine.write offset value = { engine with registers, irqStatus, history } := by
  by_cases hcontrol : offset = Register.control
  · subst hcontrol
    exact ⟨_, _, _, engine.write_control (haborts rfl)⟩
  unfold write
  dsimp only
  split_ifs with hsubmit hstatus hreadonly
  · have hvalue : value.hasAny submitBit = false := by
      simpa [Stimulus.submits, hsubmit] using hsubmits
    rw [hvalue, Bool.or_false]
    exact ⟨_, _, _, rfl⟩
  · exact ⟨_, _, _, rfl⟩
  · exact ⟨_, _, _, rfl⟩
  · exact ⟨_, _, _, rfl⟩

end Engine

namespace Core

variable (core : Core)

theorem accept_accepting (h : core.submitPending = true) :
    Engine.Accepting core.toEngine core.accept.toEngine := by
  have htaken := Engine.Accepting.takeOver core.toEngine
  unfold accept
  rw [if_pos h]
  dsimp only
  split_ifs with hauto
  · exact htaken.complete
  · exact htaken

/-- A look at the submit bit has no effect on the engine, or the core accepts what is pending. -/
theorem look_cases : core.look.toEngine = core.toEngine ∨
    core.submitPending = true ∧ Engine.Accepting core.toEngine core.look.toEngine := by
  unfold look
  dsimp only
  split_ifs with hpending hpolled hlast
  · let looked : Core := { core with pendingLooks := core.pendingLooks + 1 }
    exact .inr ⟨hpending, looked.accept_accepting hpending⟩
  all_goals exact .inl rfl

theorem toEngine_completeAll :
    core.completeAll.toEngine = core.outstanding.foldl Engine.complete core.toEngine := by
  have hfold : ∀ (ids : List Nat) (core : Core),
      (ids.foldl complete core).toEngine = ids.foldl Engine.complete core.toEngine := by
    intro ids
    induction ids with
    | nil => exact fun _ => rfl
    | cons id ids ih => exact fun core => ih (core.complete id)
  exact hfold core.outstanding core

/-- A write that queues a submission raises the submit bit; what is queued may be accepted at
once. -/
theorem write_queue {value : Word} (h : value.hasAny submitBit = true) : ∃ queued : Core,
    (∃ history, queued.toEngine = { core.toEngine with submitPending := true, history }) ∧
      core.write Register.submit value = if core.autoAccept then queued.accept else queued := by
  let queued : Core :=
    { core with
      toEngine := core.toEngine.write Register.submit value
      looksLeft := core.acceptAfter.getD 0
      writes := core.writes.push (Register.submit, value) }
  refine ⟨queued, ⟨_, core.toEngine.write_queue h⟩, ?_⟩
  unfold write
  rw [if_pos ⟨rfl, h⟩]
  rfl

end Core

namespace Stimulus

/-- What an operation comes to, seen from the transfers. -/
inductive Outcome (core : Core) (stimulus : Stimulus) : Prop
  | accepted (haccepts : stimulus.accepts core = true)
      (hengine : Engine.Accepting core.toEngine (stimulus.onCore core).toEngine)
  | aborted (haborts : stimulus.aborts core = true) (hidle : (stimulus.onCore core).IsIdle)
      (haccepted : (stimulus.onCore core).accepted = core.accepted)
  | completed (haccepts : stimulus.accepts core = false) (haborts : stimulus.aborts core = false)
      (hnextId : (stimulus.onCore core).nextId = core.nextId ∨ ∃ raw, stimulus = .nextId raw)
      (hengine : Engine.Completing core.toEngine (stimulus.onCore core).toEngine)

variable {core : Core} {stimulus : Stimulus}

/-- Nothing is accepted while a submit bit that was set stays set. -/
theorem accepts_eq_false (h : core.submitPending = true ∨ stimulus.submits = true →
    (stimulus.onCore core).submitPending = true) : stimulus.accepts core = false := by
  unfold accepts
  by_cases hset : core.submitPending = true ∨ stimulus.submits = true
  · simp [h hset]
  · simp only [not_or, Bool.not_eq_true] at hset
    simp [hset]

theorem Outcome.of_accepting (hset : core.submitPending = true ∨ stimulus.submits = true)
    (haborts : stimulus.aborts core = false) (hforced : stimulus ≠ .submitPending false)
    (hengine : Engine.Accepting core.toEngine (stimulus.onCore core).toEngine) :
    Outcome core stimulus := by
  refine .accepted ?_ hengine
  simp [accepts, hset, haborts, hforced, hengine.pending_eq]

/-- An operation that leaves the submit bit and the next id alone, and completes at most. -/
theorem Outcome.of_completing (hsubmits : stimulus.submits = false)
    (haborts : stimulus.aborts core = false)
    (hpending : (stimulus.onCore core).submitPending = core.submitPending)
    (hnextId : (stimulus.onCore core).nextId = core.nextId)
    (hengine : Engine.Completing core.toEngine (stimulus.onCore core).toEngine) :
    Outcome core stimulus := by
  refine .completed (accepts_eq_false ?_) haborts (.inl hnextId) hengine
  simp [hsubmits, hpending]

/-- An operation that leaves the engine alone. -/
theorem Outcome.of_eq (hsubmits : stimulus.submits = false) (haborts : stimulus.aborts core = false)
    (heq : (stimulus.onCore core).toEngine = core.toEngine) : Outcome core stimulus := by
  refine .of_completing hsubmits haborts ?_ ?_ ?_ <;> rw [heq]
  exact .of_eq rfl rfl rfl

variable (core)

/-- A write that queues a submission: it is accepted at once or stays pending. -/
theorem outcome_queue {value : Word} (h : value.hasAny submitBit = true) :
    Outcome core (.write Register.submit value) := by
  have hsubmits : (write Register.submit value).submits = true := by simp [submits, h]
  obtain ⟨queued, ⟨history, hqueued⟩, hwrite⟩ := core.write_queue h
  have hpending : queued.submitPending = true := by rw [hqueued]
  by_cases hauto : core.autoAccept = true
  · rw [if_pos hauto] at hwrite
    have hengine := queued.accept_accepting hpending
    rw [hqueued, ← hwrite] at hengine
    exact .of_accepting (.inr hsubmits) rfl nofun hengine.of_queued
  · rw [if_neg hauto] at hwrite
    have hengine : ((write Register.submit value).onCore core).toEngine = _ :=
      (congrArg Core.toEngine hwrite).trans hqueued
    refine .completed (accepts_eq_false fun _ => ?_) rfl (.inl ?_) ?_ <;> rw [hengine]
    exact .of_eq rfl rfl rfl

theorem outcome_write (offset : Offset) (value : Word) : Outcome core (.write offset value) := by
  by_cases hsubmits : (write offset value).submits = true
  · obtain ⟨rfl, hvalue⟩ : offset = Register.submit ∧ value.hasAny submitBit = true := by
      simpa [submits] using hsubmits
    exact outcome_queue core hvalue
  have hsubmits := Bool.eq_false_iff.2 hsubmits
  have hwrite : ((write offset value).onCore core).toEngine = core.toEngine.write offset value := by
    change (core.write offset value).toEngine = _
    unfold Core.write
    rw [if_neg (by simpa [submits] using hsubmits)]
  by_cases haborts : (write offset value).aborts core = true
  · obtain ⟨⟨rfl, henabled⟩, hcleared⟩ :
        (offset = Register.control ∧ core.isEnabled = true) ∧
          value.hasAny Control.enable = false := by
      simpa [aborts] using haborts
    rw [core.toEngine.write_control_abort henabled hcleared] at hwrite
    refine .aborted haborts ?_ ?_ <;> rw [hwrite]
    · exact ⟨rfl, rfl, rfl, rfl⟩
    · rfl
  · obtain ⟨registers, irqStatus, history, hplain⟩ :=
      core.toEngine.write_plain hsubmits (by simpa [aborts] using haborts)
    rw [hplain] at hwrite
    refine .of_completing hsubmits (Bool.eq_false_iff.2 haborts) ?_ ?_ ?_ <;> rw [hwrite]
    exact .of_eq rfl rfl rfl

/-- There is no other way for an operation to come out. -/
theorem outcome (stimulus : Stimulus) : Outcome core stimulus := by
  cases stimulus with
  | write offset value => exact outcome_write core offset value
  | read offset =>
    by_cases hoffset : offset = Register.submit
    · have hread : (read offset).onCore core = core.look := by
        change (core.read offset).2 = _
        rw [Core.read, if_pos hoffset]
      rcases core.look_cases with heq | ⟨hpending, hengine⟩
      · exact .of_eq rfl rfl (hread ▸ heq)
      · exact .of_accepting (.inl hpending) rfl nofun (hread ▸ hengine)
    · refine .of_eq rfl rfl ?_
      change (core.read offset).2.toEngine = _
      rw [Core.read, if_neg hoffset]
  | accept =>
    by_cases hpending : core.submitPending = true
    · exact .of_accepting (.inl hpending) rfl nofun (core.accept_accepting hpending)
    · refine .of_eq rfl rfl ?_
      change core.accept.toEngine = _
      rw [Core.accept, if_neg hpending]
  | complete id => exact .of_completing rfl rfl rfl rfl (.complete _ id)
  | finish id =>
    by_cases hid : id ∈ core.outstanding
    · have hfinish : (finish id).onCore core = core.complete id := if_pos hid
      refine .of_completing rfl rfl ?_ ?_ ?_ <;> rw [hfinish]
      · rfl
      · rfl
      · exact .complete _ id
    · exact .of_eq rfl rfl (congrArg Core.toEngine (if_neg hid))
  | completeAll =>
    have hall : (completeAll.onCore core).toEngine = _ := core.toEngine_completeAll
    obtain ⟨done, irqStatus, outstanding, history, heq⟩ :=
      Engine.foldl_complete_eq core.outstanding core.toEngine
    refine .of_completing rfl rfl ?_ ?_ ?_ <;> rw [hall]
    · rw [heq]
    · rw [heq]
    · exact .foldl core.outstanding core.toEngine
  | submitPending on =>
    -- This may clear the bit, but it is no acceptance.
    refine .completed ?_ rfl (.inl rfl) (.of_eq rfl rfl rfl)
    cases on <;> simp [accepts, submits, onCore]
  | nextId raw =>
    refine .completed (accepts_eq_false ?_) rfl (.inr ⟨raw, rfl⟩) (.of_eq rfl rfl rfl)
    simp [submits, onCore]
  | setRegister => exact .of_completing rfl rfl rfl rfl (.of_eq rfl rfl rfl)
  | autoAccept | autoComplete | acceptAfter | clearWrites | store => exact .of_eq rfl rfl rfl

end Stimulus

/-- The books of an engine are in order. -/
structure Engine.InOrder (e : Engine) : Prop where
  undone : ∀ id ∈ e.outstanding, e.isDone id = false
  outstanding_lt : ∀ id ∈ e.outstanding, id < 32
  accepted_lt : ∀ transfer ∈ e.accepted, transfer.id < 32

variable {core : Core}

theorem Engine.InOrder.fresh : Core.fresh.InOrder := ⟨nofun, nofun, nofun⟩

/-- Every operation keeps the books in order. -/
theorem Engine.InOrder.onCore (h : core.InOrder) (stimulus : Stimulus) :
    (stimulus.onCore core).InOrder := by
  cases stimulus.outcome core with
  | accepted _ hengine =>
    refine ⟨fun id hmem => ?_, fun id hmem => ?_, fun transfer hmem => ?_⟩
    · -- The accepted id may have been outstanding before, so it is told apart first.
      by_cases hid : id = core.acceptId
      · subst hid
        exact hengine.undone hmem
      · have hold := (hengine.outstanding_of id hmem).resolve_left hid
        exact (hengine.isDone_of_ne id hid).trans (h.undone id hold)
    · rcases hengine.outstanding_of id hmem with rfl | hold
      · exact core.acceptId_lt
      · exact h.outstanding_lt id hold
    · rw [hengine.accepted_eq] at hmem
      rcases Array.mem_push.1 hmem with hold | rfl
      · exact h.accepted_lt transfer hold
      · exact core.acceptId_lt
  | aborted _ hidle haccepted =>
    have hnone : ∀ id, id ∉ (stimulus.onCore core).outstanding := by simp [hidle.outstanding_eq]
    refine ⟨fun id hmem => absurd hmem (hnone id), fun id hmem => absurd hmem (hnone id), ?_⟩
    rw [haccepted]
    exact h.accepted_lt
  | completed _ _ _ hengine =>
    refine ⟨fun id hmem => ?_, fun id hmem => ?_, ?_⟩
    · obtain ⟨hold, hdone⟩ := hengine.outstanding_of id hmem
      exact hdone.trans (h.undone id hold)
    · exact h.outstanding_lt id (hengine.outstanding_of id hmem).1
    · rw [hengine.accepted_eq]
      exact h.accepted_lt

/-- So they are in order after every run of operations. -/
theorem Engine.InOrder.undergo (h : core.InOrder) (stimuli : List Stimulus) :
    (core.undergo stimuli).InOrder := by
  induction stimuli generalizing core with
  | nil => exact h
  | cons stimulus stimuli ih => exact ih (h.onCore stimulus)

namespace Core

/-- An operation enters into the log what it accepts, and nothing else. -/
theorem accepted_onCore (stimulus : Stimulus) : (stimulus.onCore core).accepted.toList =
    core.accepted.toList ++ if stimulus.accepts core then [core.programmed] else [] := by
  cases stimulus.outcome core with
  | accepted haccepts hengine => rw [hengine.accepted_eq, if_pos haccepts, Array.toList_push]
  | aborted haborts _ haccepted =>
    have haccepts : stimulus.accepts core = false := by simp [Stimulus.accepts, haborts]
    rw [haccepted, haccepts]
    simp
  | completed haccepts _ _ hengine =>
    rw [hengine.accepted_eq, haccepts]
    simp

theorem accepted_undergo (stimuli : List Stimulus) :
    (core.undergo stimuli).accepted.toList = core.accepted.toList ++ core.intake stimuli := by
  induction stimuli generalizing core with
  | nil => simp [undergo, intake]
  | cons stimulus stimuli ih =>
    rw [intake, ← List.append_assoc, ← accepted_onCore]
    exact ih

/-- The next id is one that a transfer can have, once there was an acceptance or an abort. -/
theorem nextId_onCore_lt (stimulus : Stimulus)
    (h : stimulus.accepts core = true ∨ stimulus.aborts core = true) :
    (stimulus.onCore core).nextId.toNat < 31 := by
  cases stimulus.outcome core with
  | accepted _ hengine => exact hengine.nextId_lt
  | aborted _ hidle _ =>
    rw [hidle.nextId_eq]
    decide
  | completed haccepts haborts _ _ => simp [haccepts, haborts] at h

/-- It stays so until somebody overwrites it. -/
theorem nextId_undergo_lt (h : core.nextId.toNat < 31) (stimuli : List Stimulus)
    (hforced : ∀ raw, .nextId raw ∉ stimuli) : (core.undergo stimuli).nextId.toNat < 31 := by
  induction stimuli generalizing core with
  | nil => exact h
  | cons stimulus stimuli ih =>
    refine ih ?_ fun raw hmem => hforced raw (List.mem_cons_of_mem _ hmem)
    cases stimulus.outcome core with
    | accepted haccepts _ => exact nextId_onCore_lt stimulus (.inl haccepts)
    | aborted haborts _ _ => exact nextId_onCore_lt stimulus (.inr haborts)
    | completed _ _ hnextId _ =>
      rcases hnextId with heq | ⟨raw, rfl⟩
      · rwa [heq]
      · exact absurd List.mem_cons_self (hforced raw)

theorem completeAll_settles (h : core.InOrder) : core.completeAll.outstanding = [] ∧
    ∀ id ∈ core.outstanding, core.completeAll.isDone id = true := by
  rw [toEngine_completeAll]
  refine ⟨List.eq_nil_iff_forall_not_mem.2 fun id hmem => ?_, fun id hmem => ?_⟩
  · obtain ⟨hold, hnew⟩ := Engine.mem_outstanding_foldl.1 hmem
    exact hnew hold
  · simp [Engine.isDone_foldl (h.outstanding_lt id hmem), hmem]

theorem isDone_onCore (stimulus : Stimulus) {id : Nat} (hdone : core.isDone id = true)
    (hcleared : (stimulus.onCore core).isDone id = false) : stimulus.aborts core = true ∨
      stimulus.accepts core = true ∧ core.acceptId = id := by
  cases stimulus.outcome core with
  | accepted haccepts hengine =>
    refine .inr ⟨haccepts, ?_⟩
    by_contra hid
    rw [hengine.isDone_of_ne id (Ne.symm hid), hdone] at hcleared
    exact Bool.noConfusion hcleared
  | aborted haborts _ _ => exact .inl haborts
  | completed _ _ _ hengine =>
    rw [hengine.isDone_of id hdone] at hcleared
    exact Bool.noConfusion hcleared

/-- A core keeps its books in order, whatever is done to it and in whatever order. What is
outstanding is not marked done. The log only grows, by one transfer for each acceptance. Accepted
ids have five bits, and the id register shows an id that a transfer can have from an acceptance or
an abort on until it is overwritten. Completing everything leaves nothing outstanding and marks it
done. A done bit is cleared by an acceptance of its id or by an abort, and by nothing else. -/
theorem books_in_order (stimuli : List Stimulus) :
    let core := fresh.undergo stimuli
    (∀ id ∈ core.outstanding, core.isDone id = false) ∧
    (∀ later, (core.undergo later).accepted.toList =
      core.accepted.toList ++ core.intake later) ∧
    (∀ transfer ∈ core.accepted, transfer.id ≤ 31) ∧
    (∀ stimulus : Stimulus, stimulus.accepts core = true ∨ stimulus.aborts core = true →
      ∀ later, (∀ raw, .nextId raw ∉ later) →
        (((stimulus.onCore core).undergo later).read Register.transferId).1.toNat ≤ 30) ∧
    (core.completeAll.outstanding = [] ∧
      ∀ id ∈ core.outstanding, core.completeAll.isDone id = true) ∧
    ∀ (stimulus : Stimulus) (id : Nat), core.isDone id = true →
      (stimulus.onCore core).isDone id = false →
        stimulus.aborts core = true ∨ stimulus.accepts core = true ∧ core.acceptId = id := by
  intro core
  have hbooks : core.InOrder := Engine.InOrder.fresh.undergo stimuli
  refine ⟨hbooks.undone, accepted_undergo, ?_, ?_, completeAll_settles hbooks, ?_⟩
  · exact fun transfer hmem => Nat.le_of_lt_succ (hbooks.accepted_lt transfer hmem)
  · intro stimulus hstimulus later hlater
    exact Nat.le_of_lt_succ (nextId_undergo_lt (nextId_onCore_lt stimulus hstimulus) later hlater)
  · exact fun stimulus id => isDone_onCore stimulus

/-- An id was forced and is outstanding twice, and is completed once for both. When it is forced
again, its acceptance is what clears its done bit. -/
theorem books_in_order_forced :
    let queue : Stimulus := .write Register.submit submitBit
    let twice := fresh.undergo [.nextId 31, queue, .nextId 31, queue]
    let core := twice.undergo [.complete 31, .nextId 31]
    let next := queue.onCore core
    twice.outstanding = [31, 31] ∧ core.outstanding = [] ∧ core.isDone 31 = true ∧
      next.isDone 31 = false ∧ queue.accepts core = true ∧ core.acceptId = 31 ∧
      ((next.undergo [.completeAll]).read Register.transferId).1.toNat ≤ 30 := by
  intro queue twice core next
  obtain ⟨-, -, -, hnextId, -, hcleared⟩ :=
    books_in_order [.nextId 31, queue, .nextId 31, queue, .complete 31, .nextId 31]
  have hdone : core.isDone 31 = true := by decide
  have hundone : next.isDone 31 = false := by decide
  obtain ⟨haccepts, hid⟩ := (hcleared queue 31 hdone hundone).resolve_left (by decide)
  exact ⟨by decide, by decide, hdone, hundone, haccepts, hid,
    hnextId queue (.inl haccepts) [.completeAll] (by simp)⟩

end Core
end DmaController.Sim

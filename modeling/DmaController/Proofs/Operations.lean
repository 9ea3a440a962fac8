import DmaController.Driver.Start
import DmaController.Proofs.Leads

/-!
The operations keep to the protocol. Each statement says how an operation ends: what it answers, and
what its driver then knows. Operations that submit nothing keep the phase, and the others may lose
it only if the core was halted when they began.
-/
namespace DmaController

/-- Later knowledge that has lost nothing but the next id. -/
structure Known.Keeps (known later : Known) : Prop where
  phase_eq : later.phase = known.phase
  enabled_eq : later.enabled = known.enabled
  draft_eq : later.draft = known.draft
  clear_of : known.clear = true → later.clear = true

/-- Later knowledge that has lost nothing a submission rests on. -/
structure Known.Extends (known later : Known) : Prop extends Known.Keeps known later where
  next_of : known.clear = true → later.next = known.next

namespace Known

theorem Keeps.trans {a b c : Known} (hab : a.Keeps b) (hbc : b.Keeps c) : a.Keeps c where
  phase_eq := hbc.phase_eq.trans hab.phase_eq
  enabled_eq := hbc.enabled_eq.trans hab.enabled_eq
  draft_eq := hbc.draft_eq.trans hab.draft_eq
  clear_of h := hbc.clear_of (hab.clear_of h)

theorem Keeps.learn (known : Known) (newest : Option TransferId) (offset : Offset) (value : Word) :
    known.Keeps (known.learn newest offset value) where
  phase_eq := known.phase_learn ..
  enabled_eq := known.enabled_learn ..
  draft_eq := known.draft_learn ..
  clear_of := known.clear_learn newest offset value

theorem Extends.refl (known : Known) : known.Extends known := ⟨⟨rfl, rfl, rfl, id⟩, fun _ => rfl⟩

theorem Extends.trans {a b c : Known} (hab : a.Extends b) (hbc : b.Extends c) : a.Extends c where
  toKeeps := hab.toKeeps.trans hbc.toKeeps
  next_of h := (hbc.next_of (hab.clear_of h)).trans (hab.next_of h)

theorem Extends.learn (known : Known) (newest : Option TransferId) {offset : Offset} (value : Word)
    (h : offset ≠ Register.transferId) : known.Extends (known.learn newest offset value) where
  toKeeps := .learn known newest offset value
  next_of hclear := by
    unfold Known.learn
    split_ifs <;> simp_all

end Known

variable {σ : Type} {slots size : Nat}
variable {s : Scene σ slots size} {phase : Phase}

/-- No submission is on its way, and those that were made may have cost the phase. -/
structure Scene.Rests (phase : Phase) (s : Scene σ slots size) : Prop where
  draft_eq : s.known.draft = .none
  phase_eq : s.known.phase = phase ∨ s.known.phase = phase.submit

/-- A step that leaves the driver and the phase as they are. -/
structure Scene.Stays (s s' : Scene σ slots size) : Prop where
  driver_eq : s'.driver = s.driver
  draft_eq : s'.known.draft = .none
  phase_eq : s'.known.phase = s.known.phase

theorem Scene.Stays.trans {s' s'' : Scene σ slots size} (h : s.Stays s') (h' : s'.Stays s'') :
    s.Stays s'' where
  driver_eq := h'.driver_eq.trans h.driver_eq
  draft_eq := h'.draft_eq
  phase_eq := h'.phase_eq.trans h.phase_eq

theorem Scene.Stays.read [RegisterBus (World σ slots size)] (hdraft : s.known.draft = .none)
    (offset : Offset) : s.Stays (s.read offset) where
  driver_eq := rfl
  draft_eq := (Known.draft_learn ..).trans hdraft
  phase_eq := Known.phase_learn ..

theorem Scene.Stays.tell {s' : Scene σ slots size} [RegisterBus (World σ slots size)]
    (h : s.Stays s') (action : Action) : s.Stays (s'.tell action s'.driver s'.known) :=
  ⟨h.driver_eq, h.draft_eq, h.phase_eq⟩

theorem Scene.Rests.keeps {s' : Scene σ slots size} (h : s.Rests phase)
    (hkeeps : s.known.Keeps s'.known) : s'.Rests phase where
  draft_eq := hkeeps.draft_eq.trans h.draft_eq
  phase_eq := by rw [hkeeps.phase_eq]; exact h.phase_eq

theorem Scene.Rests.submit {s' : Scene σ slots size} (h : s.Rests phase)
    (hdraft : s'.known.draft = .none) (hphase : s'.known.phase = s.known.phase.submit) :
    s'.Rests phase where
  draft_eq := hdraft
  phase_eq := by
    rw [hphase]
    rcases h.phase_eq with h | h <;> simp [h, Phase.submit_submit]

theorem Driver.requestSize?_bounds {driver : Driver slots size} {bytes granted : Nat}
    (h : driver.requestSize? bytes = some granted) :
    granted ≤ driver.capacity ∧ (0 < driver.capacity → 0 < granted) := by
  unfold Driver.requestSize? at h
  split_ifs at h with hzero hlong <;> obtain rfl := Option.some.inj h
  · exact ⟨Nat.le_refl _, id⟩
  · exact ⟨Nat.not_lt.1 hlong, fun _ => Nat.pos_of_ne_zero hzero⟩

variable [HasSlots slots] [RegisterBus (World σ slots size)]
variable {free : World σ slots size → World σ slots size → Prop}

namespace Driver

theorem submitPending_leads (hdraft : s.known.draft = .none) :
    Leads free (onBus RegisterBlock.submitPending) (fun pending s' =>
      s'.driver = s.driver ∧ s.known.Extends s'.known ∧
        (pending = false → s'.known.clear = true) ∧
        s'.known.look = if pending then .pending s.driver.newest else .clear) s := by
  change Leads free (onBus (BusM.read Register.submit) >>= fun value =>
    pure (value.hasAny submitBit)) _ s
  have hne : Register.submit ≠ Register.transferId := by decide
  refine .bind (.read _ hdraft (.pure ⟨rfl, .learn _ _ _ hne, ?_, ?_⟩))
  · intro h
    simp [Scene.read, Known.learn, h]
  · simp [Scene.read, Known.learn]

theorem pendingSubmission_leads (hdraft : s.known.draft = .none) :
    Leads free pendingSubmission (fun pending s' =>
      s'.driver = s.driver ∧ s.known.Extends s'.known ∧
        ∀ bits, s'.known.look.settle bits = pending.elim bits bits.without) s := by
  unfold pendingSubmission
  refine .seq (submitPending_leads hdraft) ?_
  intro pending s₁  h'
  obtain ⟨hdriver, hknown, -, hlook⟩ := h'
  cases pending with
  | false =>
    refine .pure ⟨hdriver, hknown, fun bits => ?_⟩
    rw [hlook]
    rfl
  | true =>
    refine .bind (.get (.pure ⟨hdriver, hknown, fun bits => ?_⟩))
    rw [hlook, hdriver]
    cases s.driver.newest <;> rfl

theorem doneBits_leads (hdraft : s.known.draft = .none) :
    Leads free doneBits (fun bits s' => s'.driver = s.driver ∧ s.known.Extends s'.known ∧
      s'.known.done = s.known.look.settle bits) s := by
  have hne : Register.done ≠ Register.transferId := by decide
  exact .bind (.read _ hdraft (.pure ⟨rfl, .learn s.known s.driver.newest _ hne, rfl⟩))

theorem settledDone_leads (hdraft : s.known.draft = .none) :
    Leads free settledDone (fun bits s' =>
      s'.driver = s.driver ∧ s.known.Extends s'.known ∧ s'.known.done = bits) s := by
  unfold settledDone
  refine .seq (pendingSubmission_leads hdraft) ?_
  intro pending s₁ h'
  obtain ⟨hd₁, hk₁, hsettle⟩ := h'
  refine .seq (doneBits_leads (hk₁.draft_eq.trans hdraft)) ?_
  intro bits s₂ h'
  obtain ⟨hd₂, hk₂, hdone⟩ := h'
  have hbits := hdone.trans (hsettle bits)
  cases pending with
  | none => exact .pure ⟨hd₂.trans hd₁, hk₁.trans hk₂, hbits⟩
  | some id => exact .pure ⟨hd₂.trans hd₁, hk₁.trans hk₂, hbits⟩

theorem nextId?_leads (hdraft : s.known.draft = .none) :
    Leads free nextId? (fun id? s' =>
      s'.driver = s.driver ∧ s.known.Keeps s'.known ∧ s'.known.next = id?) s := by
  unfold nextId?
  refine .bind ?_
  change Leads free (onBus (BusM.read Register.transferId) >>= fun value =>
    pure (value &&& transferIdField)) _ s
  have hkeeps : s.known.Keeps (s.read Register.transferId).known :=
    .learn s.known s.driver.newest Register.transferId _
  have hnext : (s.read Register.transferId).known.next = TransferId.ofWord?
      ((RegisterBus.read Register.transferId s.port.world).1 &&& transferIdField) := by
    simp [Scene.read, Known.learn, Register.transferId, Register.submit, Register.done]
  refine .bind (.read _ hdraft (.pure ?_))
  dsimp only
  split_ifs
  · exact .bind (.log (.pure ⟨rfl, hkeeps, hnext⟩))
  · exact .pure ⟨rfl, hkeeps, hnext⟩

theorem reclaim_leads (hdraft : s.known.draft = .none) (id : TransferId) :
    Leads free (reclaim id) (fun freed s' =>
      s.known.Extends s'.known ∧
        (freed = true → (s'.driver.pool.slot id).isInFlight = false)) s := by
  unfold reclaim
  refine .bind (.get ?_)
  cases hslot : (s.driver.pool.slot id).transferId? with
  | none =>
    refine .pure ⟨.refl _, fun _ => ?_⟩
    simp [Slot.isInFlight, hslot]
  | some previous =>
    refine .seq (settledDone_leads hdraft) ?_
    intro bits s₁  h'
    obtain ⟨hdriver, hknown, hdone⟩ := h'
    split_ifs with hprev
    · rw [← hdriver] at hslot
      have hstep := Protocol.reclaim s₁.driver s₁.known id previous (by rw [hdone, hprev]) hslot
      let s₂ := s₁.tell (.reclaimed previous)
        (s₁.driver.withPool (s₁.driver.pool.release id)) s₁.known
      have hrest : Leads free (pure true) (fun freed s' => s.known.Extends s'.known ∧
          (freed = true → (s'.driver.pool.slot id).isInFlight = false)) s₂ :=
        .pure ⟨hknown, fun _ => congrArg Slot.isInFlight (Pool.slot_release_self s₁.driver.pool id)⟩
      have hreclaim : Step free s₁ s₂ := ⟨_, hstep, rfl, trivial⟩
      exact .via hreclaim rfl hrest
    · exact .pure ⟨hknown, by simp⟩

/-- The slot of the next id is free, so filling its buffer harms nobody. -/
theorem fill_leads {source : Producer (World σ slots size)} {id : TransferId}
    (hsource : ∀ world, free world (source.meanwhile world)) (hnext : s.known.next = some id)
    (hslot : (s.driver.pool.slot id).isInFlight = false) :
    Leads free (fill source id) (fun _ s' => s'.driver = s.driver ∧ s'.known = s.known) s := by
  unfold fill
  refine .bind (.get (.bind (.world (.bind (.remark trivial rfl ?_)))))
  exact .bind (.store hnext hslot hsource fun _ => .pure ⟨rfl, rfl⟩)

/-- The slot of the transfer goes to the hardware, and its registers are programmed. -/
theorem submit_leads {direction : Direction} {id : TransferId} {bytes : Nat}
    (hdraft : s.known.draft = .none) (hclear : s.known.clear = true)
    (hnext : s.known.next = some id)
    (hadmits : s.driver.Admits ⟨direction, id, bytes, s.driver.address id⟩) :
    Leads free (submit direction id bytes) (fun _ s' =>
      s'.driver = s.driver.submitted ⟨direction, id, bytes, s.driver.address id⟩ ∧
        s'.known.draft = .none ∧ s'.known.phase = s.known.phase.submit) s := by
  unfold submit
  let transfer : Transfer := ⟨direction, id, bytes, s.driver.address id⟩
  have hmark := Protocol.mark s.driver s.known transfer hclear hnext hdraft hadmits
  refine .bind (.get (.change hmark rfl trivial ?_))
  refine .bind (.write (.measure _ _ transfer rfl) ?_)
  cases direction with
  | inbound =>
    refine .bind (.write (.direct _ _ transfer rfl) ?_)
    exact .bind (.write (.queue _ _ transfer rfl) (.log ⟨rfl, rfl, rfl⟩))
  | outbound =>
    refine .bind (.write (.direct _ _ transfer rfl) ?_)
    exact .bind (.write (.queue _ _ transfer rfl) (.log ⟨rfl, rfl, rfl⟩))

/-- A slot that was found is free, and its id is the next one. -/
theorem claimSlot_leads (h : s.Rests phase) :
    Leads free claimSlot (fun answer s' => s'.Rests phase ∧
      ∀ id, answer = .ok id → s'.known.clear = true ∧ s'.known.next = some id ∧
        (s'.driver.pool.slot id).isInFlight = false) s := by
  unfold claimSlot
  refine .bind (.get ?_)
  split_ifs
  swap
  · exact .pure ⟨h, by simp⟩
  refine .seq (submitPending_leads h.draft_eq) ?_
  intro pending s₁ h'
  obtain ⟨-, hk₁, hclear, -⟩ := h'
  have h₁ := h.keeps hk₁.toKeeps
  split_ifs with hpending
  · exact .pure ⟨h₁, by simp⟩
  refine .seq (nextId?_leads h₁.draft_eq) ?_
  intro id? s₂ h'
  obtain ⟨-, hk₂, hnext⟩ := h'
  have h₂ := h₁.keeps hk₂
  have hclear₂ := hk₂.clear_of (hclear (by simpa using hpending))
  cases id? with
  | none => exact .pure ⟨h₂, by simp⟩
  | some id =>
    refine .seq (reclaim_leads h₂.draft_eq id) ?_
    intro freed s₃ h'
    obtain ⟨hk₃, hfree⟩ := h'
    have h₃ := h₂.keeps hk₃.toKeeps
    split_ifs with hfreed
    swap
    · exact .pure ⟨h₃, by simp⟩
    refine .pure ⟨h₃, ?_⟩
    intro other hother
    obtain rfl := Except.ok.inj hother
    exact ⟨hk₃.clear_of hclear₂, (hk₃.next_of hclear₂).trans hnext, hfree hfreed⟩

theorem send_leads {source : Producer (World σ slots size)}
    (hsource : ∀ world, free world (source.meanwhile world)) (h : s.Rests phase) :
    Leads free (send source) (fun _ s' => s'.Rests phase) s := by
  unfold send
  refine .seq (claimSlot_leads h) ?_
  intro answer s₁ h'
  obtain ⟨h₁, hclaimed⟩ := h'
  cases answer with
  | error cause => exact .pure h₁
  | ok id =>
    obtain ⟨hclear, hnext, hfree⟩ := hclaimed id rfl
    refine .seq (fill_leads hsource hnext hfree) ?_
    intro bytes s₂ h'
    obtain ⟨hd₂, hk₂⟩ := h'
    have h₂ : s₂.Rests phase := ⟨by rw [hk₂, h₁.draft_eq], by rw [hk₂]; exact h₁.phase_eq⟩
    refine .bind (.get ?_)
    split_ifs with hlong hzero
    · exact .pure h₂
    · exact .pure h₂
    have hadmits : s₂.driver.Admits ⟨.outbound, id, bytes, s₂.driver.address id⟩ :=
      ⟨by rw [hd₂]; exact hfree, Nat.not_lt.1 hlong, fun _ => Nat.pos_of_ne_zero hzero, rfl⟩
    refine .seq (submit_leads h₂.draft_eq ?_ ?_ hadmits) ?_
    · rw [hk₂, hclear]
    · rw [hk₂, hnext]
    · intro _ s₃ h'
      obtain ⟨-, hdraft, hphase⟩ := h'
      exact .pure (h₂.submit hdraft hphase)

theorem awaitAccepted_leads (limit : Nat) (h : s.Rests phase) :
    Leads free (awaitAccepted limit) (fun _ s' => s'.Rests phase) s := by
  induction limit generalizing s with
  | zero => exact .pure h
  | succ limit ih =>
    refine .seq (submitPending_leads h.draft_eq) ?_
    intro pending s₁  h'
    obtain ⟨-, hk₁, -, -⟩ := h'
    have h₁ := h.keeps hk₁.toKeeps
    split_ifs
    · exact ih h₁
    · exact .pure h₁

theorem sendAndWait_leads (limit : Nat) {source : Producer (World σ slots size)}
    (hsource : ∀ world, free world (source.meanwhile world)) (h : s.Rests phase) :
    Leads free (sendAndWait limit source) (fun _ s' => s'.Rests phase) s := by
  unfold sendAndWait
  refine .seq (send_leads hsource h) ?_
  intro answer s₁ h₁
  cases answer with
  | error cause => exact .pure h₁
  | ok id =>
    refine .seq (awaitAccepted_leads limit h₁) ?_
    intro accepted s₂ h₂
    split_ifs <;> exact .pure h₂

/-- A granted request leaves its slot in flight under its own id. -/
theorem request_leads (bytes : Nat) (hclear : s.known.clear = true) (h : s.Rests phase) :
    Leads free (request bytes) (fun answer s' => s'.Rests phase ∧
      ∀ id, answer = .ok id → (s'.driver.pool.slot id).transferId? = some id) s := by
  unfold request
  refine .bind (.get ?_)
  cases hsize : s.driver.requestSize? bytes with
  | none => exact .pure ⟨h, by simp⟩
  | some granted =>
    refine .seq (nextId?_leads h.draft_eq) ?_
    intro id? s₁  h'
    obtain ⟨hd₁, hk₁, hnext⟩ := h'
    have h₁ := h.keeps hk₁
    cases id? with
    | none => exact .pure ⟨h₁, by simp⟩
    | some id =>
      refine .bind (.get ?_)
      split_ifs with hbusy
      · exact .pure ⟨h₁, by simp⟩
      obtain ⟨hle, hpos⟩ := requestSize?_bounds hsize
      have hadmits : s₁.driver.Admits ⟨.inbound, id, granted, s₁.driver.address id⟩ := by
        refine ⟨by simpa using hbusy, ?_, ?_, rfl⟩
        · rw [hd₁]; exact hle
        · rw [hd₁]; exact hpos
      refine .seq (submit_leads h₁.draft_eq (hk₁.clear_of hclear) hnext hadmits) ?_
      intro _ s₂  h'
      obtain ⟨hd₂, hdraft, hphase⟩ := h'
      refine .pure ⟨h₁.submit hdraft hphase, ?_⟩
      intro _  h'
      obtain ⟨⟩ := h'
      rw [hd₂]
      simp [submitted, Pool.slot_submit_self, Slot.transferId?]

theorem requestUpTo_leads (bytes room : Nat) (h : s.Rests phase) :
    Leads free (requestUpTo bytes room) (fun _ s' => s'.Rests phase) s := by
  induction room generalizing s with
  | zero => exact .pure h
  | succ room ih =>
    refine .seq (submitPending_leads h.draft_eq) ?_
    intro pending s₁  h'
    obtain ⟨-, hk₁, hclear, -⟩ := h'
    have h₁ := h.keeps hk₁.toKeeps
    split_ifs with hpending
    · exact .pure h₁
    refine .seq (request_leads bytes (hclear (by simpa using hpending)) h₁) ?_
    intro answer s₂  h'
    obtain ⟨h₂, -⟩ := h'
    match answer with
    | .ok _ => exact .seq (ih h₂) fun _ _ h₃ => .pure h₃
    | .error .queueFull => exact .pure h₂
    | .error .notSupported | .error .bufferExceeded | .error .deviceError
    | .error .invalidLength => exact .bind (.log (.pure ⟨h₂.draft_eq, h₂.phase_eq⟩))

theorem refill_leads (bytes : Nat) (h : s.Rests phase) :
    Leads free (refill bytes) (fun _ s' => s'.Rests phase) s :=
  .bind (.get (requestUpTo_leads bytes _ h))

/-- Waiting changes nothing in the driver, and ends well only with the id's done bit. -/
theorem awaitDone_leads {pause : Nat → World σ slots size → World σ slots size}
    (hpause : ∀ length world, free world (pause length world)) (id : TransferId) (pauses : Nat)
    (hdraft : s.known.draft = .none) :
    Leads free (awaitDone pause id pauses) (fun done s' => s'.driver = s.driver ∧
      s.known.Extends s'.known ∧ (done = true → s'.known.done.isDone id = true)) s := by
  induction pauses generalizing s with
  | zero =>
    refine .seq (settledDone_leads hdraft) ?_
    intro bits s₁  h'
    obtain ⟨hd₁, hk₁, hdone⟩ := h'
    exact .pure ⟨hd₁, hk₁, fun h => hdone ▸ h⟩
  | succ pauses ih =>
    refine .seq (settledDone_leads hdraft) ?_
    intro bits s₁  h'
    obtain ⟨hd₁, hk₁, hdone⟩ := h'
    split_ifs with hid
    · exact .pure ⟨hd₁, hk₁, fun _ => hdone ▸ hid⟩
    refine .bind (.get (.bind (.remark trivial trivial (.bind (.alter (hpause _ _) ?_)))))
    refine (ih ?_).mono ?_
    · exact hk₁.draft_eq.trans hdraft
    · intro done s₂  h'
      obtain ⟨hd₂, hk₂, hdone₂⟩ := h'
      exact ⟨hd₂.trans hd₁, hk₁.trans hk₂, hdone₂⟩

section Consumer

variable {consume : Bytes → World σ slots size → World σ slots size}
variable (hconsume : ∀ data world, free world (consume data world))
include hconsume

theorem deliver_leads {id : TransferId} (hdone : s.known.done.isDone id = true)
    (hslot : (s.driver.pool.slot id).transferId? = some id) :
    Leads free (deliver consume id) (fun _ s' =>
      s'.driver = s.driver.withPool (s.driver.pool.release id) ∧ s'.known = s.known) s := by
  unfold deliver
  refine .bind (.get (.bind (.world ?_)))
  generalize hdata : s.port.world.memory.bytes _ _ = data
  let s₁ := s.tell (.delivered id data) (s.driver.withPool (s.driver.pool.release id)) s.known
  have hstep : Step free s s₁ := ⟨_, .deliver _ _ id data hdone hslot, rfl, hdata.symm⟩
  have hrest : Leads free (onBus (BusM.alter (consume data))) (fun _ s' =>
      s'.driver = s.driver.withPool (s.driver.pool.release id) ∧ s'.known = s.known) s₁ :=
    .alter (hconsume _ _) ⟨rfl, rfl⟩
  exact .via hstep rfl hrest

theorem receive_leads {pause : Nat → World σ slots size → World σ slots size}
    (hpause : ∀ length world, free world (pause length world)) (bytes : Nat) (h : s.Rests phase) :
    Leads free (receive bytes consume pause) (fun _ s' => s'.Rests phase) s := by
  unfold receive
  refine .bind (.get ?_)
  split_ifs
  swap
  · exact .pure h
  refine .seq (submitPending_leads h.draft_eq) ?_
  intro pending s₁  h'
  obtain ⟨-, hk₁, hclear, -⟩ := h'
  have h₁ := h.keeps hk₁.toKeeps
  split_ifs with hpending
  · exact .pure h₁
  refine .seq (request_leads bytes (hclear (by simpa using hpending)) h₁) ?_
  intro answer s₂  h'
  obtain ⟨h₂, hslot⟩ := h'
  cases answer with
  | error cause => exact .pure h₂
  | ok id =>
    refine .bind (.get (.seq (awaitDone_leads hpause id _ h₂.draft_eq) ?_))
    intro done s₃  h'
    obtain ⟨hd₃, hk₃, hdone⟩ := h'
    have h₃ := h₂.keeps hk₃.toKeeps
    split_ifs with hid
    · refine .bind (.get (.seq (deliver_leads hconsume (hdone hid) ?_) ?_))
      · rw [hd₃]
        exact hslot id rfl
      · intro _ s₄  h'
        obtain ⟨-, hk₄⟩ := h'
        exact .pure ⟨by rw [hk₄, h₃.draft_eq], by rw [hk₄]; exact h₃.phase_eq⟩
    · exact .bind (.log (.pure ⟨h₃.draft_eq, h₃.phase_eq⟩))

theorem drain_leads (id : TransferId) :
    Leads free (drain s.known.done consume id) (fun _ s' =>
      s'.known = s.known ∧ s'.driver.stream = s.driver.stream) s := by
  unfold drain
  refine .bind (.get ?_)
  split_ifs with hid
  · simp only [Bool.and_eq_true, beq_iff_eq] at hid
    refine .seq (deliver_leads hconsume hid.1 hid.2) ?_
    intro _ s₁  h'
    obtain ⟨hd₁, hk₁⟩ := h'
    exact .pure ⟨hk₁, by rw [hd₁]; rfl⟩
  · exact .pure ⟨rfl, rfl⟩

theorem drainAll_leads (ids : List TransferId) :
    Leads free (drainAll s.known.done consume ids) (fun _ s' =>
      s'.known = s.known ∧ s'.driver.stream = s.driver.stream) s := by
  induction ids generalizing s with
  | nil => exact .pure ⟨rfl, rfl⟩
  | cons id ids ih =>
    refine .seq (drain_leads hconsume id) ?_
    intro drained s₁  h'
    obtain ⟨hk₁, hstream⟩ := h'
    have hrest : Leads free (drainAll s.known.done consume ids) (fun _ s' =>
        s'.known = s.known ∧ s'.driver.stream = s.driver.stream) s₁ := by
      rw [← hk₁]
      exact ih.mono fun _ s₂ h₂ => ⟨h₂.1, h₂.2.trans hstream⟩
    split_ifs
    · exact .seq hrest fun _ _ h => .pure h
    · exact hrest

end Consumer

theorem advance_leads (drained : List TransferId) :
    Leads free (advance drained) (fun _ s' =>
      s'.known = s.known ∧ s'.driver.stream = s.driver.stream) s := by
  unfold advance
  cases drained.getLast? with
  | none => exact .pure ⟨rfl, rfl⟩
  | some last => exact .inward (.turn _ _ _) ⟨rfl, rfl⟩

theorem refillStream_leads (drained : Nat) (h : s.Rests phase) :
    Leads free (refillStream drained) (fun _ s' => s'.Rests phase ∧
      (s.driver.stream = none → s'.known = s.known)) s := by
  unfold refillStream
  refine .bind (.get ?_)
  cases hstream : s.driver.stream with
  | none => exact .pure ⟨h, fun _ => rfl⟩
  | some bytes =>
    refine .seq (refill_leads bytes h) ?_
    intro refilled s₁ h₁
    split_ifs
    · exact .log ⟨⟨h₁.draft_eq, h₁.phase_eq⟩, by simp⟩
    · exact .pure ⟨h₁, by simp⟩

/-- Without a stream a collection submits nothing. -/
theorem collect_leads {consume : Bytes → World σ slots size → World σ slots size}
    (hconsume : ∀ data world, free world (consume data world)) (h : s.Rests phase) :
    Leads free (collect consume) (fun _ s' => s'.Rests phase ∧
      (s.driver.stream = none → s'.known.phase = s.known.phase)) s := by
  unfold collect
  refine .seq (settledDone_leads h.draft_eq) ?_
  intro bits s₁  h'
  obtain ⟨hd₁, hk₁, rfl⟩ := h'
  refine .bind (.get (.seq (drainAll_leads hconsume _) ?_))
  intro drained s₂  h'
  obtain ⟨hk₂, hstream₂⟩ := h'
  refine .seq (advance_leads drained) ?_
  intro _ s₃  h'
  obtain ⟨hk₃, hstream₃⟩ := h'
  have hkeeps : s.known.Keeps s₃.known := by
    rw [hk₃, hk₂]
    exact hk₁.toKeeps
  refine .seq (refillStream_leads _ (h.keeps hkeeps)) ?_
  intro _ s₄  h'
  obtain ⟨h₄, hk₄⟩ := h'
  refine .pure ⟨h₄, fun hnone => ?_⟩
  rw [hk₄ (by rw [hstream₃, hstream₂, hd₁, hnone]), hkeeps.phase_eq]

section Control

variable (hdraft : s.known.draft = .none)
include hdraft

theorem read_leads {α : Type} (offset : Offset) (f : Word → α) :
    Leads free (onBus (do return f (← BusM.read offset))) (fun _ s' => s.Stays s') s := by
  change Leads free (onBus (BusM.read offset) >>= fun value => pure (f value)) _ s
  exact .bind (.read offset hdraft (.pure (.read hdraft offset)))

theorem enable_leads : Leads free enable (fun _ s' => s.Stays s' ∧ s'.known.enabled = true) s := by
  change Leads free (onBus (BusM.read Register.control) >>= fun value =>
    onBus (BusM.write Register.control (value ||| Control.enable))) _ s
  obtain ⟨-, hdraft', hphase⟩ := Scene.Stays.read hdraft Register.control
  refine .bind (.read _ hdraft (.write (.enable _ _ _ (Known.last_learn ..)) ?_))
  exact ⟨⟨rfl, hdraft', hphase⟩, rfl⟩

theorem disable_leads : Leads free disable (fun _ s' =>
    s'.driver = s.driver ∧ s'.known = { phase := s.known.phase.halt }) s := by
  change Leads free (onBus (BusM.read Register.control) >>= fun value =>
    onBus (BusM.write Register.control (value &&& ~~~ Control.enable))) _ s
  obtain ⟨-, hdraft', hphase⟩ := Scene.Stays.read hdraft Register.control
  refine .bind (.read _ hdraft (.write (.disable _ _ _ (Known.last_learn ..) hdraft') ⟨rfl, ?_⟩))
  rw [← hphase]
  rfl

theorem pause_leads : Leads free pause (fun _ s' => s.Stays s') s := by
  change Leads free (onBus (BusM.read Register.control) >>= fun value =>
    onBus (BusM.write Register.control (value ||| Control.pause))) _ s
  obtain ⟨-, hdraft', hphase⟩ := Scene.Stays.read hdraft Register.control
  exact .bind (.read _ hdraft (.write (.pause _ _ _ (Known.last_learn ..)) ⟨rfl, hdraft', hphase⟩))

theorem resume_leads : Leads free resume (fun _ s' => s.Stays s') s := by
  change Leads free (onBus (BusM.read Register.control) >>= fun value =>
    onBus (BusM.write Register.control (value &&& ~~~ Control.pause))) _ s
  obtain ⟨-, hdraft', hphase⟩ := Scene.Stays.read hdraft Register.control
  exact .bind (.read _ hdraft (.write (.resume _ _ _ (Known.last_learn ..)) ⟨rfl, hdraft', hphase⟩))

theorem disableIrq_leads : Leads free disableIrq (fun _ s' => s.Stays s') s :=
  .write (.irq _ _ _ _ (.inl rfl)) ⟨rfl, hdraft, rfl⟩

theorem enableIrq_leads : Leads free enableIrq (fun _ s' => s.Stays s') s :=
  .bind (.write (.irq _ _ _ _ (.inr rfl)) (.write (.irq _ _ _ _ (.inl rfl)) ⟨rfl, hdraft, rfl⟩))

theorem claimCompletion_leads : Leads free claimCompletion (fun _ s' => s.Stays s') s := by
  unfold claimCompletion irqFlags
  refine .bind (.bind (.read Register.irqStatus hdraft (.pure ?_)))
  obtain ⟨hdriver, hdraft', hphase⟩ := Scene.Stays.read hdraft Register.irqStatus
  split_ifs
  · exact .bind (.write (.irq _ _ _ _ (.inr rfl)) (.pure ⟨hdriver, hdraft', hphase⟩))
  · exact .pure ⟨hdriver, hdraft', hphase⟩

/-- A restart passes through a halt; whatever was in flight is taken back at its end. -/
theorem restart_leads : Leads free restart (fun _ s' =>
    s'.driver = s.driver.restarted ∧ s'.known.draft = .none ∧
      s'.known.phase = s.known.phase.restart) s := by
  unfold restart
  refine .seq (disable_leads hdraft) ?_
  intro _ s₁  h'
  obtain ⟨hd₁, hk₁⟩ := h'
  refine .seq (enable_leads (by rw [hk₁])) ?_
  intro _ s₂  h'
  obtain ⟨⟨hd₂, hdraft₂, hphase₂⟩, henabled⟩ := h'
  have hphase : s₂.known.phase = s.known.phase.halt := by rw [hphase₂, hk₁]
  have hnot : s₂.known.phase ≠ .running := by
    rw [hphase]
    cases s.known.phase <;> simp [Phase.halt]
  have hrestart : s₂.known.phase.restart = s.known.phase.restart := by
    rw [hphase]
    cases s.known.phase <;> rfl
  have hdriver : s₂.driver = s.driver := hd₂.trans hd₁
  let s₃ := s₂.tell (.released s₂.driver.inFlight) s₂.driver.restarted
    { s₂.known with phase := s₂.known.phase.restart, look := .unknown, done := .none }
  have hstep : Step free s₂ s₃ := ⟨_, .restart _ _ henabled hnot hdraft₂, rfl, trivial⟩
  have hrest : Leads free (pure ()) (fun _ s' => s'.driver = s.driver.restarted ∧
      s'.known.draft = .none ∧ s'.known.phase = s.known.phase.restart) s₃ :=
    .pure ⟨by rw [← hdriver]; rfl, hdraft₂, hrestart⟩
  exact .bind (.get (.via hstep rfl hrest))

theorem reset_leads : Leads free reset (fun _ s' =>
    s'.known.draft = .none ∧ s'.known.phase = s.known.phase.restart) s := by
  refine .seq (restart_leads hdraft) ?_
  intro _ s₁  h'
  obtain ⟨-, hdraft₁, hphase⟩ := h'
  exact .inward (.stream _ _ _) ⟨hdraft₁, hphase⟩

theorem close_leads : Leads free close (fun _ s' =>
    s'.known = { phase := s.known.phase.halt }) s := by
  refine .seq (disableIrq_leads hdraft) ?_
  intro _ s₁  h'
  obtain ⟨hd₁, hdraft₁, hphase₁⟩ := h'
  refine (disable_leads hdraft₁).mono ?_
  intro _ s₂  h'
  obtain ⟨-, hk₂⟩ := h'
  rw [hk₂, hphase₁]

end Control

/-- Whether `startStream` would restart the core. -/
def acceptsStream (driver : Driver slots size) (bytes : Nat) : Bool :=
  driver.directions.inbound && (driver.requestSize? bytes).isSome

theorem startStream_leads (bytes : Nat) (hdraft : s.known.draft = .none) :
    Leads free (startStream bytes) (fun _ s' => s'.known.draft = .none ∧ s'.known.phase =
      if s.driver.acceptsStream bytes then s.known.phase.restart else s.known.phase) s := by
  unfold startStream acceptsStream
  refine .bind (.get ?_)
  cases s.driver.directions.inbound with
  | false => exact .pure ⟨hdraft, rfl⟩
  | true =>
    refine .bind (.get ?_)
    cases s.driver.requestSize? bytes with
    | none => exact .pure ⟨hdraft, rfl⟩
    | some granted =>
      refine .seq (restart_leads hdraft) ?_
      intro _ s₁  h'
      obtain ⟨-, hdraft₁, hphase₁⟩ := h'
      refine .bind (.inward (.stream _ _ (some granted)) (.seq (enableIrq_leads ?_) ?_))
      · exact hdraft₁
      intro _ s₂  h'
      obtain ⟨-, hdraft₂, hphase₂⟩ := h'
      have h₂ : s₂.Rests s.known.phase.restart := ⟨hdraft₂, .inl (hphase₂.trans hphase₁)⟩
      refine .seq (refill_leads granted h₂) ?_
      intro queued s₃ h₃
      refine .bind (.log (.pure ⟨h₃.draft_eq, ?_⟩))
      rcases h₃.phase_eq with hphase₃ | hphase₃
      · exact hphase₃
      · exact hphase₃.trans s.known.phase.submit_restart

section Line

variable [InterruptLine (World σ slots size)]
variable (hline : ∀ world : World σ slots size, free world (InterruptLine.acknowledge world))
include hline

theorem acknowledge_leads {Q : Unit → Scene σ slots size → Prop}
    (h : ∀ port, Q () { s with port }) : Leads free acknowledge Q s :=
  .alter (hline _) (h _)

theorem serviceInterrupt_leads {consume : Bytes → World σ slots size → World σ slots size}
    (hconsume : ∀ data world, free world (consume data world)) (h : s.Rests phase) :
    Leads free (serviceInterrupt consume) (fun _ s' => s'.Rests phase ∧
      (s.driver.stream = none → s'.known.phase = s.known.phase)) s := by
  unfold serviceInterrupt onCompletion
  refine .bind (.seq (claimCompletion_leads h.draft_eq) ?_)
  intro claimed s₁  h'
  obtain ⟨hd₁, hdraft₁, hphase₁⟩ := h'
  have h₁ : s₁.Rests phase := ⟨hdraft₁, by rw [hphase₁]; exact h.phase_eq⟩
  split_ifs
  · refine .seq (collect_leads hconsume h₁) ?_
    intro collected s₂  h'
    obtain ⟨h₂, hphase₂⟩ := h'
    refine .pure (.bind (acknowledge_leads hline fun _ => .pure ⟨⟨h₂.draft_eq, h₂.phase_eq⟩, ?_⟩))
    intro hnone
    exact (hphase₂ (by rw [hd₁, hnone])).trans hphase₁
  · exact .pure (.bind (acknowledge_leads hline fun _ =>
      .pure ⟨⟨h₁.draft_eq, h₁.phase_eq⟩, fun _ => hphase₁⟩))

end Line

section Start

theorem findDirections_leads (version : Version) (hdraft : s.known.draft = .none) :
    Leads free (onBus (findDirections version)) (fun _ s' => s.Stays s') s := by
  obtain ⟨hdriver, hdraft', hphase⟩ := Scene.Stays.read hdraft Register.interface
  unfold findDirections
  split_ifs
  · exact .lift (.read Register.interface hdraft (.lift (.log (.pure ⟨hdriver, hdraft', hphase⟩))))
  · exact .lift (.log (.pure ⟨rfl, hdraft, rfl⟩))

theorem sizePool_leads (config : Config) (pool : Pool slots size)
    (hdraft : s.known.draft = .none) : Leads free (onBus (sizePool config pool)) (fun sized s' =>
      s.Stays s' ∧ sized = pool.resize config.maxTransfer) s := by
  unfold sizePool
  cases Pool.resizeWarning size config.maxTransfer with
  | none => exact .pure ⟨⟨rfl, hdraft, rfl⟩, rfl⟩
  | some warning => exact .lift (.log (.pure ⟨⟨rfl, hdraft, rfl⟩, rfl⟩))

/-- Starting a driver leaves the one at work as it is; only the started one is enabled. -/
theorem start_leads (config : Config) (pool : Pool slots size) (hdraft : s.known.draft = .none) :
    Leads free (onBus (start config pool)) (fun answer s' => s.Stays s' ∧
      ∀ driver, answer = .ok driver → s'.known.enabled = true ∧ driver.Fresh) s := by
  unfold start
  have h₁ := Scene.Stays.read hdraft Register.identification
  refine .lift (.read Register.identification hdraft ?_)
  split_ifs
  · exact .lift (.log (.pure ⟨h₁.tell _, by simp⟩))
  have h₂ := h₁.trans (.read h₁.draft_eq Register.version)
  refine .lift (.read Register.version h₁.draft_eq ?_)
  have h₃ := h₂.trans (.read h₂.draft_eq Register.peripheralId)
  refine .lift (.read Register.peripheralId h₂.draft_eq (.lift (.log (.lift ?_))))
  refine (findDirections_leads _ (h₃.tell _).draft_eq).mono fun directions s₄ h => ?_
  have h₄ := (h₃.tell _).trans h
  split_ifs
  · exact .lift (.log (.pure ⟨h₄.tell _, by simp⟩))
  · exact .lift (.log (.pure ⟨h₄.tell _, by simp⟩))
  refine .lift ((sizePool_leads config pool h₄.draft_eq).mono ?_)
  intro sized s₅  h'
  obtain ⟨h, rfl⟩ := h'
  have h₅ := h₄.trans h
  split_ifs with hzero
  · exact .lift (.log (.pure ⟨h₅.tell _, by simp⟩))
  have h₆ := h₅.trans (.read h₅.draft_eq Register.flags)
  refine .lift (.lift (.read _ h₅.draft_eq (.write (.acyclic _ _ _ (Known.last_learn ..)) ?_)))
  refine .lift (.mono (enable_leads ?_) ?_)
  · exact h₆.draft_eq
  intro _ s₇ h
  obtain ⟨h₇, henabled⟩ := h
  refine .pure ⟨h₆.trans ⟨h₇.driver_eq, h₇.draft_eq, h₇.phase_eq⟩, ?_⟩
  intro driver h
  obtain rfl := Except.ok.inj h
  exact ⟨henabled, rfl, Nat.pos_of_ne_zero hzero, Nat.min_le_right _ _, rfl, rfl⟩

theorem start_fresh {config : Config} {pool : Pool slots size} {driver : Driver slots size}
    {port port' : Port (World σ slots size)}
    (h : (start config pool).run port = (.ok driver, port')) : driver.Fresh := by
  have hleads : Leads (fun _ _ => True) (onBus (start config pool)) _ ⟨driver, {}, port⟩ :=
    start_leads config pool rfl
  obtain ⟨known, -, -, hstarted⟩ := hleads
  rw [outcome_onBus, h] at hstarted
  exact (hstarted driver rfl).2

end Start

end Driver
end DmaController

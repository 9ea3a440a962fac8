import DmaController.Proofs.Conservation
import DmaController.Proofs.Permanence

/-!
The refill loop, round by round. Its condition looks at the device alone, and the registers may show
anything at all, so the device may never tell it to stop. What ends it is the pool: a round that
queues a transfer takes a free slot. Main statements: the loop has one run from every driver and
every port, a refill ends as that run does and never uses its budget up; and how many rounds it
makes, what they do, and what the last one has met.
-/
namespace DmaController

variable {σ : Type} {slots size : Nat}

namespace Action

/-- The value that a read of this register has shown. -/
def shown? (offset : Offset) : Action → Option Word
  | read other value => if other = offset then some value else none
  | _ => none

end Action

/-- What the last read of a register has shown. -/
def lastShown (offset : Offset) (actions : List Action) : Option Word :=
  (actions.filterMap (Action.shown? offset)).getLast?

section LastShown

variable {offset : Offset} {value : Word} {actions : List Action}

theorem lastShown_read (offset : Offset) (value : Word) :
    lastShown offset [.read offset value] = some value := by simp [lastShown, Action.shown?]

theorem lastShown_prepend (earlier : List Action) (h : lastShown offset actions = some value) :
    lastShown offset (earlier ++ actions) = some value := by
  unfold lastShown at h ⊢
  rw [List.filterMap_append, List.getLast?_append, h]
  rfl

theorem lastShown_remark (entry : LogEntry) (h : lastShown offset actions = some value) :
    lastShown offset (actions ++ [.log entry]) = some value := by
  unfold lastShown at h ⊢
  rw [List.filterMap_append]
  exact (congrArg List.getLast? (List.append_nil _)).trans h

end LastShown

theorem Passive.queued_eq {actions : List Action} (h : Passive actions) :
    actions.countP Action.isQueue = 0 := by
  refine List.countP_eq_zero.2 fun action hmem => ?_
  rw [(h action hmem).isIdle.isQueue_eq]
  exact Bool.false_ne_true

/-- The id field shows an id or 31. -/
theorem TransferId.ofWord?_eq_none {value : Word}
    (h : TransferId.ofWord? (value &&& transferIdField) = none) :
    value &&& transferIdField = 31 := by
  have hlt : ¬ (value &&& transferIdField).toNat < transferIdCount := by
    intro hlt
    rw [TransferId.ofWord?, dif_pos hlt] at h
    cases h
  have hle : (value &&& transferIdField).toNat ≤ 31 := by
    rw [BitVec.toNat_and]
    exact Nat.and_le_right
  have heq : (value &&& transferIdField).toNat = 31 := Nat.le_antisymm hle (Nat.not_lt.1 hlt)
  exact BitVec.eq_of_toNat_eq heq

namespace Pool

theorem freeCount_add_inFlight (pool : Pool slots size) :
    pool.freeCount + pool.inFlight = slots := by
  have hsplit : slots = pool.slots.countP Slot.isInFlight +
      pool.slots.countP (fun slot => decide ¬slot.isInFlight = true) :=
    Vector.size_eq_countP_add_countP
  have hfree : pool.freeCount = pool.slots.countP (fun slot => decide ¬slot.isInFlight = true) :=
    Vector.countP_congr fun slot _ => by simp
  rw [hfree, Nat.add_comm]
  exact hsplit.symm

end Pool

variable [HasSlots slots]

/-- Why no round of a refill has followed, as its last reads and the pool that it leaves tell. -/
inductive Stopped (bytes : Nat) (d : Driver slots size) (actions : List Action) : Prop
  | pending {value : Word} (hread : lastShown Register.submit actions = some value)
      (hset : value.hasAny submitBit = true)
  | unnumbered {value : Word} (hread : lastShown Register.transferId actions = some value)
      (hid : value &&& transferIdField = 31)
  | occupied {value : Word} {id : TransferId}
      (hread : lastShown Register.transferId actions = some value)
      (hid : (value &&& transferIdField).toNat = id.val)
      (hslot : (d.pool.slot id).isInFlight = true)
  | oversized (hbytes : d.capacity < bytes)

namespace Stopped

variable {bytes : Nat} {d : Driver slots size} {actions : List Action}

theorem prepend (earlier : List Action) (h : Stopped bytes d actions) :
    Stopped bytes d (earlier ++ actions) := by
  cases h with
  | pending hread hset => exact .pending (lastShown_prepend earlier hread) hset
  | unnumbered hread hid => exact .unnumbered (lastShown_prepend earlier hread) hid
  | occupied hread hid hslot => exact .occupied (lastShown_prepend earlier hread) hid hslot
  | oversized hbytes => exact .oversized hbytes

theorem remark (entry : LogEntry) (h : Stopped bytes d actions) :
    Stopped bytes d (actions ++ [.log entry]) := by
  cases h with
  | pending hread hset => exact .pending (lastShown_remark entry hread) hset
  | unnumbered hread hid => exact .unnumbered (lastShown_remark entry hread) hid
  | occupied hread hid hslot => exact .occupied (lastShown_remark entry hread) hid hslot
  | oversized hbytes => exact .oversized hbytes

end Stopped

/-- One transfer was queued into a free slot, after some looks. -/
inductive Granted (bytes : Nat) (driver : Driver slots size) :
    Driver slots size → List Action → Prop
  | queued {transfer : Transfer} {looked : List Action} (entry : LogEntry)
      (hsize : driver.requestSize? bytes = some transfer.length)
      (hfree : (driver.pool.slot transfer.id).isInFlight = false) (hlooked : Passive looked) :
      Granted bytes driver (driver.submitted transfer)
        (looked ++ (transfer.handover ++ [.log entry]))

/-- What so many rounds have done that queued a transfer each, and a last one that did not. -/
structure Refilled (bytes : Nat) (driver : Driver slots size) (count : Nat)
    (d : Driver slots size) (actions : List Action) : Prop where
  count_le : count ≤ driver.pool.freeCount
  inFlight_eq : d.inFlight = driver.inFlight + count
  queued_eq : actions.countP Action.isQueue = count
  slotAt_eq : ∀ i : Fin slots, (driver.pool.slotAt i).isInFlight = true →
    d.pool.slotAt i = driver.pool.slotAt i
  stopped : Stopped bytes d actions

section Books

variable {bytes count : Nat} {driver d d' : Driver slots size} {actions later : List Action}

namespace Granted

theorem prepend {looked : List Action} (hlooked : Passive looked)
    (h : Granted bytes driver d actions) : Granted bytes driver d (looked ++ actions) := by
  obtain ⟨entry, hsize, hfree, hpassive⟩ := h
  rw [← List.append_assoc]
  exact .queued entry hsize hfree (hlooked.append hpassive)

theorem inFlight_eq (h : Granted bytes driver d actions) : d.inFlight = driver.inFlight + 1 := by
  obtain ⟨entry, hsize, hfree, hpassive⟩ := h
  exact Pool.inFlight_submit hfree _

theorem freeCount_eq (h : Granted bytes driver d actions) :
    d.pool.freeCount + 1 = driver.pool.freeCount := by
  have hbefore := driver.pool.freeCount_add_inFlight
  have hafter := d.pool.freeCount_add_inFlight
  have hone : d.pool.inFlight = driver.pool.inFlight + 1 := h.inFlight_eq
  omega

theorem queued_eq (h : Granted bytes driver d actions) : actions.countP Action.isQueue = 1 := by
  obtain @⟨transfer, looked, entry, hsize, hfree, hpassive⟩ := h
  rw [List.countP_append, hpassive.queued_eq, Nat.zero_add]
  obtain ⟨direction, id, length, address⟩ := transfer
  cases direction <;> rfl

theorem slotAt_eq (h : Granted bytes driver d actions) {i : Fin slots}
    (hi : (driver.pool.slotAt i).isInFlight = true) :
    d.pool.slotAt i = driver.pool.slotAt i := by
  obtain @⟨transfer, looked, entry, hsize, hfree, hpassive⟩ := h
  refine (driver.pool.slotAt_submit transfer.id transfer.length i).trans (if_neg ?_)
  rintro rfl
  cases hi.symm.trans hfree

end Granted

namespace Refilled

theorem stop (h : Untouched driver d actions) (hstopped : Stopped bytes driver actions) :
    Refilled bytes driver 0 d actions := by
  obtain ⟨rfl, hpassive⟩ := h
  exact ⟨Nat.zero_le _, rfl, hpassive.queued_eq, fun _ _ => rfl, hstopped⟩

theorem more (h : Granted bytes driver d actions) (hlater : Refilled bytes d count d' later) :
    Refilled bytes driver (count + 1) d' (actions ++ later) where
  count_le := by
    have hfree := h.freeCount_eq
    have hle := hlater.count_le
    omega
  inFlight_eq := by
    rw [hlater.inFlight_eq, h.inFlight_eq]
    omega
  queued_eq := by
    rw [List.countP_append, h.queued_eq, hlater.queued_eq]
    omega
  slotAt_eq i hi := by
    have hkept := h.slotAt_eq hi
    exact (hlater.slotAt_eq i (by rw [hkept, hi])).trans hkept
  stopped := hlater.stopped.prepend actions

end Refilled
end Books

namespace Driver

variable [RegisterBus (World σ slots size)] {driver : Driver slots size} {bytes : Nat}

omit [HasSlots slots] in
theorem submitPending_enters :
    Enters (onBus RegisterBlock.submitPending : DriverM σ slots size Bool) (fun pending d actions =>
      d = driver ∧ ∃ value, pending = value.hasAny submitBit ∧
        actions = [.read Register.submit value]) driver :=
  .lift (.read fun value => .pure ⟨rfl, value, rfl, rfl⟩)

omit [HasSlots slots] in
/-- The answer is made of the last read of the id register. -/
theorem nextId?_enters :
    Enters (nextId? : DriverM σ slots size _) (fun id? d actions =>
      Untouched driver d actions ∧ ∃ value, lastShown Register.transferId actions = some value ∧
        TransferId.ofWord? (value &&& transferIdField) = id?) driver := by
  have hread : Enters (onBus RegisterBlock.nextId : DriverM σ slots size Word)
      (fun raw d actions => d = driver ∧ ∃ value, raw = value &&& transferIdField ∧
        actions = [.read Register.transferId value]) driver :=
    .lift (.read fun value => .pure ⟨rfl, value, rfl, rfl⟩)
  refine .seq hread ?_
  intro raw d actions h
  obtain ⟨rfl, value, rfl, rfl⟩ := h
  have hlooked : Passive [.read Register.transferId value] := .single trivial
  have hshown := lastShown_read Register.transferId value
  dsimp only
  split_ifs
  · refine .bind (.log (.pure ⟨⟨rfl, ?_⟩, value, ?_, rfl⟩))
    · exact hlooked.append (.single trivial)
    · exact lastShown_remark _ hshown
  · exact .pure ⟨⟨rfl, hlooked⟩, value, hshown, rfl⟩

/-- A request queues a transfer, or there is a reason for which a refill stops. -/
theorem request_grants (bytes : Nat) :
    Enters (request bytes : DriverM σ slots size (Except TransferError TransferId))
      (fun answer d actions => (∀ id, answer = .ok id → Granted bytes driver d actions) ∧
        ∀ cause, answer = .error cause → Untouched driver d actions ∧ Stopped bytes driver actions)
      driver := by
  unfold request
  refine .get ?_
  cases hsize : driver.requestSize? bytes with
  | none =>
    have hlong : driver.capacity < bytes := requestSize?_eq_none_iff.1 hsize
    exact .pure ⟨by simp, fun _ _ => ⟨.nil driver, .oversized hlong⟩⟩
  | some granted =>
    refine .seq nextId?_enters ?_
    intro id? d looked h
    obtain ⟨⟨rfl, hlooked⟩, value, hread, hid⟩ := h
    cases id? with
    | none =>
      refine .pure ⟨by simp, fun _ _ => ?_⟩
      rw [List.append_nil]
      exact ⟨⟨rfl, hlooked⟩, .unnumbered hread (TransferId.ofWord?_eq_none hid)⟩
    | some id =>
      refine .get ?_
      split_ifs with hbusy
      · refine .pure ⟨by simp, fun _ _ => ?_⟩
        rw [List.append_nil]
        exact ⟨⟨rfl, hlooked⟩, .occupied hread (TransferId.ofWord?_eq_some_iff.1 hid) hbusy⟩
      · refine .seq (submit_enters _ _ _) ?_
        intro _ d' actions h
        obtain ⟨rfl, rfl⟩ := h
        refine .pure ⟨fun _ _ => ?_, by simp⟩
        exact .queued (.queued .inbound id granted) hsize (by simpa using hbusy) hlooked

/-- One round of a refill; whether it queued a transfer. -/
def refillRound (bytes : Nat) : DriverM σ slots size Bool := do
  if ← onBus RegisterBlock.submitPending then return false
  match ← request bytes with
  | .ok _ => return true
  | .error .queueFull => return false
  | .error cause =>
    log (.refillStopped cause)
    return false

theorem refillRound_enters (bytes : Nat) :
    Enters (refillRound bytes : DriverM σ slots size Bool) (fun more d actions =>
      if more then Granted bytes driver d actions
      else Untouched driver d actions ∧ Stopped bytes driver actions) driver := by
  unfold refillRound
  refine .seq submitPending_enters ?_
  intro pending d actions h
  obtain ⟨rfl, value, rfl, rfl⟩ := h
  have hlooked : Passive [.read Register.submit value] := .single trivial
  split_ifs with hset
  · exact .pure ⟨⟨rfl, hlooked⟩, .pending (lastShown_read _ value) hset⟩
  refine .seq (request_grants bytes) ?_
  intro answer d' actions h
  obtain ⟨hgranted, hrefused⟩ := h
  cases answer with
  | ok id =>
    refine .pure ?_
    rw [List.append_nil]
    exact (hgranted id rfl).prepend hlooked
  | error cause =>
    obtain ⟨huntouched, hstopped⟩ := hrefused cause rfl
    obtain ⟨rfl, hpassive⟩ := huntouched
    cases cause with
    | queueFull =>
      refine .pure ?_
      rw [List.append_nil]
      exact ⟨⟨rfl, hlooked.append hpassive⟩, hstopped.prepend _⟩
    | _ =>
      refine .bind (.log (.pure ⟨⟨rfl, ?_⟩, ?_⟩))
      · exact hlooked.append (hpassive.append (.single trivial))
      · exact (hstopped.remark _).prepend _

/-- The refill loop without a budget: rounds follow each other while they queue transfers, and it
ends with their number. -/
inductive Rounds (bytes : Nat) : Driver slots size → Port (World σ slots size) →
    (Nat × Driver slots size) × Port (World σ slots size) → Prop
  | stop {driver d : Driver slots size} {port port' : Port (World σ slots size)}
      (h : (refillRound bytes).outcome driver port = ((false, d), port')) :
      Rounds bytes driver port ((0, d), port')
  | more {driver d d' : Driver slots size} {port port' port'' : Port (World σ slots size)}
      {count : Nat} (h : (refillRound bytes).outcome driver port = ((true, d), port'))
      (hlater : Rounds bytes d port' ((count, d'), port'')) :
      Rounds bytes driver port ((count + 1, d'), port'')

theorem requestUpTo_succ (bytes room : Nat) :
    (requestUpTo bytes (room + 1) : DriverM σ slots size Nat) = (do
      if ← refillRound bytes then return (← requestUpTo bytes room) + 1 else return 0) := by
  unfold refillRound
  rw [requestUpTo, bind_assoc]
  refine congrArg _ (funext fun pending => ?_)
  split_ifs
  · rw [pure_bind]
    rfl
  · rw [bind_assoc]
    refine congrArg _ (funext fun answer => ?_)
    cases answer with
    | ok id => rw [pure_bind]; rfl
    | error cause => cases cause <;> rfl

namespace Rounds

variable {port : Port (World σ slots size)}
variable {ran ran' : (Nat × Driver slots size) × Port (World σ slots size)}

/-- A round ends in one way only, so the loop does. -/
theorem unique (h : Rounds bytes driver port ran) (h' : Rounds bytes driver port ran') :
    ran = ran' := by
  induction h generalizing ran' with
  | stop h =>
    cases h' with
    | stop h' => cases h.symm.trans h'; rfl
    | more h' => cases h.symm.trans h'
  | more h _ ih =>
    cases h' with
    | stop h' => cases h.symm.trans h'
    | more h' hlater' =>
      cases h.symm.trans h'
      cases ih hlater'
      rfl

/-- While there is room for more rounds than there are free slots, the budget is not used up. -/
theorem of_room {room : Nat} (hroom : driver.pool.freeCount < room) :
    Rounds bytes driver port ((requestUpTo bytes room).outcome driver port) := by
  -- A round that takes from the budget takes a free slot too, so `hroom` is kept.
  induction room generalizing driver port with
  | zero => exact absurd hroom (Nat.not_lt_zero _)
  | succ room ih =>
    obtain ⟨actions, -, hround⟩ := refillRound_enters bytes port
    obtain ⟨⟨⟨more, d⟩, port'⟩, hran⟩ : ∃ ran, (refillRound bytes).outcome driver port = ran :=
      ⟨_, rfl⟩
    rw [requestUpTo_succ, DriverM.outcome_bind, hran]
    rw [hran] at hround
    cases more with
    | false => exact .stop hran
    | true =>
      have hfree : d.pool.freeCount + 1 = driver.pool.freeCount := Granted.freeCount_eq hround
      exact .more hran (ih (by omega))

/-- What one round does, over all rounds of the loop. -/
theorem refilled (h : Rounds bytes driver port ran) : ∃ actions,
    ran.2.journal.toList = port.journal.toList ++ actions ∧
      Refilled bytes driver ran.1.1 ran.1.2 actions := by
  induction h with
  | @stop driver d port port' h =>
    obtain ⟨actions, hjournal, hround⟩ := refillRound_enters bytes port
    rw [h] at hjournal hround
    exact ⟨actions, hjournal, .stop hround.1 hround.2⟩
  | @more driver d d' port port' port'' count h _ ih =>
    obtain ⟨actions, hjournal, hround⟩ := refillRound_enters bytes port
    rw [h] at hjournal hround
    obtain ⟨later, hlater, hrefilled⟩ := ih
    refine ⟨actions ++ later, ?_, .more hround hrefilled⟩
    rw [hlater, hjournal, List.append_assoc]

end Rounds

/-- What a refill runs is the loop. -/
theorem refill_rounds (driver : Driver slots size) (port : Port (World σ slots size))
    (bytes : Nat) : Rounds bytes driver port ((refill bytes).outcome driver port) :=
  .of_room (Nat.lt_succ_self driver.pool.freeCount)

/-- A refill comes to an end on every bus. It is the loop without a budget that it runs; the rounds
that queue a transfer are no more than there were free slots, and the last one had its reason. -/
theorem refill_terminates (driver : Driver slots size) (port : Port (World σ slots size))
    (bytes : Nat) :
    let ran := (refill bytes).outcome driver port
    (∀ ran', Rounds bytes driver port ran' ↔ ran' = ran) ∧
    ∃ actions, ran.2.journal.toList = port.journal.toList ++ actions ∧
      Refilled bytes driver ran.1.1 ran.1.2 actions := by
  intro ran
  have hrounds : Rounds bytes driver port ran := driver.refill_rounds port bytes
  refine ⟨fun ran' => ⟨fun h => h.unique hrounds, ?_⟩, hrounds.refilled⟩
  rintro rfl
  exact hrounds

/-- The only slot is taken by the first round, and the second one finds it in flight. -/
theorem refill_terminates_single :
    let port : Port (World Sim.Core 1 16) := ⟨⟨.fresh, .zero⟩, #[]⟩
    let ran := (refill 16).outcome Rig.single.driver port
    ran.1.1 = 1 ∧ Rounds 16 Rig.single.driver port ran ∧ ran.2.journal.queued = 1 ∧
      Stopped 16 ran.1.2 ran.2.journal.toList := by
  intro port ran
  obtain ⟨hrounds, actions, hjournal, hrefilled⟩ := refill_terminates Rig.single.driver port 16
  have hcount : ran.1.1 = 1 := by decide +kernel
  have hactions : ran.2.journal.toList = actions := hjournal
  refine ⟨hcount, (hrounds ran).2 rfl, ?_, ?_⟩
  · rw [Journal.queued, hactions, ← hcount]
    exact hrefilled.queued_eq
  · rw [hactions]
    exact hrefilled.stopped

end Driver
end DmaController

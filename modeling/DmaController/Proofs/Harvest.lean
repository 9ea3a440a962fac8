import DmaController.Proofs.Refill
import Mathlib.Data.List.Perm.Subperm

/-!
What a collection delivers. It drains the transfers in flight whose bits were set in one snapshot,
in ring order from the cursor on. If the hardware completes the oldest transfer first, these are the
first transfers in flight, and if those in flight stand on the ring in the order of their
submission, they are delivered in that order.
-/
namespace DmaController

open Relation Sim

/-- Of a list without repetitions, the members of a sublist are the sublist. -/
theorem filter_mem_of_sublist {α : Type} [DecidableEq α] {part whole : List α}
    (h : part.Sublist whole) (hnodup : whole.Nodup) : whole.filter (· ∈ part) = part := by
  have hkept : part.filter (· ∈ part) = part := List.filter_eq_self.2 fun a ha => by simpa using ha
  have hsub : part.Sublist (whole.filter (· ∈ part)) := by
    have := h.filter (· ∈ part)
    rwa [hkept] at this
  have hmem : whole.filter (· ∈ part) ⊆ part := fun a ha => by
    simpa using (List.mem_filter.1 ha).2
  exact (hsub.eq_of_length_le (List.subperm_of_subset (hnodup.filter _) hmem).length_le).symm

section Snapshot

variable {slots size : Nat}

/-- A snapshot shows the done bits, but for that of the newest submission, which it may leave
out. -/
def Snapshot (driver : Driver slots size) (done : Word) (bits : DoneBits) : Prop :=
  bits = ⟨done⟩ ∨ ∃ id, driver.newest = some id ∧ bits = DoneBits.without ⟨done⟩ id

theorem Snapshot.isDone {driver : Driver slots size} {e : Engine} {bits : DoneBits}
    (h : Snapshot driver e.done bits) {id : TransferId} (hdone : e.isDone id.val = true)
    (hnewest : driver.newest ≠ some id) : bits.isDone id = true := by
  rcases h with rfl | ⟨newest, heq, rfl⟩
  · exact hdone
  · rw [DoneBits.isDone_without, decide_eq_true, Bool.and_true]
    · exact hdone
    · rintro rfl
      exact hnewest heq

namespace Driver

/-- The done bits that count when the submit and the done register show these words: not that of
the newest submission while the submit bit is set. -/
def settled (driver : Driver slots size) (submit done : Word) : DoneBits :=
  if submit.hasAny submitBit then driver.newest.elim ⟨done⟩ (DoneBits.without ⟨done⟩) else ⟨done⟩

section Looks

variable {σ : Type} [RegisterBus (World σ slots size)]
variable (driver : Driver slots size) (port : Port (World σ slots size))

theorem pendingSubmission_outcome :
    let submit := (BusM.read Register.submit).run port
    pendingSubmission.outcome driver port =
      ((if submit.1.hasAny submitBit then driver.newest else none, driver), submit.2) := by
  intro submit
  unfold pendingSubmission
  rw [DriverM.outcome_bind]
  change DriverM.outcome (if submit.1.hasAny submitBit then _ else _) driver submit.2 = _
  split_ifs
  · rfl
  · rfl

/-- A settled snapshot reads the submit register and then the done register, and nothing else. -/
theorem settledDone_outcome :
    let submit := (BusM.read Register.submit).run port
    let done := (BusM.read Register.done).run submit.2
    settledDone.outcome driver port = ((driver.settled submit.1 done.1, driver), done.2) := by
  intro submit done
  unfold settledDone settled
  rw [DriverM.outcome_bind, pendingSubmission_outcome]
  by_cases hset : submit.1.hasAny submitBit = true
  · rw [if_pos hset, if_pos hset]
    cases driver.newest with
    | none => rfl
    | some id => rfl
  · rw [if_neg hset, if_neg hset]
    rfl

end Looks

variable {driver : Driver slots size} {port : Port (World Bench slots size)}

theorem pendingSubmission_newest {id : TransferId}
    (h : (pendingSubmission.outcome driver port).1.1 = some id) : driver.newest = some id := by
  rw [pendingSubmission_outcome] at h
  split_ifs at h
  exact h

theorem settledDone_snapshot : (settledDone.outcome driver port).1.2 = driver ∧
    Snapshot driver (settledDone.outcome driver port).2.world.device.core.done
      (settledDone.outcome driver port).1.1 := by
  rw [settledDone_outcome]
  refine ⟨rfl, ?_⟩
  unfold settled
  split_ifs
  · cases hnewest : driver.newest with
    | none => exact .inl rfl
    | some id => exact .inr ⟨id, hnewest, rfl⟩
  · exact .inl rfl

end Driver
end Snapshot

variable {slots size : Nat} [HasSlots slots]

/-- What a snapshot shows of the transfers in flight are the first of them. -/
theorem Regular.front {d : Driver slots size} {k : Known} {e : Engine} (h : Regular d k e)
    (hphase : k.phase = .running) (horder : InOrder e.history)
    (hsnapshot : Snapshot d e.done k.done) : ∃ front later, flight e.history = front ++ later ∧
      (∀ transfer ∈ front, k.done.isDone transfer.id = true) ∧
      ∀ transfer ∈ later, k.done.isDone transfer.id = false := by
  have hline := h.line.running hphase
  obtain ⟨finished, waiting, hflight, hwaiting, hfinished⟩ := h.finishedFirst horder hphase
  rw [hflight] at hline
  have hundone : ∀ transfer ∈ waiting, k.done.isDone transfer.id = false := by
    refine fun transfer hmem => Bool.eq_false_iff.2 fun hdone => ?_
    refine FinishedFirst.not_waiting h.sound (h.custody.running hphase) hdone
      (hline.holds (List.mem_append_right _ hmem)) ?_
    rw [← hwaiting]
    exact List.mem_map.2 ⟨transfer, hmem, rfl⟩
  by_cases hall : ∀ transfer ∈ finished, k.done.isDone transfer.id = true
  · exact ⟨finished, waiting, hflight, hall, hundone⟩
  -- Only the bit of the newest submission can be missing, and that is the last in flight.
  obtain ⟨newest, hrest⟩ := Classical.not_forall.1 hall
  obtain ⟨hmem, hmissing⟩ := Classical.not_imp.1 hrest
  have hnewest : d.newest = some newest.id := by
    by_contra hne
    exact hmissing (hsnapshot.isDone (hfinished newest hmem) hne)
  have hlast := hline.last_of_newest newest (List.mem_append_left _ hmem) hnewest
  obtain rfl : waiting = [] := by
    by_contra hne
    rw [List.getLast?_append_of_ne_nil _ hne] at hlast
    exact hline.ne_of_split hmem (List.mem_of_getLast? hlast) rfl
  rw [List.append_nil] at hflight hline hlast
  obtain ⟨front, rfl⟩ := List.getLast?_eq_some_iff.1 hlast
  refine ⟨front, [newest], hflight, fun transfer hfront => ?_, fun transfer hthis => ?_⟩
  · refine hsnapshot.isDone (hfinished transfer (List.mem_append_left _ hfront)) ?_
    rw [hnewest]
    intro heq
    exact hline.ne_of_split hfront (List.mem_singleton_self newest) (Option.some.inj heq).symm
  · obtain rfl := List.mem_singleton.1 hthis
    simpa using hmissing

namespace Driver

/-- The slot of `id` is drained on this snapshot. -/
def drains (driver : Driver slots size) (done : DoneBits) (id : TransferId) : Bool :=
  done.isDone id && (driver.pool.slot id).transferId? == some id

theorem drains_eq_true {driver : Driver slots size} {done : DoneBits} {id : TransferId} :
    driver.drains done id = true ↔ done.isDone id = true ∧ driver.Holds id := by
  simp [drains, Holds]

/-- Draining one slot does not change whether another id is drained. -/
theorem drains_release {driver : Driver slots size} {done : DoneBits} {id other : TransferId}
    (hid : driver.Holds id) (hne : other ≠ id) :
    (driver.withPool (driver.pool.release id)).drains done other = driver.drains done other := by
  have hslot : ((driver.pool.release id).slot other).transferId? = some other ↔
      driver.Holds other := by
    by_cases hindex : Pool.index slots other = Pool.index slots id
    · rw [Pool.slot_of_index _ hindex, Pool.slot_release_self]
      refine ⟨nofun, fun hother => ?_⟩
      unfold Holds at hother
      rw [driver.pool.slot_of_index hindex] at hother
      exact absurd (Option.some.inj (hother.symm.trans hid)) hne
    · rw [Pool.slot_release_of_ne _ hindex]
      exact Iff.rfl
  rw [Bool.eq_iff_iff, drains_eq_true, drains_eq_true]
  exact and_congr_right fun _ => hslot

end Driver

theorem Pool.slotAt_releases (pool : Pool slots size) (ids : List TransferId) (i : Fin slots) :
    (ids.foldl Pool.release pool).slotAt i =
      if ∃ id ∈ ids, i = Pool.index slots id then (pool.slotAt i).release else pool.slotAt i := by
  induction ids generalizing pool with
  | nil => simp
  | cons id ids ih =>
    rw [List.foldl_cons, ih, slotAt_release]
    by_cases hi : i = Pool.index slots id
    · subst hi
      simp [Pool.slot, Slot.release]
    · simp [hi]

theorem Pool.releases_eq (pool : Pool slots size) (ids : List TransferId) :
    (ids.foldl Pool.release pool).base = pool.base ∧
      (ids.foldl Pool.release pool).capacity = pool.capacity := by
  induction ids generalizing pool with
  | nil => exact ⟨rfl, rfl⟩
  | cons id ids ih => exact ih (pool.release id)

/-- What a scan over `ids` does: it delivers what can be drained, and each with the bytes of its
slot. -/
structure Drained (driver d : Driver slots size) (served : List (TransferId × Bytes))
    (actions : List Action) : Prop where
  cursor_eq : d.cursor = driver.cursor
  stream_eq : d.stream = driver.stream
  capacity_eq : d.capacity = driver.capacity
  actions_eq : actions = served.map fun entry => .delivered entry.1 entry.2
  size_eq : ∀ entry ∈ served, driver.Holds entry.1 ∧
    entry.2.size = min (driver.pool.slot entry.1).size size

variable {σ : Type} [RegisterBus (World σ slots size)]

namespace Driver

/-- Passes the bytes of the slot of `id` on: as many as the slot counts, from its start. -/
def handOn (driver : Driver slots size) (consume : Bytes → World σ slots size → World σ slots size)
    (port : Port (World σ slots size)) (id : TransferId) : Port (World σ slots size) :=
  let data := port.world.memory.bytes (Pool.index slots id) (driver.pool.slot id).size
  { world := consume data (RegisterBus.note (.delivered id data) port.world)
    journal := port.journal.push (.delivered id data) }

/-- Draining a slot changes no size, so the other slots pass on the same bytes. -/
theorem handOn_release (driver : Driver slots size)
    (consume : Bytes → World σ slots size → World σ slots size) (id : TransferId) :
    (driver.withPool (driver.pool.release id)).handOn consume = driver.handOn consume := by
  funext port other
  have hsize : ((driver.withPool (driver.pool.release id)).pool.slot other).size =
      (driver.pool.slot other).size := driver.pool.size_release id _
  unfold handOn
  rw [hsize]

theorem drain_outcome (done : DoneBits) (consume : Bytes → World σ slots size → World σ slots size)
    (id : TransferId) (driver : Driver slots size) (port : Port (World σ slots size)) :
    (drain done consume id).outcome driver port =
      if driver.drains done id then
        ((true, driver.withPool (driver.pool.release id)), driver.handOn consume port id)
      else ((false, driver), port) := by
  unfold drain
  rw [DriverM.outcome_get]
  change DriverM.outcome (if driver.drains done id then _ else _) driver port = _
  split_ifs
  · rfl
  · rfl

theorem drainAll_outcome (done : DoneBits)
    (consume : Bytes → World σ slots size → World σ slots size) {ids : List TransferId}
    (hnodup : ids.Nodup) (driver : Driver slots size) (port : Port (World σ slots size)) :
    (drainAll done consume ids).outcome driver port =
      ((ids.filter (driver.drains done),
        driver.withPool ((ids.filter (driver.drains done)).foldl Pool.release driver.pool)),
        (ids.filter (driver.drains done)).foldl (driver.handOn consume) port) := by
  induction ids generalizing driver port with
  | nil => rfl
  | cons id ids ih =>
    obtain ⟨hid, hnodup⟩ := List.nodup_cons.1 hnodup
    unfold drainAll
    rw [DriverM.outcome_bind, drain_outcome]
    by_cases hdrains : driver.drains done id = true
    · -- The slot is free from here on, which is no matter to the ids that are still to come.
      have hothers : ids.filter ((driver.withPool (driver.pool.release id)).drains done) =
          ids.filter (driver.drains done) := by
        refine List.filter_congr fun other hmem => drains_release (drains_eq_true.1 hdrains).2 ?_
        rintro rfl
        exact hid hmem
      rw [if_pos hdrains, if_pos rfl, DriverM.outcome_bind, ih hnodup, hothers, handOn_release,
        List.filter_cons_of_pos hdrains]
      rfl
    · rw [if_neg hdrains, List.filter_cons_of_neg hdrains]
      exact ih hnodup driver port

/-- What was passed on, with the bytes that the slots held by then. -/
theorem handOn_served (driver : Driver slots size)
    (consume : Bytes → World σ slots size → World σ slots size) (ids : List TransferId)
    (port : Port (World σ slots size)) : ∃ served : List (TransferId × Bytes),
      served.map Prod.fst = ids ∧
      (∀ entry ∈ served, entry.2.size = min (driver.pool.slot entry.1).size size) ∧
      (ids.foldl (driver.handOn consume) port).journal.toList =
        port.journal.toList ++ served.map fun entry => .delivered entry.1 entry.2 := by
  induction ids generalizing port with
  | nil => exact ⟨[], rfl, by simp, (List.append_nil _).symm⟩
  | cons id ids ih =>
    obtain ⟨served, hids, hsizes, hjournal⟩ := ih (driver.handOn consume port id)
    let data := port.world.memory.bytes (Pool.index slots id) (driver.pool.slot id).size
    refine ⟨(id, data) :: served, ?_, ?_, ?_⟩
    · rw [List.map_cons, hids]
    · exact List.forall_mem_cons.2 ⟨port.world.memory.size_bytes _ _, hsizes⟩
    · rw [List.foldl_cons, hjournal, List.map_cons]
      simp [handOn, data]

theorem drainAll_enters (done : DoneBits)
    (consume : Bytes → World σ slots size → World σ slots size) {ids : List TransferId}
    (hnodup : ids.Nodup) (driver : Driver slots size) :
    Enters (drainAll done consume ids) (fun drained d actions => ∃ served,
      drained = served.map Prod.fst ∧ drained = ids.filter (driver.drains done) ∧
        Drained driver d served actions) driver := by
  intro port
  rw [drainAll_outcome done consume hnodup]
  obtain ⟨served, hids, hsizes, hjournal⟩ :=
    driver.handOn_served consume (ids.filter (driver.drains done)) port
  refine ⟨_, hjournal, served, hids.symm, rfl, rfl, rfl, ?_, rfl, fun entry hmem => ?_⟩
  · exact (driver.pool.releases_eq _).2
  · have hdrains : entry.1 ∈ ids.filter (driver.drains done) :=
      hids ▸ List.mem_map.2 ⟨entry, hmem, rfl⟩
    exact ⟨(drains_eq_true.1 (List.mem_filter.1 hdrains).2).2, hsizes entry hmem⟩

omit [HasSlots slots] [RegisterBus (World σ slots size)] in
theorem advance_outcome (drained : List TransferId) (driver : Driver slots size)
    (port : Port (World σ slots size)) :
    let cursor := (drained.getLast?.map (·.next)).getD driver.cursor
    (advance drained).outcome driver port = (((), { driver with cursor }), port) := by
  unfold advance
  cases drained.getLast? with
  | none => rfl
  | some last => rfl

omit [HasSlots slots] [RegisterBus (World σ slots size)] in
theorem advance_enters (drained : List TransferId) (driver : Driver slots size) :
    Enters (advance drained : DriverM σ slots size Unit) (fun _ d actions =>
      d = { driver with cursor := (drained.getLast?.map (·.next)).getD driver.cursor } ∧
        actions = []) driver := by
  intro port
  rw [advance_outcome]
  exact ⟨[], (List.append_nil _).symm, rfl, rfl⟩

/-- A refill requests transfers for the stream, if it runs, and nothing else. -/
theorem refillStream_enters (drained : Nat) (driver : Driver slots size) :
    Enters (refillStream drained : DriverM σ slots size Unit) (fun _ d actions =>
      Requested (driver.stream.getD 0) driver d actions ∧ (driver.stream = none → actions = []))
      driver := by
  unfold refillStream
  refine .get ?_
  cases driver.stream with
  | none => exact .pure ⟨.look .nil, fun _ => rfl⟩
  | some bytes =>
    refine .seq (refill_enters bytes) ?_
    intro refilled d actions h
    split
    · exact .log ⟨h.trans (.look (.single trivial)), nofun⟩
    · exact .pure ⟨h.trans (.look .nil), nofun⟩

end Driver

/-- The ids that hold their slots are those of the transfers in flight. -/
theorem Lined.holds_iff {d : Driver slots size} {line : List Transfer} (h : Lined d line)
    {id : TransferId} : d.Holds id ↔ id ∈ line.map (·.id) := by
  rw [List.mem_map]
  constructor
  · intro hholds
    obtain ⟨transfer, hmem, hid, -⟩ := h.mem_of_slot _ id hholds
    exact ⟨transfer, hmem, hid⟩
  · rintro ⟨transfer, hmem, rfl⟩
    exact h.holds hmem

/-- Of ids in the order of the transfers in flight, those that hold their slots. -/
theorem Lined.filter_holds {d : Driver slots size} {line : List Transfer} {ids : List TransferId}
    (h : Lined d line) (hids : (line.map (·.id)).Sublist ids) (hnodup : ids.Nodup) :
    ids.filter (fun id => (d.pool.slot id).transferId? == some id) = line.map (·.id) := by
  refine .trans (List.filter_congr fun id _ => ?_) (filter_mem_of_sublist hids hnodup)
  rw [Bool.eq_iff_iff, beq_iff_eq, decide_eq_true_eq]
  exact h.holds_iff

/-- If the first transfers in flight are done, a scan in their order drains just them. -/
theorem Lined.filter_drains {d : Driver slots size} {front later : List Transfer}
    {done : DoneBits} {ids : List TransferId} (h : Lined d (front ++ later))
    (hfront : ∀ transfer ∈ front, done.isDone transfer.id = true)
    (hlater : ∀ transfer ∈ later, done.isDone transfer.id = false)
    (hids : ((front ++ later).map (·.id)).Sublist ids) (hnodup : ids.Nodup) :
    ids.filter (d.drains done) = front.map (·.id) := by
  have hdrains : ∀ id, d.drains done id = true ↔ id ∈ front.map (·.id) := by
    intro id
    rw [Driver.drains_eq_true, h.holds_iff, List.map_append, List.mem_append]
    constructor
    · rintro ⟨hdone, hmem | hmem⟩
      · exact hmem
      · obtain ⟨transfer, htransfer, rfl⟩ := List.mem_map.1 hmem
        cases (hlater transfer htransfer).symm.trans hdone
    · intro hmem
      obtain ⟨transfer, htransfer, rfl⟩ := List.mem_map.1 hmem
      exact ⟨hfront transfer htransfer, .inl hmem⟩
  rw [List.map_append] at hids
  refine .trans (List.filter_congr fun id _ => ?_)
    (filter_mem_of_sublist ((List.sublist_append_left _ _).trans hids) hnodup)
  rw [Bool.eq_iff_iff, decide_eq_true_eq]
  exact hdrains id

/-- From `s` to `s'` the transfers that were done are delivered: these are `served`. -/
structure Reaped (s s' : Scene Bench slots size) (served : List (TransferId × Bytes)) : Prop where
  lawful : s'.port.world.device.script.IsLawful
  regular : s'.bare.Regular
  rests : s'.Rests .running
  cursor_eq : s'.driver.cursor =
    ((served.map Prod.fst).getLast?.map (·.next)).getD s.driver.cursor
  stream_eq : s'.driver.stream = s.driver.stream
  capacity_eq : s'.driver.capacity = s.driver.capacity
  size_eq : ∀ entry ∈ served, ∃ transfer ∈ flight s.bare.engine.history,
    transfer.id = entry.1 ∧ entry.2.size = min transfer.length size
  moved : Moved s.bare.engine s'.bare.engine served []
  served_first : InOrder s'.bare.engine.history →
    ((flight s.bare.engine.history).map (·.id)).Sublist s.driver.cursor.lap →
    ∃ front later, flight s.bare.engine.history = front ++ later ∧
      served.map Prod.fst = front.map (·.id)

/-- From `s` to `s'` a collection delivered `served`, and then submitted `fresh`. -/
structure Collected (s s' : Scene Bench slots size) (served : List (TransferId × Bytes))
    (fresh : List Transfer) : Prop where
  lawful : s'.port.world.device.script.IsLawful
  regular : s'.bare.Regular
  cursor_eq : s'.driver.cursor =
    ((served.map Prod.fst).getLast?.map (·.next)).getD s.driver.cursor
  stream_eq : s'.driver.stream = s.driver.stream
  capacity_eq : s'.driver.capacity = s.driver.capacity
  size_eq : ∀ entry ∈ served, ∃ transfer ∈ flight s.bare.engine.history,
    transfer.id = entry.1 ∧ entry.2.size = min transfer.length size
  fresh_eq : ∀ transfer ∈ fresh, ∃ bytes, s.driver.stream = some bytes ∧
    transfer.direction = .inbound ∧ s.driver.requestSize? bytes = some transfer.length
  moved : Moved s.bare.engine s'.bare.engine served fresh
  sustained : ∀ bytes granted, s.driver.stream = some bytes →
    s.driver.requestSize? bytes = some granted → 0 < s'.driver.inFlight
  served_first : InOrder s'.bare.engine.history →
    ((flight s.bare.engine.history).map (·.id)).Sublist s.driver.cursor.lap →
    ∃ front later, flight s.bare.engine.history = front ++ later ∧
      served.map Prod.fst = front.map (·.id)

namespace Driver

/-- The first half of a collection: all that is done is delivered. -/
def reap (consume : Bytes → World σ slots size → World σ slots size) :
    DriverM σ slots size (List TransferId) := do
  let done ← settledDone
  let drained ← drainAll done consume (← get).cursor.lap
  advance drained
  return drained

theorem collect_eq (consume : Bytes → World σ slots size → World σ slots size) :
    collect consume = (do
      let drained ← reap consume
      refillStream drained.length
      return drained.length) := rfl

theorem reap_reaps {s : Scene Bench slots size}
    (hlawful : s.port.world.device.script.IsLawful) (hregular : s.bare.Regular)
    (hdraft : s.known.draft = .none) (hphase : s.known.phase = .running) :
    Leads Drifts (reap Sim.consume) (fun drained s' => ∃ served,
      drained = served.map Prod.fst ∧ Reaped s s' served) s := by
  have hconsume : ∀ data (world : World Bench slots size), Drifts world (Sim.consume data world) :=
    fun _ => occur_drifts .consume
  have hrests : s.Rests .running := ⟨hdraft, .inl hphase⟩
  unfold reap
  refine .seq (Leads.traced ((settledDone_leads hdraft).also
    (P := fun bits _ port => Snapshot s.driver port.world.device.core.done bits)
    settledDone_snapshot.2) settledDone_looks hlawful hregular) ?_
  intro bits s₁ h
  obtain ⟨⟨⟨hd₁, hk₁, hbits⟩, hsnapshot⟩, looked, events₁, hfollows₁, huntouched⟩ := h
  subst hbits
  refine .bind (.get ?_)
  refine .seq ((drainAll_leads hconsume _).traced
    (drainAll_enters _ _ s₁.driver.cursor.nodup_lap s₁.driver) hfollows₁.lawful
    hfollows₁.regular) ?_
  intro drained s₂ h
  obtain ⟨⟨hk₂, -⟩, actions, events₂, hfollows₂, served, rfl, hfilter, hdrained⟩ := h
  refine .seq ((advance_leads _).traced (advance_enters _ _) hfollows₂.lawful
    hfollows₂.regular) ?_
  intro _ s₃ h
  obtain ⟨⟨hk₃, -⟩, moved, events₃, hfollows₃, hd₃, rfl⟩ := h
  have h₃ : s₃.Rests .running := by
    refine hrests.keeps ?_
    rw [hk₃, hk₂]
    exact hk₁.toKeeps
  have hlooked := hfollows₁.chronicle.unmoved_of_minor huntouched.passive.minor
  rw [hdrained.actions_eq] at hfollows₂
  have hmoved := hfollows₂.chronicle.delivered.unmoved
    (hfollows₃.chronicle.unmoved_of_minor (by simp))
  have hphase₁ : s₁.known.phase = .running := hk₁.phase_eq.trans hphase
  have hline : Lined s₁.driver (flight s₁.bare.engine.history) :=
    hfollows₁.regular.line.running hphase₁
  refine .pure ⟨served, rfl, hfollows₃.lawful, hfollows₃.regular, h₃,
    ?cursor, ?stream, ?capacity, ?size, hlooked.moved hmoved, ?first⟩
  case cursor => rw [hd₃, hdrained.cursor_eq, hd₁]
  case stream => rw [hd₃, hdrained.stream_eq, hd₁]
  case capacity =>
    rw [hd₃, ← hd₁]
    exact hdrained.capacity_eq
  case size =>
    intro entry hmem
    obtain ⟨hholds, hsize⟩ := hdrained.size_eq entry hmem
    obtain ⟨transfer, hflight, hid, -⟩ := hline.mem_of_slot _ _ hholds
    refine ⟨transfer, hlooked.flight_eq ▸ hflight, hid, ?_⟩
    rw [hsize, ← hid, hline.slot_eq transfer hflight]
  case first =>
    intro horder hlap
    obtain ⟨front, later, hflight, hfront, hlater⟩ := hfollows₁.regular.front hphase₁
      (hmoved.inOrder horder) (hd₁ ▸ hsnapshot)
    refine ⟨front, later, hlooked.flight_eq.symm.trans hflight, ?_⟩
    rw [← hlooked.flight_eq, ← hd₁, hflight] at hlap
    rw [hflight] at hline
    exact hfilter.trans (hline.filter_drains hfront hlater hlap (TransferId.nodup_lap _))

theorem collect_collects {s : Scene Bench slots size}
    (hlawful : s.port.world.device.script.IsLawful) (hregular : s.bare.Regular)
    (hdraft : s.known.draft = .none) (hphase : s.known.phase = .running) :
    Leads Drifts (collect Sim.consume) (fun count s' => s'.Rests .running ∧
      ∃ served fresh, count = served.length ∧ Collected s s' served fresh) s := by
  rw [collect_eq]
  refine .seq (reap_reaps hlawful hregular hdraft hphase) ?_
  intro _ s₁ h
  obtain ⟨served, rfl, hreaped⟩ := h
  refine .seq (((refillStream_leads _ hreaped.rests).also
    (P := fun _ d _ => d = ((refillStream _).outcome s₁.driver s₁.port).1.2) rfl).traced
    (refillStream_enters _ _) hreaped.lawful hreaped.regular) ?_
  intro _ s₂ h
  obtain ⟨⟨⟨h₂, -⟩, hd₂⟩, requests, events, hfollows, hrequested, hnone⟩ := h
  have hrefilled := hfollows.chronicle.requested hrequested
  have hgranted : ∀ bytes, s₁.driver.requestSize? bytes = s.driver.requestSize? bytes :=
    requestSize?_congr hreaped.capacity_eq
  refine .pure ⟨h₂, served, requests.filterMap Action.submission?, by simp,
    hfollows.lawful, hfollows.regular, hrequested.cursor_eq.trans hreaped.cursor_eq,
    hrequested.stream_eq.trans hreaped.stream_eq, hrequested.capacity_eq.trans hreaped.capacity_eq,
    hreaped.size_eq, ?fresh, hreaped.moved.submit hrefilled, ?sustained, ?first⟩
  case fresh =>
    intro transfer hmem
    obtain ⟨bytes, hbytes⟩ : ∃ bytes, s₁.driver.stream = some bytes := by
      refine Option.ne_none_iff_exists'.1 fun h => ?_
      rw [hnone h] at hmem
      exact absurd hmem List.not_mem_nil
    rw [hbytes, Option.getD_some] at hrequested
    obtain ⟨hdirection, hlength⟩ := hrequested.granted_eq hmem
    exact ⟨bytes, hreaped.stream_eq.symm.trans hbytes, hdirection,
      (hgranted bytes).symm.trans hlength⟩
  case sustained =>
    intro bytes granted hbytes hsize
    rw [hd₂, refillStream_driver (hreaped.stream_eq.trans hbytes)]
    exact hreaped.regular.refill_sustains hreaped.lawful (hreaped.rests.phase_eq.elim id id)
      ((hgranted bytes).trans hsize)
  case first => exact fun horder => hreaped.served_first (hrefilled.inOrder horder)

end Driver

end DmaController

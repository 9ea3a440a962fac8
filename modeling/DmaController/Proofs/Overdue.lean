import DmaController.Proofs.Patience
import DmaController.Proofs.Payload
import DmaController.Proofs.Staleness
import DmaController.Proofs.Stream

/-!
What becomes of a blocking request. If its transfer is seen done in time, its bytes are passed on at
once. If not, the request is given up, but its transfer is not: it keeps its slot until that is
taken back, and once the hardware has completed it its done bit shows it to the next collection.
Main statement: how a request ends that queued its transfer, and that an overdue transfer is
delivered after all, once.
-/
namespace DmaController

open Relation Sim

variable {slots size : Nat} [HasSlots slots]

section Journal

variable {started : Driver slots size} {slot : Fin slots} {id : TransferId} {length : Nat}
variable {before actions : List Action}

/-- A slot in flight stays as it is until an action takes it back. -/
theorem Throughout.slotAt_eq (hpermits : Throughout started.Permits (before ++ actions))
    (hheld : ((started.pool.replay before).slotAt slot).isInFlight = true)
    (hleft : ∀ action ∈ actions, Action.takes slot action = false) :
    (started.pool.replay (before ++ actions)).slotAt slot =
      (started.pool.replay before).slotAt slot := by
  induction actions generalizing before with
  | nil => rw [List.append_nil]
  | cons action actions ih =>
    obtain ⟨haction, hleft⟩ := List.forall_mem_cons.1 hleft
    have hpermitted := hpermits before action actions rfl
    have hslot : (started.pool.replay (before ++ [action])).slotAt slot =
        (started.pool.replay before).slotAt slot := by
      rw [Pool.replay_append]
      cases action with
      | submitted transfer =>
        have hne : slot ≠ Pool.index slots transfer.id := by
          rintro rfl
          cases hheld.symm.trans hpermitted.1
        exact (Pool.slotAt_submit ..).trans (if_neg hne)
      | delivered other | reclaimed other =>
        have hne : Pool.index slots other ≠ slot := beq_eq_false_iff_ne.1 haction
        exact (Pool.slotAt_release ..).trans (if_neg hne.symm)
      | released => cases haction
      | read | write | log | offered | delayed => rfl
    rw [List.append_cons] at hpermits ⊢
    exact (ih hpermits (by rwa [hslot]) hleft).trans hslot

/-- A free slot stays free until a transfer is submitted into it. -/
theorem Pool.free_replay {pool : Pool slots size} (hfree : (pool.slotAt slot).isInFlight = false)
    (hnone : ∀ transfer, .submitted transfer ∈ actions → index slots transfer.id ≠ slot) :
    ((pool.replay actions).slotAt slot).isInFlight = false := by
  induction actions generalizing pool with
  | nil => exact hfree
  | cons action actions ih =>
    refine ih ?_ fun transfer hmem => hnone transfer (List.mem_cons_of_mem _ hmem)
    have hrelease : ∀ id, ((pool.release id).slotAt slot).isInFlight = false := by
      intro id
      rw [slotAt_release]
      split_ifs
      · rfl
      · exact hfree
    cases action with
    | submitted transfer =>
      have hne := hnone transfer List.mem_cons_self
      exact (congrArg Slot.isInFlight ((slotAt_submit ..).trans (if_neg hne.symm))).trans hfree
    | delivered id | reclaimed id => exact hrelease id
    | released => exact congrArg Slot.isInFlight (pool.slotAt_releaseAll slot)
    | read | write | log | offered | delayed => exact hfree

/-- What takes the slot back is a delivery of `id` with this data, between these actions; and before
anything else is delivered from the slot, a transfer is submitted into it. -/
structure DeliveredOnce (slot : Fin slots) (id : TransferId) (data : Bytes)
    (front actions back : List Action) : Prop where
  actions_eq : actions = front ++ .delivered id data :: back
  untaken : ∀ action ∈ front, Action.takes slot action = false
  resubmitted : ∀ middle other bytes rest, back = middle ++ .delivered other bytes :: rest →
    Pool.index slots other = slot →
    ∃ transfer, .submitted transfer ∈ middle ∧ Pool.index slots transfer.id = slot

/-- After a delivery from a slot, a transfer is submitted into it before the next one. -/
theorem Throughout.resubmitted {other : TransferId} {data bytes : Bytes}
    {middle rest : List Action} (hpermits : Throughout started.Permits
      (before ++ .delivered id data :: (middle ++ .delivered other bytes :: rest)))
    (hother : Pool.index slots other = Pool.index slots id) :
    ∃ transfer, .submitted transfer ∈ middle ∧
      Pool.index slots transfer.id = Pool.index slots id := by
  by_contra hnone
  have hdelivered : started.Permits (before ++ .delivered id data :: middle)
      (.delivered other bytes) := hpermits _ _ rest (by simp)
  have hfree : (((started.pool.replay before).release id).slotAt
      (Pool.index slots id)).isInFlight = false := by
    rw [Pool.slotAt_release, if_pos rfl]
    rfl
  have hstill := Pool.free_replay hfree fun transfer hmem hinto => hnone ⟨transfer, hmem, hinto⟩
  have hagain := congrArg Option.isSome hdelivered.2
  rw [Pool.slot, hother, Pool.replay_append] at hagain
  exact absurd (hstill.symm.trans hagain) Bool.false_ne_true

/-- A slot that is taken back, and neither reclaimed nor released, is delivered. -/
theorem Throughout.deliveredOnce (hpermits : Throughout started.Permits (before ++ actions))
    (hslot : (started.pool.replay before).slotAt slot = ⟨length, .inFlight id⟩)
    (hindex : Pool.index slots id = slot)
    (htaken : ∃ action ∈ actions, Action.takes slot action = true)
    (hspared : ∀ action ∈ actions, action ≠ .reclaimed id ∧ ∀ count, action ≠ .released count) :
    ∃ front data back, DeliveredOnce slot id data front actions back ∧
      data.size = min length size := by
  obtain ⟨first, hfirst⟩ := Option.isSome_iff_exists.1 (List.find?_isSome.2 htaken)
  obtain ⟨htakes, front, back, rfl, hfront⟩ := List.find?_eq_some_iff_append.1 hfirst
  have huntaken : ∀ action ∈ front, Action.takes slot action = false := by
    simpa using hfront
  have hheld : ((started.pool.replay before).slotAt slot).isInFlight = true := by
    rw [hslot]
    rfl
  have hpermitted : started.Permits (before ++ front) first :=
    hpermits _ first back (List.append_assoc ..).symm
  have hkept : (started.pool.replay (before ++ front)).slotAt slot = ⟨length, .inFlight id⟩ := by
    have hsplit := hpermits
    rw [← List.append_assoc] at hsplit
    exact (hsplit.of_append.slotAt_eq hheld huntaken).trans hslot
  -- Whoever takes the slot back does it under the id that the slot is in flight under.
  have heq : ∀ other, Pool.index slots other = slot →
      ((started.pool.replay (before ++ front)).slot other).transferId? = some other →
      other = id := by
    intro other hother hid
    rw [Pool.slot, hother, hkept] at hid
    exact (Option.some.inj hid).symm
  have hmem : first ∈ front ++ first :: back := List.mem_append_right _ List.mem_cons_self
  cases first with
  | delivered other data =>
    have hother : Pool.index slots other = slot := beq_iff_eq.1 htakes
    obtain ⟨hsize, hid⟩ := hpermitted
    obtain rfl := heq other hother hid
    rw [Pool.slot, hother, hkept] at hsize
    refine ⟨front, data, back, ⟨rfl, huntaken, ?_⟩, hsize⟩
    rintro middle later bytes rest rfl hlater
    rw [← List.append_assoc] at hpermits
    exact hother ▸ hpermits.resubmitted (hlater.trans hother.symm)
  | reclaimed other =>
    have hother := heq other (beq_iff_eq.1 htakes) hpermitted.2
    exact absurd (congrArg _ hother) (hspared _ hmem).1
  | released count => exact absurd rfl ((hspared _ hmem).2 count)
  | read | write | log | offered | submitted | delayed => cases htakes

end Journal

/-- A transfer that has finished the slot it is in shows its done bit. -/
def Evident (d : Driver slots size) (e : Engine) : Prop :=
  ∀ transfer : Transfer, d.Holds transfer.id →
    stage (Pool.index slots transfer.id) e.history = .finished transfer →
    e.isDone transfer.id.val = true

theorem Stage.finished_of_accept {stage : Stage} {id : Nat} {transfer : Transfer}
    (h : stage.accept id = .finished transfer) : stage = .finished transfer := by
  cases stage with
  | queued other =>
    rw [Stage.accept] at h
    split_ifs at h
  | none | running | finished | aborted => exact h

theorem Stage.finished_of_complete {stage : Stage} {id : Nat} {transfer : Transfer}
    (h : stage.complete id = .finished transfer) :
    stage = .finished transfer ∨ transfer.id.val = id := by
  cases stage with
  | running other =>
    rw [Stage.complete] at h
    split_ifs at h with hid
    obtain rfl := Stage.finished.inj h
    exact .inr hid
  | none | queued | finished | aborted => exact .inl h

section Change

variable {d d' : Driver slots size} {k k' : Known} {e e' : Engine}

/-- A finished transfer that is in its slot is ripe. -/
theorem Evident.ripe (h : Evident d e) (hqueues : Queues d k e) {transfer : Transfer}
    (hholds : d.Holds transfer.id)
    (hfinished : stage (Pool.index slots transfer.id) e.history = .finished transfer) :
    Ripe d k e transfer.id := by
  refine ⟨hholds, h transfer hholds hfinished, fun hpending => ?_, fun drafted hdraft heq => ?_⟩
  · obtain ⟨queued, hqueued⟩ := hqueues.pending hpending.1 transfer.id hpending.2 hholds
    cases hqueued.symm.trans hfinished
  · have hqueued := hqueues.drafted drafted hdraft
    rw [heq] at hqueued
    cases hqueued.symm.trans hfinished

theorem Evident.alike (h : Evident d e) (hpool : d'.pool = d.pool) (he : e.Alike e') :
    Evident d' e' := by
  intro transfer hholds hfinished
  rw [Driver.Holds, hpool] at hholds
  rw [stage_alike _ he] at hfinished
  rw [Engine.isDone, he.done_eq]
  exact h transfer hholds hfinished

theorem Evident.change (h : Evident d e) (hattributed : Attributed d e) (hqueues : Queues d k e)
    (hchange : Change d k e d' k' e') : Evident d' e' := by
  cases hchange with
  | turn hturn =>
    intro transfer hholds hfinished
    cases hturn with
    | takeOver hpending =>
      have hbefore := Stage.finished_of_accept hfinished
      have hripe := h.ripe hqueues hholds hbefore
      exact (hripe.turn hattributed (.takeOver e hpending)).done_eq
    | complete other =>
      rw [e.isDone_complete transfer.id.val_lt]
      rcases Stage.finished_of_complete hfinished with hbefore | hid
      · rw [h transfer hholds hbefore, Bool.true_or]
      · rw [decide_eq_true hid, Bool.or_true]
  | learn => exact h
  | plain hpool _ _ _ _ _ he => exact h.alike hpool he
  | abort value =>
    intro transfer _ hfinished
    change (stage (Pool.index slots transfer.id) e.history).abort = _ at hfinished
    cases hstage : stage (Pool.index slots transfer.id) e.history with
    | _ => rw [hstage] at hfinished; cases hfinished
  | halt _ _ he => exact h.alike rfl he
  | mark other =>
    intro transfer hholds hfinished
    by_cases hindex : Pool.index slots transfer.id = Pool.index slots other.id
    · rw [hindex] at hfinished
      cases (stage_submitted_self e.history other).symm.trans hfinished
    · refine h transfer ?_ ((stage_submitted_of_ne _ (Ne.symm hindex)).symm.trans hfinished)
      exact (congrArg Slot.transferId? (Pool.slot_submit_of_ne _ hindex _)).symm.trans hholds
  | queue => exact h
  | release _ _ action haction =>
    intro transfer hholds hfinished
    refine h transfer (Pool.transferId?_of_release hholds) ?_
    exact (stage_noted _ _ (action.submission?_of_freed? haction)).symm.trans hfinished
  | restart hfree =>
    intro transfer hholds
    exact absurd hholds (Driver.not_holds (congrArg Slot.owner (hfree _)))

end Change

variable {ready : Engine → Prop}

theorem Scene.Attained.evident {s : Scene Engine slots size} (h : s.Attained ready) :
    Evident s.driver s.engine := by
  refine h.induct (P := fun s => Evident s.driver s.engine) ?_ ?_
  · intro s₀ hbegins transfer hholds
    exact absurd hholds (hbegins.fresh.not_holds transfer.id)
  · intro s₁ s₂ hattained h₁ hstep
    exact h₁.change hattained.attributed hattained.queues (hattained.sound.step_change hstep)

/-- Where a driver comes to from here, whatever is called and however the hardware moves. -/
inductive Rig.Reaches (rig : Rig slots size) : Rig slots size → Prop
  | refl : Reaches rig rig
  | call {later : Rig slots size} (h : Reaches rig later) (call : Call) :
      Reaches rig (call.perform later)
  | stimulus {later : Rig slots size} (h : Reaches rig later) (stimulus : Stimulus)
      (hlawful : stimulus.IsLawful) : Reaches rig (later.stimulate stimulus)
  | follow {later : Rig slots size} (h : Reaches rig later) (script : Script)
      (hlawful : script.IsLawful) : Reaches rig (later.follow script)

section Reaches

variable {rig later : Rig slots size} {known : Known} {phase : Phase}

theorem Session.reaches (h : Session ready phase rig) (hreaches : rig.Reaches later) :
    ∃ phase', Session ready phase' later := by
  induction hreaches with
  | refl => exact ⟨phase, h⟩
  | call _ call ih =>
    obtain ⟨phase', ih⟩ := ih
    exact ⟨_, ih.call call⟩
  | stimulus _ stimulus hlawful ih =>
    obtain ⟨phase', ih⟩ := ih
    exact ⟨_, ih.stimulus stimulus hlawful⟩
  | follow _ script hlawful ih =>
    obtain ⟨phase', ih⟩ := ih
    exact ⟨_, ih.follow script hlawful⟩

theorem Rig.Reaches.path (h : rig.Reaches later) (hdraft : known.draft = .none) :
    ∃ known', known'.draft = .none ∧
      Path (fun _ _ => True) (rig.scene known) (later.scene known') := by
  induction h with
  | refl => exact ⟨known, hdraft, .refl⟩
  | @call later _ call ih =>
    obtain ⟨middle, hdraft, hpath⟩ := ih
    have hends : (later.scene middle).Ends middle.phase := ⟨hdraft, .inr rfl⟩
    obtain ⟨known', hpath', hends'⟩ : ∃ known', Path (fun _ _ => True) (later.scene middle)
        ((call.perform later).scene known') ∧ ((call.perform later).scene known').Ends _ :=
      call.leads (fun _ _ => trivial) (fun _ => trivial) (fun _ _ => trivial) hends
    exact ⟨known', hends'.draft_eq, hpath.trans hpath'⟩
  | stimulus _ _ _ ih | follow _ _ _ ih =>
    obtain ⟨known', hdraft, hpath⟩ := ih
    exact ⟨known', hdraft, hpath.tail ⟨.meanwhile, .meanwhile _ _, ⟨trivial, rfl⟩, trivial⟩⟩

theorem Rig.Reaches.journal_eq (h : rig.Reaches later) : ∃ actions,
    later.port.journal.toList = rig.port.journal.toList ++ actions := by
  have hdraft : ({} : Known).draft = .none := rfl
  obtain ⟨known', -, hpath⟩ := h.path hdraft
  obtain ⟨actions, hjournal, -⟩ := hpath.along (P := fun _ => True) (R := fun _ _ => True)
    (fun _ => trivial) (fun _ _ => trivial) fun _ hstep => by
      obtain ⟨deed, -, hserves, -⟩ := hstep
      exact ⟨deed.actions, hserves.journal_eq, fun _ => trivial⟩
  exact ⟨actions, hjournal⟩

/-- The journal tells how the rig has come from a fresh driver. -/
def Rig.IsRecounted (rig : Rig slots size) : Prop :=
  ∃ started : Driver slots size, started.Fresh ∧
    ∃ known, known.draft = .none ∧ Recounts started (rig.scene known)

theorem Rig.IsRecounted.reaches (h : rig.IsRecounted) (hreaches : rig.Reaches later) :
    later.IsRecounted := by
  obtain ⟨started, hfresh, known, hdraft, hrecounts⟩ := h
  obtain ⟨known', hdraft', hpath⟩ := hreaches.path hdraft
  exact ⟨started, hfresh, known', hdraft', hrecounts.path hfresh hpath⟩

theorem Session.isRecounted (h : Session ready phase rig) : rig.IsRecounted := by
  induction h with
  | @start world config pool driver port _ _ h =>
    obtain ⟨known, hdraft, hpath⟩ := Onward.path .start h
    have hfresh := Driver.start_fresh h
    exact ⟨driver, hfresh, known, hdraft, (Recounts.fresh hfresh world).path hfresh hpath⟩
  | call _ call ih => exact ih.reaches (.call .refl call)
  | stimulus _ stimulus hlawful ih => exact ih.reaches (.stimulus .refl stimulus hlawful)
  | follow _ script hlawful ih => exact ih.reaches (.follow .refl script hlawful)

end Reaches

namespace Driver

variable {σ : Type} [RegisterBus (World σ slots size)] {driver : Driver slots size}
variable {port : Port (World σ slots size)} {id : TransferId}

/-- A slot that is drained on the snapshot of a collection is delivered by it. -/
theorem collect_delivers (consume : Bytes → World σ slots size → World σ slots size)
    (hdrains : driver.drains (settledDone.outcome driver port).1.1 id = true) :
    ∃ actions data, ((collect consume).outcome driver port).2.journal.toList =
      port.journal.toList ++ actions ∧ .delivered id data ∈ actions := by
  let bits := (settledDone.outcome driver port).1.1
  let looked := (settledDone.outcome driver port).2
  let swept := (drainAll bits consume driver.cursor.lap).outcome driver looked
  have hdriver : (settledDone.outcome driver port).1.2 = driver := by rw [settledDone_outcome]
  have hlooks : Looks (settledDone : DriverM σ slots size DoneBits) driver := settledDone_looks
  have hrest : ∀ drained : List TransferId, Does (fun _ => True) (do
      advance drained
      refillStream drained.length
      return drained.length : DriverM σ slots size Nat) := fun drained =>
    .bind (advance_does drained) fun _ => .bind (refillStream_does
      ⟨fun _ _ => trivial, fun _ => trivial, fun _ _ => trivial, fun _ _ _ => trivial⟩ _)
      fun _ => .pure _
  obtain ⟨looks, hlooked, -⟩ := hlooks port
  obtain ⟨actions, hactions, served, hserved, hfilter, hdrained⟩ :=
    drainAll_enters bits consume driver.cursor.nodup_lap driver looked
  obtain ⟨rest, hjournal, -⟩ := hrest swept.1.1 swept.1.2 swept.2
  have hmem : id ∈ served.map Prod.fst := by
    rw [← hserved, hfilter]
    exact List.mem_filter.2 ⟨TransferId.mem_lap _ id, hdrains⟩
  obtain ⟨⟨id, data⟩, hentry, rfl⟩ := List.mem_map.1 hmem
  refine ⟨looks ++ (actions ++ rest), data, ?_, ?_⟩
  · unfold collect
    rw [DriverM.outcome_bind, hdriver, DriverM.outcome_get, DriverM.outcome_bind]
    rw [← List.append_assoc, ← List.append_assoc, ← hlooked, ← hactions]
    exact hjournal
  · rw [hdrained.actions_eq]
    exact List.mem_append_right _ (List.mem_append_left _ (List.mem_map.2 ⟨_, hentry, rfl⟩))

end Driver

section Late

variable {rig later : Rig slots size} {phase : Phase} {slot : Fin slots} {id : TransferId}
variable {length : Nat} {actions : List Action}

/-- The journal of a later rig replays to its pool, and from the pool of the earlier one on. -/
theorem Session.replays (h : Session ready phase rig) (hreaches : rig.Reaches later) :
    ∃ started : Driver slots size, Throughout started.Permits later.port.journal.toList ∧
      rig.driver.pool = started.pool.replay rig.port.journal.toList ∧
      later.driver.pool = started.pool.replay later.port.journal.toList := by
  obtain ⟨started, hfresh, known, hdraft, hrecounts⟩ := h.isRecounted
  obtain ⟨known', -, hpath⟩ := hreaches.path hdraft
  have hrecounts' := hrecounts.path hfresh hpath
  exact ⟨started, hrecounts'.permits, hrecounts.pool_eq, hrecounts'.pool_eq⟩

/-- A slot in flight is as it was, as long as no action has taken it back. -/
theorem Session.retains (h : Session ready phase rig)
    (hslot : (rig.driver.pool.slotAt slot).isInFlight = true) (hreaches : rig.Reaches later)
    (hjournal : later.port.journal.toList = rig.port.journal.toList ++ actions)
    (hleft : ∀ action ∈ actions, Action.takes slot action = false) :
    later.driver.pool.slotAt slot = rig.driver.pool.slotAt slot := by
  obtain ⟨started, hpermits, hpool, hpool'⟩ := h.replays hreaches
  rw [hjournal] at hpermits hpool'
  rw [hpool] at hslot
  rw [hpool', hpool]
  exact hpermits.slotAt_eq hslot hleft

/-- A collection delivers a slot whose transfer is done. -/
theorem Session.collects (h : Session ready phase rig) {transfer : Transfer}
    (hholds : rig.driver.Holds transfer.id)
    (hfulfilled : Fulfilled (Pool.index slots transfer.id) transfer rig.core.history) :
    ∃ actions data, (Call.collect.perform rig).port.journal.toList =
      rig.port.journal.toList ++ actions ∧ .delivered transfer.id data ∈ actions := by
  obtain ⟨hlawful, known, hends, hattained⟩ := h.attained
  have hs : (rig.scene known).Stands ready := ⟨hlawful, hattained⟩
  have hripe : Ripe rig.driver known rig.core.toEngine transfer.id :=
    hattained.evident.ripe hattained.queues hholds hfulfilled.stage_eq
  have hshown := Driver.settledDone_finds hs hends.draft_eq hripe
  exact Driver.collect_delivers Sim.consume (Driver.drains_eq_true.2 ⟨hshown, hholds⟩)

/-- If the device stores nothing into a slot in flight meanwhile, a collection that delivers it
passes on what its buffer held. -/
theorem Session.collects_buffer (h : Session ready phase rig)
    (hslot : rig.driver.pool.slotAt slot = ⟨length, .inFlight id⟩)
    (hspares : rig.port.world.device.script.Spares slot)
    (hjournal : (Call.collect.perform rig).port.journal.toList =
      rig.port.journal.toList ++ actions) {other : TransferId} {data : Bytes}
    (hfirst : actions.find? (Action.takes slot) = some (.delivered other data)) :
    data = rig.port.world.memory.bytes slot length := by
  obtain ⟨started, hfresh, known, hdraft, hrecounts⟩ := h.isRecounted
  obtain ⟨known', -, hpath⟩ := Rig.call_path slot .collect hdraft
  have hid : (rig.driver.pool.slotAt slot).transferId? = some id := by
    rw [hslot]
    rfl
  obtain ⟨actions', hguarded⟩ := hpath.guarded hrecounts hfresh hspares hid
  obtain rfl : actions' = actions :=
    List.append_cancel_left (hguarded.journal_eq.symm.trans hjournal)
  rcases hguarded.taken _ hfirst with hdelivered | hreclaimed | ⟨count, hreleased⟩
  · rw [(Action.delivered.inj hdelivered).2]
    change rig.port.world.memory.bytes slot (rig.driver.pool.slotAt slot).size = _
    rw [hslot]
  · cases hreclaimed
  · cases hreleased

/-- A slot in flight whose transfer is done is delivered by the next collection at the latest, once,
unless it is reclaimed or released. If it was still in flight then, and the device stores nothing
into it during the collection, what is delivered is what its buffer held. -/
theorem Session.overdue_delivered (h : Session ready phase rig)
    (hslot : rig.driver.pool.slot id = ⟨length, .inFlight id⟩) (hreaches : rig.Reaches later)
    {transfer : Transfer} (hid : transfer.id = id)
    (hfulfilled : Fulfilled (Pool.index slots id) transfer later.core.history)
    (hjournal : (Call.collect.perform later).port.journal.toList =
      rig.port.journal.toList ++ actions)
    (hspared : ∀ action ∈ actions, action ≠ .reclaimed id ∧ ∀ count, action ≠ .released count) :
    ∃ front data back, DeliveredOnce (Pool.index slots id) id data front actions back ∧
      data.size = min length size ∧
      (later.port.journal.toList <+: rig.port.journal.toList ++ front →
        later.port.world.device.script.Spares (Pool.index slots id) →
        data = later.port.world.memory.bytes (Pool.index slots id) length) := by
  subst hid
  let slot := Pool.index slots transfer.id
  have hheld : (rig.driver.pool.slotAt slot).isInFlight = true := congrArg Slot.isInFlight hslot
  obtain ⟨phase', hlater⟩ := h.reaches hreaches
  obtain ⟨before, hbefore⟩ := hreaches.journal_eq
  obtain ⟨rest, hrest⟩ := (Rig.Reaches.refl.call .collect : later.Reaches _).journal_eq
  obtain rfl : actions = before ++ rest := by
    rw [hbefore, List.append_assoc] at hrest
    exact List.append_cancel_left (hjournal.symm.trans hrest)
  have htaken : ∃ action ∈ before ++ rest, Action.takes slot action = true := by
    -- If nothing took the slot back so far, the collection finds it as the request left it.
    by_contra hnone
    have hleft : ∀ action ∈ before, Action.takes slot action = false := fun action hmem =>
      Bool.eq_false_iff.2 fun htakes => hnone ⟨action, List.mem_append_left _ hmem, htakes⟩
    have hkept := h.retains hheld hreaches hbefore hleft
    have hholds : later.driver.Holds transfer.id :=
      congrArg Slot.transferId? (hkept.trans hslot)
    obtain ⟨rest', data, hrest', hmem⟩ := hlater.collects hholds hfulfilled
    obtain rfl : rest' = rest := List.append_cancel_left (hrest'.symm.trans hrest)
    exact hnone ⟨_, List.mem_append_right _ hmem, beq_self_eq_true slot⟩
  obtain ⟨started, hpermits, hpool, -⟩ := h.replays (hreaches.call .collect)
  rw [hjournal] at hpermits
  obtain ⟨front, data, back, honce, hsize⟩ :=
    hpermits.deliveredOnce (hpool ▸ hslot) rfl htaken hspared
  refine ⟨front, data, back, honce, hsize, fun hprefix hspares => ?_⟩
  -- Nothing has taken the slot back before the collection.
  obtain ⟨front', rfl⟩ : before <+: front := by
    rwa [hbefore, List.prefix_append_right_inj] at hprefix
  have hsplit : rest = front' ++ .delivered transfer.id data :: back := by
    have hwhole := honce.actions_eq
    rw [List.append_assoc] at hwhole
    exact List.append_cancel_left hwhole
  have hleft := List.forall_mem_append.1 honce.untaken
  have hkept := h.retains hheld hreaches hbefore hleft.1
  have hfirst : rest.find? (Action.takes slot) = some (.delivered transfer.id data) := by
    refine List.find?_eq_some_iff_append.2 ⟨beq_self_eq_true slot, front', back, hsplit, ?_⟩
    simpa using hleft.2
  exact hlater.collects_buffer (hkept.trans hslot) hspares hrest hfirst

end Late

namespace Driver

omit [HasSlots slots] in
theorem requestSize?_eq {driver : Driver slots size} {bytes granted : Nat}
    (h : driver.requestSize? bytes = some granted) :
    granted = if bytes = 0 then driver.capacity else bytes := by
  unfold requestSize? at h
  split_ifs at h ⊢ <;> exact (Option.some.inj h).symm

/-- A request that queued its transfer and timed out leaves it in its slot. -/
theorem receive_overdue {rig : Rig slots size} {bytes : Nat} {id : TransferId}
    (henqueued : ((enqueue bytes).outcome rig.driver rig.port).1.1 = .ok id)
    (htimeout : ((receive bytes Sim.consume Sim.pause).outcome rig.driver rig.port).1.1 =
      .error (.wait .timeout)) :
    let granted := if bytes = 0 then rig.driver.capacity else bytes
    rig.driver.requestSize? bytes = some granted ∧
      ((Call.receive bytes).perform rig).driver.pool.slot id = ⟨granted, .inFlight id⟩ := by
  intro granted
  obtain ⟨granted', hsize, hdriver, hreceived, htimedOut⟩ := receive_waits henqueued Sim.pause
  obtain rfl : granted' = granted := requestSize?_eq hsize
  let config := rig.driver.config
  let after := ((enqueue bytes).outcome rig.driver rig.port).2.waited Sim.pause config.pollPause
  have hcases := first_or_never (fun count => (after count).showsDone id) config.pollCount
  rcases hcases with ⟨count, hle, hshows, hfirst⟩ | hnever
  · have hanswer := (hreceived count hle hshows hfirst Sim.consume).answer_eq
    cases htimeout.symm.trans hanswer
  · obtain ⟨ran, hran, htimed⟩ := htimedOut hnever
    refine ⟨hsize, ?_⟩
    have hlate : ((Call.receive bytes).perform rig).driver =
        ((enqueue bytes).outcome rig.driver rig.port).1.2 :=
      (congrArg (fun r => r.1.2) (hran Sim.consume)).trans htimed.driver_eq
    rw [hlate, hdriver]
    exact Pool.slot_submit_self ..

/-- How a blocking request ends that queued its transfer, whatever becomes of the device. It pauses
until the first look that shows the transfer done, then passes the bytes of the slot on, once, and
takes the slot back. If no look in time shows it done, all pauses are spent, and the request is
given up without its consumer. The slot stays in flight then, and after the hardware has completed
the transfer the next collection at the latest delivers it, once, unless the slot is reclaimed or
released before. -/
theorem receive_exact :
    (∀ (σ : Type) [RegisterBus (World σ slots size)] (driver : Driver slots size)
      (port : Port (World σ slots size)) (pause : Nat → World σ slots size → World σ slots size)
      (bytes : Nat) (id : TransferId), ((enqueue bytes).outcome driver port).1.1 = .ok id →
      let granted := if bytes = 0 then driver.capacity else bytes
      let length := max driver.config.pollInterval.toNat 1
      let limit := max (driver.config.timeout.toNat / length) 1
      let queued := (enqueue bytes).outcome driver port
      let after := queued.2.waited pause length
      limit * length < 2 ^ 32 ∧ queued.1.2.pool.slot id = ⟨granted, .inFlight id⟩ ∧
      (∀ count ≤ limit, (after count).showsDone id = true →
        (∀ k < count, (after k).showsDone id = false) → ∀ consume,
        Received queued.1.2 port (after count).looked id consume (List.replicate count length)
          ((receive bytes consume pause).outcome driver port)) ∧
      ((∀ k ≤ limit, (after k).showsDone id = false) → ∃ ran,
        (∀ consume, (receive bytes consume pause).outcome driver port = ran) ∧
        TimedOut queued.1.2 port (List.replicate limit length) ran)) ∧
    ∀ (ready : Engine → Prop) (phase : Phase) (rig later : Rig slots size) (bytes : Nat)
      (id : TransferId) (transfer : Transfer) (actions : List Action),
      let granted := if bytes = 0 then rig.driver.capacity else bytes
      let late := (Call.receive bytes).perform rig
      Session ready phase rig → ((enqueue bytes).outcome rig.driver rig.port).1.1 = .ok id →
      ((receive bytes Sim.consume Sim.pause).outcome rig.driver rig.port).1.1 =
        .error (.wait .timeout) →
      late.Reaches later → transfer.id = id →
      Fulfilled (Pool.index slots id) transfer later.core.history →
      (Call.collect.perform later).port.journal.toList = late.port.journal.toList ++ actions →
      (∀ action ∈ actions, action ≠ .reclaimed id ∧ ∀ count, action ≠ .released count) →
      late.driver.pool.slot id = ⟨granted, .inFlight id⟩ ∧
      ∃ front data back, DeliveredOnce (Pool.index slots id) id data front actions back ∧
        data.size = granted ∧
        (later.port.journal.toList <+: late.port.journal.toList ++ front →
          later.port.world.device.script.Spares (Pool.index slots id) →
          data = later.port.world.memory.bytes (Pool.index slots id) granted) := by
  refine ⟨?_, ?_⟩
  · intro σ _ driver port pause bytes id henqueued granted length limit queued after
    obtain ⟨granted', hsize, hdriver, hreceived, htimedOut⟩ := receive_waits henqueued pause
    refine ⟨driver.config.pauses_lt, ?_, hreceived, htimedOut⟩
    change queued.1.2 = _ at hdriver
    rw [hdriver, requestSize?_eq hsize]
    exact Pool.slot_submit_self ..
  · intro ready phase rig later bytes id transfer actions granted late hsession henqueued htimeout
      hreaches hid hfulfilled hjournal hspared
    obtain ⟨hsize, hslot⟩ := receive_overdue henqueued htimeout
    have hlate := hsession.call (.receive bytes)
    obtain ⟨front, data, back, honce, hlength, hbuffer⟩ :=
      hlate.overdue_delivered hslot hreaches hid hfulfilled hjournal hspared
    refine ⟨hslot, front, data, back, honce, hlength.trans (min_eq_left ?_), hbuffer⟩
    exact (requestSize?_bounds hsize).1.trans hsession.capacity_le

/-- Two bytes that come during the only pause are received. If they come after it, the request has
timed out, and the next collection delivers them. -/
theorem receive_exact_single :
    let prompt : Rig 1 16 := Rig.single.follow fun occasion _ =>
      if occasion = .pause then [.store 0 0 #[7, 8], .finish 0] else []
    let queued := (enqueue 2).outcome prompt.driver prompt.port
    let late := (Call.receive 2).perform Rig.single
    let later := (late.stimulate (.store 0 0 #[7, 8])).stimulate (.finish 0)
    let actions := (Call.collect.perform later).port.journal.toList.drop late.port.journal.size
    Received queued.1.2 prompt.port (queued.2.waited Sim.pause 1 1).looked .first Sim.consume [1]
      ((receive 2 Sim.consume Sim.pause).outcome prompt.driver prompt.port) ∧
    late.driver.pool.slot .first = ⟨2, .inFlight .first⟩ ∧
    ∃ front back, DeliveredOnce (Pool.index 1 .first) .first #[7, 8] front actions back := by
  intro prompt queued late later actions
  refine ⟨?_, ?_⟩
  · have henqueued : queued.1.1 = .ok .first := by decide +kernel
    have hshows : (queued.2.waited Sim.pause 1 1).showsDone .first = true := by decide +kernel
    have hfirst : ∀ k < 1, (queued.2.waited Sim.pause 1 k).showsDone .first = false := by
      decide +kernel
    exact (receive_exact.1 _ prompt.driver prompt.port Sim.pause 2 .first henqueued).2.2.1
      1 (by decide) hshows hfirst Sim.consume
  · let transfer : Transfer := ⟨.inbound, .first, 2, 0⟩
    have henqueued : ((enqueue 2).outcome Rig.single.driver Rig.single.port).1.1 = .ok .first := by
      decide +kernel
    have htimeout : ((receive 2 Sim.consume Sim.pause).outcome Rig.single.driver
        Rig.single.port).1.1 = .error (.wait .timeout) := by decide +kernel
    have hreaches : late.Reaches later :=
      .stimulus (.stimulus .refl (.store 0 0 #[7, 8]) trivial) (.finish 0) trivial
    have hstage : stage (0 : Fin 1) later.core.history = .finished transfer := by decide +kernel
    have hfulfilled : Fulfilled (0 : Fin 1) transfer later.core.history := by
      have htells := stage_tells (0 : Fin 1) later.core.history
      rwa [hstage] at htells
    have hjournal : (Call.collect.perform later).port.journal.toList =
        late.port.journal.toList ++ actions := by decide +kernel
    -- Whatever takes the slot back here is a delivery.
    have hdelivers : ∀ action ∈ actions, Action.takes (0 : Fin 1) action = true →
        action.delivery?.isSome = true := by decide +kernel
    have hspared : ∀ action ∈ actions,
        action ≠ .reclaimed .first ∧ ∀ count, action ≠ .released count := by
      intro action hmem
      refine ⟨?_, fun count => ?_⟩
      · rintro rfl
        cases hdelivers _ hmem rfl
      · rintro rfl
        cases hdelivers _ hmem rfl
    obtain ⟨hslot, front, data, back, honce, -, hbuffer⟩ := receive_exact.2 Engine.IsUnused .running
      Rig.single later 2 .first transfer actions Rig.single_session henqueued htimeout hreaches rfl
      hfulfilled hjournal hspared
    have hspares : later.port.world.device.script.Spares (Pool.index 1 .first) :=
      fun _ _ _ hmem => absurd hmem List.not_mem_nil
    have hdata : data = #[7, 8] :=
      (hbuffer (List.prefix_append _ front) hspares).trans (by decide +kernel)
    exact ⟨hslot, front, back, hdata ▸ honce⟩

end Driver

end DmaController

import DmaController.Proofs.Tasks

/-!
The journal tells the pool. Every slot changes hands by an action that the journal has, so replaying
the journal gives the pool at every moment of a run, between the operations and inside them. A
driver keeps to its protocol on a bus of which nothing is known, and so what the steps of the
protocol preserve holds of every run. Main statements: the journal of a run replays to orderly pools
throughout, and each of its actions is one that the driver may take after those before it.
-/
namespace DmaController

variable {σ : Type} {slots size : Nat}

section Throughout

variable {α : Type} {P : List α → α → Prop} {items front : List α} {item : α}

/-- Every item of the list fits what stands before it. -/
def Throughout (P : List α → α → Prop) (items : List α) : Prop :=
  ∀ front item back, items = front ++ item :: back → P front item

theorem Throughout.nil : Throughout P [] := by
  intro front item back h
  simp at h

theorem Throughout.concat (h : Throughout P items) (hitem : P items item) :
    Throughout P (items ++ [item]) := by
  intro front other back heq
  rcases List.eq_nil_or_concat' back with rfl | ⟨back, last, rfl⟩
  · obtain ⟨rfl, hlast⟩ := List.append_inj' heq rfl
    obtain rfl := List.singleton_inj.1 hlast
    exact hitem
  · have hsplit : items ++ [item] = (front ++ other :: back) ++ [last] := by simpa using heq
    exact h front other back (List.append_inj' hsplit rfl).1

theorem Throughout.of_append (h : Throughout P (front ++ items)) : Throughout P front := by
  rintro front item back rfl
  exact h front item (back ++ items) (List.append_assoc ..)

end Throughout

namespace Pool

variable [HasSlots slots]

/-- The pool after an action of its driver. -/
def after (pool : Pool slots size) : Action → Pool slots size
  | .submitted transfer => pool.submit transfer.id transfer.length
  | .delivered id _ | .reclaimed id => pool.release id
  | .released _ => pool.releaseAll
  | .read .. | .write .. | .log _ | .offered _ | .delayed _ => pool

/-- The pool after all of these actions. -/
def replay (pool : Pool slots size) (actions : List Action) : Pool slots size :=
  actions.foldl after pool

variable {pool : Pool slots size} {id other : TransferId}

theorem replay_append (actions later : List Action) :
    pool.replay (actions ++ later) = (pool.replay actions).replay later :=
  List.foldl_append ..

theorem capacity_replay (actions : List Action) :
    (pool.replay actions).capacity = pool.capacity := by
  induction actions generalizing pool with
  | nil => rfl
  | cons action actions ih =>
    refine ih.trans ?_
    cases action <;> rfl

theorem base_replay (actions : List Action) : (pool.replay actions).base = pool.base := by
  induction actions generalizing pool with
  | nil => rfl
  | cons action actions ih =>
    refine ih.trans ?_
    cases action <;> rfl

theorem release_of_index (h : index slots id = index slots other) :
    pool.release id = pool.release other := by
  simp only [release, slot_of_index pool h, h]

/-- A slot that is in flight is the one of its id, and has a length that the capacity allows. -/
structure Orderly (pool : Pool slots size) : Prop where
  index_eq : ∀ (i : Fin slots) (id : TransferId), (pool.slotAt i).transferId? = some id →
    index slots id = i
  size_pos : ∀ i : Fin slots, (pool.slotAt i).isInFlight = true → 0 < (pool.slotAt i).size
  size_le : ∀ i : Fin slots, (pool.slotAt i).isInFlight = true →
    (pool.slotAt i).size ≤ pool.capacity

namespace Orderly

theorem of_free (h : ∀ i : Fin slots, (pool.slotAt i).transferId? = none) : pool.Orderly where
  index_eq i id hid := by cases (h i).symm.trans hid
  size_pos i hi := by rw [Slot.isInFlight, h i] at hi; cases hi
  size_le i hi := by rw [Slot.isInFlight, h i] at hi; cases hi

theorem submit (h : pool.Orderly) {bytes : Nat} (hpos : 0 < bytes) (hle : bytes ≤ pool.capacity) :
    (pool.submit id bytes).Orderly where
  index_eq i other hother := by
    rw [slotAt_submit] at hother
    split_ifs at hother with hindex
    · obtain rfl := Option.some.inj hother
      exact hindex.symm
    · exact h.index_eq i other hother
  size_pos i hi := by
    rw [slotAt_submit] at hi ⊢
    split_ifs at hi ⊢
    · exact hpos
    · exact h.size_pos i hi
  size_le i hi := by
    rw [slotAt_submit] at hi ⊢
    split_ifs at hi ⊢
    · exact hle
    · exact h.size_le i hi

theorem release (h : pool.Orderly) (id : TransferId) : (pool.release id).Orderly := by
  have hheld : ∀ i : Fin slots, ((pool.release id).slotAt i).isInFlight = true →
      (pool.slotAt i).isInFlight = true := by
    intro i hi
    obtain ⟨other, hother⟩ := Option.isSome_iff_exists.1 hi
    exact Option.isSome_iff_exists.2 ⟨other, transferId?_of_release hother⟩
  refine ⟨fun i other hother => h.index_eq i other (transferId?_of_release hother), ?_, ?_⟩
  · intro i hi
    rw [size_release]
    exact h.size_pos i (hheld i hi)
  · intro i hi
    rw [size_release]
    exact h.size_le i (hheld i hi)

theorem releaseAll (pool : Pool slots size) : pool.releaseAll.Orderly :=
  of_free fun i => congrArg Slot.transferId? (pool.slotAt_releaseAll i)

end Orderly
end Pool

/-- What a driver has seen of its transfers: its newest one, how its latest look at the submit bit
went, and the done bits it read last, but for that of a submission that was still pending. -/
structure Sight where
  newest : Option TransferId := none
  look : Look := .unknown
  done : DoneBits := .none

namespace Sight

def read (sight : Sight) (offset : Offset) (value : Word) : Sight :=
  if offset = Register.submit then
    { sight with look := if value.hasAny submitBit then .pending sight.newest else .clear }
  else if offset = Register.done then { sight with done := sight.look.settle ⟨value⟩ }
  else sight

def after (sight : Sight) : Action → Sight
  | .read offset value => sight.read offset value
  | .submitted transfer => { newest := some transfer.id }
  | .released _ => {}
  | .write .. | .log _ | .offered _ | .delivered .. | .reclaimed _ | .delayed _ => sight

/-- What all of these actions have shown. -/
def replay (actions : List Action) : Sight := actions.foldl after {}

/-- The sight has at least what is known. -/
structure Covers (sight : Sight) (newest : Option TransferId) (known : Known) : Prop where
  newest_eq : sight.newest = newest
  look_eq : known.look ≠ .unknown → sight.look = known.look
  done_of : ∀ id, known.done.isDone id = true → sight.done.isDone id = true

variable {sight : Sight} {newest : Option TransferId} {known : Known}

/-- Nothing is known of any transfer. -/
theorem Covers.of_unknown (hnewest : sight.newest = newest) (hlook : known.look = .unknown)
    (hdone : known.done = .none) : sight.Covers newest known where
  newest_eq := hnewest
  look_eq h := absurd hlook h
  done_of id h := by
    rw [hdone, DoneBits.isDone_none] at h
    cases h

theorem Covers.read (h : sight.Covers newest known) (offset : Offset) (value : Word) :
    (sight.read offset value).Covers newest (known.learn newest offset value) := by
  unfold Sight.read Known.learn
  by_cases hsubmit : offset = Register.submit
  · rw [if_pos hsubmit, if_pos hsubmit, h.newest_eq]
    exact ⟨rfl, fun _ => rfl, h.done_of⟩
  by_cases hdone : offset = Register.done
  · rw [if_neg hsubmit, if_neg hsubmit, if_pos hdone, if_pos hdone]
    refine ⟨h.newest_eq, h.look_eq, fun id hid => ?_⟩
    have hlook : known.look ≠ .unknown := by
      intro hlook
      rw [hlook] at hid
      cases (DoneBits.isDone_none id).symm.trans hid
    rw [h.look_eq hlook]
    exact hid
  · rw [if_neg hsubmit, if_neg hsubmit, if_neg hdone, if_neg hdone]
    split_ifs <;> exact ⟨h.newest_eq, h.look_eq, h.done_of⟩

end Sight

/-- The transfer that was submitted last. -/
def lastSubmitted (actions : List Action) : Option Transfer :=
  (actions.filterMap Action.submission?).getLast?

section Concat

variable {actions : List Action} {action : Action}

theorem lastSubmitted_concat (h : action.submission? = none) :
    lastSubmitted (actions ++ [action]) = lastSubmitted actions := by
  simp [lastSubmitted, List.filterMap_append, h]

theorem lastSubmitted_submitted (transfer : Transfer) :
    lastSubmitted (actions ++ [.submitted transfer]) = some transfer := by
  simp [lastSubmitted, List.filterMap_append, Action.submission?]

end Concat

theorem Direction.register_injective : Function.Injective Direction.register := by
  intro direction other h
  cases direction <;> cases other <;> first | rfl | exact absurd h (by decide)

theorem Direction.register_ne_length (direction : Direction) :
    direction.register ≠ Register.length := by
  cases direction <;> decide

theorem Direction.register_ne_submit (direction : Direction) :
    direction.register ≠ Register.submit := by
  cases direction <;> decide

variable [HasSlots slots]

/-- The transfer is the newest of all, and its slot is in flight for it. -/
structure Driver.Marked (started : Driver slots size) (front : List Action) (transfer : Transfer) :
    Prop where
  last_eq : lastSubmitted front = some transfer
  slot_eq : (started.pool.replay front).slot transfer.id =
    ⟨transfer.length, .inFlight transfer.id⟩

/-- What an action has to be like that a driver takes after others since its start. -/
def Driver.Permits (started : Driver slots size) (front : List Action) : Action → Prop
  | .submitted transfer => ((started.pool.replay front).slot transfer.id).isInFlight = false ∧
    0 < transfer.length ∧ transfer.length ≤ started.capacity
  | .write offset value => (offset = Register.length → ∃ transfer, started.Marked front transfer ∧
      value = BitVec.ofNat 32 transfer.length - 1) ∧
    ∀ direction : Direction, offset = direction.register → ∃ transfer,
      started.Marked front transfer ∧ transfer.direction = direction ∧
        value = started.address transfer.id
  | .offered capacity => capacity = started.capacity
  | .delivered id data => data.size = min ((started.pool.replay front).slot id).size size ∧
    ((started.pool.replay front).slot id).transferId? = some id
  | .reclaimed id => (Sight.replay front).done.isDone id = true ∧
    ((started.pool.replay front).slot id).transferId? = some id
  | .read .. | .log _ | .released _ | .delayed _ => True

theorem Driver.permits_write {started : Driver slots size} {offset : Offset}
    (h : ¬ Register.IsTransfer offset) (front : List Action) (value : Word) :
    started.Permits front (.write offset value) :=
  ⟨fun hlength => absurd (.inl hlength) h,
    fun direction hregister => absurd (hregister ▸ direction.isTransfer_register) h⟩

/-- The actions of a deed. -/
def Deed.actions : Deed slots → List Action
  | .act action => [action]
  | _ => []

omit [HasSlots slots] in
theorem Deed.actions_cases (deed : Deed slots) :
    deed.actions = [] ∨ ∃ action, deed.actions = [action] := by
  cases deed with
  | act action => exact .inr ⟨action, rfl⟩
  | _ => exact .inl rfl

omit [HasSlots slots] in
theorem Deed.Serves.journal_eq [RegisterBus (World σ slots size)] {deed : Deed slots}
    {free : World σ slots size → World σ slots size → Prop} {port port' : Port (World σ slots size)}
    (h : deed.Serves free port port') :
    port'.journal.toList = port.journal.toList ++ deed.actions := by
  cases deed with
  | act action =>
    cases action with
    | read offset value =>
      rw [h.2]
      exact Array.toList_push ..
    | _ =>
      rw [show port' = _ from h]
      exact Array.toList_push ..
  | stored slot data =>
    rw [show port' = _ from h]
    exact (List.append_nil _).symm
  | meanwhile =>
    rw [h.2]
    exact (List.append_nil _).symm
  | inward =>
    rw [show port' = port from h]
    exact (List.append_nil _).symm

namespace Protocol

variable {d d' : Driver slots size} {k k' : Known} {deed : Deed slots} {front : List Action}

/-- The pool becomes what the actions say. -/
theorem pool_eq (h : Protocol d k deed d' k') (horderly : d.pool.Orderly) :
    d'.pool = d.pool.replay deed.actions := by
  cases h with
  | remark action hremark => cases action <;> first | exact hremark.elim | rfl
  | reclaim id previous hdone hslot =>
    exact Pool.release_of_index (horderly.index_eq _ previous hslot).symm
  | _ => rfl

theorem orderly (h : Protocol d k deed d' k') (hpos : 0 < d.capacity) (horderly : d.pool.Orderly) :
    d'.pool.Orderly := by
  cases h with
  | mark transfer hclear hnext hdraft hadmits =>
    exact horderly.submit (hadmits.length_pos hpos) hadmits.length_le
  | deliver id data hdone hslot => exact horderly.release id
  | reclaim id previous hdone hslot => exact horderly.release id
  | restart => exact .releaseAll d.pool
  | _ => exact horderly

/-- A submission that is on its way is the newest of all until the hardware knows of it. -/
theorem last_eq (h : Protocol d k deed d' k')
    (hold : ∀ transfer, k.draft.transfer? = some transfer → lastSubmitted front = some transfer) :
    ∀ transfer, k'.draft.transfer? = some transfer →
      lastSubmitted (front ++ deed.actions) = some transfer := by
  intro transfer hdraft
  cases h with
  | read offset value hnone => simp [hnone, Draft.transfer?] at hdraft
  | remark action hremark =>
    refine (lastSubmitted_concat ?_).trans (hold transfer hdraft)
    cases action <;> first | exact hremark.elim | rfl
  | irq | acyclic | pause | resume | enable | deliver | reclaim =>
    exact (lastSubmitted_concat rfl).trans (hold transfer hdraft)
  | disable | queue => cases hdraft
  | mark marked =>
    obtain rfl := Option.some.inj hdraft
    exact lastSubmitted_submitted marked
  | measure measured hmarked =>
    exact (lastSubmitted_concat rfl).trans (hold transfer (by rw [hmarked]; exact hdraft))
  | direct directed hmeasured =>
    exact (lastSubmitted_concat rfl).trans (hold transfer (by rw [hmeasured]; exact hdraft))
  | restart _ _ hnone => simp [hnone, Draft.transfer?] at hdraft
  | adopt _ _ hnone => simp [hnone, Draft.transfer?] at hdraft
  | fill | meanwhile | turn | stream =>
    change lastSubmitted (front ++ []) = some transfer
    rw [List.append_nil]
    exact hold transfer hdraft

/-- Nothing is known that was not seen. -/
theorem covers (h : Protocol d k deed d' k') {sight : Sight} (hold : sight.Covers d.newest k) :
    (deed.actions.foldl Sight.after sight).Covers d'.newest k' := by
  cases h with
  | read offset value hnone => exact hold.read offset value
  | remark action hremark => cases action <;> first | exact hremark.elim | exact hold
  | disable | queue | adopt => exact .of_unknown hold.newest_eq rfl rfl
  | mark | restart => exact .of_unknown rfl rfl rfl
  | irq | acyclic | pause | resume | enable | measure | direct =>
    exact ⟨hold.newest_eq, hold.look_eq, hold.done_of⟩
  | deliver | reclaim | fill | meanwhile | turn | stream => exact hold

end Protocol

/-- The journal tells how the driver has come from its start to this scene. -/
structure Recounts (started : Driver slots size) (s : Scene σ slots size) : Prop where
  pool_eq : s.driver.pool = started.pool.replay s.port.journal.toList
  config_eq : s.driver.config = started.config
  orderly : ∀ front, front <+: s.port.journal.toList → (started.pool.replay front).Orderly
  permits : Throughout started.Permits s.port.journal.toList
  drafted : ∀ transfer, s.known.draft.transfer? = some transfer →
    Drafted s.driver s.known transfer
  last_eq : ∀ transfer, s.known.draft.transfer? = some transfer →
    lastSubmitted s.port.journal.toList = some transfer
  covers : (Sight.replay s.port.journal.toList).Covers s.driver.newest s.known

namespace Recounts

variable {started : Driver slots size} {s s' : Scene σ slots size}

/-- A driver that has just been started has nothing to tell. -/
theorem fresh (h : started.Fresh) (world : World σ slots size) :
    Recounts started ⟨started, {}, ⟨world, #[]⟩⟩ where
  pool_eq := rfl
  config_eq := rfl
  orderly front hfront := by
    obtain rfl : front = [] := List.prefix_nil.1 hfront
    exact .of_free fun i => congrArg Slot.transferId? (h.slotAt_eq i)
  permits := .nil
  drafted := nofun
  last_eq := nofun
  covers := .of_unknown h.newest_eq.symm rfl rfl

theorem capacity_eq (h : Recounts started s) : s.driver.capacity = started.capacity := by
  unfold Driver.capacity
  rw [h.pool_eq, Pool.capacity_replay]

theorem address_eq (h : Recounts started s) (id : TransferId) :
    s.driver.address id = started.address id := by
  unfold Driver.address Pool.deviceAddress Pool.hostAddress
  rw [h.config_eq, h.pool_eq, Pool.base_replay]

theorem orderly_pool (h : Recounts started s) : s.driver.pool.Orderly :=
  h.pool_eq ▸ h.orderly _ List.prefix_rfl

theorem marked (h : Recounts started s) {transfer : Transfer}
    (hdraft : s.known.draft.transfer? = some transfer) :
    started.Marked s.port.journal.toList transfer where
  last_eq := h.last_eq transfer hdraft
  slot_eq := by
    rw [← h.pool_eq]
    exact (h.drafted transfer hdraft).slot_eq

/-- A deed takes an action that is permitted. -/
theorem permits_deed (h : Recounts started s) (hpos : 0 < started.capacity) {deed : Deed slots}
    {d : Driver slots size} {k : Known} (hprotocol : Protocol s.driver s.known deed d k)
    (hshows : deed.Shows s.driver s.port.world.memory) :
    ∀ action ∈ deed.actions, started.Permits s.port.journal.toList action := by
  cases hprotocol with
  | fill | meanwhile | adopt | turn | stream => exact List.forall_mem_nil _
  | read | restart => exact List.forall_mem_singleton.2 trivial
  | remark action hremark =>
    refine List.forall_mem_singleton.2 ?_
    cases action with
    | offered capacity => exact hshows.trans h.capacity_eq
    | log | delayed => trivial
    | _ => exact hremark.elim
  | irq offset value hoffset =>
    refine List.forall_mem_singleton.2 (Driver.permits_write ?_ _ _)
    rcases hoffset with rfl | rfl <;> decide
  | acyclic | pause | resume | enable | disable =>
    exact List.forall_mem_singleton.2 (Driver.permits_write (by decide) _ _)
  | queue =>
    refine List.forall_mem_singleton.2 ⟨fun hlength => ?_, fun direction hregister => ?_⟩
    · exact absurd hlength (by decide)
    · exact absurd hregister.symm direction.register_ne_submit
  | mark transfer hclear hnext hdraft hadmits =>
    refine List.forall_mem_singleton.2 ⟨?_, ?_, ?_⟩
    · rw [← h.pool_eq]
      exact hadmits.free
    · exact hadmits.length_pos (h.capacity_eq ▸ hpos)
    · exact h.capacity_eq ▸ hadmits.length_le
  | measure transfer hmarked =>
    refine List.forall_mem_singleton.2 ⟨fun _ => ?_, fun direction hregister => ?_⟩
    · exact ⟨transfer, h.marked (by rw [hmarked]; rfl), rfl⟩
    · exact absurd hregister.symm direction.register_ne_length
  | direct transfer hmeasured =>
    have hdraft : s.known.draft.transfer? = some transfer := by rw [hmeasured]; rfl
    refine List.forall_mem_singleton.2 ⟨fun hlength => ?_, fun direction hregister => ?_⟩
    · exact absurd hlength transfer.direction.register_ne_length
    · refine ⟨transfer, h.marked hdraft, Direction.register_injective hregister, ?_⟩
      exact (h.drafted transfer hdraft).address_eq.trans (h.address_eq transfer.id)
  | deliver id data hdone hslot =>
    refine List.forall_mem_singleton.2 ⟨?_, ?_⟩
    · rw [← h.pool_eq, show data = _ from hshows]
      exact Memory.size_bytes ..
    · rw [← h.pool_eq]
      exact hslot
  | reclaim id previous hdone hslot =>
    refine List.forall_mem_singleton.2 ⟨h.covers.done_of previous hdone, ?_⟩
    rw [← h.pool_eq, Pool.slot_of_index _ (h.orderly_pool.index_eq _ previous hslot)]
    exact hslot

variable [RegisterBus (World σ slots size)] {free : World σ slots size → World σ slots size → Prop}

theorem step (h : Recounts started s) (hfresh : started.Fresh) (hstep : Step free s s') :
    Recounts started s' := by
  obtain ⟨deed, hprotocol, hserves, hshows⟩ := hstep
  have hpos : 0 < s.driver.capacity := h.capacity_eq ▸ hfresh.capacity_pos
  have hle : s.driver.capacity ≤ transferLimit := h.capacity_eq ▸ hfresh.capacity_le
  have horderly := h.orderly_pool
  have hjournal := hserves.journal_eq
  have hpool : s'.driver.pool = started.pool.replay s'.port.journal.toList := by
    rw [hjournal, Pool.replay_append, ← h.pool_eq]
    exact hprotocol.pool_eq horderly
  have horderly' := hpool ▸ hprotocol.orderly hpos horderly
  have hpermits := h.permits_deed hfresh.capacity_pos hprotocol hshows
  refine ⟨hpool, hprotocol.config_eq.trans h.config_eq, ?_, ?_,
    hprotocol.drafted hpos hle h.drafted, ?_, ?_⟩
  · intro front hfront
    rw [hjournal] at hfront horderly'
    rcases deed.actions_cases with hactions | ⟨action, hactions⟩ <;>
      rw [hactions] at hfront horderly'
    · exact h.orderly front (by rwa [List.append_nil] at hfront)
    · rcases List.prefix_concat_iff.1 hfront with rfl | hfront
      · exact horderly'
      · exact h.orderly front hfront
  · rw [hjournal]
    rcases deed.actions_cases with hactions | ⟨action, hactions⟩ <;> rw [hactions] at hpermits ⊢
    · rw [List.append_nil]
      exact h.permits
    · exact h.permits.concat (hpermits action List.mem_cons_self)
  · rw [hjournal]
    exact hprotocol.last_eq h.last_eq
  · rw [hjournal, Sight.replay, List.foldl_append]
    exact hprotocol.covers h.covers

theorem path (h : Recounts started s) (hfresh : started.Fresh) (hpath : Path free s s') :
    Recounts started s' := by
  induction hpath with
  | refl => exact h
  | tail _ hstep ih => exact ih.step hfresh hstep

end Recounts

section Operations

variable [RegisterBus (World σ slots size)] [InterruptLine (World σ slots size)]
variable {α : Type} {s : Scene σ slots size}

/-- No operation leaves a submission on its way behind. -/
theorem Operation.leads {program : DriverM σ slots size α} (h : Operation program)
    (hdraft : s.known.draft = .none) :
    Leads (fun _ _ => True) program (fun _ s' => s'.known.draft = .none) s :=
  h.task.leads hdraft

/-- Where a driver and its bus come to from where it was started: operations are made of it in any
order, and between two of them anything may become of the world. -/
inductive Onward (started : Driver slots size) (port₀ : Port (World σ slots size)) :
    Driver slots size → Port (World σ slots size) → Prop
  | start : Onward started port₀ started port₀
  | perform {driver : Driver slots size} {port : Port (World σ slots size)} {α : Type}
      {program : DriverM σ slots size α} (h : Onward started port₀ driver port)
      (hprogram : Operation program) :
      Onward started port₀ (program.outcome driver port).1.2 (program.outcome driver port).2
  | meanwhile {driver : Driver slots size} {port : Port (World σ slots size)}
      (h : Onward started port₀ driver port) (world : World σ slots size) :
      Onward started port₀ driver { port with world }

namespace Onward

variable {world : World σ slots size} {config : Config} {pool : Pool slots size}
variable {started driver : Driver slots size} {port₀ port : Port (World σ slots size)}

/-- A run is a path of the protocol, from before the start on. -/
theorem path (h : Onward started port₀ driver port)
    (hstart : (Driver.start config pool).run ⟨world, #[]⟩ = (.ok started, port₀)) :
    ∃ known, known.draft = .none ∧
      Path (fun _ _ => True) ⟨started, {}, ⟨world, #[]⟩⟩ ⟨driver, known, port⟩ := by
  induction h with
  | start =>
    let before : Scene σ slots size := ⟨started, {}, ⟨world, #[]⟩⟩
    obtain ⟨known, hpath, hstays, -⟩ : Leads (fun _ _ => True) _ _ before :=
      Driver.start_leads config pool rfl
    rw [Driver.outcome_onBus, hstart] at hpath hstays
    exact ⟨known, hstays.draft_eq, hpath⟩
  | @perform driver port _ program _ hprogram ih =>
    obtain ⟨known, hdraft, hpath⟩ := ih
    obtain ⟨later, hpath', hdraft'⟩ : Leads (fun _ _ => True) program _ ⟨driver, known, port⟩ :=
      hprogram.leads hdraft
    exact ⟨later, hdraft', hpath.trans hpath'⟩
  | meanwhile _ world ih =>
    obtain ⟨known, hdraft, hpath⟩ := ih
    exact ⟨known, hdraft, hpath.tail ⟨.meanwhile, .meanwhile _ _, ⟨trivial, rfl⟩, trivial⟩⟩

theorem recounts (h : Onward started port₀ driver port)
    (hstart : (Driver.start config pool).run ⟨world, #[]⟩ = (.ok started, port₀)) :
    ∃ known, Recounts started ⟨driver, known, port⟩ := by
  obtain ⟨known, -, hpath⟩ := h.path hstart
  have hfresh := Driver.start_fresh hstart
  exact ⟨known, (Recounts.fresh hfresh world).path hfresh hpath⟩

end Onward
end Operations
end DmaController

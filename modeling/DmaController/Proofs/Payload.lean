import DmaController.Proofs.Representation
import DmaController.Proofs.Turnover

/-!
Payloads come back unaltered. A slot that is in flight belongs to nobody but the device: the driver
fills only the slot of the next id, and only while it is free. So as long as the device stores
nothing into a slot, its bytes and its size stay as they are until it is taken back, whatever is
asked of the driver meanwhile. Main statement: the first action that takes a slot back either passes
on exactly what was filled into it, or is a reclaim of a transfer that was seen done, or a release
of all slots.
-/
namespace DmaController

open Sim

variable {σ : Type} {slots size : Nat} {slot : Fin slots}

theorem Memory.bytes_of_buffer {memory memory' : Memory slots size}
    (h : memory'.buffers.get slot = memory.buffers.get slot) {count : Nat} :
    memory'.bytes slot count = memory.bytes slot count :=
  congrArg (fun buffer => buffer.toArray.extract 0 count) h

namespace Sim

/-- The stimulus stores nothing into this buffer. -/
def Stimulus.Spares (slot : Fin slots) : Stimulus → Prop
  | store other _ _ => other ≠ slot.val
  | _ => True

/-- No stimulus of the script stores anything into this buffer. -/
def Script.Spares (slot : Fin slots) (script : Script) : Prop :=
  ∀ occasion time, ∀ stimulus ∈ script occasion time, stimulus.Spares slot

/-- The world moved and left a buffer alone, if its script spares that; and then it still does. -/
def Avoids (slot : Fin slots) (world world' : World Bench slots size) : Prop :=
  world.device.script.Spares slot → world'.device.script.Spares slot ∧
    world'.memory.buffers.get slot = world.memory.buffers.get slot

variable {world world' world'' : World Bench slots size}

namespace Avoids

theorem refl (world : World Bench slots size) : Avoids slot world world := fun h => ⟨h, rfl⟩

theorem trans (h : Avoids slot world world') (h' : Avoids slot world' world'') :
    Avoids slot world world'' := by
  intro hspares
  obtain ⟨hspares, hbuffer⟩ := h hspares
  obtain ⟨hspares, hbuffer'⟩ := h' hspares
  exact ⟨hspares, hbuffer'.trans hbuffer⟩

theorem stimulate (world : World Bench slots size) {stimulus : Stimulus}
    (h : stimulus.Spares slot) : Avoids slot world (Sim.stimulate world stimulus) := by
  refine fun hspares => ⟨hspares, ?_⟩
  cases stimulus with
  | store other start data =>
    by_cases hother : other < slots
    · have hne : slot ≠ ⟨other, hother⟩ := fun heq => h (congrArg Fin.val heq).symm
      simp only [Sim.stimulate, Stimulus.onMemory, dif_pos hother]
      exact world.memory.buffer_store_of_ne hne start data
    · simp [Sim.stimulate, Stimulus.onMemory, hother]
  | _ => rfl

theorem foldl_stimulate (stimuli : List Stimulus) (world : World Bench slots size)
    (h : ∀ stimulus ∈ stimuli, stimulus.Spares slot) :
    Avoids slot world (stimuli.foldl Sim.stimulate world) := by
  induction stimuli generalizing world with
  | nil => exact .refl world
  | cons stimulus stimuli ih =>
    obtain ⟨hfirst, hrest⟩ := List.forall_mem_cons.1 h
    exact (Avoids.stimulate world hfirst).trans (ih _ hrest)

theorem occur (occasion : Occasion) (world : World Bench slots size) :
    Avoids slot world (Sim.occur occasion world) := by
  intro hspares
  let met : World Bench slots size := { world with device := world.device.meet occasion }
  exact foldl_stimulate _ met (hspares occasion _) hspares

theorem read (offset : Offset) (world : World Bench slots size) :
    Avoids slot world (RegisterBus.read offset world).2 := occur (.read offset) world

theorem write (offset : Offset) (value : Word) (world : World Bench slots size) :
    Avoids slot world (RegisterBus.write offset value world) := occur (.write offset) world

theorem note (action : Action) (world : World Bench slots size) :
    Avoids slot world (RegisterBus.note action world) := fun h => ⟨h, rfl⟩

end Avoids
end Sim

/-- The action takes this slot back. -/
def Action.takes [HasSlots slots] (slot : Fin slots) : Action → Bool
  | .delivered id _ | .reclaimed id => Pool.index slots id == slot
  | .released _ => true
  | _ => false

section Steps

variable [HasSlots slots] {d d' : Driver slots size} {k k' : Known} {deed : Deed slots}
variable {id : TransferId}

/-- A slot in flight stays as it is, if the step does not take it back. -/
theorem Protocol.slotAt_eq (h : Protocol d k deed d' k') (horderly : d.pool.Orderly)
    (hheld : (d.pool.slotAt slot).isInFlight = true)
    (hnone : deed.actions.find? (Action.takes slot) = none) :
    d'.pool.slotAt slot = d.pool.slotAt slot := by
  have hleft : ∀ action, deed.actions = [action] → Action.takes slot action = false := by
    intro action hactions
    rw [hactions] at hnone
    simpa using List.find?_eq_none.1 hnone action List.mem_cons_self
  cases h with
  | mark transfer hclear hnext hdraft hadmits =>
    have hne : slot ≠ Pool.index slots transfer.id := by
      rintro rfl
      cases hheld.symm.trans hadmits.free
    exact (d.pool.slotAt_submit ..).trans (if_neg hne)
  | deliver id data hdone hslot =>
    have hne : Pool.index slots id ≠ slot := by simpa [Action.takes] using hleft _ rfl
    exact (d.pool.slotAt_release ..).trans (if_neg hne.symm)
  | reclaim id previous hdone hslot =>
    have hne : Pool.index slots previous ≠ slot := by simpa [Action.takes] using hleft _ rfl
    rw [horderly.index_eq _ previous hslot] at hne
    exact (d.pool.slotAt_release ..).trans (if_neg hne.symm)
  | restart => cases hleft _ rfl
  | _ => rfl

/-- A step that takes a slot back passes on its bytes, or drops them. -/
theorem Protocol.taken (h : Protocol d k deed d' k') (horderly : d.pool.Orderly)
    {memory : Memory slots size} (hshows : deed.Shows d memory)
    (hid : (d.pool.slotAt slot).transferId? = some id) {action : Action}
    (hsome : deed.actions.find? (Action.takes slot) = some action) :
    action = .delivered id (memory.bytes slot (d.pool.slotAt slot).size) ∨
      action = .reclaimed id ∨ ∃ count, action = .released count := by
  have hmem := List.mem_of_find?_eq_some hsome
  have htakes := List.find?_some hsome
  cases h with
  | deliver other data hdone hslot =>
    obtain rfl := List.mem_singleton.1 hmem
    obtain rfl : Pool.index slots other = slot := by simpa [Action.takes] using htakes
    obtain rfl : other = id := Option.some.inj (hslot.symm.trans hid)
    exact .inl (congrArg _ hshows)
  | reclaim other previous hdone hslot =>
    obtain rfl := List.mem_singleton.1 hmem
    obtain rfl : Pool.index slots previous = slot := by simpa [Action.takes] using htakes
    rw [horderly.index_eq _ previous hslot] at hid
    obtain rfl : previous = id := Option.some.inj (hslot.symm.trans hid)
    exact .inr (.inl rfl)
  | restart =>
    obtain rfl := List.mem_singleton.1 hmem
    exact .inr (.inr ⟨_, rfl⟩)
  | remark other hremark =>
    obtain rfl := List.mem_singleton.1 hmem
    cases action <;> first | exact hremark.elim | cases htakes
  | fill | meanwhile | adopt | turn | stream => cases hmem
  | _ =>
    obtain rfl := List.mem_singleton.1 hmem
    cases htakes

/-- A slot in flight is not filled. -/
theorem Protocol.stored_ne {other : Fin slots} {data : Bytes}
    (h : Protocol d k (.stored other data) d' k')
    (hheld : (d.pool.slotAt slot).isInFlight = true) : other ≠ slot := by
  cases h with
  | fill id data hnext hfree =>
    rintro rfl
    cases hheld.symm.trans hfree

omit [HasSlots slots] in
theorem Deed.Serves.avoids {port port' : Port (World Bench slots size)}
    (h : deed.Serves (Avoids slot) port port') (hstored : ∀ data, deed ≠ .stored slot data) :
    Avoids slot port.world port'.world := by
  cases deed with
  | act action =>
    cases action with
    | read offset value =>
      rw [h.2]
      exact .read offset _
    | write offset value =>
      rw [show port' = _ from h]
      exact .write offset value _
    | _ =>
      rw [show port' = _ from h]
      exact .note _ _
  | stored other data =>
    rw [show port' = _ from h]
    have hne : slot ≠ other := by
      rintro rfl
      exact hstored data rfl
    exact fun hspares => ⟨hspares, Memory.buffer_store_of_ne _ hne 0 data⟩
  | meanwhile => exact h.1
  | inward =>
    rw [show port' = port from h]
    exact .refl _

omit [HasSlots slots] in
theorem Deed.Serves.spares {port port' : Port (World Bench slots size)}
    (h : deed.Serves (Avoids slot) port port') (hspares : port.world.device.script.Spares slot) :
    port'.world.device.script.Spares slot := by
  by_cases hstored : ∃ data, deed = .stored slot data
  · obtain ⟨data, rfl⟩ := hstored
    rw [show port' = _ from h]
    exact hspares
  · exact (h.avoids (fun data heq => hstored ⟨data, heq⟩) hspares).1

end Steps

/-- What became of a slot in flight while these actions were taken: it was left alone until one of
them took it back, and what a delivery passed on are exactly its bytes. -/
structure Rig.Guarded [HasSlots slots] (slot : Fin slots) (id : TransferId)
    (rig later : Rig slots size) (actions : List Action) : Prop where
  journal_eq : later.port.journal.toList = rig.port.journal.toList ++ actions
  slot_eq : actions.find? (Action.takes slot) = none →
    later.driver.pool.slotAt slot = rig.driver.pool.slotAt slot
  buffer_eq : actions.find? (Action.takes slot) = none →
    later.port.world.memory.buffers.get slot = rig.port.world.memory.buffers.get slot
  taken : ∀ action, actions.find? (Action.takes slot) = some action →
    action = .delivered id
        (rig.port.world.memory.bytes slot (rig.driver.pool.slotAt slot).size) ∨
      action = .reclaimed id ∨ ∃ count, action = .released count

/-- A driver at work, without what it knows. -/
def Scene.rig (s : Scene Bench slots size) : Rig slots size := ⟨s.driver, s.port⟩

variable [HasSlots slots] {id : TransferId}

namespace Rig.Guarded

variable {rig middle later : Rig slots size} {actions more : List Action}

theorem refl (rig : Rig slots size) : Guarded slot id rig rig [] where
  journal_eq := (List.append_nil _).symm
  slot_eq _ := rfl
  buffer_eq _ := rfl
  taken := nofun

/-- What comes after a slot was taken back does not matter. -/
theorem trans (h : Guarded slot id rig middle actions)
    (hid : (rig.driver.pool.slotAt slot).transferId? = some id)
    (hjournal : later.port.journal.toList = middle.port.journal.toList ++ more)
    (h' : (middle.driver.pool.slotAt slot).transferId? = some id →
      Guarded slot id middle later more) : Guarded slot id rig later (actions ++ more) := by
  have happend : later.port.journal.toList = rig.port.journal.toList ++ (actions ++ more) := by
    rw [hjournal, h.journal_eq, List.append_assoc]
  cases hfind : actions.find? (Action.takes slot) with
  | some first =>
    refine ⟨happend, ?_, ?_, ?_⟩ <;> rw [List.find?_append, hfind]
    · exact nofun
    · exact nofun
    · intro action haction
      exact h.taken action (hfind.trans haction)
  | none =>
    have hslot := h.slot_eq hfind
    have hbuffer := h.buffer_eq hfind
    have hrest := h' (by rw [hslot, hid])
    refine ⟨happend, ?_, ?_, ?_⟩ <;> rw [List.find?_append, hfind, Option.none_or]
    · exact fun hnone => (hrest.slot_eq hnone).trans hslot
    · exact fun hnone => (hrest.buffer_eq hnone).trans hbuffer
    · intro action haction
      have hbytes : middle.port.world.memory.bytes slot (middle.driver.pool.slotAt slot).size =
          rig.port.world.memory.bytes slot (rig.driver.pool.slotAt slot).size := by
        rw [hslot, Memory.bytes_of_buffer hbuffer]
      exact hbytes ▸ hrest.taken action haction

end Rig.Guarded

variable {started : Driver slots size} {s s' : Scene Bench slots size}

theorem Path.spares (h : Path (Avoids slot) s s')
    (hspares : s.port.world.device.script.Spares slot) :
    s'.port.world.device.script.Spares slot := by
  induction h with
  | refl => exact hspares
  | tail _ hstep ih =>
    obtain ⟨deed, -, hserves, -⟩ := hstep
    exact hserves.spares ih

theorem Step.guarded (h : Step (Avoids slot) s s') (hs : Recounts started s)
    (hspares : s.port.world.device.script.Spares slot) :
    ∃ actions, s'.port.journal.toList = s.port.journal.toList ++ actions ∧
      ((s.driver.pool.slotAt slot).transferId? = some id →
        Rig.Guarded slot id s.rig s'.rig actions) := by
  obtain ⟨deed, hprotocol, hserves, hshows⟩ := h
  have horderly := hs.orderly_pool
  refine ⟨deed.actions, hserves.journal_eq, fun hid => ?_⟩
  have hheld : (s.driver.pool.slotAt slot).isInFlight = true :=
    Option.isSome_iff_exists.2 ⟨id, hid⟩
  have hstored : ∀ data, deed ≠ .stored slot data := by
    rintro data rfl
    exact hprotocol.stored_ne hheld rfl
  exact ⟨hserves.journal_eq, hprotocol.slotAt_eq horderly hheld,
    fun _ => (hserves.avoids hstored hspares).2,
    fun action => hprotocol.taken horderly hshows hid⟩

/-- A slot in flight is guarded along every path. -/
theorem Path.guarded (h : Path (Avoids slot) s s') (hs : Recounts started s)
    (hfresh : started.Fresh) (hspares : s.port.world.device.script.Spares slot)
    (hid : (s.driver.pool.slotAt slot).transferId? = some id) :
    ∃ actions, Rig.Guarded slot id s.rig s'.rig actions := by
  induction h with
  | refl => exact ⟨[], .refl _⟩
  | tail hpath hstep ih =>
    obtain ⟨actions, hguarded⟩ := ih
    obtain ⟨more, hjournal, hmore⟩ :=
      hstep.guarded (hs.path hfresh hpath) (Path.spares hpath hspares)
    exact ⟨actions ++ more, hguarded.trans hid hjournal hmore⟩

namespace Rig

/-- Where a driver on a bench may come to from here while the device stores nothing into a slot. -/
inductive Sparing (slot : Fin slots) (rig : Rig slots size) : Rig slots size → Prop
  | refl : Sparing slot rig rig
  | call {later : Rig slots size} (h : Sparing slot rig later) (call : Call) :
      Sparing slot rig (call.perform later)
  | stimulus {later : Rig slots size} (h : Sparing slot rig later) (stimulus : Stimulus)
      (hspares : stimulus.Spares slot) : Sparing slot rig (later.stimulate stimulus)
  | follow {later : Rig slots size} (h : Sparing slot rig later) (script : Script)
      (hspares : script.Spares slot) : Sparing slot rig (later.follow script)

variable {rig later : Rig slots size} {known : Known}

theorem call_path (slot : Fin slots) (call : Call) (hdraft : known.draft = .none) :
    ∃ known', known'.draft = .none ∧
      Path (Avoids slot) (rig.scene known) ((call.perform rig).scene known') := by
  have hends : (rig.scene known).Ends known.phase := ⟨hdraft, .inr rfl⟩
  have hline : ∀ world : World Bench slots size,
      Avoids slot world (InterruptLine.acknowledge world) := fun _ hspares => ⟨hspares, rfl⟩
  have hsink : ∀ (sink : Word) (world : World Bench slots size),
      Avoids slot world (InterruptLine.registerSink sink world) := fun _ _ hspares => ⟨hspares, rfl⟩
  obtain ⟨known', hpath, hends'⟩ := call.leads Avoids.occur hline hsink hends
  exact ⟨known', hends'.draft_eq, hpath⟩

theorem Sparing.path (h : Sparing slot rig later) (hdraft : known.draft = .none) :
    ∃ known', known'.draft = .none ∧
      Path (Avoids slot) (rig.scene known) (later.scene known') := by
  induction h with
  | refl => exact ⟨known, hdraft, .refl⟩
  | call _ call ih =>
    obtain ⟨middle, hdraft, hpath⟩ := ih
    obtain ⟨known', hdraft', hpath'⟩ := call_path slot call hdraft
    exact ⟨known', hdraft', hpath.trans hpath'⟩
  | stimulus _ stimulus hspares ih =>
    obtain ⟨known', hdraft, hpath⟩ := ih
    exact ⟨known', hdraft, hpath.tail
      ⟨.meanwhile, .meanwhile _ _, ⟨.stimulate _ hspares, rfl⟩, trivial⟩⟩
  | follow _ script hspares ih =>
    obtain ⟨known', hdraft, hpath⟩ := ih
    exact ⟨known', hdraft, hpath.tail
      ⟨.meanwhile, .meanwhile _ _, ⟨fun _ => ⟨hspares, rfl⟩, rfl⟩, trivial⟩⟩

end Rig

namespace Driver

section Answers

variable [RegisterBus (World σ slots size)] {source : Producer (World σ slots size)}
variable {driver : Driver slots size} {port : Port (World σ slots size)}

/-- An outbound transfer is queued by claiming its slot, filling it with a possible length, and
submitting that. -/
theorem send_ok (h : ((send source).outcome driver port).1.1 = .ok id) :
    let claimed := claimSlot.outcome driver port
    let filled := (fill source id).outcome claimed.1.2 claimed.2
    claimed.1.1 = .ok id ∧ filled.1.1 ≤ claimed.1.2.capacity ∧
      ((send source).outcome driver port).1.2 =
        ((submit .outbound id filled.1.1).outcome filled.1.2 filled.2).1.2 ∧
      ((send source).outcome driver port).2 =
        ((submit .outbound id filled.1.1).outcome filled.1.2 filled.2).2 := by
  unfold send at h ⊢
  rw [DriverM.outcome_bind] at h ⊢
  generalize claimSlot.outcome driver port = claimed at h ⊢
  obtain ⟨⟨answer, driver'⟩, port'⟩ := claimed
  cases answer with
  | error cause => cases h
  | ok other =>
    dsimp only at h ⊢
    rw [DriverM.outcome_bind, DriverM.outcome_get] at h ⊢
    split_ifs at h ⊢ with hlong hzero
    · cases h
    · cases h
    · obtain rfl := Except.ok.inj h
      exact ⟨rfl, Nat.not_lt.1 hlong, rfl, rfl⟩

theorem sendAndWait_ok {limit : Nat}
    (h : ((sendAndWait limit source).outcome driver port).1.1 = some (.ok id)) :
    let sent := (send source).outcome driver port
    sent.1.1 = .ok id ∧
      ((sendAndWait limit source).outcome driver port).1.2 =
        ((awaitAccepted limit).outcome sent.1.2 sent.2).1.2 ∧
      ((sendAndWait limit source).outcome driver port).2 =
        ((awaitAccepted limit).outcome sent.1.2 sent.2).2 := by
  unfold sendAndWait at h ⊢
  rw [DriverM.outcome_bind] at h ⊢
  generalize (send source).outcome driver port = sent at h ⊢
  obtain ⟨⟨answer, driver'⟩, port'⟩ := sent
  cases answer with
  | error cause => cases h
  | ok other =>
    dsimp only at h ⊢
    rw [DriverM.outcome_bind] at h ⊢
    split_ifs at h ⊢
    · obtain rfl := Except.ok.inj (Option.some.inj h)
      exact ⟨rfl, rfl, rfl⟩
    · cases h

end Answers

theorem submit_avoids (direction : Direction) (bytes : Nat) (driver : Driver slots size)
    (port : Port (World Bench slots size)) :
    Avoids slot port.world ((submit direction id bytes).outcome driver port).2.world := by
  cases direction <;>
    exact (Avoids.note _ _).trans <| (Avoids.write _ _ _).trans <| (Avoids.write _ _ _).trans <|
      (Avoids.write _ _ _).trans (.note _ _)

omit [HasSlots slots] in
theorem awaitAccepted_avoids (slot : Fin slots) (limit : Nat) (driver : Driver slots size)
    (port : Port (World Bench slots size)) :
    ((awaitAccepted limit).outcome driver port).1.2 = driver ∧
      Avoids slot port.world ((awaitAccepted limit).outcome driver port).2.world := by
  induction limit generalizing port with
  | zero => exact ⟨rfl, .refl _⟩
  | succ limit ih =>
    unfold awaitAccepted
    rw [DriverM.outcome_bind]
    split_ifs
    · obtain ⟨hdriver, havoids⟩ := ih ((onBus RegisterBlock.submitPending).outcome driver port).2
      exact ⟨hdriver, .trans (.read Register.submit _) havoids⟩
    · exact ⟨rfl, .read Register.submit _⟩

end Driver

namespace Rig

/-- What counts in the buffer of `id` after `produce` has filled it, if an outbound transfer is
requested now. -/
def filled (rig : Rig slots size) (produce : Bytes → Bytes × Nat) (id : TransferId) : Bytes :=
  let met := rig.run Driver.claimSlot
  let slot := Pool.index slots id
  let shown := met.port.world.memory.bytes slot met.driver.capacity
  (met.port.world.memory.store slot 0
    ((produce shown).1.extract 0 met.driver.capacity)).bytes slot (produce shown).2

/-- The slot of `id` is in flight under it with this data. -/
structure Carries (rig : Rig slots size) (id : TransferId) (data : Bytes) : Prop where
  slot_eq : rig.driver.pool.slot id = ⟨data.size, .inFlight id⟩
  bytes_eq : rig.port.world.memory.bytes (Pool.index slots id) data.size = data

theorem Carries.transferId?_eq {rig : Rig slots size} {data : Bytes} (h : rig.Carries id data) :
    (rig.driver.pool.slot id).transferId? = some id := by
  rw [h.slot_eq]
  rfl

/-- The data of a slot is what a delivery passes on that is the first to take the slot back. -/
theorem Carries.delivered {rig later : Rig slots size} {data : Bytes} {actions : List Action}
    (h : rig.Carries id data) (hguarded : Guarded (Pool.index slots id) id rig later actions)
    {other : TransferId} {passed : Bytes}
    (hfirst : actions.find? (Action.takes (Pool.index slots id)) = some (.delivered other passed)) :
    other = id ∧ passed = data := by
  rcases hguarded.taken _ hfirst with hdelivered | hreclaimed | ⟨count, hreleased⟩
  · obtain ⟨rfl, rfl⟩ := Action.delivered.inj hdelivered
    refine ⟨rfl, ?_⟩
    rw [show rig.driver.pool.slotAt _ = _ from h.slot_eq]
    exact h.bytes_eq
  · cases hreclaimed
  · cases hreleased

variable {rig : Rig slots size} {produce : Bytes → Bytes × Nat}

/-- A transfer that was queued is in its slot as it was filled. -/
theorem carries_of_send (hcapacity : (rig.run Driver.claimSlot).driver.capacity ≤ size)
    (hspares : (rig.run Driver.claimSlot).port.world.device.script.Spares (Pool.index slots id))
    (h : ((Driver.send ⟨produce, occur .fill⟩).outcome rig.driver rig.port).1.1 = .ok id) :
    (rig.run (Driver.send ⟨produce, occur .fill⟩)).Carries id (rig.filled produce id) := by
  obtain ⟨-, hle, hdriver, hport⟩ := Driver.send_ok h
  let met := rig.run Driver.claimSlot
  let shown := met.port.world.memory.bytes (Pool.index slots id) met.driver.capacity
  let stored : World Bench slots size :=
    { RegisterBus.note (.offered met.driver.capacity) met.port.world with
      memory := met.port.world.memory.store (Pool.index slots id) 0
        ((produce shown).1.extract 0 met.driver.capacity) }
  have hsize : (rig.filled produce id).size = (produce shown).2 :=
    (Memory.size_bytes ..).trans (Nat.min_eq_left (Nat.le_trans hle hcapacity))
  have havoids : Avoids (Pool.index slots id) stored
      (rig.run (Driver.send ⟨produce, occur .fill⟩)).port.world := by
    have hfilled : Avoids (Pool.index slots id) stored
        ((Driver.fill ⟨produce, occur .fill⟩ id).outcome met.driver met.port).2.world :=
      Avoids.occur .fill stored
    change Avoids _ _ ((Driver.send ⟨produce, occur .fill⟩).outcome rig.driver rig.port).2.world
    rw [hport]
    exact hfilled.trans (Driver.submit_avoids _ _ _ _)
  constructor
  · rw [hsize]
    exact (congrArg (fun driver => driver.pool.slot id) hdriver).trans
      (Pool.slot_submit_self met.driver.pool id (produce shown).2)
  · rw [hsize, Memory.bytes_of_buffer (havoids hspares).2]
    rfl

/-- A filler that claims just what it wrote leaves that. -/
theorem filled_eq {data : Bytes} (hproduce : ∀ shown, produce shown = (data, data.size))
    (hle : data.size ≤ (rig.run Driver.claimSlot).driver.capacity)
    (hcapacity : (rig.run Driver.claimSlot).driver.capacity ≤ size) :
    rig.filled produce id = data := by
  have hwhole : data.extract 0 (rig.run Driver.claimSlot).driver.capacity = data := by
    simpa using .inr hle
  simp only [filled, hproduce, hwhole]
  exact Memory.bytes_store _ _ data (Nat.le_trans hle hcapacity)

end Rig

/-- The call queues an outbound transfer that `produce` fills, and answers with its id. -/
def Call.Sends (rig : Rig slots size) (produce : Bytes → Bytes × Nat) (id : TransferId) :
    Call → Prop
  | .send source => source = produce ∧
    ((Driver.send ⟨source, occur .fill⟩).outcome rig.driver rig.port).1.1 = .ok id
  | .sendAndWait limit source => source = produce ∧
    ((Driver.sendAndWait limit ⟨source, occur .fill⟩).outcome rig.driver rig.port).1.1 =
      some (.ok id)
  | _ => False

section Sends

variable {rig : Rig slots size} {produce : Bytes → Bytes × Nat} {call : Call}

/-- Waiting for the hardware changes nothing about what was sent. -/
theorem Call.Sends.sent (h : call.Sends rig produce id) (slot : Fin slots) :
    ((Driver.send ⟨produce, occur .fill⟩).outcome rig.driver rig.port).1.1 = .ok id ∧
      (call.perform rig).driver = (rig.run (Driver.send ⟨produce, occur .fill⟩)).driver ∧
      Avoids slot (rig.run (Driver.send ⟨produce, occur .fill⟩)).port.world
        (call.perform rig).port.world := by
  cases call with
  | send source =>
    obtain ⟨rfl, h⟩ := h
    exact ⟨h, rfl, .refl _⟩
  | sendAndWait limit source =>
    obtain ⟨rfl, h⟩ := h
    obtain ⟨hsent, hdriver, hport⟩ := Driver.sendAndWait_ok h
    obtain ⟨hkept, havoids⟩ := Driver.awaitAccepted_avoids slot limit _ _
    refine ⟨hsent, hdriver.trans hkept, ?_⟩
    change Avoids _ _ ((Driver.sendAndWait limit ⟨source, occur .fill⟩).outcome _ _).2.world
    rw [hport]
    exact havoids
  | _ => exact h.elim

/-- What was sent is in its slot as it was filled, and nothing longer than the slot was claimed. -/
theorem Call.Sends.carries (h : call.Sends rig produce id)
    (hcapacity : (rig.run Driver.claimSlot).driver.capacity ≤ size)
    (hspares : (rig.run Driver.claimSlot).port.world.device.script.Spares (Pool.index slots id))
    (hlater : (rig.run (Driver.send ⟨produce, occur .fill⟩)).port.world.device.script.Spares
      (Pool.index slots id)) :
    (call.perform rig).Carries id (rig.filled produce id) := by
  obtain ⟨hsent, hdriver, havoids⟩ := h.sent (Pool.index slots id)
  obtain ⟨hslot, hbytes⟩ := Rig.carries_of_send hcapacity hspares hsent
  constructor
  · rw [hdriver]
    exact hslot
  · rw [Memory.bytes_of_buffer (havoids hlater).2]
    exact hbytes

variable {world : World Bench slots size} {config : Config} {pool : Pool slots size}
variable {port₀ : Port (World Bench slots size)}

/-- Payloads come back unaltered, whatever is asked of the driver and happens to the hardware, as
long as the device stores nothing into the slot. A slot in flight keeps its bytes and its size until
the first action that takes it back, and that passes on exactly its bytes, or reclaims the slot or
releases all of them. So what is delivered of an outbound transfer is what counts in its buffer
after it was filled. Only an outbound request reclaims a slot, and only one that is in flight for a
transfer whose done bit was seen. -/
theorem Rig.payload_unaltered (h : Onward started port₀ rig.driver rig.port)
    (hstart : (Driver.start config pool).run ⟨world, #[]⟩ = (.ok started, port₀)) :
    (∀ (slot : Fin slots) (id : TransferId) (later : Rig slots size),
      (rig.driver.pool.slotAt slot).transferId? = some id →
      rig.port.world.device.script.Spares slot → Sparing slot rig later →
      ∃ actions, Guarded slot id rig later actions) ∧
    (∀ (call : Call) (produce : Bytes → Bytes × Nat) (id : TransferId), call.Sends rig produce id →
      rig.port.world.device.script.Spares (Pool.index slots id) →
      (call.perform rig).Carries id (rig.filled produce id) ∧
      (∀ data, (∀ shown, produce shown = (data, data.size)) → rig.filled produce id = data) ∧
      ∀ later, Sparing (Pool.index slots id) (call.perform rig) later → ∃ actions,
        later.port.journal.toList = (call.perform rig).port.journal.toList ++ actions ∧
        ∀ other data,
          actions.find? (Action.takes (Pool.index slots id)) = some (.delivered other data) →
          other = id ∧ data = rig.filled produce id) ∧
    (∀ front id back, rig.port.journal.toList = front ++ .reclaimed id :: back →
      (Sight.replay front).done.isDone id = true ∧
        ((started.pool.replay front).slot id).transferId? = some id) ∧
    ∀ call : Call, ¬ call.IsOutbound → ∃ actions,
      (call.perform rig).port.journal.toList = rig.port.journal.toList ++ actions ∧
        ∀ id, .reclaimed id ∉ actions := by
  obtain ⟨known, hdraft, hpath⟩ := h.path hstart
  have hfresh := Driver.start_fresh hstart
  have hs := (Recounts.fresh hfresh world).path hfresh hpath
  refine ⟨?_, ?_, ?_, ?_⟩
  · intro slot id later hid hspares hsparing
    obtain ⟨known', -, hpath'⟩ := hsparing.path hdraft
    exact hpath'.guarded hs hfresh hspares hid
  · intro call produce id hsends hspares
    have hrests : (rig.scene known).Rests known.phase := ⟨hdraft, .inl rfl⟩
    obtain ⟨_, hclaim, -⟩ : Leads (Avoids (Pool.index slots id)) Driver.claimSlot _
      (rig.scene known) := Driver.claimSlot_leads hrests
    obtain ⟨_, hsend, -⟩ : Leads (Avoids (Pool.index slots id)) (Driver.send ⟨produce, occur .fill⟩)
      _ (rig.scene known) := Driver.send_leads (Avoids.occur .fill) hrests
    have hcapacity : (rig.run Driver.claimSlot).driver.capacity ≤ size := by
      refine Nat.le_trans (Nat.le_of_eq (hs.path hfresh hclaim).capacity_eq) ?_
      rw [Driver.start_capacity hstart]
      exact Nat.le_trans (Nat.min_le_left ..) (Nat.min_le_right ..)
    have hcarries := hsends.carries hcapacity (Path.spares hclaim hspares)
      (Path.spares hsend hspares)
    refine ⟨hcarries, ?_, ?_⟩
    · intro data hproduce
      have hle := (Driver.send_ok (hsends.sent (Pool.index slots id)).1).2.1
      change (produce _).2 ≤ _ at hle
      rw [hproduce] at hle
      exact Rig.filled_eq hproduce hle hcapacity
    · intro later hsparing
      obtain ⟨_, hdraft', hcall⟩ := Rig.call_path (Pool.index slots id) call hdraft
      obtain ⟨_, -, hpath'⟩ := hsparing.path hdraft'
      obtain ⟨actions, hguarded⟩ := hpath'.guarded (hs.path hfresh hcall) hfresh
        (Path.spares hcall hspares) hcarries.transferId?_eq
      exact ⟨actions, hguarded.journal_eq, fun other data => hcarries.delivered hguarded⟩
  · intro front id back hjournal
    exact hs.permits front _ back hjournal
  · intro call hcall
    obtain ⟨actions, hjournal, hactions⟩ := call.reclaimless hcall rig
    exact ⟨actions, hjournal, fun id hmem => hactions _ hmem trivial⟩

/-- A payload comes back although another one was sent meanwhile. -/
theorem Rig.payload_unaltered_delivered :
    let sent := (Call.send fun _ => (#[1, 2], 2)).perform small
    let other := (Call.send fun _ => (#[3], 1)).perform sent
    let later := Call.collect.perform (other.stimulate (.complete 0))
    sent.Carries .first #[1, 2] ∧ later.port.journal.deliveries = [(.first, #[1, 2])] ∧
      ∃ actions, Guarded 0 .first sent later actions := by
  intro sent other later
  let send := Call.send fun _ => (#[1, 2], 2)
  have hpayload := payload_unaltered .start Rig.small_started
  have hscript : ∀ slot : Fin 2, small.port.world.device.script.Spares slot :=
    fun _ _ _ _ hmem => absurd hmem List.not_mem_nil
  obtain ⟨hcarries, hfilled, -⟩ :=
    hpayload.2.1 send _ .first ⟨rfl, by decide +kernel⟩ (hscript _)
  rw [hfilled #[1, 2] fun _ => rfl] at hcarries
  have hsent : Onward small.driver small.port sent.driver sent.port :=
    Onward.start.perform (.send ⟨fun _ => (#[1, 2], 2), occur .fill⟩)
  have hsparing : Sparing 0 sent later :=
    ((Sparing.refl.call (.send fun _ => (#[3], 1))).stimulus (.complete 0) trivial).call .collect
  refine ⟨hcarries, by decide +kernel, ?_⟩
  exact (payload_unaltered hsent Rig.small_started).1 0 .first later hcarries.transferId?_eq
    (fun _ _ _ hmem => absurd hmem List.not_mem_nil) hsparing

end Sends
end DmaController

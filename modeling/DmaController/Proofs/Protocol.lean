import DmaController.Driver.Collect
import Mathlib.Logic.Relation
import Mathlib.Tactic.Common

/-!
The driver as a protocol. What it may do next follows from its own state and from what it has read
so far; nothing is assumed about the values that it reads. A scene is a driver with this knowledge
and its port, and a path is a sequence of protocol steps, between which the world may move by
itself. Every operation of the driver is a path, so an invariant is proved for the steps alone.
-/
namespace DmaController

/-- How far the slots can be relied on. -/
inductive Phase
  | running
  /-- The core was disabled, and no restart has followed. -/
  | halted
  /-- Something was submitted while the core was halted. -/
  | lost
  deriving DecidableEq, Repr

namespace Phase

def halt : Phase → Phase
  | lost => lost
  | _ => halted

def restart : Phase → Phase
  | lost => lost
  | _ => running

def submit : Phase → Phase
  | running => running
  | _ => lost

theorem halt_ne_running (phase : Phase) : phase.halt ≠ running := by
  cases phase <;> nofun

theorem restart_ne_halted (phase : Phase) : phase.restart ≠ halted := by
  cases phase <;> nofun

theorem submit_submit (phase : Phase) : phase.submit.submit = phase.submit := by
  cases phase <;> rfl

theorem submit_restart (phase : Phase) : phase.restart.submit = phase.restart := by
  cases phase <;> rfl

end Phase

/-- What the latest look at the submit bit showed, and the newest submission at that moment. -/
inductive Look
  | unknown
  | clear
  | pending (newest : Option TransferId)
  deriving DecidableEq, Repr

/-- The done bits that count after a look: not those of a submission that is still pending. -/
def Look.settle (bits : DoneBits) : Look → DoneBits
  | unknown => .none
  | clear => bits
  | pending none => bits
  | pending (some id) => bits.without id

theorem Look.isDone_settle {look : Look} {bits : DoneBits} {id : TransferId}
    (h : (look.settle bits).isDone id = true) :
    bits.isDone id = true ∧
      (look = clear ∨ ∃ newest, look = pending newest ∧ newest ≠ some id) := by
  cases look with
  | unknown => simp [settle, DoneBits.isDone_none] at h
  | clear => exact ⟨h, .inl rfl⟩
  | pending newest =>
    cases newest with
    | none => exact ⟨h, .inr ⟨none, rfl, by simp⟩⟩
    | some other =>
      simp only [settle, DoneBits.isDone_without, Bool.and_eq_true, decide_eq_true_eq] at h
      exact ⟨h.1, .inr ⟨some other, rfl, fun heq => h.2 (Option.some.inj heq).symm⟩⟩

/-- How far a submission has come that the hardware does not know of yet. -/
inductive Draft
  | none
  /-- Its slot is in flight. -/
  | marked (transfer : Transfer)
  /-- Its length is programmed too. -/
  | measured (transfer : Transfer)
  /-- Its address is programmed too. -/
  | addressed (transfer : Transfer)
  deriving DecidableEq, Repr

def Draft.transfer? : Draft → Option Transfer
  | none => .none
  | marked transfer | measured transfer | addressed transfer => some transfer

/-- What a driver knows of its device. -/
structure Known where
  phase : Phase := .running
  /-- The submit bit was seen clear, and nothing has been submitted since. -/
  clear : Bool := false
  look : Look := .unknown
  /-- The latest settled snapshot of the done bits. -/
  done : DoneBits := .none
  /-- The id that the next submission gets. -/
  next : Option TransferId := none
  /-- The register read last. -/
  last : Option (Offset × Word) := none
  /-- The enable bit was set. -/
  enabled : Bool := false
  draft : Draft := .none
  deriving DecidableEq, Repr

namespace Known

/-- Knowledge after a register was read. An id is worth nothing if the submit bit was not seen
clear before it was read. -/
def learn (known : Known) (newest : Option TransferId) (offset : Offset) (value : Word) : Known :=
  if offset = Register.submit then
    { known with
      last := some (offset, value)
      clear := known.clear || !value.hasAny submitBit
      look := if value.hasAny submitBit then .pending newest else .clear
      next := if known.clear then known.next else none }
  else if offset = Register.done then
    { known with last := some (offset, value), done := known.look.settle ⟨value⟩ }
  else if offset = Register.transferId then
    { known with
      last := some (offset, value)
      next := TransferId.ofWord? (value &&& transferIdField) }
  else { known with last := some (offset, value) }

variable (known : Known) (newest : Option TransferId) (offset : Offset) (value : Word)

@[simp] theorem phase_learn : (known.learn newest offset value).phase = known.phase := by
  unfold learn
  split_ifs <;> rfl

@[simp] theorem enabled_learn : (known.learn newest offset value).enabled = known.enabled := by
  unfold learn
  split_ifs <;> rfl

@[simp] theorem draft_learn : (known.learn newest offset value).draft = known.draft := by
  unfold learn
  split_ifs <;> rfl

@[simp] theorem last_learn :
    (known.learn newest offset value).last = some (offset, value) := by
  unfold learn
  split_ifs <;> rfl

theorem done_learn (h : offset ≠ Register.done) :
    (known.learn newest offset value).done = known.done := by
  unfold learn
  rw [if_neg h]
  split_ifs <;> rfl

theorem clear_learn (h : known.clear = true) : (known.learn newest offset value).clear = true := by
  unfold learn
  split_ifs <;> simp [h]

end Known

/-- The register that takes a transfer's address. -/
def Direction.register : Direction → Offset
  | .inbound => Register.destination
  | .outbound => Register.source

/-- Actions that tell of something and do nothing. -/
def Action.IsRemark : Action → Prop
  | .log _ | .offered _ | .delayed _ => True
  | _ => False

/-- What one step of the protocol does outside the driver. -/
inductive Deed (slots : Nat)
  | act (action : Action)
  /-- A buffer is filled. -/
  | stored (slot : Fin slots) (data : Bytes)
  /-- The world moves by itself. -/
  | meanwhile
  /-- Nothing. -/
  | inward

variable {slots size : Nat}

namespace Driver

def withPool (driver : Driver slots size) (pool : Pool slots size) : Driver slots size :=
  { driver with pool }

def restarted (driver : Driver slots size) : Driver slots size :=
  { driver with pool := driver.pool.releaseAll, cursor := .first, newest := none }

/-- A driver that has just been started. -/
structure Fresh (driver : Driver slots size) : Prop where
  slots_eq : driver.pool.slots = Vector.replicate slots {}
  capacity_pos : 0 < driver.capacity
  capacity_le : driver.capacity ≤ transferLimit
  newest_eq : driver.newest = none
  stream_eq : driver.stream = none

theorem Fresh.slotAt_eq {driver : Driver slots size} (h : driver.Fresh) (i : Fin slots) :
    driver.pool.slotAt i = {} := by
  change driver.pool.slots[i.val] = {}
  simp [h.slots_eq]

variable [HasSlots slots]

def submitted (driver : Driver slots size) (transfer : Transfer) : Driver slots size :=
  { driver with
    pool := driver.pool.submit transfer.id transfer.length
    newest := some transfer.id }

/-- A transfer that may be submitted into the slot of its id. -/
structure Admits (driver : Driver slots size) (transfer : Transfer) : Prop where
  free : (driver.pool.slot transfer.id).isInFlight = false
  length_le : transfer.length ≤ driver.capacity
  length_pos : 0 < driver.capacity → 0 < transfer.length
  address_eq : transfer.address = driver.address transfer.id

end Driver

variable [HasSlots slots]

/-- The steps of a driver, each with what it does outside and what it needs to know for it. -/
inductive Protocol :
    Driver slots size → Known → Deed slots → Driver slots size → Known → Prop
  | read (d k offset value) (hdraft : k.draft = .none) :
      Protocol d k (.act (.read offset value)) d (k.learn d.newest offset value)
  | remark (d k action) (h : action.IsRemark) : Protocol d k (.act action) d k
  | irq (d k offset value) (h : offset = Register.irqMask ∨ offset = Register.irqStatus) :
      Protocol d k (.act (.write offset value)) d k
  | acyclic (d k value) (h : k.last = some (Register.flags, value)) :
      Protocol d k (.act (.write Register.flags (value &&& ~~~ cyclicFlag))) d k
  | pause (d k value) (h : k.last = some (Register.control, value)) :
      Protocol d k (.act (.write Register.control (value ||| Control.pause)))
        d { k with last := none }
  | resume (d k value) (h : k.last = some (Register.control, value)) :
      Protocol d k (.act (.write Register.control (value &&& ~~~ Control.pause)))
        d { k with last := none }
  | enable (d k value) (h : k.last = some (Register.control, value)) :
      Protocol d k (.act (.write Register.control (value ||| Control.enable)))
        d { k with last := none, enabled := true }
  | disable (d k value) (h : k.last = some (Register.control, value)) (hdraft : k.draft = .none) :
      Protocol d k (.act (.write Register.control (value &&& ~~~ Control.enable)))
        d { phase := k.phase.halt }
  | mark (d k transfer) (hclear : k.clear = true) (hnext : k.next = some transfer.id)
      (hdraft : k.draft = .none) (h : d.Admits transfer) :
      Protocol d k (.act (.submitted transfer)) (d.submitted transfer)
        { k with
          phase := k.phase.submit, look := .unknown, done := .none, draft := .marked transfer }
  | measure (d k transfer) (h : k.draft = .marked transfer) :
      Protocol d k (.act (.write Register.length (BitVec.ofNat 32 transfer.length - 1)))
        d { k with draft := .measured transfer }
  | direct (d k transfer) (h : k.draft = .measured transfer) :
      Protocol d k (.act (.write transfer.direction.register transfer.address))
        d { k with draft := .addressed transfer }
  | queue (d k transfer) (h : k.draft = .addressed transfer) :
      Protocol d k (.act (.write Register.submit submitBit))
        d { phase := k.phase, enabled := k.enabled }
  | deliver (d k id data) (hdone : k.done.isDone id = true)
      (h : (d.pool.slot id).transferId? = some id) :
      Protocol d k (.act (.delivered id data)) (d.withPool (d.pool.release id)) k
  | reclaim (d k id previous) (hdone : k.done.isDone previous = true)
      (h : (d.pool.slot id).transferId? = some previous) :
      Protocol d k (.act (.reclaimed previous)) (d.withPool (d.pool.release id)) k
  | restart (d k) (henabled : k.enabled = true) (hphase : k.phase ≠ .running)
      (hdraft : k.draft = .none) :
      Protocol d k (.act (.released d.inFlight)) d.restarted
        { k with phase := k.phase.restart, look := .unknown, done := .none }
  | adopt (d k) (henabled : k.enabled = true) (hphase : k.phase ≠ .running)
      (hdraft : k.draft = .none) (h : d.Fresh) :
      Protocol d k .inward d { k with phase := k.phase.restart, look := .unknown, done := .none }
  | fill (d k id data) (hnext : k.next = some id) (h : (d.pool.slot id).isInFlight = false) :
      Protocol d k (.stored (Pool.index slots id) data) d k
  | meanwhile (d k) : Protocol d k .meanwhile d k
  | turn (d k id) : Protocol d k .inward { d with cursor := id } k
  | stream (d k bytes) : Protocol d k .inward { d with stream := bytes } k

namespace Protocol

variable {d d' : Driver slots size} {k k' : Known} {deed : Deed slots}

theorem capacity_eq (h : Protocol d k deed d' k') : d'.capacity = d.capacity := by cases h <;> rfl

theorem directions_eq (h : Protocol d k deed d' k') : d'.directions = d.directions := by
  cases h <;> rfl

theorem config_eq (h : Protocol d k deed d' k') : d'.config = d.config := by cases h <;> rfl

end Protocol

/-- A driver at work: its state, what it knows, and the device at its port. -/
structure Scene (σ : Type) (slots size : Nat) where
  driver : Driver slots size
  known : Known
  port : Port (World σ slots size)

variable {σ : Type} [RegisterBus (World σ slots size)]

/-- What a deed does to the port; `free` tells how the world may move by itself. -/
def Deed.Serves (free : World σ slots size → World σ slots size → Prop)
    (deed : Deed slots) (port port' : Port (World σ slots size)) : Prop :=
  match deed with
  | .act (.read offset value) =>
    (RegisterBus.read offset port.world).1 = value ∧
      port' = ⟨(RegisterBus.read offset port.world).2, port.journal.push (.read offset value)⟩
  | .act (.write offset value) =>
    port' = ⟨RegisterBus.write offset value port.world,
      port.journal.push (.write offset value)⟩
  | .act action => port' = ⟨RegisterBus.note action port.world, port.journal.push action⟩
  | .stored slot data =>
    port' = { port with world := { port.world with memory := port.world.memory.store slot 0 data } }
  | .meanwhile => free port.world port'.world ∧ port'.journal = port.journal
  | .inward => port' = port

/-- What a deed lets others see of the buffers: one that is given out to be filled is as long as the
capacity, and a delivery passes on the bytes of its slot, as many as the slot counts. -/
def Deed.Shows (driver : Driver slots size) (memory : Memory slots size) : Deed slots → Prop
  | .act (.offered capacity) => capacity = driver.capacity
  | .act (.delivered id data) =>
    data = memory.bytes (Pool.index slots id) (driver.pool.slot id).size
  | _ => True

/-- One step of a driver and its device. -/
def Step (free : World σ slots size → World σ slots size → Prop)
    (s s' : Scene σ slots size) : Prop :=
  ∃ deed, Protocol s.driver s.known deed s'.driver s'.known ∧ deed.Serves free s.port s'.port ∧
    deed.Shows s.driver s.port.world.memory

abbrev Path (free : World σ slots size → World σ slots size → Prop) :
    Scene σ slots size → Scene σ slots size → Prop :=
  Relation.ReflTransGen (Step free)

/-- What no step changes of a driver is the same at the end of a path. -/
theorem Path.driver_eq {free : World σ slots size → World σ slots size → Prop} {α : Type}
    {s s' : Scene σ slots size} (f : Driver slots size → α)
    (hstep : ∀ {d d' k k' deed}, Protocol d k deed d' k' → f d' = f d) (h : Path free s s') :
    f s'.driver = f s.driver := by
  induction h with
  | refl => rfl
  | tail _ h ih =>
    obtain ⟨deed, hprotocol, -⟩ := h
    exact (hstep hprotocol).trans ih

theorem Path.capacity_eq {free : World σ slots size → World σ slots size → Prop}
    {s s' : Scene σ slots size} (h : Path free s s') : s'.driver.capacity = s.driver.capacity :=
  h.driver_eq Driver.capacity Protocol.capacity_eq

/-- What every step does as long as its actions are allowed, a path does as long as all of them
are. -/
theorem Path.along {free : World σ slots size → World σ slots size → Prop} {P : Action → Prop}
    {R : Scene σ slots size → Scene σ slots size → Prop} {s s' : Scene σ slots size}
    (h : Path free s s') (hrefl : ∀ s, R s s) (htrans : ∀ {s₁ s₂ s₃}, R s₁ s₂ → R s₂ s₃ → R s₁ s₃)
    (hstep : ∀ {s₁ s₂}, Path free s s₁ → Step free s₁ s₂ → ∃ actions,
      s₂.port.journal.toList = s₁.port.journal.toList ++ actions ∧
        ((∀ action ∈ actions, P action) → R s₁ s₂)) :
    ∃ actions, s'.port.journal.toList = s.port.journal.toList ++ actions ∧
      ((∀ action ∈ actions, P action) → R s s') := by
  induction h with
  | refl => exact ⟨[], (List.append_nil _).symm, fun _ => hrefl s⟩
  | tail hpath h ih =>
    obtain ⟨actions, hjournal, hR⟩ := ih
    obtain ⟨later, hjournal', hR'⟩ := hstep hpath h
    refine ⟨actions ++ later, by rw [hjournal', hjournal, List.append_assoc], fun hactions => ?_⟩
    obtain ⟨hactions, hlater⟩ := List.forall_mem_append.1 hactions
    exact htrans (hR hactions) (hR' hlater)

end DmaController

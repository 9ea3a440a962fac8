import DmaController.Proofs.Protocol

/-!
Programs that keep to the protocol. A program leads from a scene to what it promises if running it
there is a path of protocol steps to a scene with the promise. There is one rule for each way to
put a program together and one for each access, so that the operations are followed line by line.
-/
namespace DmaController

variable {σ : Type} {slots size : Nat} {α β : Type}

/-- Where a run of a program ends: its answer, the driver and the port. -/
def DriverM.outcome (program : DriverM σ slots size α) (driver : Driver slots size)
    (port : Port (World σ slots size)) : (α × Driver slots size) × Port (World σ slots size) :=
  (program.run driver).run port

theorem DriverM.outcome_bind (program : DriverM σ slots size β)
    (next : β → DriverM σ slots size α) (driver : Driver slots size)
    (port : Port (World σ slots size)) : (program >>= next).outcome driver port =
      (next (program.outcome driver port).1.1).outcome (program.outcome driver port).1.2
        (program.outcome driver port).2 := rfl

theorem DriverM.outcome_get (next : Driver slots size → DriverM σ slots size α)
    (driver : Driver slots size) (port : Port (World σ slots size)) :
    (MonadState.get >>= next).outcome driver port = (next driver).outcome driver port := rfl

theorem Driver.outcome_onBus (program : BusM (World σ slots size) α) (driver : Driver slots size)
    (port : Port (World σ slots size)) : (onBus program).outcome driver port =
      (((program.run port).1, driver), (program.run port).2) := rfl

variable [HasSlots slots] [RegisterBus (World σ slots size)]

/-- Run from the scene, the program keeps to the protocol and ends with `Q`. -/
def Leads (free : World σ slots size → World σ slots size → Prop) (program : DriverM σ slots size α)
    (Q : α → Scene σ slots size → Prop) (s : Scene σ slots size) : Prop :=
  ∃ known,
    Path free s
      ⟨(program.outcome s.driver s.port).1.2, known, (program.outcome s.driver s.port).2⟩ ∧
    Q (program.outcome s.driver s.port).1.1
      ⟨(program.outcome s.driver s.port).1.2, known, (program.outcome s.driver s.port).2⟩

variable {free : World σ slots size → World σ slots size → Prop} {s : Scene σ slots size}

namespace Leads

variable {Q R : α → Scene σ slots size → Prop}

theorem mono {program : DriverM σ slots size α} (h : Leads free program R s)
    (himp : ∀ a s', R a s' → Q a s') : Leads free program Q s := by
  obtain ⟨known, hpath, hR⟩ := h
  exact ⟨known, hpath, himp _ _ hR⟩

theorem pure {a : α} (h : Q a s) : Leads free (Pure.pure a) Q s := ⟨s.known, .refl, h⟩

theorem bind {program : DriverM σ slots size β} {next : β → DriverM σ slots size α}
    (h : Leads free program (fun b s' => Leads free (next b) Q s') s) :
    Leads free (program >>= next) Q s := by
  obtain ⟨known, hpath, known', hpath', hQ⟩ := h
  exact ⟨known', hpath.trans hpath', hQ⟩

/-- A program of which it is known how it ends, and then another one. -/
theorem seq {program : DriverM σ slots size β} {next : β → DriverM σ slots size α}
    {R : β → Scene σ slots size → Prop} (h : Leads free program R s)
    (hnext : ∀ b s', R b s' → Leads free (next b) Q s') : Leads free (program >>= next) Q s :=
  .bind (h.mono hnext)

theorem lift {program : BusM (World σ slots size) β} {next : β → BusM (World σ slots size) α}
    (h : Leads free (Driver.onBus program)
      (fun b s' => Leads free (Driver.onBus (next b)) Q s') s) :
    Leads free (Driver.onBus (program >>= next)) Q s := .bind h

theorem get {Q : Driver slots size → Scene σ slots size → Prop} (h : Q s.driver s) :
    Leads free MonadState.get Q s := ⟨s.known, .refl, h⟩

theorem world {Q : World σ slots size → Scene σ slots size → Prop} (h : Q s.port.world s) :
    Leads free (Driver.onBus BusM.world) Q s := ⟨s.known, .refl, h⟩

/-- One step that the beginning of a program makes. -/
theorem via {program rest : DriverM σ slots size α} {s' : Scene σ slots size}
    (hstep : Step free s s')
    (heq : program.outcome s.driver s.port = rest.outcome s'.driver s'.port)
    (h : Leads free rest Q s') : Leads free program Q s := by
  obtain ⟨known, hpath, hQ⟩ := h
  unfold Leads
  rw [heq]
  exact ⟨known, .head hstep hpath, hQ⟩

end Leads

/-- The scene after a read. -/
def Scene.read (s : Scene σ slots size) (offset : Offset) : Scene σ slots size where
  driver := s.driver
  known := s.known.learn s.driver.newest offset (RegisterBus.read offset s.port.world).1
  port := ⟨(RegisterBus.read offset s.port.world).2,
    s.port.journal.push (.read offset (RegisterBus.read offset s.port.world).1)⟩

/-- The scene after a write that changes what is known. -/
def Scene.write (s : Scene σ slots size) (offset : Offset) (value : Word) (known : Known) :
    Scene σ slots size where
  driver := s.driver
  known := known
  port := ⟨RegisterBus.write offset value s.port.world,
    s.port.journal.push (.write offset value)⟩

/-- The scene after an action that is no access. -/
def Scene.tell (s : Scene σ slots size) (action : Action) (driver : Driver slots size)
    (known : Known) : Scene σ slots size where
  driver := driver
  known := known
  port := ⟨RegisterBus.note action s.port.world, s.port.journal.push action⟩

namespace Leads

theorem read {Q : Word → Scene σ slots size → Prop} (offset : Offset)
    (hdraft : s.known.draft = .none)
    (h : Q (RegisterBus.read offset s.port.world).1 (s.read offset)) :
    Leads free (Driver.onBus (BusM.read offset)) Q s :=
  ⟨_, .single ⟨_, .read _ _ offset _ hdraft, ⟨rfl, rfl⟩, trivial⟩, h⟩

theorem write {Q : Unit → Scene σ slots size → Prop} {offset : Offset} {value : Word}
    {known : Known}
    (hstep : Protocol s.driver s.known (.act (.write offset value)) s.driver known)
    (h : Q () (s.write offset value known)) :
    Leads free (Driver.onBus (BusM.write offset value)) Q s :=
  ⟨known, .single ⟨_, hstep, rfl, trivial⟩, h⟩

/-- The world moves while the driver waits for a callback. -/
theorem alter {Q : Unit → Scene σ slots size → Prop}
    {change : World σ slots size → World σ slots size}
    (hfree : free s.port.world (change s.port.world))
    (h : Q () { s with port := { s.port with world := change s.port.world } }) :
    Leads free (Driver.onBus (BusM.alter change)) Q s :=
  ⟨s.known, .single ⟨.meanwhile, .meanwhile _ _, ⟨hfree, rfl⟩, trivial⟩, h⟩

theorem remark {Q : Unit → Scene σ slots size → Prop} {action : Action} (hremark : action.IsRemark)
    (hshows : (Deed.act action).Shows s.driver s.port.world.memory)
    (h : Q () (s.tell action s.driver s.known)) : Leads free (Driver.record action) Q s := by
  refine ⟨s.known, .single ⟨.act action, .remark _ _ _ hremark, ?_, hshows⟩, h⟩
  cases action <;> first | exact hremark.elim | rfl

theorem log {Q : Unit → Scene σ slots size → Prop} {entry : LogEntry}
    (h : Q () (s.tell (.log entry) s.driver s.known)) : Leads free (Driver.log entry) Q s := by
  change Leads free (Driver.record (.log entry)) Q s
  exact remark trivial trivial h

/-- A change of the driver that nothing outside depends on. -/
theorem inward {Q : Unit → Scene σ slots size → Prop}
    {change : Driver slots size → Driver slots size}
    (hstep : Protocol s.driver s.known .inward (change s.driver) s.known)
    (h : Q () { s with driver := change s.driver }) : Leads free (modify change) Q s :=
  ⟨s.known, .single ⟨.inward, hstep, rfl, trivial⟩, h⟩

/-- A buffer is filled, and the world moves meanwhile. -/
theorem store {id : TransferId} {data : Bytes} {Q : Unit → Scene σ slots size → Prop}
    {change : World σ slots size → World σ slots size} (hnext : s.known.next = some id)
    (hslot : (s.driver.pool.slot id).isInFlight = false)
    (hfree : ∀ world, free world (change world)) (h : ∀ port, Q () { s with port }) :
    Leads free (Driver.onBus (BusM.alter fun world =>
      change { world with memory := world.memory.store (Pool.index slots id) 0 data })) Q s := by
  let filled : Scene σ slots size := { s with
    port := { s.port with
      world := { s.port.world with
        memory := s.port.world.memory.store (Pool.index slots id) 0 data } } }
  have hfill : Step free s filled := ⟨_, .fill _ _ id data hnext hslot, rfl, trivial⟩
  have hmove : Step free filled
      { filled with port := { filled.port with world := change filled.port.world } } :=
    ⟨_, .meanwhile _ _, ⟨hfree _, rfl⟩, trivial⟩
  exact ⟨s.known, .head hfill (.single hmove), h _⟩

/-- A change of the driver that goes with an action. -/
theorem change {action : Action} {f : Driver slots size → Driver slots size} {known : Known}
    {rest : Unit → DriverM σ slots size α} {Q : α → Scene σ slots size → Prop}
    (hstep : Protocol s.driver s.known (.act action) (f s.driver) known)
    (hserves : (Deed.act action).Serves free s.port (s.tell action (f s.driver) known).port)
    (hshows : (Deed.act action).Shows s.driver s.port.world.memory)
    (h : Leads free (rest ()) Q (s.tell action (f s.driver) known)) :
    Leads free (modify f >>= fun _ => Driver.record action >>= rest) Q s :=
  .via ⟨_, hstep, hserves, hshows⟩ rfl h

end Leads
end DmaController

import DmaController.Proofs.Hardware
import DmaController.Proofs.Operations

/-!
Sessions: a driver is started on a bench, calls are made of it in any order, and the hardware moves
between them and inside them as the script of the bench has it. Main statement: every session is
followed by a path of the driver on the bench's engine, which begins with a fresh driver on a core
that counts as halted.
-/
namespace DmaController

open Sim

namespace Sim.Engine

/-- Nothing is queued or outstanding, and no transfer was numbered since the last abort. -/
structure IsIdle (engine : Engine) : Prop where
  pending_eq : engine.submitPending = false
  outstanding_eq : engine.outstanding = []
  done_eq : engine.done = 0
  nextId_eq : engine.nextId = 0

/-- An idle engine that no transfer was ever given to. -/
structure IsUnused (engine : Engine) : Prop extends IsIdle engine where
  accepted_eq : engine.accepted = #[]
  history_eq : engine.history = []

theorem isUnused_fresh : Core.fresh.toEngine.IsUnused := ⟨⟨rfl, rfl, rfl, rfl⟩, rfl, rfl⟩

end Sim.Engine

/-- A driver and the bench it works on. -/
structure Rig (slots size : Nat) where
  driver : Driver slots size
  port : Port (World Bench slots size)

/-- What a caller may ask of a driver. The routine that runs a body on completion is the call
`claimCompletion`, followed by the calls that the body makes. -/
inductive Call
  | send (produce : Bytes → Bytes × Nat)
  | sendAndWait (limit : Nat) (produce : Bytes → Bytes × Nat)
  | receive (bytes : Nat)
  | collect
  | serviceInterrupt
  | claimCompletion
  | startStream (bytes : Nat)
  | reset
  | enable
  | disable
  | pause
  | resume
  | enableIrq
  | disableIrq
  | acknowledge
  | registerSink (sink : Word)
  | isEnabled
  | isPaused
  | progress
  | irqFlags
  | doneBits

variable {slots size : Nat}

namespace Rig

def core (rig : Rig slots size) : Core := rig.port.world.device.core

def scene (rig : Rig slots size) (known : Known) : Scene Bench slots size :=
  ⟨rig.driver, known, rig.port⟩

/-- Lets the driver run a program, whatever it answers. -/
def run {α : Type} (rig : Rig slots size) (program : DriverM Bench slots size α) : Rig slots size :=
  ⟨(program.outcome rig.driver rig.port).1.2, (program.outcome rig.driver rig.port).2⟩

def stimulate (rig : Rig slots size) (stimulus : Stimulus) : Rig slots size :=
  { rig with port := { rig.port with world := Sim.stimulate rig.port.world stimulus } }

/-- Gives the bench another script. -/
def follow (rig : Rig slots size) (script : Script) : Rig slots size :=
  { rig with port := { rig.port with world := { rig.port.world with
    device := rig.port.world.device.follow script } } }

end Rig

/-- An operation is over. A lost phase promises nothing. -/
structure Scene.Ends {σ : Type} (phase : Phase) (s : Scene σ slots size) : Prop where
  draft_eq : s.known.draft = .none
  phase_eq : phase = .lost ∨ s.known.phase = phase

section Ends

variable {σ : Type} {s s' : Scene σ slots size} {phase : Phase}

theorem Scene.Ends.stays (h : s.Ends phase) (hstays : s.Stays s') : s'.Ends phase where
  draft_eq := hstays.draft_eq
  phase_eq := by rw [hstays.phase_eq]; exact h.phase_eq

/-- An operation that may have submitted something. -/
theorem Scene.Ends.submit (h : s.Ends phase) (hrests : s'.Rests s.known.phase) :
    s'.Ends phase.submit where
  draft_eq := hrests.draft_eq
  phase_eq := by
    rcases h.phase_eq with rfl | rfl
    · exact .inl rfl
    · rcases hrests.phase_eq with hphase | hphase
      · rw [hphase]
        cases s.known.phase <;> simp [Phase.submit]
      · exact .inr hphase

/-- An operation that submits something only for a stream. -/
theorem Scene.Ends.refill (h : s.Ends phase) (hrests : s'.Rests s.known.phase)
    (hkeeps : s.driver.stream = none → s'.known.phase = s.known.phase) :
    s'.Ends (if s.driver.stream.isSome then phase.submit else phase) := by
  cases hstream : s.driver.stream with
  | none => exact ⟨hrests.draft_eq, by rw [hkeeps hstream]; exact h.phase_eq⟩
  | some bytes => exact h.submit hrests

theorem Scene.Ends.change (h : s.Ends phase) {f : Phase → Phase} (hlost : f .lost = .lost)
    (hdraft : s'.known.draft = .none) (hphase : s'.known.phase = f s.known.phase) :
    s'.Ends (f phase) where
  draft_eq := hdraft
  phase_eq := by
    rcases h.phase_eq with rfl | rfl
    · exact .inl hlost
    · exact .inr hphase

end Ends

variable [HasSlots slots]

namespace Call

/-- Makes the call; its callbacks leave the hardware to the script. -/
def perform (rig : Rig slots size) : Call → Rig slots size
  | send produce => rig.run (Driver.send ⟨produce, occur .fill⟩)
  | sendAndWait limit produce => rig.run (Driver.sendAndWait limit ⟨produce, occur .fill⟩)
  | receive bytes => rig.run (Driver.receive bytes Sim.consume Sim.pause)
  | collect => rig.run (Driver.collect Sim.consume)
  | serviceInterrupt => rig.run (Driver.serviceInterrupt Sim.consume)
  | claimCompletion => rig.run Driver.claimCompletion
  | startStream bytes => rig.run (Driver.startStream bytes)
  | reset => rig.run Driver.reset
  | enable => rig.run Driver.enable
  | disable => rig.run Driver.disable
  | pause => rig.run Driver.pause
  | resume => rig.run Driver.resume
  | enableIrq => rig.run Driver.enableIrq
  | disableIrq => rig.run Driver.disableIrq
  | acknowledge => rig.run Driver.acknowledge
  | registerSink sink => rig.run (Driver.registerSink sink)
  | isEnabled => rig.run Driver.isEnabled
  | isPaused => rig.run Driver.isPaused
  | progress => rig.run Driver.progress
  | irqFlags => rig.run Driver.irqFlags
  | doneBits => rig.run Driver.doneBits

/-- What becomes of the phase. A call that may queue a transfer while the core is halted counts as
one that does. -/
def phase (driver : Driver slots size) (phase : Phase) : Call → Phase
  | send _ | sendAndWait .. | receive _ => phase.submit
  | collect | serviceInterrupt => if driver.stream.isSome then phase.submit else phase
  | startStream bytes => if driver.acceptsStream bytes then phase.restart else phase
  | reset => phase.restart
  | disable => phase.halt
  | _ => phase

end Call

/-- The states between the calls of a driver that was started on a `ready` engine. -/
inductive Session (ready : Engine → Prop) : Phase → Rig slots size → Prop
  | start {world : World Bench slots size} {config : Config} {pool : Pool slots size}
      {driver : Driver slots size} {port : Port (World Bench slots size)}
      (hready : ready world.device.core.toEngine) (hlawful : world.device.script.IsLawful)
      (h : (Driver.start config pool).run ⟨world, #[]⟩ = (.ok driver, port)) :
      Session ready .running ⟨driver, port⟩
  | call {phase : Phase} {rig : Rig slots size} (h : Session ready phase rig) (call : Call) :
      Session ready (call.phase rig.driver phase) (call.perform rig)
  | stimulus {phase : Phase} {rig : Rig slots size} (h : Session ready phase rig)
      (stimulus : Stimulus) (hlawful : stimulus.IsLawful) :
      Session ready phase (rig.stimulate stimulus)
  | follow {phase : Phase} {rig : Rig slots size} (h : Session ready phase rig) (script : Script)
      (hlawful : script.IsLawful) : Session ready phase (rig.follow script)

/-- A fresh driver at the engine that it was started on. -/
structure Scene.Begins (ready : Engine → Prop) (s : Scene Engine slots size) : Prop where
  fresh : s.driver.Fresh
  known_eq : s.known = { phase := .halted }
  engine_ready : ready s.port.world.device
  journal_eq : s.port.journal = #[]

/-- Scenes that a driver comes to that was started on a `ready` engine. -/
def Scene.Attained (ready : Engine → Prop) (s : Scene Engine slots size) : Prop :=
  ∃ s₀ : Scene Engine slots size, s₀.Begins ready ∧ Path Lapse s₀ s

variable {ready : Engine → Prop} {phase : Phase} {rig : Rig slots size}

theorem Rig.run_leads {α : Type} {free : World Bench slots size → World Bench slots size → Prop}
    {program : DriverM Bench slots size α} {known : Known} {P : Scene Bench slots size → Prop}
    (h : Leads free program (fun _ s' => P s') (rig.scene known)) :
    ∃ known', Path free (rig.scene known) ((rig.run program).scene known') ∧
      P ((rig.run program).scene known') := h

theorem Rig.run_path {α : Type} {program : DriverM Bench slots size α} {known : Known}
    {P : Scene Bench slots size → Prop}
    (h : Leads Drifts program (fun _ s' => P s') (rig.scene known)) :
    ∃ known', Path Drifts (rig.scene known) ((rig.run program).scene known') ∧
      P ((rig.run program).scene known') := Rig.run_leads h

/-- A call takes a scene between calls to a scene between calls, if the world may move as the script
and the interrupt line have it. -/
theorem Call.leads (call : Call) {free : World Bench slots size → World Bench slots size → Prop}
    (hoccur : ∀ occasion (world : World Bench slots size), free world (occur occasion world))
    (hline : ∀ world : World Bench slots size, free world (InterruptLine.acknowledge world))
    (hsink : ∀ (sink : Word) (world : World Bench slots size),
      free world (InterruptLine.registerSink sink world))
    {known : Known} (h : (rig.scene known).Ends phase) :
    ∃ known', Path free (rig.scene known) ((call.perform rig).scene known') ∧
      ((call.perform rig).scene known').Ends (call.phase rig.driver phase) := by
  have hrests : (rig.scene known).Rests known.phase := ⟨h.draft_eq, .inl rfl⟩
  have hfill : ∀ world : World Bench slots size, free world (occur .fill world) := hoccur .fill
  have hconsume : ∀ data (world : World Bench slots size), free world (Sim.consume data world) :=
    fun _ => hoccur .consume
  have hpause : ∀ length (world : World Bench slots size), free world (Sim.pause length world) :=
    fun _ => hoccur .pause
  cases call with
  | send produce =>
    exact Rig.run_leads ((Driver.send_leads hfill hrests).mono fun _ _ => h.submit)
  | sendAndWait limit produce =>
    exact Rig.run_leads ((Driver.sendAndWait_leads limit hfill hrests).mono fun _ _ => h.submit)
  | receive bytes =>
    exact Rig.run_leads ((Driver.receive_leads hconsume hpause bytes hrests).mono
      fun _ _ => h.submit)
  | collect =>
    exact Rig.run_leads ((Driver.collect_leads hconsume hrests).mono
      fun _ _ h' => h.refill h'.1 h'.2)
  | serviceInterrupt =>
    exact Rig.run_leads ((Driver.serviceInterrupt_leads hline hconsume hrests).mono
      fun _ _ h' => h.refill h'.1 h'.2)
  | claimCompletion =>
    exact Rig.run_leads ((Driver.claimCompletion_leads h.draft_eq).mono fun _ _ => h.stays)
  | startStream bytes =>
    refine Rig.run_leads ((Driver.startStream_leads bytes h.draft_eq).mono ?_)
    intro _ s' h'
    refine ⟨h'.1, ?_⟩
    rw [h'.2]
    rcases h.phase_eq with rfl | rfl
    · left
      simp [Call.phase, Phase.restart]
    · exact .inr rfl
  | reset =>
    refine Rig.run_leads ((Driver.reset_leads h.draft_eq).mono ?_)
    intro _ s' h'
    exact h.change (f := Phase.restart) rfl h'.1 h'.2
  | enable => exact Rig.run_leads ((Driver.enable_leads h.draft_eq).mono fun _ _ h' => h.stays h'.1)
  | disable =>
    refine Rig.run_leads ((Driver.disable_leads h.draft_eq).mono ?_)
    intro _ s' h'
    exact h.change (f := Phase.halt) rfl (by rw [h'.2]) (by rw [h'.2])
  | pause => exact Rig.run_leads ((Driver.pause_leads h.draft_eq).mono fun _ _ => h.stays)
  | resume => exact Rig.run_leads ((Driver.resume_leads h.draft_eq).mono fun _ _ => h.stays)
  | enableIrq => exact Rig.run_leads ((Driver.enableIrq_leads h.draft_eq).mono fun _ _ => h.stays)
  | disableIrq =>
    exact Rig.run_leads ((Driver.disableIrq_leads h.draft_eq).mono fun _ _ => h.stays)
  | acknowledge =>
    exact Rig.run_leads (Driver.acknowledge_leads hline fun _ => ⟨h.draft_eq, h.phase_eq⟩)
  | registerSink sink =>
    exact Rig.run_leads (Leads.alter (hsink sink _) ⟨h.draft_eq, h.phase_eq⟩)
  | isEnabled | isPaused | progress | irqFlags | doneBits =>
    exact Rig.run_leads ((Driver.read_leads h.draft_eq _ _).mono fun _ _ => h.stays)

/-- Every operation takes a scene between calls to a scene between calls. -/
theorem Call.ends (call : Call) {known : Known} (h : (rig.scene known).Ends phase) :
    ∃ known', Path Drifts (rig.scene known) ((call.perform rig).scene known') ∧
      ((call.perform rig).scene known').Ends (call.phase rig.driver phase) :=
  call.leads occur_drifts (fun _ => ⟨rfl, fun _ => .refl⟩) (fun _ _ => ⟨rfl, fun _ => .refl⟩) h

namespace Scene.Attained

variable {s s' : Scene Engine slots size}

theorem path (h : s.Attained ready) (hpath : Path Lapse s s') : s'.Attained ready := by
  obtain ⟨s₀, hbegins, hpath₀⟩ := h
  exact ⟨s₀, hbegins, hpath₀.trans hpath⟩

/-- What holds of a fresh driver and is preserved by every step holds wherever a driver comes. -/
theorem induct {P : Scene Engine slots size → Prop} (hbegin : ∀ s, s.Begins ready → P s)
    (hstep : ∀ s s', s.Attained ready → P s → Step Lapse s s' → P s') (h : s.Attained ready) :
    P s := by
  obtain ⟨s₀, hbegins, hpath⟩ := h
  induction hpath with
  | refl => exact hbegin _ hbegins
  | tail hpath h ih => exact hstep _ _ ⟨s₀, hbegins, hpath⟩ ih h

end Scene.Attained

/-- A started driver is a fresh driver on an enabled core. -/
theorem Driver.start_attained {world : World Bench slots size} {config : Config}
    {pool : Pool slots size} {driver : Driver slots size} {port : Port (World Bench slots size)}
    (hready : ready world.device.core.toEngine) (hlawful : world.device.script.IsLawful)
    (h : (Driver.start config pool).run ⟨world, #[]⟩ = (.ok driver, port)) :
    port.world.device.script.IsLawful ∧ ∃ known, (Rig.scene ⟨driver, port⟩ known).Ends .running ∧
      (Rig.scene ⟨driver, port⟩ known).bare.Attained ready := by
  let s : Scene Bench slots size := ⟨driver, { phase := .halted }, ⟨world, #[]⟩⟩
  have hdraft : s.known.draft = .none := rfl
  obtain ⟨known, hpath, hstays, hstarted⟩ : Leads Drifts _ _ s :=
    Driver.start_leads config pool hdraft
  rw [Driver.outcome_onBus, h] at hpath hstays hstarted
  obtain ⟨henabled, hfresh⟩ := hstarted driver rfl
  obtain ⟨-, hdraft, hphase⟩ := hstays
  have hnot : known.phase ≠ .running := by
    rw [hphase]
    simp [s]
  let adopted : Known :=
    { known with phase := known.phase.restart, look := .unknown, done := .none }
  have hadopt : Step Drifts (Rig.scene ⟨driver, port⟩ known) (Rig.scene ⟨driver, port⟩ adopted) :=
    ⟨.inward, .adopt driver known henabled hnot hdraft hfresh, rfl, trivial⟩
  obtain ⟨hlawful', hpath'⟩ := Path.bare (hpath.tail hadopt) hlawful
  refine ⟨hlawful', adopted, ⟨hdraft, .inr ?_⟩, s.bare, ⟨hfresh, rfl, hready, rfl⟩, hpath'⟩
  change known.phase.restart = .running
  rw [hphase]
  rfl

/-- Between its calls a driver rests where a path from its start has brought it. -/
theorem Session.attained (h : Session ready phase rig) : rig.port.world.device.script.IsLawful ∧
    ∃ known, (rig.scene known).Ends phase ∧ (rig.scene known).bare.Attained ready := by
  induction h with
  | start hready hlawful h => exact Driver.start_attained hready hlawful h
  | @call phase rig h call ih =>
    obtain ⟨hlawful, known, hends, hattained⟩ := ih
    obtain ⟨known', hpath, hends'⟩ := call.ends hends
    obtain ⟨hlawful', hpath'⟩ := hpath.bare hlawful
    exact ⟨hlawful', known', hends', hattained.path hpath'⟩
  | @stimulus phase rig h stimulus hstimulus ih =>
    obtain ⟨hlawful, known, hends, hattained⟩ := ih
    refine ⟨hlawful, known, ⟨hends.draft_eq, hends.phase_eq⟩, hattained.path ?_⟩
    exact path_of_lapse _ _ _ (stimulate_lapse rig.port.world hstimulus)
  | @follow phase rig h script hscript ih =>
    obtain ⟨hlawful, known, hends, hattained⟩ := ih
    exact ⟨hscript, known, ⟨hends.draft_eq, hends.phase_eq⟩, hattained⟩

theorem Session.mono {ready' : Engine → Prop} (hready : ∀ engine, ready engine → ready' engine)
    (h : Session ready phase rig) : Session ready' phase rig := by
  induction h with
  | start he hlawful h => exact .start (hready _ he) hlawful h
  | call _ call ih => exact ih.call call
  | stimulus _ stimulus hlawful ih => exact ih.stimulus stimulus hlawful
  | follow _ script hlawful ih => exact ih.follow script hlawful

instance : HasSlots 1 := ⟨Nat.succ_ne_zero 0⟩

instance : HasSlots 2 := ⟨Nat.succ_ne_zero 1⟩

/-- A driver just started on a fresh core, with two slots of sixteen bytes. -/
def Rig.small : Rig 2 16 where
  driver :=
    { pool := (Pool.fresh 2 16 0).resize transferLimit, config := {}, version := ⟨4, 4, 97⟩
      peripheralId := 0, directions := {} }
  port := ((Driver.start {} (Pool.fresh 2 16 0)).run ⟨⟨{}, .zero⟩, #[]⟩).2

theorem Rig.small_started : (Driver.start {} (Pool.fresh 2 16 0)).run ⟨⟨{}, .zero⟩, #[]⟩ =
    (.ok Rig.small.driver, Rig.small.port) := rfl

theorem Rig.small_session : Session Engine.IsUnused .running Rig.small :=
  .start Engine.isUnused_fresh Script.isLawful_none Rig.small_started

/-- The same with one slot, for a driver that waits one microsecond only. -/
def Rig.single : Rig 1 16 where
  driver :=
    { pool := (Pool.fresh 1 16 0).resize transferLimit
      config := { timeout := 1, pollInterval := 1 }, version := ⟨4, 4, 97⟩
      peripheralId := 0, directions := {} }
  port := ((Driver.start { timeout := 1, pollInterval := 1 } (Pool.fresh 1 16 0)).run
    ⟨⟨{}, .zero⟩, #[]⟩).2

theorem Rig.single_session : Session Engine.IsUnused .running Rig.single := by
  have h : (Driver.start { timeout := 1, pollInterval := 1 } (Pool.fresh 1 16 0)).run
      ⟨⟨{}, .zero⟩, #[]⟩ = (.ok Rig.single.driver, Rig.single.port) := rfl
  exact .start Engine.isUnused_fresh Script.isLawful_none h

end DmaController

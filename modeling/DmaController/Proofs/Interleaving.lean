import DmaController.Proofs.Conservation
import DmaController.Shared

/-!
A shared driver in use. A task polls it, interrupt routines come at any time, and drivers are
installed and taken out. A poll and a routine are the programs of critical sections that the shared
driver runs; between two sections of one party the others may go on. Main statements: each section
of a poll or of a routine leaves its party at one of the few places of its program (`Wait.Orderly`),
and undisturbed, the sections of a poll make up the poll, and those of a routine the routine.
-/
namespace DmaController

open Relation

/-- It makes no difference whether a waker that is left once more is kept or replaced. -/
theorem WakerSlot.register_eq (slot : WakerSlot) (waker : Waker) :
    slot.register waker = if slot.waker = some waker then slot else ⟨some waker⟩ := by
  obtain ⟨old⟩ := slot
  split_ifs with h
  · exact congrArg WakerSlot.mk h.symm
  · rfl

/-- Where the task stands that waits for completions. -/
inductive Waiter
  /-- It does not wait, or has not been polled yet. -/
  | idle
  /-- A poll with this waker has still this to do. -/
  | polling (waker : Waker) (rest : Signal.Program (Option Nat))
  /-- The last poll has ended without completions, and its waker was this. -/
  | suspended (waker : Waker)

/-- The places where a task can stand. -/
inductive Waiter.Placed : Waiter → Prop
  | idle : Placed .idle
  | begun (waker) : Placed (.polling waker (.poll waker))
  | missed (waker) : Placed (.polling waker (.leaveWaker waker))
  | registered (waker) : Placed (.polling waker .lookAgain)
  | suspended (waker) : Placed (.suspended waker)

/-- An interrupt routine after its first section. -/
structure Routine where
  /-- The deliveries that it has made. -/
  served : List (TransferId × Bytes)
  /-- What it has still to do; that ends with the waker to call. -/
  rest : Signal.Program (Option Waker)

namespace Routine

/-- The number that a routine has still to add. -/
def due (routine : Routine) : Nat := (routine.rest.run {}).2.completions

/-- A routine that has no more to add will call the waker, as things stand. -/
def WillCall (routine : Routine) (waker : Waker) (signal : Signal) : Prop :=
  routine.due = 0 ∧ (routine.rest.run signal).1 = some waker

/-- The places where a routine can stand. -/
inductive Placed : Routine → Prop
  | collected (served) : Placed ⟨served, .addCompletions served.length .fetchWaker⟩
  | added (served) : Placed ⟨served, .fetchWaker⟩
  | fetched (served woken) : Placed ⟨served, .done woken⟩

variable {served : List (TransferId × Bytes)} {waker : Waker}

/-- One routine is told from the others. -/
theorem mem_split_iff {routine other : Routine} {front back : List Routine} :
    other ∈ front ++ routine :: back ↔ other = routine ∨ other ∈ front ++ back := by
  rw [List.perm_middle.mem_iff, List.mem_cons]

theorem placed_announce (served : List (TransferId × Bytes)) :
    Placed ⟨served, .announce served.length⟩ := by
  unfold Signal.Program.announce
  split
  · exact .collected served
  · exact .fetched served none

theorem due_announce (count : Nat) : due ⟨served, .announce count⟩ = count := by
  unfold Signal.Program.announce
  split
  case isTrue => exact Nat.zero_add count
  case isFalse hzero => exact (Nat.eq_zero_of_not_pos hzero).symm

theorem due_addCompletions (count : Nat) :
    due ⟨served, .addCompletions count .fetchWaker⟩ = count := Nat.zero_add count

theorem due_fetchWaker : due ⟨served, .fetchWaker⟩ = 0 := rfl

theorem due_done (woken : Option Waker) : due ⟨served, .done woken⟩ = 0 := rfl

theorem willCall_fetchWaker {signal : Signal} (h : signal.slot.waker = some waker) :
    WillCall ⟨served, .fetchWaker⟩ waker signal := ⟨rfl, h⟩

theorem willCall_done (signal : Signal) : WillCall ⟨served, .done (some waker)⟩ waker signal :=
  ⟨rfl, rfl⟩

end Routine

/-- Something that happened between the task and the routines. -/
inductive Incident
  /-- A routine has made these deliveries. -/
  | collected (served : List (TransferId × Bytes))
  /-- A routine that has made these deliveries has added this number. -/
  | added (count : Nat) (served : List (TransferId × Bytes))
  | called (waker : Waker)
  | registered (waker : Waker)
  /-- A wait has returned this number. -/
  | returned (count : Nat)
  deriving DecidableEq, Repr

namespace Incident

def collected? : Incident → Option Nat
  | collected served => some served.length
  | _ => none

def added? : Incident → Option Nat
  | added count _ => some count
  | _ => none

def returned? : Incident → Option Nat
  | returned count => some count
  | _ => none

def isRegistration : Incident → Bool
  | registered _ => true
  | _ => false

/-- A waker was called or registered. -/
def IsCall : Incident → Prop
  | called _ | registered _ => True
  | collected _ | added .. | returned _ => False

/-- What happens at the next section of a program, in a routine that has made these deliveries. -/
def ofNext {α : Type} (served : List (TransferId × Bytes)) : Signal.Program α → List Incident
  | .addCompletions count _ => [.added count served]
  | .registerWaker waker _ => [.registered waker]
  | .done _ | .takeCompletions _ | .takeWaker _ => []

/-- What has happened since the last registration, newest first. -/
def recent (past : List Incident) : List Incident := past.takeWhile (!·.isRegistration)

end Incident

variable {σ : Type} {slots size : Nat}

/-- A shared driver, the task that waits, and the interrupt routines that are running. -/
structure Wait (slots size : Nat) where
  shared : Shared slots size := {}
  waiter : Waiter := .idle
  routines : List Routine := []
  /-- Everything that happened, newest first. -/
  past : List Incident := []

namespace Wait

def completions (s : Wait slots size) : Nat := s.shared.signal.completions

/-- One step to another signal, at which something happens. -/
def signals (s : Wait slots size) (signal : Signal) (incidents : List Incident) : Wait slots size :=
  { s with shared := { s.shared with signal }, past := incidents ++ s.past }

/-- The next section of a program, in a routine that has made these deliveries. -/
def perform {α : Type} (s : Wait slots size) (served : List (TransferId × Bytes))
    (rest : Signal.Program α) : Wait slots size :=
  s.signals (rest.step s.shared.signal).2 (Incident.ofNext served rest)

/-- The task has still this to do of its poll, which may have come to its end. -/
def resume (s : Wait slots size) (waker : Waker) : Signal.Program (Option Nat) → Wait slots size
  | .done (some count) => { s with waiter := .idle, past := .returned count :: s.past }
  | .done none => { s with waiter := .suspended waker }
  | rest => { s with waiter := .polling waker rest }

/-- The poll of the task goes on by a section. -/
def pollOn (s : Wait slots size) (waker : Waker) (rest : Signal.Program (Option Nat)) :
    Wait slots size := (s.perform [] rest).resume waker (rest.step s.shared.signal).1

variable [HasSlots slots] [RegisterBus (World σ slots size)] [InterruptLine (World σ slots size)]

/-- One critical section of somebody, or one move between two sections. Of the world of the
installed driver nothing is assumed. -/
inductive Step (σ : Type) [RegisterBus (World σ slots size)] [InterruptLine (World σ slots size)] :
    Wait slots size → Wait slots size → Prop
  | install (s) {driver : Driver slots size} {replaced : Option (Driver slots size)}
      {shared : Shared slots size} (h : s.shared.install driver = .ok (replaced, shared)) :
      Step σ s { s with shared }
  | uninstall (s) {removed : Option (Driver slots size)} {shared : Shared slots size}
      (h : s.shared.uninstall = .ok (removed, shared)) : Step σ s { s with shared }
  /-- Somebody works with the driver. -/
  | access (s) {α : Type} (program : DriverM σ slots size α) (port : Port (World σ slots size))
      {answer : Option α} {shared : Shared slots size}
      (h : ((s.shared.run program).run port).1 = .ok (answer, shared)) : Step σ s { s with shared }
  /-- The first section of an interrupt routine. -/
  | interrupt (s) (consume : Bytes → World σ slots size → World σ slots size)
      (port : Port (World σ slots size)) {collected : Option Nat}
      {rest : Signal.Program (Option Waker)} {shared : Shared slots size} {actions : List Action}
      (h : ((s.shared.collect consume).run port).1 = .ok (collected, rest, shared))
      (hjournal : ((s.shared.collect consume).run port).2.journal.toList =
        port.journal.toList ++ actions) :
      Step σ s
        { shared
          waiter := s.waiter
          routines := ⟨actions.filterMap Action.delivery?, rest⟩ :: s.routines
          past := .collected (actions.filterMap Action.delivery?) :: s.past }
  /-- The next section of an interrupt routine. -/
  | routine (s) {front back : List Routine} {served : List (TransferId × Bytes)}
      {rest : Signal.Program (Option Waker)} (h : s.routines = front ++ ⟨served, rest⟩ :: back) :
      Step σ s
        { s.perform served rest with
          routines := front ++ ⟨served, (rest.step s.shared.signal).1⟩ :: back }
  /-- An interrupt routine ends, and calls the waker it has taken. -/
  | finish (s) {front back : List Routine} {served : List (TransferId × Bytes)}
      {woken : Option Waker} (h : s.routines = front ++ ⟨served, .done woken⟩ :: back) :
      Step σ s
        { s with routines := front ++ back, past := (woken.map .called).toList ++ s.past }
  /-- A poll begins. -/
  | start (s) (waker : Waker) (hwaiter : s.waiter = .idle ∨ ∃ old, s.waiter = .suspended old) :
      Step σ s (s.resume waker (.poll waker))
  /-- The next section of a poll. -/
  | poll (s) {waker : Waker} {rest : Signal.Program (Option Nat)}
      (hwaiter : s.waiter = .polling waker rest) : Step σ s (s.pollOn waker rest)
  /-- The task gives the wait up, between two polls. -/
  | drop (s) {waker : Waker} (hwaiter : s.waiter = .suspended waker) :
      Step σ s { s with waiter := .idle }

/-- States that come from a shared driver with nothing installed and nobody waiting. -/
def Reached (σ : Type) [RegisterBus (World σ slots size)] [InterruptLine (World σ slots size)]
    (s : Wait slots size) : Prop := ReflTransGen (Step σ) {} s

section Shared

variable {shared shared' : Shared slots size} {port port' : Port (World σ slots size)} {α : Type}
variable {program : DriverM σ slots size α} {answer : Option α}

omit [HasSlots slots] [RegisterBus (World σ slots size)] [InterruptLine (World σ slots size)]

theorem run_idle (program : DriverM σ slots size α) (hcell : shared.cell = .idle none) :
    (shared.run program).run port = (.ok (none, shared), port) := by
  unfold Shared.run
  rw [hcell]
  rfl

theorem run_installed (program : DriverM σ slots size α) {driver : Driver slots size}
    (hcell : shared.cell = .idle (some driver)) : (shared.run program).run port =
      (.ok (some (program.outcome driver port).1.1,
        { shared with cell := .idle (some (program.outcome driver port).1.2) }),
        (program.outcome driver port).2) := by
  unfold Shared.run
  rw [hcell]
  rfl

theorem run_held (program : DriverM σ slots size α) (hcell : shared.cell = .held) :
    (shared.run program).run port = (.error .reentered, port) := by
  unfold Shared.run
  rw [hcell]
  rfl

/-- Who is not turned away finds no driver, or works with the one installed. -/
theorem run_cases (h : (shared.run program).run port = (.ok (answer, shared'), port')) :
    (shared.cell = .idle none ∧ answer = none ∧ shared' = shared ∧ port' = port) ∨
    ∃ driver, shared.cell = .idle (some driver) ∧
      answer = some (program.outcome driver port).1.1 ∧
      shared' = { shared with cell := .idle (some (program.outcome driver port).1.2) } ∧
      port' = (program.outcome driver port).2 := by
  cases hcell : shared.cell with
  | held =>
    rw [run_held program hcell] at h
    cases h
  | idle driver? =>
    cases driver? with
    | none =>
      rw [run_idle program hcell] at h
      cases h
      exact .inl ⟨rfl, rfl, rfl, rfl⟩
    | some driver =>
      rw [run_installed program hcell] at h
      cases h
      exact .inr ⟨driver, rfl, rfl, rfl, rfl⟩

/-- Nobody who works with the driver touches the signal, or keeps the driver. -/
theorem run_frame (h : ((shared.run program).run port).1 = .ok (answer, shared')) :
    shared'.signal = shared.signal ∧ ∃ driver?, shared'.cell = .idle driver? := by
  obtain ⟨hcell, -, rfl, -⟩ | ⟨driver, hcell, -, rfl, -⟩ := run_cases (Prod.ext h rfl)
  · exact ⟨rfl, none, hcell⟩
  · exact ⟨rfl, _, rfl⟩

theorem install_frame {driver : Driver slots size} {replaced : Option (Driver slots size)}
    (h : shared.install driver = .ok (replaced, shared')) :
    shared'.signal = shared.signal ∧ ∃ driver?, shared'.cell = .idle driver? := by
  unfold Shared.install at h
  cases hcell : shared.cell <;> rw [hcell] at h <;> cases h
  exact ⟨rfl, _, rfl⟩

theorem uninstall_frame {removed : Option (Driver slots size)}
    (h : shared.uninstall = .ok (removed, shared')) :
    shared'.signal = shared.signal ∧ ∃ driver?, shared'.cell = .idle driver? := by
  unfold Shared.uninstall at h
  cases hcell : shared.cell <;> rw [hcell] at h <;> cases h
  exact ⟨rfl, _, rfl⟩

end Shared

section Collect

variable {shared shared' : Shared slots size} {port : Port (World σ slots size)}
variable {consume : Bytes → World σ slots size → World σ slots size}
variable {collected : Option Nat} {rest : Signal.Program (Option Waker)}

theorem collect_installed (consume : Bytes → World σ slots size → World σ slots size)
    {driver : Driver slots size} (hcell : shared.cell = .idle (some driver)) :
    (shared.collect consume).run port =
      (.ok (((Driver.serviceInterrupt consume).outcome driver port).1.1,
        .announce (((Driver.serviceInterrupt consume).outcome driver port).1.1.getD 0),
        { shared with
          cell := .idle (some ((Driver.serviceInterrupt consume).outcome driver port).1.2) }),
        ((Driver.serviceInterrupt consume).outcome driver port).2) := by
  rw [Shared.collect, StateT.run_bind, run_installed _ hcell]
  rfl

theorem collect_run (h : ((shared.collect consume).run port).1 = .ok (collected, rest, shared')) :
    ∃ answer : Option (Option Nat),
      (shared.run (Driver.serviceInterrupt consume)).run port =
        (.ok (answer, shared'), ((shared.collect consume).run port).2) ∧
      collected = answer.join ∧ rest = .announce (answer.join.getD 0) := by
  unfold Shared.collect at h ⊢
  rw [StateT.run_bind] at h ⊢
  cases hresult : (shared.run (Driver.serviceInterrupt consume)).run port with
  | mk result port' =>
    rw [hresult] at h
    cases result with
    | error fault => cases h
    | ok answer =>
      cases h
      exact ⟨answer.1, rfl, rfl, rfl⟩

theorem collect_frame
    (h : ((shared.collect consume).run port).1 = .ok (collected, rest, shared')) :
    shared'.signal = shared.signal ∧ ∃ driver?, shared'.cell = .idle driver? := by
  obtain ⟨answer, hrun, -⟩ := collect_run h
  exact run_frame (congrArg Prod.fst hrun)

/-- The interrupt routine of a shared driver counts its deliveries, and goes on to announce them. -/
theorem collect_rest {actions : List Action}
    (h : ((shared.collect consume).run port).1 = .ok (collected, rest, shared'))
    (hjournal : ((shared.collect consume).run port).2.journal.toList =
      port.journal.toList ++ actions) :
    rest = .announce (actions.filterMap Action.delivery?).length := by
  obtain ⟨answer, hrun, -, rfl⟩ := collect_run h
  refine congrArg Signal.Program.announce ?_
  obtain ⟨-, rfl, -, hport⟩ | ⟨driver, -, rfl, -, hport⟩ := run_cases hrun
  · rw [hport] at hjournal
    obtain rfl : [] = actions := List.append_cancel_left ((List.append_nil _).trans hjournal)
    rfl
  · rw [hport] at hjournal
    obtain ⟨actions', hjournal', -, hdeliveries, -⟩ :=
      Driver.serviceInterrupt_books consume port
    obtain rfl : actions' = actions := List.append_cancel_left (hjournal'.symm.trans hjournal)
    exact hdeliveries.symm

end Collect

variable {s s' : Wait slots size} {waker : Waker} {rest : Signal.Program (Option Nat)}
variable {front back : List Routine} {served : List (TransferId × Bytes)}

section Sections

omit [HasSlots slots] [RegisterBus (World σ slots size)] [InterruptLine (World σ slots size)]

/-- What a section of a poll can do: take what is there and return it, find nothing at the first
look, leave the waker, or find nothing at the second look. -/
theorem pollOn_cases (s : Wait slots size) (h : (Waiter.polling waker rest).Placed) :
    (0 < s.completions ∧ s.pollOn waker rest =
      { s.signals s.shared.signal.takeCompletions.2 [.returned s.completions] with
        waiter := .idle }) ∨
    (rest = .poll waker ∧ s.completions = 0 ∧
      s.pollOn waker rest = { s with waiter := .polling waker (.leaveWaker waker) }) ∨
    (rest = .leaveWaker waker ∧ s.pollOn waker rest =
      { s.signals (s.shared.signal.registerWaker waker) [.registered waker] with
        waiter := .polling waker .lookAgain }) ∨
    (rest = .lookAgain ∧ s.completions = 0 ∧
      s.pollOn waker rest = { s with waiter := .suspended waker }) := by
  obtain ⟨⟨cell, ⟨completions, slot⟩⟩, waiter, routines, past⟩ := s
  cases h with
  | missed => exact .inr (.inr (.inl ⟨rfl, rfl⟩))
  | begun =>
    by_cases hpos : 0 < completions
    · refine .inl ⟨hpos, ?_⟩
      simp only [pollOn, Signal.Program.poll, Signal.Program.step, Signal.takeCompletions, hpos,
        if_true]
      rfl
    · obtain rfl := Nat.eq_zero_of_not_pos hpos
      exact .inr (.inl ⟨rfl, rfl, rfl⟩)
  | registered =>
    by_cases hzero : completions = 0
    · subst hzero
      exact .inr (.inr (.inr ⟨rfl, rfl, rfl⟩))
    · refine .inl ⟨Nat.pos_of_ne_zero hzero, ?_⟩
      simp only [pollOn, Signal.Program.lookAgain, Signal.Program.step, Signal.takeCompletions,
        hzero, if_false]
      rfl

end Sections

/-- Everybody stands somewhere in his program. -/
structure Orderly (s : Wait slots size) : Prop where
  waiter : s.waiter.Placed
  routines : ∀ routine ∈ s.routines, routine.Placed

omit [HasSlots slots] in
theorem Orderly.routine {routine : Routine} (h : s.Orderly)
    (hroutines : s.routines = front ++ routine :: back) : routine.Placed :=
  h.routines routine (hroutines ▸ Routine.mem_split_iff.2 (.inl rfl))

omit [HasSlots slots] in
theorem Orderly.others {routine : Routine} (h : s.Orderly)
    (hroutines : s.routines = front ++ routine :: back) : ∀ other ∈ front ++ back, other.Placed :=
  fun other hother => h.routines other (hroutines ▸ Routine.mem_split_iff.2 (.inr hother))

theorem Step.orderly (hstep : Step σ s s') (h : s.Orderly) : s'.Orderly := by
  cases hstep with
  | install | uninstall | access => exact ⟨h.waiter, h.routines⟩
  | interrupt consume port hcollect hjournal =>
    refine ⟨h.waiter, fun routine hmem => ?_⟩
    rcases List.mem_cons.1 hmem with rfl | hmem
    · rw [collect_rest hcollect hjournal]
      exact Routine.placed_announce _
    · exact h.routines routine hmem
  | @routine _ _ served _ hroutines =>
    refine ⟨h.waiter, fun routine hmem => ?_⟩
    rcases Routine.mem_split_iff.1 hmem with rfl | hother
    · cases h.routine hroutines with
      | collected => exact .added served
      | added => exact .fetched served _
      | fetched _ woken => exact .fetched served woken
    · exact h.others hroutines routine hother
  | finish hroutines => exact ⟨h.waiter, h.others hroutines⟩
  | start waker hwaiter => exact ⟨.begun waker, h.routines⟩
  | @poll waker rest hwaiter =>
    rcases s.pollOn_cases (hwaiter ▸ h.waiter) with
      ⟨-, heq⟩ | ⟨-, -, heq⟩ | ⟨-, heq⟩ | ⟨-, -, heq⟩ <;> rw [heq]
    · exact ⟨.idle, h.routines⟩
    · exact ⟨.missed waker, h.routines⟩
    · exact ⟨.registered waker, h.routines⟩
    · exact ⟨.suspended waker, h.routines⟩
  | drop hwaiter => exact ⟨.idle, h.routines⟩

theorem Reached.orderly (h : Reached σ s) : s.Orderly := by
  induction h with
  | refl => exact ⟨.idle, by simp⟩
  | tail _ hstep ih => exact hstep.orderly ih

section Undisturbed

/-- What is noted of a program that nobody disturbs, in a routine that has made these deliveries. -/
def noted {α : Type} (served : List (TransferId × Bytes)) :
    Signal.Program α → Signal → List Incident → List Incident
  | .done _, _, past => past
  | .takeCompletions next, signal, past =>
    noted served (next signal.takeCompletions.1) signal.takeCompletions.2 past
  | .addCompletions count next, signal, past =>
    noted served next (signal.addCompletions count) (.added count served :: past)
  | .registerWaker waker next, signal, past =>
    noted served next (signal.registerWaker waker) (.registered waker :: past)
  | .takeWaker next, signal, past =>
    noted served (next signal.takeWaker.1) signal.takeWaker.2 past

omit [HasSlots slots] [RegisterBus (World σ slots size)] [InterruptLine (World σ slots size)] in
theorem noted_announce (count : Nat) (signal : Signal) (past : List Incident) :
    noted served (.announce count) signal past =
      if 0 < count then .added count served :: past else past := by
  unfold Signal.Program.announce
  split <;> rfl

/-- The sections of a routine make up its program. -/
theorem routine_steps (rest : Signal.Program (Option Waker)) (s : Wait slots size)
    (h : s.routines = ⟨served, rest⟩ :: back) :
    ReflTransGen (Step σ) s
      { shared := { s.shared with signal := (rest.run s.shared.signal).2 }
        waiter := s.waiter
        routines := back
        past := ((rest.run s.shared.signal).1.map .called).toList ++
          noted served rest s.shared.signal s.past } := by
  obtain ⟨⟨cell, signal⟩, waiter, routines, past⟩ := s
  obtain rfl := h
  have hsplit : ∀ rest : Signal.Program (Option Waker),
      Routine.mk served rest :: back = [] ++ ⟨served, rest⟩ :: back := fun _ => rfl
  induction rest generalizing signal past with
  | done woken => exact .single (.finish ⟨⟨cell, signal⟩, waiter, _, past⟩ (hsplit _))
  | takeCompletions next ih =>
    exact (ih _ _ _).head (.routine ⟨⟨cell, signal⟩, waiter, _, past⟩ (hsplit _))
  | addCompletions count next ih =>
    exact (ih _ _).head (.routine ⟨⟨cell, signal⟩, waiter, _, past⟩ (hsplit _))
  | registerWaker waker next ih =>
    exact (ih _ _).head (.routine ⟨⟨cell, signal⟩, waiter, _, past⟩ (hsplit _))
  | takeWaker next ih =>
    exact (ih _ _ _).head (.routine ⟨⟨cell, signal⟩, waiter, _, past⟩ (hsplit _))

/-- The sections of a poll that has still this to do make up the rest of it. -/
theorem resume_steps (waker : Waker) (rest : Signal.Program (Option Nat)) (s : Wait slots size) :
    ReflTransGen (Step σ) (s.resume waker rest)
      (resume { s with
        shared := { s.shared with signal := (rest.run s.shared.signal).2 }
        past := noted [] rest s.shared.signal s.past } waker
        (.done (rest.run s.shared.signal).1)) := by
  obtain ⟨⟨cell, signal⟩, waiter, routines, past⟩ := s
  induction rest generalizing signal waiter past with
  | done answer => exact .refl
  | takeCompletions next ih => exact (ih _ _ _ _).head (.poll _ rfl)
  | addCompletions count next ih => exact (ih _ _ _).head (.poll _ rfl)
  | registerWaker left next ih => exact (ih _ _ _).head (.poll _ rfl)
  | takeWaker next ih => exact (ih _ _ _ _).head (.poll _ rfl)

/-- What one poll of the task leaves. -/
def polled (s : Wait slots size) (waker : Waker) : Wait slots size :=
  match s.shared.poll waker with
  | (some count, shared) => { s with shared, waiter := .idle, past := .returned count :: s.past }
  | (none, shared) =>
    { s with shared, waiter := .suspended waker, past := .registered waker :: s.past }

/-- The sections of a poll make up the poll. -/
theorem poll_steps (s : Wait slots size) (waker : Waker)
    (hwaiter : s.waiter = .idle ∨ ∃ old, s.waiter = .suspended old) :
    ReflTransGen (Step σ) s (s.polled waker) := by
  have hstart : Step σ s (s.resume waker (.poll waker)) := .start s waker hwaiter
  have hsteps := (resume_steps waker (.poll waker) s).head hstart
  obtain ⟨⟨cell, ⟨completions, slot⟩⟩, waiter, routines, past⟩ := s
  by_cases hpos : 0 < completions
  · have hrun : (Signal.Program.poll waker).run ⟨completions, slot⟩ =
        (some completions, ⟨0, slot⟩) := by
      simp [Signal.Program.poll, Signal.Program.run, Signal.takeCompletions, hpos]
    have hnoted : noted [] (.poll waker) ⟨completions, slot⟩ past = past := by
      simp [Signal.Program.poll, noted, Signal.takeCompletions, hpos]
    rw [hrun, hnoted] at hsteps
    unfold polled Shared.poll Signal.poll
    rw [hrun]
    exact hsteps
  · obtain rfl := Nat.eq_zero_of_not_pos hpos
    exact hsteps

/-- What an interrupt routine leaves that has made these deliveries. -/
def serviced (s : Wait slots size) (shared : Shared slots size) (service : Service)
    (served : List (TransferId × Bytes)) : Wait slots size :=
  let past := .collected served :: s.past
  let past := if 0 < service.collected.getD 0 then .added (service.collected.getD 0) served :: past
    else past
  { s with shared, past := (service.woken.map .called).toList ++ past }

/-- The sections of an interrupt routine make up the routine. -/
theorem onInterrupt_steps (s : Wait slots size)
    {consume : Bytes → World σ slots size → World σ slots size} {port : Port (World σ slots size)}
    {service : Service} {shared : Shared slots size} {actions : List Action}
    (h : ((s.shared.onInterrupt consume).run port).1 = .ok (service, shared))
    (hjournal : ((s.shared.onInterrupt consume).run port).2.journal.toList =
      port.journal.toList ++ actions) :
    ReflTransGen (Step σ) s
      (s.serviced shared service (actions.filterMap Action.delivery?)) := by
  unfold Shared.onInterrupt at h hjournal
  rw [StateT.run_bind] at h hjournal
  cases hresult : (s.shared.collect consume).run port with
  | mk result port' =>
    rw [hresult] at h hjournal
    cases result with
    | error fault => cases h
    | ok collection =>
      obtain ⟨collected, rest, shared₁⟩ := collection
      cases h
      have hcollect := congrArg Prod.fst hresult
      have hinterrupt : Step σ s _ := .interrupt s consume port hcollect
        ((congrArg (·.2.journal.toList) hresult).trans hjournal)
      obtain ⟨answer, -, rfl, rfl⟩ := collect_run hcollect
      have hsteps := (routine_steps _ _ rfl).head hinterrupt
      rw [noted_announce] at hsteps
      exact hsteps

end Undisturbed

/-- Between two critical sections nobody holds the driver. -/
theorem Reached.idle (h : Reached σ s) : ∃ driver?, s.shared.cell = .idle driver? := by
  induction h with
  | refl => exact ⟨none, rfl⟩
  | @tail s s' _ hstep ih =>
    cases hstep with
    | install hinstall => exact (install_frame hinstall).2
    | uninstall huninstall => exact (uninstall_frame huninstall).2
    | access program port hrun => exact (run_frame hrun).2
    | interrupt consume port hcollect => exact (collect_frame hcollect).2
    | @poll waker rest =>
      obtain ⟨driver?, hcell⟩ := ih
      refine ⟨driver?, Eq.trans ?_ hcell⟩
      unfold pollOn resume
      split <;> rfl
    | _ => exact ih

/-- So nobody who comes then is turned away. -/
theorem Reached.answers (h : Reached σ s) {α : Type} (program : DriverM σ slots size α)
    (port : Port (World σ slots size)) :
    ∃ answer shared, ((s.shared.run program).run port).1 = .ok (answer, shared) := by
  obtain ⟨driver?, hcell⟩ := h.idle
  cases driver? with
  | none => exact ⟨_, _, congrArg Prod.fst (run_idle program hcell)⟩
  | some driver => exact ⟨_, _, congrArg Prod.fst (run_installed program hcell)⟩

end Wait
end DmaController

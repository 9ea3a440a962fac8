import DmaController.Proofs.Interleaving

/-!
Waiting for completions. Interrupt routines add what they have collected, and call the waker that
the task has left; the task takes over what is there, and sleeps when there is nothing. Main
statements: whatever the order of their critical sections, what was collected is taken over just
once, and a task does not sleep through a completion.
-/
namespace DmaController

open Relation

/-- The counts agree: what was collected was added or is due, what was added was returned or is
still there, and each number is that of the deliveries it stands for. -/
structure Tally (completions : Nat) (routines : List Routine) (past : List Incident) : Prop where
  returned_eq : (past.filterMap Incident.returned?).sum + completions =
    (past.filterMap Incident.added?).sum
  added_eq : (past.filterMap Incident.added?).sum + (routines.map Routine.due).sum =
    (past.filterMap Incident.collected?).sum
  returned_pos : ∀ count, .returned count ∈ past → 0 < count
  exact_added : ∀ count served, .added count served ∈ past → count = served.length

namespace Tally

variable {completions : Nat} {routines routines' front back : List Routine}
variable {past : List Incident} {served : List (TransferId × Bytes)}

/-- A routine begins, and has made these deliveries. -/
theorem collect (h : Tally completions routines past) (served : List (TransferId × Bytes)) :
    Tally completions (⟨served, .announce served.length⟩ :: routines)
      (.collected served :: past) where
  returned_eq := h.returned_eq
  added_eq := by
    have hadded := h.added_eq
    change (past.filterMap Incident.added?).sum + _ =
      served.length + (past.filterMap Incident.collected?).sum
    rw [List.map_cons, List.sum_cons, Routine.due_announce]
    omega
  returned_pos other hmem := h.returned_pos other (List.mem_of_ne_of_mem (by simp) hmem)
  exact_added other served' hmem :=
    h.exact_added other served' (List.mem_of_ne_of_mem (by simp) hmem)

theorem add (h : Tally completions
      (front ++ ⟨served, .addCompletions served.length .fetchWaker⟩ :: back) past) :
    Tally (completions + served.length) (front ++ ⟨served, .fetchWaker⟩ :: back)
      (.added served.length served :: past) where
  returned_eq := by
    have hreturned := h.returned_eq
    change (past.filterMap Incident.returned?).sum + _ =
      served.length + (past.filterMap Incident.added?).sum
    omega
  added_eq := by
    have hadded := h.added_eq
    change served.length + (past.filterMap Incident.added?).sum + _ =
      (past.filterMap Incident.collected?).sum
    simp only [List.map_append, List.map_cons, List.sum_append, List.sum_cons,
      Routine.due_addCompletions, Routine.due_fetchWaker] at hadded ⊢
    omega
  returned_pos other hmem := h.returned_pos other (List.mem_of_ne_of_mem (by simp) hmem)
  exact_added other served' hmem := by
    rcases List.mem_cons.1 hmem with heq | hmem
    · obtain ⟨rfl, rfl⟩ := Incident.added.inj heq
      rfl
    · exact h.exact_added other served' hmem

/-- Routines that have nothing to add come and go. -/
theorem turn (h : Tally completions routines past)
    (hdue : (routines'.map Routine.due).sum = (routines.map Routine.due).sum) :
    Tally completions routines' past where
  returned_eq := h.returned_eq
  added_eq := by
    rw [hdue]
    exact h.added_eq
  returned_pos := h.returned_pos
  exact_added := h.exact_added

/-- Something happens that moves no completions. -/
theorem mention (h : Tally completions routines past) {incident : Incident}
    (hincident : incident.IsCall) : Tally completions routines (incident :: past) := by
  cases incident with
  | called | registered =>
    refine ⟨h.returned_eq, h.added_eq, fun other hmem => ?_, fun other served' hmem => ?_⟩
    · exact h.returned_pos other (List.mem_of_ne_of_mem (by simp) hmem)
    · exact h.exact_added other served' (List.mem_of_ne_of_mem (by simp) hmem)
  | collected | added | returned => exact hincident.elim

theorem fetch (h : Tally completions (front ++ ⟨served, .fetchWaker⟩ :: back) past)
    (woken : Option Waker) : Tally completions (front ++ ⟨served, .done woken⟩ :: back) past :=
  h.turn (by simp [Routine.due_fetchWaker, Routine.due_done])

theorem finish {woken : Option Waker}
    (h : Tally completions (front ++ ⟨served, .done woken⟩ :: back) past) :
    Tally completions (front ++ back) ((woken.map .called).toList ++ past) := by
  have hgone : Tally completions (front ++ back) past := h.turn (by simp [Routine.due_done])
  cases woken with
  | none => exact hgone
  | some waker => exact hgone.mention trivial

/-- A wait returns all that is there. -/
theorem takeAll (h : Tally completions routines past) (hpos : 0 < completions) :
    Tally 0 routines (.returned completions :: past) where
  returned_eq := by
    have hreturned := h.returned_eq
    change completions + (past.filterMap Incident.returned?).sum + 0 =
      (past.filterMap Incident.added?).sum
    omega
  added_eq := h.added_eq
  returned_pos other hmem := by
    rcases List.mem_cons.1 hmem with heq | hmem
    · obtain rfl := Incident.returned.inj heq
      exact hpos
    · exact h.returned_pos other hmem
  exact_added other served' hmem :=
    h.exact_added other served' (List.mem_of_ne_of_mem (by simp) hmem)

end Tally

namespace Wait

variable {σ : Type} {slots size : Nat}
variable [HasSlots slots] [RegisterBus (World σ slots size)] [InterruptLine (World σ slots size)]
variable {s s' : Wait slots size} {waker : Waker} {rest : Signal.Program (Option Nat)}
variable {front back : List Routine} {served : List (TransferId × Bytes)}

theorem Step.tally (hstep : Step σ s s') (ho : s.Orderly)
    (h : Tally s.completions s.routines s.past) :
    Tally s'.completions s'.routines s'.past := by
  have hsame : ∀ {shared : Shared slots size}, shared.signal = s.shared.signal →
      Tally shared.signal.completions s.routines s.past := by
    intro shared hsignal
    rw [hsignal]
    exact h
  cases hstep with
  | install hinstall => exact hsame (install_frame hinstall).1
  | uninstall huninstall => exact hsame (uninstall_frame huninstall).1
  | access program port hrun => exact hsame (run_frame hrun).1
  | interrupt consume port hcollect hjournal =>
    rw [collect_rest hcollect hjournal]
    exact (hsame (collect_frame hcollect).1).collect _
  | routine hroutines =>
    have hplaced := ho.routine hroutines
    rw [hroutines] at h
    cases hplaced with
    | collected => exact h.add
    | added => exact h.fetch _
    | fetched => exact h
  | finish hroutines =>
    rw [hroutines] at h
    exact h.finish
  | start waker hwaiter => exact h
  | poll hwaiter =>
    rcases s.pollOn_cases (hwaiter ▸ ho.waiter) with
      ⟨hpos, heq⟩ | ⟨-, -, heq⟩ | ⟨-, heq⟩ | ⟨-, -, heq⟩ <;> rw [heq]
    · exact h.takeAll hpos
    · exact h
    · exact h.mention trivial
    · exact h
  | drop => exact h

/-- The waker was called since one was left last, or a routine is about to call it. -/
def Told (s : Wait slots size) (waker : Waker) : Prop :=
  .called waker ∈ Incident.recent s.past ∨ ∃ served, ⟨served, .done (some waker)⟩ ∈ s.routines

/-- The waker was left last, and it is still there, or it was told. -/
structure Left (s : Wait slots size) (waker : Waker) : Prop where
  last : s.past.find? Incident.isRegistration = some (.registered waker)
  kept : s.shared.signal.slot.waker = some waker ∨ s.Told waker

/-- The waker need not be called, or it was told, or some routine has added its number and is about
to take a waker. -/
def Guarded (s : Wait slots size) (waker : Waker) : Prop :=
  s.completions = 0 ∨ s.Told waker ∨ ∃ served, ⟨served, .fetchWaker⟩ ∈ s.routines

/-- A task that left a waker does not sleep through completions. -/
structure Watched (s : Wait slots size) : Prop where
  registered : ∀ waker, s.waiter = .polling waker .lookAgain → s.Left waker
  suspended : ∀ waker, s.waiter = .suspended waker → s.Left waker ∧ s.Guarded waker

section Watched

omit [HasSlots slots] [RegisterBus (World σ slots size)] [InterruptLine (World σ slots size)]

/-- One routine goes on, and was not about to call the waker. -/
theorem Told.onward {routine : Routine} (h : s.Told waker)
    (hroutines : s.routines = front ++ routine :: back)
    (hrest : ∀ served, routine ≠ ⟨served, .done (some waker)⟩)
    (hothers : ∀ other ∈ front ++ back, other ∈ s'.routines)
    (hrecent : .called waker ∈ Incident.recent s.past →
      .called waker ∈ Incident.recent s'.past) : s'.Told waker := by
  refine h.imp hrecent fun ⟨served, hcalling⟩ => ⟨served, ?_⟩
  rw [hroutines] at hcalling
  rcases Routine.mem_split_iff.1 hcalling with heq | hother
  · exact absurd heq.symm (hrest served)
  · exact hothers _ hother

namespace Watched

/-- No waker is left, and what was told stays told. -/
theorem onward (h : s.Watched) (hwaiter : s'.waiter = s.waiter)
    (hlast : s'.past.find? Incident.isRegistration = s.past.find? Incident.isRegistration)
    (htold : ∀ waker, s.Told waker → s'.Told waker)
    (hslot : ∀ waker, s.shared.signal.slot.waker = some waker →
      s'.shared.signal.slot.waker = some waker ∨ s'.Told waker)
    (hguarded : ∀ waker, s.Left waker → s.Guarded waker → s'.Guarded waker) : s'.Watched := by
  have hleft : ∀ waker, s.Left waker → s'.Left waker := by
    intro waker hleft
    refine ⟨hlast.trans hleft.last, ?_⟩
    rcases hleft.kept with hkept | hkept
    · exact hslot waker hkept
    · exact .inr (htold waker hkept)
  constructor
  · intro waker hregistered
    exact hleft waker (h.registered waker (hwaiter.symm.trans hregistered))
  · intro waker hsuspended
    obtain ⟨hs, hs'⟩ := h.suspended waker (hwaiter.symm.trans hsuspended)
    exact ⟨hleft waker hs, hguarded waker hs hs'⟩

/-- Somebody works with the driver. -/
theorem same (h : s.Watched) {shared : Shared slots size}
    (hsignal : shared.signal = s.shared.signal) : Watched { s with shared } := by
  refine h.onward rfl rfl (fun _ htold => htold) (fun waker hslot => .inl ?_) fun _ _ hs => ?_
  · exact (congrArg (·.slot.waker) hsignal).trans hslot
  · exact hs.imp_left fun hzero => (congrArg Signal.completions hsignal).trans hzero

/-- A routine begins. -/
theorem collect (h : s.Watched) (routine : Routine) (served : List (TransferId × Bytes)) :
    Watched { s with routines := routine :: s.routines, past := .collected served :: s.past } := by
  let after : Wait slots size :=
    { s with routines := routine :: s.routines, past := .collected served :: s.past }
  have htold : ∀ waker, s.Told waker → after.Told waker :=
    fun waker hs => hs.imp (.tail _) fun ⟨other, hmem⟩ => ⟨other, .tail _ hmem⟩
  refine h.onward rfl rfl htold (fun _ hslot => .inl hslot) fun waker _ hs => ?_
  exact hs.imp_right fun hs => hs.imp (htold waker) fun ⟨other, hmem⟩ => ⟨other, .tail _ hmem⟩

theorem add {count : Nat} (h : s.Watched)
    (hroutines : s.routines = front ++ ⟨served, .addCompletions count .fetchWaker⟩ :: back) :
    Watched { s.signals (s.shared.signal.addCompletions count) [.added count served] with
      routines := front ++ ⟨served, .fetchWaker⟩ :: back } := by
  refine h.onward rfl rfl (fun waker htold => ?_) (fun _ hslot => .inl hslot) fun _ _ _ => ?_
  · exact htold.onward hroutines (by simp)
      (fun other hother => Routine.mem_split_iff.2 (.inr hother)) (.tail _)
  · exact .inr (.inr ⟨served, Routine.mem_split_iff.2 (.inl rfl)⟩)

/-- The waker that is taken will be called. -/
theorem fetch (h : s.Watched) (hroutines : s.routines = front ++ ⟨served, .fetchWaker⟩ :: back) :
    Watched { s.signals s.shared.signal.takeWaker.2 [] with
      routines := front ++ ⟨served, .done s.shared.signal.takeWaker.1⟩ :: back } := by
  let after : Wait slots size := { s.signals s.shared.signal.takeWaker.2 [] with
    routines := front ++ ⟨served, .done s.shared.signal.takeWaker.1⟩ :: back }
  have htold : ∀ waker, s.Told waker → after.Told waker := fun waker htold =>
    htold.onward hroutines (by simp [Signal.Program.fetchWaker])
      (fun other hother => Routine.mem_split_iff.2 (.inr hother)) id
  have hslot : ∀ waker, s.shared.signal.slot.waker = some waker → after.Told waker := by
    intro waker hslot
    have htaken : s.shared.signal.takeWaker.1 = some waker := hslot
    exact .inr ⟨served, Routine.mem_split_iff.2 (.inl (by rw [htaken]))⟩
  refine h.onward rfl rfl htold (fun waker hkept => .inr (hslot waker hkept)) ?_
  intro waker hleft hs
  exact .inr (.inl (hleft.kept.elim (hslot waker) (htold waker)))

/-- A routine ends. The waker that it calls is told so. -/
theorem finish {woken : Option Waker} (h : s.Watched)
    (hroutines : s.routines = front ++ ⟨served, .done woken⟩ :: back) :
    Watched { s with
      routines := front ++ back, past := (woken.map .called).toList ++ s.past } := by
  let after : Wait slots size :=
    { s with routines := front ++ back, past := (woken.map .called).toList ++ s.past }
  have hrecent : ∀ waker, .called waker ∈ Incident.recent s.past →
      .called waker ∈ Incident.recent after.past := by
    intro waker hcalled
    cases woken with
    | none => exact hcalled
    | some called => exact .tail _ hcalled
  have htold : ∀ waker, s.Told waker → after.Told waker := by
    intro waker htold
    by_cases hwoken : woken = some waker
    · subst hwoken
      exact .inl (.head _)
    · have hother : ∀ other, Routine.mk served (.done woken) ≠ ⟨other, .done (some waker)⟩ := by
        intro other heq
        exact hwoken (Signal.Program.done.inj (congrArg Routine.rest heq))
      exact htold.onward hroutines hother (fun _ hmem => hmem) (hrecent waker)
  refine h.onward rfl ?_ htold (fun _ hslot => .inl hslot) fun waker _ hs => ?_
  · cases woken <;> rfl
  · refine hs.imp_right fun hs => hs.imp (htold waker) fun ⟨other, hmem⟩ => ⟨other, ?_⟩
    rw [hroutines] at hmem
    exact (Routine.mem_split_iff.1 hmem).resolve_left (by simp [Signal.Program.fetchWaker])

/-- A poll begins. -/
theorem start (s : Wait slots size) (waker : Waker) :
    Watched { s with waiter := .polling waker (.poll waker) } := by
  refine ⟨fun other hother => ?_, by simp⟩
  exact absurd (Waiter.polling.inj hother).2 (Signal.Program.poll_ne_lookAgain waker)

/-- The poll has left its waker. -/
theorem leave (s : Wait slots size) (waker : Waker) :
    Watched { s.signals (s.shared.signal.registerWaker waker) [.registered waker] with
      waiter := .polling waker .lookAgain } := by
  refine ⟨fun other hother => ?_, by simp⟩
  obtain ⟨rfl, -⟩ := Waiter.polling.inj hother
  exact ⟨rfl, .inl rfl⟩

/-- The second look of the poll has found nothing. -/
theorem suspend (h : s.Watched) (hwaiter : s.waiter = .polling waker .lookAgain)
    (hzero : s.completions = 0) : Watched { s with waiter := .suspended waker } := by
  refine ⟨by simp, fun other hother => ?_⟩
  obtain rfl := Waiter.suspended.inj hother
  obtain ⟨hlast, hkept⟩ := h.registered waker hwaiter
  exact ⟨⟨hlast, hkept⟩, .inl hzero⟩

end Watched
end Watched

theorem Step.watched (hstep : Step σ s s') (ho : s.Orderly) (h : s.Watched) : s'.Watched := by
  cases hstep with
  | install hinstall => exact h.same (install_frame hinstall).1
  | uninstall huninstall => exact h.same (uninstall_frame huninstall).1
  | access program port hrun => exact h.same (run_frame hrun).1
  | interrupt consume port hcollect hjournal =>
    exact (h.same (collect_frame hcollect).1).collect _ _
  | routine hroutines =>
    cases ho.routine hroutines with
    | collected => exact h.add hroutines
    | added => exact h.fetch hroutines
    | fetched =>
      obtain ⟨shared, waiter, routines, past⟩ := s
      obtain rfl := hroutines
      exact h
  | finish hroutines => exact h.finish hroutines
  | start waker hwaiter => exact .start s waker
  | @poll waker rest hwaiter =>
    rcases s.pollOn_cases (hwaiter ▸ ho.waiter) with
      ⟨-, heq⟩ | ⟨-, -, heq⟩ | ⟨-, heq⟩ | ⟨rfl, hzero, heq⟩ <;> rw [heq]
    · exact ⟨by simp, by simp⟩
    · exact ⟨by simp [Signal.Program.leaveWaker, Signal.Program.lookAgain], by simp⟩
    · exact .leave s waker
    · exact h.suspend hwaiter hzero
  | drop => exact ⟨by simp, by simp⟩

/-- What the waits returned and what is there make up what was added; what was added and what is due
make up what was collected, and no wait returns zero. A task that is suspended has left its waker
last; and if completions are there, the waker was called since then, or a routine that has added
its number will call it. Whole polls and interrupt routines, which nobody disturbs, lead to such
states again. -/
theorem Reached.vigilant (h : Reached σ s) :
    (s.past.filterMap Incident.returned?).sum + s.completions =
      (s.past.filterMap Incident.added?).sum ∧
    (s.past.filterMap Incident.added?).sum + (s.routines.map Routine.due).sum =
      (s.past.filterMap Incident.collected?).sum ∧
    (∀ count served, .added count served ∈ s.past → count = served.length) ∧
    (∀ count, .returned count ∈ s.past → count ≠ 0) ∧
    (∀ waker, s.waiter = .suspended waker →
      s.past.find? Incident.isRegistration = some (.registered waker) ∧
      (s.completions = 0 ∨ .called waker ∈ Incident.recent s.past ∨
        ∃ routine ∈ s.routines, routine.WillCall waker s.shared.signal)) ∧
    (∀ waker, (s.waiter = .idle ∨ ∃ old, s.waiter = .suspended old) →
      Reached σ (s.polled waker)) ∧
    ∀ (consume : Bytes → World σ slots size → World σ slots size)
      (port : Port (World σ slots size)) (service : Service) (shared : Shared slots size)
      (actions : List Action),
      ((s.shared.onInterrupt consume).run port).1 = .ok (service, shared) →
      ((s.shared.onInterrupt consume).run port).2.journal.toList =
        port.journal.toList ++ actions →
      Reached σ (s.serviced shared service (actions.filterMap Action.delivery?)) := by
  have htally : Tally s.completions s.routines s.past := by
    induction h with
    | refl => exact ⟨rfl, rfl, by simp, by simp⟩
    | tail hreached hstep ih => exact hstep.tally (Reached.orderly hreached) ih
  have hwatched : s.Watched := by
    clear htally
    induction h with
    | refl => exact ⟨by simp, by simp⟩
    | tail hreached hstep ih => exact hstep.watched (Reached.orderly hreached) ih
  refine ⟨htally.returned_eq, htally.added_eq, htally.exact_added,
    fun count hmem => Nat.ne_of_gt (htally.returned_pos count hmem), fun waker hwaiter => ?_,
    fun waker hwaiter => h.trans (poll_steps s waker hwaiter),
    fun _ _ _ _ _ hanswer hjournal => h.trans (onInterrupt_steps s hanswer hjournal)⟩
  obtain ⟨⟨hlast, hkept⟩, hguarded⟩ := hwatched.suspended waker hwaiter
  have htold : s.Told waker → .called waker ∈ Incident.recent s.past ∨
      ∃ routine ∈ s.routines, routine.WillCall waker s.shared.signal :=
    fun htold => htold.imp id fun ⟨_, hcalling⟩ => ⟨_, hcalling, Routine.willCall_done _⟩
  refine ⟨hlast, ?_⟩
  rcases hguarded with hzero | htold' | ⟨served, hadded⟩
  · exact .inl hzero
  · exact .inr (htold htold')
  · rcases hkept with hslot | htold'
    · exact .inr (.inr ⟨_, hadded, Routine.willCall_fetchWaker hslot⟩)
    · exact .inr (htold htold')

/-- A driver with a completed transfer of one byte. -/
def readyRig : Rig 2 16 :=
  ((Call.send fun _ => (#[1], 1)).perform Rig.small).stimulate (.finish 0)

/-- The task sleeps, and an interrupt routine has added one completion. -/
def alarmed : Wait 2 16 where
  shared :=
    { cell := .idle (some ((Driver.serviceInterrupt Sim.consume).outcome readyRig.driver
        readyRig.port).1.2)
      signal := ⟨1, ⟨some 7⟩⟩ }
  waiter := .suspended 7
  routines := [⟨[(.first, #[1])], .fetchWaker⟩]
  past := [.added 1 [(.first, #[1])], .collected [(.first, #[1])], .registered 7]

theorem alarmed_reached : Reached Sim.Bench alarmed := by
  let installed : Wait 2 16 := { shared := { cell := .idle (some readyRig.driver) } }
  let asleep : Wait 2 16 :=
    { shared := { cell := .idle (some readyRig.driver), signal := ⟨0, ⟨some 7⟩⟩ }
      waiter := .suspended 7, past := [.registered 7] }
  have hinstall : Step Sim.Bench {} installed := .install {} rfl
  have hasleep : ReflTransGen (Step Sim.Bench) installed asleep :=
    poll_steps installed 7 (.inl rfl)
  have hcollect : (asleep.shared.collect Sim.consume).run readyRig.port = _ :=
    collect_installed _ rfl
  obtain ⟨actions, hjournal, hserved⟩ : ∃ actions : List Action,
      ((Driver.serviceInterrupt Sim.consume).outcome readyRig.driver
        readyRig.port).2.journal.toList = readyRig.port.journal.toList ++ actions ∧
      actions.filterMap Action.delivery? = [(.first, #[1])] :=
    ⟨((Driver.serviceInterrupt Sim.consume).outcome readyRig.driver
      readyRig.port).2.journal.toList.drop readyRig.port.journal.size, by decide +kernel,
      by decide +kernel⟩
  have hcollected : ((Driver.serviceInterrupt Sim.consume).outcome readyRig.driver
      readyRig.port).1.1 = some 1 := by decide +kernel
  rw [hcollected] at hcollect
  have hinterrupt := Step.interrupt asleep Sim.consume readyRig.port (congrArg Prod.fst hcollect)
    ((congrArg (·.2.journal.toList) hcollect).trans hjournal)
  rw [hserved] at hinterrupt
  let began : Wait 2 16 :=
    { shared := { alarmed.shared with signal := ⟨0, ⟨some 7⟩⟩ }
      waiter := .suspended 7
      routines := [⟨[(.first, #[1])], .announce 1⟩]
      past := [.collected [(.first, #[1])], .registered 7] }
  have hbegan : Step Sim.Bench asleep began := hinterrupt
  have hroutines : began.routines = [] ++ ⟨[(.first, #[1])], .announce 1⟩ :: [] := rfl
  exact (((ReflTransGen.single hinstall).trans hasleep).tail hbegan).tail (.routine began hroutines)

/-- The routine that has added the completion will call the waker of the task. -/
theorem vigilant_alarmed : Reached Sim.Bench alarmed ∧ alarmed.waiter = .suspended 7 ∧
    alarmed.completions = 1 ∧
    (alarmed.completions = 0 ∨ .called 7 ∈ Incident.recent alarmed.past ∨
      ∃ routine ∈ alarmed.routines, routine.WillCall 7 alarmed.shared.signal) :=
  ⟨alarmed_reached, rfl, rfl, (alarmed_reached.vigilant.2.2.2.2.1 7 rfl).2⟩

end Wait
end DmaController

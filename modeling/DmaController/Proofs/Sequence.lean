import DmaController.Proofs.Flight

/-!
The sequence of submissions since the last abort. They carry the ids in ring order, and the hardware
has accepted them one by one, but for a last one that is pending or still being prepared. All that
holds of transfers is collected in one invariant of steps.
-/
namespace DmaController

open Relation Sim

/-- The submissions that are not accepted: at most one, and the registers of a pending one
describe it. -/
inductive Coming (k : Known) (e : Engine) : List Transfer → Prop
  | none (hquiet : e.submitPending = false) (hdraft : k.draft.transfer? = none) : Coming k e []
  | drafted {transfer} (hquiet : e.submitPending = false)
      (hdraft : k.draft.transfer? = some transfer) : Coming k e [transfer]
  | pending {transfer} (hpending : e.submitPending = true) (hdraft : k.draft.transfer? = none)
      (hcarries : e.programmed.Carries transfer) : Coming k e [transfer]

theorem Coming.same {k k' : Known} {e e' : Engine} {coming : List Transfer} (h : Coming k e coming)
    (hpending : e'.submitPending = e.submitPending)
    (hprogrammed : e.submitPending = true → e'.programmed = e.programmed)
    (hdraft : k'.draft.transfer? = k.draft.transfer?) : Coming k' e' coming := by
  cases h with
  | none hquiet hnone => exact .none (hpending.trans hquiet) (hdraft.trans hnone)
  | drafted hquiet hsome => exact .drafted (hpending.trans hquiet) (hdraft.trans hsome)
  | pending hpending' hnone hcarries =>
    refine .pending (hpending.trans hpending') (hdraft.trans hnone) ?_
    rw [hprogrammed hpending']
    exact hcarries

/-- The submissions since the last abort, as they are numbered and accepted. -/
structure Numbered (k : Known) (e : Engine) : Prop where
  id_eq : ∀ (i : Nat) (transfer : Transfer),
    (recent Event.submission? e.history)[i]? = some transfer →
      transfer.id = TransferId.first.ahead i
  nextId_eq : e.nextId.toNat = (recent Event.accepted? e.history).length % 31
  accepted : ∃ taken coming, recent Event.submission? e.history = taken ++ coming ∧
    List.Forall₂ Accepted.Carries (recent Event.accepted? e.history) taken ∧ Coming k e coming

namespace Numbered

variable {k k' : Known} {e e' : Engine} {transfer : Transfer}

theorem acceptId_eq (h : Numbered k e) :
    e.acceptId = (recent Event.accepted? e.history).length % 31 := by
  have hnext := h.nextId_eq
  rw [e.acceptId_of_lt (by omega), hnext]

/-- Nothing was submitted since the abort. -/
theorem empty (hsubmitted : recent Event.submission? e.history = [])
    (haccepted : recent Event.accepted? e.history = []) (hquiet : e.submitPending = false)
    (hnext : e.nextId = 0) (hdraft : k.draft.transfer? = none) : Numbered k e := by
  refine ⟨?_, ?_, [], [], ?_, ?_, .none hquiet hdraft⟩
  · simp [hsubmitted]
  · simp [haccepted, hnext]
  · rw [hsubmitted]
    rfl
  · rw [haccepted]
    exact .nil

theorem same (h : Numbered k e)
    (hsubmitted : recent Event.submission? e'.history = recent Event.submission? e.history)
    (haccepted : recent Event.accepted? e'.history = recent Event.accepted? e.history)
    (hnext : e'.nextId = e.nextId) (hpending : e'.submitPending = e.submitPending)
    (hprogrammed : e.submitPending = true → e'.programmed = e.programmed)
    (hdraft : k'.draft.transfer? = k.draft.transfer?) : Numbered k' e' := by
  obtain ⟨hid, hnextId, taken, coming, hsplit, hcarries, hcoming⟩ := h
  refine ⟨?_, ?_, taken, coming, ?_, ?_, hcoming.same hpending hprogrammed hdraft⟩
  · rw [hsubmitted]
    exact hid
  · rw [hnext, haccepted, hnextId]
  · rw [hsubmitted, hsplit]
  · rw [haccepted]
    exact hcarries

theorem alike (h : Numbered k e) (he : e.Alike e')
    (hdraft : k'.draft.transfer? = k.draft.transfer?) : Numbered k' e' := by
  have haccepted : ∀ event : Event, event.IsPlain → event.accepted? = none := by
    intro event hplain
    cases event with
    | written | noted => rfl
    | accepted | completed | aborted => exact hplain.elim
  exact h.same (recent_alike he fun _ => Event.IsPlain.submission?_eq) (recent_alike he haccepted)
    he.nextId_eq he.pending_eq he.programmed_eq hdraft

theorem takeOver (h : Numbered k e) (hpending : e.submitPending = true) :
    Numbered k e.takeOver := by
  have hacceptId := h.acceptId_eq
  obtain ⟨hid, hnextId, taken, coming, hsplit, hcarries, hcoming⟩ := h
  have hsubmitted : recent Event.submission? e.takeOver.history =
      recent Event.submission? e.history := recent_cons_none (by simp) rfl
  have haccepted : recent Event.accepted? e.takeOver.history =
      recent Event.accepted? e.history ++ [e.programmed] := recent_cons (by simp)
  cases hcoming with
  | none hquiet => cases hquiet.symm.trans hpending
  | drafted hquiet => cases hquiet.symm.trans hpending
  | @pending transfer _ hdraft hprogrammed =>
    refine ⟨?_, ?_, taken ++ [transfer], [], ?_, ?_, .none rfl hdraft⟩
    · rw [hsubmitted]
      exact hid
    · rw [haccepted, List.length_append, List.length_singleton]
      have hval : e.takeOver.nextId.toNat =
          if e.acceptId ≥ 30 then 0 else (BitVec.ofNat 32 (e.acceptId + 1)).toNat := by
        unfold Engine.takeOver
        split_ifs <;> rfl
      rw [hval, BitVec.toNat_ofNat]
      split_ifs <;> omega
    · rw [hsubmitted, hsplit, List.append_nil]
    · rw [haccepted]
      exact List.rel_append hcarries (.cons hprogrammed .nil)

/-- The id of a new submission is the next of the ring. -/
theorem mark (h : Numbered k e) (hdraft : k.draft = .none) (hquiet : e.submitPending = false)
    (hnew : e.acceptId = transfer.id.val) (hdraft' : k'.draft.transfer? = some transfer) :
    Numbered k' (e.remember (.noted (.submitted transfer))) := by
  have hacceptId := h.acceptId_eq
  obtain ⟨hid, hnextId, taken, coming, hsplit, hcarries, hcoming⟩ := h
  have hsubmitted : recent Event.submission? (.noted (.submitted transfer) :: e.history) =
      recent Event.submission? e.history ++ [transfer] := recent_cons (by simp)
  have haccepted : recent Event.accepted? (.noted (.submitted transfer) :: e.history) =
      recent Event.accepted? e.history := recent_cons_none (by simp) rfl
  obtain rfl : coming = [] := by
    cases hcoming with
    | none => rfl
    | drafted _ hsome => simp [hdraft, Draft.transfer?] at hsome
    | pending hpending => cases hquiet.symm.trans hpending
  rw [List.append_nil] at hsplit
  have hlength : (recent Event.submission? e.history).length =
      (recent Event.accepted? e.history).length := by
    rw [hsplit, hcarries.length_eq]
  refine ⟨?_, hnextId.trans (congrArg (·.length % 31) haccepted.symm), taken, [transfer], ?_, ?_,
    .drafted hquiet hdraft'⟩
  · change ∀ (i : Nat) (other : Transfer),
      (recent Event.submission? (.noted (.submitted transfer) :: e.history))[i]? = some other → _
    rw [hsubmitted]
    intro i other hother
    rcases Nat.lt_trichotomy i (recent Event.submission? e.history).length with hlt | heq | hgt
    · rw [List.getElem?_append_left hlt] at hother
      exact hid i other hother
    · subst heq
      rw [List.getElem?_concat_length] at hother
      obtain rfl := Option.some.inj hother
      refine Fin.ext ?_
      rw [TransferId.val_ahead, hlength, ← hnew, hacceptId]
      exact congrArg (· % 31) (Nat.zero_add _).symm
    · rw [List.getElem?_eq_none (by simp; omega)] at hother
      cases hother
  · refine hsubmitted.trans ?_
    rw [hsplit]
  · exact haccepted.symm ▸ hcarries

theorem queue (h : Numbered k e) (hdraft : k.draft.transfer? = some transfer)
    (hquiet : e.submitPending = false) (hcarries : e.programmed.Carries transfer)
    (hdraft' : k'.draft = .none) :
    Numbered k' { e.remember (.written Register.submit submitBit false) with
      submitPending := true } := by
  obtain ⟨hid, hnextId, taken, coming, hsplit, htaken, hcoming⟩ := h
  obtain rfl : coming = [transfer] := by
    cases hcoming with
    | none _ hnone => cases hnone.symm.trans hdraft
    | drafted _ hsome => rw [Option.some.inj (hsome.symm.trans hdraft)]
    | pending hpending => cases hquiet.symm.trans hpending
  have hsubmitted : recent Event.submission? (.written Register.submit submitBit false :: e.history)
      = recent Event.submission? e.history := recent_cons_none (by simp) rfl
  have haccepted : recent Event.accepted? (.written Register.submit submitBit false :: e.history) =
      recent Event.accepted? e.history := recent_cons_none (by simp) rfl
  refine ⟨fun i other hother => hid i other (hsubmitted ▸ hother),
    hnextId.trans (congrArg (·.length % 31) haccepted.symm), taken, [transfer],
    hsubmitted.trans hsplit, haccepted.symm ▸ htaken, .pending rfl ?_ hcarries⟩
  rw [hdraft']
  rfl

variable {slots size : Nat} [HasSlots slots] {d d' : Driver slots size}

theorem change (h : Numbered k e) (hchange : Change d k e d' k' e') : Numbered k' e' := by
  cases hchange with
  | turn hturn =>
    cases hturn with
    | takeOver hpending => exact h.takeOver hpending
    | complete id hid =>
      exact h.same (recent_cons_none (by simp) rfl) (recent_cons_none (by simp) rfl) rfl rfl
        (fun _ => rfl) rfl
  | learn hphase hdraft hdraft' => exact h.alike (.refl e) (by rw [hdraft, hdraft'])
  | plain _ _ _ _ _ hdraft he => exact h.alike he hdraft
  | abort => exact empty rfl rfl rfl rfl rfl
  | halt hdraft henabled he => exact h.alike he (by rw [hdraft])
  | mark transfer hdraft hquiet hid hadmits hphase hdone hdraft' =>
    exact h.mark hdraft hquiet hid hdraft'
  | queue transfer hdraft hdrafted hquiet hcarries hphase hdone hdraft' =>
    exact h.queue hdraft hquiet hcarries hdraft'
  | release id previous action haction =>
    have hnone : (Event.noted action).submission? = none := action.submission?_of_freed? haction
    exact h.same (recent_cons_none (by simp) hnone) (recent_cons_none (by simp) rfl) rfl rfl
      (fun _ => rfl) rfl
  | restart _ _ _ _ _ hdraft hdraft' _ he => exact h.alike he (by rw [hdraft, hdraft'])

end Numbered

variable {slots size : Nat} [HasSlots slots]

/-- What holds of the transfers at every step. -/
structure Regular (d : Driver slots size) (k : Known) (e : Engine) : Prop where
  sound : Sound d k e
  custody : InCustody d k e
  line : InLine d k e
  unfinished_eq : e.outstanding = unfinished e.history
  finishedFirst : InOrder e.history → k.phase = .running → FinishedFirst k e
  numbered : Numbered k e

abbrev Scene.Regular (s : Scene Engine slots size) : Prop :=
  DmaController.Regular s.driver s.known s.engine

namespace Regular

/-- A halted core that has just given everything up. -/
theorem idle {d : Driver slots size} {e : Engine} (hsound : Sound d { phase := .halted } e)
    (hidle : e.IsIdle) (hflight : flight e.history = []) (hunfinished : unfinished e.history = [])
    (hsubmitted : recent Event.submission? e.history = [])
    (haccepted : recent Event.accepted? e.history = []) : Regular d { phase := .halted } e where
  sound := hsound
  custody := ⟨by simp, fun _ => ⟨hidle, rfl, DoneBits.isDone_none⟩⟩
  line := ⟨by simp, fun _ => hflight⟩
  unfinished_eq := hidle.outstanding_eq.trans hunfinished.symm
  finishedFirst := by simp
  numbered := .empty hsubmitted haccepted hidle.pending_eq hidle.nextId_eq rfl

end Regular

variable {s s' : Scene Engine slots size}

theorem Scene.Regular.step (h : s.Regular) (hstep : Step Lapse s s') : s'.Regular := by
  have hchange := h.sound.step_change hstep
  exact ⟨h.sound.step hstep, h.custody.change h.sound hchange, h.line.change h.custody hchange,
    unfinished_change h.unfinished_eq hchange,
    FinishedFirst.change h.finishedFirst h.sound h.custody h.line h.unfinished_eq hchange,
    h.numbered.change hchange⟩

theorem Scene.Regular.path (h : s.Regular) (hpath : Path Lapse s s') : s'.Regular := by
  induction hpath with
  | refl => exact h
  | tail _ hstep ih => exact ih.step hstep

theorem Scene.Attained.regular (h : s.Attained Engine.IsUnused) : s.Regular := by
  refine h.induct ?_ fun _ _ _ h hstep => h.step hstep
  intro s₀ hbegins
  have hhistory : s₀.engine.history = [] := hbegins.engine_ready.history_eq
  unfold Scene.Regular
  rw [hbegins.known_eq]
  refine .idle (.ignorant hbegins.fresh.capacity_pos hbegins.fresh.capacity_le _)
    hbegins.engine_ready.toIsIdle ?_ ?_ ?_ ?_ <;> rw [hhistory] <;> rfl

end DmaController

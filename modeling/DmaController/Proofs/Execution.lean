import DmaController.Proofs.Changes

/-!
The hardware executes what the driver submits. Every submission in the history has one fate: it is
queued, or it was executed by an acceptance, or it was withdrawn when everything was given up. The
transfers that the engine accepted are the executed submissions in their order, each with its own
id, length and address, and only the latest submission is ever queued.
-/
namespace DmaController

open Sim

/-- What became of a submission. -/
inductive Fate
  | queued
  | executed (accepted : Accepted)
  | withdrawn
  deriving DecidableEq, Repr

def Fate.accepted? : Fate → Option Accepted
  | executed accepted => some accepted
  | _ => none

/-- Settles the fate of a queued submission. -/
def Fate.settle (fate : Fate) : Fate → Fate
  | queued => fate
  | settled => settled

/-- The submissions of a history and their fates; both have the newest first. -/
def fates : List Event → List (Transfer × Fate)
  | [] => []
  | .accepted accepted :: past => (fates past).map (Prod.map id (Fate.settle (.executed accepted)))
  | .aborted :: past => (fates past).map (Prod.map id (Fate.settle .withdrawn))
  | .completed _ :: past | .written .. :: past => fates past
  | .noted action :: past =>
    match action.submission? with
    | some transfer => (transfer, .queued) :: fates past
    | none => fates past

section Fates

variable {past : List Event} {entries : List (Transfer × Fate)}

/-- None of the submissions is queued. -/
def Settled (entries : List (Transfer × Fate)) : Prop := ∀ entry ∈ entries, entry.2 ≠ .queued

theorem Fate.settle_of_ne {fate other : Fate} (h : other ≠ .queued) :
    settle fate other = other := by
  cases other with
  | queued => exact absurd rfl h
  | executed | withdrawn => rfl

theorem Settled.map_settle (h : Settled entries) (fate : Fate) :
    entries.map (Prod.map id (Fate.settle fate)) = entries := by
  refine (List.map_congr_left fun entry hmem => ?_).trans (List.map_id entries)
  exact Prod.ext rfl (Fate.settle_of_ne (h entry hmem))

theorem settled_map_settle {fate : Fate} (h : fate ≠ .queued) (entries : List (Transfer × Fate)) :
    Settled (entries.map (Prod.map id (Fate.settle fate))) := by
  intro entry hmem
  obtain ⟨⟨transfer, old⟩, -, rfl⟩ := List.mem_map.1 hmem
  cases old with
  | queued => exact h
  | executed | withdrawn => simp [Fate.settle]

theorem Settled.cons {transfer : Transfer} {fate : Fate} (h : Settled entries)
    (hfate : fate ≠ .queued) : Settled ((transfer, fate) :: entries) := by
  intro entry hmem
  rcases List.mem_cons.1 hmem with rfl | hmem
  · exact hfate
  · exact h entry hmem

theorem fates_noted {action : Action} (h : action.submission? = none) :
    fates (.noted action :: past) = fates past := by
  rw [fates, h]

theorem fates_plain {event : Event} (h : event.IsPlain) : fates (event :: past) = fates past := by
  cases event with
  | written => rfl
  | noted action => exact fates_noted h.1
  | accepted | completed | aborted => exact h.elim

theorem fates_alike {e e' : Engine} (h : e.Alike e') : fates e'.history = fates e.history := by
  rcases h.history_eq with heq | ⟨event, hplain, heq⟩
  · rw [heq]
  · rw [heq, fates_plain hplain]

end Fates

/-- The submissions of a history, newest first. -/
def submissions (history : List Event) : List Transfer := history.filterMap Event.submission?

theorem submissions_cons_none (event : Event) (past : List Event) (h : event.submission? = none) :
    submissions (event :: past) = submissions past := List.filterMap_cons_none h

theorem submissions_cons_some (event : Event) {transfer : Transfer} (past : List Event)
    (h : event.submission? = some transfer) :
    submissions (event :: past) = transfer :: submissions past := List.filterMap_cons_some h

theorem map_fst_settle (fate : Fate) (entries : List (Transfer × Fate)) :
    (entries.map (Prod.map id (Fate.settle fate))).map Prod.fst = entries.map Prod.fst := by
  rw [List.map_map]
  rfl

theorem map_fst_fates (history : List Event) :
    (fates history).map Prod.fst = submissions history := by
  induction history with
  | nil => rfl
  | cons event past ih =>
    cases event with
    | accepted accepted => exact (map_fst_settle _ _).trans ih
    | aborted => exact (map_fst_settle _ _).trans ih
    | completed | written => exact ih
    | noted action =>
      rw [fates]
      cases haction : action.submission? with
      | none =>
        rw [submissions_cons_none (.noted action) past haction]
        exact ih
      | some transfer =>
        rw [submissions_cons_some (.noted action) past haction]
        exact congrArg (List.cons transfer) ih

theorem submissions_alike {e e' : Engine} (h : e.Alike e') :
    submissions e'.history = submissions e.history := by
  rw [← map_fst_fates, ← map_fst_fates, fates_alike h]

theorem Scene.Tells.submissions_eq {slots size : Nat} {s : Scene Engine slots size} (h : s.Tells) :
    (submissions s.engine.history).reverse = s.port.journal.submissions := by
  have haccess : (fun action : Action =>
      if action.access?.isNone then action.submission? else none) = Action.submission? := by
    funext action
    cases action <;> rfl
  calc
    (submissions s.engine.history).reverse
      = ((s.engine.history.filterMap Event.action?).filterMap Action.submission?).reverse := by
        rw [List.filterMap_filterMap]
        rfl
    _ = (s.port.journal.toList.filter (·.access?.isNone)).filterMap Action.submission? := by
        rw [← List.filterMap_reverse, h]
    _ = s.port.journal.submissions := by
        rw [List.filterMap_filter, haccess]
        rfl

variable {slots size : Nat} [HasSlots slots]

/-- Only the latest submission may be queued, and then it is pending, and the registers describe it,
or the driver is still preparing it. -/
inductive Front (k : Known) (e : Engine) : List (Transfer × Fate) → Prop
  | clear {entries} (hsettled : Settled entries) (hquiet : e.submitPending = false)
      (hdraft : k.draft.transfer? = none) : Front k e entries
  | prepared {transfer entries} (hsettled : Settled entries) (hquiet : e.submitPending = false)
      (hdraft : k.draft.transfer? = some transfer) : Front k e ((transfer, .queued) :: entries)
  | pending {transfer entries} (hsettled : Settled entries) (hpending : e.submitPending = true)
      (hdraft : k.draft.transfer? = none) (hcarries : e.programmed.Carries transfer) :
      Front k e ((transfer, .queued) :: entries)

theorem Front.same {k k' : Known} {e e' : Engine} {entries : List (Transfer × Fate)}
    (h : Front k e entries) (hpending : e'.submitPending = e.submitPending)
    (hprogrammed : e.submitPending = true → e'.programmed = e.programmed)
    (hdraft : k'.draft.transfer? = k.draft.transfer?) : Front k' e' entries := by
  cases h with
  | clear hsettled hquiet hnone =>
    exact .clear hsettled (hpending.trans hquiet) (hdraft.trans hnone)
  | prepared hsettled hquiet hsome =>
    exact .prepared hsettled (hpending.trans hquiet) (hdraft.trans hsome)
  | pending hsettled hpending' hnone hcarries =>
    refine .pending hsettled (hpending.trans hpending') (hdraft.trans hnone) ?_
    rw [hprogrammed hpending']
    exact hcarries

/-- The engine has done what was submitted. -/
structure Tallies (k : Known) (e : Engine) (entries : List (Transfer × Fate)) : Prop where
  front : Front k e entries
  accepted_eq : entries.filterMap (·.2.accepted?) = e.accepted.toList.reverse
  carries : ∀ transfer accepted, (transfer, Fate.executed accepted) ∈ entries →
    accepted.Carries transfer

namespace Tallies

variable {d d' : Driver slots size} {k k' : Known} {e e' : Engine}
variable {entries : List (Transfer × Fate)}

theorem takeOver (h : Tallies k e entries) (hpending : e.submitPending = true) :
    Tallies k e.takeOver (entries.map (Prod.map id (Fate.settle (.executed e.programmed)))) := by
  cases h.front with
  | clear _ hquiet => cases hquiet.symm.trans hpending
  | prepared _ hquiet => cases hquiet.symm.trans hpending
  | @pending transfer rest hsettled _ hdraft hcarries =>
    have hmap : ((transfer, Fate.queued) :: rest).map
        (Prod.map id (Fate.settle (.executed e.programmed))) =
        (transfer, .executed e.programmed) :: rest :=
      congrArg (List.cons _) (hsettled.map_settle _)
    rw [hmap]
    refine ⟨.clear (hsettled.cons (by simp)) rfl hdraft, ?_, ?_⟩
    · have haccepted : rest.filterMap (·.2.accepted?) = e.accepted.toList.reverse := h.accepted_eq
      refine (congrArg (List.cons e.programmed) haccepted).trans ?_
      simp [Engine.takeOver]
    · intro other accepted hmem
      rcases List.mem_cons.1 hmem with heq | hmem
      · obtain ⟨rfl, hexecuted⟩ := Prod.mk.inj heq
        obtain rfl := Fate.executed.inj hexecuted
        exact hcarries
      · exact h.carries other accepted (List.mem_cons_of_mem _ hmem)

theorem abort (h : Tallies k e entries) (hdraft : k'.draft = .none)
    (hquiet : e'.submitPending = false) (haccepted : e'.accepted = e.accepted) :
    Tallies k' e' (entries.map (Prod.map id (Fate.settle .withdrawn))) := by
  have hne : Fate.withdrawn ≠ .queued := by simp
  refine ⟨.clear (settled_map_settle hne entries) hquiet (by rw [hdraft]; rfl), ?_, ?_⟩
  · have hsame : (fun entry : Transfer × Fate => entry.2.accepted?) ∘
        Prod.map id (Fate.settle .withdrawn) = fun entry => entry.2.accepted? := by
      funext entry
      obtain ⟨transfer, fate⟩ := entry
      cases fate <;> rfl
    rw [haccepted, ← h.accepted_eq, List.filterMap_map, hsame]
  · intro transfer accepted hmem
    obtain ⟨⟨other, fate⟩, hmem, heq⟩ := List.mem_map.1 hmem
    obtain ⟨rfl, hfate⟩ := Prod.mk.inj heq
    cases fate with
    | executed => exact h.carries _ _ (hfate ▸ hmem)
    | queued | withdrawn => cases hfate

theorem same (h : Tallies k e entries) (hdraft : k'.draft.transfer? = k.draft.transfer?)
    (hpending : e'.submitPending = e.submitPending) (haccepted : e'.accepted = e.accepted)
    (hprogrammed : e.submitPending = true → e'.programmed = e.programmed) :
    Tallies k' e' entries :=
  ⟨h.front.same hpending hprogrammed hdraft, by rw [haccepted]; exact h.accepted_eq, h.carries⟩

theorem alike (h : Tallies k e entries) (hdraft : k'.draft.transfer? = k.draft.transfer?)
    (he : e.Alike e') : Tallies k' e' entries :=
  h.same hdraft he.pending_eq he.accepted_eq he.programmed_eq

theorem mark (h : Tallies k e entries) {transfer : Transfer} (hdraft : k.draft = .none)
    (hquiet : e.submitPending = false) (hdraft' : k'.draft.transfer? = some transfer)
    (hquiet' : e'.submitPending = false) (haccepted : e'.accepted = e.accepted) :
    Tallies k' e' ((transfer, .queued) :: entries) := by
  refine ⟨?_, ?_, ?_⟩
  · cases h.front with
    | clear hsettled => exact .prepared hsettled hquiet' hdraft'
    | prepared _ _ hsome => simp [hdraft, Draft.transfer?] at hsome
    | pending _ hpending => cases hquiet.symm.trans hpending
  · rw [haccepted]
    exact h.accepted_eq
  · intro other accepted hmem
    rcases List.mem_cons.1 hmem with heq | hmem
    · cases heq
    · exact h.carries other accepted hmem

theorem queue (h : Tallies k e entries) {transfer : Transfer}
    (hdraft : k.draft.transfer? = some transfer) (hquiet : e.submitPending = false)
    (hcarries : e.programmed.Carries transfer) (hdraft' : k'.draft = .none)
    (hpending : e'.submitPending = true) (haccepted : e'.accepted = e.accepted)
    (hprogrammed : e'.programmed = e.programmed) : Tallies k' e' entries := by
  refine ⟨?_, by rw [haccepted]; exact h.accepted_eq, h.carries⟩
  cases h.front with
  | clear _ _ hnone => cases hnone.symm.trans hdraft
  | prepared hsettled _ hsome =>
    obtain rfl := Option.some.inj (hsome.symm.trans hdraft)
    exact .pending hsettled hpending (by rw [hdraft']; rfl) (hprogrammed ▸ hcarries)
  | pending _ hpending' => cases hquiet.symm.trans hpending'

theorem change (h : Tallies k e (fates e.history)) (hchange : Change d k e d' k' e') :
    Tallies k' e' (fates e'.history) := by
  cases hchange with
  | turn hturn =>
    cases hturn with
    | takeOver hpending => exact h.takeOver hpending
    | complete id hid => exact h.same rfl rfl rfl fun _ => rfl
  | learn hphase hdraft hdraft' =>
    exact h.alike (by rw [hdraft, hdraft']) (.refl e)
  | plain hpool hconfig hnewest hphase hdone hdraft he =>
    rw [fates_alike he]
    exact h.alike hdraft he
  | abort => exact h.abort rfl rfl rfl
  | halt hdraft hdisabled he =>
    rw [fates_alike he]
    exact h.alike (by rw [hdraft]) he
  | mark transfer hdraft hquiet hid hadmits hphase hdone hdraft' =>
    exact h.mark hdraft hquiet hdraft' hquiet rfl
  | queue transfer hdraft hdrafted hquiet hcarries hphase hdone hdraft' =>
    exact h.queue hdraft hquiet hcarries hdraft' rfl rfl rfl
  | release id previous action haction hdone hslot =>
    rw [Engine.remember, fates_noted (action.submission?_of_freed? haction)]
    exact h.same rfl rfl rfl fun _ => rfl
  | restart hfree haddress hphase hphase' hdone hdraft hdraft' henabled he =>
    rw [fates_alike he]
    exact h.alike (by rw [hdraft, hdraft']) he

end Tallies

/-- The first transfer of a list that goes into the slot. -/
def latest (slot : Fin slots) (transfers : List Transfer) : Option Transfer :=
  transfers.find? fun transfer => Pool.index slots transfer.id = slot

/-- The slots record what was submitted, newest first: each slot has the size of its latest
transfer, and is in flight under no other id. -/
structure Recorded (d : Driver slots size) (transfers : List Transfer) : Prop where
  address_eq : ∀ transfer ∈ transfers, transfer.address = d.address transfer.id
  size_eq : ∀ (slot : Fin slots) (transfer : Transfer), latest slot transfers = some transfer →
    (d.pool.slotAt slot).size = transfer.length
  latest_eq : ∀ (slot : Fin slots) (id : TransferId), (d.pool.slotAt slot).transferId? = some id →
    ∃ transfer : Transfer, latest slot transfers = some transfer ∧ transfer.id = id

namespace Recorded

variable {d d' : Driver slots size} {k k' : Known} {e e' : Engine} {transfers : List Transfer}

theorem same (h : Recorded d transfers) (haddress : d'.address = d.address)
    (hsize : ∀ slot : Fin slots, (d'.pool.slotAt slot).size = (d.pool.slotAt slot).size)
    (hslot : ∀ (slot : Fin slots) (id : TransferId), (d'.pool.slotAt slot).transferId? = some id →
      (d.pool.slotAt slot).transferId? = some id) : Recorded d' transfers := by
  refine ⟨?_, ?_, ?_⟩
  · rw [haddress]
    exact h.address_eq
  · intro slot transfer htransfer
    exact (hsize slot).trans (h.size_eq slot transfer htransfer)
  · intro slot id hid
    exact h.latest_eq slot id (hslot slot id hid)

theorem mark (h : Recorded d transfers) {transfer : Transfer} (hadmits : d.Admits transfer) :
    Recorded (d.submitted transfer) (transfer :: transfers) := by
  have hcell : ∀ slot : Fin slots, (d.submitted transfer).pool.slotAt slot = _ :=
    Pool.slotAt_submit d.pool transfer.id transfer.length
  have hlatest : ∀ slot : Fin slots, latest slot (transfer :: transfers) =
      if Pool.index slots transfer.id = slot then some transfer else latest slot transfers := by
    intro slot
    unfold latest
    rw [List.find?_cons]
    by_cases hslot : Pool.index slots transfer.id = slot <;> simp [hslot]
  refine ⟨?_, ?_, ?_⟩
  · intro other hmem
    rcases List.mem_cons.1 hmem with rfl | hmem
    · exact hadmits.address_eq
    · exact h.address_eq other hmem
  · intro slot other hother
    rw [hlatest] at hother
    rw [hcell]
    by_cases hslot : slot = Pool.index slots transfer.id
    · rw [if_pos hslot.symm] at hother
      obtain rfl := Option.some.inj hother
      rw [if_pos hslot]
    · rw [if_neg (Ne.symm hslot)] at hother
      rw [if_neg hslot]
      exact h.size_eq slot other hother
  · intro slot id hid
    rw [hcell] at hid
    rw [hlatest]
    by_cases hslot : slot = Pool.index slots transfer.id
    · rw [if_pos hslot] at hid
      rw [if_pos hslot.symm]
      exact ⟨transfer, rfl, Option.some.inj hid⟩
    · rw [if_neg hslot] at hid
      rw [if_neg (Ne.symm hslot)]
      exact h.latest_eq slot id hid

theorem change (h : Recorded d (submissions e.history)) (hchange : Change d k e d' k' e') :
    Recorded d' (submissions e'.history) := by
  cases hchange with
  | turn hturn =>
    cases hturn with
    | takeOver | complete => exact h
  | learn => exact h
  | plain hpool hconfig hnewest hphase hdone hdraft he =>
    rw [submissions_alike he]
    refine h.same ?_ ?_ ?_
    · unfold Driver.address
      rw [hpool, hconfig]
    · simp [hpool]
    · simp [hpool]
  | abort => exact h
  | halt hdraft hdisabled he =>
    rw [submissions_alike he]
    exact h
  | mark transfer hdraft hquiet hid hadmits => exact h.mark hadmits
  | queue => exact h
  | release id previous action haction hdone hslot =>
    rw [Engine.remember, submissions_cons_none (.noted action) e.history
      (action.submission?_of_freed? haction)]
    exact h.same rfl (d.pool.size_release id) fun _ _ => Pool.transferId?_of_release
  | restart hfree haddress hphase hphase' hdone hdraft hdraft' henabled he =>
    rw [submissions_alike he]
    refine h.same haddress ?_ ?_
    · intro slot
      rw [hfree]
      rfl
    · intro slot id hid
      rw [hfree] at hid
      cases hid

end Recorded

/-- No register of a pending submission is written, and everything is given up only when a write
clears the enable bit. -/
structure Spared (history : List Event) : Prop where
  quiet : ∀ offset value, Event.written offset value true ∈ history →
    ¬ Register.IsTransfer offset
  disabled : ∀ later past, history = later ++ Event.aborted :: past → ∃ value pending rest,
    past = .written Register.control value pending :: rest ∧ value.hasAny Control.enable = false

namespace Spared

variable {past : List Event} {event : Event}

theorem cons (h : Spared past)
    (hquiet : ∀ offset value, event = .written offset value true → ¬ Register.IsTransfer offset)
    (habort : event = .aborted → ∃ value pending rest,
      past = .written Register.control value pending :: rest ∧
        value.hasAny Control.enable = false) : Spared (event :: past) := by
  refine ⟨?_, ?_⟩
  · intro offset value hmem
    rcases List.mem_cons.1 hmem with heq | hmem
    · exact hquiet offset value heq.symm
    · exact h.quiet offset value hmem
  · intro later earlier heq
    cases later with
    | nil =>
      obtain ⟨hevent, rfl⟩ := List.cons.inj heq
      exact habort hevent
    | cons other later => exact h.disabled later earlier (List.cons.inj heq).2

theorem alike {e e' : Engine} (h : Spared e.history) (he : e.Alike e') : Spared e'.history := by
  rcases he.history_eq with heq | ⟨event, hplain, heq⟩
  · rw [heq]
    exact h
  · rw [heq]
    refine h.cons ?_ ?_
    · intro offset value hevent
      subst hevent
      exact hplain rfl
    · intro hevent
      subst hevent
      exact hplain.elim

variable {d d' : Driver slots size} {k k' : Known} {e e' : Engine}

theorem change (h : Spared e.history) (hchange : Change d k e d' k' e') : Spared e'.history := by
  cases hchange with
  | turn hturn =>
    cases hturn with
    | takeOver | complete => exact h.cons (by simp) (by simp)
  | learn => exact h
  | plain hpool hconfig hnewest hphase hdone hdraft he => exact h.alike he
  | abort value hdraft henabled hcleared =>
    have hcontrol : ¬ Register.IsTransfer Register.control := by decide
    have hwritten : Spared (.written Register.control value e.submitPending :: e.history) := by
      refine h.cons ?_ (by simp)
      intro offset value' heq
      obtain ⟨rfl, -, -⟩ := Event.written.inj heq
      exact hcontrol
    exact hwritten.cons (by simp) fun _ => ⟨value, _, _, rfl, hcleared⟩
  | halt hdraft hdisabled he => exact h.alike he
  | mark => exact h.cons (by simp) (by simp)
  | queue => exact h.cons (by simp) (by simp)
  | release => exact h.cons (by simp) (by simp)
  | restart hfree haddress hphase hphase' hdone hdraft hdraft' henabled he => exact h.alike he

end Spared

/-- The hardware has executed what the driver submitted: in the order of the submissions, and each
as it was submitted. A submission that it has not executed is the latest one and still pending, or
was withdrawn. -/
structure Executed (driver : Driver slots size) (engine : Engine) (journal : Journal) : Prop where
  submissions_eq : (fates engine.history).reverse.map Prod.fst = journal.submissions
  accepted_eq : engine.accepted.toList =
    (fates engine.history).reverse.filterMap (·.2.accepted?)
  carries : ∀ transfer accepted, (transfer, Fate.executed accepted) ∈ fates engine.history →
    accepted.Carries transfer
  settled : Settled (fates engine.history).tail
  pending_iff : engine.submitPending = true ↔
    ∃ transfer, (fates engine.history).head? = some (transfer, .queued)
  spared : Spared engine.history
  recorded : Recorded driver journal.submissions.reverse

theorem Front.executed {k : Known} {e : Engine} {entries : List (Transfer × Fate)}
    (h : Front k e entries) (hdraft : k.draft = .none) : Settled entries.tail ∧
      (e.submitPending = true ↔ ∃ transfer, entries.head? = some (transfer, .queued)) := by
  cases h with
  | clear hsettled hquiet =>
    refine ⟨fun entry hmem => hsettled entry (List.mem_of_mem_tail hmem), ?_⟩
    rw [hquiet]
    refine ⟨by simp, fun hsome => ?_⟩
    obtain ⟨transfer, hhead⟩ := hsome
    exact absurd rfl (hsettled _ (List.mem_of_mem_head? hhead))
  | prepared _ _ hsome => simp [hdraft, Draft.transfer?] at hsome
  | pending hsettled hpending => exact ⟨hsettled, fun _ => ⟨_, rfl⟩, fun _ => hpending⟩

namespace Scene.Attained

variable {s : Scene Engine slots size}

theorem tallies (h : s.Attained Engine.IsUnused) :
    Tallies s.known s.engine (fates s.engine.history) := by
  refine h.invariant (P := fun _ k e => Tallies k e (fates e.history)) ?_ ?_
  · intro d e _ he
    have hfates : fates e.history = [] := by rw [he.history_eq]; rfl
    rw [hfates]
    refine ⟨.clear (fun _ hmem => absurd hmem List.not_mem_nil) he.pending_eq rfl, ?_, ?_⟩
    · rw [he.accepted_eq]
      rfl
    · exact fun _ _ hmem => absurd hmem List.not_mem_nil
  · intro d k e d' k' e' _ h hchange
    exact h.change hchange

theorem recorded (h : s.Attained Engine.IsUnused) :
    Recorded s.driver (submissions s.engine.history) := by
  refine h.invariant (P := fun d _ e => Recorded d (submissions e.history)) ?_ ?_
  · intro d e hfresh he
    have hnone : submissions e.history = [] := by rw [he.history_eq]; rfl
    rw [hnone]
    refine ⟨fun _ hmem => absurd hmem List.not_mem_nil, by simp [latest], ?_⟩
    intro slot id hslot
    simp [hfresh.slotAt_eq, Slot.transferId?] at hslot
  · intro d k e d' k' e' _ h hchange
    exact h.change hchange

theorem spared (h : s.Attained Engine.IsUnused) : Spared s.engine.history := by
  refine h.invariant (P := fun _ _ e => Spared e.history) ?_ ?_
  · intro d e _ he
    rw [he.history_eq]
    exact ⟨fun _ _ hmem => absurd hmem List.not_mem_nil, by simp⟩
  · intro d k e d' k' e' _ h hchange
    exact h.change hchange

end Scene.Attained

namespace Session

variable {phase : Phase} {rig : Rig slots size}

theorem submissions_executed (h : Session Engine.IsUnused phase rig) :
    Executed rig.driver rig.core.toEngine rig.port.journal := by
  obtain ⟨-, known, hends, hattained⟩ := h.attained
  obtain ⟨hfront, haccepted, hcarries⟩ := hattained.tallies
  obtain ⟨hsettled, hpending⟩ := hfront.executed hends.draft_eq
  have hjournal : (submissions rig.core.history).reverse = rig.port.journal.submissions :=
    hattained.tells.submissions_eq
  refine ⟨?_, ?_, hcarries, hsettled, hpending, hattained.spared, ?_⟩
  · rw [List.map_reverse, map_fst_fates]
    exact hjournal
  · rw [List.filterMap_reverse]
    exact (List.reverse_eq_iff.2 haccepted).symm
  · rw [← hjournal, List.reverse_reverse]
    exact hattained.recorded

/-- One transfer was executed, and one is pending. -/
theorem submissions_executed_two_sent :
    let first := (Call.send fun _ => (#[1, 2], 2)).perform Rig.small
    let rig := (Call.send fun _ => (#[3], 1)).perform (first.stimulate (.autoAccept false))
    rig.port.journal.submissions.length = 2 ∧ rig.core.accepted.size = 1 ∧
      Executed rig.driver rig.core.toEngine rig.port.journal := by
  have hfirst := Rig.small_session.call (.send fun _ => (#[1, 2], 2))
  have hslow := hfirst.stimulus (.autoAccept false) trivial
  exact ⟨rfl, rfl, submissions_executed (hslow.call (.send fun _ => (#[3], 1)))⟩

end Session
end DmaController

import DmaController.Proofs.Refusal
import DmaController.Proofs.Replay

/-!
Refusals that last. What a driver can do and how long a transfer may be is settled when it is
started, and no operation changes it. So a request that is refused because of what it asks for, and
not because of the moment, is refused ever after. Main statement: after a refusal for a cause that
is not transient, every request for the same is refused in every later state, on any bus.
-/
namespace DmaController

/-- What a request asks for. -/
inductive Demand
  /-- An outbound transfer of the length that its producer claims. -/
  | outbound (bytes : Nat)
  /-- Inbound transfers of so many bytes; zero stands for the capacity. -/
  | inbound (bytes : Nat)
  deriving DecidableEq, Repr

/-- A call that asks a driver for transfers. -/
inductive Request (σ : Type) (slots size : Nat)
  | send (source : Producer (World σ slots size))
  | sendAndWait (limit : Nat) (source : Producer (World σ slots size))
  | receive (bytes : Nat) (consume : Bytes → World σ slots size → World σ slots size)
      (pause : Nat → World σ slots size → World σ slots size)
  | startStream (bytes : Nat)

variable {σ : Type} {slots size bytes : Nat}

/-- Whatever it is shown, the producer claims so many bytes. -/
def Producer.Claims {ω : Type} (source : Producer ω) (bytes : Nat) : Prop :=
  ∀ shown, (source.produce shown).2 = bytes

def Request.Asks (demand : Demand) : Request σ slots size → Prop
  | send source | sendAndWait _ source => ∃ bytes, source.Claims bytes ∧ demand = .outbound bytes
  | receive bytes _ _ | startStream bytes => demand = .inbound bytes

/-- A driver like this never grants the demand. -/
def Driver.Bars (driver : Driver slots size) : Demand → Prop
  | .outbound bytes => driver.directions.outbound = false ∨ driver.capacity < bytes ∨ bytes = 0
  | .inbound bytes => driver.directions.inbound = false ∨ driver.capacity < bytes

/-- What is barred is refused, and only what is barred is refused for a cause that lasts. -/
structure Judged (barred : Prop) (refuses : TransferError → Prop) : Prop where
  refused : barred → ∃ cause, refuses cause
  lasting : ∀ cause, refuses cause → cause.isTransient = false → barred

namespace Judged

variable {barred : Prop} {refuses refuses' : TransferError → Prop} {cause : TransferError}

theorem congr (h : Judged barred refuses) (hiff : ∀ cause, refuses' cause ↔ refuses cause) :
    Judged barred refuses' where
  refused hbarred := by
    obtain ⟨cause, hcause⟩ := h.refused hbarred
    exact ⟨cause, (hiff cause).2 hcause⟩
  lasting cause hcause := h.lasting cause ((hiff cause).1 hcause)

/-- It is refused for this cause and no other, which is one of the moment or comes from the bar. -/
theorem refuse (cause : TransferError) (hrefuses : ∀ other, refuses other ↔ cause = other)
    (h : cause.isTransient = true ∨ barred) : Judged barred refuses where
  refused _ := ⟨cause, (hrefuses cause).2 rfl⟩
  lasting other hother hlasts := by
    obtain rfl := (hrefuses other).1 hother
    rcases h with hpasses | hbarred
    · cases hpasses.symm.trans hlasts
    · exact hbarred

theorem transient_or (h : Judged barred refuses) (hcause : refuses cause) :
    cause.isTransient = true ∨ barred := by
  by_cases hpasses : cause.isTransient = true
  · exact .inl hpasses
  · exact .inr (h.lasting cause hcause (by simpa using hpasses))

theorem grant (hrefuses : ∀ cause, ¬ refuses cause) (h : ¬ barred) : Judged barred refuses where
  refused hbarred := absurd hbarred h
  lasting cause hcause := absurd hcause (hrefuses cause)

end Judged

theorem Driver.requestSize?_eq_none_iff {driver : Driver slots size} :
    driver.requestSize? bytes = none ↔ driver.capacity < bytes := by
  unfold requestSize?
  by_cases hzero : bytes = 0
  · simp [hzero]
  · by_cases hlarge : driver.capacity < bytes <;> simp [hzero, hlarge]

variable [HasSlots slots]

theorem Cleared.capacity_eq {driver d : Driver slots size} {actions : List Action}
    (h : Cleared driver d actions) : d.capacity = driver.capacity := by cases h <;> rfl

variable [RegisterBus (World σ slots size)]

namespace Driver

variable {driver : Driver slots size}

theorem claimSlot_judged :
    Enters (claimSlot : DriverM σ slots size (Except TransferError TransferId))
      (fun answer _ _ => Judged (driver.directions.outbound = false) (answer = .error ·))
      driver := by
  unfold claimSlot
  refine .get ?_
  by_cases hable : driver.directions.outbound = true
  · rw [if_pos hable]
    refine .look (fun _ h => h) submitPending_looks fun pending => ?_
    split_ifs
    · exact .pure (.refuse .queueFull (by simp) (.inl rfl))
    refine .look (fun _ h => h) nextId?_looks fun id? => ?_
    cases id? with
    | none => exact .pure (.refuse .deviceError (by simp) (.inl rfl))
    | some id =>
      refine .seq (reclaim_enters id) fun freed _ _ _ => ?_
      split_ifs
      · exact .pure (.grant (by simp) (by simp [hable]))
      · exact .pure (.refuse .queueFull (by simp) (.inl rfl))
  · rw [if_neg hable]
    exact .pure (.refuse .notSupported (by simp) (.inr (by simpa using hable)))

theorem fill_claims {source : Producer (World σ slots size)} (h : source.Claims bytes)
    (id : TransferId) :
    Enters (fill source id) (fun claimed d _ => claimed = bytes ∧ d = driver) driver := by
  unfold fill
  refine .get (.bind (.world fun world => ?_))
  exact .bind (.record (.bind (.alter (.pure ⟨h _, rfl⟩))))

theorem send_judged {source : Producer (World σ slots size)} (h : source.Claims bytes) :
    Enters (send source) (fun answer _ _ =>
      Judged (driver.Bars (.outbound bytes)) (answer = .error ·)) driver := by
  unfold send
  refine .seq (claimSlot_enters.and claimSlot_judged) ?_
  intro answer d _ hclaimed
  obtain ⟨⟨hcleared, -⟩, hjudged⟩ := hclaimed
  cases answer with
  | error cause =>
    exact .pure (.refuse cause (by simp) ((hjudged.transient_or rfl).imp_right .inl))
  | ok id =>
    refine .seq (fill_claims h id) ?_
    intro claimed d' _ hfilled
    obtain ⟨rfl, rfl⟩ := hfilled
    have hable : driver.directions.outbound ≠ false := by
      intro hunable
      obtain ⟨cause, hcause⟩ := hjudged.refused hunable
      cases hcause
    refine .get ?_
    rw [hcleared.capacity_eq]
    split_ifs with hlarge hzero
    · exact .pure (.refuse .bufferExceeded (by simp) (.inr (.inr (.inl hlarge))))
    · exact .pure (.refuse .invalidLength (by simp) (.inr (.inr (.inr hzero))))
    · refine .seq (submit_enters _ _ _) fun _ _ _ _ => .pure (.grant (by simp) ?_)
      rintro (hunable | hlarge' | hzero')
      · exact hable hunable
      · exact hlarge hlarge'
      · exact hzero hzero'

theorem sendAndWait_judged (limit : Nat) {source : Producer (World σ slots size)}
    (h : source.Claims bytes) : Enters (sendAndWait limit source) (fun answer _ _ =>
      Judged (driver.Bars (.outbound bytes)) fun cause => answer = some (.error cause)) driver := by
  unfold sendAndWait
  refine .seq (send_judged h) ?_
  intro answer d _ hjudged
  cases answer with
  | error cause => exact .pure (hjudged.congr (by simp))
  | ok id =>
    refine .look (fun _ h => h) (awaitAccepted_looks limit) fun accepted => ?_
    split_ifs
    · exact .pure (hjudged.congr (by simp))
    · exact .pure (hjudged.congr (by simp))

theorem request_judged (bytes : Nat) :
    Enters (request bytes : DriverM σ slots size (Except TransferError TransferId))
      (fun answer _ _ => Judged (driver.capacity < bytes) (answer = .error ·)) driver := by
  unfold request
  refine .get ?_
  cases hsize : driver.requestSize? bytes with
  | none =>
    have hlarge := requestSize?_eq_none_iff.1 hsize
    exact .pure (.refuse .bufferExceeded (by simp) (.inr hlarge))
  | some granted =>
    have hfits : ¬ driver.capacity < bytes := by
      intro hlarge
      cases hsize.symm.trans (requestSize?_eq_none_iff.2 hlarge)
    refine .look (fun _ h => h) nextId?_looks fun id? => ?_
    cases id? with
    | none => exact .pure (.refuse .deviceError (by simp) (.inl rfl))
    | some id =>
      refine .get ?_
      split_ifs
      · exact .pure (.refuse .queueFull (by simp) (.inl rfl))
      · exact .seq (submit_enters _ _ _) fun _ _ _ _ => .pure (.grant (by simp) hfits)

theorem receive_judged (bytes : Nat)
    (consume : Bytes → World σ slots size → World σ slots size)
    (pause : Nat → World σ slots size → World σ slots size) :
    Enters (receive bytes consume pause) (fun answer _ _ =>
      Judged (driver.Bars (.inbound bytes)) fun cause => answer = .error (.transfer cause))
      driver := by
  unfold receive
  refine .get ?_
  by_cases hable : driver.directions.inbound = true
  · rw [if_pos hable]
    refine .look (fun _ h => h) submitPending_looks fun pending => ?_
    split_ifs
    · exact .pure (.refuse .queueFull (by simp) (.inl rfl))
    refine .seq (request_judged bytes) fun answer d _ hjudged => ?_
    cases answer with
    | error cause =>
      exact .pure (.refuse cause (by simp) ((hjudged.transient_or rfl).imp_right .inr))
    | ok id =>
      have hgranted : ¬ driver.Bars (.inbound bytes) := by
        rintro (hunable | hlarge)
        · cases hunable.symm.trans hable
        · obtain ⟨cause, hcause⟩ := hjudged.refused hlarge
          cases hcause
      refine .get (.look (fun _ h => h) (awaitDone_looks pause id _) fun done => ?_)
      split_ifs
      · exact .get (.seq (deliver_enters consume id) fun _ _ _ _ =>
          .pure (.grant (by simp) hgranted))
      · exact .bind (.log (.pure (.grant (by simp) hgranted)))
  · rw [if_neg hable]
    exact .pure (.refuse .notSupported (by simp) (.inr (.inl (by simpa using hable))))

theorem startStream_judged (bytes : Nat) :
    Enters (startStream bytes : DriverM σ slots size (Except TransferError Nat))
      (fun answer _ _ => Judged (driver.Bars (.inbound bytes)) (answer = .error ·)) driver := by
  unfold startStream
  refine .get ?_
  by_cases hable : driver.directions.inbound = true
  · rw [if_pos hable]
    refine .get ?_
    cases hsize : driver.requestSize? bytes with
    | none =>
      have hlarge := requestSize?_eq_none_iff.1 hsize
      exact .pure (.refuse .bufferExceeded (by simp) (.inr (.inr hlarge)))
    | some granted =>
      have hgranted : ¬ driver.Bars (.inbound bytes) := by
        rintro (hunable | hlarge)
        · cases hunable.symm.trans hable
        · cases hsize.symm.trans (requestSize?_eq_none_iff.2 hlarge)
      refine .seq restart_enters fun _ _ _ _ => .bind (.change ?_)
      exact .seq enableIrq_enters fun _ _ _ _ => .seq (refill_enters granted) fun _ _ _ _ =>
        .bind (.log (.pure (.grant (by simp) hgranted)))
  · rw [if_neg hable]
    exact .pure (.refuse .notSupported (by simp) (.inr (.inl (by simpa using hable))))

end Driver

/-- Made of this driver at this port, the request is refused. -/
def Request.IsRefused (driver : Driver slots size) (port : Port (World σ slots size))
    (cause : TransferError) : Request σ slots size → Prop
  | send source => ((Driver.send source).outcome driver port).1.1 = .error cause
  | sendAndWait limit source =>
    ((Driver.sendAndWait limit source).outcome driver port).1.1 = some (.error cause)
  | receive bytes consume pause =>
    ((Driver.receive bytes consume pause).outcome driver port).1.1 = .error (.transfer cause)
  | startStream bytes => ((Driver.startStream bytes).outcome driver port).1.1 = .error cause

/-- A request is refused whenever the driver bars what it asks for, and only then for a cause that
lasts. -/
theorem Request.judged {request : Request σ slots size} {demand : Demand}
    (h : request.Asks demand) (driver : Driver slots size) (port : Port (World σ slots size)) :
    Judged (driver.Bars demand) (request.IsRefused driver port ·) := by
  cases request with
  | send source =>
    obtain ⟨bytes, hclaims, rfl⟩ := h
    obtain ⟨-, -, hjudged⟩ := Driver.send_judged hclaims port
    exact hjudged
  | sendAndWait limit source =>
    obtain ⟨bytes, hclaims, rfl⟩ := h
    obtain ⟨-, -, hjudged⟩ := Driver.sendAndWait_judged limit hclaims port
    exact hjudged
  | receive bytes consume pause =>
    obtain rfl : demand = .inbound bytes := h
    obtain ⟨-, -, hjudged⟩ := Driver.receive_judged bytes consume pause port
    exact hjudged
  | startStream bytes =>
    obtain rfl : demand = .inbound bytes := h
    obtain ⟨-, -, hjudged⟩ := Driver.startStream_judged bytes port
    exact hjudged

namespace Onward

variable [InterruptLine (World σ slots size)]
variable {driver driver' : Driver slots size} {port port' : Port (World σ slots size)}

/-- What a driver can do and how long its transfers may be is the same in every later state. -/
theorem settled (h : Onward driver port driver' port') :
    driver'.directions = driver.directions ∧ driver'.capacity = driver.capacity := by
  induction h with
  | start => exact ⟨rfl, rfl⟩
  | @perform driver₁ port₁ _ program _ hprogram ih =>
    obtain ⟨known, hpath, -⟩ : Leads (fun _ _ => True) program _ ⟨driver₁, {}, port₁⟩ :=
      hprogram.leads rfl
    constructor
    · exact (Path.driver_eq Driver.directions Protocol.directions_eq hpath).trans ih.1
    · exact (Path.capacity_eq hpath).trans ih.2
  | meanwhile _ _ ih => exact ih

theorem bars_iff (h : Onward driver port driver' port') (demand : Demand) :
    driver'.Bars demand ↔ driver.Bars demand := by
  obtain ⟨hdirections, hcapacity⟩ := h.settled
  cases demand <;> simp only [Driver.Bars, hdirections, hcapacity]

/-- A refusal for a cause that is not transient is for good: whatever is done with the driver and
whatever becomes of the world, every later request for the same is refused too. -/
theorem stays_refused {request later : Request σ slots size} {demand : Demand}
    {cause : TransferError} (h : Onward driver port driver' port') (hasks : request.Asks demand)
    (hagain : later.Asks demand) (hrefused : request.IsRefused driver port cause)
    (hcause : cause.isTransient = false) : ∃ cause', later.IsRefused driver' port' cause' := by
  have hbarred := (Request.judged hasks driver port).lasting cause hrefused hcause
  exact (Request.judged hagain driver' port').refused ((h.bars_iff demand).2 hbarred)

/-- Seventeen bytes are too many for a slot of sixteen, also after a reset. -/
theorem stays_refused_reset :
    let request : Request Sim.Bench 1 16 := .send ⟨fun _ => (#[1], 17), Sim.occur .fill⟩
    let rig := Call.reset.perform (Call.disable.perform Rig.single)
    request.IsRefused Rig.single.driver Rig.single.port .bufferExceeded ∧
      ∃ cause, request.IsRefused rig.driver rig.port cause := by
  intro request rig
  have hrefused : request.IsRefused Rig.single.driver Rig.single.port .bufferExceeded := by
    change (_ : Except TransferError TransferId) = _
    decide +kernel
  have honward : Onward Rig.single.driver Rig.single.port rig.driver rig.port :=
    (Onward.start.perform .disable).perform .reset
  have hasks : request.Asks (.outbound 17) := ⟨17, fun _ => rfl, rfl⟩
  exact ⟨hrefused, stays_refused honward hasks hasks hrefused rfl⟩

end Onward
end DmaController

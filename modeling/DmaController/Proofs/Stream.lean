import DmaController.Proofs.Halt
import DmaController.Proofs.Order

/-!
The inbound stream. A stream starts by giving up whatever was in flight, so that what is in flight
afterwards is the end of the sequence of submissions, and the cursor stands where it begins. Every
transfer is inbound and asks for the granted number of bytes, which fits into a buffer, so that each
delivery has exactly that size. The start establishes all of this on any core that it can disable,
and every call keeps it that submits nothing by itself, does not restart the driver and leaves the
enable bit alone.
-/
namespace DmaController

open Relation Sim

variable {σ : Type} {slots size : Nat}

section Capacity

variable [HasSlots slots]

theorem Session.capacity_le {ready : Engine → Prop} {phase : Phase} {rig : Rig slots size}
    (h : Session ready phase rig) : rig.driver.capacity ≤ size := by
  induction h with
  | @start world config pool driver port _ _ h =>
    have hpool := (Driver.start_sized h).1
    change driver.pool.capacity ≤ size
    rw [hpool]
    exact Nat.le_trans (Nat.min_le_left _ _) (Nat.min_le_right _ _)
  | @call phase rig h call ih =>
    obtain ⟨-, known, hends, -⟩ := h.attained
    obtain ⟨known', hpath, -⟩ := call.ends hends
    exact Nat.le_trans (Nat.le_of_eq hpath.capacity_eq) ih
  | stimulus _ _ _ ih => exact ih
  | follow _ _ _ ih => exact ih

end Capacity
theorem Driver.requestSize?_self {driver : Driver slots size} {granted : Nat}
    (hpos : 0 < granted) (hle : granted ≤ driver.capacity) :
    driver.requestSize? granted = some granted := by
  unfold requestSize?
  rw [if_neg (Nat.ne_of_gt hpos), if_neg (Nat.not_lt.2 hle)]

/-- The submissions from one on carry the ids from its id on. -/
theorem Numbered.map_id {k : Known} {e : Engine} (h : Numbered k e) {done waiting : List Transfer}
    (hsplit : recent Event.submission? e.history = done ++ waiting) :
    waiting.map (·.id) =
      (List.range waiting.length).map (TransferId.first.ahead done.length).ahead := by
  refine List.ext_getElem (by simp) fun i hi _ => ?_
  have hlength : i < waiting.length := by simpa using hi
  have hid : (waiting[i]).id = TransferId.first.ahead (done.length + i) := by
    refine h.id_eq _ _ ?_
    rw [hsplit, List.getElem?_append_right (Nat.le_add_right _ _), Nat.add_sub_cancel_left]
    exact List.getElem?_eq_getElem hlength
  rw [List.getElem_map, List.getElem_map, List.getElem_range, TransferId.ahead_ahead, hid]

/-- What is in flight is the end of the sequence of submissions, and the cursor is where it begins.
What was submitted before it was delivered, in that order. -/
structure Queued (d : Driver slots size) (e : Engine) : Prop where
  cursor_eq : d.cursor = TransferId.first.ahead (recent Event.delivery? e.history).length
  split : ∃ done, recent Event.submission? e.history = done ++ flight e.history ∧
    done.map (·.id) = (recent Event.delivery? e.history).map Prod.fst

/-- The transfers in flight are the next on the ring. -/
theorem Queued.map_id {d : Driver slots size} {k : Known} {e : Engine} (h : Queued d e)
    (hnumbered : Numbered k e) : (flight e.history).map (·.id) =
      (List.range (flight e.history).length).map d.cursor.ahead := by
  obtain ⟨done, hsplit, hdone⟩ := h.split
  have hlength : done.length = (recent Event.delivery? e.history).length := by
    simpa using congrArg List.length hdone
  rw [hnumbered.map_id hsplit, hlength, h.cursor_eq]

/-- Nothing happened to the transfers. -/
theorem Queued.unmoved {d d' : Driver slots size} {e e' : Engine} (h : Queued d e)
    (hmoved : Unmoved e e') (hcursor : d'.cursor = d.cursor) : Queued d' e' where
  cursor_eq := by rw [hcursor, h.cursor_eq, hmoved.deliveries_eq]
  split := by
    rw [hmoved.submissions_eq, hmoved.flight_eq, hmoved.deliveries_eq]
    exact h.split

variable [HasSlots slots]

theorem Lined.nodup_ids {d : Driver slots size} {line : List Transfer} (h : Lined d line) :
    (line.map (·.id)).Nodup := by
  refine List.Nodup.of_map (Pool.index slots) ?_
  rw [List.map_map]
  exact h.apart

/-- There are no more transfers in flight than there are ids. -/
theorem Lined.length_le {d : Driver slots size} {line : List Transfer} (h : Lined d line) :
    line.length ≤ transferIdCount := by
  have hlap := List.subperm_of_subset h.nodup_ids fun id _ => TransferId.first.mem_lap id
  have hle := hlap.length_le
  rwa [List.length_map, TransferId.length_lap] at hle

namespace Queued

variable {d : Driver slots size} {k : Known} {e : Engine}

theorem sublist_lap (h : Queued d e) (hnumbered : Numbered k e)
    (hline : Lined d (flight e.history)) :
    ((flight e.history).map (·.id)).Sublist d.cursor.lap := by
  rw [h.map_id hnumbered]
  exact (List.range_sublist.2 hline.length_le).map _

/-- A collection takes from the front of the queue, and adds to its end. -/
theorem collect {s s' : Scene Bench slots size} {served : List (TransferId × Bytes)}
    {fresh : List Transfer} (h : Queued s.driver s.bare.engine)
    (hnumbered : Numbered s.known s.bare.engine)
    (hline : Lined s.driver (flight s.bare.engine.history))
    (hcollected : Collected s s' served fresh)
    (horder : InOrder s'.bare.engine.history) : Queued s'.driver s'.bare.engine := by
  obtain ⟨front, later, hflight, hserved⟩ :=
    hcollected.served_first horder (h.sublist_lap hnumbered hline)
  obtain ⟨done, hsplit, hdone⟩ := h.split
  have hcount : done.length = (recent Event.delivery? s.bare.engine.history).length := by
    simpa using congrArg List.length hdone
  have hdeliveries : (recent Event.delivery? s'.bare.engine.history).length =
      done.length + front.length := by
    have hlength : served.length = front.length := by simpa using congrArg List.length hserved
    rw [hcollected.moved.deliveries_eq, List.length_append, hcount, hlength]
  refine ⟨?_, done ++ front, ?_, ?_⟩
  · rw [hcollected.cursor_eq, hserved, hdeliveries]
    -- The cursor moves behind the last of the delivered transfers, if there is one.
    rcases List.eq_nil_or_concat' front with rfl | ⟨front, last, rfl⟩
    · rw [h.cursor_eq, ← hcount]
      rfl
    · have hlast : last.id = TransferId.first.ahead (done.length + front.length) := by
        refine hnumbered.id_eq _ _ ?_
        rw [hsplit, hflight, List.getElem?_append_right (Nat.le_add_right _ _)]
        simp
      rw [List.map_append, List.map_singleton, List.getLast?_concat, Option.map_some,
        Option.getD_some, hlast, TransferId.next, TransferId.ahead_ahead, List.length_append]
      rfl
  · rw [hcollected.moved.submissions_eq, hcollected.moved.flight_eq, hserved, hsplit, hflight]
    rw [hflight] at hline
    rw [hline.filter_front]
    simp only [List.append_assoc]
  · rw [hcollected.moved.deliveries_eq, List.map_append, List.map_append, hserved, hdone]

end Queued

/-- What holds of a driver whose stream runs. It asks for `granted` bytes each time, and since the
history was `past` only the start of the stream has given anything up. -/
structure Streams (granted : Nat) (past : List Event) (s : Scene Bench slots size) : Prop where
  lawful : s.port.world.device.script.IsLawful
  regular : s.bare.Regular
  rests : s.Rests .running
  stream_eq : s.driver.stream = some granted
  granted_eq : s.driver.requestSize? granted = some granted
  granted_le : granted ≤ size
  inFlight_pos : 0 < s.driver.inFlight
  grows : past <:+ s.bare.engine.history
  aborted_eq : s.bare.engine.history.count .aborted = past.count .aborted + 1
  inbound : ∀ transfer ∈ recent Event.submission? s.bare.engine.history,
    transfer.direction = .inbound ∧ transfer.length = granted
  size_eq : ∀ delivery ∈ recent Event.delivery? s.bare.engine.history, delivery.2.size = granted
  queued : InOrder s.bare.engine.history → Queued s.driver s.bare.engine

namespace Streams

variable {granted : Nat} {past : List Event} {s s' : Scene Bench slots size}

theorem phase_eq (h : Streams granted past s) : s.known.phase = .running :=
  h.rests.phase_eq.elim id id

theorem line (h : Streams granted past s) : Lined s.driver (flight s.bare.engine.history) :=
  h.regular.line.running h.phase_eq

theorem idles (h : Streams granted past s) (hidles : s.Idles s') (hrests : s'.Rests .running)
    (hdriver : s'.driver = s.driver) : Streams granted past s' where
  lawful := hidles.lawful
  regular := hidles.regular
  rests := hrests
  stream_eq := by rw [hdriver, h.stream_eq]
  granted_eq := by rw [hdriver, h.granted_eq]
  granted_le := h.granted_le
  inFlight_pos := by
    rw [hdriver]
    exact h.inFlight_pos
  grows := h.grows.trans hidles.unmoved.grows
  aborted_eq := hidles.unmoved.aborted_eq.trans h.aborted_eq
  inbound := by
    rw [hidles.unmoved.submissions_eq]
    exact h.inbound
  size_eq := by
    rw [hidles.unmoved.deliveries_eq]
    exact h.size_eq
  queued horder := by
    refine (h.queued (hidles.unmoved.inOrder horder)).unmoved hidles.unmoved ?_
    rw [hdriver]

/-- An operation that leaves the transfers and the driver alone. -/
theorem stays {α : Type} {program : DriverM Bench slots size α} (h : Streams granted past s)
    (hleads : Leads Drifts program (fun _ s' => s.Stays s') s)
    (hdoes : Does Action.SparesTransfers program) :
    Leads Drifts program (fun _ s' => Streams granted past s') s := by
  refine (hleads.idles hdoes h.lawful h.regular).mono fun _ s' h' => ?_
  obtain ⟨⟨hdriver, hdraft, hphase⟩, hidles⟩ := h'
  exact h.idles hidles ⟨hdraft, .inl (hphase.trans h.phase_eq)⟩ hdriver

/-- Changes of the control register that keep the enable bit. -/
theorem update {f : Word → Word} (h : Streams granted past s)
    (hkeeps : ∀ value : Word, value.hasAny Control.enable = true →
      (f value).hasAny Control.enable = true)
    (hwrite : ∀ (value : Word) (s : Scene Bench slots size), s.known.draft = .none →
      s.known.last = some (Register.control, value) →
      Leads Drifts (Driver.onBus (BusM.write Register.control (f value)))
        (fun _ s' => s.Stays s') s) :
    Leads Drifts (Driver.onBus (do
      BusM.write Register.control (f (← BusM.read Register.control)))) (fun _ s' =>
        Streams granted past s') s := by
  have hread : Leads Drifts (Driver.onBus (BusM.read Register.control)) (fun value s' =>
      s.Stays s' ∧ s'.known.last = some (Register.control, value)) s :=
    .read _ h.rests.draft_eq ⟨.read h.rests.draft_eq _, Known.last_learn ..⟩
  have hlook : Enters (Driver.onBus (BusM.read Register.control) : DriverM Bench slots size Word)
      (fun value _ actions => actions = [.read Register.control value]) s.driver :=
    .read fun _ => rfl
  refine .lift ((hread.traced hlook h.lawful h.regular).mono fun value s₁ h' => ?_)
  obtain ⟨⟨⟨hdriver, hdraft, hphase⟩, hlast⟩, _, events, hfollows, rfl⟩ := h'
  have henabled : s.bare.engine.isEnabled = true := (h.regular.custody.running h.phase_eq).enabled
  obtain ⟨-, hkept⟩ := hfollows.chronicle.enabled (by simp)
  have hvalue : value.hasAny Control.enable = true :=
    (hkept henabled).2 value (List.mem_singleton_self _)
  have hidles : s.Idles s₁ := ⟨hfollows.lawful, hfollows.regular,
    hfollows.chronicle.unmoved_of_minor (List.forall_mem_singleton.2 trivial)⟩
  have h₁ := h.idles hidles ⟨hdraft, .inl (hphase.trans h.phase_eq)⟩ hdriver
  exact h₁.stays (hwrite value s₁ hdraft hlast) (.write (.inr ⟨_, rfl, hkeeps value hvalue⟩))

theorem pause (h : Streams granted past s) :
    Leads Drifts Driver.pause (fun _ s' => Streams granted past s') s :=
  h.update (fun _ => Word.hasAny_or_left) fun _ _ hdraft hlast =>
    .write (.pause _ _ _ hlast) ⟨rfl, hdraft, rfl⟩

theorem resume (h : Streams granted past s) :
    Leads Drifts Driver.resume (fun _ s' => Streams granted past s') s := by
  refine h.update (fun value henabled => ?_) fun _ _ hdraft hlast =>
    .write (.resume _ _ _ hlast) ⟨rfl, hdraft, rfl⟩
  rw [Word.hasAny, BitVec.and_assoc]
  exact henabled

theorem claimCompletion (h : Streams granted past s) :
    Leads Drifts Driver.claimCompletion (fun _ s' => Streams granted past s') s := by
  have hstatus : Register.irqStatus ≠ Register.control := by decide
  refine h.stays (Driver.claimCompletion_leads h.rests.draft_eq) ?_
  refine .bind (.bind (.read fun _ => .inl trivial) fun _ => .pure _) fun flags => ?_
  split_ifs
  · exact .bind (.write (.inl hstatus)) fun _ => .pure _
  · exact .pure _

theorem acknowledge (h : Streams granted past s) :
    Leads Drifts Driver.acknowledge (fun _ s' => Streams granted past s') s := by
  have hline : ∀ world : World Bench slots size, Drifts world (InterruptLine.acknowledge world) :=
    fun _ => ⟨rfl, fun _ => .refl⟩
  exact h.stays (Driver.acknowledge_leads hline fun _ => ⟨rfl, h.rests.draft_eq, rfl⟩) (.alter _)

theorem collect (h : Streams granted past s) :
    Leads Drifts (Driver.collect Sim.consume) (fun _ s' => Streams granted past s') s := by
  refine (Driver.collect_collects h.lawful h.regular h.rests.draft_eq h.phase_eq).mono ?_
  intro _ s' h'
  obtain ⟨hrests, served, fresh, -, hcollected⟩ := h'
  have hmoved := hcollected.moved
  refine ⟨hcollected.lawful, hcollected.regular, hrests, hcollected.stream_eq.trans h.stream_eq,
    ?granted, h.granted_le, hcollected.sustained _ _ h.stream_eq h.granted_eq,
    h.grows.trans hmoved.grows, hmoved.aborted_eq.trans h.aborted_eq, ?inbound, ?size, ?queued⟩
  case granted =>
    rw [Driver.requestSize?_congr hcollected.capacity_eq]
    exact h.granted_eq
  case inbound =>
    rw [hmoved.submissions_eq]
    refine List.forall_mem_append.2 ⟨h.inbound, fun transfer hmem => ?_⟩
    obtain ⟨bytes, hbytes, hdirection, hlength⟩ := hcollected.fresh_eq transfer hmem
    obtain rfl := Option.some.inj (hbytes.symm.trans h.stream_eq)
    exact ⟨hdirection, Option.some.inj (hlength.symm.trans h.granted_eq)⟩
  case size =>
    rw [hmoved.deliveries_eq]
    refine List.forall_mem_append.2 ⟨h.size_eq, fun delivery hmem => ?_⟩
    obtain ⟨transfer, hflight, -, hsize⟩ := hcollected.size_eq delivery hmem
    obtain ⟨-, hlength⟩ := h.inbound transfer ((flight_sublist _).subset hflight)
    rw [hsize, hlength, Nat.min_eq_left h.granted_le]
  case queued =>
    intro horder
    exact (h.queued (hmoved.inOrder horder)).collect h.regular.numbered h.line hcollected horder

theorem serviceInterrupt (h : Streams granted past s) :
    Leads Drifts (Driver.serviceInterrupt Sim.consume) (fun _ s' => Streams granted past s') s := by
  refine .bind (.seq h.claimCompletion fun claimed s₁ h₁ => ?_)
  split_ifs
  · exact .seq h₁.collect fun _ s₂ h₂ => .pure (.seq h₂.acknowledge fun _ _ h₃ => .pure h₃)
  · exact .pure (.seq h₁.acknowledge fun _ _ h₂ => .pure h₂)

end Streams

/-- A call that submits nothing by itself, does not restart the driver and leaves the enable bit
alone. -/
def Call.KeepsStream : Call → Prop
  | .send _ | .sendAndWait .. | .receive _ | .startStream _ | .reset | .enable | .disable => False
  | _ => True

omit [HasSlots slots] in
theorem Driver.enableIrq_spares :
    Does Action.SparesTransfers (enableIrq : DriverM Bench slots size Unit) := by
  have hstatus : Register.irqStatus ≠ Register.control := by decide
  have hmask : Register.irqMask ≠ Register.control := by decide
  exact .bind (.write (.inl hstatus)) fun _ => .write (.inl hmask)

theorem Streams.call {granted : Nat} {past : List Event} {rig : Rig slots size} {known : Known}
    (h : Streams granted past (rig.scene known)) {call : Call} (hcall : call.KeepsStream) :
    ∃ known', Streams granted past ((call.perform rig).scene known') := by
  have hrun : ∀ {α : Type} {program : DriverM Bench slots size α},
      Leads Drifts program (fun _ s' => Streams granted past s') (rig.scene known) →
      ∃ known', Streams granted past ((rig.run program).scene known') := by
    intro α program hleads
    obtain ⟨known', -, h'⟩ := hleads
    exact ⟨known', h'⟩
  have hdraft : (rig.scene known).known.draft = .none := h.rests.draft_eq
  have hmask : Register.irqMask ≠ Register.control := by decide
  cases call with
  | send | sendAndWait | receive | startStream | reset | enable | disable => exact hcall.elim
  | collect => exact hrun h.collect
  | serviceInterrupt => exact hrun h.serviceInterrupt
  | claimCompletion => exact hrun h.claimCompletion
  | pause => exact hrun h.pause
  | resume => exact hrun h.resume
  | enableIrq => exact hrun (h.stays (Driver.enableIrq_leads hdraft) Driver.enableIrq_spares)
  | disableIrq => exact hrun (h.stays (Driver.disableIrq_leads hdraft) (.write (.inl hmask)))
  | acknowledge => exact hrun h.acknowledge
  | registerSink sink =>
    exact hrun (h.stays (.alter ⟨rfl, fun _ => .refl⟩ ⟨rfl, hdraft, rfl⟩) (.alter _))
  | isEnabled | isPaused | progress | irqFlags | doneBits =>
    exact hrun (h.stays (Driver.read_leads hdraft _ _)
      (.looks (fun _ hpassive => .inl hpassive.isMinor) fun _ => .read _ _))

namespace Driver

section Start

variable [RegisterBus (World σ slots size)]

/-- How a restart ends: every slot is taken back. -/
def takeBack : DriverM σ slots size Unit := do
  record (.released (← get).inFlight)
  modify restarted

/-- The restart goes on, once the core is disabled, and the stream is set up. -/
def prepare (granted : Nat) : DriverM σ slots size Unit := do
  enable
  takeBack
  modify fun driver => { driver with stream := some granted }
  enableIrq

/-- How the start of a stream ends, once the core is disabled. -/
def restream (granted : Nat) : DriverM σ slots size (Except TransferError Nat) := do
  prepare granted
  let queued ← refill granted
  log (.streamStarted queued granted)
  return .ok queued

/-- A stream that is not refused disables the core first. -/
theorem startStream_outcome {driver : Driver slots size} {port : Port (World σ slots size)}
    {bytes queued : Nat} (h : ((startStream bytes).outcome driver port).1.1 = .ok queued) :
    ∃ granted, driver.requestSize? bytes = some granted ∧
      (startStream bytes).outcome driver port =
        (restream granted).outcome driver (disable.outcome driver port).2 := by
  unfold startStream at h ⊢
  rw [DriverM.outcome_get] at h ⊢
  split_ifs at h ⊢
  · rw [DriverM.outcome_get] at h ⊢
    cases hsize : driver.requestSize? bytes with
    | none =>
      rw [hsize] at h
      cases h
    | some granted => exact ⟨granted, rfl, rfl⟩
  · cases h

theorem takeBack_leads {free : World σ slots size → World σ slots size → Prop}
    {s : Scene σ slots size} (hdraft : s.known.draft = .none) (henabled : s.known.enabled = true)
    (hphase : s.known.phase ≠ .running) : Leads free takeBack (fun _ s' =>
      s'.driver = s.driver.restarted ∧ s'.known.draft = .none ∧
        s'.known.phase = s.known.phase.restart) s := by
  let s' := s.tell (.released s.driver.inFlight) s.driver.restarted
    { s.known with phase := s.known.phase.restart, look := .unknown, done := .none }
  have hstep : Step free s s' := ⟨_, .restart _ _ henabled hphase hdraft, rfl, trivial⟩
  have hrest : Leads free (pure ()) (fun _ s' => s'.driver = s.driver.restarted ∧
      s'.known.draft = .none ∧ s'.known.phase = s.known.phase.restart) s' :=
    .pure ⟨rfl, hdraft, rfl⟩
  exact .bind (.get (.via hstep rfl hrest))

end Start

omit [HasSlots slots] in
theorem enable_spares : Does Action.SparesTransfers (enable : DriverM Bench slots size Unit) :=
  .update (fun _ => .inl trivial) fun _ => .inr ⟨_, rfl, Word.hasAny_or_right (by decide)⟩

omit [HasSlots slots] in
theorem takeBack_spares : Does Action.SparesTransfers (takeBack : DriverM Bench slots size Unit) :=
  .bind .get fun _ => .bind (.record (.inl trivial)) fun _ => .change _

end Driver

theorem Driver.prepare_leads {s : Scene Bench slots size} (granted : Nat)
    (hlawful : s.port.world.device.script.IsLawful) (hregular : s.bare.Regular)
    (hdraft : s.known.draft = .none) (hphase : s.known.phase = .halted) :
    Leads Drifts (prepare granted) (fun _ s' => s'.Rests .running ∧
      s'.driver = { s.driver.restarted with stream := some granted } ∧ s.Idles s') s := by
  unfold prepare
  refine .seq ((enable_leads hdraft).idles enable_spares hlawful hregular) ?_
  intro _ s₁ h
  obtain ⟨⟨⟨hd₁, hdraft₁, hphase₁⟩, henabled⟩, hidles₁⟩ := h
  rw [hphase] at hphase₁
  refine .seq ((takeBack_leads hdraft₁ henabled (by simp [hphase₁])).idles takeBack_spares
    hidles₁.lawful hidles₁.regular) ?_
  intro _ s₂ h
  obtain ⟨⟨hd₂, hdraft₂, hphase₂⟩, hidles₂⟩ := h
  rw [hphase₁] at hphase₂
  have hset : Leads Drifts (modify fun driver => { driver with stream := some granted })
      (fun _ s₃ => s₃.driver = { s₂.driver with stream := some granted } ∧
        s₃.known = s₂.known) s₂ := .inward (.stream _ _ _) ⟨rfl, rfl⟩
  refine .seq (hset.idles (.change _) hidles₂.lawful hidles₂.regular) ?_
  intro _ s₃ h
  obtain ⟨⟨hd₃, hk₃⟩, hidles₃⟩ := h
  refine ((enableIrq_leads (hk₃ ▸ hdraft₂)).idles enableIrq_spares hidles₃.lawful
    hidles₃.regular).mono ?_
  intro _ s₄ h
  obtain ⟨⟨hd₄, hdraft₄, hphase₄⟩, hidles₄⟩ := h
  refine ⟨⟨hdraft₄, .inl ?_⟩, ?_, ((hidles₁.trans hidles₂).trans hidles₃).trans hidles₄⟩
  · rw [hphase₄, hk₃, hphase₂]
    rfl
  · rw [hd₄, hd₃, hd₂, hd₁]

/-- The first requests after everything was given up put the stream in motion. -/
theorem Streams.of_requested {s : Scene Bench slots size} {driver : Driver slots size}
    {e given : Engine} {granted : Nat} {requests : List Action} {fresh : List Transfer}
    (hgiven : GivenUp e given) (hmoved : Moved given s.bare.engine [] fresh)
    (hrequested : Requested granted driver s.driver requests)
    (hfresh : fresh = requests.filterMap Action.submission?)
    (hcursor : driver.cursor = TransferId.first) (hstream : driver.stream = some granted)
    (hgranted : driver.requestSize? granted = some granted) (hsize : granted ≤ size)
    (hlawful : s.port.world.device.script.IsLawful) (hregular : s.bare.Regular)
    (hrests : s.Rests .running) (hinFlight : 0 < s.driver.inFlight) :
    Streams granted e.history s := by
  have hflight : flight s.bare.engine.history = fresh := by
    rw [hmoved.flight_eq, hgiven.flight_eq]
    rfl
  have hsubmitted : recent Event.submission? s.bare.engine.history = fresh := by
    rw [hmoved.submissions_eq, hgiven.recent_eq]
    rfl
  have hdelivered : recent Event.delivery? s.bare.engine.history = [] := by
    rw [hmoved.deliveries_eq, hgiven.recent_eq]
    rfl
  refine ⟨hlawful, hregular, hrests, hrequested.stream_eq.trans hstream, ?granted, hsize,
    hinFlight, hgiven.grows.trans hmoved.grows, hmoved.aborted_eq.trans hgiven.count_aborted,
    ?inbound, ?size, ?queued⟩
  case granted =>
    rw [Driver.requestSize?_congr hrequested.capacity_eq]
    exact hgranted
  case inbound =>
    rw [hsubmitted, hfresh]
    intro transfer hmem
    obtain ⟨hdirection, hlength⟩ := hrequested.granted_eq hmem
    exact ⟨hdirection, Option.some.inj (hlength.symm.trans hgranted)⟩
  case size => simp [hdelivered]
  case queued =>
    -- Nothing is delivered yet, so that the whole sequence is in flight.
    intro _
    refine ⟨?_, [], ?_, ?_⟩
    · rw [hdelivered, hrequested.cursor_eq, hcursor]
      rfl
    · rw [hsubmitted, hflight]
      rfl
    · rw [hdelivered]
      rfl

/-- From a core that has just been disabled the stream starts. -/
theorem Streams.start {s : Scene Bench slots size} {e : Engine} {granted : Nat}
    (hlawful : s.port.world.device.script.IsLawful) (hknown : s.known = { phase := .halted })
    (hgiven : GivenUp e s.bare.engine) (hlimit : s.driver.capacity ≤ transferLimit)
    (hpos : 0 < granted) (hle : granted ≤ s.driver.capacity) (hsize : granted ≤ size) :
    Leads Drifts (Driver.restream granted) (fun _ s' => Streams granted e.history s') s := by
  have hregular : s.bare.Regular := by
    have hregular : Regular s.driver { phase := .halted } s.bare.engine :=
      hgiven.regular (Nat.lt_of_lt_of_le hpos hle) hlimit
    rwa [← hknown] at hregular
  refine .seq (Driver.prepare_leads granted hlawful hregular (by rw [hknown])
    (by rw [hknown])) ?_
  intro _ s₁ h
  obtain ⟨hrests₁, hd₁, hidles⟩ := h
  have hcapacity : s₁.driver.capacity = s.driver.capacity := by
    rw [hd₁]
    rfl
  have hgranted : s₁.driver.requestSize? granted = some granted :=
    Driver.requestSize?_self hpos (hcapacity ▸ hle)
  have hrefill : Leads Drifts (Driver.refill granted) (fun _ s' => s'.Rests .running ∧
      0 < s'.driver.inFlight) s₁ :=
    (Driver.refill_leads granted hrests₁).also (P := fun _ d _ => 0 < d.inFlight)
      (hidles.regular.refill_sustains hidles.lawful (hrests₁.phase_eq.elim id id) hgranted)
  refine .seq (hrefill.traced (Driver.refill_enters granted) hidles.lawful hidles.regular) ?_
  intro queued s₂ h
  obtain ⟨⟨hrests₂, hinFlight⟩, requests, events, hfollows, hrequested⟩ := h
  have hmoved := hidles.unmoved.moved (hfollows.chronicle.requested hrequested)
  have hstreams : Streams granted e.history s₂ :=
    .of_requested hgiven hmoved hrequested rfl (by rw [hd₁]; rfl) (by rw [hd₁]) hgranted hsize
      hfollows.lawful hfollows.regular hrests₂ hinFlight
  refine .seq (hstreams.stays (.log ⟨rfl, hrests₂.draft_eq, rfl⟩) (.record (.inl trivial))) ?_
  exact fun _ _ h => .pure h

end DmaController

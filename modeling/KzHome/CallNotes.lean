import KzHome.Lib.Restart
import KzHome.Runs

/-!
# KzHome.CallNotes

What a service call leaves behind, whatever it is answered.

Every operation of a call runs only code that sets the ticks of its process to ticks it has read
(`Port.Measures`), and notes only events of the call's own kind (`ServiceCall.Notes`). Both are
read off the programs in one pass (`program_within`). So nothing is in the log that no call has
asked for (`noted_by_call`).
-/

namespace KzHome

open Session Restart Services Program

/-- What code of a process makes of the ticks it reads: a last tick or a start of the fence that
is new is a reading, and the length of the fence stays. -/
structure Port.Measures (a b : Port) : Prop where
  last : b.proc.authority.clock.last = a.proc.authority.clock.last ∨
    some b.proc.authority.clock.last ∈ a.sources.ticks
  fence : (b.proc.authority.clock.fenceStart = a.proc.authority.clock.fenceStart ∧
      b.proc.authority.recoveryInitialized = a.proc.authority.recoveryInitialized ∧
      b.proc.authority.recoveryIds = a.proc.authority.recoveryIds) ∨
    some b.proc.authority.clock.fenceStart ∈ a.sources.ticks
  fenceUs : b.proc.authority.clock.fenceUs = a.proc.authority.clock.fenceUs

namespace Port.Measures

variable {a b : Port}

/-- The clock, and what was taken in the snapshot, stay. -/
theorem of_eq (hclock : b.proc.authority.clock = a.proc.authority.clock)
    (hinitialized : b.proc.authority.recoveryInitialized = a.proc.authority.recoveryInitialized)
    (hids : b.proc.authority.recoveryIds = a.proc.authority.recoveryIds) : Measures a b :=
  ⟨Or.inl (by rw [hclock]), Or.inl ⟨by rw [hclock], hinitialized, hids⟩, by rw [hclock]⟩

theorem of_ticks (h : a.Ticks b) : Measures a b := by
  have hauth := h.authority_eq
  exact ⟨h.clock.read, Or.inl ⟨h.clock.fenceStart, by rw [hauth], by rw [hauth]⟩, h.clock.fenceUs⟩

theorem of_trims (h : a.Trims b) : Measures a b :=
  of_eq h.clock_eq (by rw [h.proc]) (by rw [h.proc])

theorem of_fences {ids : List String} (h : a.Fences ids b) : Measures a b := by
  obtain ⟨tick, htick, -, hp⟩ := h.proc
  refine ⟨Or.inr ?_, Or.inr ?_, ?_⟩
  · rw [hp]
    exact htick
  · rw [hp]
    exact htick
  · rw [hp]

end Port.Measures

/-! ### Operations -/

/-- The operation runs only code that measures, and notes only events of the kind `N`. -/
def Op.Within (N : Event → Prop) : Op → Prop
  | .registry _ note => ∀ r, ∀ e ∈ note r, N e
  | .query note => ∀ db, ∀ e ∈ note db, N e
  | .atomic f note => ∀ p, Port.Measures p (f p) ∧ ∀ e ∈ note p, N e
  | .commit _ note => ∀ e ∈ note, N e
  | .publish e => N e
  | _ => True

theorem Op.Within.mono {N N' : Event → Prop} (hN : ∀ e, N e → N' e) {op : Op}
    (h : op.Within N) : op.Within N' := by
  cases op with
  | registry locks note => exact fun r e he => hN e (h r e he)
  | query note => exact fun db e he => hN e (h db e he)
  | atomic f note => exact fun p => ⟨(h p).1, fun e he => hN e ((h p).2 e he)⟩
  | commit w note => exact fun e he => hN e (h e he)
  | publish e => exact hN e h
  | _ => trivial

/-- A program of such operations. -/
abbrev Within {α : Type} (N : Event → Prop) (m : Program α) : Prop :=
  @Only sql Error α (Op.Within N) m

/-! ### The programs -/

section Programs

variable {α : Type} {N : Event → Prop} {cfg : Config} {s pid : Nat}

theorem within_ask {op : Op} (h : op.Within N) : Within N (ask op) := ⟨h, fun _ => trivial⟩

/-- Code of the process, and what is done with what it returns. -/
theorem within_bind {β : Type} {c : Call Port Error α} {note : Port → α → List Event}
    {f : Port × α → Program β} (hc : Call.Moves Port.Measures c)
    (hnote : ∀ p p' a, c.run p = (.ok a, p') → ∀ e ∈ note p a, N e)
    (hf : ∀ p p' a, c.run p = (.ok a, p') → Within N (f (p, a))) :
    Within N (computeNote c note >>= f) := by
  have hask : Within N (ask (.atomic (fun p => (c.run p).2) (noteOk c note))) := by
    refine within_ask fun p => ⟨hc p, fun e he => ?_⟩
    unfold noteOk at he
    split at he
    · rename_i a ha
      exact hnote p _ a (Prod.ext ha rfl) e he
    · cases he
  show Within N (ask (.atomic (fun p => (c.run p).2) (noteOk c note)) >>= fun port => _)
  refine hask.bind fun port => ?_
  simp only [Prog.bind]
  cases hr : c.run port with
  | mk r p' =>
      cases r with
      | ok a => exact hf port p' a hr
      | error e => trivial

theorem within_compute {c : Call Port Error α} (hc : Call.Moves Port.Measures c) :
    Within N (compute c) := by
  have hask : Within N (ask (.atomic (fun p => (c.run p).2) (noteOk c fun _ _ => []))) := by
    refine within_ask fun p => ⟨hc p, fun e he => ?_⟩
    unfold noteOk at he
    split at he <;> cases he
  refine hask.bind fun port => ?_
  split <;> trivial

theorem within_ticks {c : Call Port Error α} (hc : Call.Moves Port.Ticks c) :
    Within N (compute c) := within_compute fun p => .of_ticks (hc p)

theorem within_modify {f : ControlAuthority → ControlAuthority}
    (hclock : ∀ a, (f a).clock = a.clock)
    (hinitialized : ∀ a, (f a).recoveryInitialized = a.recoveryInitialized)
    (hids : ∀ a, (f a).recoveryIds = a.recoveryIds) :
    Within N (compute (ControlAuthority.modify f)) :=
  within_compute fun _ => .of_eq (hclock _) (hinitialized _) (hids _)

theorem within_registry {locks : Registry → List Lock} {note : Registry → List Event}
    (h : ∀ r, ∀ e ∈ note r, N e) : Within N (registry locks note) := within_ask h

/-- A statement that notes nothing. -/
theorem within_read (locks : Registry → List Lock) : Within N (registry locks fun _ => []) :=
  within_registry fun _ _ he => by cases he

theorem within_query {note : Ledger → List Event} (h : ∀ db, ∀ e ∈ note db, N e) :
    Within N (query note) := within_ask h

theorem within_find (sel : Selector) : Within N (find sel) := within_ask trivial

theorem within_lockControl (id : String) : Within N (lockControl id) := within_ask trivial

theorem within_flush (w : Ledger.Write) : Within N (flush w) := within_ask trivial

theorem within_commit {w : Ledger.Write} {note : List Event} (h : ∀ e ∈ note, N e) :
    Within N (commit w note) := within_ask h

theorem within_rollback : Within N rollback := within_ask trivial

theorem within_uuid : Within N uuid := within_ask trivial

theorem within_publish {e : Event} (h : N e) : Within N (publish e) := within_ask h

theorem within_lift (x : Except Error α) : Within N (Prog.lift x : Program α) := only_lift x

theorem within_note {e : Event} (h : N e) : Within N (Program.note e) :=
  within_bind (fun p => .of_ticks (.refl p)) (fun _ _ _ _ e' he' => by
    rw [List.mem_singleton.mp he']
    exact h) fun _ _ _ _ => trivial

/-- A question about the memory of the process. -/
theorem within_self (f : Port → α) : Within N (compute (do let p ← Call.self; return f p)) :=
  within_ticks fun p => .refl p

theorem within_authority : Within N (compute ControlAuthority.authority) :=
  within_ticks ControlAuthority.authority_moves

theorem within_now : Within N (compute CommandService.now) := within_ticks CommandService.now_moves

theorem within_sample : Within N (compute (ControlAuthority.clocked ControlClock.sample)) :=
  within_ticks (.clocked ControlClock.sample_moves)

theorem within_getControl (id : String) : Within N (getControl id) :=
  (within_query fun _ _ he => by cases he).bind fun _ => trivial

theorem within_requireHouse (hguard : ∀ r, N (.guarded r)) (house device : String) :
    Within N (requireHouse house device) := by
  refine (within_read _).bind fun r => (within_lift _).bind fun _ => ?_
  refine (within_read _).bind fun r => (within_lift _).bind fun _ => ?_
  refine (within_registry fun r e he => List.mem_singleton.mp he ▸ hguard r).bind fun r => ?_
  split
  · trivial
  · split <;> trivial

theorem within_authorizeCommand (hguard : ∀ r, N (.guarded r)) (house device : String) :
    Within N (authorizeCommand cfg house device) := by
  refine (within_requireHouse hguard house device).bind fun housed => ?_
  refine (within_registry fun r e he => List.mem_singleton.mp he ▸ hguard r).bind fun unbound => ?_
  split
  · trivial
  · split <;> trivial

theorem within_orUuid (value : String) : Within N (orUuid value) := by
  unfold orUuid
  split
  · exact within_uuid
  · trivial

theorem within_sendCommand (hguard : ∀ r, N (.guarded r)) {row : Option String} {frame : SetFrame}
    (hsend : ∀ correlationId commandId now housed unbound,
      N (.dispatched { row, frame := { frame with correlationId, commandId }, now, housed
                       unbound })) :
    Within N (sendCommand cfg row frame) := by
  refine (within_authorizeCommand hguard _ _).bind fun x => ?_
  dsimp only
  split
  · trivial
  refine (within_orUuid _).bind fun correlationId => (within_orUuid _).bind fun id => ?_
  split
  · trivial
  refine within_now.bind fun x => ?_
  split
  · trivial
  refine (within_publish (hsend _ _ _ _ _)).bind fun sent => ?_
  split <;> trivial

theorem within_process {job : Job} {sub : Option Submission}
    (h : ∀ e : Processed, e.job = job → e.submission = sub → N (.processed e))
    (row : DeviceCommand) : Within N (Services.process job sub row) := by
  refine Only.bind (within_getControl _) fun control => ?_
  refine (within_ticks (Job.decide_moves job row control)).bind fun x => ?_
  refine (within_commit fun e he => ?_).bind fun refused => ?_
  · rw [List.mem_singleton.mp he]
    exact h _ rfl rfl
  · split <;> trivial

theorem within_get {sub : Option Submission}
    (h : ∀ e : Processed, e.job = .read → e.submission = sub → N (.processed e))
    (house id : String) : Within N (Services.get sub house id) := by
  refine (within_find _).bind fun found => ?_
  split
  · trivial
  · exact within_process h _

theorem within_physical (house device : String) : Within N (physical house device) := by
  refine (within_read _).bind fun r => (within_lift _).bind fun item => ?_
  split
  · trivial
  · refine (within_read _).bind fun r => (within_lift _).bind fun actual => ?_
    split
    · trivial
    · exact (within_read _).bind fun r => within_authority.bind fun _ => within_lift _

theorem within_validateDelivery (delivery : ControlDelivery) :
    Within N (validateDelivery delivery) := by
  refine (within_self _).bind fun x => ?_
  dsimp only
  split
  · trivial
  · exact (within_ticks (ControlAuthority.validateDelivery_moves delivery)).bind fun _ => trivial

end Programs

/-! ### The calls -/

/-- What a call may note, as session `s` of process `pid`. -/
def ServiceCall.Notes (cfg : Config) (s pid : Nat) : ServiceCall → Event → Prop
  | .submit house device user key on, e =>
    let sub : Submission := { house, device, user, hash := cfg.sha.hex key, on }
    match e with
    | .guarded _ => True
    | .processed p =>
      p.submission = some sub ∧ (p.job = .read ∨ ∃ published, p.job = .settle published)
    | .created t x _ => t = s ∧ x = sub
    | .sendCall x _ => x = sub
    | .reply x _ => x = sub
    | .dispatched d =>
      d.row.isSome = true ∧ d.frame.house = house ∧ d.frame.device = device ∧
        d.frame.state = [("on", .bool on)]
    | _ => False
  | .get _ _, .processed p => p.job = .read ∧ p.submission = none
  | .ack house device envelope retained, .processed p =>
    p.job = .ack house device envelope retained ∧ p.submission = none
  | .state house device envelope retained, .processed p =>
    p.job = .state house device envelope retained ∧ p.submission = none
  | .updateState device patch _, e =>
    match e with
    | .guarded _ => True
    | .dispatched d => d.row = none ∧ d.frame.device = device ∧ d.frame.state = patch
    | _ => False
  | .initializeAuthority, .snapshot q _ => q = pid
  | .prepare intent, .prepared q row _ _ => q = pid ∧ row = intent.row
  | .sendControlCommand house device _, e =>
    match e with
    | .staged _ _ => True
    | .published topic h d _ => topic = .controlCommand ∧ h = house ∧ d = device
    | _ => False
  | .controlRequest house device request, e =>
    match e with
    | .guarded _ => True
    | .bound t q g => t = s ∧ q = pid ∧ g.house = house ∧ g.device = device ∧ g.request = request
    | .granted permit =>
      permit.session = s ∧ permit.pid = pid ∧ permit.house = house ∧ permit.device = device ∧
        permit.request = request
    | .published topic h d _ => topic = .controlReply ∧ h = house ∧ d = device
    | _ => False
  | _, _ => False

section Calls

variable {cfg : Config} {s pid : Nat}

theorem within_submit (house device user key : String) (on : Bool) :
    Within ((ServiceCall.submit house device user key on).Notes cfg s pid)
      (submit cfg s house device user key on) := by
  let sub : Submission := { house, device, user, hash := cfg.sha.hex key, on }
  have hread : ∀ e : Processed, e.job = .read → e.submission = some sub →
      (ServiceCall.submit house device user key on).Notes cfg s pid (.processed e) :=
    fun e hj hs => ⟨hs, Or.inl hj⟩
  have hsettle : ∀ published, ∀ e : Processed, e.job = .settle published → e.submission = some sub →
      (ServiceCall.submit house device user key on).Notes cfg s pid (.processed e) :=
    fun published e hj hs => ⟨hs, Or.inr ⟨published, hj⟩⟩
  have hcall : ∀ id, (ServiceCall.submit house device user key on).Notes cfg s pid
      (.sendCall sub id) := fun _ => rfl
  have hreply : ∀ id, (ServiceCall.submit house device user key on).Notes cfg s pid
      (.reply sub id) := fun _ => rfl
  have hcreate : ∀ freed : Option Processed,
      (∀ e ∈ freed, e.job = .read ∧ e.submission = some sub) →
      Within ((ServiceCall.submit house device user key on).Notes cfg s pid)
        (create cfg s sub freed) := by
    intro freed hfreed
    refine (within_self _).bind fun x => ?_
    dsimp only
    split
    · trivial
    refine (within_authorizeCommand (fun _ => trivial) _ _).bind fun _ => ?_
    refine within_now.bind fun now => within_uuid.bind fun id => within_uuid.bind fun corr => ?_
    refine (within_commit fun e he => ?_).bind fun refused => ?_
    · rcases List.mem_append.mp he with he | he
      · obtain ⟨p, rfl, rfl⟩ : ∃ p, freed = some p ∧ Event.processed p = e := by simpa using he
        exact hread p (hfreed p rfl).1 (hfreed p rfl).2
      · rw [List.mem_singleton.mp he]
        exact ⟨rfl, rfl⟩
    split
    · trivial
    refine (within_note (hcall _)).bind fun _ => ?_
    refine (within_sendCommand (fun _ => trivial) fun _ _ _ _ _ => ⟨rfl, rfl, rfl, rfl⟩).attempt.bind
      fun outcome => ?_
    refine (within_find _).bind fun found => ?_
    split
    · trivial
    refine (within_process (hsettle _) _).bind fun _ => (within_get hread _ _).bind fun row => ?_
    exact within_note (hreply _)
  have hfree : ∀ d freed, (∀ e ∈ freed, e.job = .read ∧ e.submission = some sub) →
      Within ((ServiceCall.submit house device user key on).Notes cfg s pid)
        (submitFree cfg s sub d freed) := by
    intro d freed hfreed
    unfold submitFree
    split
    · trivial
    · exact hcreate freed hfreed
  refine (within_read _).bind fun r => (within_lift _).bind fun _ => ?_
  refine (within_read _).bind fun r => ?_
  split
  · trivial
  refine (within_read _).bind fun r => (within_lift _).bind fun actual => ?_
  split
  · trivial
  refine (within_find _).bind fun found => ?_
  split
  · unfold submitReplay
    split
    · trivial
    · exact (within_process hread _).bind fun row => within_note (hreply _)
  · refine (within_read _).bind fun r => (within_lift _).bind fun _ => ?_
    split
    · trivial
    refine (within_lift _).bind fun _ => (within_find _).bind fun pending => ?_
    split
    · exact hfree _ _ fun _ he => by cases he
    · refine (within_getControl _).bind fun control => ?_
      refine (within_ticks (Job.decide_moves _ _ _)).bind fun x => ?_
      dsimp only
      split
      · trivial
      refine (within_flush _).bind fun accepted => ?_
      split
      · trivial
      · refine hfree _ _ fun e he => ?_
        obtain rfl := Option.some.inj he
        exact ⟨rfl, rfl⟩

theorem within_updateState (device : String) (patch : List (String × Json))
    (correlationId : String) :
    Within ((ServiceCall.updateState device patch correlationId).Notes cfg s pid)
      (updateState cfg device patch correlationId) := by
  refine (within_read _).bind fun r => (within_lift _).bind fun _ => ?_
  refine (within_read _).bind fun r => (within_lift _).bind fun _ => ?_
  refine (within_read _).bind fun r => (within_lift _).bind fun entity => ?_
  refine (within_lift _).bind fun _ => within_now.bind fun x => ?_
  refine (within_read _).bind fun r => (within_lift _).bind fun house => ?_
  split
  · trivial
  · exact (within_sendCommand (fun _ => trivial) fun _ _ _ _ _ => ⟨rfl, rfl, rfl⟩).bind
      fun _ => trivial

theorem within_initializeAuthority :
    Within (ServiceCall.initializeAuthority.Notes cfg s pid) (initializeAuthority pid) := by
  refine within_authority.bind fun x => ?_
  dsimp only
  split
  · trivial
  · refine (within_query fun db e he => ?_).bind fun db => ?_
    · rw [List.mem_singleton.mp he]
      exact rfl
    · refine (within_compute fun p => ?_).bind fun _ => trivial
      exact (ControlAuthority.startFence_moves _ p).elim .of_ticks .of_fences

theorem within_prepare (intent : Intent) :
    Within ((ServiceCall.prepare intent).Notes cfg s pid) (prepare cfg pid intent.row) := by
  have hroom : Within ((ServiceCall.prepare intent).Notes cfg s pid) makeRoom := by
    refine within_authority.bind fun x => ?_
    dsimp only
    split
    · trivial
    refine (within_query fun _ _ he => by cases he).bind fun db => ?_
    refine Only.bind (within_modify (fun _ => rfl) (fun _ => rfl) fun _ => rfl) fun _ => ?_
    refine within_authority.bind fun x => ?_
    split <;> trivial
  refine (within_physical _ _).bind fun _ => ?_
  refine (within_ticks ControlAuthority.prepareSample_moves).bind fun x => ?_
  refine (within_find _).bind fun found => (within_lift _).bind fun _ => ?_
  refine hroom.bind fun _ => (within_flush _).bind fun accepted => ?_
  split
  · trivial
  refine (within_commit fun e he => ?_).bind fun refused => ?_
  · rw [List.mem_singleton.mp he]
    exact ⟨rfl, rfl⟩
  split
  · trivial
  · exact Only.bind (within_modify (fun _ => rfl) (fun _ => rfl) fun _ => rfl) fun _ => trivial

theorem within_sendControlCommand (house device id : String) :
    Within ((ServiceCall.sendControlCommand house device id).Notes cfg s pid)
      (sendControlCommand cfg house device id) := by
  have hstage : Within ((ServiceCall.sendControlCommand house device id).Notes cfg s pid)
      (stage cfg house device id) := by
    refine (within_physical _ _).bind fun _ => within_sample.bind fun x => ?_
    refine (within_find _).bind fun row => (within_getControl _).bind fun record => ?_
    refine (within_ticks (ControlAuthority.stageDecide_moves _ _ _ _ _ _)).bind fun x => ?_
    refine (within_commit fun e he => ?_).bind fun refused => ?_
    · obtain ⟨row', -, rfl⟩ : ∃ r, row = some r ∧ Event.staged r x.2.1 = e := by simpa using he
      trivial
    · split <;> trivial
  refine hstage.bind fun delivery => within_rollback.bind fun _ => ?_
  exact (within_validateDelivery _).bind fun _ =>
    (within_publish ⟨rfl, rfl, rfl⟩).bind fun _ => trivial

theorem within_request (house device : String) (req : PermitRequest) :
    Within ((ServiceCall.controlRequest house device req).Notes cfg s pid)
      (Services.request cfg s pid house device req) := by
  refine (within_physical _ _).bind fun _ => within_sample.bind fun x => ?_
  refine (within_find _).bind fun row => (within_lockControl _).bind fun record => ?_
  refine within_bind (fun p => .of_trims (ControlAuthority.requestDecide_moves _ _ _ _ _ _ _ _ p))
    (fun p p' decision hd e he => ?note) fun p p' decision hd => ?rest
  case note =>
    unfold cachedNote at he
    split at he
    · split at he
      · rw [List.mem_singleton.mp he]
        exact ⟨rfl, rfl, rfl, rfl, rfl⟩
      · cases he
    · cases he
  case rest =>
    dsimp only
    split
    · trivial
    · rename_i g
      -- the grant is for what was asked
      obtain ⟨_, _, _, -, -, -, -, -, -, hg⟩ := ControlAuthority.requestDecide_ok hd
      have hasked : g.house = house ∧ g.device = device ∧ g.request = req := by
        rw [hg]
        exact ⟨rfl, rfl, rfl⟩
      refine (within_commit fun e he => ?_).bind fun refused => ?_
      · rw [List.mem_singleton.mp he]
        exact ⟨rfl, rfl, hasked⟩
      split
      · trivial
      · trivial
      · refine within_bind (fun _ => .of_eq rfl rfl rfl) (fun p p' u _ e he => ?_)
          fun _ _ _ _ => trivial
        rw [List.mem_singleton.mp he]
        exact ⟨rfl, rfl, hasked⟩

theorem within_controlRequest (house device : String) (req : PermitRequest) :
    Within ((ServiceCall.controlRequest house device req).Notes cfg s pid)
      (controlRequest cfg s pid house device req) := by
  refine (within_requireHouse (fun _ => trivial) _ _).bind fun _ => ?_
  refine Only.bind (Only.attempt ((within_request house device req).bind fun delivery =>
    within_rollback.bind fun _ => (within_validateDelivery _).bind fun _ => trivial))
      fun outcome => ?_
  refine within_rollback.bind fun _ => ?_
  split
  · exact (within_publish ⟨rfl, rfl, rfl⟩).bind fun _ => trivial
  · split
    · exact (within_publish ⟨rfl, rfl, rfl⟩).bind fun _ => trivial
    · trivial

/-- **A call notes only what is its own.** -/
theorem program_within (call : ServiceCall) :
    Within (call.Notes cfg s pid) (call.program cfg s pid) := by
  cases call with
  | submit house device user key on => exact within_submit house device user key on
  | get house id => exact (within_get (fun e hj hs => ⟨hj, hs⟩) _ _).bind fun _ => trivial
  | ack house device envelope retained =>
      refine (within_find _).bind fun found => ?_
      split
      · exact within_rollback
      · exact (within_process (fun e hj hs => ⟨hj, hs⟩) _).bind fun _ => trivial
  | state house device envelope retained =>
      refine (within_find _).bind fun found => ?_
      split
      · exact within_rollback
      · exact (within_process (fun e hj hs => ⟨hj, hs⟩) _).bind fun _ => trivial
  | updateState device patch correlationId => exact within_updateState device patch correlationId
  | initializeAuthority => exact within_initializeAuthority
  | prepare intent => exact within_prepare intent
  | sendControlCommand house device id => exact within_sendControlCommand house device id
  | controlRequest house device request => exact within_controlRequest house device request

end Calls

/-! ### Steps -/

section Steps

variable {N : Event → Prop} {cfg : Config} {registry : Registry}

/-- What an operation does to the log, the readings and the memory of the processes. -/
inductive Handled (st : Shared) (pid : Nat) (input : Input) : Op → Shared → Prop
  /-- It notes something, or nothing. -/
  | noted {op : Op} {st' : Shared} (es : List Event) (hes : ∀ N, op.Within N → ∀ e ∈ es, N e)
      (hlog : st'.log = st.log ++ es) (hreadings : st'.readings = st.readings)
      (hprocs : st'.procs = st.procs) : Handled st pid input op st'
  /-- It runs code of the process. -/
  | ran {f : Port → Port} {note : Port → List Event} {proc : Proc}
      (hproc : st.procs pid = some proc) :
      Handled st pid input (.atomic f note)
        ((st.remember pid ⟨input.sources, proc⟩ (f ⟨input.sources, proc⟩)).note
          (note ⟨input.sources, proc⟩))

theorem Shared.handle_cases {st st' : Shared} {s pid : Nat} {input : Input} {op : Op}
    {ans : op.Ans} (h : st.handle s pid input op = some (ans, st')) :
    Handled st pid input op st' := by
  have hlock : ∀ {ks : List Lock} {u : Shared}, st.lock s ks = some u →
      u.log = st.log ∧ u.readings = st.readings ∧ u.procs = st.procs := by
    intro ks u hu
    unfold Shared.lock at hu
    split at hu
    · obtain rfl := Option.some.inj hu
      exact ⟨rfl, rfl, rfl⟩
    · cases hu
  have hquiet : ∀ {u : Shared}, u.log = st.log ∧ u.readings = st.readings ∧ u.procs = st.procs →
      Handled st pid input op u := fun hu =>
    .noted [] (fun _ _ _ he => by cases he) (by rw [hu.1, List.append_nil]) hu.2.1 hu.2.2
  cases op with
  | registry locks note =>
      obtain ⟨u, hu, heq⟩ := Option.map_eq_some_iff.mp h
      obtain ⟨-, rfl⟩ := Prod.mk.inj heq
      obtain ⟨hlog, hreadings, hprocs⟩ := hlock hu
      exact .noted (note st.registry) (fun N hN => hN _) (congrArg (· ++ note st.registry) hlog)
        hreadings hprocs
  | query note =>
      obtain ⟨-, rfl⟩ := Prod.mk.inj (Option.some.inj h)
      exact .noted (note st.db) (fun N hN => hN _) rfl rfl rfl
  | find sel =>
      simp only [Shared.handle] at h
      split at h
      · obtain ⟨-, rfl⟩ := Prod.mk.inj (Option.some.inj h)
        exact hquiet ⟨rfl, rfl, rfl⟩
      · obtain ⟨u, hu, heq⟩ := Option.map_eq_some_iff.mp h
        obtain ⟨-, rfl⟩ := Prod.mk.inj heq
        exact hquiet (hlock hu)
  | lockControl id =>
      simp only [Shared.handle] at h
      split at h
      · obtain ⟨-, rfl⟩ := Prod.mk.inj (Option.some.inj h)
        exact hquiet ⟨rfl, rfl, rfl⟩
      · obtain ⟨u, hu, heq⟩ := Option.map_eq_some_iff.mp h
        obtain ⟨-, rfl⟩ := Prod.mk.inj heq
        exact hquiet (hlock hu)
  | atomic f note =>
      obtain ⟨proc, hproc, heq⟩ := Option.map_eq_some_iff.mp h
      obtain ⟨-, rfl⟩ := Prod.mk.inj heq
      exact .ran hproc
  | flush x =>
      obtain ⟨-, rfl⟩ := Prod.mk.inj (Option.some.inj h)
      exact hquiet ⟨rfl, rfl, rfl⟩
  | commit x note =>
      simp only [Shared.handle] at h
      split at h
      · obtain ⟨-, rfl⟩ := Prod.mk.inj (Option.some.inj h)
        exact .noted note (fun N hN => hN) rfl rfl rfl
      · obtain ⟨-, rfl⟩ := Prod.mk.inj (Option.some.inj h)
        exact hquiet ⟨rfl, rfl, rfl⟩
  | rollback =>
      obtain ⟨-, rfl⟩ := Prod.mk.inj (Option.some.inj h)
      exact hquiet ⟨rfl, rfl, rfl⟩
  | uuid =>
      simp only [Shared.handle] at h
      split at h
      · obtain ⟨-, rfl⟩ := Prod.mk.inj (Option.some.inj h)
        exact hquiet ⟨rfl, rfl, rfl⟩
      · cases h
  | publish x =>
      obtain ⟨-, rfl⟩ := Prod.mk.inj (Option.some.inj h)
      refine .noted [x] (fun N hN e he => ?_) rfl rfl rfl
      rw [List.mem_singleton.mp he]
      exact hN

/-- What an operation notes is of its kind. -/
theorem Handled.mem_log {st st' : Shared} {pid : Nat} {input : Input} {op : Op}
    (h : Handled st pid input op st') (hop : op.Within N) {e : Event} (he : e ∈ st'.log) :
    e ∈ st.log ∨ N e := by
  cases h with
  | noted es hes hlog hreadings hprocs =>
      rw [hlog] at he
      exact (List.mem_append.mp he).imp_right (hes N hop e)
  | ran hproc => exact (List.mem_append.mp he).imp_right ((hop _).2 e)

/-- What one step does to the log and the readings: nothing, or what an operation does. -/
theorem step_handled {w w' : World} {l : Label} (h : (coreSystem cfg).step w l = some w') :
    (w'.shared.log = w.shared.log ∧ w'.shared.readings = w.shared.readings) ∨
      ∃ s input pid op k, l = .exec s input ∧ w.sessions s = some (pid, .call op k) ∧
        Handled w.shared pid input op w'.shared := by
  cases l with
  | start p call =>
      simp only [coreSystem, Session.system, Session.step] at h
      split at h
      · obtain rfl := Option.some.inj h
        exact Or.inl ⟨rfl, rfl⟩
      · cases h
  | exec s input =>
      have h : Session.step core (fun s p call => ServiceCall.program cfg s p call) w
          (.exec s input) = some w' := h
      rcases exec_cases h with ⟨q, op, k, ans, sh, hm, hh, rfl⟩ | ⟨-, rfl⟩
      · exact Or.inr ⟨s, input, q, op, k, rfl, hm, Shared.handle_cases hh⟩
      · exact Or.inl ⟨rfl, rfl⟩
  | abort s =>
      simp only [coreSystem, Session.system, Session.step] at h
      split at h
      · obtain rfl := Option.some.inj h
        exact Or.inl ⟨rfl, rfl⟩
      · cases h
  | external x =>
      simp only [coreSystem, Session.system, Session.step, Option.map_eq_some_iff] at h
      obtain ⟨sh, ha, rfl⟩ := h
      have ha : w.shared.act x = some sh := ha
      exact Or.inl ⟨(act_frame ha).2.2.1, (act_frame ha).2.2.2⟩

/-- **One step** notes what its sessions may note. -/
theorem step_noted {w w' : World} {l : Label} (hw : Sessions (fun _ => Op.Within N) w)
    (h : (coreSystem cfg).step w l = some w') {e : Event} (he : e ∈ w'.shared.log) :
    e ∈ w.shared.log ∨ N e := by
  rcases step_handled h with ⟨hlog, -⟩ | ⟨s, input, pid, op, k, -, hm, hh⟩
  · exact Or.inl (hlog ▸ he)
  · exact hh.mem_log (hw s pid _ hm).1 he

/-- Sessions may note more than they do. -/
theorem sessions_mono {N' : Event → Prop} {w : World} (hN : ∀ e, N e → N' e)
    (h : Sessions (fun _ => Op.Within N) w) : Sessions (fun _ => Op.Within N') w :=
  fun s p m hm => (h s p m hm).mono fun _ => Op.Within.mono hN

/-- A call notes the event that a running process has started before. -/
def CalledFor (cfg : Config) (registry : Registry) (labels : List Label) (e : Event) : Prop :=
  ∃ before pid call rest, labels = before ++ .start pid call :: rest ∧
    ((after cfg registry before).shared.procs pid).isSome = true ∧
    call.Notes cfg (after cfg registry before).started pid e

theorem CalledFor.snoc {labels : List Label} {e : Event} (h : CalledFor cfg registry labels e) (l : Label) :
    CalledFor cfg registry (labels ++ [l]) e := by
  obtain ⟨before, pid, call, rest, rfl, h⟩ := h
  exact ⟨before, pid, call, rest ++ [l], by simp, h⟩

theorem called_for (cfg : Config) (registry : Registry) (labels : List Label) :
    Sessions (fun _ => Op.Within (CalledFor cfg registry labels)) (after cfg registry labels) ∧
      ∀ e ∈ (after cfg registry labels).shared.log, CalledFor cfg registry labels e := by
  induction labels using List.reverseRecOn with
  | nil => exact ⟨Sessions.init _, fun e he => by cases he⟩
  | append_singleton labels l ih =>
      obtain ⟨hsessions, hlog⟩ := ih
      have hmore := sessions_mono (fun e h => CalledFor.snoc h l) hsessions
      rw [after_snoc]
      rcases (coreSystem cfg).next_cases (after cfg registry labels) l with h | h
      · rw [h]
        exact ⟨hmore, fun e he => (hlog e he).snoc l⟩
      · refine ⟨hmore.step (fun p call hl => ?_) h, fun e he => ?_⟩
        · subst hl
          -- a disabled start leaves nothing behind, so the step is enabled
          have hadmits : ((after cfg registry labels).shared.procs p).isSome = true := by
            simp only [coreSystem, Session.system, Session.step] at h
            split at h
            · rename_i hadmits
              exact hadmits
            · cases h
          exact (program_within call).mono fun _ => Op.Within.mono fun e he =>
            ⟨labels, p, call, [], rfl, hadmits, he⟩
        · rcases step_noted hsessions h he with hold | hnew
          · exact (hlog e hold).snoc l
          · exact hnew.snoc l

end Steps

end KzHome

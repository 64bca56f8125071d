import KzHome.Lib.Outline
import KzHome.Services
import KzHome.Times

/-!
# KzHome.Contract

What any session of Core can do to the shared state, said once.

`Does` lists the effects an operation of a session can have, each with what the
program has established by then: which row it holds the lock of, what it read
there, what it checked. `Inv` holds between any two operations. `Relies` is what
a waiting session can count on: its locks and the rows under them, the columns
that never change, the log, and the constants of its own process.

The programs are shown to keep to `Does` in `KzHome.Outlines`; every theorem
about runs is proved from `Does` and never looks at a program again.
-/

namespace KzHome

open ControlAuthority (Grant Grantable)

/-! ### Agreement of rows with what they are found by -/

/-- A row is the submission's own: its key, its device and its value. -/
def Submission.Agrees (sub : Submission) (row : DeviceCommand) : Prop :=
  row.key = sub.key ∧ row.deviceId = sub.device ∧ row.requestedOn = sub.on

/-- The message of a job names the row in every column that is compared. -/
def Job.Routes (row : DeviceCommand) : Job → Prop
  | .ack house device envelope _ =>
    row.commandId = envelope.commandId ∧ row.correlationId = envelope.correlationId ∧
      row.houseId = house ∧ row.deviceId = device
  | .state house device envelope _ =>
    row.correlationId = envelope.correlationId ∧ row.houseId = house ∧ row.deviceId = device
  | _ => True

/-- A message carries the intent and the deadline of a row. -/
def SetFrame.Carries (f : SetFrame) (row : DeviceCommand) : Prop :=
  f = { house := row.houseId, device := row.deviceId, commandId := row.commandId
        correlationId := row.correlationId, timestamp := row.createdAt
        expiresAt := row.expiresAt, state := [("on", .bool row.requestedOn)] }

/-! ### What a session has established -/

/-- Session `s` holds the lock of the row, and this is the row. -/
structure Holds (s : Nat) (st : Shared) (row : DeviceCommand) : Prop where
  locked : st.locks (.command row.commandId) = some s
  row : st.db.command? row.commandId = some row

/-- The process of the session is alive, and its memory is a later one. -/
def Alive (pid : Nat) (st : Shared) (proc : Proc) : Prop :=
  ∃ now, st.procs pid = some now ∧ proc.Later now

/-- The gate of the process's authority has let the device through. -/
def GateOpen (pid : Nat) (st : Shared) (house device : String) : Prop :=
  ∃ proc r, Alive pid st proc ∧ proc.authority.gate r house device = .ok ()

/-- A job that session `s` of process `pid` has decided on a row it holds. -/
structure Judged (s pid : Nat) (st : Shared) (e : Processed) : Prop where
  holds : Holds s st e.row
  control : st.db.control? e.row.commandId = e.control
  routes : e.job.Routes e.row
  decided : ∃ port', (e.job.decide e.row e.control).run e.port = (.ok e.result, port') ∧
    Alive pid st port'.proc ∧
    ∃ before, before ++ consumed e.port.sources.nows port'.sources.nows <+: st.readings ∧
      (e.control = none → ∀ t ∈ e.row.evidenceTimes, t ∈ before)
  reached : ∀ record, e.control = some record →
    record.authorityEpoch = e.port.proc.authority.clock.epoch →
      ∀ t ∈ e.row.evidenceTimes, e.port.proc.authority.clock.Reached t

/-- The message is that of a row which session `s` committed and has not sent yet. -/
structure SetFrame.SentFor (f : SetFrame) (s : Nat) (id : String) (st : Shared) : Prop where
  called : ∃ sub row, .created s sub row ∈ st.log ∧ row.commandId = id ∧ .sendCall sub id ∈ st.log
  unsent : ∀ e ∈ st.log, e.sending ≠ some (.frame, id)
  carries : ∃ r ∈ st.db.commands, r.commandId = id ∧ f.Carries r

/-- A `set` message that session `s` may publish. -/
structure Dispatchable (cfg : Config) (s : Nat) (st : Shared) (d : Dispatch) : Prop where
  housed : .guarded d.housed ∈ st.log
  house : d.housed.houseId d.frame.device = .ok (some d.frame.house)
  unbound : .guarded d.unbound ∈ st.log
  noInventory : d.unbound.byDevice d.frame.device = none
  software : (d.frame.house, d.frame.device) ∈ cfg.softwareDevices
  lifetime : d.frame.expiresAt - d.frame.timestamp ≤ Services.commandLifetime
  started : d.frame.timestamp ≤ d.now
  early : d.now < d.frame.expiresAt
  reading : d.now ∈ st.readings
  row : ∀ id, d.row = some id → d.frame.SentFor s id st

/-- A control intent that process `pid` may commit: its columns were checked at
instant `now`, which was tick `tick`. -/
structure Preparable (cfg : Config) (pid : Nat) (st : Shared) (row : DeviceCommand)
    (record : ControlCommand) (window : Window) (now : Instant) (tick : Int) : Prop where
  intent : ∃ i : Services.Intent, row = i.row
  pending : row.status.pending = true
  unstaged : row.dispatchStartedAt = none
  created : row.createdAt ≤ now
  early : now < row.expiresAt
  lifetime : row.expiresAt - row.createdAt ≤ lifetimeUs
  process : ∃ proc anchor, Alive pid st proc ∧ proc.authority.clock.anchor = some anchor ∧
    now = proc.authority.clock.instantOf anchor tick ∧ tick ≤ proc.authority.clock.last ∧
    record = ControlAuthority.candidate cfg.sha proc.authority.clock.epoch row
  window : window = ControlAuthority.windowOf row record now tick
  gate : GateOpen pid st row.houseId row.deviceId

/-- What stands behind a grant of process `pid`, cached or fresh, while the row is
locked. -/
structure Granting (cfg : Config) (s pid : Nat) (st : Shared) (house device : String)
    (request : PermitRequest) (row : DeviceCommand) (record : ControlCommand) (window : Window) :
    Prop where
  holds : Holds s st row
  control : st.db.control? row.commandId = some record
  command : row.commandId = request.commandId
  inHouse : row.houseId = house
  ofDevice : row.deviceId = device
  epoch : ∃ proc, Alive pid st proc ∧ record.authorityEpoch = proc.authority.clock.epoch ∧
    request.coreEpoch = proc.authority.clock.epoch
  intent : request.intentSha256 = record.wireSha256
  pending : row.status.pending = true
  staged : row.dispatchStartedAt.isSome = true
  identity : window.identity = row.identity
  prepared : ∃ row₀ record₀, .prepared pid row₀ record₀ window ∈ st.log ∧
    row₀.commandId = row.commandId
  gate : GateOpen pid st house device

/-- A fresh grant: its delivery is computed from the sample, the window and the
request. -/
structure FreshGrant (cfg : Config) (pid : Nat) (st : Shared) (g : Grant) : Prop where
  unbound : g.record.permitBindingSha256 = none
  early : g.tick < g.window.deadline
  positive : 0 < g.remaining
  remaining : g.remaining = min permitUs (g.window.deadline - g.tick) - 1
  binding : g.binding = cfg.sha.hex (ControlAuthority.contextText g.house g.device g.request)
  sampled : ∃ proc anchor, Alive pid st proc ∧ proc.authority.clock.anchor = some anchor ∧
    g.now = proc.authority.clock.instantOf anchor g.tick ∧
    g.delivery = {
      payload := ControlAuthority.grantPayload g.request g.now g.row.expiresAt g.remaining
      commandId := g.row.commandId
      epoch := proc.authority.clock.epoch
      deadlineTick := g.window.deadline
      validUntilTick := g.tick + g.remaining
      grant := true }

/-- What the code of a process may note while it only reads clocks. -/
inductive Said (s : Nat) (st : Shared) : List Event → Prop
  | nothing : Said s st []
  | sendCall {sub : Submission} {row : DeviceCommand} (hc : .created s sub row ∈ st.log)
      (hs : ∀ e ∈ st.log, e.sending ≠ some (.call, row.commandId)) :
      Said s st [.sendCall sub row.commandId]
  | reply {sub : Submission} {row : DeviceCommand} (hr : row ∈ st.db.commands)
      (ha : sub.Agrees row) : Said s st [.reply sub row.commandId]

/-- A port of process `pid` as it is in the state. -/
def Shared.At (st : Shared) (pid : Nat) (p : Port) : Prop := st.procs pid = some p.proc

/-- A port with another authority. -/
def Port.withAuthority (p : Port) (a : ControlAuthority) : Port :=
  ⟨p.sources, { p.proc with authority := a }⟩

/-- The state after a commit of session `s`. -/
def Shared.committed (st : Shared) (s : Nat) (db : Ledger) (es : List Event) : Shared :=
  ({ st with db }.unlock s).note es

/-- **Everything an operation of session `s` of process `pid` can do.** -/
inductive Does (cfg : Config) (s pid : Nat) (a : Shared) : Shared → Prop
  | nothing : Does cfg s pid a a
  | locked {ks : List Lock} (h : RowLocks.available a.locks s ks) :
      Does cfg s pid a { a with locks := RowLocks.take a.locks s ks }
  | guarded {ks : List Lock} (h : RowLocks.available a.locks s ks) :
      Does cfg s pid a
        (Shared.note { a with locks := RowLocks.take a.locks s ks } [.guarded a.registry])
  | snapshot {proc : Proc} (hp : Alive pid a proc) :
      Does cfg s pid a
        (a.note [.snapshot pid (ControlAuthority.snapshotIds a.db proc.authority.clock.epoch)])
  | unlocked : Does cfg s pid a (a.unlock s)
  | ticked {p p' : Port} {es : List Event} (hp : a.At pid p) (ht : p.Ticks p')
      (hs : Said s a es) : Does cfg s pid a ((a.remember pid p p').note es)
  | fenced {p p' : Port} {ids : List String} (hp : a.At pid p) (hf : p.Fences ids p')
      (hs : .snapshot pid ids ∈ a.log) : Does cfg s pid a (a.remember pid p p')
  | forgot {p : Port} {ids : List String} (hp : a.At pid p) :
      Does cfg s pid a
        (a.remember pid p (p.withAuthority (ControlAuthority.popWindows ids p.proc.authority)))
  | windowed {p : Port} {row : DeviceCommand} {record : ControlCommand} {window : Window}
      (hp : a.At pid p) (hl : .prepared pid row record window ∈ a.log) :
      Does cfg s pid a
        (a.remember pid p (p.withAuthority { p.proc.authority with
          windows := p.proc.authority.windows.set row.commandId window }))
  | trimmed {p p' : Port} (hp : a.At pid p) (ht : p.Trims p') :
      Does cfg s pid a (a.remember pid p p')
  | cached {p p' : Port} {house device : String} {request : PermitRequest} {row : DeviceCommand}
      {record : ControlCommand} {window : Window} {delivery : ControlDelivery}
      (hp : a.At pid p) (ht : p.Trims p')
      (hg : Granting cfg s pid a house device request row record window)
      (hb : record.permitBindingSha256 =
        some (cfg.sha.hex (ControlAuthority.contextText house device request)))
      (hr : p.proc.authority.replies.get? row.commandId =
        some (cfg.sha.hex (ControlAuthority.contextText house device request), delivery)) :
      Does cfg s pid a ((a.remember pid p p').note
        [.granted ⟨s, pid, house, device, request, row, record, window, delivery⟩])
  | replied {p : Port} {g : Grant} (hp : a.At pid p) (hl : .bound s pid g ∈ a.log)
      (hn : ∀ e ∈ a.log, e.grants ≠ some (s, g.row.commandId)) :
      Does cfg s pid a
        ((a.remember pid p (p.withAuthority (ControlAuthority.storeReply g p.proc.authority))).note
          [.granted (g.permit s pid)])
  | processed {e : Processed} {db : Ledger} (hj : Judged s pid a e)
      (hs : ∀ sub, e.submission = some sub → ∃ r ∈ a.db.commands, sub.Agrees r)
      (hdb : a.db.apply { update := some e.result } = some db) :
      Does cfg s pid a (a.committed s db [.processed e])
  | created {sub : Submission} {id correlation : String} {now : Instant}
      {freed : Option Processed} {db : Ledger} (hid : id ≠ "" ∧ correlation ≠ "")
      (hf : ∀ e, freed = some e → Judged s pid a e ∧ e.job = .read ∧
        e.result.status.pending = false ∧ e.submission = some sub)
      (hdb : a.db.apply { update := freed.map (·.result)
                          insert := some (Services.newRow sub id correlation now) } = some db) :
      Does cfg s pid a (a.committed s db ((freed.map Event.processed).toList ++
        [.created s sub (Services.newRow sub id correlation now)]))
  | prepared {row : DeviceCommand} {record : ControlCommand} {window : Window} {now : Instant}
      {tick : Int} {db : Ledger} (hp : Preparable cfg pid a row record window now tick)
      (hdb : a.db.apply { insert := some row, control := some record } = some db) :
      Does cfg s pid a (a.committed s db [.prepared pid row record window])
  | staged {row : DeviceCommand} {now : Instant} {db : Ledger} (hh : Holds s a row)
      (hp : row.status.pending = true) (hn : row.dispatchStartedAt = none)
      (hg : GateOpen pid a row.houseId row.deviceId)
      (hdb : a.db.apply { update := some { row with dispatchStartedAt := some now } } = some db) :
      Does cfg s pid a
        (a.committed s db [.staged row { row with dispatchStartedAt := some now }])
  | bound {g : Grant} {db : Ledger}
      (hg : Granting cfg s pid a g.house g.device g.request g.row g.record g.window)
      (hf : FreshGrant cfg pid a g)
      (hdb : a.db.apply { bind := some (g.row.commandId, g.binding) } = some db) :
      Does cfg s pid a (a.committed s db [.bound s pid g])
  | dispatched {d : Dispatch} (hd : Dispatchable cfg s a d) :
      Does cfg s pid a (a.note [.dispatched d])
  | denied {house device : String} {request : PermitRequest} :
      Does cfg s pid a (a.note [.published .controlReply house device
        (Services.deniedPayload request)])
  | delivered {topic : TopicKind} {house device payload : String} (ht : topic ≠ .set)
      (hg : GateOpen pid a house device) :
      Does cfg s pid a (a.note [.published topic house device payload])

/-! ### The invariant -/

/-- A time of evidence about a command: a reading that was taken or, under control,
an instant its authority's clock has reached. -/
structure Timed (st : Shared) (id : String) (t : Instant) : Prop where
  direct : st.db.control? id = none → t ∈ st.readings
  ticked : ∀ record, st.db.control? id = some record → ∀ pid proc, st.procs pid = some proc →
    record.authorityEpoch = proc.authority.clock.epoch → proc.authority.clock.Reached t

/-- What holds of the shared state between any two operations. -/
structure Inv (st : Shared) : Prop where
  valid : st.db.Valid
  /-- A committed submission is in the ledger, with the columns it was committed with. -/
  created : ∀ s sub row, .created s sub row ∈ st.log →
    ∃ r ∈ st.db.commands, r.fixedColumns = row.fixedColumns
  /-- One session committed it. -/
  creators : ∀ s sub row s' sub' row', .created s sub row ∈ st.log →
    .created s' sub' row' ∈ st.log → row.commandId = row'.commandId → s = s'
  /-- Only committed submissions are sent. -/
  sent : ∀ e ∈ st.log, ∀ k id, e.sending = some (k, id) →
    ∃ s sub row, .created s sub row ∈ st.log ∧ row.commandId = id
  /-- A grant that was bound stays bound. -/
  bound : ∀ s pid g, .bound s pid g ∈ st.log → st.db.control? g.row.commandId =
    some { g.record with permitBindingSha256 := some g.binding }
  /-- Only bound grants are returned. -/
  granted : ∀ e ∈ st.log, ∀ s id, e.grants = some (s, id) → ∃ b, st.db.BoundTo id b
  epochs : ∀ pid proc, st.procs pid = some proc →
    proc.authority.clock.epoch ∈ st.epochs ∧ pid < st.booted
  /-- No two processes have an epoch in common. -/
  owners : ∀ pid proc pid' proc', st.procs pid = some proc → st.procs pid' = some proc' →
    proc.authority.clock.epoch = proc'.authority.clock.epoch → pid = pid'
  controlEpochs : ∀ record ∈ st.db.controls, record.authorityEpoch ∈ st.epochs
  /-- Windows are made by preparations. -/
  windows : ∀ pid proc id window, st.procs pid = some proc →
    proc.authority.windows.get? id = some window →
      ∃ row record, .prepared pid row record window ∈ st.log ∧ row.commandId = id
  timed : ∀ row ∈ st.db.commands, ∀ t ∈ row.evidenceTimes, Timed st row.commandId t

theorem Inv.boundTo {st : Shared} (hi : Inv st) {s pid : Nat} {g : Grant}
    (h : .bound s pid g ∈ st.log) : st.db.BoundTo g.row.commandId g.binding :=
  ⟨_, hi.bound s pid g h, rfl⟩

/-! ### What a session relies on -/

/-- What session `s` of process `pid` can count on while it waits. -/
structure Relies (s pid : Nat) (a b : Shared) : Prop where
  locks : ∀ k, a.locks k = some s → b.locks k = some s
  rows : ∀ row, Holds s a row → b.db.command? row.commandId = some row
  controls : ∀ row, Holds s a row → b.db.control? row.commandId = a.db.control? row.commandId
  fixed : ∀ r ∈ a.db.commands, ∃ r' ∈ b.db.commands, r'.fixedColumns = r.fixedColumns
  log : a.log ⊆ b.log
  sends : ∀ k sub row, .created s sub row ∈ a.log →
    (∀ e ∈ a.log, e.sending ≠ some (k, row.commandId)) →
      ∀ e ∈ b.log, e.sending ≠ some (k, row.commandId)
  grants : ∀ id, (∀ e ∈ a.log, e.grants ≠ some (s, id)) → ∀ e ∈ b.log, e.grants ≠ some (s, id)
  readings : a.readings <+: b.readings
  proc : ∀ proc, a.procs pid = some proc → ∃ proc', b.procs pid = some proc' ∧ proc.Later proc'

/-- The contract of Core. -/
def contract (cfg : Config) : Session.Contract Shared Nat where
  inv := Inv
  does := Does cfg
  relies := Relies

end KzHome

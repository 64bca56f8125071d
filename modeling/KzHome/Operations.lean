import KzHome.CommandService
import KzHome.Lib.RowLocks
import KzHome.Lib.Session
import KzHome.Topics

/-!
# KzHome.Operations

The operations a service call is made of, and what each does to the state that
all Core processes share: the database with its row locks, the memory of every
process, and the broker.

An operation is one database statement, one commit, one stretch of code of the
process between two of them, or one publication; sessions interleave between any
two operations. The `log` records what happened, in order, and is read by no
program; an event names everything the corresponding statement of a theorem
needs. `readings` is the other ghost: the values that `CommandService.now` has
returned so far.
-/

namespace KzHome

/-! ### Messages -/

/-- A `set` message: its topic and the members of its `CommandEnvelope`. -/
structure SetFrame where
  house : String
  device : String
  commandId : String
  correlationId : String
  timestamp : Instant
  expiresAt : Instant
  state : List (String × Json)

/-- A submission of a command: its route, its user, its key as the ledger stores
it, and the value. -/
structure Submission where
  house : String
  device : String
  user : String
  hash : String
  on : Bool
  deriving DecidableEq, Repr

/-- The columns of `uq_command_idempotency` that a submission looks up. -/
def Submission.key (sub : Submission) : String × String × String := (sub.house, sub.user, sub.hash)

/-! ### Events -/

/-- A job that was committed: the row and the control record it was decided on,
the memory and readings it was decided with, the row that was written, and the
submission it was done for, if any. -/
structure Processed where
  job : Job
  row : DeviceCommand
  control : Option ControlCommand
  port : Port
  result : DeviceCommand
  submission : Option Submission

/-- A `set` message that was published: the ledger row it was sent for, if any,
the clock reading it was checked at, and the two registry snapshots its guard
read. -/
structure Dispatch where
  row : Option String
  frame : SetFrame
  now : Instant
  housed : Registry
  unbound : Registry

/-- A grant that `request` returned: the session and process that did, what was asked,
and the row, the record and the window it was granted on. -/
structure Permit where
  session : Nat
  pid : Nat
  house : String
  device : String
  request : PermitRequest
  row : DeviceCommand
  record : ControlCommand
  window : Window
  delivery : ControlDelivery

/-- A fresh grant, as a session of a process returns it. -/
def ControlAuthority.Grant.permit (g : ControlAuthority.Grant) (session pid : Nat) : Permit where
  session
  pid
  house := g.house
  device := g.device
  request := g.request
  row := g.row
  record := g.record
  window := g.window
  delivery := g.delivery

/-- What happened. -/
inductive Event
  /-- A guard read the registry. -/
  | guarded (r : Registry)
  | processed (p : Processed)
  /-- A submission was committed by a session. -/
  | created (session : Nat) (submission : Submission) (row : DeviceCommand)
  /-- `transport.send_command` was called for a row. -/
  | sendCall (submission : Submission) (commandId : String)
  /-- A submission got a successful reply. -/
  | reply (submission : Submission) (commandId : String)
  /-- A `set` message was published. -/
  | dispatched (d : Dispatch)
  /-- A control intent was committed by a process. -/
  | prepared (pid : Nat) (row : DeviceCommand) (record : ControlCommand) (window : Window)
  /-- A control candidate was staged. -/
  | staged (row result : DeviceCommand)
  /-- `initialize` read the ledger. -/
  | snapshot (pid : Nat) (ids : List String)
  /-- A grant was bound by a session. -/
  | bound (session pid : Nat) (grant : ControlAuthority.Grant)
  /-- `request` returned a grant. -/
  | granted (permit : Permit)
  /-- A control message was published. -/
  | published (topic : TopicKind) (house device payload : String)

/-- The two moments of sending the command of a row. -/
inductive Sending
  /-- `transport.send_command` is called. -/
  | call
  /-- The message is published. -/
  | frame
  deriving DecidableEq, Repr

/-- The row whose command an event sends. -/
def Event.sending : Event → Option (Sending × String)
  | .sendCall _ id => some (.call, id)
  | .dispatched d => d.row.map fun id => (.frame, id)
  | _ => none

/-- The session and the command that an event returns a grant for. -/
def Event.grants : Event → Option (Nat × String)
  | .granted permit => some (permit.session, permit.row.commandId)
  | _ => none

/-- An event that neither sends a command nor returns a grant. -/
def Event.Quiet (e : Event) : Prop := e.sending = none ∧ e.grants = none

/-! ### The shared state -/

/-- The rows that are locked. -/
inductive Lock
  | physical (device : String)
  | device (device : String)
  | command (id : String)
  | control (id : String)
  deriving DecidableEq, Repr

/-- What all Core processes share, and the ghosts `log`, `readings` and `epochs`. -/
structure Shared where
  db : Ledger
  registry : Registry
  locks : RowLocks.Locks Lock Nat
  procs : Nat → Option Proc
  /-- How many processes were started. -/
  booted : Nat
  log : List Event
  readings : List Instant
  /-- The epochs `uuid4` has returned. -/
  epochs : List String

/-- A `WHERE` clause of `CommandRepository`. -/
inductive Selector
  | key (house user hash : String)
  | byId (commandId : String)
  | inHouse (house commandId : String)
  | routed (house device commandId : String)
  | acked (house device commandId correlationId : String)
  | reported (house device correlationId : String)
  | pending (device : String)

/-- The clause on a row. -/
def Selector.matches : Selector → DeviceCommand → Bool
  | .key house user hash, row =>
    row.houseId = house && row.requestedBy = user && row.idempotencyHash = hash
  | .byId id, row => row.commandId = id
  | .inHouse house id, row => row.houseId = house && row.commandId = id
  | .routed house device id, row =>
    row.commandId = id && row.houseId = house && row.deviceId = device
  | .acked house device id correlation, row =>
    row.commandId = id && row.correlationId = correlation && row.houseId = house &&
      row.deviceId = device
  | .reported house device correlation, row =>
    row.correlationId = correlation && row.houseId = house && row.deviceId = device
  | .pending device, row => row.deviceId = device && row.status.pending

/-- Why a transaction was refused. -/
inductive Refusal
  /-- A constraint failed (`IntegrityError`). -/
  | integrity
  /-- A conditional update changed no row. -/
  | missed
  deriving DecidableEq, Repr

/-- One operation. -/
inductive Op
  /-- A statement on the other tables, with the row locks it takes. -/
  | registry (locks : Registry → List Lock) (note : Registry → List Event)
  /-- A statement on the two ledger tables without locks. -/
  | query (note : Ledger → List Event)
  /-- `CommandRepository.find` and `pending` -/
  | find (sel : Selector)
  /-- `select(ControlCommandORM)… .with_for_update()` -/
  | lockControl (id : String)
  /-- A stretch of code of the process. -/
  | atomic (f : Port → Port) (note : Port → List Event)
  /-- `session.flush()`: does the database accept the write? -/
  | flush (w : Ledger.Write)
  /-- `session.commit()` -/
  | commit (w : Ledger.Write) (note : List Event)
  /-- The end of the session's transaction without a commit. -/
  | rollback
  /-- `str(uuid4())` -/
  | uuid
  /-- `client.publish(…)` -/
  | publish (e : Event)

/-- What each operation is answered with. -/
def Op.Ans : Op → Type
  | .registry _ _ => Registry
  | .query _ => Ledger
  | .find _ => Option DeviceCommand
  | .lockControl _ => Option ControlCommand
  | .atomic _ _ => Port
  | .flush _ => Bool
  | .commit _ _ => Option Refusal
  | .rollback => Unit
  | .uuid => String
  | .publish _ => Bool

/-- The operations as an interface. -/
def sql : Session.Interface := ⟨Op, Op.Ans⟩

/-- What an operation gets from outside: readings of the time sources, a random
identifier of 36 characters, and whether a publication went through. -/
structure Input where
  sources : Sources
  uuid : String
  sent : Bool

/-- The readings taken between two states of a source. -/
def consumed (before after : List Instant) : List Instant :=
  before.take (before.length - after.length)

namespace Shared

/-- Take locks, or wait. -/
def lock (st : Shared) (s : Nat) (ks : List Lock) : Option Shared :=
  if RowLocks.available st.locks s ks then some { st with locks := RowLocks.take st.locks s ks }
  else none

/-- End the transactions of some sessions. -/
def close (st : Shared) (ended : Nat → Bool) : Shared :=
  { st with locks := RowLocks.release st.locks ended }

/-- End the transaction of one session. -/
def unlock (st : Shared) (s : Nat) : Shared := st.close fun t => t = s

/-- Append to the log. -/
def note (st : Shared) (es : List Event) : Shared := { st with log := st.log ++ es }

/-- The memory of a process after code that started with `port`. -/
def remember (st : Shared) (pid : Nat) (port port' : Port) : Shared :=
  { st with
    procs := Function.update st.procs pid (some port'.proc)
    readings := st.readings ++ consumed port.sources.nows port'.sources.nows }

/-- What an operation of session `s` of process `pid` does. -/
def handle (st : Shared) (s pid : Nat) (inp : Input) : (op : Op) → Option (op.Ans × Shared)
  | .registry locks note =>
    (st.lock s (locks st.registry)).map fun st' => (st.registry, st'.note (note st.registry))
  | .query note => some (st.db, st.note (note st.db))
  | .find sel =>
    match st.db.commands.find? sel.matches with
    | none => some ((none : Option DeviceCommand), st)
    | some row => (st.lock s [.command row.commandId]).map fun st' => (some row, st')
  | .lockControl id =>
    match st.db.control? id with
    | none => some ((none : Option ControlCommand), st)
    | some record => (st.lock s [.control id]).map fun st' => (some record, st')
  | .atomic f note =>
    (st.procs pid).map fun proc =>
      let port : Port := ⟨inp.sources, proc⟩
      (port, (st.remember pid port (f port)).note (note port))
  | .flush w => some ((st.db.apply w).isSome, st)
  | .commit w note =>
    match st.db.apply w with
    | some db => some ((none : Option Refusal), ({ st with db }.unlock s).note note)
    | none =>
      some (some (if (st.db.controlsAfter w).isSome then .integrity else .missed), st.unlock s)
  | .rollback => some ((), st.unlock s)
  | .uuid => if inp.uuid.length = 36 then some (inp.uuid, st) else none
  | .publish e => some (inp.sent, st.note [e])

end Shared

/-! ### External actions -/

/-- The arguments a process is started with. -/
structure Boot where
  epoch : String
  initialTick : Option Int
  anchor : Option Instant
  qualified : Bool
  rateErrorPpm : Int
  recoveryErrorUs : Int
  gate : Registry → String → String → Except Error Unit

/-- What happens outside the sessions. -/
inductive Action
  /-- A Core process starts. -/
  | boot (b : Boot)
  /-- A Core process stops; its memory and its sessions are lost. -/
  | crash (pid : Nat)
  /-- The broker connection of a process changes. -/
  | link (pid : Nat) (connected controlSubscribed : Bool)
  /-- A cached reply is lost. -/
  | evict (pid : Nat) (commandId : String)
  /-- Another transaction changes the other tables. -/
  | registry (r : Registry)

/-- What an external action does. `uuid4` never returns an epoch twice. -/
def Shared.act (st : Shared) : Action → Option Shared
  | .boot b =>
    if b.epoch ∈ st.epochs then none
    else
      match ControlClock.create b.epoch b.initialTick b.anchor b.qualified b.rateErrorPpm
        b.recoveryErrorUs with
      | .error _ => none
      | .ok clock => some { st with
          procs := Function.update st.procs st.booted
            (some ⟨ControlAuthority.create clock b.gate, false, false⟩)
          booted := st.booted + 1
          epochs := b.epoch :: st.epochs }
  | .crash pid => some { st with procs := Function.update st.procs pid none }
  | .link pid connected controlSubscribed =>
    (st.procs pid).map fun proc => { st with
      procs := Function.update st.procs pid (some ⟨proc.authority, connected, controlSubscribed⟩) }
  | .evict pid id =>
    (st.procs pid).map fun proc => { st with
      procs := Function.update st.procs pid
        (some { proc with
          authority := { proc.authority with replies := proc.authority.replies.pop id } }) }
  | .registry r => some { st with registry := r }

/-- The Core processes and their database as a machine for sessions. -/
def core : Session.Machine sql Shared Nat Input Action where
  handle := Shared.handle
  close := Shared.close
  admits st pid := (st.procs pid).isSome
  act := Shared.act
  kills
    | .crash pid, p => p = pid
    | _, _ => false

/-- The state before anything was submitted. -/
def Shared.empty (registry : Registry) : Shared where
  db := ⟨[], []⟩
  registry
  locks := fun _ => none
  procs := fun _ => none
  booted := 0
  log := []
  readings := []
  epochs := []

end KzHome

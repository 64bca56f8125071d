import KzHome.ControlClock
import KzHome.JsonText
import KzHome.Ledger
import KzHome.Lib.Dict
import KzHome.Registry

/-!
# KzHome.ControlAuthority

`ControlAuthority`: what one process remembers about the control commands it
prepared, and the decisions it takes between two database statements.

A `Window` is the only source of a command's deadline in ticks, and a cached
reply the only way to repeat a grant; both live in memory and die with the
process. The methods that also talk to the database are put together from these
decisions in `KzHome.Services`.
-/

namespace KzHome

/-- `sha256(value.encode()).hexdigest()`, with the one property that is used of
it: no two texts have the same digest. -/
structure Sha256 where
  hex : String → String
  injective : ∀ s t, hex s = hex t → s = t

/-- `PermitRequest`, without the members that are literals. -/
structure PermitRequest where
  coreEpoch : String
  commandId : String
  bootId : String
  sessionId : String
  nonce : String
  intentSha256 : String
  deriving DecidableEq, Repr

/-- `request.model_dump()` with the value of `type` replaced. -/
def PermitRequest.dump (request : PermitRequest) (type : String) :
    List (String × JsonText.Field) :=
  [("control_version", .number 1), ("type", .text type),
   ("execution_profile", .text controlProfile), ("core_epoch", .text request.coreEpoch),
   ("command_id", .text request.commandId), ("boot_id", .text request.bootId),
   ("session_id", .text request.sessionId), ("nonce", .text request.nonce),
   ("intent_sha256", .text request.intentSha256)]

/-- `ControlDelivery` -/
structure ControlDelivery where
  payload : String
  commandId : String
  epoch : String
  deadlineTick : Int
  validUntilTick : Int
  grant : Bool
  deriving DecidableEq, Repr

/-- `ControlAuthority.identity`: the columns a window remembers of its row. -/
structure Identity where
  commandId : String
  houseId : String
  deviceId : String
  correlationId : String
  createdAt : Instant
  expiresAt : Instant
  requestedOn : Bool
  deriving DecidableEq, Repr

/-- `ControlAuthority.identity(row)` -/
def DeviceCommand.identity (row : DeviceCommand) : Identity :=
  ⟨row.commandId, row.houseId, row.deviceId, row.correlationId, row.createdAt, row.expiresAt,
    row.requestedOn⟩

/-- `Window` -/
structure Window where
  deadline : Int
  identity : Identity
  wireSha256 : String
  deriving DecidableEq, Repr

/-- The attributes of a `ControlAuthority`. -/
structure ControlAuthority where
  clock : ControlClock
  gate : Registry → String → String → Except Error Unit
  windows : Dict String Window
  replies : Dict String (String × ControlDelivery)
  rates : Dict (String × String) Int
  globalSecond : Int
  globalCount : Nat
  recoveryInitialized : Bool
  recoveryIds : List String

/-- What a Core process keeps in memory: its authority and the flags of its
gateway. -/
structure Proc where
  authority : ControlAuthority
  connected : Bool
  controlSubscribed : Bool

/-- A process's memory together with its time sources. -/
structure Port where
  sources : Sources
  proc : Proc

namespace Port

/-- The clock of the process's authority, with the sources. -/
def timing (p : Port) : Timing := ⟨p.sources, p.proc.authority.clock⟩

/-- Write clock and sources back. -/
def withTiming (p : Port) (t : Timing) : Port :=
  ⟨t.sources, { p.proc with authority := { p.proc.authority with clock := t.clock } }⟩

@[simp] theorem timing_withTiming (p : Port) (t : Timing) : (p.withTiming t).timing = t := rfl

end Port

namespace ControlAuthority

/-- `MAX_WINDOWS` -/
def maxWindows : Nat := 4096

/-- `MAX_REPLIES` -/
def maxReplies : Nat := 1024

/-- `closed_gate` -/
def closedGate : Registry → String → String → Except Error Unit := fun _ _ _ =>
  .error (.conflict "Physical control remains closed pending joint acceptance")

/-- `ControlAuthority.__init__` -/
def create (clock : ControlClock) (gate : Registry → String → String → Except Error Unit) :
    ControlAuthority where
  clock
  gate
  windows := .empty
  replies := .empty
  rates := .empty
  globalSecond := -1
  globalCount := 0
  recoveryInitialized := false
  recoveryIds := []

/-- A call on the clock of the authority. -/
def clocked {α : Type} (c : Call Timing Error α) : Call Port Error α :=
  Call.zoom Port.timing Port.withTiming c

/-- Change the authority of the process. -/
def modify (f : ControlAuthority → ControlAuthority) : Call Port Error Unit :=
  .update fun p => { p with proc := { p.proc with authority := f p.proc.authority } }

/-- Read the authority of the process. -/
def authority : Call Port Error ControlAuthority := do
  let p ← Call.self
  return p.proc.authority

/-! ### Deadlines -/

/-- `ControlAuthority.expired` -/
def expired (record : ControlCommand) : Call Port Error Bool := do
  let a ← authority
  if record.authorityEpoch ≠ a.clock.epoch then
    if !a.recoveryInitialized || !a.recoveryIds.contains record.commandId then
      .raise (.unavailable "Foreign control epoch has no recovery evidence")
    else
      let recovered ← clocked ControlClock.recovered
      if !recovered then .raise (.unavailable "Old control epoch is inside recovery fence")
      else return true
  else
    match a.windows.get? record.commandId with
    | none => .raise (.unavailable "Original control timing cannot be recovered")
    | some window =>
      let tick ← clocked ControlClock.tick
      return window.deadline ≤ tick

/-- `ControlAuthority.validate_delivery` -/
def validateDelivery (delivery : ControlDelivery) : Call Port Error Unit := do
  let (_, tick) ← clocked ControlClock.sample
  let a ← authority
  if delivery.epoch ≠ a.clock.epoch ∨ min delivery.validUntilTick delivery.deadlineTick ≤ tick then
    .raise (.conflict "Control delivery expired")
  else return ()

/-! ### `initialize` -/

/-- The command ids of the snapshot: pending rows of other epochs, at most
`MAX_WINDOWS + 1` of them. -/
def snapshotIds (ledger : Ledger) (epoch : String) : List String :=
  ((ledger.controls.filter fun record =>
      ledger.commands.any (fun row => row.commandId = record.commandId && row.status.pending) &&
        decide (record.authorityEpoch ≠ epoch)).map (·.commandId)).take (maxWindows + 1)

/-- The second half of `initialize`: start the fence. -/
def startFence (identifiers : List String) : Call Port Error Int := do
  if maxWindows < identifiers.length then
    .raise (.unavailable "Control recovery capacity reached")
  else
    let value ← clocked ControlClock.readTick
    let a ← authority
    match value with
    | none =>
      modify fun a => { a with clock := { a.clock with timerFault := true } }
      .raise (.unavailable "Control recovery timing is unavailable")
    | some tick =>
      if a.clock.timerFault ∨ tick < a.clock.last then
        modify fun a => { a with clock := { a.clock with timerFault := true } }
        .raise (.unavailable "Control recovery timing is unavailable")
      else
        modify fun a => { a with
          clock := { a.clock with last := tick, fenceStart := tick }
          recoveryIds := identifiers
          recoveryInitialized := true }
        return tick

/-! ### `prepare` -/

/-- The sample at the beginning of `prepare`. -/
def prepareSample : Call Port Error (Instant × Int) := do
  let a ← authority
  if !a.recoveryInitialized then
    .raise (.unavailable "Control recovery snapshot is unavailable")
  else clocked ControlClock.sample

/-- The checks of `prepare` on the new row that come before and after the
duplicate check: `found` is whether the ledger has its command id already. -/
def prepareCheck (row : DeviceCommand) (found : Bool) (now : Instant) : Except Error Unit :=
  if !row.status.pending || found || row.dispatchStartedAt.isSome then
    .error (.conflict "Only a new control intent can be prepared")
  else
    let lifetime := row.expiresAt - row.createdAt
    if ¬ (row.createdAt ≤ now ∧ now < row.expiresAt) ∨ ¬ (0 < lifetime ∧ lifetime ≤ lifetimeUs) then
      .error (.conflict "Control candidate deadline is invalid")
    else .ok ()

/-- The exact bytes of a control candidate. -/
def wirePayload (epoch : String) (row : DeviceCommand) : String :=
  JsonText.dumps
    [("protocol_version", .text "v1"), ("execution_profile", .text controlProfile),
     ("core_epoch", .text epoch), ("command_id", .text row.commandId),
     ("correlation_id", .text row.correlationId),
     ("timestamp", .text (JsonText.isoformat row.createdAt)),
     ("expires_at", .text (JsonText.isoformat row.expiresAt)), ("state", .switch row.requestedOn)]

/-- The private control record of a new row. -/
def candidate (sha : Sha256) (epoch : String) (row : DeviceCommand) : ControlCommand where
  commandId := row.commandId
  executionProfile := controlProfile
  authorityEpoch := epoch
  wirePayload := wirePayload epoch row
  wireSha256 := sha.hex (wirePayload epoch row)
  permitBindingSha256 := none

/-- The window of a new row: the deadline in ticks of the intent that was sampled
at instant `now` and tick `tick`. -/
def windowOf (row : DeviceCommand) (record : ControlCommand) (now : Instant) (tick : Int) :
    Window where
  deadline := tick + (row.expiresAt - now)
  identity := row.identity
  wireSha256 := record.wireSha256

/-- Forget the windows of the given commands. -/
def popWindows (ids : List String) (a : ControlAuthority) : ControlAuthority :=
  { a with windows := ids.foldl (fun windows id => windows.pop id) a.windows }

/-- The terminal rows among the windows. -/
def terminalIds (ledger : Ledger) (a : ControlAuthority) : List String :=
  (ledger.commands.filter fun row =>
    (a.windows.get? row.commandId).isSome && !row.status.pending).map (·.commandId)

/-! ### `stage` -/

/-- The decision of `stage`: the staged row and the delivery. -/
def stageDecide (sha : Sha256) (id : String) (row : Option DeviceCommand)
    (record : Option ControlCommand) (now : Instant) (tick : Int) :
    Call Port Error (DeviceCommand × ControlDelivery) := do
  let a ← authority
  match row, record, a.windows.get? id with
  | some row, some record, some window =>
    if record.authorityEpoch ≠ a.clock.epoch ∨ row.status.pending = false
        ∨ row.dispatchStartedAt.isSome ∨ window.identity ≠ row.identity
        ∨ record.wireSha256 ≠ window.wireSha256
        ∨ sha.hex record.wirePayload ≠ window.wireSha256 ∨ window.deadline ≤ tick then
      .raise (.conflict "Control candidate cannot be staged or replayed")
    else
      return ({ row with dispatchStartedAt := some now },
        { payload := record.wirePayload
          commandId := id
          epoch := a.clock.epoch
          deadlineTick := window.deadline
          validUntilTick := window.deadline
          grant := false })
  | _, _, _ => .raise (.conflict "Control candidate cannot be staged or replayed")

/-! ### `request` -/

/-- The text that is hashed into a permit binding. -/
def contextText (house device : String) (request : PermitRequest) : String :=
  JsonText.dumpsList
    [house, device, request.coreEpoch, request.bootId, request.sessionId, request.nonce]

/-- `_limit` -/
def limit (house device : String) (tick : Int) : Call Port Error Unit := do
  modify fun a => { a with rates := a.rates.filter fun _ value => tick - value < 1000000 }
  let second := tick / 1000000
  modify fun a =>
    if second ≠ a.globalSecond then { a with globalSecond := second, globalCount := 0 } else a
  let a ← authority
  if (a.rates.get? (house, device)).isSome ∨ 4096 ≤ a.rates.size ∨ 100 ≤ a.globalCount then
    .raise (.unavailable "Control request rate exceeded")
  else
    modify fun a => { a with
      rates := a.rates.set (house, device) tick
      globalCount := a.globalCount + 1 }

/-- A fresh grant: everything its decision was taken on. -/
structure Grant where
  house : String
  device : String
  request : PermitRequest
  row : DeviceCommand
  record : ControlCommand
  window : Window
  now : Instant
  tick : Int
  remaining : Int
  binding : String
  delivery : ControlDelivery
  deriving DecidableEq, Repr

/-- The bytes of a grant. -/
def grantPayload (request : PermitRequest) (now expires : Instant) (remaining : Int) : String :=
  JsonText.dumps (request.dump "permit_grant" ++
    [("core_time", .text (JsonText.isoformat now)),
     ("expires_at", .text (JsonText.isoformat expires)), ("remaining_us", .number remaining)])

/-- What a request that was let through amounts to. -/
inductive Decision
  /-- The cached reply of the same context. -/
  | cached (row : DeviceCommand) (record : ControlCommand) (delivery : ControlDelivery)
  /-- A new grant, to be bound before it is returned. -/
  | fresh (grant : Grant)

/-- The decision of `request` on the rows it locked. -/
def requestDecide (sha : Sha256) (house device : String) (request : PermitRequest)
    (row : Option DeviceCommand) (record : Option ControlCommand) (now : Instant) (tick : Int) :
    Call Port Error Decision := do
  let a ← authority
  match row, record, a.windows.get? request.commandId with
  | some row, some record, some window =>
    if record.executionProfile ≠ controlProfile ∨ request.coreEpoch ≠ a.clock.epoch
        ∨ record.authorityEpoch ≠ a.clock.epoch ∨ request.intentSha256 ≠ record.wireSha256
        ∨ record.wireSha256 ≠ window.wireSha256
        ∨ sha.hex record.wirePayload ≠ record.wireSha256 ∨ row.status.pending = false
        ∨ row.dispatchStartedAt = none ∨ window.identity ≠ row.identity then
      .raise (.conflict "Control request does not match a current candidate")
    else if window.deadline ≤ tick then
      .raise (.conflict "Control request expired")
    else
      let binding := sha.hex (contextText house device request)
      match record.permitBindingSha256 with
      | some bound =>
        match a.replies.get? row.commandId with
        | some (context, delivery) =>
          if bound = binding ∧ context = binding ∧ tick < delivery.validUntilTick then
            return .cached row record delivery
          else .raise (.conflict "A permit attempt was already consumed")
        | none => .raise (.conflict "A permit attempt was already consumed")
      | none =>
        limit house device tick
        modify fun a => { a with
          replies := a.replies.filter fun _ value => decide (tick < value.2.validUntilTick) }
        let a ← authority
        if maxReplies ≤ a.replies.size then
          .raise (.unavailable "Control reply capacity reached")
        else
          let remaining := min permitUs (window.deadline - tick) - 1  -- Round/sample guard.
          if remaining ≤ 0 then .raise (.conflict "Control request expired")
          else
            return .fresh {
              house, device, request, row, record, window, now, tick, remaining, binding
              delivery := {
                payload := grantPayload request now row.expiresAt remaining
                commandId := row.commandId
                epoch := a.clock.epoch
                deadlineTick := window.deadline
                validUntilTick := tick + remaining
                grant := true } }
  | _, _, _ => .raise (.conflict "Control request does not match a current candidate")

/-- Remember the reply of a grant that has been bound. -/
def storeReply (grant : Grant) (a : ControlAuthority) : ControlAuthority :=
  { a with replies := a.replies.set grant.row.commandId (grant.binding, grant.delivery) }

end ControlAuthority

end KzHome

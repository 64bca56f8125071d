import KzHome.ProvisioningState
import KzHome.Structure

/-!
# KzHome.Provisioning

`ProvisioningService`: creating, reading and cancelling provisioning attempts, and the
manual claims of the same inventory.

Each request is a program of statements. What it does after it has looked at the clock is
a pure decision on the rows that it has locked: a `Decision` is what the transaction
commits and what is answered when it has. A request notes its answer, with the time it
has observed: on its commit, or where it is refused. One that is barred has not come to
the attempts.
-/

namespace KzHome

open Session Sql

/-- The body of `create`. -/
structure ProvisioningStart where
  hardwareId : String
  claimCode : String
  roomId : String
  name : String
  deriving DecidableEq, Repr

/-- The requests; `key` is the idempotency key. -/
inductive ProvisioningRequest
  | create (house : String) (data : ProvisioningStart) (key : String)
  | get (house session : String)
  | cancel (house session : String) (revision : Nat) (key : String)
  /-- The manual claim. -/
  | claim (house : String) (data : ProvisioningStart)
  deriving DecidableEq, Repr

/-- `house_id` of the route. -/
def ProvisioningRequest.house : ProvisioningRequest → String
  | .create house _ _ | .get house _ | .cancel house _ _ _ | .claim house _ => house

/-- What is noted: that the route or `_authorize` has refused a request, the answer to it,
with the time that it has observed, or that a commit has failed, with the identifier of its
new row. -/
inductive ProvisioningNote
  | barred (request : ProvisioningRequest) (e : RouteError)
  | answered (request : ProvisioningRequest) (now : Option Instant)
      (reply : Except RouteError PublicStatus)
  | failed (request : ProvisioningRequest) (id : Option String)

/-- The status of a row as the state machine has it. -/
def AttemptStatus.status : AttemptStatus → ProvisioningStatus
  | .discovered => .discovered
  | .cancelled => .cancelled
  | .expired => .expired

/-- The statuses that `ck_provisioning_status` admits. -/
def AttemptStatus.of : ProvisioningStatus → Option AttemptStatus
  | .discovered => some .discovered
  | .cancelled => some .cancelled
  | .expired => some .expired
  | _ => none

/-- A row after its `UPDATE`. -/
def AttemptRow.settled (row : AttemptRow) (target : AttemptStatus)
    (cancellation : Option Cancellation) : AttemptRow :=
  { row with
    status := target
    revision := row.revision + 1
    cancelKeyHash := (cancellation.map (·.keyHash)).or row.cancelKeyHash
    cancelActorId := (cancellation.map (·.actorId)).or row.cancelActorId
    cancelRevision := (cancellation.map (·.revision)).or row.cancelRevision }

namespace Provisioning

/-- `TTL` -/
def ttl : Int := 5 * 60 * second

/-- A transaction that is about to commit, and the answer after it. -/
structure Decision where
  reply : Except RouteError PublicStatus
  writes : List Statement

/-- A `ValueError` that nobody catches. -/
def faulted {α : Type} : Except ProvisioningFault α → Except RouteError α
  | .ok a => .ok a
  | .error (.conflict message) | .error (.expired message) | .error (.value message) =>
    .error (.service (.other message))

/-- `_state` -/
def state (id : String) (row : AttemptRow) : Except RouteError ProvisioningState :=
  faulted (ProvisioningState.postInit
    { sessionId := id
      houseId := row.houseId
      deviceId := row.deviceId
      roomId := row.roomId
      createdAt := row.createdAt
      expiresAt := row.expiresAt
      challengeHash := row.challengeHash
      status := row.status.status
      revision := row.revision })

/-- `self._state(row).public_status()` -/
def publicStatus (id : String) (row : AttemptRow) : Except RouteError PublicStatus := do
  let state ← state id row
  faulted state.publicStatus

variable (sha : Sha256)

/-- `_apply`: the row after it, and the statement. -/
def apply (id : String) (row : AttemptRow) (event : ProvisioningEvent) (now : Instant)
    (cancellation : Option Cancellation) : Except RouteError (AttemptRow × Statement) := do
  let state ← state id row
  let new ← faulted (state.transition sha (some event) (some row.revision) (some now))
  let status ← found (.conflict "Provisioning operation conflicts with existing data")
    (AttemptStatus.of new.status)
  return (row.settled status cancellation,
    .settle id row.revision row.status status cancellation)

/-- `_expire` -/
def expire (id : String) (row : AttemptRow) (now : Instant) :
    Except RouteError (AttemptRow × List Statement) := do
  if row.status = .discovered ∧ row.expiresAt ≤ now then
    let applied ← apply sha id row .expire now none
    return (applied.1, [applied.2])
  else return (row, [])

/-! ### Decisions -/

/-- `claim_digest` -/
def claimDigest (code : String) : Except Error String :=
  if tokenFormat code then .ok (sha.hex code)
  else .error (.invalidReference "Invalid claim code format")

/-- `body_hash`: the keys are sorted. -/
def bodyHash (data : ProvisioningStart) : String :=
  sha.hex (JsonText.dumps [("claim_digest", .text (sha.hex data.claimCode)),
    ("hardware_id", .text data.hardwareId), ("name", .text data.name),
    ("room_id", .text data.roomId)])

/-- What `create` has locked: the attempt of its key, or the device with its active attempt. -/
inductive Lookup
  | previous (id : String) (row : AttemptRow)
  | fresh (device : String) (active : Option (String × AttemptRow))

/-- What `create` draws: `uuid4()`, and two `token_urlsafe(32)`. -/
structure Draw where
  id : String
  challenge : String
  token : String

/-- The row that `create` inserts. -/
def newRow (actor house : String) (data : ProvisioningStart) (key device : String)
    (now : Instant) (draw : Draw) : AttemptRow where
  houseId := house
  roomId := data.roomId
  deviceId := device
  actorId := actor
  name := data.name
  status := .discovered
  revision := 0
  createdAt := now
  expiresAt := now + ttl
  challengeHash := sha.hex draw.challenge
  tokenHash := sha.hex draw.token
  createKeyHash := sha.hex key
  requestHash := bodyHash sha data
  cancelKeyHash := none
  cancelActorId := none
  cancelRevision := none

/-- The active attempt of a device gives way only when it has expired. -/
def expireActive (active : Option (String × AttemptRow)) (now : Instant) :
    Except RouteError (List Statement) :=
  match active with
  | none => .ok []
  | some e => do
    let expired ← expire sha e.1 e.2 now
    ensure (expired.1.status ≠ .discovered) (.conflict "Device has an active provisioning attempt")
    return expired.2

/-- `create`, from the clock on. -/
def decideCreate (actor house : String) (data : ProvisioningStart) (key : String)
    (lookup : Lookup) (now : Instant) (draw : Draw) : Except RouteError Decision :=
  match lookup with
  | .previous id row => do
    let expired ← expire sha id row now
    let status ← publicStatus id expired.1
    return ⟨.ok status, expired.2⟩
  | .fresh device active => do
    let writes ← expireActive sha active now
    let row := newRow sha actor house data key device now draw
    let status ← publicStatus draw.id row
    return ⟨.ok status, writes ++ [.insertAttempt draw.id row]⟩

/-- `get`, from the clock on. -/
def decideGet (id : String) (row : AttemptRow) (now : Instant) : Except RouteError Decision := do
  let expired ← expire sha id row now
  let status ← publicStatus id expired.1
  return ⟨.ok status, expired.2⟩

/-- `cancel`, from the clock on. The conflict is raised after the commit. -/
def decideCancel (actor id : String) (row : AttemptRow) (revision : Nat) (key : String)
    (now : Instant) : Except RouteError Decision := do
  let (row, writes) ← expire sha id row now
  if row.cancelKeyHash = some (sha.hex key) ∧ row.cancelActorId = some actor then
    ensure (row.cancelRevision = some revision) (.conflict "Idempotency key conflicts with request")
    let status ← publicStatus id row
    return ⟨.ok status, writes⟩
  else if row.revision ≠ revision ∨ row.status ≠ .discovered then
    let _ ← publicStatus id row
    return ⟨.error (.service (.conflict "Provisioning revision or status conflict")), writes⟩
  else
    let applied ← apply sha id row .cancel now (some ⟨sha.hex key, actor, revision⟩)
    let status ← publicStatus id applied.1
    return ⟨.ok status, writes ++ [applied.2]⟩

/-- Whom `_authorize` admits. -/
def admitted (membership : Option (String × MembershipRow)) (user : Option UserRow) :
    Except RouteError Unit :=
  match user, membership with
  | some user, some membership =>
    if !user.isActive then .error (.service (.notFound "Resource not found"))
    else if membership.2.role.permits .deviceOnboard then .ok ()
    else .error .forbidden
  | _, _ => .error (.service (.notFound "Resource not found"))

/-- The checks of `create` on the inventory row. -/
def checkItem (item : Option (String × PhysicalRow)) (supplied : String) :
    Except RouteError String :=
  let expected := (item.bind (·.2.claimCodeHash)).getD (String.ofList (List.replicate 64 '0'))
  match item with
  | none => .error (.service (.notFound "Resource not found"))
  | some item =>
    if item.2.status ≠ .unprovisioned ∨ expected ≠ supplied then
      .error (.service (.notFound "Resource not found"))
    else .ok item.1

/-! ### Programs -/

/-- Programs of a request. -/
abbrev Request (α : Type) :=
  Query Tables TableRow Statement Violation ProvisioningNote RouteError α

/-- `select(ProvisioningSessionORM) … with_for_update()`: after the wait the row is looked at
again. -/
def selectAttempt (p : String → AttemptRow → Bool) : Request (Option (String × AttemptRow)) := do
  let t ← Sql.read none
  match (Tables.attempts t).find? p with
  | none => return none
  | some e => do
    let t ← Sql.lock (.attempt e.1)
    return (((Tables.attempts t).get? e.1).filter (p e.1)).map fun row => (e.1, row)

/-- `by_hardware` -/
def byHardware (hardware : String) : Request (Option (String × PhysicalRow)) := do
  let t ← Sql.read none
  match (Tables.physical t).find? fun _ item => item.hardwareId = hardware with
  | none => return none
  | some e => do
    let t ← Sql.lock (.physical e.1)
    return (((Tables.physical t).get? e.1).filter (·.hardwareId = hardware)).map fun item =>
      (e.1, item)

/-- The membership of `_authorize`. -/
def selectMembership (actor house : String) : Request (Option (String × MembershipRow)) := do
  let t ← Sql.read none
  match Tables.forHouse t actor house with
  | none => return none
  | some m => do
    let t ← Sql.lock (.membership m.1)
    return (((Tables.memberships t).get? m.1).filter
      fun row => row.userId = actor ∧ row.houseId = house).map fun row => (m.1, row)

/-- `_authorize` -/
def authorize (house actor : String) : Request Unit := do
  let t ← Sql.lock (.house house)
  Prog.lift (ensure ((Tables.houses t).get? house).isSome (.notFound "Resource not found"))
  let membership ← selectMembership actor house
  let t ← Sql.read none
  Prog.lift (admitted membership ((Tables.users t).get? actor))

/-- `require` of the routes. -/
def require (actor house : String) : Request Unit := do
  let t ← Sql.read none
  let _ ← Prog.lift (Tables.require t actor house .deviceOnboard)

/-- The attempt that a key was used for. -/
def keyed (house actor key : String) (_ : String) (row : AttemptRow) : Bool :=
  row.houseId = house ∧ row.actorId = actor ∧ row.createKeyHash = sha.hex key

/-- The active attempt of a device. -/
def activeFor (device : String) (_ : String) (row : AttemptRow) : Bool :=
  row.deviceId = device ∧ row.status = .discovered

/-- The checks of `create` before it looks at the attempts. -/
def enterCreate (actor house : String) (data : ProvisioningStart) : Request String := do
  require actor house
  let supplied ← Prog.lift (raised (claimDigest sha data.claimCode))
  authorize house actor
  return supplied

/-- The checks of the other requests before they look at the attempts. -/
def enter (actor house : String) : Request Unit := do
  require actor house
  authorize house actor

/-- `create`, up to the clock. -/
def prepareCreate (actor house : String) (data : ProvisioningStart) (key supplied : String) :
    Request Lookup := do
  match ← selectAttempt (keyed sha house actor key) with
  | some previous =>
    Prog.lift (ensure (previous.2.requestHash = bodyHash sha data)
      (.conflict "Idempotency key conflicts with request"))
    return .previous previous.1 previous.2
  | none =>
    let t ← Sql.read none
    Prog.lift (ensure (Tables.roomHouse? t data.roomId = some house)
      (.notFound "Resource not found"))
    let item ← byHardware data.hardwareId
    let device ← Prog.lift (checkItem item supplied)
    let active ← selectAttempt (activeFor device)
    return .fresh device active

/-- The attempt of `_load`. -/
def load (house session : String) : Request (String × AttemptRow) := do
  let row ← selectAttempt fun id row => id = session ∧ row.houseId = house
  Prog.lift (found (.notFound "Resource not found") row)

/-- A request that raises before it has committed. -/
def refuse (note : ProvisioningNote) (e : RouteError) : Request Unit := do
  let _ ← Sql.read (some note)
  Sql.rollback
  Prog.lift (.error e)

/-- What a failed commit raises. -/
def violated : Violation → RouteError
  | .integrity => .service (.conflict "Provisioning operation conflicts with existing data")
  | .rowcount => .service (.conflict "Provisioning revision conflict")

/-- The end of a request: what was decided is committed, and answered. -/
def conclude (request : ProvisioningRequest) (now : Instant) (id : Option String) :
    Except RouteError Decision → Request Unit
  | .error e => refuse (.answered request (some now) (.error e)) e
  | .ok decision => do
    match ← Sql.commit decision.writes (some (.answered request (some now) decision.reply)) with
    | .ok () =>
      let _ ← Prog.lift decision.reply
    | .error v =>
      let _ ← Sql.read (some (.failed request id))
      Prog.lift (.error (violated v))

/-- `create` -/
def create (actor house : String) (data : ProvisioningStart) (key : String) : Request Unit := do
  let request := ProvisioningRequest.create house data key
  match ← (enterCreate sha actor house data).attempt with
  | .error e => refuse (.barred request e) e
  | .ok supplied =>
    match ← (prepareCreate sha actor house data key supplied).attempt with
    | .error e => refuse (.answered request none (.error e)) e
    | .ok (.previous id row) =>
      let now ← Sql.now
      conclude request now none
        (decideCreate sha actor house data key (.previous id row) now ⟨"", "", ""⟩)
    | .ok (.fresh device active) =>
      let now ← Sql.now
      let id ← Sql.input
      let challenge ← Sql.input
      let token ← Sql.input
      conclude request now (some id)
        (decideCreate sha actor house data key (.fresh device active) now ⟨id, challenge, token⟩)

/-- A request on one attempt, and what is decided once the clock has been looked at. -/
def onAttempt (actor house session : String) (request : ProvisioningRequest)
    (decide : String → AttemptRow → Instant → Except RouteError Decision) : Request Unit := do
  match ← (enter actor house).attempt with
  | .error e => refuse (.barred request e) e
  | .ok () =>
    match ← (load house session).attempt with
    | .error e => refuse (.answered request none (.error e)) e
    | .ok (id, row) =>
      let now ← Sql.now
      conclude request now none (decide id row now)

/-- `get` -/
def get (actor house session : String) : Request Unit :=
  onAttempt actor house session (.get house session) fun id row now => decideGet sha id row now

/-- `cancel` -/
def cancel (actor house session : String) (revision : Nat) (key : String) : Request Unit :=
  onAttempt actor house session (.cancel house session revision key) fun id row now =>
    decideCancel sha actor id row revision key now

/-- The manual claim, without its note. -/
def claim (actor house : String) (data : ProvisioningStart) : Request Unit :=
  Sql.renote (fun _ => none) (Structure.claim actor house data.hardwareId
    (claimDigest sha data.claimCode) data.roomId data.name)

/-- The program of a request. -/
def program (_ : Nat) (actor : String) : ProvisioningRequest → Request Unit
  | .create house data key => create sha actor house data key
  | .get house session => get sha actor house session
  | .cancel house session revision key => cancel sha actor house session revision key
  | .claim house data => claim sha actor house data

end Provisioning

end KzHome

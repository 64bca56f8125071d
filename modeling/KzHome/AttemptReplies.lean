import KzHome.Attempts
import KzHome.Lib.SqlTraces

/-!
# KzHome.AttemptReplies

What a request on a provisioning attempt has come to when it is over.

It has noted how it ended, and where it was refused before it came to an attempt, what it had seen
is the reason (`Ended`). That is read off the programs, statement by statement: a program that is
over has got through all its statements, each on the tables of its moment.
-/

namespace KzHome.Provisioning

open Session Sql

/-- What a request has performed. -/
abbrev Steps := List (Performed (interface Tables TableRow Statement Violation ProvisioningNote)
  (Store Tables TableRow ProvisioningNote String))

/-- `EntityNotFoundError("Resource not found")` -/
def absent : RouteError := .service (.notFound "Resource not found")

/-! ### Reasons -/

section

variable (sha : Sha256) (saw : Tables → Prop) (p house : String)

/-- Why the route or `_authorize` refuses an actor. -/
inductive Denied : RouteError → Prop
  | route {t : Tables} {e : RouteError} (ht : saw t)
      (h : t.require p house .deviceOnboard = .error e) : Denied e
  | house {t : Tables} (ht : saw t) (h : t.houses.get? house = none) : Denied absent
  | stranger {t : Tables} (ht : saw t) (h : t.forHouse p house = none) : Denied absent
  /-- The membership that was found was gone when it was locked. -/
  | removed {t t' : Tables} {m : String × MembershipRow} (ht : saw t) (ht' : saw t')
      (h : t.forHouse p house = some m)
      (hgone : ∀ row, t'.memberships.get? m.1 = some row →
        ¬ (row.userId = p ∧ row.houseId = house)) : Denied absent
  | inactive {t : Tables} (ht : saw t) (h : (t.users.get? p).any (·.isActive) = false) :
      Denied absent
  | unpermitted {t : Tables} {id : String} {row : MembershipRow} (ht : saw t)
      (h : t.memberships.get? id = some row) (hof : row.userId = p ∧ row.houseId = house)
      (hrole : row.role.permits .deviceOnboard = false) : Denied .forbidden

/-- Why a request does not come to the attempts. -/
inductive Barred : ProvisioningRequest → RouteError → Prop
  | code {data : ProvisioningStart} {key : String} {e : Error}
      (h : claimDigest sha data.claimCode = .error e) : Barred (.create house data key) (.service e)
  | denied {request : ProvisioningRequest} {e : RouteError} (h : Denied saw p house e) :
      Barred request e

/-- What `by_hardware` has found, and locked. -/
inductive Item (hardware : String) : Option (String × PhysicalRow) → Prop
  | unknown {t : Tables} (ht : saw t)
      (h : ∀ id item, t.physical.get? id = some item → item.hardwareId ≠ hardware) :
      Item hardware none
  /-- The item that was found was no longer it when it was locked. -/
  | moved {t t' : Tables} {id : String} {item : PhysicalRow} (ht : saw t) (ht' : saw t')
      (h : t.physical.get? id = some item) (hhardware : item.hardwareId = hardware)
      (hgone : ∀ item, t'.physical.get? id = some item → item.hardwareId ≠ hardware) :
      Item hardware none
  | item {t : Tables} {id : String} {item : PhysicalRow} (ht : saw t)
      (h : t.physical.get? id = some item) (hhardware : item.hardwareId = hardware) :
      Item hardware (some (id, item))

/-- Why `create` neither begins an attempt nor tells of one. -/
inductive Unstarted (data : ProvisioningStart) (key : String) : Option Instant → RouteError → Prop
  /-- The key was used for another body. -/
  | otherBody {t : Tables} {id : String} {row : AttemptRow} (ht : saw t)
      (h : t.attempts.get? id = some row) (hkey : keyed sha house p key id row = true)
      (hbody : row.requestHash ≠ bodyHash sha data) : Unstarted data key none keyConflict
  | room {t : Tables} (ht : saw t) (h : t.roomHouse? data.roomId ≠ some house) :
      Unstarted data key none absent
  /-- The device is unknown, was claimed, or has another code. -/
  | item {item : Option (String × PhysicalRow)} {supplied : String} {e : RouteError}
      (hsupplied : claimDigest sha data.claimCode = .ok supplied)
      (hitem : Item saw data.hardwareId item) (h : checkItem item supplied = .error e) :
      Unstarted data key none e
  /-- The device has an active attempt, which has not expired. -/
  | busy {t : Tables} {id device : String} {row : AttemptRow} {now : Instant} (ht : saw t)
      (h : t.attempts.get? id = some row) (hdevice : row.deviceId = device)
      (hdiscovered : row.status = .discovered) (hopen : now < row.expiresAt) :
      Unstarted data key (some now)
        (.service (.conflict "Device has an active provisioning attempt"))
  /-- An identifier of the new row is malformed, or a digest. -/
  | malformed {device : String} {now : Instant} {draw : Draw} {e : RouteError}
      (h : ¬ (newRow sha p house data key device now draw).Sound) : Unstarted data key (some now) e

/-- How a request that is over has ended, and what it noted. -/
inductive Ended : ProvisioningRequest → ProvisioningNote → Except RouteError Unit → Prop
  | barred {request : ProvisioningRequest} {e : RouteError} (h : Barred sha saw p house request e) :
      Ended request (.barred request e) (.error e)
  | answered {request : ProvisioningRequest} {now : Option Instant} {status : PublicStatus} :
      Ended request (.answered request now (.ok status)) (.ok ())
  | refused {request : ProvisioningRequest} {now : Option Instant} {e : RouteError}
      (h : ∀ data key, request = .create house data key →
        Unstarted sha saw p house data key now e) :
      Ended request (.answered request now (.error e)) (.error e)
  /-- A constraint of the database has failed. -/
  | failed {data : ProvisioningStart} {key device : String} {t : Tables} {now : Instant}
      {active : Option (String × AttemptRow)} {draw : Draw} {v : Violation} (ht : saw t)
      (h : t.writes (clears active now ++
        [.insertAttempt draw.id (newRow sha p house data key device now draw)]) = .error v) :
      Ended (.create house data key) (.failed (.create house data key) (some draw.id))
        (.error (violated v))

end

/-! ### The checks of a request -/

section

variable {sha : Sha256} {saw saw' : Tables → Prop} {s : Nat} {p house : String} {xs : Steps}

theorem Denied.mono {e : RouteError} (hsaw : ∀ t, saw t → saw' t) (h : Denied saw p house e) :
    Denied saw' p house e := by
  cases h with
  | route ht h => exact .route (hsaw _ ht) h
  | house ht h => exact .house (hsaw _ ht) h
  | stranger ht h => exact .stranger (hsaw _ ht) h
  | removed ht ht' h hgone => exact .removed (hsaw _ ht) (hsaw _ ht') h hgone
  | inactive ht h => exact .inactive (hsaw _ ht) h
  | unpermitted ht h hof hrole => exact .unpermitted (hsaw _ ht) h hof hrole

theorem Item.mono {hardware : String} {item : Option (String × PhysicalRow)}
    (hsaw : ∀ t, saw t → saw' t) (h : Item saw hardware item) : Item saw' hardware item := by
  cases h with
  | unknown ht h => exact .unknown (hsaw _ ht) h
  | moved ht ht' h hhardware hgone => exact .moved (hsaw _ ht) (hsaw _ ht') h hhardware hgone
  | item ht h hhardware => exact .item (hsaw _ ht) h hhardware

theorem Unstarted.mono {data : ProvisioningStart} {key : String} {now : Option Instant}
    {e : RouteError} (hsaw : ∀ t, saw t → saw' t) (h : Unstarted sha saw p house data key now e) :
    Unstarted sha saw' p house data key now e := by
  cases h with
  | otherBody ht h hkey hbody => exact .otherBody (hsaw _ ht) h hkey hbody
  | room ht h => exact .room (hsaw _ ht) h
  | item hsupplied hitem h => exact .item hsupplied (hitem.mono hsaw) h
  | busy ht h hdevice hdiscovered hopen => exact .busy (hsaw _ ht) h hdevice hdiscovered hopen
  | malformed h => exact .malformed h

theorem Ended.mono {request : ProvisioningRequest} {note : ProvisioningNote}
    {r : Except RouteError Unit} (hsaw : ∀ t, saw t → saw' t)
    (h : Ended sha saw p house request note r) : Ended sha saw' p house request note r := by
  cases h with
  | barred h =>
      cases h with
      | code h => exact .barred (.code h)
      | denied h => exact .barred (.denied (h.mono hsaw))
  | answered => exact .answered
  | refused h => exact .refused fun data key heq => (h data key heq).mono hsaw
  | failed ht h => exact .failed (hsaw _ ht) h

theorem ensure_refused {condition : Bool} {error : Error} {e : RouteError}
    (h : ensure condition error = .error e) : condition = false ∧ e = .service error := by
  cases condition with
  | true => cases h
  | false => exact ⟨rfl, (Except.error.inj h).symm⟩

end

end KzHome.Provisioning

import KzHome.Authorization
import KzHome.Lib.SqlRules

/-!
# KzHome.Members

Adding, changing and removing the members of a house.

A session loads a membership before it locks the owners of the house, and keeps the
role that it loaded: in its identity map the attributes of a row stay what they
were, also when a later statement returns the row again. `_protect_final_owner` counts
the owners under their locks but asks the loaded role whether it is an owner's. A
membership that was promoted in between passes as a non-owner, and when the other owners
have left by then, the last one goes (`last_owner_iff`).
-/

namespace KzHome

open Session Sql

/-- The requests on the members of a house. -/
inductive MemberRequest
  | add (house user : String) (role : Role)
  | change (house user : String) (role : Role)
  | remove (house user : String)
  deriving DecidableEq, Repr

/-- What is noted when a membership is written: its loaded role, and its new one, if any. -/
structure Replaced where
  id : String
  loaded : Role
  replacement : Option Role
  deriving DecidableEq, Repr

namespace Members

/-- Programs of a request. -/
abbrev Request (α : Type) := Query Tables TableRow Statement Violation Replaced RouteError α

end Members

namespace Tables

variable (t : Tables)

/-- `MembershipRepository.by_user_house` -/
def byUserHouse (user house : String) : Except RouteError (String × MembershipRow) :=
  match t.forHouse user house with
  | some membership => .ok membership
  | none => .error (.service (.notFound "House membership not found"))

/-- The row is an owner's membership of the house. -/
def isOwner (house id : String) : Bool :=
  (t.memberships.get? id).any fun row => row.houseId = house && row.role = .owner

/-- The rows that `lock_owners` selects. -/
def owners (house : String) : List String :=
  (t.memberships.entries.filter fun e => e.2.houseId = house && e.2.role = .owner).map Prod.fst

/-- The house has an owner. -/
def HasOwner (house : String) : Prop := ∃ id, t.isOwner house id = true

end Tables

namespace Members

/-- The rows of `lock_owners`, one after the other: a row that is no owner's any more when its
lock is granted is left out. -/
def lockOwners (house : String) : List String → List String → Request (List String)
  | [], owners => .ret owners
  | id :: ids, owners => .call (.lock (.membership id)) fun t =>
      lockOwners house ids (if Tables.isOwner t house id then owners ++ [id] else owners)

/-- The decision of `_protect_final_owner`. -/
def protects (loaded : Role) (replacement : Option Role) (owners : List String) :
    Except RouteError Unit :=
  if loaded = .owner ∧ replacement ≠ some .owner ∧ owners.length ≤ 1 then
    .error (.service (.conflict "The final house owner cannot be removed or downgraded"))
  else .ok ()

/-- `_commit` -/
def committed : Except Violation Unit → Except RouteError Unit
  | .ok () => .ok ()
  | .error .integrity =>
    .error (.service (.conflict "Entity already exists or conflicts with related data"))
  | .error .rowcount => .error (.service (.other "StaleDataError"))

/-- `MembershipService.change` and `remove`, after `_protect_final_owner`. An unchanged role is
not written. -/
def write (id : String) (loaded : Role) (replacement : Option Role) :
    Request (Except Violation Unit) :=
  match replacement with
  | some role =>
    if role = loaded then Sql.commit [] none
    else Sql.commit [.setRole id role] (some ⟨id, loaded, some role⟩)
  | none => Sql.commit [.deleteMembership id] (some ⟨id, loaded, none⟩)

/-- `PATCH` and `DELETE` of `/houses/{house_id}/members/{user_id}`. -/
def replace (actor house user : String) (replacement : Option Role) : Request Unit := do
  let t ← Sql.read none
  let _ ← Prog.lift (Tables.require t actor house .memberManage)
  let t ← Sql.read none
  -- the identity map keeps the row as it is loaded here
  let membership ← Prog.lift (Tables.byUserHouse t user house)
  let t ← Sql.read none
  let owners ← lockOwners house (Tables.owners t house) []
  Prog.lift (protects membership.2.role replacement owners)
  let result ← write membership.1 membership.2.role replacement
  Prog.lift (committed result)

/-- `POST /houses/{house_id}/members` -/
def add (actor house user : String) (role : Role) : Request Unit := do
  let t ← Sql.read none
  let _ ← Prog.lift (Tables.require t actor house .memberManage)
  let t ← Sql.read none
  Prog.lift (if (t.users.get? user).isSome then Except.ok ()
    else .error (.service (.invalidReference "Referenced user does not exist")))
  let id ← Sql.input
  let result ← Sql.commit [.insertMembership id ⟨user, house, role⟩] none
  Prog.lift (committed result)

/-- The program of a request of a user. -/
def program (_ : Nat) (actor : String) : MemberRequest → Request Unit
  | .add house user role => add actor house user role
  | .change house user role => replace actor house user (some role)
  | .remove house user => replace actor house user none

/-- Requests side by side. -/
def requests : Transition.System
    (State (interface Tables TableRow Statement Violation Replaced)
      (Store Tables TableRow Replaced String) String RouteError)
    (Session.Label String MemberRequest String (Outside Tables)) :=
  system (machine schema undisturbed) program

end Members

end KzHome

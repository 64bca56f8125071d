import KzHome.Authorization
import KzHome.LiveUpdates
import Mathlib

/-!
# KzHome.Disclosure

What the routes on a resource by its identifier tell those who may not see it.

A request is refused before the route is called if FastAPI cannot read its body, if it
comes without a valid access token of an active user, or if its parameters are not
valid. Then all routes go through `house_for` and `require` before anything else. A
resource of a house that the user is no member of is hidden by `require`, deliberately
with the answer for something that does not exist; but what does not exist is reported
by the repository that has looked for it, with the name of its class
(`answer_foreign`, `answer_absent`).
-/

namespace KzHome

/-- The routes on a floor, a room, a device, a scene or an automation by its identifier. -/
inductive ByIdRoute
  | getFloor
  | updateFloor
  | deleteFloor
  | getRoom
  | updateRoom
  | deleteRoom
  | getDevice
  | updateDevice
  | deleteDevice
  | updateState
  | turnOn
  | turnOff
  | submitCommand
  | getScene
  | updateScene
  | deleteScene
  | runScene
  | getAutomation
  | updateAutomation
  | deleteAutomation
  | enableAutomation
  | disableAutomation
  | runAutomation
  deriving DecidableEq, Repr

/-- What the identifier of a route names. -/
def ByIdRoute.kind : ByIdRoute → Kind
  | .getFloor | .updateFloor | .deleteFloor => .floor
  | .getRoom | .updateRoom | .deleteRoom => .room
  | .getDevice | .updateDevice | .deleteDevice | .updateState | .turnOn | .turnOff
  | .submitCommand => .device
  | .getScene | .updateScene | .deleteScene | .runScene => .scene
  | .getAutomation | .updateAutomation | .deleteAutomation | .enableAutomation
  | .disableAutomation | .runAutomation => .automation

/-- The permission that a route requires in the house of the resource. -/
def ByIdRoute.permission : ByIdRoute → Permission
  | .getFloor | .getRoom => .houseRead
  | .updateFloor | .deleteFloor | .updateRoom | .deleteRoom => .houseManage
  | .getDevice => .deviceRead
  | .updateDevice | .deleteDevice => .deviceManage
  | .updateState | .turnOn | .turnOff | .submitCommand => .deviceControl
  | .getScene => .sceneRead
  | .updateScene | .deleteScene => .sceneManage
  | .runScene => .sceneRun
  | .getAutomation => .automationRead
  | .updateAutomation | .deleteAutomation | .enableAutomation | .disableAutomation
  | .runAutomation => .automationManage

/-- A response: its status, and its body. -/
structure Response where
  status : Nat
  body : Json

/-- The body of an error. -/
def detail (message : String) : Json := .obj [("detail", .str message)]

/-- The exception handlers of the application, and the one for `HTTPException`. -/
def RouteError.response : RouteError → Response
  | .http status message => ⟨status, detail message⟩
  | .service (.notFound message) =>
    ⟨404, detail (if message = "" then "Entity not found" else message)⟩
  | .service (.conflict message) => ⟨409, detail message⟩
  | .service (.invalidReference message) => ⟨422, detail message⟩
  | .service (.unavailable message) => ⟨503, detail message⟩
  | .service (.other _) => ⟨500, .str "Internal Server Error"⟩

/-- A route: `handle` is what it does once it has authorized the user. -/
def ByIdRoute.answer (route : ByIdRoute) (handle : Tables → String → Response) (user id : String)
    (t : Tables) : Response :=
  match t.houseFor route.kind id with
  | .error e => e.response
  | .ok house =>
    match t.require user house route.permission with
    | .error e => e.response
    | .ok _ => handle t house

/-- What FastAPI does with a request of a route. `unreadable` is the answer to a body that it
cannot read, before it calls the dependencies of the route; `invalid` is the
`RequestValidationError` of path, headers and body, which it raises after them. -/
structure FastAPI (ρ : Type) where
  authorization : ρ → String
  unreadable : ByIdRoute → ρ → Option Response
  invalid : ByIdRoute → ρ → Option Response
  unprocessable : ∀ route request refusal, invalid route request = some refusal →
    refusal.status = 422

/-- The user that the access token of a request names: `bearer_token` and `codec.decode`. -/
def claimant (service : Auth.Service) (now : Instant) (authorization : String) :
    Except RouteError String := do
  let token ← (Live.bearerToken authorization).elim
    (.error (Live.unauthorized "Valid Bearer authentication is required")) .ok
  let claims ← Live.decode service token .access now "Invalid access token"
  return claims.sub

namespace Tables

variable (t : Tables)

/-- `user is not None and user.is_active` -/
def isActive (user : String) : Bool := (t.users.get? user).any (·.isActive)

/-- `get_current_user` -/
def currentUser (service : Auth.Service) (now : Instant) (authorization : String) :
    Except RouteError String := do
  let user ← claimant service now authorization
  let _ ← Live.require (t.isActive user) "Invalid access token"
  return user

/-- There is no such resource, and so nothing is bound to it. -/
def Absent (kind : Kind) (id : String) : Prop :=
  match kind with
  | .house => t.houses.get? id = none
  | .floor => t.floors.get? id = none
  | .room => t.rooms.get? id = none
  | .device => t.devices.get? id = none ∧ ∀ e ∈ t.physical.entries, e.2.boundDeviceId ≠ some id
  | .scene => t.scenes.get? id = none
  | .automation => t.automations.get? id = none

/-- The resource is in a house that the user is no member of. -/
def Foreign (user : String) (kind : Kind) (id : String) : Prop :=
  ∃ house, t.houseFor kind id = .ok house ∧ t.forHouse user house = none

end Tables

/-- A request on a resource, from its body to its answer. -/
def ByIdRoute.respond {ρ : Type} (route : ByIdRoute) (api : FastAPI ρ) (service : Auth.Service)
    (now : Instant) (handle : Tables → String → Response) (request : ρ) (id : String)
    (t : Tables) : Response :=
  match api.unreadable route request with
  | some refusal => refusal
  | none =>
    match t.currentUser service now (api.authorization request) with
    | .error e => e.response
    | .ok user =>
      match api.invalid route request with
      | some refusal => refusal
      | none => route.answer handle user id t

/-- Two databases agree on a house and on everything inside it. -/
structure AgreeOn (house : String) (t t' : Tables) : Prop where
  row : t.houses.get? house = t'.houses.get? house
  memberships : ∀ id, (t.memberships.get? id).filter (·.houseId = house) =
    (t'.memberships.get? id).filter (·.houseId = house)
  floors : ∀ id, (t.floors.get? id).filter (·.houseId = house) =
    (t'.floors.get? id).filter (·.houseId = house)
  rooms : ∀ id, (t.rooms.get? id).filter (fun _ => t.roomHouse? id = some house) =
    (t'.rooms.get? id).filter fun _ => t'.roomHouse? id = some house
  devices : ∀ id, (t.devices.get? id).filter (fun _ => t.deviceHouse? id = some house) =
    (t'.devices.get? id).filter fun _ => t'.deviceHouse? id = some house
  physical : ∀ id, (t.physical.get? id).filter (·.houseId = some house) =
    (t'.physical.get? id).filter (·.houseId = some house)
  scenes : ∀ id, (t.scenes.get? id).filter (·.houseId = house) =
    (t'.scenes.get? id).filter (·.houseId = house)
  automations : ∀ id, (t.automations.get? id).filter (·.houseId = house) =
    (t'.automations.get? id).filter (·.houseId = house)
  attempts : ∀ id, (t.attempts.get? id).filter (·.houseId = house) =
    (t'.attempts.get? id).filter (·.houseId = house)
  commands : t.ledger.commands.filter (·.houseId = house) =
    t'.ledger.commands.filter (·.houseId = house)

/-- Two databases that a user cannot tell apart from within his houses. -/
structure Agree (user : String) (t t' : Tables) : Prop where
  row : t.users.get? user = t'.users.get? user
  memberships : ∀ house, t.forHouse user house = t'.forHouse user house
  houses : ∀ house, (t.forHouse user house).isSome → AgreeOn house t t'

section

variable {t t' : Tables} {user id : String} (route : ByIdRoute)
  (handle : Tables → String → Response)

/-- What is foreign is hidden. -/
theorem answer_foreign (h : t.Foreign user route.kind id) :
    route.answer handle user id t = ⟨404, detail "Resource not found"⟩ := by
  obtain ⟨house, hhouse, hmember⟩ := h
  have hrequire : t.require user house route.permission = .error .hidden := by
    rw [Tables.require, hmember]
  rw [ByIdRoute.answer, hhouse]
  dsimp only
  rw [hrequire]
  rfl

/-- The house of what is absent cannot be found. -/
theorem houseFor_absent {kind : Kind} (h : t.Absent kind id) :
    t.houseFor kind id = .error kind.missing := by
  unfold Tables.houseFor
  cases kind with
  | house => simp only [show t.houses.get? id = none from h, Option.map_none]
  | floor =>
      have hnone : t.floorHouse? id = none := by
        rw [Tables.floorHouse?, show t.floors.get? id = none from h, Option.map_none]
      simp only [hnone]
  | room =>
      have hnone : t.roomHouse? id = none := by
        rw [Tables.roomHouse?, show t.rooms.get? id = none from h, Option.bind_none]
      simp only [hnone]
  | device =>
      obtain ⟨hrow, hbound⟩ := h
      have hnone : t.deviceHouse? id = none := by
        rw [Tables.deviceHouse?, hrow, Option.bind_none]
      have hfind : (t.physical.find? fun _ p => p.boundDeviceId = some id) = none :=
        Dict.find?_eq_none.mpr fun e he => by simpa using hbound e he
      simp only [hfind, hnone, Option.bind_none, Option.or_none]
  | scene => simp only [show t.scenes.get? id = none from h, Option.map_none]
  | automation => simp only [show t.automations.get? id = none from h, Option.map_none]

/-- What is absent is reported by its repository. -/
theorem answer_absent (h : t.Absent route.kind id) :
    route.answer handle user id t = ⟨404, detail (route.kind.model ++ " not found")⟩ := by
  rw [ByIdRoute.answer, houseFor_absent h]
  cases route <;> rfl

/-- The two answers differ for every kind. -/
theorem hidden_ne_missing (kind : Kind) :
    (⟨404, detail "Resource not found"⟩ : Response) ≠
      ⟨404, detail (kind.model ++ " not found")⟩ := by
  intro h
  have hmessage : "Resource not found" = kind.model ++ " not found" := by
    simpa [detail] using h
  revert hmessage
  cases kind <;> decide

/-! ### Whole requests -/

variable {ρ : Type} (api : FastAPI ρ) (service : Auth.Service) (now : Instant) (request : ρ)

/-- The answer to an access token that is not good. -/
def unauthorizedResponse : Response := (Live.unauthorized "Invalid access token").response

/-- A request that is refused in both databases before the user is authorized: its body cannot
be read, it comes without a valid access token, the user is not active, or it is not valid. -/
inductive Refused (user : String) (t t' : Tables) : Prop
  | unreadable (h : (api.unreadable route request).isSome)
  | unnamed (e : RouteError) (h : claimant service now (api.authorization request) = .error e)
  | inactive (h : t.isActive user = false) (h' : t'.isActive user = false)
  | invalid (hactive : t.isActive user = t'.isActive user)
      (h : (api.invalid route request).isSome)

variable {route api service now request}

/-- Past the reading of the body, a user is let in if he is active. -/
theorem respond_named (hread : api.unreadable route request = none)
    (hnamed : claimant service now (api.authorization request) = .ok user) :
    route.respond api service now handle request id t =
      if t.isActive user then (api.invalid route request).getD (route.answer handle user id t)
      else unauthorizedResponse := by
  have hcurrent : t.currentUser service now (api.authorization request) =
      if t.isActive user then .ok user else .error (Live.unauthorized "Invalid access token") := by
    simp only [Tables.currentUser, hnamed, bind, Except.bind]
    cases t.isActive user <;> rfl
  rw [ByIdRoute.respond, hread]
  dsimp only
  rw [hcurrent]
  cases t.isActive user with
  | false => rfl
  | true => cases api.invalid route request <;> rfl

/-- A user who is active gets no answer that one who is not active gets. -/
theorem getD_ne_unauthorized {answer : Response} (h : answer.status = 404) :
    (api.invalid route request).getD answer ≠ unauthorizedResponse := by
  intro heq
  have hstatus : ((api.invalid route request).getD answer).status = 401 := by rw [heq]; rfl
  cases hinvalid : api.invalid route request with
  | none =>
      rw [hinvalid, Option.getD_none, h] at hstatus
      cases hstatus
  | some refusal =>
      rw [hinvalid, Option.getD_some, api.unprocessable route request refusal hinvalid] at hstatus
      cases hstatus

/-- Past the reading of the body, a request of the user is refused in both databases if he is
active in neither, or if he is active in both and it is not valid. -/
theorem Refused.named (h : Refused route api service now request user t t')
    (hread : api.unreadable route request = none)
    (hnamed : claimant service now (api.authorization request) = .ok user) :
    t.isActive user = t'.isActive user ∧
      (t.isActive user = true → (api.invalid route request).isSome) := by
  cases h with
  | unreadable h => rw [hread] at h; cases h
  | unnamed e h => rw [hnamed] at h; cases h
  | inactive h h' => exact ⟨h.trans h'.symm, fun hactive => by rw [h] at hactive; cases hactive⟩
  | invalid hactive h => exact ⟨hactive, fun _ => h⟩

/-- **Foreign and absent resources get the same response** if and only if the request is refused
before the user is authorized. -/
theorem foreign_eq_absent_iff
    (huser : ∀ sub, claimant service now (api.authorization request) = .ok sub → sub = user)
    (hforeign : t.Foreign user route.kind id) (habsent : t'.Absent route.kind id) :
    route.respond api service now handle request id t =
        route.respond api service now handle request id t' ↔
      Refused route api service now request user t t' := by
  have hstatus : (route.answer handle user id t).status = 404 := by
    rw [answer_foreign route handle hforeign]
  have hstatus' : (route.answer handle user id t').status = 404 := by
    rw [answer_absent route handle habsent]
  cases hread : api.unreadable route request with
  | some refusal =>
      refine iff_of_true ?_ (.unreadable (by rw [hread]; rfl))
      rw [ByIdRoute.respond, ByIdRoute.respond, hread]
  | none =>
      cases hnamed : claimant service now (api.authorization request) with
      | error e =>
          refine iff_of_true ?_ (.unnamed e hnamed)
          rw [ByIdRoute.respond, ByIdRoute.respond, hread, Tables.currentUser, Tables.currentUser,
            hnamed]
          rfl
      | ok sub =>
          obtain rfl := huser sub hnamed
          rw [respond_named handle hread hnamed, respond_named handle hread hnamed]
          cases hactive : t.isActive sub <;> cases hactive' : t'.isActive sub
          · exact iff_of_true rfl (.inactive hactive hactive')
          · refine iff_of_false (getD_ne_unauthorized hstatus').symm fun h => ?_
            have hsame := (h.named hread hnamed).1
            rw [hactive, hactive'] at hsame
            cases hsame
          · refine iff_of_false (getD_ne_unauthorized hstatus) fun h => ?_
            have hsame := (h.named hread hnamed).1
            rw [hactive, hactive'] at hsame
            cases hsame
          · cases hinvalid : api.invalid route request with
            | some refusal =>
                exact iff_of_true rfl (.invalid (hactive.trans hactive'.symm) (by rw [hinvalid]; rfl))
            | none =>
                refine iff_of_false ?_ fun h => ?_
                · simp only [if_true, Option.getD_none, answer_foreign route handle hforeign,
                    answer_absent route handle habsent]
                  exact hidden_ne_missing route.kind
                · have hrefused := (h.named hread hnamed).2 hactive
                  rw [hinvalid] at hrefused
                  cases hrefused

end

/-- Ann's house, and a shop with one floor. -/
def street : Tables where
  houses := .ofList [("home", ⟨"Home"⟩), ("shop", ⟨"Shop"⟩)]
  floors := .ofList [("counter", ⟨"shop", "Counter", 0⟩)]
  rooms := .empty
  devices := .empty
  physical := .empty
  memberships := .ofList [("m1", ⟨"ann", "home", .owner⟩)]
  users := .ofList [("ann", ⟨true⟩)]
  scenes := .empty
  automations := .empty
  attempts := .empty
  ledger := ⟨[], []⟩
  issued := ["m1"]

/-- The shop without its floor. -/
def vacant : Tables := { street with floors := .empty }

/-- Requests without a body, on routes that take none: the header `Authorization`. -/
def bodyless : FastAPI String := ⟨id, fun _ _ => none, fun _ _ => none, fun _ _ _ h => by cases h⟩

/-- Access tokens that are the name of their user, good for an hour. -/
def counterService : Auth.Service where
  codec :=
    { encode := fun claims => claims.sub
      payload := fun token => some ⟨token, .access, 0, 3600 * second, token⟩
      accessMinutes := 60
      refreshDays := 1 }
  passwords := ⟨fun hash password => hash = password, ""⟩
  sha := ⟨id, fun _ _ h => h⟩
  lower := id

theorem street_agrees : Agree "ann" street vacant := by
  refine ⟨rfl, fun house => rfl, fun house hmember => ?_⟩
  obtain ⟨m, hm⟩ := Option.isSome_iff_exists.mp hmember
  obtain ⟨hget, -, rfl⟩ := Tables.forHouse_some hm
  have hmem : m ∈ [("m1", (⟨"ann", "home", .owner⟩ : MembershipRow))] := Dict.get?_eq_some.mp hget
  obtain rfl := List.mem_singleton.mp hmem
  refine ⟨rfl, fun _ => rfl, fun id => ?_, fun _ => rfl, fun _ => rfl, fun _ => rfl, fun _ => rfl,
    fun _ => rfl, fun _ => rfl, rfl⟩
  have hfloors : street.floors =
      ⟨[("counter", ⟨"shop", "Counter", 0⟩)], List.nodup_singleton _⟩ := rfl
  by_cases hid : "counter" = id <;> simp [hfloors, vacant, Dict.get?, Dict.empty, hid]

theorem street_foreign : street.Foreign "ann" .floor "counter" := ⟨"shop", by rfl, by rfl⟩

/-- The token of the request names Ann. -/
theorem claimant_ann : claimant counterService 0 "Bearer ann" = .ok "ann" := by decide +kernel

/-- Ann finds out that the shop has a floor with this identifier. -/
theorem street_disclosed :
    Agree "ann" street vacant ∧ street.Foreign "ann" .floor "counter" ∧
      vacant.Absent .floor "counter" ∧
        claimant counterService 0 (bodyless.authorization "Bearer ann") = .ok "ann" ∧
          ¬ ∀ handle, ByIdRoute.getFloor.respond bodyless counterService 0 handle "Bearer ann"
              "counter" street =
            ByIdRoute.getFloor.respond bodyless counterService 0 handle "Bearer ann" "counter"
              vacant := by
  refine ⟨street_agrees, street_foreign, rfl, claimant_ann, fun h => ?_⟩
  have heq := h fun _ _ => ⟨200, .null⟩
  rw [respond_named _ rfl claimant_ann, respond_named _ rfl claimant_ann] at heq
  exact hidden_ne_missing .floor heq

/-- The request of Ann is refused nowhere. -/
theorem foreign_eq_absent_street :
    ByIdRoute.getFloor.respond bodyless counterService 0 (fun _ _ => ⟨200, .null⟩) "Bearer ann"
        "counter" street =
      ByIdRoute.getFloor.respond bodyless counterService 0 (fun _ _ => ⟨200, .null⟩) "Bearer ann"
        "counter" vacant ↔
    Refused .getFloor bodyless counterService 0 "Bearer ann" "ann" street vacant :=
  foreign_eq_absent_iff _ (fun _ h => (Except.ok.inj (claimant_ann.symm.trans h)).symm)
    street_foreign rfl

end KzHome

import KzHome.EventBus
import KzHome.JsonValues
import KzHome.Registry
import KzHome.StateValidator

/-!
# KzHome.Automations

Automation rules: when they match, what they must satisfy to run, and the checks of
`update_state` on what they do. Everything here is decided on one reading of the
tables; what happens between two readings is the business of the modules that run
rules.
-/

namespace KzHome

open StateValidator (DeviceState)

/-- `MAX_AUTOMATION_DEPTH` -/
def maxAutomationDepth : Nat := 8

/-- `Operator` -/
inductive Operator
  | eq
  | neq
  | gt
  | gte
  | lt
  | lte
  deriving DecidableEq, Repr

/-- `AutomationTrigger` -/
structure AutomationTrigger where
  deviceId : String
  field : String
  operator : Operator
  value : Json

/-- A validated `HH:MM`. -/
structure TimeOfDay where
  hour : Fin 24
  minute : Fin 60
  deriving DecidableEq, Repr

/-- `AutomationCondition` -/
inductive AutomationCondition
  | deviceState (condition : AutomationTrigger)
  | time (after before : TimeOfDay)

/-- `AutomationAction` -/
inductive AutomationAction
  | deviceState (deviceId : String) (state : DeviceState)
  | delay (seconds : Rat)

/-- `AutomationRead` -/
structure AutomationRule where
  id : String
  name : String
  houseId : String
  enabled : Bool
  trigger : AutomationTrigger
  conditions : List AutomationCondition
  actions : List AutomationAction

/-- `compare`; a `TypeError` counts as a mismatch. -/
def compare (actual : Json) (operator : Operator) (expected : Json) : Bool :=
  match operator with
  | .eq => Json.pyEq actual expected
  | .neq => !Json.pyEq actual expected
  | .gt => (Json.pyLt expected actual).getD false
  | .gte => (Json.pyLt expected actual).elim false fun lt => lt || Json.pyEq actual expected
  | .lt => (Json.pyLt actual expected).getD false
  | .lte => (Json.pyLt actual expected).elim false fun lt => lt || Json.pyEq actual expected

/-- A time of day in microseconds after midnight. -/
def TimeOfDay.micros (t : TimeOfDay) : Nat := (t.hour * 60 + t.minute) * 60000000

/-- `time_matches`; `current` is in microseconds after midnight. -/
def timeMatches (after before : TimeOfDay) (current : Nat) : Bool :=
  if after.micros ≤ before.micros then after.micros ≤ current && current ≤ before.micros
  else after.micros ≤ current || current ≤ before.micros

/-- The trigger of a rule matches a change of some fields of a device. -/
def AutomationTrigger.matches (t : AutomationTrigger) (device : String) (changed : DeviceState) :
    Bool :=
  t.deviceId = device && compare (Json.getOrNull changed t.field) t.operator t.value

/-- `enabled_for_house` -/
def enabledForHouse (rules : List AutomationRule) (house : String) : List AutomationRule :=
  rules.filter fun rule => rule.houseId = house && rule.enabled

/-- `_conditions_match`; `current` is the time of day at each condition. -/
def conditionsMatch (r : Registry) (states : String → DeviceState) (current : Nat → Nat) :
    List AutomationCondition → Except Error Bool
  | [] => .ok true
  | .deviceState c :: rest => do
    let device ← r.getDevice c.deviceId
    if compare (Json.getOrNull (states device.id) c.field) c.operator c.value then
      conditionsMatch r states (fun i => current (i + 1)) rest
    else .ok false
  | .time after before :: rest =>
    if timeMatches after before (current 0) then
      conditionsMatch r states (fun i => current (i + 1)) rest
    else .ok false

namespace AutomationCondition

/-- The device of a device condition. -/
def device? : AutomationCondition → Option AutomationTrigger
  | .deviceState c => some c
  | .time _ _ => none

end AutomationCondition

namespace AutomationAction

/-- The device and the state of a device action. -/
def deviceState? : AutomationAction → Option (String × DeviceState)
  | .deviceState device state => some (device, state)
  | .delay _ => none

end AutomationAction

namespace AutomationRule

variable (rule : AutomationRule)

/-- The devices that `_validate` looks up. -/
def deviceIds : List String :=
  rule.trigger.deviceId ::
    (rule.conditions.filterMap (·.device?)).map (·.deviceId) ++
      (rule.actions.filterMap (·.deviceState?)).map Prod.fst

/-- `_validate` -/
def validate (houses : List String) (r : Registry) : Except Error Unit := do
  if rule.houseId ∉ houses then throw (.invalidReference "House does not exist")
  rule.deviceIds.forM fun device => do
    let _ ← r.getDevice device
    let house ← r.houseId device
    if house ≠ some rule.houseId then
      throw (.invalidReference "Automation cannot access a device in another house")
  let capable (device : String) (state : DeviceState) : Except Error Unit := do
    let entity ← r.getDevice device
    StateValidator.validateCapabilities entity.capabilities state
  capable rule.trigger.deviceId [(rule.trigger.field, rule.trigger.value)]
  (rule.conditions.filterMap (·.device?)).forM fun c => capable c.deviceId [(c.field, c.value)]
  (rule.actions.filterMap (·.deviceState?)).forM fun a => capable a.1 a.2

end AutomationRule

/-- The checks of `update_state` without a transport. -/
def Registry.checkUpdate (r : Registry) (device : String) (patch : DeviceState) :
    Except Error Unit := do
  r.requireActive device
  r.requireCommandContract device
  let entity ← r.getDevice device
  StateValidator.validateCapabilities entity.capabilities patch

end KzHome

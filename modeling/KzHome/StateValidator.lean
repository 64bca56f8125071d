import KzHome.Basic

/-!
# KzHome.StateValidator

`StateValidator`: which state fields a command for a device may carry.
-/

namespace KzHome.StateValidator

/-- A state patch: the members of a JSON object. -/
abbrev DeviceState := List (String × Json)

/-- `FIELD_CAPABILITIES`. -/
def fieldCapabilities : List (String × String) :=
  [("on", "on_off"), ("brightness", "brightness"), ("position", "position"),
   ("temperature", "temperature"), ("target_temperature", "target_temperature"),
   ("motion", "motion"), ("humidity", "humidity"), ("leak", "leak"),
   ("illuminance", "illuminance")]

/-- `READ_ONLY_FIELDS`. -/
def readOnlyFields : List String := ["temperature", "motion", "humidity", "leak", "illuminance"]

/-- `BOOLEAN_FIELDS`. -/
def booleanFields : List String := ["on", "motion", "leak"]

/-- `INTEGER_RANGES`. -/
def integerRanges : List (String × Int × Int) := [("brightness", 0, 100), ("position", 0, 100)]

/-- `", ".join(sorted(fields))`. -/
def joined (fields : List String) : String :=
  ", ".intercalate (fields.mergeSort (fun a b => decide (a ≤ b)))

/-- `field` is backed by one of `capabilities`. -/
def backed (capabilities : List String) (field : String) : Bool :=
  match fieldCapabilities.find? (fun f => f.1 = field) with
  | some f => capabilities.contains f.2
  | none => false

/-- `validate_capabilities`. -/
def validateCapabilities (capabilities : List String) (state : DeviceState) :
    Except Error Unit :=
  let unsupported := (state.map Prod.fst).filter fun field => !backed capabilities field
  if unsupported.isEmpty then .ok ()
  else .error (.invalidReference ("Unsupported state fields: " ++ joined unsupported))

/-- The check of one field in `_validate_values`. -/
def validValue (field : String) (value : Json) : Bool :=
  match value with
  | .null => false
  | value =>
    (!booleanFields.contains field || (Json.asBool (some value)).isSome) &&
      match integerRanges.find? (fun f => f.1 = field) with
      | none => true
      | some f =>
        match value with
        | .int n => f.2.1 ≤ n ∧ n ≤ f.2.2
        | _ => false

/-- `_validate_values`. -/
def validateValues (state : DeviceState) : Except Error Unit :=
  match state.find? fun m => !validValue m.1 m.2 with
  | some m => .error (.invalidReference ("Invalid value for state field: " ++ m.1))
  | none => .ok ()

/-- `validate_command`. -/
def validateCommand (capabilities : List String) (state : DeviceState) : Except Error Unit := do
  validateCapabilities capabilities state
  validateValues state
  let readOnly := (state.map Prod.fst).filter readOnlyFields.contains
  if !readOnly.isEmpty then
    .error (.invalidReference ("Read-only state fields: " ++ joined readOnly))
  else if state.isEmpty then
    .error (.invalidReference "Command state must not be empty")
  else .ok ()

/-- `validate_report` -/
def validateReport (capabilities : List String) (state : DeviceState) : Except Error Unit := do
  validateCapabilities capabilities state
  validateValues state

end KzHome.StateValidator

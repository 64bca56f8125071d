import KzHome.Automations
import KzHome.Lib.PyText

/-!
# KzHome.AutomationSchemas

Automation rules as `AutomationCreate`, `AutomationUpdate` and `AutomationRead` see them.

A model remembers which of its optional fields were supplied. `dump` writes all of them;
`dumpSupplied` (`exclude_unset`, `exclude_none`) leaves out the others, and those that are `None`.
An entry of a plain dict is no field: a `None` in a device state or inside a value stays. Rows hold
what was dumped, in the shape of today or in an older one, which the validators migrate.

**What is dumped is read back** (`Trigger.holds`, `Condition.holds`, `Action.holds`, and `parse` of
each), **unless it is the supplied fields, with a null value among them** (`parseTrigger_null`,
`parseCondition_null`).
-/

namespace KzHome.Schemas

open StateValidator (DeviceState)
open Json (member)

/-! ### Models -/

/-- `Field(min_length=lo, max_length=hi)` -/
abbrev Text (lo hi : Nat) := { s : String // lo ≤ s.length ∧ s.length ≤ hi }

/-- `AutomationTrigger` and `DeviceStateCondition`, with whether `type` and `operator` were
supplied. -/
structure Trigger where
  type : Bool
  deviceId : Text 1 64
  field : Text 1 64
  operator : Option Operator
  value : Json

/-- `AutomationCondition` -/
inductive Condition
  | deviceState (condition : Trigger)
  | time (after before : TimeOfDay)

/-- `AutomationAction`, with whether the `type` of a device action was supplied. -/
inductive Action
  | deviceState (type : Bool) (deviceId : Text 1 64) (state : { s : DeviceState // s.length ≤ 32 })
  | delay (seconds : { q : Rat // 0 < q ∧ q ≤ 86400 })

/-- `AutomationCreate`, and `AutomationRead` without its times. -/
structure Rule where
  id : Text 1 64
  name : Text 1 255
  houseId : String
  enabled : Bool
  trigger : Trigger
  conditions : { cs : List Condition // cs.length ≤ 50 }
  actions : { as : List Action // 1 ≤ as.length ∧ as.length ≤ 100 }

/-- `AutomationUpdate`; a field that is not supplied and one that is `None` are dropped alike. -/
structure Update where
  name : Option (Text 1 255)
  houseId : Option String
  enabled : Option Bool
  trigger : Option Trigger
  conditions : Option (List Condition)
  actions : Option { as : List Action // 1 ≤ as.length ∧ as.length ≤ 100 }

def Trigger.plain (t : Trigger) : AutomationTrigger where
  deviceId := t.deviceId
  field := t.field
  operator := t.operator.getD .eq
  value := t.value

def Condition.plain : Condition → AutomationCondition
  | .deviceState c => .deviceState c.plain
  | .time after before => .time after before

def Action.plain : Action → AutomationAction
  | .deviceState _ deviceId state => .deviceState deviceId state
  | .delay seconds => .delay seconds

def Rule.plain (rule : Rule) : AutomationRule where
  id := rule.id
  name := rule.name
  houseId := rule.houseId
  enabled := rule.enabled
  trigger := rule.trigger.plain
  conditions := rule.conditions.1.map Condition.plain
  actions := rule.actions.1.map Action.plain

/-! ### `model_dump` -/

/-- A field of a model, and whether it was supplied. -/
structure Field where
  name : String
  supplied : Bool := true
  value : Json

def isNull : Json → Bool
  | .null => true
  | _ => false

/-- The fields that are kept, as a dict. -/
def dict (keep : Field → Bool) (fields : List Field) : List (String × Json) :=
  (fields.filter keep).map fun f => (f.name, f.value)

/-- `model_dump()` -/
def dump (fields : List Field) : Json := .obj (dict (fun _ => true) fields)

/-- `model_dump(exclude_unset=True, exclude_none=True)` -/
def dumpSupplied (fields : List Field) : Json :=
  .obj (dict (fun f => f.supplied && !isNull f.value) fields)

def operatorText : Operator → String
  | .eq => "eq"
  | .neq => "neq"
  | .gt => "gt"
  | .gte => "gte"
  | .lt => "lt"
  | .lte => "lte"

/-- `f"{n:02d}"` of a number below 100. -/
def twoDigits (n : Nat) : List Char := [Char.ofNat (48 + n / 10), Char.ofNat (48 + n % 10)]

def timeText (t : TimeOfDay) : String :=
  String.ofList (twoDigits t.hour ++ ':' :: twoDigits t.minute)

def Trigger.fields (t : Trigger) : List Field :=
  [{ name := "type", supplied := t.type, value := .str "device_state" },
   { name := "device_id", value := .str t.deviceId },
   { name := "field", value := .str t.field },
   { name := "operator", supplied := t.operator.isSome,
     value := .str (operatorText (t.operator.getD .eq)) },
   { name := "value", value := t.value }]

def Condition.fields : Condition → List Field
  | .deviceState c => c.fields
  | .time after before =>
    [{ name := "type", value := .str "time" }, { name := "after", value := .str (timeText after) },
     { name := "before", value := .str (timeText before) }]

def Action.fields : Action → List Field
  | .deviceState type deviceId state =>
    [{ name := "type", supplied := type, value := .str "device_state" },
     { name := "device_id", value := .str deviceId }, { name := "state", value := .obj state }]
  | .delay seconds =>
    [{ name := "type", value := .str "delay" }, { name := "seconds", value := .float seconds }]

/-! ### `model_validate` -/

/-- A text within its bounds. -/
def text (lo hi : Nat) (s : String) : Option (Text lo hi) :=
  if h : lo ≤ s.length ∧ s.length ≤ hi then some ⟨s, h⟩ else none

/-- A field that is such a text. -/
def textField (lo hi : Nat) : Option Json → Option (Text lo hi)
  | some (.str s) => text lo hi s
  | _ => none

/-- A field of one literal, which is its default: whether it was supplied. -/
def literalField (word : String) : Option Json → Option Bool
  | none => some false
  | some (.str s) => if s = word then some true else none
  | some _ => none

/-- `operator: Operator = "eq"` -/
def operatorField : Option Json → Option (Option Operator)
  | none => some none
  | some (.str s) =>
    ([.eq, .neq, .gt, .gte, .lt, .lte].find? fun op => operatorText op = s).map some
  | some _ => none

/-- `d[key] = v` -/
def assign (d : List (String × Json)) (key : String) (v : Json) : List (String × Json) :=
  if key ∈ d.map Prod.fst then d.map fun m => if m.1 = key then (key, v) else m
  else d ++ [(key, v)]

/-- `d.setdefault(key, v)` -/
def setDefault (d : List (String × Json)) (key : String) (v : Json) : List (String × Json) :=
  if key ∈ d.map Prod.fst then d else d ++ [(key, v)]

/-- `migrate_equals` -/
def migrateEquals (data : List (String × Json)) : List (String × Json) :=
  match member data "equals" with
  | some v => assign (data.filter fun m => m.1 ≠ "equals") "value" v
  | none => data

/-- `{"type": "device_state", **value}` of a dict without a type. -/
def typed (data : List (String × Json)) : List (String × Json) :=
  if (member data "type").isNone then ("type", .str "device_state") :: data else data

/-- `AutomationTrigger.model_validate` -/
def parseTrigger : Json → Option Trigger
  | .obj data => do
    let data := migrateEquals data
    let type ← literalField "device_state" (member data "type")
    let deviceId ← textField 1 64 (member data "device_id")
    let field ← textField 1 64 (member data "field")
    let operator ← operatorField (member data "operator")
    let value ← member data "value"
    return { type, deviceId, field, operator, value }
  | _ => none

/-- `int` of a text for which `isdigit` holds; it takes at most 4300 digits. -/
def digits (part : List Char) : Option Nat :=
  if part = [] ∨ 4300 < part.length then none
  else part.foldl (fun n c => do return 10 * (← n) + (← PyText.decimal? c)) (some 0)

/-- `valid_time` -/
def validTime (value : String) : Option TimeOfDay :=
  match value.toList.splitOn ':' with
  | [hour, minute] => do
    let hour ← digits hour
    let minute ← digits minute
    if h : hour < 24 ∧ minute < 60 then some ⟨⟨hour, h.1⟩, ⟨minute, h.2⟩⟩ else none
  | _ => none

def timeField : Option Json → Option TimeOfDay
  | some (.str s) => validTime s
  | _ => none

/-- `TimeCondition.model_validate` -/
def parseTime : Json → Option Condition
  | .obj data => do
    let supplied ← literalField "time" (member data "type")
    if supplied then
      return .time (← timeField (member data "after")) (← timeField (member data "before"))
    else none
  | _ => none

/-- `DeviceStateCondition | TimeCondition`: no value is both. -/
def parseCondition (data : Json) : Option Condition :=
  (parseTrigger data).map .deviceState <|> parseTime data

section
-- `floatText` reads a number that is written as a text
variable (floatText : String → Option Rat)

/-- `seconds: float = Field(gt=0, le=86400)` -/
def secondsField (value : Option Json) : Option { q : Rat // 0 < q ∧ q ≤ 86400 } := do
  let q ← match value with
    | some (.str s) => floatText s
    | some v => Json.number v
    | none => none
  if h : 0 < q ∧ q ≤ 86400 then some ⟨q, h⟩ else none

/-- `state: DeviceState`, with `state_size`. -/
def stateField : Option Json → Option { s : DeviceState // s.length ≤ 32 }
  | some (.obj state) => if h : state.length ≤ 32 then some ⟨state, h⟩ else none
  | _ => none

/-- `DeviceAction.model_validate` -/
def parseDeviceAction : Json → Option Action
  | .obj data => do
    let type ← literalField "device_state" (member data "type")
    let deviceId ← textField 1 64 (member data "device_id")
    let state ← stateField (member data "state")
    return .deviceState type deviceId state
  | _ => none

/-- `DelayAction.model_validate` -/
def parseDelay : Json → Option Action
  | .obj data => do
    let supplied ← literalField "delay" (member data "type")
    if supplied then return .delay (← secondsField floatText (member data "seconds")) else none
  | _ => none

/-- `DeviceAction | DelayAction`: no value is both. -/
def parseAction (data : Json) : Option Action :=
  parseDeviceAction data <|> parseDelay floatText data

end

/-! ### Dicts -/

theorem dict_keys_nodup (keep : Field → Bool) {fields : List Field}
    (hnames : (fields.map Field.name).Nodup) : ((dict keep fields).map Prod.fst).Nodup := by
  rw [dict, List.map_map]
  exact (List.filter_sublist.map _).nodup hnames

theorem member_dict_none {keep : Field → Bool} {fields : List Field} {key : String}
    (hkey : key ∉ fields.map Field.name) : member (dict keep fields) key = none := by
  rw [Json.member_eq_none, dict, List.map_map]
  exact fun hmem => hkey ((List.filter_sublist.map _).subset hmem)

/-- A field is in the dict if it is kept. -/
theorem member_dict {keep : Field → Bool} {fields : List Field}
    (hnames : (fields.map Field.name).Nodup) {f : Field} (hf : f ∈ fields) :
    member (dict keep fields) f.name = if keep f then some f.value else none := by
  split
  · rename_i hkeep
    have hmem : (f.name, f.value) ∈ dict keep fields :=
      List.mem_map.mpr ⟨f, List.mem_filter.mpr ⟨hf, hkeep⟩, rfl⟩
    exact Json.member_of_mem (dict_keys_nodup keep hnames) hmem
  · rename_i hkeep
    rw [Json.member_eq_none, dict, List.map_map]
    intro hmem
    obtain ⟨g, hg, hname⟩ := List.mem_map.mp hmem
    obtain ⟨hg, hkept⟩ := List.mem_filter.mp hg
    have heq : g = f := List.inj_on_of_nodup_map hnames hg hf hname
    exact hkeep (heq ▸ hkept)

/-! ### Reading a trigger -/

theorem textField_str {lo hi : Nat} (s : Text lo hi) :
    textField lo hi (some (.str s)) = some s := by
  rw [textField, text, dif_pos s.2]

theorem operatorField_text (op : Operator) :
    operatorField (some (.str (operatorText op))) = some (some op) := by
  cases op with
  | eq => rfl
  | neq => rfl
  | gt => rfl
  | gte => rfl
  | lt => rfl
  | lte => rfl

/-- What stands in a dict that says `t`, with `v` for its value. -/
structure Holds (data : List (String × Json)) (t : Trigger) (v : Json) : Prop where
  equals : member data "equals" = none
  type : member data "type" = none ∨ member data "type" = some (.str "device_state")
  deviceId : member data "device_id" = some (.str t.deviceId)
  field : member data "field" = some (.str t.field)
  operator : (member data "operator" = none ∧ t.operator.getD .eq = .eq) ∨
    member data "operator" = some (.str (operatorText (t.operator.getD .eq)))
  value : member data "value" = some v

theorem Holds.parse {data : List (String × Json)} {t : Trigger} {v : Json} (h : Holds data t v) :
    ∃ t', parseTrigger (.obj data) = some t' ∧ t'.plain = { t.plain with value := v } := by
  have hmigrate : migrateEquals data = data := by rw [migrateEquals, h.equals]
  have htype : ∃ b, literalField "device_state" (member data "type") = some b := by
    rcases h.type with htype | htype
    · exact ⟨false, by rw [htype]; rfl⟩
    · exact ⟨true, by rw [htype]; rfl⟩
  have hoperator : ∃ op, operatorField (member data "operator") = some op ∧
      op.getD .eq = t.operator.getD .eq := by
    rcases h.operator with ⟨hnone, heq⟩ | hsome
    · exact ⟨none, by rw [hnone]; rfl, heq.symm⟩
    · exact ⟨some (t.operator.getD .eq), by rw [hsome, operatorField_text], rfl⟩
  obtain ⟨b, htype⟩ := htype
  obtain ⟨op, hop, heq⟩ := hoperator
  refine ⟨{ type := b, deviceId := t.deviceId, field := t.field, operator := op, value := v },
    ?_, ?_⟩
  · simp only [parseTrigger, hmigrate, htype, h.deviceId, h.field, hop, h.value, textField_str,
      Option.bind_eq_bind, Option.bind_some]
    rfl
  · simp only [Trigger.plain, heq]

theorem parseTrigger_valueless {data : List (String × Json)} (hequals : member data "equals" = none)
    (hvalue : member data "value" = none) : parseTrigger (.obj data) = none := by
  have hmigrate : migrateEquals data = data := by rw [migrateEquals, hequals]
  simp only [parseTrigger, hmigrate, hvalue]
  cases literalField "device_state" (member data "type") with
  | none => rfl
  | some _ =>
      cases textField 1 64 (member data "device_id") with
      | none => rfl
      | some _ =>
          cases textField 1 64 (member data "field") with
          | none => rfl
          | some _ =>
              cases operatorField (member data "operator") with
              | none => rfl
              | some _ => rfl

theorem Trigger.names_nodup (t : Trigger) : (t.fields.map Field.name).Nodup := by
  simp [Trigger.fields]

theorem Trigger.member_equals (t : Trigger) (keep : Field → Bool) :
    member (dict keep t.fields) "equals" = none :=
  member_dict_none (by simp [Trigger.fields])

/-- A dump that keeps all fields which must be there. -/
theorem Trigger.holds (t : Trigger) {keep : Field → Bool}
    (hkeep : ∀ f ∈ t.fields, keep f = true ∨ f.supplied = false) :
    Holds (dict keep t.fields) t t.value := by
  have hmember : ∀ f ∈ t.fields, member (dict keep t.fields) f.name =
      if keep f then some f.value else none := fun f hf => member_dict t.names_nodup hf
  have hkept : ∀ f ∈ t.fields, f.supplied = true →
      member (dict keep t.fields) f.name = some f.value := by
    intro f hf hsupplied
    rcases hkeep f hf with hkeep | hnot
    · rw [hmember f hf, if_pos hkeep]
    · rw [hsupplied] at hnot
      cases hnot
  constructor
  case equals => exact t.member_equals keep
  case type =>
    have htype := hmember { name := "type", supplied := t.type, value := .str "device_state" }
      (by simp [Trigger.fields])
    rw [htype]
    split
    · exact .inr rfl
    · exact .inl rfl
  case deviceId =>
    exact hkept { name := "device_id", value := .str t.deviceId } (by simp [Trigger.fields]) rfl
  case field =>
    exact hkept { name := "field", value := .str t.field } (by simp [Trigger.fields]) rfl
  case operator =>
    have hmem : (⟨"operator", t.operator.isSome, .str (operatorText (t.operator.getD .eq))⟩ : Field)
        ∈ t.fields := by simp [Trigger.fields]
    rw [hmember _ hmem]
    split
    · exact .inr rfl
    · rename_i hdropped
      rcases hkeep _ hmem with hkeep | hunset
      · exact absurd hkeep hdropped
      · refine .inl ⟨rfl, ?_⟩
        rw [Option.isSome_eq_false_iff, Option.isNone_iff_eq_none] at hunset
        rw [hunset]
        rfl
  case value =>
    exact hkept { name := "value", value := t.value } (by simp [Trigger.fields]) rfl

theorem keep_all (fields : List Field) :
    ∀ f ∈ fields, (fun _ : Field => true) f = true ∨ f.supplied = false := fun _ _ => .inl rfl

theorem Trigger.keep_supplied {t : Trigger} (h : isNull t.value = false) :
    ∀ f ∈ t.fields, (f.supplied && !isNull f.value) = true ∨ f.supplied = false := by
  intro f hf
  have hvalue : isNull f.value = false := by
    simp only [Trigger.fields, List.mem_cons, List.not_mem_nil, or_false] at hf
    rcases hf with rfl | rfl | rfl | rfl | rfl
    · rfl
    · rfl
    · rfl
    · rfl
    · exact h
  cases hs : f.supplied with
  | true => exact .inl (by rw [hvalue]; rfl)
  | false => exact .inr rfl

/-- What is dumped is read back. -/
theorem parseTrigger_dump (t : Trigger) :
    ∃ t', parseTrigger (dump t.fields) = some t' ∧ t'.plain = t.plain :=
  (t.holds (keep_all t.fields)).parse

theorem parseTrigger_supplied {t : Trigger} (h : isNull t.value = false) :
    ∃ t', parseTrigger (dumpSupplied t.fields) = some t' ∧ t'.plain = t.plain :=
  (t.holds (Trigger.keep_supplied h)).parse

theorem Trigger.member_value_null {t : Trigger} (h : isNull t.value = true) :
    member (dict (fun f => f.supplied && !isNull f.value) t.fields) "value" = none := by
  have hmem : (⟨"value", true, t.value⟩ : Field) ∈ t.fields := by simp [Trigger.fields]
  rw [member_dict t.names_nodup hmem, h]
  rfl

/-- **A null value that is supplied is not dumped**, and without a value there is no trigger. -/
theorem parseTrigger_null {t : Trigger} (h : isNull t.value = true) :
    parseTrigger (dumpSupplied t.fields) = none :=
  parseTrigger_valueless (t.member_equals _) (Trigger.member_value_null h)

/-! ### Reading a condition -/

theorem member_typed {key : String} (hkey : key ≠ "type") (data : List (String × Json)) :
    member (typed data) key = member data key := by
  unfold typed
  split
  · simp [member, hkey.symm]
  · rfl

theorem member_typed_type (data : List (String × Json)) :
    member (typed data) "type" = some ((member data "type").getD (.str "device_state")) := by
  unfold typed
  cases htype : member data "type" with
  | none => simp [member]
  | some v => simpa using htype

theorem Holds.typed {data : List (String × Json)} {t : Trigger} {v : Json} (h : Holds data t v) :
    Holds (typed data) t v where
  equals := by rw [member_typed (by decide), h.equals]
  type := by
    right
    rw [member_typed_type]
    rcases h.type with htype | htype
    · rw [htype]; rfl
    · rw [htype]; rfl
  deviceId := by rw [member_typed (by decide), h.deviceId]
  field := by rw [member_typed (by decide), h.field]
  operator := by rw [member_typed (by decide)]; exact h.operator
  value := by rw [member_typed (by decide), h.value]

/-- What stands in a dict that says a time condition. -/
structure HoldsTime (data : List (String × Json)) (after before : TimeOfDay) : Prop where
  equals : member data "equals" = none
  type : member data "type" = some (.str "time")
  after : member data "after" = some (.str (timeText after))
  before : member data "before" = some (.str (timeText before))

theorem digits_hour (hour : Fin 24) : digits (twoDigits hour) = some hour.val := by
  revert hour
  decide +kernel

theorem digits_minute (minute : Fin 60) : digits (twoDigits minute) = some minute.val := by
  revert minute
  decide +kernel

theorem twoDigits_plain {n : Nat} (h : n < 100) : ':' ∉ twoDigits n := by
  have hall : ∀ n : Fin 100, ':' ∉ twoDigits n := by decide +kernel
  exact hall ⟨n, h⟩

theorem validTime_text (t : TimeOfDay) : validTime (timeText t) = some t := by
  have hhour : ':' ∉ twoDigits t.hour := twoDigits_plain (by omega)
  have hminute : ':' ∉ twoDigits t.minute := twoDigits_plain (by omega)
  have hparts : (timeText t).toList.splitOn ':' = [twoDigits t.hour, twoDigits t.minute] := by
    rw [timeText, String.toList_ofList, List.splitOn_append_cons_self,
      List.splitOn_eq_singleton hhour, List.splitOn_eq_singleton hminute]
    rfl
  simp only [validTime, hparts, digits_hour, digits_minute, Option.bind_eq_bind, Option.bind_some]
  rw [dif_pos ⟨t.hour.isLt, t.minute.isLt⟩]

theorem parseTrigger_time {data : List (String × Json)} (hequals : member data "equals" = none)
    (htype : member data "type" = some (.str "time")) : parseTrigger (.obj data) = none := by
  have hmigrate : migrateEquals data = data := by rw [migrateEquals, hequals]
  simp only [parseTrigger, hmigrate, htype]
  rfl

theorem HoldsTime.parse {data : List (String × Json)} {after before : TimeOfDay}
    (h : HoldsTime data after before) :
    parseCondition (.obj data) = some (.time after before) := by
  rw [parseCondition, parseTrigger_time h.equals h.type]
  simp only [parseTime, h.type, h.after, h.before, timeField, validTime_text]
  rfl

theorem HoldsTime.typed {data : List (String × Json)} {after before : TimeOfDay}
    (h : HoldsTime data after before) : HoldsTime (typed data) after before where
  equals := by rw [member_typed (by decide), h.equals]
  type := by rw [member_typed_type, h.type]; rfl
  after := by rw [member_typed (by decide), h.after]
  before := by rw [member_typed (by decide), h.before]

/-- What stands in a dict that says a condition, with `v` for its value if it has one. -/
def HoldsCondition (data : List (String × Json)) (v : Json) : Condition → Prop
  | .deviceState c => Holds data c v
  | .time after before => HoldsTime data after before

/-- The value of a condition. -/
def Condition.value : Condition → Json
  | .deviceState c => c.value
  | .time _ _ => .bool true

def withValue (v : Json) : AutomationCondition → AutomationCondition
  | .deviceState c => .deviceState { c with value := v }
  | .time after before => .time after before

theorem HoldsCondition.parse {data : List (String × Json)} {v : Json} {c : Condition}
    (h : HoldsCondition data v c) :
    ∃ c', parseCondition (.obj data) = some c' ∧ c'.plain = withValue v c.plain := by
  cases c with
  | deviceState t =>
      obtain ⟨t', hparse, hplain⟩ := Holds.parse h
      refine ⟨.deviceState t', by rw [parseCondition, hparse]; rfl, ?_⟩
      simp only [Condition.plain, withValue, hplain]
  | time after before => exact ⟨.time after before, HoldsTime.parse h, rfl⟩

theorem HoldsCondition.typed {data : List (String × Json)} {v : Json} {c : Condition}
    (h : HoldsCondition data v c) : HoldsCondition (typed data) v c := by
  cases c with
  | deviceState t => exact Holds.typed h
  | time after before => exact HoldsTime.typed h

theorem Condition.holds (c : Condition) {keep : Field → Bool}
    (hkeep : ∀ f ∈ c.fields, keep f = true ∨ f.supplied = false) :
    HoldsCondition (dict keep c.fields) c.value c := by
  cases c with
  | deviceState t => exact t.holds hkeep
  | time after before =>
      have hkept : ∀ f ∈ (Condition.time after before).fields,
          member (dict keep (Condition.time after before).fields) f.name = some f.value := by
        intro f hf
        have hnames : ((Condition.time after before).fields.map Field.name).Nodup := by
          simp [Condition.fields]
        rw [member_dict hnames hf]
        rcases hkeep f hf with hkeep | hunset
        · rw [if_pos hkeep]
        · simp only [Condition.fields, List.mem_cons, List.not_mem_nil, or_false] at hf
          rcases hf with rfl | rfl | rfl
          · cases hunset
          · cases hunset
          · cases hunset
      constructor
      case equals => exact member_dict_none (by simp [Condition.fields])
      case type => exact hkept ⟨"type", true, .str "time"⟩ (by simp [Condition.fields])
      case after => exact hkept ⟨"after", true, .str (timeText after)⟩ (by simp [Condition.fields])
      case before =>
        exact hkept ⟨"before", true, .str (timeText before)⟩ (by simp [Condition.fields])

theorem Condition.keep_supplied {c : Condition} (h : isNull c.value = false) :
    ∀ f ∈ c.fields, (f.supplied && !isNull f.value) = true ∨ f.supplied = false := by
  cases c with
  | deviceState t => exact Trigger.keep_supplied h
  | time after before =>
      intro f hf
      simp only [Condition.fields, List.mem_cons, List.not_mem_nil, or_false] at hf
      rcases hf with rfl | rfl | rfl
      · exact .inl rfl
      · exact .inl rfl
      · exact .inl rfl

theorem withValue_self (c : Condition) : withValue c.value c.plain = c.plain := by
  cases c with
  | deviceState t => rfl
  | time after before => rfl

/-- A device condition with a null value is dumped without it, and is no condition then. -/
theorem parseCondition_null {c : Condition} (h : isNull c.value = true) :
    parseCondition (.obj (typed (dict (fun f => f.supplied && !isNull f.value) c.fields))) =
      none := by
  cases c with
  | time after before => cases h
  | deviceState t =>
      have hequals := t.member_equals fun f => f.supplied && !isNull f.value
      have hvalue := Trigger.member_value_null h
      rw [parseCondition, Condition.fields, parseTrigger_valueless
        ((member_typed (by decide) _).trans hequals) ((member_typed (by decide) _).trans hvalue)]
      simp only [parseTime, member_typed_type]
      have hmem : (⟨"type", t.type, .str "device_state"⟩ : Field) ∈ t.fields := by
        simp [Trigger.fields]
      have htype := @member_dict (fun f => f.supplied && !isNull f.value) _ t.names_nodup _ hmem
      rw [htype]
      split
      · rfl
      · rfl

/-! ### Reading an action -/

section
variable {floatText : String → Option Rat}

/-- What stands in a dict that says an action, with `state` for its state if it has one. -/
def HoldsAction (data : List (String × Json)) (state : DeviceState) : Action → Prop
  | .deviceState _ deviceId _ =>
    (member data "type" = none ∨ member data "type" = some (.str "device_state")) ∧
      member data "device_id" = some (.str deviceId) ∧ member data "state" = some (.obj state)
  | .delay seconds => member data "type" = some (.str "delay") ∧
      ∃ v, member data "seconds" = some v ∧ Json.number v = some seconds.1

def withState (state : DeviceState) : AutomationAction → AutomationAction
  | .deviceState deviceId _ => .deviceState deviceId state
  | .delay seconds => .delay seconds

theorem secondsField_number {v : Json} {q : { q : Rat // 0 < q ∧ q ≤ 86400 }}
    (h : Json.number v = some q.1) : secondsField floatText (some v) = some q := by
  have hnumber : secondsField floatText (some v) =
      (Json.number v).bind fun q => if h : 0 < q ∧ q ≤ 86400 then some ⟨q, h⟩ else none := by
    cases v with
    | str s => cases h
    | _ => rfl
  rw [hnumber, h, Option.bind_some, dif_pos q.2]

theorem HoldsAction.parse {data : List (String × Json)} {state : DeviceState} {a : Action}
    (h : HoldsAction data state a) (hlen : state.length ≤ 32) :
    ∃ a', parseAction floatText (.obj data) = some a' ∧ a'.plain = withState state a.plain := by
  cases a with
  | deviceState type deviceId old =>
      obtain ⟨htype, hdevice, hstate⟩ := h
      have htype : ∃ b, literalField "device_state" (member data "type") = some b := by
        rcases htype with htype | htype
        · exact ⟨false, by rw [htype]; rfl⟩
        · exact ⟨true, by rw [htype]; rfl⟩
      obtain ⟨b, htype⟩ := htype
      refine ⟨.deviceState b deviceId ⟨state, hlen⟩, ?_, rfl⟩
      simp only [parseAction, parseDeviceAction, htype, hdevice, hstate, textField_str, stateField,
        dif_pos hlen, Option.bind_eq_bind, Option.bind_some]
      rfl
  | delay seconds =>
      obtain ⟨htype, v, hseconds, hnumber⟩ := h
      refine ⟨.delay seconds, ?_, rfl⟩
      have hdevice : parseDeviceAction (.obj data) = none := by
        simp only [parseDeviceAction, htype]
        rfl
      simp only [parseAction, hdevice, parseDelay, htype, hseconds, secondsField_number hnumber]
      rfl

theorem HoldsAction.typed {data : List (String × Json)} {state : DeviceState} {a : Action}
    (h : HoldsAction data state a) : HoldsAction (typed data) state a := by
  cases a with
  | deviceState type deviceId old =>
      obtain ⟨htype, hdevice, hstate⟩ := h
      refine ⟨.inr ?_, ?_, ?_⟩
      · rw [member_typed_type]
        rcases htype with htype | htype
        · rw [htype]; rfl
        · rw [htype]; rfl
      · rw [member_typed (by decide), hdevice]
      · rw [member_typed (by decide), hstate]
  | delay seconds =>
      obtain ⟨htype, v, hseconds, hnumber⟩ := h
      refine ⟨?_, v, ?_, hnumber⟩
      · rw [member_typed_type, htype]
        rfl
      · rw [member_typed (by decide), hseconds]

/-- The state of a device action. -/
def Action.state : Action → DeviceState
  | .deviceState _ _ state => state
  | .delay _ => []

theorem Action.state_length (a : Action) : a.state.length ≤ 32 := by
  cases a with
  | deviceState type deviceId state => exact state.2
  | delay seconds => exact Nat.zero_le 32

theorem withState_self (a : Action) : withState a.state a.plain = a.plain := by
  cases a with
  | deviceState type deviceId state => rfl
  | delay seconds => rfl

theorem Action.names_nodup (a : Action) : (a.fields.map Field.name).Nodup := by
  cases a with
  | deviceState type deviceId state => simp [Action.fields]
  | delay seconds => simp [Action.fields]

theorem Action.holds (a : Action) {keep : Field → Bool}
    (hkeep : ∀ f ∈ a.fields, keep f = true ∨ f.supplied = false) :
    HoldsAction (dict keep a.fields) a.state a := by
  have hkept : ∀ f ∈ a.fields, f.supplied = true →
      member (dict keep a.fields) f.name = some f.value := by
    intro f hf hsupplied
    rw [member_dict a.names_nodup hf]
    rcases hkeep f hf with hkeep | hnot
    · rw [if_pos hkeep]
    · rw [hsupplied] at hnot
      cases hnot
  cases a with
  | deviceState type deviceId state =>
      refine ⟨?_, ?_, ?_⟩
      · have hmem : (⟨"type", type, .str "device_state"⟩ : Field) ∈
            (Action.deviceState type deviceId state).fields := by simp [Action.fields]
        have htype := @member_dict keep _ (Action.names_nodup _) _ hmem
        rw [htype]
        split
        · exact .inr rfl
        · exact .inl rfl
      · exact hkept ⟨"device_id", true, .str deviceId⟩ (by simp [Action.fields]) rfl
      · exact hkept ⟨"state", true, .obj state⟩ (by simp [Action.fields]) rfl
  | delay seconds =>
      refine ⟨?_, .float seconds, ?_, rfl⟩
      · exact hkept ⟨"type", true, .str "delay"⟩ (by simp [Action.fields]) rfl
      · exact hkept ⟨"seconds", true, .float seconds⟩ (by simp [Action.fields]) rfl

theorem Action.keep_supplied (a : Action) :
    ∀ f ∈ a.fields, (f.supplied && !isNull f.value) = true ∨ f.supplied = false := by
  intro f hf
  have hvalue : isNull f.value = false := by
    cases a with
    | deviceState type deviceId state =>
        simp only [Action.fields, List.mem_cons, List.not_mem_nil, or_false] at hf
        rcases hf with rfl | rfl | rfl
        · rfl
        · rfl
        · rfl
    | delay seconds =>
        simp only [Action.fields, List.mem_cons, List.not_mem_nil, or_false] at hf
        rcases hf with rfl | rfl
        · rfl
        · rfl
  cases hs : f.supplied with
  | true => exact .inl (by rw [hvalue]; rfl)
  | false => exact .inr rfl

end

end KzHome.Schemas

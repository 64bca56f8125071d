import KzHome.AutomationSchemas
import Mathlib.Data.List.Perm.Subperm

/-!
# KzHome.AutomationUpdates

`AutomationService.create` and `AutomationService.update`.

An update dumps what was supplied, puts it over a full dump of the stored rule, validates the
whole as a new rule would be, and writes what was supplied. A column whose new value is `==` to the
old one is not written.

* `create` takes null values of triggers and conditions, and they are stored.
* The dump of an update leaves them out, and what is left is no trigger or condition.
* **An update agrees with the creation of the rule that it asks for, if and only if** it supplies
  no null value, or that rule is one that `create` does not take (`update_agrees_iff`).
-/

namespace KzHome.Schemas

open StateValidator (DeviceState)
open Json (member)

/-! ### Rows -/

/-- The columns of a rule, and likewise the dict that a rule is validated from. -/
structure Content where
  id : String
  name : String
  houseId : String
  enabled : Bool
  trigger : Json
  conditions : List Json
  actions : List Json

/-- What an update supplies, dumped. -/
structure Values where
  name : Option String
  houseId : Option String
  enabled : Option Bool
  trigger : Option Json
  conditions : Option (List Json)
  actions : Option (List Json)

/-- `model_dump` -/
def Rule.dump (rule : Rule) : Content where
  id := rule.id
  name := rule.name
  houseId := rule.houseId
  enabled := rule.enabled
  trigger := Schemas.dump rule.trigger.fields
  conditions := rule.conditions.1.map fun c => Schemas.dump c.fields
  actions := rule.actions.1.map fun a => Schemas.dump a.fields

/-- `data.model_dump(exclude_unset=True, exclude_none=True)` -/
def Update.values (data : Update) : Values where
  name := data.name.map Subtype.val
  houseId := data.houseId
  enabled := data.enabled
  trigger := data.trigger.map fun t => dumpSupplied t.fields
  conditions := data.conditions.map fun cs => cs.map fun c => dumpSupplied c.fields
  actions := data.actions.map fun as => as.1.map fun a => dumpSupplied a.fields

/-- `{**content, **values}` -/
def Content.merge (content : Content) (values : Values) : Content where
  id := content.id
  name := values.name.getD content.name
  houseId := values.houseId.getD content.houseId
  enabled := values.enabled.getD content.enabled
  trigger := values.trigger.getD content.trigger
  conditions := values.conditions.getD content.conditions
  actions := values.actions.getD content.actions

/-- The row after `setattr` of the values and a commit. -/
def Content.write (row : Content) (values : Values) : Content where
  id := row.id
  name := values.name.getD row.name
  houseId := values.houseId.getD row.houseId
  enabled := values.enabled.getD row.enabled
  trigger := ((values.trigger.filter fun v => !Json.pyEq v row.trigger)).getD row.trigger
  conditions :=
    ((values.conditions.filter fun v => !Json.pyEqItems v row.conditions)).getD row.conditions
  actions := ((values.actions.filter fun v => !Json.pyEqItems v row.actions)).getD row.actions

/-- `migrate_legacy_rule` of the trigger -/
def migrateTrigger : Json → Json
  | .obj data =>
    if (member data "equals").isSome then
      .obj (setDefault (setDefault (migrateEquals data) "operator" (.str "eq"))
        "type" (.str "device_state"))
    else .obj data
  | data => data

/-- `migrate_legacy_rule` of a condition or an action -/
def migrateItem : Json → Json
  | .obj data => .obj (typed data)
  | data => data

def migrateLegacyRule (data : Content) : Content :=
  { data with
    trigger := migrateTrigger data.trigger
    conditions := data.conditions.map migrateItem
    actions := data.actions.map migrateItem }

section
-- `floatText` reads a number that is written as a text
variable (floatText : String → Option Rat)

/-- `AutomationRead.model_validate` of a row, which is no dict to `migrate_legacy_rule`. -/
def Content.read (row : Content) : Option Rule := do
  let id ← text 1 64 row.id
  let name ← text 1 255 row.name
  let trigger ← parseTrigger row.trigger
  let conditions ← row.conditions.mapM parseCondition
  let actions ← row.actions.mapM (parseAction floatText)
  if h : conditions.length ≤ 50 ∧ 1 ≤ actions.length ∧ actions.length ≤ 100 then
    some { id, name, houseId := row.houseId, enabled := row.enabled, trigger,
           conditions := ⟨conditions, h.1⟩, actions := ⟨actions, h.2⟩ }
  else none

/-- `AutomationCreate.model_validate` of a dict -/
def Content.validate (data : Content) : Option Rule := (migrateLegacyRule data).read floatText

/-! ### The service -/

/-- `AutomationRead.model_validate` of what a repository returned. -/
def readBack (row : Content) : Except Error Rule :=
  match row.read floatText with
  | some rule => .ok rule
  | none => .error (.other "ValidationError")

/-- `get` -/
def get (rows : List Content) (id : String) : Except Error Rule :=
  match rows.find? fun row => row.id = id with
  | none => .error (.notFound "AutomationORM not found")
  | some row => readBack floatText row

variable (houses : List String) (r : Registry)

/-- `create` -/
def create (rows : List Content) (data : Rule) : Except Error Rule × List Content :=
  match data.plain.validate houses r with
  | .error e => (.error e, rows)
  | .ok () =>
    if rows.any fun row => row.id = data.id then
      (.error (.conflict "Entity already exists or conflicts with related data"), rows)
    else (readBack floatText data.dump, rows ++ [data.dump])

/-- `update` -/
def update (rows : List Content) (id : String) (data : Update) :
    Except Error Rule × List Content :=
  match get floatText rows id with
  | .error e => (.error e, rows)
  | .ok current =>
    match (current.dump.merge data.values).validate floatText with
    | none => (.error (.other "ValidationError"), rows)
    | some candidate =>
      match candidate.plain.validate houses r with
      | .error e => (.error e, rows)
      | .ok () =>
        let rows' := rows.map fun row => if row.id = id then row.write data.values else row
        (get floatText rows' id, rows')

/-! ### The law -/

/-- The stored rule with each supplied field replaced. -/
def Rule.overlay (stored : Rule) (data : Update) : AutomationRule where
  id := stored.id
  name := (data.name.getD stored.name).1
  houseId := data.houseId.getD stored.houseId
  enabled := data.enabled.getD stored.enabled
  trigger := (data.trigger.getD stored.trigger).plain
  conditions := (data.conditions.getD stored.conditions.1).map Condition.plain
  actions := (data.actions.getD stored.actions).1.map Action.plain

/-- A value, or one that is `==` to it. -/
def Equal (a b : Json) : Prop := a = b ∨ Json.pyEq a b = true

/-- The same trigger, up to `==`. -/
structure EqualTrigger (a b : AutomationTrigger) : Prop where
  deviceId : a.deviceId = b.deviceId
  field : a.field = b.field
  operator : a.operator = b.operator
  value : Equal a.value b.value

inductive EqualCondition : AutomationCondition → AutomationCondition → Prop
  | deviceState {a b : AutomationTrigger} (h : EqualTrigger a b) :
    EqualCondition (.deviceState a) (.deviceState b)
  | time (after before : TimeOfDay) : EqualCondition (.time after before) (.time after before)

inductive EqualAction : AutomationAction → AutomationAction → Prop
  | deviceState (deviceId : String) {a b : DeviceState} (h : Equal (.obj a) (.obj b)) :
    EqualAction (.deviceState deviceId a) (.deviceState deviceId b)
  | delay (seconds : Rat) : EqualAction (.delay seconds) (.delay seconds)

/-- The same rule, up to `==`. -/
structure EqualRule (a b : AutomationRule) : Prop where
  id : a.id = b.id
  name : a.name = b.name
  houseId : a.houseId = b.houseId
  enabled : a.enabled = b.enabled
  trigger : EqualTrigger a.trigger b.trigger
  conditions : List.Forall₂ EqualCondition a.conditions b.conditions
  actions : List.Forall₂ EqualAction a.actions b.actions

/-- `create` takes a rule with that content, where there is none of its id. -/
def Creatable (rows : List Content) (content : AutomationRule) : Prop :=
  ∃ data : Rule, data.plain = content ∧ ∃ rule,
    (create floatText houses r (rows.filter fun row => row.id ≠ content.id) data).1 = .ok rule

/-- The update of a stored rule agrees with the creation of the rule that it asks for. -/
structure Agrees (rows : List Content) (stored : Rule) (data : Update) : Prop where
  accepts : Creatable floatText houses r rows (stored.overlay data) → ∃ rule,
    (update floatText houses r rows stored.id data).1 = .ok rule ∧
    get floatText (update floatText houses r rows stored.id data).2 stored.id = .ok rule ∧
    EqualRule (stored.overlay data) rule.plain
  rejects : ¬ Creatable floatText houses r rows (stored.overlay data) →
    (∃ e, (update floatText houses r rows stored.id data).1 = .error e) ∧
    (update floatText houses r rows stored.id data).2 = rows

end

/-- A trigger or a device condition is supplied with a null value. -/
def Update.Null (data : Update) : Prop :=
  (∃ t ∈ data.trigger, isNull t.value = true) ∨
    ∃ cs ∈ data.conditions, ∃ c ∈ cs, isNull c.value = true

/-! ### What `==` keeps -/

theorem pyEq_str {s : String} {w : Json} (h : Json.pyEq (.str s) w = true) : w = .str s := by
  cases w with
  | str t =>
      rw [Json.pyEq, beq_iff_eq] at h
      rw [h]
  | _ => simp [Json.pyEq] at h

theorem pyEqMembers_mem {xs ys : List (String × Json)} (h : Json.pyEqMembers xs ys = true)
    {m : String × Json} (hm : m ∈ xs) :
    ∃ y, member ys m.1 = some y ∧ Json.pyEq m.2 y = true := by
  induction xs with
  | nil => cases hm
  | cons x xs ih =>
      rw [Json.pyEqMembers, Bool.and_eq_true] at h
      rcases List.mem_cons.mp hm with rfl | hm
      · cases hy : member ys m.1 with
        | none =>
            rw [hy] at h
            cases h.1
        | some y =>
            rw [hy] at h
            exact ⟨y, rfl, h.1⟩
      · exact ih h.2 hm

/-- Two dicts that are `==` have the same keys, and values that are `==`. -/
theorem rel_of_pyEq {new : List (String × Json)} {w : Json} (hnew : (new.map Prod.fst).Nodup)
    (h : Json.pyEq (.obj new) w = true) : ∃ old, w = .obj old ∧ ∀ key,
      Option.Rel (fun x y => Json.pyEq x y = true) (member new key) (member old key) := by
  cases w with
  | obj old =>
      rw [Json.pyEq, Bool.and_eq_true, beq_iff_eq] at h
      obtain ⟨hlen, hmembers⟩ := h
      refine ⟨old, rfl, fun key => ?_⟩
      have hsub : new.map Prod.fst ⊆ old.map Prod.fst := by
        intro k hk
        obtain ⟨m, hm, rfl⟩ := List.mem_map.mp hk
        obtain ⟨y, hy, -⟩ := pyEqMembers_mem hmembers hm
        exact List.mem_map.mpr ⟨(m.1, y), Json.mem_of_member hy, rfl⟩
      have hperm : (new.map Prod.fst).Perm (old.map Prod.fst) :=
        (List.subperm_of_subset hnew hsub).perm_of_length_le (by simp [hlen])
      cases hkey : member new key with
      | none =>
          have hnone : member old key = none := by
            rw [Json.member_eq_none] at hkey ⊢
            exact fun hmem => hkey (hperm.mem_iff.mpr hmem)
          rw [hnone]
          exact .none
      | some x =>
          obtain ⟨y, hy, heq⟩ := pyEqMembers_mem hmembers (Json.mem_of_member hkey)
          rw [hy]
          exact .some heq
  | _ => simp [Json.pyEq] at h

theorem rel_none {y : Option Json} (h : Option.Rel (fun x y => Json.pyEq x y = true) none y) :
    y = none := by
  cases h
  rfl

theorem rel_some {x : Json} {y : Option Json}
    (h : Option.Rel (fun x y => Json.pyEq x y = true) (some x) y) :
    ∃ w, y = some w ∧ Json.pyEq x w = true := by
  cases h with
  | some h => exact ⟨_, rfl, h⟩

theorem rel_str {s : String} {y : Option Json}
    (h : Option.Rel (fun x y => Json.pyEq x y = true) (some (.str s)) y) : y = some (.str s) := by
  obtain ⟨w, rfl, hw⟩ := rel_some h
  rw [pyEq_str hw]

section
variable {new old : List (String × Json)}

theorem Holds.transfer {t : Trigger} {v : Json}
    (hrel : ∀ key, Option.Rel (fun x y => Json.pyEq x y = true) (member new key) (member old key))
    (h : Holds new t v) : ∃ w, Json.pyEq v w = true ∧ Holds old t w := by
  have hvalue := hrel "value"
  rw [h.value] at hvalue
  obtain ⟨w, hw, heq⟩ := rel_some hvalue
  refine ⟨w, heq, ?_⟩
  constructor
  case equals => exact rel_none (h.equals ▸ hrel "equals")
  case type =>
    rcases h.type with htype | htype
    · exact .inl (rel_none (htype ▸ hrel "type"))
    · exact .inr (rel_str (htype ▸ hrel "type"))
  case deviceId => exact rel_str (h.deviceId ▸ hrel "device_id")
  case field => exact rel_str (h.field ▸ hrel "field")
  case operator =>
    rcases h.operator with ⟨hop, hdefault⟩ | hop
    · exact .inl ⟨rel_none (hop ▸ hrel "operator"), hdefault⟩
    · exact .inr (rel_str (hop ▸ hrel "operator"))
  case value => exact hw

theorem HoldsTime.transfer {after before : TimeOfDay}
    (hrel : ∀ key, Option.Rel (fun x y => Json.pyEq x y = true) (member new key) (member old key))
    (h : HoldsTime new after before) : HoldsTime old after before where
  equals := rel_none (h.equals ▸ hrel "equals")
  type := rel_str (h.type ▸ hrel "type")
  after := rel_str (h.after ▸ hrel "after")
  before := rel_str (h.before ▸ hrel "before")

theorem HoldsCondition.transfer {c : Condition} {v : Json}
    (hrel : ∀ key, Option.Rel (fun x y => Json.pyEq x y = true) (member new key) (member old key))
    (h : HoldsCondition new v c) : ∃ w, Equal v w ∧ HoldsCondition old w c := by
  cases c with
  | deviceState t =>
      obtain ⟨w, heq, hw⟩ := Holds.transfer hrel h
      exact ⟨w, .inr heq, hw⟩
  | time after before => exact ⟨v, .inl rfl, HoldsTime.transfer hrel h⟩

theorem HoldsAction.transfer {a : Action} {state : DeviceState}
    (hrel : ∀ key, Option.Rel (fun x y => Json.pyEq x y = true) (member new key) (member old key))
    (h : HoldsAction new state a) :
    ∃ state', Equal (.obj state) (.obj state') ∧ state'.length = state.length ∧
      HoldsAction old state' a := by
  cases a with
  | deviceState type deviceId given =>
      obtain ⟨htype, hdevice, hstate⟩ := h
      have hvalue := hrel "state"
      rw [hstate] at hvalue
      obtain ⟨w, hw, heq⟩ := rel_some hvalue
      cases w with
      | obj state' =>
          have hlen : state.length = state'.length := by
            rw [Json.pyEq, Bool.and_eq_true, beq_iff_eq] at heq
            exact heq.1
          refine ⟨state', .inr heq, hlen.symm, ?_, rel_str (hdevice ▸ hrel "device_id"), hw⟩
          rcases htype with htype | htype
          · exact .inl (rel_none (htype ▸ hrel "type"))
          · exact .inr (rel_str (htype ▸ hrel "type"))
      | _ => simp [Json.pyEq] at heq
  | delay seconds =>
      obtain ⟨htype, v, hseconds, hnumber⟩ := h
      have hvalue := hrel "seconds"
      rw [hseconds] at hvalue
      obtain ⟨w, hw, heq⟩ := rel_some hvalue
      refine ⟨state, .inl rfl, rfl, rel_str (htype ▸ hrel "type"), w, hw, ?_⟩
      cases v with
      | bool b =>
          rw [Json.pyEq, beq_iff_eq] at heq
          rw [heq, ← hnumber]
          rfl
      | int n =>
          rw [Json.pyEq, beq_iff_eq] at heq
          rw [heq, ← hnumber]
          rfl
      | float q =>
          rw [Json.pyEq, beq_iff_eq] at heq
          rw [heq, ← hnumber]
          rfl
      | null => cases hnumber
      | str s => cases hnumber
      | arr items => cases hnumber
      | obj members => cases hnumber

end

/-! ### Equality up to `==` -/

theorem EqualTrigger.refl (a : AutomationTrigger) : EqualTrigger a a :=
  ⟨rfl, rfl, rfl, .inl rfl⟩

theorem EqualCondition.refl (c : AutomationCondition) : EqualCondition c c := by
  cases c with
  | deviceState t => exact .deviceState (.refl t)
  | time after before => exact .time after before

theorem EqualAction.refl (a : AutomationAction) : EqualAction a a := by
  cases a with
  | deviceState deviceId state => exact .deviceState deviceId (.inl rfl)
  | delay seconds => exact .delay seconds

theorem equal_withValue {c : Condition} {v : Json} (h : Equal c.value v) :
    EqualCondition c.plain (withValue v c.plain) := by
  cases c with
  | deviceState t => exact .deviceState ⟨rfl, rfl, rfl, h⟩
  | time after before => exact .time after before

theorem equal_withState {a : Action} {state : DeviceState} (h : Equal (.obj a.state) (.obj state)) :
    EqualAction a.plain (withState state a.plain) := by
  cases a with
  | deviceState type deviceId given => exact .deviceState deviceId h
  | delay seconds => exact .delay seconds

/-! ### What is written is read back -/

theorem Trigger.read {t : Trigger} (h : isNull t.value = false) :
    ∃ t', parseTrigger (dumpSupplied t.fields) = some t' ∧ EqualTrigger t.plain t'.plain := by
  obtain ⟨t', hparse, hplain⟩ := parseTrigger_supplied h
  exact ⟨t', hparse, hplain ▸ .refl _⟩

theorem Trigger.read_kept {t : Trigger} (h : isNull t.value = false) {old : Json}
    (heq : Json.pyEq (dumpSupplied t.fields) old = true) :
    ∃ t', parseTrigger old = some t' ∧ EqualTrigger t.plain t'.plain := by
  obtain ⟨old, rfl, hrel⟩ := rel_of_pyEq (dict_keys_nodup _ t.names_nodup) heq
  obtain ⟨w, hw, hholds⟩ := (t.holds (Trigger.keep_supplied h)).transfer hrel
  obtain ⟨t', hparse, hplain⟩ := hholds.parse
  exact ⟨t', hparse, hplain ▸ ⟨rfl, rfl, rfl, .inr hw⟩⟩

theorem Condition.names_nodup (c : Condition) : (c.fields.map Field.name).Nodup := by
  cases c with
  | deviceState t => exact t.names_nodup
  | time after before => simp [Condition.fields]

theorem Condition.read {c : Condition} (h : isNull c.value = false) :
    ∃ c', parseCondition (dumpSupplied c.fields) = some c' ∧ EqualCondition c.plain c'.plain := by
  obtain ⟨c', hparse, hplain⟩ := (c.holds (Condition.keep_supplied h)).parse
  exact ⟨c', hparse, hplain ▸ equal_withValue (.inl rfl)⟩

theorem Condition.read_kept {c : Condition} (h : isNull c.value = false) {old : Json}
    (heq : Json.pyEq (dumpSupplied c.fields) old = true) :
    ∃ c', parseCondition old = some c' ∧ EqualCondition c.plain c'.plain := by
  obtain ⟨old, rfl, hrel⟩ := rel_of_pyEq (dict_keys_nodup _ c.names_nodup) heq
  obtain ⟨w, hw, hholds⟩ := (c.holds (Condition.keep_supplied h)).transfer hrel
  obtain ⟨c', hparse, hplain⟩ := hholds.parse
  exact ⟨c', hparse, hplain ▸ equal_withValue hw⟩

section
variable {floatText : String → Option Rat}

theorem Action.read (a : Action) :
    ∃ a', parseAction floatText (dumpSupplied a.fields) = some a' ∧
      EqualAction a.plain a'.plain := by
  obtain ⟨a', hparse, hplain⟩ := (a.holds a.keep_supplied).parse a.state_length
  exact ⟨a', hparse, hplain ▸ equal_withState (.inl rfl)⟩

theorem Action.read_kept (a : Action) {old : Json}
    (heq : Json.pyEq (dumpSupplied a.fields) old = true) :
    ∃ a', parseAction floatText old = some a' ∧ EqualAction a.plain a'.plain := by
  obtain ⟨old, rfl, hrel⟩ := rel_of_pyEq (dict_keys_nodup _ a.names_nodup) heq
  obtain ⟨state, hstate, hlen, hholds⟩ := (a.holds a.keep_supplied).transfer hrel
  obtain ⟨a', hparse, hplain⟩ := hholds.parse (hlen ▸ a.state_length)
  exact ⟨a', hparse, hplain ▸ equal_withState hstate⟩

end

/-! ### Lists of models -/

section
variable {α : Type} {d : α → Json} {f : Json → Option α} {R : α → α → Prop}

theorem mapM_cons_some {x : Json} {xs : List Json} {y : α} {ys : List α} (hx : f x = some y)
    (hxs : xs.mapM f = some ys) : (x :: xs).mapM f = some (y :: ys) := by
  rw [List.mapM_cons, hx, hxs]
  rfl

theorem mapM_none {x : Json} {xs : List Json} (hx : x ∈ xs) (h : f x = none) :
    xs.mapM f = none := by
  induction xs with
  | nil => cases hx
  | cons y xs ih =>
      rw [List.mapM_cons]
      rcases List.mem_cons.mp hx with rfl | hx
      · rw [h]
        rfl
      · rw [ih hx]
        cases f y with
        | none => rfl
        | some _ => rfl

theorem read_items {xs : List α} (h : ∀ x ∈ xs, ∃ y, f (d x) = some y ∧ R x y) :
    ∃ ys, (xs.map d).mapM f = some ys ∧ List.Forall₂ R xs ys := by
  induction xs with
  | nil => exact ⟨[], rfl, .nil⟩
  | cons x xs ih =>
      obtain ⟨y, hy, hR⟩ := h x List.mem_cons_self
      obtain ⟨ys, hys, hall⟩ := ih fun x hx => h x (List.mem_cons_of_mem _ hx)
      exact ⟨y :: ys, mapM_cons_some hy hys, .cons hR hall⟩

theorem read_kept_items {xs : List α} {old : List Json}
    (h : ∀ x ∈ xs, ∀ o, Json.pyEq (d x) o = true → ∃ y, f o = some y ∧ R x y)
    (heq : Json.pyEqItems (xs.map d) old = true) :
    ∃ ys, old.mapM f = some ys ∧ List.Forall₂ R xs ys := by
  induction xs generalizing old with
  | nil =>
      cases old with
      | nil => exact ⟨[], rfl, .nil⟩
      | cons o old => simp [Json.pyEqItems] at heq
  | cons x xs ih =>
      cases old with
      | nil => simp [Json.pyEqItems] at heq
      | cons o old =>
          rw [List.map_cons, Json.pyEqItems, Bool.and_eq_true] at heq
          obtain ⟨y, hy, hR⟩ := h x List.mem_cons_self o heq.1
          obtain ⟨ys, hys, hall⟩ := ih (fun x hx => h x (List.mem_cons_of_mem _ hx)) heq.2
          exact ⟨y :: ys, mapM_cons_some hy hys, .cons hR hall⟩

/-- A column of models after a write: what was supplied, or the old one if nothing was supplied or
the new one is `==` to it. -/
theorem read_column {old : List Json} {ys : List α} (hrefl : ∀ x, R x x)
    (hold : old.mapM f = some ys) (new : Option (List α))
    (hread : ∀ xs ∈ new, ∀ x ∈ xs, ∃ y, f (d x) = some y ∧ R x y)
    (hkept : ∀ xs ∈ new, ∀ x ∈ xs, ∀ o, Json.pyEq (d x) o = true → ∃ y, f o = some y ∧ R x y) :
    ∃ ys', (((new.map fun xs => xs.map d).filter fun v => !Json.pyEqItems v old).getD old).mapM f =
      some ys' ∧ List.Forall₂ R (new.getD ys) ys' := by
  cases new with
  | none => exact ⟨ys, hold, List.forall₂_same.mpr fun x _ => hrefl x⟩
  | some xs =>
      cases heq : Json.pyEqItems (xs.map d) old with
      | true =>
          obtain ⟨ys', hys, hall⟩ := read_kept_items (hkept xs rfl) heq
          exact ⟨ys', by simpa [Option.filter, heq] using hys, hall⟩
      | false =>
          obtain ⟨ys', hys, hall⟩ := read_items (hread xs rfl)
          exact ⟨ys', by simpa [Option.filter, heq] using hys, hall⟩

end

/-! ### The candidate -/

section
variable {floatText : String → Option Rat}

theorem text_val {lo hi : Nat} (s : Text lo hi) : text lo hi s.1 = some s := by
  rw [text, dif_pos s.2]

/-- A rule is read field by field. -/
theorem Content.read_of {row : Content} {id : Text 1 64} {name : Text 1 255} {trigger : Trigger}
    {conditions : List Condition} {actions : List Action} (hid : text 1 64 row.id = some id)
    (hname : text 1 255 row.name = some name) (htrigger : parseTrigger row.trigger = some trigger)
    (hconditions : row.conditions.mapM parseCondition = some conditions)
    (hactions : row.actions.mapM (parseAction floatText) = some actions) :
    row.read floatText =
      if h : conditions.length ≤ 50 ∧ 1 ≤ actions.length ∧ actions.length ≤ 100 then
        some { id, name, houseId := row.houseId, enabled := row.enabled, trigger,
               conditions := ⟨conditions, h.1⟩, actions := ⟨actions, h.2⟩ }
      else none := by
  simp only [Content.read, hid, hname, htrigger, hconditions, hactions, Option.bind_eq_bind,
    Option.bind_some]

/-- What was read, field by field. -/
theorem Content.of_read {row : Content} {rule : Rule} (h : row.read floatText = some rule) :
    row.id = rule.id.1 ∧ row.name = rule.name.1 ∧ row.houseId = rule.houseId ∧
      row.enabled = rule.enabled ∧ parseTrigger row.trigger = some rule.trigger ∧
      row.conditions.mapM parseCondition = some rule.conditions.1 ∧
      row.actions.mapM (parseAction floatText) = some rule.actions.1 := by
  unfold Content.read text at h
  simp only [Option.bind_eq_bind, Option.bind_eq_some_iff, Option.dite_none_right_eq_some,
    Option.some.injEq] at h
  obtain ⟨_, ⟨_, rfl⟩, _, ⟨_, rfl⟩, trigger, htrigger, conditions, hconditions, actions, hactions,
    _, rfl⟩ := h
  exact ⟨rfl, rfl, rfl, rfl, htrigger, hconditions, hactions⟩

theorem migrateTrigger_dict (t : Trigger) (keep : Field → Bool) :
    migrateTrigger (.obj (dict keep t.fields)) = .obj (dict keep t.fields) := by
  rw [migrateTrigger, t.member_equals keep]
  rfl

/-- The trigger of the candidate. -/
theorem candidate_trigger (stored : Trigger) (given : Option Trigger)
    (hnull : ∀ t ∈ given, isNull t.value = false) :
    ∃ t', parseTrigger (migrateTrigger
        ((given.map fun t => dumpSupplied t.fields).getD (dump stored.fields))) = some t' ∧
      t'.plain = (given.getD stored).plain := by
  cases given with
  | none =>
      rw [Option.map_none, Option.getD_none, dump, migrateTrigger_dict]
      exact parseTrigger_dump stored
  | some t =>
      rw [Option.map_some, Option.getD_some, dumpSupplied, migrateTrigger_dict]
      exact parseTrigger_supplied (hnull t rfl)

/-- A list of the candidate: what was supplied, or a full dump of the old one. -/
theorem candidate_items {α β : Type} {plain : α → β} {f : Json → Option α}
    {fields : α → List Field} (stored : List α) (given : Option (List α))
    (hfull : ∀ x, ∃ y, f (migrateItem (dump (fields x))) = some y ∧ plain y = plain x)
    (hgiven : ∀ xs ∈ given, ∀ x ∈ xs,
      ∃ y, f (migrateItem (dumpSupplied (fields x))) = some y ∧ plain y = plain x) :
    ∃ ys, (((given.map fun xs => xs.map fun x => dumpSupplied (fields x)).getD
        (stored.map fun x => dump (fields x))).map migrateItem).mapM f = some ys ∧
      ys.map plain = (given.getD stored).map plain := by
  have hmap : ∀ {xs ys : List α}, List.Forall₂ (fun x y => plain y = plain x) xs ys →
      ys.map plain = xs.map plain := by
    intro xs ys h
    induction h with
    | nil => rfl
    | cons h _ ih => rw [List.map_cons, List.map_cons, h, ih]
  cases given with
  | none =>
      obtain ⟨ys, hys, hall⟩ := @read_items _ _ _ (fun x y => plain y = plain x) stored
        fun x _ => hfull x
      refine ⟨ys, ?_, hmap hall⟩
      rw [Option.map_none, Option.getD_none, List.map_map]
      exact hys
  | some xs =>
      obtain ⟨ys, hys, hall⟩ := read_items (R := fun x y => plain y = plain x) (hgiven xs rfl)
      refine ⟨ys, ?_, hmap hall⟩
      rw [Option.map_some, Option.getD_some, List.map_map]
      exact hys

theorem Condition.candidate (c : Condition) {keep : Field → Bool}
    (hkeep : ∀ f ∈ c.fields, keep f = true ∨ f.supplied = false) :
    ∃ c', parseCondition (migrateItem (.obj (dict keep c.fields))) = some c' ∧
      c'.plain = c.plain := by
  obtain ⟨c', hparse, hplain⟩ := (c.holds hkeep).typed.parse
  exact ⟨c', hparse, hplain.trans (withValue_self c)⟩

theorem Action.candidate (a : Action) {keep : Field → Bool}
    (hkeep : ∀ f ∈ a.fields, keep f = true ∨ f.supplied = false) :
    ∃ a', parseAction floatText (migrateItem (.obj (dict keep a.fields))) = some a' ∧
      a'.plain = a.plain := by
  obtain ⟨a', hparse, hplain⟩ := (a.holds hkeep).typed.parse a.state_length
  exact ⟨a', hparse, hplain.trans (withState_self a)⟩

theorem getD_val {α : Type} {p : α → Prop} (given : Option { x // p x }) (stored : { x // p x }) :
    (given.map Subtype.val).getD stored.1 = (given.getD stored).1 := by
  cases given with
  | none => rfl
  | some x => rfl

theorem not_null {data : Update} (h : ¬ data.Null) :
    (∀ t ∈ data.trigger, isNull t.value = false) ∧
      ∀ cs ∈ data.conditions, ∀ c ∈ cs, isNull c.value = false := by
  rw [Update.Null, not_or, not_exists, not_exists] at h
  constructor
  · intro t ht
    simpa using fun hvalue => h.1 t ⟨ht, hvalue⟩
  · intro cs hcs c hc
    simpa using fun hvalue => h.2 cs ⟨hcs, c, hc, hvalue⟩

/-- **Without null values the candidate is the overlay**, if that has no more than 50
conditions. -/
theorem validate_merge (stored : Rule) {data : Update} (hnull : ¬ data.Null) :
    (((stored.overlay data).conditions.length ≤ 50 ∧
      ∃ c, (stored.dump.merge data.values).validate floatText = some c ∧
        c.plain = stored.overlay data) ∨
    50 < (stored.overlay data).conditions.length ∧
      (stored.dump.merge data.values).validate floatText = none) := by
  obtain ⟨htrigger, hconditions⟩ := not_null hnull
  obtain ⟨t', ht, htplain⟩ := candidate_trigger stored.trigger data.trigger htrigger
  obtain ⟨cs', hcs, hcplain⟩ := @candidate_items _ _ Condition.plain parseCondition Condition.fields
    stored.conditions.1 data.conditions (fun c => c.candidate (keep_all c.fields))
    fun cs hcs c hc => c.candidate (Condition.keep_supplied (hconditions cs hcs c hc))
  obtain ⟨as', has, haplain⟩ := @candidate_items _ _ Action.plain (parseAction floatText)
    Action.fields stored.actions.1 (data.actions.map Subtype.val) (fun a => a.candidate (keep_all a.fields))
    fun as _ a _ => a.candidate a.keep_supplied
  rw [getD_val] at haplain
  rw [Option.map_map] at has
  have hname : text 1 255 (stored.dump.merge data.values).name =
      some (data.name.getD stored.name) := by
    rw [← text_val (data.name.getD stored.name), ← getD_val]
    rfl
  have hread := @Content.read_of floatText (migrateLegacyRule (stored.dump.merge data.values))
    _ _ _ _ _ (text_val stored.id) hname ht hcs has
  have hclen : cs'.length = (stored.overlay data).conditions.length := by
    rw [← List.length_map (f := Condition.plain), hcplain]
    rfl
  have halen : as'.length = (data.actions.getD stored.actions).1.length := by
    have hlen := congrArg List.length haplain
    simpa using hlen
  have hbounds := (data.actions.getD stored.actions).2
  rw [← halen] at hbounds
  by_cases hlen : (stored.overlay data).conditions.length ≤ 50
  · refine .inl ⟨hlen, _, hread.trans (dif_pos ⟨hclen ▸ hlen, hbounds⟩), ?_⟩
    simp only [Rule.plain, Rule.overlay, htplain, hcplain, haplain]
    rfl
  · refine .inr ⟨by omega, hread.trans (dif_neg fun h => hlen (hclen ▸ h.1))⟩

theorem Content.read_trigger_none {row : Content} (h : parseTrigger row.trigger = none) :
    row.read floatText = none := by
  cases hread : row.read floatText with
  | none => rfl
  | some rule =>
      obtain ⟨-, -, -, -, htrigger, -⟩ := Content.of_read hread
      rw [h] at htrigger
      cases htrigger

theorem Content.read_conditions_none {row : Content} {c : Json} (hc : c ∈ row.conditions)
    (h : parseCondition c = none) : row.read floatText = none := by
  cases hread : row.read floatText with
  | none => rfl
  | some rule =>
      obtain ⟨-, -, -, -, -, hconditions, -⟩ := Content.of_read hread
      rw [mapM_none hc h] at hconditions
      cases hconditions

/-- **With a null value there is no candidate.** -/
theorem validate_merge_null (stored : Rule) {data : Update} (hnull : data.Null) :
    (stored.dump.merge data.values).validate floatText = none := by
  rcases hnull with ⟨t, ht, hvalue⟩ | ⟨cs, hcs, c, hc, hvalue⟩
  · apply Content.read_trigger_none
    rw [Option.mem_def] at ht
    simp only [migrateLegacyRule, Content.merge, Update.values, ht, Option.map_some,
      Option.getD_some, dumpSupplied, migrateTrigger_dict]
    exact parseTrigger_null hvalue
  · rw [Option.mem_def] at hcs
    refine Content.read_conditions_none (c := migrateItem (dumpSupplied c.fields)) ?_
      (parseCondition_null hvalue)
    simp only [migrateLegacyRule, Content.merge, Update.values, hcs, Option.map_some,
      Option.getD_some, List.map_map]
    exact List.mem_map.mpr ⟨c, hc, rfl⟩

/-! ### The write -/

theorem Trigger.read_column {old : Json} {t₀ : Trigger} (hold : parseTrigger old = some t₀)
    (given : Option Trigger) (hnull : ∀ t ∈ given, isNull t.value = false) :
    ∃ t', parseTrigger (((given.map fun t => dumpSupplied t.fields).filter fun v =>
        !Json.pyEq v old).getD old) = some t' ∧ EqualTrigger (given.getD t₀).plain t'.plain := by
  cases given with
  | none => exact ⟨t₀, hold, .refl _⟩
  | some t =>
      cases heq : Json.pyEq (dumpSupplied t.fields) old with
      | true =>
          obtain ⟨t', hparse, hequal⟩ := Trigger.read_kept (hnull t rfl) heq
          exact ⟨t', by simpa [Option.filter, heq] using hparse, hequal⟩
      | false =>
          obtain ⟨t', hparse, hequal⟩ := Trigger.read (hnull t rfl)
          exact ⟨t', by simpa [Option.filter, heq] using hparse, hequal⟩

/-- **What is read back after the write is the overlay.** -/
theorem read_write {row : Content} {stored : Rule} (hrow : row.read floatText = some stored)
    {data : Update} (hnull : ¬ data.Null)
    (hlen : (stored.overlay data).conditions.length ≤ 50) :
    ∃ rule, (row.write data.values).read floatText = some rule ∧
      EqualRule (stored.overlay data) rule.plain := by
  obtain ⟨htnull, hcnull⟩ := not_null hnull
  obtain ⟨hid, hname, hhouse, henabled, ht₀, hcs₀, has₀⟩ := Content.of_read hrow
  obtain ⟨t', ht, hequal⟩ := Trigger.read_column ht₀ data.trigger htnull
  obtain ⟨cs', hcs, hcequal⟩ := read_column
    (R := fun c c' : Condition => EqualCondition c.plain c'.plain) (fun _ => .refl _) hcs₀
    data.conditions (fun cs h c hc => Condition.read (hcnull cs h c hc))
    fun cs h c hc _ heq => Condition.read_kept (hcnull cs h c hc) heq
  obtain ⟨as', has, haequal⟩ := read_column
    (R := fun a a' : Action => EqualAction a.plain a'.plain) (fun _ => .refl _) has₀
    (data.actions.map Subtype.val) (fun _ _ a _ => a.read) fun _ _ a _ _ heq => a.read_kept heq
  rw [getD_val] at haequal
  rw [Option.map_map] at has
  have hidtext : text 1 64 (row.write data.values).id = some stored.id := by
    rw [← text_val stored.id, ← hid]
    rfl
  have hnametext : text 1 255 (row.write data.values).name = some (data.name.getD stored.name) := by
    rw [← text_val (data.name.getD stored.name), ← getD_val, ← hname]
    rfl
  have hread := @Content.read_of floatText (row.write data.values) _ _ _ _ _ hidtext hnametext ht
    hcs has
  have hclen : cs'.length ≤ 50 := by
    rw [← hcequal.length_eq]
    simpa [Rule.overlay] using hlen
  have hbounds := (data.actions.getD stored.actions).2
  rw [haequal.length_eq] at hbounds
  refine ⟨_, hread.trans (dif_pos ⟨hclen, hbounds⟩), ?_⟩
  constructor
  case id => rfl
  case name => rfl
  case houseId =>
    show data.houseId.getD stored.houseId = data.houseId.getD row.houseId
    rw [hhouse]
  case enabled =>
    show data.enabled.getD stored.enabled = data.enabled.getD row.enabled
    rw [henabled]
  case trigger => exact hequal
  case conditions =>
    exact List.forall₂_map_left_iff.mpr (List.forall₂_map_right_iff.mpr hcequal)
  case actions => exact List.forall₂_map_left_iff.mpr (List.forall₂_map_right_iff.mpr haequal)

/-! ### Creation and update -/

variable {houses : List String} {r : Registry}

/-- A new row is read. -/
theorem read_dump (rule : Rule) : ∃ rule', rule.dump.read floatText = some rule' := by
  obtain ⟨t', ht, -⟩ := parseTrigger_dump rule.trigger
  obtain ⟨cs', hcs, hcall⟩ := @read_items _ (fun c => dump c.fields) parseCondition
    (fun _ _ => True) rule.conditions.1 fun c _ => by
      obtain ⟨c', hparse, -⟩ := (c.holds (keep_all c.fields)).parse
      exact ⟨c', hparse, trivial⟩
  obtain ⟨as', has, haall⟩ := @read_items _ (fun a => dump a.fields) (parseAction floatText)
    (fun _ _ => True) rule.actions.1 fun a _ => by
      obtain ⟨a', hparse, -⟩ := (a.holds (keep_all a.fields)).parse a.state_length
      exact ⟨a', hparse, trivial⟩
  have hread := @Content.read_of floatText rule.dump _ _ _ _ _ (text_val rule.id)
    (text_val rule.name) ht hcs has
  have hclen := rule.conditions.2
  have halen := rule.actions.2
  rw [hcall.length_eq] at hclen
  rw [haall.length_eq] at halen
  exact ⟨_, hread.trans (dif_pos ⟨hclen, halen⟩)⟩

/-- What `create` takes: what passes `_validate`, with no more than 50 conditions. -/
theorem creatable_iff (rows : List Content) (stored : Rule) (data : Update) :
    Creatable floatText houses r rows (stored.overlay data) ↔
      (stored.overlay data).conditions.length ≤ 50 ∧
        (stored.overlay data).validate houses r = .ok () := by
  constructor
  · rintro ⟨rule, hplain, created, hcreate⟩
    rw [← hplain]
    refine ⟨by simpa [Rule.plain] using rule.conditions.2, ?_⟩
    unfold create at hcreate
    split at hcreate
    · cases hcreate
    · assumption
  · rintro ⟨hlen, hvalidate⟩
    have hlen : (data.conditions.getD stored.conditions.1).length ≤ 50 := by
      simpa [Rule.overlay] using hlen
    let rule : Rule :=
      { id := stored.id
        name := data.name.getD stored.name
        houseId := data.houseId.getD stored.houseId
        enabled := data.enabled.getD stored.enabled
        trigger := data.trigger.getD stored.trigger
        conditions := ⟨data.conditions.getD stored.conditions.1, hlen⟩
        actions := data.actions.getD stored.actions }
    obtain ⟨created, hread⟩ := @read_dump floatText rule
    refine ⟨rule, rfl, created, ?_⟩
    have hplain : rule.plain.validate houses r = .ok () := hvalidate
    have hfree : ((rows.filter fun row => row.id ≠ (stored.overlay data).id).any
        fun row => row.id = rule.id) = false := by
      rw [List.any_eq_false]
      intro row hrow
      have hne : row.id ≠ stored.id.1 := of_decide_eq_true (List.mem_filter.mp hrow).2
      simpa [rule] using hne
    simp only [create, hplain, hfree, readBack, hread]
    rfl

theorem get_write {rows : List Content} {id : String} {row : Content} {values : Values}
    (hfind : rows.find? (fun row => row.id = id) = some row) :
    get floatText (rows.map fun row => if row.id = id then row.write values else row) id =
      readBack floatText (row.write values) := by
  have hfound : (rows.map fun row => if row.id = id then row.write values else row).find?
      (fun row => row.id = id) = some (row.write values) := by
    have hid : row.id = id := by simpa using List.find?_some hfind
    rw [List.find?_map]
    have hsame : (fun row : Content => decide (row.id = id)) ∘
        (fun row => if row.id = id then row.write values else row) =
          fun row => decide (row.id = id) := by
      funext row
      simp only [Function.comp]
      split
      · rfl
      · rfl
    rw [hsame, hfind, Option.map_some, if_pos hid]
  rw [get, hfound]

/-- Where `update` finds the stored rule. -/
theorem row_of_get {rows : List Content} {id : String} {stored : Rule}
    (h : get floatText rows id = .ok stored) : ∃ row,
      rows.find? (fun row => row.id = id) = some row ∧ row.read floatText = some stored := by
  unfold get at h
  split at h
  · cases h
  · rename_i row hfind
    refine ⟨row, hfind, ?_⟩
    unfold readBack at h
    split at h
    · rename_i rule hread
      rw [hread, Except.ok.inj h]
    · cases h

theorem agrees_of_error {rows : List Content} {stored : Rule} {data : Update} {e : Error}
    (hnot : ¬ Creatable floatText houses r rows (stored.overlay data))
    (hupdate : update floatText houses r rows stored.id data = (.error e, rows)) :
    Agrees floatText houses r rows stored data where
  accepts h := absurd h hnot
  rejects _ := by
    rw [hupdate]
    exact ⟨⟨e, rfl⟩, rfl⟩

/-- Without null values an update does what creation does. -/
theorem agrees_of_not_null {rows : List Content} {stored : Rule} {data : Update}
    (h : get floatText rows stored.id = .ok stored) (hnull : ¬ data.Null) :
    Agrees floatText houses r rows stored data := by
  obtain ⟨row, hfind, hrow⟩ := row_of_get h
  rcases @validate_merge floatText stored data hnull with ⟨hlen, c, hc, hplain⟩ | ⟨hlen, hnone⟩
  · cases hvalidate : (stored.overlay data).validate houses r with
    | error e =>
        have hnot : ¬ Creatable floatText houses r rows (stored.overlay data) := by
          rw [creatable_iff, hvalidate]
          exact fun hok => nomatch hok.2
        have hupdate : update floatText houses r rows stored.id data = (.error e, rows) := by
          simp only [update, h, hc, hplain, hvalidate]
        exact agrees_of_error hnot hupdate
    | ok value =>
        obtain ⟨rule, hread, hequal⟩ := read_write hrow hnull hlen
        have hupdate : update floatText houses r rows stored.id data =
            (.ok rule, rows.map fun row =>
              if row.id = stored.id.1 then row.write data.values else row) := by
          simp only [update, h, hc, hplain, hvalidate, get_write hfind, readBack, hread]
        constructor
        case accepts =>
          intro _
          rw [hupdate]
          refine ⟨rule, rfl, ?_, hequal⟩
          rw [get_write hfind, readBack, hread]
        case rejects =>
          exact fun hnot => absurd ((creatable_iff rows stored data).mpr ⟨hlen, hvalidate⟩) hnot
  · have hnot : ¬ Creatable floatText houses r rows (stored.overlay data) := by
      rw [creatable_iff]
      omega
    have hupdate : update floatText houses r rows stored.id data =
        (.error (.other "ValidationError"), rows) := by
      simp only [update, h, hnone]
    exact agrees_of_error hnot hupdate

/-- **An update agrees with the creation of the rule that it asks for if and only if** it supplies
no null value, or that rule is one that `create` does not take. -/
theorem update_agrees_iff {rows : List Content} {stored : Rule} {data : Update}
    (h : get floatText rows stored.id = .ok stored) :
    Agrees floatText houses r rows stored data ↔
      ¬ data.Null ∨ 50 < (stored.overlay data).conditions.length ∨
        (stored.overlay data).validate houses r ≠ .ok () := by
  by_cases hnull : data.Null
  · -- there is no candidate, and nothing is written
    have hupdate : update floatText houses r rows stored.id data =
        (.error (.other "ValidationError"), rows) := by
      simp only [update, h, validate_merge_null stored hnull]
    have hcreatable := @creatable_iff floatText houses r rows stored data
    constructor
    · intro hlaw
      by_contra hnot
      rw [not_or, not_or, not_lt, ne_eq, not_not] at hnot
      obtain ⟨hlen, hvalidate⟩ := hnot.2
      obtain ⟨rule, hok, -⟩ := hlaw.accepts (hcreatable.mpr ⟨hlen, not_not.mp hvalidate⟩)
      rw [hupdate] at hok
      cases hok
    · rintro (hnot | hrejected)
      · exact absurd hnull hnot
      · refine agrees_of_error (fun hcreate => ?_) hupdate
        obtain ⟨hlen, hvalidate⟩ := hcreatable.mp hcreate
        rcases hrejected with hmany | hfails
        · omega
        · exact hfails hvalidate
  · constructor
    · exact fun _ => .inl hnull
    · exact fun _ => agrees_of_not_null h hnull

end

/-- A house with one lamp. -/
def lampHome : Registry where
  devices := [⟨"lamp", "room", "light", ["on_off"], true⟩]
  physical := []
  rooms := [⟨"room", "floor"⟩]
  floors := [⟨"floor", "home"⟩]

/-- When the lamp is on, it is turned off. -/
def lampRule : Rule where
  id := ⟨"rule", by decide⟩
  name := ⟨"Lamp", by decide⟩
  houseId := "home"
  enabled := true
  trigger := ⟨true, ⟨"lamp", by decide⟩, ⟨"on", by decide⟩, some .eq, .bool true⟩
  conditions := ⟨[], by decide⟩
  actions := ⟨[.deviceState true ⟨"lamp", by decide⟩ ⟨[("on", .bool false)], by decide⟩], by decide⟩

/-- `PATCH` of the trigger alone, with that value. -/
def toValue (value : Json) : Update where
  name := none
  houseId := none
  enabled := none
  trigger := some ⟨false, ⟨"lamp", by decide⟩, ⟨"on", by decide⟩, none, value⟩
  conditions := none
  actions := none

theorem update_agrees_false :
    get (fun _ => none) [lampRule.dump] "rule" = .ok lampRule ∧
      Agrees (fun _ => none) ["home"] lampHome [lampRule.dump] lampRule
        (toValue (.bool false)) := by
  have hget : get (fun _ => none) [lampRule.dump] lampRule.id = .ok lampRule := rfl
  refine ⟨hget, (update_agrees_iff hget).mpr (.inl ?_)⟩
  rintro (⟨t, ht, hnull⟩ | ⟨cs, hcs, -⟩)
  · cases ht
    cases hnull
  · cases hcs

/-- `create` takes a trigger on a null value, and `update` refuses it. -/
theorem update_refuses_null :
    get (fun _ => none) [lampRule.dump] "rule" = .ok lampRule ∧
      ¬ Agrees (fun _ => none) ["home"] lampHome [lampRule.dump] lampRule (toValue .null) := by
  refine ⟨rfl, fun hlaw => ?_⟩
  have hcreatable : Creatable (fun _ => none) ["home"] lampHome [lampRule.dump]
      (lampRule.overlay (toValue .null)) :=
    (creatable_iff _ _ _).mpr ⟨by decide, by decide +kernel⟩
  obtain ⟨rule, hok, -⟩ := hlaw.accepts hcreatable
  have herror : (update (fun _ => none) ["home"] lampHome [lampRule.dump] lampRule.id
      (toValue .null)).1 = .error (.other "ValidationError") := rfl
  rw [herror] at hok
  cases hok

end KzHome.Schemas

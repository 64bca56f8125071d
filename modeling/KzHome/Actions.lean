import KzHome.Lib.SqlRules
import KzHome.Tables

/-!
# KzHome.Actions

Runs of automations and scenes: `manual_run`, `handle_event` and `SceneService.run`, with
`update_state` for their actions.

A run checks once that every device it names is in its house, and then acts on the
devices one after the other. Nothing is locked in between, and actions are separated by
delays and by awaited deliveries, so what moves a device after the check is not seen
any more: an action is performed in the house of the run exactly if its device still
is where the check has found it (`confined_iff`). Every action has such a check
behind it (`run_passed`).
-/

namespace KzHome

open Session Sql StateValidator

/-- What is noted when `update_state` is performed for a rule or a scene: the house of the run,
the device, and the tables from which the check of the run has read the house of the
device. -/
structure Act where
  home : String
  device : String
  checked : Option Tables

/-- The ways to start a run. `wall` is the time of day that `self.now()` answers for the
conditions of a rule. -/
inductive RunRequest
  | manual (rule : String)
  | event (event : BusEvent) (wall : String → Nat → Nat)
  | scene (scene : String)

namespace Tables

variable (t : Tables)

/-- `DeviceRepository.get`, with all columns. -/
def getDevice (device : String) : Except Error DeviceRow :=
  match t.devices.get? device with
  | some row => .ok row
  | none => .error (.notFound "DeviceORM not found")

/-- `AutomationRepository.get` -/
def getAutomation (rule : String) : Except Error AutomationRule :=
  match t.automations.get? rule with
  | some row => .ok row
  | none => .error (.notFound "AutomationORM not found")

/-- `SceneRepository.get` -/
def getScene (scene : String) : Except Error SceneRow :=
  match t.scenes.get? scene with
  | some row => .ok row
  | none => .error (.notFound "SceneORM not found")

/-- The first check of `_validate`. -/
def houseExists (house : String) : Except Error Unit :=
  if (t.houses.get? house).isSome then .ok ()
  else .error (.invalidReference "House does not exist")

end Tables

/-- `Repository._commit`: what it raises for a failed flush. -/
def stored : Except Violation Unit → Except Error Unit
  | .ok () => .ok ()
  | .error .integrity => .error (.conflict "Entity already exists or conflicts with related data")
  | .error .rowcount => .error (.other "StaleDataError")

namespace Actions

/-- Programs of a run. -/
abbrev Run (α : Type) := Query Tables TableRow Statement Violation Act Error α

/-- Something that is awaited outside the database, such as the publication of an event: the
drawn value names the exception it raises, if any. -/
def outside : Run Unit := do
  let failure ← Sql.input
  Prog.lift (if failure = "" then .ok () else .error (.other failure))

/-- `DeviceService.get` -/
def lookUp (device : String) : Run DeviceRow := do
  let t ← Sql.read none
  Prog.lift (Tables.getDevice t device)

/-- The check of one device: what it was read from. -/
def checkHouse (home message device : String) : Run (String × Tables) := do
  let t ← Sql.read none
  let house ← Prog.lift (Registry.houseId (Tables.registry t) device)
  Prog.lift (if house = some home then .ok (device, t) else .error (.invalidReference message))

/-- The checks of several devices. -/
def checkAll (check : String → Run (String × Tables)) : List String → Run (List (String × Tables))
  | [] => .ret []
  | device :: rest => do
    let c ← check device
    let cs ← checkAll check rest
    return c :: cs

/-- `StateValidator.validate` for the fields that a rule reads or sets on devices. -/
def capable : List (String × DeviceState) → Run Unit
  | [] => .ret ()
  | (device, state) :: rest => do
    let entity ← lookUp device
    Prog.lift (StateValidator.validateCapabilities entity.capabilities state)
    capable rest

/-- `AutomationService._validate` -/
def validateRule (rule : AutomationRule) : Run (List (String × Tables)) := do
  let t ← Sql.read none
  Prog.lift (Tables.houseExists t rule.houseId)
  let checks ← checkAll (fun device => do
    let _ ← lookUp device
    checkHouse rule.houseId "Automation cannot access a device in another house" device)
    rule.deviceIds
  capable ((rule.trigger.deviceId, [(rule.trigger.field, rule.trigger.value)]) ::
    (rule.conditions.filterMap (·.device?)).map (fun c => (c.deviceId, [(c.field, c.value)])) ++
    rule.actions.filterMap (·.deviceState?))
  return checks

/-- `SceneService._validate` -/
def validateScene (scene : SceneRow) : Run (List (String × Tables)) := do
  let t ← Sql.read none
  Prog.lift (Tables.houseExists t scene.houseId)
  checkAll (checkHouse scene.houseId "Scene cannot access a device in another house")
    (scene.actions.map Prod.fst)

/-- `_conditions_match` -/
def conditionsMatch : List AutomationCondition → (Nat → Nat) → Run Bool
  | [], _ => .ret true
  | .deviceState c :: rest, wall => do
    let entity ← lookUp c.deviceId
    if compare (Json.getOrNull entity.state c.field) c.operator c.value then
      conditionsMatch rest fun i => wall (i + 1)
    else return false
  | .time after before :: rest, wall =>
    if timeMatches after before (wall 0) then conditionsMatch rest fun i => wall (i + 1)
    else .ret false

/-- `_persist_state` of the row that was loaded. -/
def persistState (act : Act) (entity : DeviceRow) (patch : DeviceState) : Run Unit :=
  let changed := Json.changes entity.state patch
  if changed.isEmpty then .ret ()
  else do
    let result ← Sql.commit [.updateDevice act.device
      ⟨none, none, none, some (Json.merge entity.state changed), none, none, none⟩] (some act)
    Prog.lift (stored result)
    let t ← Sql.read none
    let _ ← Prog.lift (Registry.houseId (Tables.registry t) act.device)
    outside
    let _ ← lookUp act.device

/-- `DeviceService.update_state`. It is performed from its first statement to the one that
takes the effect: with a transport, the one that reads the house to address. -/
def updateState (transport : Bool) (act : Act) (patch : DeviceState) : Run Unit := do
  let t ← Sql.read (some act)
  Prog.lift (Registry.requireActive (Tables.registry t) act.device)
  Prog.lift (Registry.requireCommandContract (Tables.registry t) act.device)
  let entity ← lookUp act.device
  if transport then
    Prog.lift (StateValidator.validateCommand entity.capabilities patch)
    outside
    let t ← Sql.read (some act)
    let _ ← Prog.lift (Registry.houseId (Tables.registry t) act.device)
    outside
  else
    Prog.lift (StateValidator.validateCapabilities entity.capabilities patch)
    persistState act entity patch

/-- The actions of a run, one after the other. Other sessions run between any two statements,
so a delay is nothing more. -/
def perform (transport : Bool) (home : String) (checks : List (String × Tables)) :
    List AutomationAction → Run Unit
  | [] => .ret ()
  | .delay _ :: rest => perform transport home checks rest
  | .deviceState device patch :: rest => do
    updateState transport ⟨home, device, (checks.find? fun c => c.1 = device).map Prod.snd⟩ patch
    perform transport home checks rest

/-- `_execute` -/
def execute (transport : Bool) (rule : AutomationRule) (checks : List (String × Tables)) :
    Run Unit := do
  let result ← Prog.attempt (do
    perform transport rule.houseId checks rule.actions
    -- the statuses "triggered" and "completed"
    outside
    outside)
  match result with
  | .ok () => return ()
  | .error _ => outside

/-- One matching rule of the loop in `handle_event`. -/
def consider (transport : Bool) (rule : AutomationRule) (wall : Nat → Nat) : Run Unit := do
  let result ← Prog.attempt (do
    let checks ← validateRule rule
    if ← conditionsMatch rule.conditions wall then execute transport rule checks)
  match result with
  | .ok () => return ()
  | .error _ => outside

/-- The loop of `handle_event`. -/
def considerAll (transport : Bool) (event : BusEvent) (wall : String → Nat → Nat) :
    List AutomationRule → Run Unit
  | [] => .ret ()
  | rule :: rest => do
    if rule.trigger.matches ((event.text? "device_id").getD "") event.state then
      consider transport rule (wall rule.id)
    considerAll transport event wall rest

/-- `handle_event` -/
def handleEvent (transport : Bool) (event : BusEvent) (wall : String → Nat → Nat) : Run Unit :=
  let house := (event.text? "house_id").getD ""
  if event.type ≠ .deviceStateChanged ∨ maxAutomationDepth ≤ event.depth ∨ house = "" then .ret ()
  else do
    let t ← Sql.read none
    considerAll transport event wall
      (enabledForHouse ((Tables.automations t).entries.map Prod.snd) house)

/-- `manual_run` -/
def manualRun (transport : Bool) (id : String) : Run Unit := do
  let t ← Sql.read none
  let rule ← Prog.lift (Tables.getAutomation t id)
  let checks ← validateRule rule
  execute transport rule checks

/-- `SceneService.run` -/
def runScene (transport : Bool) (id : String) : Run Unit := do
  let t ← Sql.read none
  let scene ← Prog.lift (Tables.getScene t id)
  let checks ← validateScene scene
  perform transport scene.houseId checks
    (scene.actions.map fun a => .deviceState a.1 a.2)
  outside

/-- The program of a run. -/
def program (transport : Bool) (_ : Nat) (_ : Unit) : RunRequest → Run Unit
  | .manual rule => manualRun transport rule
  | .event event wall => handleEvent transport event wall
  | .scene scene => runScene transport scene

/-- Anything may be committed beside the runs. -/
def anything : Tables → Tables → Bool := fun _ _ => true

/-- Runs side by side. -/
def runs (transport : Bool) : Transition.System
    (State (interface Tables TableRow Statement Violation Act) (Store Tables TableRow Act Unit)
      Unit Error)
    (Session.Label Unit RunRequest String (Outside Tables)) :=
  system (machine schema anything) (program transport)

/-! ### Every action has been checked -/

end Actions

/-- The check behind an action has found the device in the house of the run. -/
def Act.Passed (act : Act) : Prop :=
  ∃ t, act.checked = some t ∧ t.registry.houseId act.device = .ok (some act.home)

namespace Actions

/-- An action is noted with a check that it has passed. -/
def protocol : Protocol Tables TableRow Statement Act Unit where
  inv st := ∀ e ∈ st.trace, e.note.Passed
  commits _ _ _ _ note := ∀ act, note = some act → act.Passed
  notes _ _ _ act := act.Passed

abbrev contract : Contract (Store Tables TableRow Act Unit) Unit :=
  protocol.contract schema anything

abbrev database : Machine (interface Tables TableRow Statement Violation Act)
    (Store Tables TableRow Act Unit) Unit String (Outside Tables) :=
  machine schema anything

theorem inv_record (st : Store Tables TableRow Act Unit) (s : Nat) (p : Unit) {note : Option Act}
    (hi : protocol.inv st) (h : ∀ act, note = some act → act.Passed) :
    protocol.inv (st.record s p note) := by
  cases note with
  | none => exact hi
  | some act =>
      intro e he
      rcases List.mem_cons.mp he with rfl | he
      · exact h act rfl
      · exact hi e he

theorem keeps : protocol.Keeps schema anything where
  locks _ _ hi := hi
  clock _ _ hi _ := hi
  reading _ hi := hi
  noted a s p _ hi h := inv_record a s p hi fun _ hact => Option.some.inj hact ▸ h
  committed a s p _ _ _ hi h _ _ := inv_record a s p hi h
  changed _ _ hi _ := hi

/-- Among the checks of a run is one that finds the device in the house. -/
def Checked (home : String) (checks : List (String × Tables)) (device : String) : Prop :=
  Act.Passed ⟨home, device, (checks.find? fun c => c.1 = device).map Prod.snd⟩

theorem checked_cons_self {home device : String} {t : Tables} {checks : List (String × Tables)}
    (h : t.registry.houseId device = .ok (some home)) :
    Checked home ((device, t) :: checks) device :=
  ⟨t, by simp, h⟩

theorem checked_cons {home device other : String} {t : Tables} {checks : List (String × Tables)}
    (h : t.registry.houseId other = .ok (some home)) (hd : Checked home checks device) :
    Checked home ((other, t) :: checks) device := by
  by_cases hne : other = device
  · subst hne
    exact checked_cons_self h
  · obtain ⟨t', ht', hp⟩ := hd
    exact ⟨t', by simpa [hne] using ht', hp⟩

section

variable {s : Nat} {p : Unit} {α : Type} (transport : Bool)

theorem outline_outside :
    contract.Outline database s p outside (fun _ => True) (Contract.returns fun _ _ => True) := by
  refine Protocol.outline_input (Contract.Stable.const True) fun failure => ?_
  split <;> exact fun _ _ _ => trivial

theorem outline_lookUp (device : String) :
    contract.Outline database s p (lookUp device) (fun _ => True)
      (Contract.returns fun _ _ => True) := by
  refine Protocol.outline_peek (Contract.Stable.const True) fun t => ?_
  cases Tables.getDevice t device <;> exact fun _ _ _ => trivial

/-- A check returns what it has read the device to be at home in. -/
theorem outline_checkHouse (home message device : String) :
    contract.Outline database s p (checkHouse home message device) (fun _ => True)
      (Contract.returns fun c _ =>
        c.1 = device ∧ c.2.registry.houseId device = .ok (some home)) := by
  refine Protocol.outline_peek (Contract.Stable.const True) fun t => ?_
  refine Protocol.outline_lift fun house hhouse => ?_
  by_cases hhome : house = some home
  · rw [if_pos hhome]
    exact fun _ _ _ => ⟨rfl, hhome ▸ hhouse⟩
  · rw [if_neg hhome]
    exact fun _ _ _ => trivial

theorem outline_checkAll (home : String) {check : String → Run (String × Tables)}
    (hcheck : ∀ device, contract.Outline database s p (check device) (fun _ => True)
      (Contract.returns fun c _ => c.1 = device ∧ c.2.registry.houseId device = .ok (some home)))
    (devices : List String) :
    contract.Outline database s p (checkAll check devices) (fun _ => True)
      (Contract.returns fun checks _ => ∀ device ∈ devices, Checked home checks device) := by
  induction devices with
  | nil => exact fun _ _ _ => by simp [Contract.returns]
  | cons device rest ih =>
      refine (hcheck device).seq fun c => ?_
      obtain ⟨other, t⟩ := c
      refine (Contract.Outline.given (P := fun _ => True) fun hc => ?_).pre
        fun _ _ h => ⟨h, trivial⟩
      obtain ⟨rfl, ht⟩ := hc
      refine ih.seq fun checks => ?_
      intro st _ hrest d hd
      rcases List.mem_cons.mp hd with rfl | hd
      · exact checked_cons_self ht
      · exact checked_cons ht (hrest d hd)

theorem outline_capable (fields : List (String × DeviceState)) :
    contract.Outline database s p (capable fields) (fun _ => True)
      (Contract.returns fun _ _ => True) := by
  induction fields with
  | nil => exact fun _ _ _ => trivial
  | cons field rest ih =>
      refine (outline_lookUp field.1).seq fun entity => ?_
      exact Protocol.outline_lift fun _ _ => ih

theorem outline_conditionsMatch (conditions : List AutomationCondition) (wall : Nat → Nat) :
    contract.Outline database s p (conditionsMatch conditions wall) (fun _ => True)
      (Contract.returns fun _ _ => True) := by
  induction conditions generalizing wall with
  | nil => exact fun _ _ _ => trivial
  | cons condition rest ih =>
      cases condition with
      | deviceState c =>
          refine (outline_lookUp c.deviceId).seq fun entity => ?_
          split
          · exact ih _
          · exact fun _ _ _ => trivial
      | time after before =>
          unfold conditionsMatch
          split
          · exact ih _
          · exact fun _ _ _ => trivial

/-- The checks of a rule cover the devices that it acts on. -/
theorem outline_validateRule (rule : AutomationRule) :
    contract.Outline database s p (validateRule rule) (fun _ => True)
      (Contract.returns fun checks _ => ∀ a ∈ rule.actions.filterMap (·.deviceState?),
        Checked rule.houseId checks a.1) := by
  refine Protocol.outline_peek (Contract.Stable.const True) fun t => ?_
  refine Protocol.outline_lift fun _ _ => ?_
  refine Contract.Outline.seq (outline_checkAll rule.houseId ?_ rule.deviceIds) fun checks => ?_
  · intro device
    exact (outline_lookUp device).seq fun _ => outline_checkHouse _ _ device
  refine (Contract.Outline.given (P := fun _ => True) fun hchecks => ?_).pre
    fun _ _ h => ⟨h, trivial⟩
  refine (outline_capable _).seq fun _ => ?_
  intro st _ _ a ha
  exact hchecks a.1 (List.mem_append_right _ (List.mem_map_of_mem ha))

theorem outline_validateScene (scene : SceneRow) :
    contract.Outline database s p (validateScene scene) (fun _ => True)
      (Contract.returns fun checks _ => ∀ a ∈ scene.actions, Checked scene.houseId checks a.1) := by
  refine Protocol.outline_peek (Contract.Stable.const True) fun t => ?_
  refine Protocol.outline_lift fun _ _ => ?_
  refine (outline_checkAll scene.houseId (outline_checkHouse _ _) _).post fun r st _ h => ?_
  cases r with
  | error e => trivial
  | ok checks => exact fun a ha => h a.1 (List.mem_map_of_mem ha)

theorem outline_persistState {act : Act} (hact : act.Passed) (entity : DeviceRow)
    (patch : DeviceState) :
    contract.Outline database s p (persistState act entity patch) (fun _ => True)
      (Contract.returns fun _ _ => True) := by
  unfold persistState
  dsimp only
  split
  · exact fun _ _ _ => trivial
  · refine Protocol.outline_commit (R := fun _ _ => True) (fun _ => Contract.Stable.const True)
      (fun _ _ _ _ h => Option.some.inj h ▸ hact) (fun _ _ _ _ _ => trivial)
      (fun _ _ _ _ => trivial) fun r => ?_
    refine Protocol.outline_lift fun _ _ => ?_
    refine Protocol.outline_peek (Contract.Stable.const True) fun t => ?_
    refine Protocol.outline_lift fun _ _ => ?_
    refine outline_outside.seq fun _ => ?_
    exact (outline_lookUp act.device).seq fun _ => fun _ _ _ => trivial

/-- The read at which an action is noted. -/
theorem outline_noted {act : Act} (hact : act.Passed) {f : Tables → Run α}
    {Q : Except Error α → Store Tables TableRow Act Unit → Prop}
    (hf : ∀ t, contract.Outline database s p (f t) (fun _ => True) Q) :
    contract.Outline database s p (Sql.read (some act) >>= f) (fun _ => True) Q :=
  Protocol.outline_read (R := fun _ _ => True) (fun _ => Contract.Stable.const True)
    (fun _ _ _ _ h => Option.some.inj h ▸ hact) (fun _ _ _ => trivial) hf

theorem outline_updateState {act : Act} (hact : act.Passed) (patch : DeviceState) :
    contract.Outline database s p (updateState transport act patch) (fun _ => True)
      (Contract.returns fun _ _ => True) := by
  refine outline_noted hact fun t => ?_
  refine Protocol.outline_lift fun _ _ => ?_
  refine Protocol.outline_lift fun _ _ => ?_
  refine (outline_lookUp act.device).seq fun entity => ?_
  split
  · refine Protocol.outline_lift fun _ _ => ?_
    refine outline_outside.seq fun _ => ?_
    refine outline_noted hact fun t => ?_
    exact Protocol.outline_lift fun _ _ => outline_outside
  · exact Protocol.outline_lift fun _ _ => outline_persistState hact entity patch

/-- **Every action of a run** is noted with its check, whatever delays come before it. -/
theorem outline_perform (home : String) (checks : List (String × Tables))
    (actions : List AutomationAction)
    (h : ∀ a ∈ actions.filterMap (·.deviceState?), Checked home checks a.1) :
    contract.Outline database s p (perform transport home checks actions) (fun _ => True)
      (Contract.returns fun _ _ => True) := by
  induction actions with
  | nil => exact fun _ _ _ => trivial
  | cons action rest ih =>
      cases action with
      | delay seconds => exact ih h
      | deviceState device patch =>
          have hdevice : Checked home checks device := h (device, patch) List.mem_cons_self
          have hrest := ih fun a ha => h a (List.mem_cons_of_mem _ ha)
          exact (outline_updateState transport hdevice patch).seq fun _ => hrest

/-- An outcome whose error is only reported. -/
theorem outline_reported {m : Run Unit}
    (h : contract.Outline database s p m (fun _ => True) (Contract.returns fun _ _ => True)) :
    contract.Outline database s p
      (m.attempt >>= fun result => match result with | .ok () => return () | .error _ => outside)
      (fun _ => True) (Contract.returns fun _ _ => True) := by
  refine Contract.Outline.seq (h.post fun _ _ _ _ => trivial).attempt fun result => ?_
  cases result with
  | ok _ => exact fun _ _ _ => trivial
  | error e => exact outline_outside.pre fun _ _ _ => trivial

theorem outline_execute (rule : AutomationRule) (checks : List (String × Tables))
    (h : ∀ a ∈ rule.actions.filterMap (·.deviceState?), Checked rule.houseId checks a.1) :
    contract.Outline database s p (execute transport rule checks) (fun _ => True)
      (Contract.returns fun _ _ => True) := by
  refine outline_reported ?_
  refine (outline_perform transport rule.houseId checks rule.actions h).seq fun _ => ?_
  exact outline_outside.seq fun _ => outline_outside

theorem outline_consider (rule : AutomationRule) (wall : Nat → Nat) :
    contract.Outline database s p (consider transport rule wall) (fun _ => True)
      (Contract.returns fun _ _ => True) := by
  refine outline_reported ?_
  refine (outline_validateRule rule).seq fun checks => ?_
  refine (Contract.Outline.given (P := fun _ => True) fun hchecks => ?_).pre
    fun _ _ h => ⟨h, trivial⟩
  refine (outline_conditionsMatch rule.conditions wall).seq fun matched => ?_
  cases matched with
  | false => exact fun _ _ _ => trivial
  | true => exact outline_execute transport rule checks hchecks

theorem outline_considerAll (event : BusEvent) (wall : String → Nat → Nat)
    (rules : List AutomationRule) :
    contract.Outline database s p (considerAll transport event wall rules) (fun _ => True)
      (Contract.returns fun _ _ => True) := by
  induction rules with
  | nil => exact fun _ _ _ => trivial
  | cons rule rest ih =>
      unfold considerAll
      split
      · exact (outline_consider transport rule _).seq fun _ => ih
      · exact ih

theorem outline_program (s : Nat) (p : Unit) (call : RunRequest) :
    contract.Outline database s p (program transport s p call) (fun _ => True)
      (fun _ _ => True) := by
  refine Contract.Outline.post ?_ (fun _ _ _ _ => trivial)
    (Q := Contract.returns fun _ _ => True)
  cases call with
  | manual id =>
      refine Protocol.outline_peek (Contract.Stable.const True) fun t => ?_
      refine Protocol.outline_lift fun rule _ => ?_
      refine (outline_validateRule rule).seq fun checks => ?_
      refine (Contract.Outline.given (P := fun _ => True) fun hchecks => ?_).pre
        fun _ _ h => ⟨h, trivial⟩
      exact outline_execute transport rule checks hchecks
  | event event wall =>
      unfold program handleEvent
      dsimp only
      split
      · exact fun _ _ _ => trivial
      · refine Protocol.outline_peek (Contract.Stable.const True) fun t => ?_
        exact outline_considerAll transport event wall _
  | scene id =>
      refine Protocol.outline_peek (Contract.Stable.const True) fun t => ?_
      refine Protocol.outline_lift fun scene _ => ?_
      refine (outline_validateScene scene).seq fun checks => ?_
      refine (Contract.Outline.given (P := fun _ => True) fun hchecks => ?_).pre
        fun _ _ h => ⟨h, trivial⟩
      refine (outline_perform transport scene.houseId checks _ ?_).seq fun _ => outline_outside
      intro a ha
      refine hchecks a ?_
      simpa [List.filterMap_map, Function.comp_def, AutomationAction.deviceState?] using ha

end

/-! ### Runs -/

/-- After a run of the sessions. -/
def after (transport : Bool) (db : Tables)
    (labels : List (Session.Label Unit RunRequest String (Outside Tables))) :
    Store Tables TableRow Act Unit :=
  ((runs transport).run (State.init (Store.init db 0)) labels).shared

/-- Every action has a check of its run behind it that it has passed. -/
theorem run_passed (transport : Bool) (db : Tables)
    (labels : List (Session.Label Unit RunRequest String (Outside Tables))) :
    ∀ e ∈ (after transport db labels).trace, e.note.Passed :=
  Protocol.run_inv keeps (outline_program transport) (fun _ h => by cases h) labels

/-- An action is performed on a device that is in the house of the run. -/
def AtHome (e : Entry Tables Act Unit) : Prop :=
  e.db.registry.houseId e.note.device = .ok (some e.note.home)

/-- The device of an action is where the check of the run has found it. -/
def Unmoved (e : Entry Tables Act Unit) : Prop :=
  ∃ t, e.note.checked = some t ∧
    e.db.registry.houseId e.note.device = t.registry.houseId e.note.device

theorem atHome_iff {e : Entry Tables Act Unit} (h : e.note.Passed) : AtHome e ↔ Unmoved e := by
  obtain ⟨t, ht, hp⟩ := h
  constructor
  · intro hhome
    exact ⟨t, ht, hhome.trans hp.symm⟩
  · rintro ⟨t', ht', hmoved⟩
    obtain rfl := Option.some.inj (ht.symm.trans ht')
    exact hmoved.trans hp

/-- **Runs act in their house** in all actions if and only if no device that is acted on has
been moved to another house since it was checked. -/
theorem confined_iff (transport : Bool) (db : Tables)
    (labels : List (Session.Label Unit RunRequest String (Outside Tables))) :
    (∀ e ∈ (after transport db labels).trace, AtHome e) ↔
      ∀ e ∈ (after transport db labels).trace, Unmoved e := by
  have hpassed := run_passed transport db labels
  constructor
  · intro h e he
    exact (atHome_iff (hpassed e he)).mp (h e he)
  · intro h e he
    exact (atHome_iff (hpassed e he)).mpr (h e he)

/-- A lamp at home with a rule that switches it off an hour after it was switched on, and a
shop. -/
def neighbours : Tables where
  houses := ⟨[("home", ⟨"Home"⟩), ("shop", ⟨"Shop"⟩)], by decide⟩
  floors := ⟨[("ground", ⟨"home", "Ground", 0⟩), ("counter", ⟨"shop", "Counter", 0⟩)], by decide⟩
  rooms := ⟨[("kitchen", ⟨"ground", "Kitchen", none⟩), ("store", ⟨"counter", "Store", none⟩)],
    by decide⟩
  devices := ⟨[("lamp", ⟨"Lamp", "kitchen", "light", [("on", .bool true)], ["on_off"], [], true⟩)],
    by decide⟩
  physical := .empty
  memberships := .empty
  users := .empty
  scenes := .empty
  automations := ⟨[("off", ⟨"off", "Off", "home", true, ⟨"lamp", "on", .eq, .bool true⟩, [],
    [.delay 3600, .deviceState "lamp" [("on", .bool false)]]⟩)], by decide⟩
  attempts := .empty
  ledger := ⟨[], []⟩
  issued := []

/-- The lamp is moved to the shop. -/
def relocated : Tables :=
  { neighbours with
    devices := neighbours.devices.modify "lamp" fun row => { row with roomId := "store" } }

/-- A run of the rule checks the lamp, and the lamp is moved while the run is delayed. -/
def late : List (Session.Label Unit RunRequest String (Outside Tables)) :=
  [.start () (.manual "off"), .exec 0 "", .exec 0 "", .exec 0 "", .exec 0 "", .exec 0 "",
    .exec 0 "", .exec 0 "", .exec 0 "", .external (.change relocated), .exec 0 ""]

/-- The rule is accepted, and acts in the shop. -/
theorem late_acts_elsewhere :
    (neighbours.getAutomation "off").bind
        (fun rule => rule.validate ["home", "shop"] neighbours.registry) = .ok () ∧
      neighbours.write (.updateDevice "lamp"
        ⟨none, some "store", none, none, none, none, none⟩) = .ok relocated ∧
      ¬ ∀ e ∈ (after false neighbours late).trace, AtHome e := by
  refine ⟨by rfl, by rfl, fun h => ?_⟩
  have htrace : (after false neighbours late).trace.map
      (fun e => (e.note.home, e.db.registry.houseId e.note.device)) =
        [("home", .ok (some "shop"))] := by rfl
  obtain ⟨e, he, heq⟩ := List.mem_map.mp (htrace ▸ List.mem_singleton_self _)
  obtain ⟨hhome, hhouse⟩ := Prod.mk.inj heq
  have hat := h e he
  unfold AtHome at hat
  rw [hhouse, hhome] at hat
  exact absurd hat (by decide)

end Actions

end KzHome

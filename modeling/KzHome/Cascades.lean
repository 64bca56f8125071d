import KzHome.Automations
import KzHome.Lib.Pool
import Mathlib.Algebra.Order.BigOperators.Group.List
import Mathlib.Algebra.Order.Ring.Nat

/-!
# KzHome.Cascades

Automation cascades: the events that one change of a device state causes through the
automation rules.

Without a transport `update_state` stores the new state and publishes its change, the
bus schedules a task for every change (`schedule_automations`), and the task runs the
rules that match (`process_automations`). The tasks of a cascade are a pool: each
turn below is one stretch of a task between two awaits, in the order of the source,
and the tasks interleave in any order with each other and with whatever else changes
device states. What the tables say, the time of day, and whether the subscribers
behind the scheduler return, is an input of the turn.

The rules may trigger each other, so nothing in their shape bounds a cascade. The
depth of the events does: it grows with every change that a rule makes, and at
`maxAutomationDepth` no rule is run.
-/

namespace KzHome

open StateValidator (DeviceState)

namespace Cascade

/-- What `_publish_status` reports of a rule execution. -/
inductive Status
  | triggered
  | completed
  | failed
  deriving DecidableEq, Repr

/-- The type of the event of a status. -/
def Status.type : Status → EventType
  | .triggered => .automationTriggered
  | .completed => .automationCompleted
  | .failed => .automationFailed

/-- How far a task has come with its event. -/
inductive Stage
  /-- `handle_event` was not entered yet. -/
  | created
  /-- The loop over the rules. -/
  | considering (left : List AutomationRule)
  /-- The loop over the actions of a rule. -/
  | acting (rule : AutomationRule) (left : List AutomationAction) (rest : List AutomationRule)
  /-- The publications at the end of `_execute`. -/
  | reporting (rule : AutomationRule) (left : List Status) (rest : List AutomationRule)
  /-- The exception handler of `_execute`. -/
  | failing (rule : AutomationRule) (rest : List AutomationRule)
  /-- The exception handler of `handle_event`. -/
  | rescuing (rule : AutomationRule) (rest : List AutomationRule)
  | over

/-- A task of `schedule_automations`. -/
structure Task where
  event : BusEvent
  stage : Stage

/-- What the surroundings contribute to a turn. -/
structure Input where
  /-- The ids of `houses`. -/
  houses : List String
  tables : Registry
  /-- The time of day at each condition, in microseconds. -/
  current : Nat → Nat
  /-- The new state is committed. -/
  stored : Bool
  /-- The subscribers behind the scheduler return. -/
  delivered : Bool
  /-- The class of the exception that is handled. -/
  error : String

/-- What a cascade consists of. -/
inductive Happening
  /-- The change that the cascade starts with. -/
  | initial (event : BusEvent)
  /-- A rule execution started. -/
  | started (rule : AutomationRule) (event : BusEvent)
  /-- A rule execution started by `cause` published an event. -/
  | published (cause event : BusEvent)

/-- The event of `_publish_status`. -/
def statusEvent (status : Status) (rule : AutomationRule) (source : BusEvent)
    (extra : List (String × Json)) : BusEvent where
  type := status.type
  data := [("automation_id", .str rule.id), ("house_id", .str rule.houseId)] ++ extra
  correlationId := source.correlationId
  depth := source.depth

namespace Task

variable (t : Task)

/-- Go on at another stage, and do nothing else. -/
def goto (stage : Stage) : Pool.Turn Task Happening := ⟨{ t with stage }, [], []⟩

/-- `_publish_status`, going on at `stage`: the scheduler ignores the event. -/
def report (status : Status) (rule : AutomationRule) (extra : List (String × Json))
    (stage : Stage) : Pool.Turn Task Happening :=
  ⟨{ t with stage }, [], [.published t.event (statusEvent status rule t.event extra)]⟩

/-- The entry of `handle_event`. -/
def enter (rules : List AutomationRule) : Pool.Turn Task Happening :=
  if t.event.type ≠ .deviceStateChanged ∨ maxAutomationDepth ≤ t.event.depth then t.goto .over
  else
    match t.event.text? "house_id" with
    | none => t.goto .over
    | some house =>
      if house = "" then t.goto .over else t.goto (.considering (enabledForHouse rules house))

/-- One rule of the loop in `handle_event`. -/
def consider (states : String → DeviceState) (inp : Input) (rule : AutomationRule)
    (rest : List AutomationRule) : Pool.Turn Task Happening :=
  if !rule.trigger.matches ((t.event.text? "device_id").getD "") t.event.state then
    t.goto (.considering rest)
  else
    match rule.validate inp.houses inp.tables with
    | .error _ => t.goto (.rescuing rule rest)
    | .ok () =>
      match conditionsMatch inp.tables states inp.current rule.conditions with
      | .error _ => t.goto (.rescuing rule rest)
      | .ok false => t.goto (.considering rest)
      | .ok true =>
        ⟨{ t with stage := .acting rule rule.actions rest }, [], [.started rule t.event]⟩

/-- `update_state` of an action, with the task that its event is given to. -/
def update (states : String → DeviceState) (inp : Input) (device : String) (patch : DeviceState)
    (next failed : Stage) : (String → DeviceState) × Pool.Turn Task Happening :=
  match inp.tables.checkUpdate device patch with
  | .error _ => (states, t.goto failed)
  | .ok () =>
    let changed := Json.changes (states device) patch
    if changed.isEmpty then (states, t.goto next)
    else if !inp.stored then (states, t.goto failed)
    else
      let states' := Function.update states device (Json.merge (states device) changed)
      match inp.tables.houseId device with
      | .error _ => (states', t.goto failed)
      | .ok house =>
        let event := BusEvent.change device house changed t.event.correlationId (t.event.depth + 1)
        (states', ⟨{ t with stage := if inp.delivered then next else failed }, [⟨event, .created⟩],
          [.published t.event event]⟩)

/-- One turn of a task. -/
def turn (rules : List AutomationRule) (states : String → DeviceState) (t : Task) (inp : Input) :
    Option ((String → DeviceState) × Pool.Turn Task Happening) :=
  match t.stage with
  | .created => some (states, t.enter rules)
  | .considering [] => some (states, t.goto .over)
  | .considering (rule :: rest) => some (states, t.consider states inp rule rest)
  | .acting rule [] rest =>
    some (states, t.goto (.reporting rule [.triggered, .completed] rest))
  | .acting rule (.delay _ :: left) rest => some (states, t.goto (.acting rule left rest))
  | .acting rule (.deviceState device patch :: left) rest =>
    some (t.update states inp device patch (.acting rule left rest) (.failing rule rest))
  | .reporting _ [] rest => some (states, t.goto (.considering rest))
  | .reporting rule (status :: left) rest =>
    some (states, t.report status rule []
      (if inp.delivered then .reporting rule left rest else .failing rule rest))
  | .failing rule rest =>
    some (states, t.report .failed rule [("error", .str inp.error)]
      (if inp.delivered then .considering rest else .rescuing rule rest))
  | .rescuing rule rest =>
    some (states, t.report .failed rule [("error", .str inp.error)]
      (if inp.delivered then .considering rest else .over))
  | .over => none

end Task

/-- The cascade of an event: one task, and the event itself. -/
def start (states : String → DeviceState) (event : BusEvent) :
    Pool.State (String → DeviceState) Task Happening :=
  .init states [⟨event, .created⟩] [.initial event]

/-- The cascade after the turns of a schedule. -/
def after (rules : List AutomationRule) (states : String → DeviceState) (event : BusEvent)
    (schedule : List (Pool.Label (String → DeviceState) Input)) :
    Pool.State (String → DeviceState) Task Happening :=
  (Pool.system (Task.turn rules)).run (start states event) schedule

/-! ### Depth -/

/-- A task past the entry of `handle_event` has an event below the limit, and no task has
one above it. -/
def Task.Shallow (t : Task) : Prop :=
  t.event.depth ≤ maxAutomationDepth ∧
    (t.event.depth < maxAutomationDepth ∨ t.stage = .created ∨ t.stage = .over)

/-- What the limit says of the parts of a cascade: a rule is started below it, the event of
a change is one deeper than its cause, and the other events are as deep as theirs. -/
def Happening.Shallow : Happening → Prop
  | .initial event => event.depth ≤ maxAutomationDepth
  | .started _ event => event.depth < maxAutomationDepth
  | .published cause event => cause.depth < maxAutomationDepth ∧
    event.depth ≤ maxAutomationDepth ∧
      event.depth = if event.type = .deviceStateChanged then cause.depth + 1 else cause.depth

/-- Everything that a turn leaves behind. -/
def Shallow (r : Pool.Turn Task Happening) : Prop :=
  r.next.Shallow ∧ (∀ t ∈ r.spawned, t.Shallow) ∧ ∀ h ∈ r.emitted, h.Shallow

namespace Task

variable {t : Task} {rules : List AutomationRule} {states : String → DeviceState} {inp : Input}

theorem shallow_goto (h : t.event.depth < maxAutomationDepth) (stage : Stage) :
    Cascade.Shallow (t.goto stage) :=
  ⟨⟨Nat.le_of_lt h, Or.inl h⟩, by simp [goto], by simp [goto]⟩

theorem shallow_report (h : t.event.depth < maxAutomationDepth) (status : Status)
    (rule : AutomationRule) (extra : List (String × Json)) (stage : Stage) :
    Cascade.Shallow (t.report status rule extra stage) := by
  have hty : status.type ≠ .deviceStateChanged := by cases status <;> simp [Status.type]
  refine ⟨⟨Nat.le_of_lt h, Or.inl h⟩, by simp [report], fun e he => ?_⟩
  obtain rfl := List.mem_singleton.mp he
  exact ⟨h, Nat.le_of_lt h, by simp [statusEvent, hty]⟩

theorem shallow_enter (h : t.event.depth ≤ maxAutomationDepth) :
    Cascade.Shallow (t.enter rules) := by
  have hover : Cascade.Shallow (t.goto .over) :=
    ⟨⟨h, Or.inr (Or.inr rfl)⟩, by simp [goto], by simp [goto]⟩
  unfold enter
  split
  · exact hover
  · rename_i hlim
    have hlt : t.event.depth < maxAutomationDepth := by
      simp only [not_or, Nat.not_le] at hlim
      exact hlim.2
    split
    · exact hover
    · split
      · exact hover
      · exact shallow_goto hlt _

theorem shallow_consider (h : t.event.depth < maxAutomationDepth) (rule : AutomationRule)
    (rest : List AutomationRule) : Cascade.Shallow (t.consider states inp rule rest) := by
  unfold consider
  split
  · exact shallow_goto h _
  · split
    · exact shallow_goto h _
    · split
      · exact shallow_goto h _
      · exact shallow_goto h _
      · refine ⟨⟨Nat.le_of_lt h, Or.inl h⟩, by simp, fun e he => ?_⟩
        obtain rfl := List.mem_singleton.mp he
        exact h

theorem shallow_update (h : t.event.depth < maxAutomationDepth) (device : String)
    (patch : DeviceState) (next failed : Stage) :
    Cascade.Shallow (t.update states inp device patch next failed).2 := by
  unfold update
  split
  · exact shallow_goto h _
  · dsimp only
    split
    · exact shallow_goto h _
    · split
      · exact shallow_goto h _
      · split
        · exact shallow_goto h _
        · refine ⟨⟨Nat.le_of_lt h, Or.inl h⟩, fun t' ht' => ?_, fun e he => ?_⟩
          · obtain rfl := List.mem_singleton.mp ht'
            exact ⟨h, Or.inr (Or.inl rfl)⟩
          · obtain rfl := List.mem_singleton.mp he
            exact ⟨h, h, by simp [BusEvent.change]⟩

/-- **One turn** keeps to the limit. -/
theorem shallow_turn {states' : String → DeviceState} {r : Pool.Turn Task Happening}
    (h : t.Shallow) (hturn : t.turn rules states inp = some (states', r)) :
    Cascade.Shallow r := by
  have hlt : t.stage ≠ .created → t.stage ≠ .over → t.event.depth < maxAutomationDepth :=
    fun h₁ h₂ => h.2.resolve_right fun hs => hs.elim h₁ h₂
  unfold turn at hturn
  split at hturn
  case h_1 => cases hturn; exact shallow_enter h.1
  case h_2 hs => cases hturn; exact shallow_goto (hlt (by simp [hs]) (by simp [hs])) _
  case h_3 hs => cases hturn; exact shallow_consider (hlt (by simp [hs]) (by simp [hs])) _ _
  case h_4 hs => cases hturn; exact shallow_goto (hlt (by simp [hs]) (by simp [hs])) _
  case h_5 hs => cases hturn; exact shallow_goto (hlt (by simp [hs]) (by simp [hs])) _
  case h_6 hs =>
    obtain rfl : _ = r := congrArg Prod.snd (Option.some.inj hturn)
    exact shallow_update (hlt (by simp [hs]) (by simp [hs])) _ _ _ _
  case h_7 hs => cases hturn; exact shallow_goto (hlt (by simp [hs]) (by simp [hs])) _
  case h_8 hs => cases hturn; exact shallow_report (hlt (by simp [hs]) (by simp [hs])) _ _ _ _
  case h_9 hs => cases hturn; exact shallow_report (hlt (by simp [hs]) (by simp [hs])) _ _ _ _
  case h_10 hs => cases hturn; exact shallow_report (hlt (by simp [hs]) (by simp [hs])) _ _ _ _
  case h_11 => cases hturn

end Task

/-! ### Cost -/

/-- What a task may still cost at most in the loop over `rules`, when a child task costs
`child`: turns, outputs and child tasks. -/
def rulesCost (child : Nat) (rules : List AutomationRule) : Nat :=
  (rules.map fun rule => rule.actions.length * (child + 2) + 11).sum + 1

/-- What a new task may cost, this many levels below the limit. -/
def taskCost (rules : List AutomationRule) : Nat → Nat
  | 0 => 1
  | levels + 1 => rulesCost (taskCost rules levels) rules + 1

/-- What a task may cost from its stage on. -/
def Task.cost (rules : List AutomationRule) (t : Task) : Nat :=
  let child := taskCost rules (maxAutomationDepth - (t.event.depth + 1))
  match t.stage with
  | .created => taskCost rules (maxAutomationDepth - t.event.depth)
  | .considering left => rulesCost child left
  | .acting _ left rest => left.length * (child + 2) + 9 + rulesCost child rest
  | .reporting _ left rest => 2 * left.length + 4 + rulesCost child rest
  | .failing _ rest => 4 + rulesCost child rest
  | .rescuing _ rest => 2 + rulesCost child rest
  | .over => 0

theorem rulesCost_cons (child : Nat) (rule : AutomationRule) (rest : List AutomationRule) :
    rulesCost child (rule :: rest) =
      rule.actions.length * (child + 2) + 11 + rulesCost child rest := by
  simp only [rulesCost, List.map_cons, List.sum_cons]
  omega

theorem rulesCost_pos (child : Nat) (rules : List AutomationRule) : 1 ≤ rulesCost child rules :=
  Nat.le_add_left 1 _

/-- The rules of one house cost no more than all of them. -/
theorem rulesCost_filter (child : Nat) (rules : List AutomationRule) (house : String) :
    rulesCost child (enabledForHouse rules house) ≤ rulesCost child rules := by
  have hsub : ((enabledForHouse rules house).map
      fun rule => rule.actions.length * (child + 2) + 11).Sublist
      (rules.map fun rule => rule.actions.length * (child + 2) + 11) :=
    List.filter_sublist.map _
  exact Nat.add_le_add_right (hsub.sum_le_sum fun _ _ => Nat.zero_le _) 1

/-- What a turn uses up together with what it leaves behind. -/
def spent (rules : List AutomationRule) (r : Pool.Turn Task Happening) : Nat :=
  1 + r.next.cost rules + (r.spawned.map (Task.cost rules)).sum + r.emitted.length

namespace Task

variable {t : Task} {rules : List AutomationRule} {states : String → DeviceState} {inp : Input}

@[simp] theorem spent_goto (stage : Stage) :
    spent rules (t.goto stage) = 1 + ({ t with stage } : Task).cost rules := rfl

@[simp] theorem spent_report (status : Status) (rule : AutomationRule)
    (extra : List (String × Json)) (stage : Stage) :
    spent rules (t.report status rule extra stage) = 1 + ({ t with stage } : Task).cost rules + 1 :=
  rfl

theorem cost_enter (h : t.stage = .created) : spent rules (t.enter rules) ≤ t.cost rules := by
  have hcost : t.cost rules = taskCost rules (maxAutomationDepth - t.event.depth) := by
    simp only [cost, h]
  have hover : spent rules (t.goto .over) ≤ t.cost rules := by
    rw [hcost, spent_goto]
    cases maxAutomationDepth - t.event.depth with
    | zero => exact Nat.le_refl _
    | succ levels =>
        have := rulesCost_pos (taskCost rules levels) rules
        simp only [cost, taskCost]
        omega
  unfold enter
  split
  · exact hover
  · rename_i hlim
    split
    · exact hover
    · rename_i house _
      split
      · exact hover
      · -- below the limit there is a level left
        have hlt : maxAutomationDepth - t.event.depth =
            maxAutomationDepth - (t.event.depth + 1) + 1 := by
          simp only [not_or, Nat.not_le] at hlim
          omega
        have := rulesCost_filter (taskCost rules (maxAutomationDepth - (t.event.depth + 1)))
          rules house
        rw [hcost, hlt, spent_goto]
        simp only [cost, taskCost]
        omega

theorem cost_consider (rule : AutomationRule) (rest : List AutomationRule)
    (h : t.stage = .considering (rule :: rest)) :
    spent rules (t.consider states inp rule rest) ≤ t.cost rules := by
  have hcost : t.cost rules = rulesCost
      (taskCost rules (maxAutomationDepth - (t.event.depth + 1))) (rule :: rest) := by
    simp only [cost, h]
  rw [hcost, rulesCost_cons]
  unfold consider
  split
  · simp only [spent_goto, cost]; omega
  · split
    · simp only [spent_goto, cost]; omega
    · split
      · simp only [spent_goto, cost]; omega
      · simp only [spent_goto, cost]; omega
      · simp only [spent, cost, List.map_nil, List.sum_nil, List.length_singleton]; omega

theorem cost_update (rule : AutomationRule) (device : String) (patch : DeviceState)
    (left : List AutomationAction) (rest : List AutomationRule)
    (h : t.stage = .acting rule (.deviceState device patch :: left) rest) :
    spent rules (t.update states inp device patch (.acting rule left rest)
      (.failing rule rest)).2 ≤ t.cost rules := by
  have hcost : t.cost rules = (left.length + 1) *
      (taskCost rules (maxAutomationDepth - (t.event.depth + 1)) + 2) + 9 +
        rulesCost (taskCost rules (maxAutomationDepth - (t.event.depth + 1))) rest := by
    simp only [cost, h, List.length_cons]
  rw [hcost, Nat.succ_mul]
  unfold update
  split
  · simp only [spent_goto, cost]; omega
  · dsimp only
    split
    · simp only [spent_goto, cost]; omega
    · split
      · simp only [spent_goto, cost]; omega
      · split
        · simp only [spent_goto, cost]; omega
        · -- the new task is one level deeper
          simp only [spent, List.map_cons, List.map_nil, List.sum_cons, List.sum_nil,
            List.length_singleton]
          cases inp.delivered with
          | true => simp only [cost, if_true, BusEvent.change]; omega
          | false => simp only [cost, Bool.false_eq_true, if_false, BusEvent.change]; omega

/-- **One turn** is paid for. -/
theorem cost_turn {states' : String → DeviceState} {r : Pool.Turn Task Happening}
    (hturn : t.turn rules states inp = some (states', r)) : spent rules r ≤ t.cost rules := by
  unfold turn at hturn
  split at hturn
  case h_1 hs => cases hturn; exact cost_enter hs
  case h_2 hs => cases hturn; simp only [spent_goto, cost, hs]; exact rulesCost_pos _ _
  case h_3 hs => cases hturn; exact cost_consider _ _ hs
  case h_4 hs =>
    cases hturn
    simp only [spent_goto, cost, hs, List.length_cons, List.length_nil]
    omega
  case h_5 hs =>
    cases hturn
    simp only [spent_goto, cost, hs, List.length_cons, Nat.succ_mul]
    omega
  case h_6 hs =>
    obtain rfl : _ = r := congrArg Prod.snd (Option.some.inj hturn)
    exact cost_update _ _ _ _ _ hs
  case h_7 hs => cases hturn; simp only [spent_goto, cost, hs]; omega
  case h_8 hs =>
    cases hturn
    rw [spent_report]
    cases inp.delivered with
    | true => simp only [cost, hs, if_true, List.length_cons]; omega
    | false => simp only [cost, hs, Bool.false_eq_true, if_false, List.length_cons]; omega
  case h_9 hs =>
    cases hturn
    rw [spent_report]
    cases inp.delivered with
    | true => simp only [cost, hs, if_true]; omega
    | false => simp only [cost, hs, Bool.false_eq_true, if_false]; omega
  case h_10 hs =>
    cases hturn
    rw [spent_report]
    cases inp.delivered with
    | true => simp only [cost, hs, if_true]; omega
    | false =>
        have := rulesCost_pos (taskCost rules (maxAutomationDepth - (t.event.depth + 1)))
        simp only [cost, hs, Bool.false_eq_true, if_false]
        omega
  case h_11 => cases hturn

end Task

/-- The size of the largest cascade: turns of tasks, events and rule executions. -/
def bound (rules : List AutomationRule) : Nat := taskCost rules maxAutomationDepth + 1

/-- **Cascades are finite.** Whatever a change of a device state sets off, in whatever order
the tasks take their turns and whatever else happens: its events, its rule executions and
the turns it takes are at most `bound rules` together, no event is deeper than the limit,
and no rule execution is started by an event at the limit. -/
theorem cascade_finite (rules : List AutomationRule) (states : String → DeviceState)
    (device : String) (house : Option String) (changed : DeviceState) (correlationId : String)
    (schedule : List (Pool.Label (String → DeviceState) Input)) :
    let st := after rules states (BusEvent.change device house changed correlationId 0) schedule
    st.turns + st.emitted.length ≤ bound rules ∧
      (∀ event, .initial event ∈ st.emitted ∨ (∃ cause, .published cause event ∈ st.emitted) →
        event.depth ≤ maxAutomationDepth) ∧
      ∀ rule event, .started rule event ∈ st.emitted → event.depth < maxAutomationDepth := by
  intro st
  have hshallow : ∀ h ∈ st.emitted, h.Shallow :=
    (Pool.outputs (Task.turn rules) (P := Task.Shallow)
      (fun _ _ _ _ _ ht hturn => Task.shallow_turn ht hturn)
      (fun t ht => by
        obtain rfl := List.mem_singleton.mp ht
        exact ⟨Nat.zero_le _, Or.inr (Or.inl rfl)⟩)
      (fun h hh => by
        obtain rfl := List.mem_singleton.mp hh
        exact Nat.zero_le _) schedule).2
  refine ⟨?_, ?_, fun rule event h => hshallow _ h⟩
  · have h := Pool.bounded (Task.turn rules)
      (start states (BusEvent.change device house changed correlationId 0)) (Task.cost rules)
      (fun _ _ _ _ _ hturn => Task.cost_turn hturn) schedule
    refine h.trans (Nat.le_of_eq ?_)
    show 0 + 1 + (taskCost rules maxAutomationDepth + 0) = taskCost rules maxAutomationDepth + 1
    omega
  · rintro event (h | ⟨cause, h⟩)
    · exact hshallow _ h
    · exact (hshallow _ h).2.1

end Cascade

end KzHome

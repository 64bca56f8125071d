import KzHome.Cascades
import KzHome.Lib.Call
import Mathlib.Data.List.Nodup

/-!
# KzHome.Firings

Which rules `handle_event` fires.

The loop of `handle_event` comes to the enabled rules of the event's house one after the
other. What it meets at a rule (the tables and the clock as they are then, and what the
awaited calls of the execution come to) is given by an `Encounter`: everything else that
goes on in the process can make it anything, also different at every rule. The loop keeps
a log of what it starts and what it publishes.

Two things keep it from firing the rules that the event calls for. A field that did not
change is looked up with `get`, so its value is `None`, and `None` satisfies `neq` of
everything but `None`, and `eq` of `None`. And the handler that reports the failure of a
rule is itself unprotected, so an exception of a subscriber there ends the loop.

**Firing** (`fires_exactly_iff`) says that these are the only two.
-/

namespace KzHome

open StateValidator (DeviceState)

/-- `type(error).__name__` -/
def Error.className : Error → String
  | .notFound _ => "EntityNotFoundError"
  | .conflict _ => "ConflictError"
  | .invalidReference _ => "InvalidReferenceError"
  | .unavailable _ => "UnavailableError"
  | .other name => name

namespace Firings

open Cascade (Happening Status statusEvent)

/-- What `handle_event` meets when it comes to a rule. -/
structure Encounter where
  /-- The ids of `houses`. -/
  houses : List String
  tables : Registry
  states : String → DeviceState
  /-- The time of day at each condition, in microseconds. -/
  current : Nat → Nat
  /-- What `update_state` comes to for the action at an index: device, state, correlation
  id and depth. -/
  updateState : Nat → String → DeviceState → String → Nat → Except Error Unit
  /-- What publishing a status comes to in `_execute`. -/
  publish : Status → Except Error Unit
  /-- What publishing the failure comes to in `handle_event`. -/
  rescue : Except Error Unit

/-- The handling of an event: a call on the log. -/
abbrev Handling := Call (List Happening) Error

/-- `_publish_status`, with what the publication comes to. -/
def publishStatus (status : Status) (rule : AutomationRule) (source : BusEvent)
    (extra : List (String × Json)) (outcome : Except Error Unit) : Handling Unit := do
  Call.update (· ++ [.published source (statusEvent status rule source extra)])
  Call.lift outcome

/-- The loop over the actions in `_execute`, from the one at index `n` on. -/
def act (m : Encounter) (event : BusEvent) : Nat → List AutomationAction → Handling Unit
  | _, [] => pure ()
  | n, .delay _ :: left => act m event (n + 1) left
  | n, .deviceState device state :: left => do
    Call.lift (m.updateState n device state event.correlationId (event.depth + 1))
    act m event (n + 1) left

/-- `_execute` -/
def execute (m : Encounter) (rule : AutomationRule) (event : BusEvent) (publishTrigger : Bool) :
    Handling Unit :=
  Call.rescue
    (do
      act m event 0 rule.actions
      if publishTrigger then publishStatus .triggered rule event [] (m.publish .triggered)
      publishStatus .completed rule event [] (m.publish .completed))
    fun error =>
      publishStatus .failed rule event [("error", .str error.className)] (m.publish .failed)

/-- The device of the event. -/
def device (event : BusEvent) : String := (event.text? "device_id").getD ""

/-- One rule of the loop in `handle_event`. -/
def handleRule (m : Encounter) (event : BusEvent) (rule : AutomationRule) : Handling Unit :=
  if !rule.trigger.matches (device event) event.state then pure ()
  else
    Call.rescue
      (do
        Call.lift (rule.validate m.houses m.tables)
        let holds ← Call.lift (conditionsMatch m.tables m.states m.current rule.conditions)
        if holds then
          Call.update (· ++ [.started rule event])
          execute m rule event true)
      fun error => publishStatus .failed rule event [("error", .str error.className)] m.rescue

/-- The loop in `handle_event`. -/
def handleRules (meets : AutomationRule → Encounter) (event : BusEvent) :
    List AutomationRule → Handling Unit
  | [] => pure ()
  | rule :: rest => do
    handleRule (meets rule) event rule
    handleRules meets event rest

/-- `handle_event` -/
def handleEvent (rules : List AutomationRule) (meets : AutomationRule → Encounter)
    (event : BusEvent) : Handling Unit :=
  if event.type ≠ .deviceStateChanged ∨ maxAutomationDepth ≤ event.depth then pure ()
  else
    match event.text? "house_id" with
    | none => pure ()
    | some house =>
      if house = "" then pure () else handleRules meets event (enabledForHouse rules house)

/-- The rules whose actions were started, in order. -/
def started (log : List Happening) : List AutomationRule :=
  log.filterMap fun
    | .started rule _ => some rule
    | _ => none

/-! ### What the event calls for -/

/-- The rule still validates and its conditions all hold. -/
structure Ready (m : Encounter) (rule : AutomationRule) : Prop where
  valid : rule.validate m.houses m.tables = .ok ()
  conditions : conditionsMatch m.tables m.states m.current rule.conditions = .ok true

/-- The event calls for the rule: it is about the trigger's device, the trigger's field is
one of those that changed, its new value satisfies the operator, and the rule is ready. -/
structure Fires (m : Encounter) (event : BusEvent) (rule : AutomationRule) : Prop where
  device : rule.trigger.deviceId = device event
  changed : ∃ value, Json.member event.state rule.trigger.field = some value ∧
    compare value rule.trigger.operator rule.trigger.value = true
  ready : Ready m rule

/-- The rule is ready and triggered by a field that did not change: the operator is
satisfied by `None`. -/
structure Misfires (m : Encounter) (event : BusEvent) (rule : AutomationRule) : Prop where
  device : rule.trigger.deviceId = device event
  unchanged : Json.member event.state rule.trigger.field = none
  operator : compare .null rule.trigger.operator rule.trigger.value = true
  ready : Ready m rule

/-- An action of the rule raises. -/
def Fails (m : Encounter) (event : BusEvent) (rule : AutomationRule) : Prop :=
  ∃ n device state, rule.actions[n]? = some (.deviceState device state) ∧
    m.updateState n device state event.correlationId (event.depth + 1) ≠ .ok ()

/-- The rule fails, and so does every report of its failure: the report of `handle_event`
on its validation or its conditions, or after the report of `_execute` that one too. -/
structure Unreported (m : Encounter) (event : BusEvent) (rule : AutomationRule) : Prop where
  triggered : rule.trigger.matches (Firings.device event) event.state = true
  failed : rule.validate m.houses m.tables ≠ .ok () ∨
    (∃ e, conditionsMatch m.tables m.states m.current rule.conditions = .error e) ∨
    Ready m rule ∧ m.publish .failed ≠ .ok () ∧
      (Fails m event rule ∨ m.publish .triggered ≠ .ok () ∨ m.publish .completed ≠ .ok ())
  rescue : m.rescue ≠ .ok ()

open Classical in
/-- **The event fires exactly its rules**: those it calls for, each once, in list order. -/
def FiresExactly (rules : List AutomationRule) (meets : AutomationRule → Encounter)
    (event : BusEvent) (house : String) : Prop :=
  started ((handleEvent rules meets event).run []).2 =
    (enabledForHouse rules house).filter fun rule => Fires (meets rule) event rule

section Handling

variable {m : Encounter} {event : BusEvent} {rule : AutomationRule} {log : List Happening}

theorem started_append (log log' : List Happening) :
    started (log ++ log') = started log ++ started log' := List.filterMap_append

@[simp] theorem started_published (log : List Happening) (source published : BusEvent) :
    started (log ++ [.published source published]) = started log := by
  rw [started_append]
  exact List.append_nil _

/-- A rule that is triggered and ready fires, or misfires. -/
theorem fires_or_misfires :
    (rule.trigger.matches (device event) event.state = true ∧ Ready m rule) ↔
      Fires m event rule ∨ Misfires m event rule := by
  have hmatch : rule.trigger.matches (device event) event.state = true ↔
      rule.trigger.deviceId = device event ∧ compare (Json.getOrNull event.state
        rule.trigger.field) rule.trigger.operator rule.trigger.value = true := by
    rw [AutomationTrigger.matches, Bool.and_eq_true, decide_eq_true_iff]
  rw [hmatch, Json.getOrNull]
  constructor
  · intro ⟨⟨hdevice, hcompare⟩, hready⟩
    cases hfield : Json.member event.state rule.trigger.field with
    | none => exact .inr ⟨hdevice, hfield, by rw [hfield] at hcompare; exact hcompare, hready⟩
    | some value =>
        rw [hfield] at hcompare
        exact .inl ⟨hdevice, ⟨value, hfield, hcompare⟩, hready⟩
  · intro h
    obtain ⟨hdevice, ⟨value, hfield, hcompare⟩, hready⟩ | ⟨hdevice, hfield, hcompare, hready⟩ := h
    · exact ⟨⟨hdevice, by rw [hfield]; exact hcompare⟩, hready⟩
    · exact ⟨⟨hdevice, by rw [hfield]; exact hcompare⟩, hready⟩

theorem not_fires_of_misfires (h : Misfires m event rule) : ¬ Fires m event rule := by
  intro hfires
  obtain ⟨value, hfield, -⟩ := hfires.changed
  rw [h.unchanged] at hfield
  cases hfield

theorem run_publishStatus (status : Status) (extra : List (String × Json))
    (outcome : Except Error Unit) :
    (publishStatus status rule event extra outcome).run log =
      (outcome, log ++ [.published event (statusEvent status rule event extra)]) := rfl

/-- The actions leave no trace in the log. -/
theorem run_act (m : Encounter) (event : BusEvent) (log : List Happening) (n : Nat)
    (left : List AutomationAction) :
    ∃ r, (act m event n left).run log = (r, log) ∧
      (r = .ok () ↔ ¬ ∃ i device state, left[i]? = some (.deviceState device state) ∧
        m.updateState (n + i) device state event.correlationId (event.depth + 1) ≠ .ok ()) := by
  induction left generalizing n with
  | nil => exact ⟨.ok (), rfl, iff_of_true rfl fun ⟨i, _, _, h, _⟩ => by simp at h⟩
  | cons action left ih =>
      obtain ⟨r, hrun, hr⟩ := ih (n + 1)
      have hshift : ∀ i, n + 1 + i = n + (i + 1) := fun i => by omega
      cases action with
      | delay seconds =>
          refine ⟨r, hrun, hr.trans (not_congr ?_)⟩
          constructor
          · intro ⟨i, d, state, hi, hbad⟩
            exact ⟨i + 1, d, state, hi, hshift i ▸ hbad⟩
          · intro ⟨i, d, state, hi, hbad⟩
            cases i with
            | zero => simp at hi
            | succ i => exact ⟨i, d, state, hi, (hshift i).symm ▸ hbad⟩
      | deviceState d state =>
          unfold act
          cases hfirst : m.updateState n d state event.correlationId (event.depth + 1) with
          | error e =>
              refine ⟨.error e, rfl, iff_of_false (by simp) (not_not.mpr ⟨0, d, state, rfl, ?_⟩)⟩
              rw [Nat.add_zero, hfirst]
              exact fun h => nomatch h
          | ok u =>
              rw [Call.run_bind_of_ok (Call.run_lift_ok.mpr ⟨rfl, rfl⟩)]
              refine ⟨r, hrun, hr.trans (not_congr ?_)⟩
              constructor
              · intro ⟨i, d', state', hi, hbad⟩
                exact ⟨i + 1, d', state', hi, hshift i ▸ hbad⟩
              · intro ⟨i, d', state', hi, hbad⟩
                cases i with
                | zero =>
                    simp only [List.getElem?_cons_zero, Option.some.injEq,
                      AutomationAction.deviceState.injEq] at hi
                    obtain ⟨rfl, rfl⟩ := hi
                    rw [Nat.add_zero, hfirst] at hbad
                    exact absurd rfl hbad
                | succ i => exact ⟨i, d', state', hi, (hshift i).symm ▸ hbad⟩

/-- A failed publication is handled by publishing the failure. -/
theorem run_reported (rule : AutomationRule) (event : BusEvent) (outcome : Except Error Unit)
    {body : Handling Unit} {r : Except Error Unit} {log' : List Happening}
    (hrun : body.run log = (r, log')) :
    ∃ r' log'', (Call.rescue body fun error => publishStatus .failed rule event
        [("error", .str error.className)] outcome).run log = (r', log'') ∧
      started log'' = started log' ∧ (r' = .ok () ↔ r = .ok () ∨ outcome = .ok ()) := by
  rw [Call.run_rescue, hrun]
  cases r with
  | ok u => exact ⟨.ok u, log', rfl, rfl, iff_of_true rfl (.inl rfl)⟩
  | error e =>
      exact ⟨outcome, _, rfl, started_published _ _ _, by simp⟩

/-- **An execution** starts nothing else; it raises exactly when it fails and the report of
its failure fails. -/
theorem run_execute (m : Encounter) (event : BusEvent) (rule : AutomationRule)
    (log : List Happening) :
    ∃ r log', (execute m rule event true).run log = (r, log') ∧ started log' = started log ∧
      (r = .ok () ↔ ¬ (m.publish .failed ≠ .ok () ∧ (Fails m event rule ∨
        m.publish .triggered ≠ .ok () ∨ m.publish .completed ≠ .ok ()))) := by
  obtain ⟨r, hact, hr⟩ := run_act m event log 0 rule.actions
  simp only [Nat.zero_add] at hr
  have hfails : r = .ok () ↔ ¬ Fails m event rule := hr
  have hbody : ∃ r' log', (do
        act m event 0 rule.actions
        if true then publishStatus .triggered rule event [] (m.publish .triggered)
        publishStatus .completed rule event [] (m.publish .completed) : Handling Unit).run log =
        (r', log') ∧ started log' = started log ∧ (r' = .ok () ↔ ¬ (Fails m event rule ∨
          m.publish .triggered ≠ .ok () ∨ m.publish .completed ≠ .ok ())) := by
    cases r with
    | error e =>
        have hf : Fails m event rule := by
          by_contra h
          cases hfails.mpr h
        rw [Call.run_bind, hact]
        exact ⟨.error e, log, rfl, rfl, iff_of_false (fun h => nomatch h) (not_not.mpr (.inl hf))⟩
    | ok u =>
        have hf : ¬ Fails m event rule := hfails.mp rfl
        rw [Call.run_bind_of_ok hact, if_pos rfl, Call.run_bind, run_publishStatus]
        cases ht : m.publish .triggered with
        | error e => exact ⟨.error e, _, rfl, started_published _ _ _, by simp⟩
        | ok u =>
            refine ⟨_, _, rfl, ?_, ?_⟩
            · rw [started_published, started_published]
            · simp [hf]
  obtain ⟨r', log', hrun, hlog, hr'⟩ := hbody
  obtain ⟨r'', log'', hrun', hlog', hr''⟩ := run_reported rule event (m.publish .failed) hrun
  refine ⟨r'', log'', hrun', hlog'.trans hlog, hr''.trans ?_⟩
  rw [hr', not_and_or, not_not]
  exact or_comm

/-- What the loop does with a rule that is triggered. -/
theorem run_checked (m : Encounter) (event : BusEvent) (rule : AutomationRule)
    (log : List Happening) :
    ∃ r log', (do
        Call.lift (rule.validate m.houses m.tables)
        let holds ← Call.lift (conditionsMatch m.tables m.states m.current rule.conditions)
        if holds then
          Call.update (· ++ [.started rule event])
          execute m rule event true : Handling Unit).run log = (r, log') ∧
      (Ready m rule → started log' = started log ++ [rule]) ∧
      (¬ Ready m rule → started log' = started log) ∧
      (r = .ok () ↔ ¬ (rule.validate m.houses m.tables ≠ .ok () ∨
        (∃ e, conditionsMatch m.tables m.states m.current rule.conditions = .error e) ∨
        Ready m rule ∧ m.publish .failed ≠ .ok () ∧
          (Fails m event rule ∨ m.publish .triggered ≠ .ok () ∨
            m.publish .completed ≠ .ok ()))) := by
  cases hv : rule.validate m.houses m.tables with
  | error e =>
      have hnot : ¬ Ready m rule := fun h => by
        have := h.valid
        rw [hv] at this
        cases this
      exact ⟨.error e, log, rfl, fun h => absurd h hnot, fun _ => rfl, by simp⟩
  | ok u =>
      rw [Call.run_bind_of_ok (Call.run_lift_ok.mpr ⟨rfl, rfl⟩)]
      cases hc : conditionsMatch m.tables m.states m.current rule.conditions with
      | error e =>
          have hnot : ¬ Ready m rule := fun h => by
            have := h.conditions
            rw [hc] at this
            cases this
          exact ⟨.error e, log, rfl, fun h => absurd h hnot, fun _ => rfl, by simp⟩
      | ok holds =>
          rw [Call.run_bind_of_ok (Call.run_lift_ok.mpr ⟨rfl, rfl⟩)]
          cases holds with
          | false =>
              have hnot : ¬ Ready m rule := fun h => by
                have := h.conditions
                rw [hc] at this
                cases this
              exact ⟨.ok (), log, rfl, fun h => absurd h hnot, fun _ => rfl, by simp [hnot]⟩
          | true =>
              have hready : Ready m rule := ⟨hv, hc⟩
              rw [if_pos rfl, Call.run_bind_update]
              obtain ⟨r, log', hrun, hlog, hr⟩ := run_execute m event rule
                (log ++ [.started rule event])
              refine ⟨r, log', hrun, fun _ => ?_, fun h => absurd hready h, hr.trans ?_⟩
              · rw [hlog, started_append]
                rfl
              · simp [hready]

/-- **One rule of the loop**: it is started when it fires or misfires, and the loop goes on
unless it stays unreported. -/
theorem run_handleRule (m : Encounter) (event : BusEvent) (rule : AutomationRule)
    (log : List Happening) :
    ∃ r log', (handleRule m event rule).run log = (r, log') ∧
      (Fires m event rule ∨ Misfires m event rule → started log' = started log ++ [rule]) ∧
      (¬ (Fires m event rule ∨ Misfires m event rule) → started log' = started log) ∧
      (r = .ok () ↔ ¬ Unreported m event rule) := by
  rw [← fires_or_misfires]
  unfold handleRule
  by_cases ht : rule.trigger.matches (device event) event.state = true
  · rw [if_neg (by simp [ht])]
    obtain ⟨r, log', hrun, hready, hnot, hr⟩ := run_checked m event rule log
    obtain ⟨r', log'', hrun', hlog, hr'⟩ := run_reported rule event m.rescue hrun
    refine ⟨r', log'', hrun', fun h => hlog.trans (hready h.2),
      fun h => hlog.trans (hnot fun hready => h ⟨ht, hready⟩), ?_⟩
    rw [hr', hr]
    constructor
    · intro h hu
      exact h.elim (fun h => h hu.failed) hu.rescue
    · intro h
      by_contra hboth
      rw [not_or, not_not] at hboth
      exact h ⟨ht, hboth.1, hboth.2⟩
  · rw [if_pos (by simpa using ht)]
    exact ⟨.ok (), log, rfl, fun h => absurd h.1 ht, fun _ => rfl,
      iff_of_true rfl fun h => ht h.triggered⟩

end Handling

/-! ### The loop -/

open Classical in
/-- The rules that the loop comes to: up to the first that stays unreported. -/
noncomputable def reached (meets : AutomationRule → Encounter) (event : BusEvent) :
    List AutomationRule → List AutomationRule
  | [] => []
  | rule :: rest =>
    rule :: if Unreported (meets rule) event rule then [] else reached meets event rest

open Classical in
/-- **What the loop starts**: of the rules it comes to, those that fire or misfire. -/
theorem run_handleRules (meets : AutomationRule → Encounter) (event : BusEvent)
    (rules : List AutomationRule) (log : List Happening) :
    started ((handleRules meets event rules).run log).2 =
      started log ++ (reached meets event rules).filter fun rule =>
        Fires (meets rule) event rule ∨ Misfires (meets rule) event rule := by
  induction rules generalizing log with
  | nil => exact (List.append_nil _).symm
  | cons rule rest ih =>
      obtain ⟨r, log', hrun, hstart, hskip, hr⟩ := run_handleRule (meets rule) event rule log
      have hone : started log' = started log ++ [rule].filter fun rule =>
          Fires (meets rule) event rule ∨ Misfires (meets rule) event rule := by
        by_cases h : Fires (meets rule) event rule ∨ Misfires (meets rule) event rule
        · rw [hstart h, List.filter_cons_of_pos (by simpa using h), List.filter_nil]
        · rw [hskip h, List.filter_cons_of_neg (by simpa using h), List.filter_nil,
            List.append_nil]
      unfold handleRules reached
      cases r with
      | error e =>
          have hu : Unreported (meets rule) event rule := by
            by_contra h
            cases hr.mpr h
          rw [Call.run_bind, hrun, if_pos hu]
          exact hone
      | ok u =>
          rw [Call.run_bind_of_ok hrun, if_neg (hr.mp rfl), ih, hone, List.append_assoc,
            ← List.filter_append, List.singleton_append]

theorem reached_prefix (meets : AutomationRule → Encounter) (event : BusEvent)
    (rules : List AutomationRule) :
    ∃ left, rules = reached meets event rules ++ left := by
  induction rules with
  | nil => exact ⟨[], rfl⟩
  | cons rule rest ih =>
      unfold reached
      by_cases hu : Unreported (meets rule) event rule
      · rw [if_pos hu]
        exact ⟨rest, rfl⟩
      · obtain ⟨left, hleft⟩ := ih
        rw [if_neg hu]
        exact ⟨left, by rw [List.cons_append, ← hleft]⟩

/-- A rule is reached when no rule before it stays unreported. -/
theorem mem_reached (meets : AutomationRule → Encounter) (event : BusEvent)
    {before rest : List AutomationRule} {rule : AutomationRule}
    (hn : (before ++ rule :: rest).Nodup) :
    rule ∈ reached meets event (before ++ rule :: rest) ↔
      ∀ r ∈ before, ¬ Unreported (meets r) event r := by
  induction before with
  | nil =>
      refine iff_of_true ?_ (by simp)
      unfold reached
      exact List.mem_cons_self
  | cons r before ih =>
      rw [List.cons_append, List.nodup_cons] at hn
      have hne : rule ≠ r := fun h => hn.1 (by simp [h])
      rw [List.cons_append]
      unfold reached
      rw [List.mem_cons, or_iff_right hne, List.forall_mem_cons]
      by_cases hu : Unreported (meets r) event r
      · rw [if_pos hu]
        exact iff_of_false (by simp) fun h => h.1 hu
      · rw [if_neg hu, ih hn.2]
        exact (and_iff_right hu).symm

/-- What is chosen of a list without repetitions is chosen of a prefix already. -/
theorem filter_prefix_iff {α : Type} {l front back : List α} {p q : α → Bool}
    (hl : l = front ++ back) (hn : l.Nodup) (hqp : ∀ a, q a = true → p a = true) :
    front.filter p = l.filter q ↔
      (∀ a ∈ front, p a = true → q a = true) ∧ ∀ a ∈ back, ¬ q a = true := by
  subst hl
  constructor
  · intro h
    refine ⟨fun a ha hp => ?_, fun a ha hq => ?_⟩
    · have hmem : a ∈ (front ++ back).filter q := h ▸ List.mem_filter.mpr ⟨ha, hp⟩
      exact (List.mem_filter.mp hmem).2
    · have hmem : a ∈ front.filter p :=
        h ▸ List.mem_filter.mpr ⟨List.mem_append_right front ha, hq⟩
      exact List.disjoint_of_nodup_append hn (List.mem_filter.mp hmem).1 ha
  · intro ⟨hfront, hback⟩
    rw [List.filter_append, List.filter_eq_nil_iff.mpr hback, List.append_nil]
    refine List.filter_congr fun a ha => ?_
    exact Bool.eq_iff_iff.mpr ⟨hfront a ha, hqp a⟩

open Classical in
/-- **Firing.** An event fires exactly its rules if and only if no rule that the loop comes
to misfires, and the event calls for no rule behind one that stays unreported. -/
theorem fires_exactly_iff (rules : List AutomationRule) (meets : AutomationRule → Encounter)
    (event : BusEvent) (house : String) (hkey : (rules.map (·.id)).Nodup)
    (htype : event.type = .deviceStateChanged) (hdepth : event.depth < maxAutomationDepth)
    (hhouse : event.text? "house_id" = some house) (hne : house ≠ "") :
    FiresExactly rules meets event house ↔
      ∀ before rule rest, enabledForHouse rules house = before ++ rule :: rest →
        ((∀ r ∈ before, ¬ Unreported (meets r) event r) → ¬ Misfires (meets rule) event rule) ∧
          ((∃ r ∈ before, Unreported (meets r) event r) → ¬ Fires (meets rule) event rule) := by
  have hnodup : (enabledForHouse rules house).Nodup := (List.Nodup.of_map _ hkey).filter _
  have hrun : handleEvent rules meets event =
      handleRules meets event (enabledForHouse rules house) := by
    unfold handleEvent
    rw [if_neg (by simp [htype, hdepth]), hhouse]
    exact if_neg hne
  have hstarted := run_handleRules meets event (enabledForHouse rules house) []
  obtain ⟨left, hleft⟩ := reached_prefix meets event (enabledForHouse rules house)
  unfold FiresExactly
  rw [hrun, hstarted, started, List.filterMap_nil, List.nil_append,
    filter_prefix_iff hleft hnodup (by simpa using fun rule h => .inl h)]
  simp only [decide_eq_true_eq]
  constructor
  · intro ⟨hfront, hback⟩ before rule rest hsplit
    have hreach := mem_reached meets event (hsplit ▸ hnodup)
    rw [← hsplit] at hreach
    refine ⟨fun hwhole hmis => ?_, fun ⟨r, hr, hun⟩ => ?_⟩
    · exact not_fires_of_misfires hmis (hfront rule (hreach.mpr hwhole) (.inr hmis))
    · have hmem : rule ∈ enabledForHouse rules house := by simp [hsplit]
      rw [hleft, List.mem_append] at hmem
      exact hback rule (hmem.resolve_left fun hmem => hreach.mp hmem r hr hun)
  · intro h
    refine ⟨fun rule hmem hcode => ?_, fun rule hmem => ?_⟩
    · have hmem' : rule ∈ enabledForHouse rules house := by
        rw [hleft]
        exact List.mem_append_left left hmem
      obtain ⟨before, rest, hsplit⟩ := List.append_of_mem hmem'
      have hreach := mem_reached meets event (hsplit ▸ hnodup)
      rw [← hsplit] at hreach
      exact hcode.resolve_right ((h before rule rest hsplit).1 (hreach.mp hmem))
    · have hmem' : rule ∈ enabledForHouse rules house := by
        rw [hleft]
        exact List.mem_append_right _ hmem
      obtain ⟨before, rest, hsplit⟩ := List.append_of_mem hmem'
      have hreach := mem_reached meets event (hsplit ▸ hnodup)
      rw [← hsplit] at hreach
      refine (h before rule rest hsplit).2 ?_
      by_contra hall
      simp only [not_exists, not_and] at hall
      exact List.disjoint_of_nodup_append (hleft ▸ hnodup) (hreach.mpr hall) hmem

/-! ### A rule on the brightness of a lamp that is switched on -/

namespace Household

/-- Open the blind when the lamp is not at full brightness any more. -/
def dimmed : AutomationRule where
  id := "dimmed"
  name := "Dimmed"
  houseId := "home"
  enabled := true
  trigger := ⟨"lamp", "brightness", .neq, .int 100⟩
  conditions := []
  actions := [.deviceState "blind" [("position", .int 100)]]

/-- The lamp is at full brightness, and everything that is awaited returns. -/
def evening : Encounter where
  houses := ["home"]
  tables := {
    devices := [⟨"lamp", "hall", "light", ["on_off", "brightness"], true⟩,
      ⟨"blind", "hall", "blind", ["position"], true⟩]
    physical := []
    rooms := [⟨"hall", "ground"⟩]
    floors := [⟨"ground", "home"⟩] }
  states device := if device = "lamp" then [("on", .bool true), ("brightness", .int 100)] else []
  current _ := 0
  updateState _ _ _ _ _ := .ok ()
  publish _ := .ok ()
  rescue := .ok ()

def event (changed : DeviceState) : BusEvent := .change "lamp" (some "home") changed "evening" 0

end Household

open Household in
theorem fires_exactly_iff_lamp :
    FiresExactly [dimmed] (fun _ => evening) (event [("brightness", .int 40)]) "home" ↔
      ∀ before rule rest, enabledForHouse [dimmed] "home" = before ++ rule :: rest →
        ((∀ r ∈ before, ¬ Unreported evening (event [("brightness", .int 40)]) r) →
          ¬ Misfires evening (event [("brightness", .int 40)]) rule) ∧
        ((∃ r ∈ before, Unreported evening (event [("brightness", .int 40)]) r) →
          ¬ Fires evening (event [("brightness", .int 40)]) rule) :=
  fires_exactly_iff [dimmed] (fun _ => evening) (event [("brightness", .int 40)]) "home"
    (by decide) rfl (by decide) rfl (by decide)

open Household Classical in
/-- The lamp is switched on, its brightness stays, and the rule opens the blind. -/
theorem misfired_lamp :
    ¬ FiresExactly [dimmed] (fun _ => evening) (event [("on", .bool true)]) "home" := by
  intro h
  have hstarted : started ((handleEvent [dimmed] (fun _ => evening)
      (event [("on", .bool true)])).run []).2 = [dimmed] := rfl
  have hmem : dimmed ∈ [dimmed] := List.mem_cons_self
  rw [← hstarted, h, List.mem_filter, decide_eq_true_eq] at hmem
  obtain ⟨value, hfield, -⟩ := hmem.2.changed
  cases hfield

end Firings

end KzHome

import KzHome.Decisions
import KzHome.EventBus
import KzHome.JsonValues
import KzHome.Operations
import KzHome.StateValidator

/-!
# KzHome.StateReports

A state message on its way through Core.

`_route` admits the device, hands the message to `DeviceService.report_state`,
which stores what changed and publishes one event, and after that to
`CommandService.state`, which records it as evidence. The three parts are awaited
one after the other in one handler, so an exception in an earlier part keeps the
message from the later ones. What the subscribers of the bus work with is the
`outside` of a `Site`: they can do to it what they like and raise what they like,
but the tables, the ledger and the process are not theirs. While they are awaited
the clocks run on, so the readings that Core takes afterwards are other ones.
-/

namespace KzHome

open StateValidator (DeviceState)

/-! ### The ledger accepts what a job decides -/

/-- A pending status is reached from pending statuses only. -/
theorem CommandStatus.Moves.pending {s s' : CommandStatus} (h : s.Moves s')
    (hp : s'.pending = true) : s.pending = true := by
  cases h with
  | stay => exact hp
  | dispatch => rfl
  | finish h h' => exact h

/-- **A decided row is accepted by the database**: no constraint can fail on a row that
only moved along its life cycle. -/
theorem Ledger.Valid.accepts {l : Ledger} (hv : l.Valid) {row row' : DeviceCommand}
    (hr : row ∈ l.commands) (h : row.Lifecycle row') :
    ∃ l', l.apply { update := some row' } = some l' := by
  have hfix := h.fixed
  simp only [DeviceCommand.fixedColumns, Prod.mk.injEq] at hfix
  obtain ⟨hid, hcorr, hhouse, hdev, huser, hkey, hon, hcreated, hexp⟩ := hfix
  -- the only row that is overwritten is `row` itself
  have hold : ∀ r ∈ l.commands, r.commandId = row'.commandId → r = row := fun r hmem hk =>
    Table.eq_of_key hv.commandIds hmem hr (hk.trans hid)
  have hcol : ∀ {β : Type} (f : DeviceCommand → β), f row' = f row →
      (Table.replace (·.commandId) l.commands row').map f = l.commands.map f := fun f hf =>
    Table.map_replace fun r hmem hk => by rw [hold r hmem hk]; exact hf
  have hvalid : Ledger.Valid ⟨Table.replace (·.commandId) l.commands row', l.controls⟩ := by
    refine ⟨?_, ?_, ?_, ?_, ?_, hv.controlIds, ?_, hv.bindings, hv.controlChecks⟩
    · rw [Table.map_key_replace]; exact hv.commandIds
    · rw [hcol (·.correlationId) hcorr]; exact hv.correlationIds
    · rw [hcol (·.key) (by simp [DeviceCommand.key, hhouse, huser, hkey])]; exact hv.keys
    · refine List.Nodup.sublist (Table.replace_filter fun r hmem hk => ?_) hv.pendingDevices
      rw [hold r hmem hk]
      exact ⟨hdev, h.status.pending⟩
    · intro r hmem
      rcases Table.mem_replace.mp hmem with ⟨rfl, -⟩ | ⟨hmem, -⟩
      · have := hv.deadlines row hr
        rw [hcreated, hexp]; exact this
      · exact hv.deadlines r hmem
    · intro record hmem
      have := hv.controlCommands record hmem
      rw [Table.map_key_replace]; exact this
  refine ⟨⟨Table.replace (·.commandId) l.commands row', l.controls⟩, ?_⟩
  unfold Ledger.apply Ledger.controlsAfter
  simp only [Option.map_some, Option.toList_none, List.append_nil]
  rw [Ledger.commandsAfter]
  simp only [Option.toList_none, List.append_nil]
  rw [if_pos (Ledger.check_iff.mpr hvalid)]

/-! ### The handler -/

/-- What a state message is processed with: the tables, the stored states, the ledger
with the rows that were committed so far, the process, and what the subscribers of
the bus work with. -/
structure Site (τ : Type) where
  registry : Registry
  states : String → DeviceState
  ledger : Ledger
  recorded : List DeviceCommand
  port : Port
  outside : τ

/-- A state message, decoded. -/
structure StateFrame where
  house : String
  device : String
  envelope : StateEnvelope
  retained : Bool

namespace Site

variable {τ : Type}

/-- What a subscriber works with: its objects, and the clocks. -/
def surroundings (w : Site τ) : τ × Sources := (w.outside, w.port.sources)

def withSurroundings (w : Site τ) (s : τ × Sources) : Site τ :=
  { w with outside := s.1, port := { w.port with sources := s.2 } }

end Site

namespace StateReports

variable {τ : Type}

/-- `require_house`, in a session of its own. -/
def requireHouse (house device : String) : Call (Site τ) Error Device := do
  let w ← Call.self
  Call.lift (w.registry.requireHouse house device)

/-- `event_bus.publish` -/
def publish (bus : EventBus (τ × Sources)) (event : BusEvent) : Call (Site τ) Error Unit :=
  Call.zoom Site.surroundings Site.withSurroundings (bus.publish event)

/-- `_persist_state` -/
def persistState (bus : EventBus (τ × Sources)) (device : String) (patch : DeviceState)
    (correlationId : String) : Call (Site τ) Error Unit := do
  let w ← Call.self
  let changed := Json.changes (w.states device) patch
  if changed.isEmpty then return ()
  else
    Call.update fun w => { w with
      states := Function.update w.states device (Json.merge (w.states device) changed) }
    let house ← Call.lift (w.registry.houseId device)
    publish bus (BusEvent.change device house changed correlationId 0)

/-- `report_state` -/
def reportState (bus : EventBus (τ × Sources)) (frame : StateFrame) : Call (Site τ) Error Unit := do
  let entity ← requireHouse frame.house frame.device
  Call.lift (StateValidator.validateReport entity.capabilities frame.envelope.state)
  persistState bus frame.device frame.envelope.state frame.envelope.correlationId

/-- `CommandService.state` -/
def commandState (frame : StateFrame) : Call (Site τ) Error Unit := do
  let w ← Call.self
  match w.ledger.commands.find?
    (Selector.reported frame.house frame.device frame.envelope.correlationId).matches with
  | none => return ()
  | some row =>
    let row ← Call.zoom Site.port (fun w port => { w with port })
      (CommandService.state row (w.ledger.control? row.commandId) frame.envelope frame.retained)
    match w.ledger.apply { update := some row } with
    | none => Call.raise (.conflict "Command conflicts with an existing request")
    | some ledger => Call.update fun w => { w with ledger, recorded := w.recorded ++ [row] }

/-- `_route`, for a state message. -/
def route (bus : EventBus (τ × Sources)) (frame : StateFrame) : Call (Site τ) Error Unit := do
  let _ ← requireHouse frame.house frame.device
  reportState bus frame
  commandState frame

end StateReports

/-! ### What a report leaves behind -/

/-- The row without the instants at which a report has written it. -/
def DeviceCommand.untimed (row : DeviceCommand) : DeviceCommand :=
  { row with
    updatedAt := 0
    stateReceivedAt := row.stateReceivedAt.map fun _ => 0
    completedAt := row.completedAt.map fun _ => 0 }

/-- The evidence half of a site: the ledger, and the rows committed to it. -/
def Site.evidence {τ : Type} (w : Site τ) : Ledger × List DeviceCommand := (w.ledger, w.recorded)

/-- The evidence, without the instants at which it was written. -/
def Site.untimed {τ : Type} (w : Site τ) : List DeviceCommand × List ControlCommand ×
    List DeviceCommand :=
  (w.ledger.commands.map (·.untimed), w.ledger.controls, w.recorded.map (·.untimed))

open CommandService StateReports

/-- A live report of the pending command `row`, which makes `row'` of it: the device is
admitted, the state is valid for it, the message is not retained and is correlated with
an eligible row, the deadline check passes, and the clock answers. -/
structure LiveReport {τ : Type} (w : Site τ) (frame : StateFrame) (row row' : DeviceCommand) :
    Prop where
  constraints : w.ledger.Valid
  admitted : ∃ entity, w.registry.requireHouse frame.house frame.device = .ok entity ∧
    StateValidator.validateReport entity.capabilities frame.envelope.state = .ok ()
  live : frame.retained = false
  correlated : w.ledger.commands.find?
    (Selector.reported frame.house frame.device frame.envelope.correlationId).matches = some row
  pending : row.status.pending = true
  started : row.dispatchStartedAt.isSome = true
  permitted : permitEvidence (w.ledger.control? row.commandId) = true
  reports : (Json.asBool (Json.member frame.envelope.state "on")).isSome = true
  inTime : ∃ p, (overdue row (w.ledger.control? row.commandId)).run w.port = (.ok false, p)
  answered : ∃ p, (CommandService.state row (w.ledger.control? row.commandId) frame.envelope
    frame.retained).run w.port = (.ok row', p)

namespace LiveReport

variable {τ : Type} {w w' : Site τ} {frame : StateFrame} {row row' : DeviceCommand}

/-- What a live report makes of the row. -/
theorem confirmed (h : LiveReport w frame row row') :
    ∃ on r u p p', Json.asBool (Json.member frame.envelope.state "on") = some on ∧
      Confirmed (row.reported on r u) (w.ledger.control? row.commandId) p p' row' := by
  obtain ⟨q, ho⟩ := h.inTime
  obtain ⟨p, hs⟩ := h.answered
  have hd : Decided row (w.ledger.control? row.commandId) w.port p
      (.state frame.house frame.device frame.envelope frame.retained) row' := Job.decided hs
  have he : eligible row frame.retained = true := by
    simp only [eligible, h.live, h.pending, h.started, Bool.not_false, Bool.and_self]
  have hr := h.reports
  cases hd with
  | terminal hp => rw [h.pending] at hp; cases hp
  | late hp ho' => rw [ho] at ho'; cases ho'
  | ignored hp ho' hi =>
      rcases hi with hi | hi | hi
      · rw [hi] at hr; cases hr
      · rw [he] at hi; cases hi
      · rw [h.permitted] at hi; cases hi
  | reported hp ho' he' hperm hon hreads hc => exact ⟨_, _, _, _, _, hon, hc⟩

/-- What the ledger records of a live report: its value and the time it was received. -/
theorem records (h : LiveReport w frame row row') :
    row'.reportedOn = Json.asBool (Json.member frame.envelope.state "on") ∧
      row'.stateReceivedAt.isSome = true := by
  obtain ⟨on, r, u, p, p', hon, hc⟩ := h.confirmed
  rw [hon]
  cases hc with
  | «open» => exact ⟨rfl, rfl⟩
  | applied => exact ⟨rfl, rfl⟩

/-- It closes the row as applied, or leaves it pending. -/
theorem status (h : LiveReport w frame row row') : row'.status ≠ .timedOut := by
  obtain ⟨on, r, u, p, p', hon, hc⟩ := h.confirmed
  cases hc with
  | «open» =>
      intro hstatus
      have hpending := h.pending
      rw [show row.status = .timedOut from hstatus] at hpending
      cases hpending
  | applied => exact fun hstatus => by cases hstatus

/-- The guards pass. -/
theorem run_requireHouse (h : LiveReport w frame row row') :
    ∃ entity, (requireHouse (τ := τ) frame.house frame.device).run w = (.ok entity, w) ∧
      StateValidator.validateReport entity.capabilities frame.envelope.state = .ok () := by
  obtain ⟨entity, ha, hv⟩ := h.admitted
  exact ⟨entity, by simp only [requireHouse, Call.run_bind_self, Call.run_lift, ha], hv⟩

/-- **The command half records the report**, whatever else happened at the site. -/
theorem run_commandState (h : LiveReport w frame row row') :
    ∃ ledger, w.ledger.apply { update := some row' } = some ledger ∧
      ∃ port, (commandState frame).run w =
        (.ok (), { w with ledger, port, recorded := w.recorded ++ [row'] }) := by
  obtain ⟨p, hs⟩ := h.answered
  have hd : Decided row (w.ledger.control? row.commandId) w.port p
      (.state frame.house frame.device frame.envelope frame.retained) row' := Job.decided hs
  obtain ⟨ledger, hl⟩ :=
    h.constraints.accepts (List.mem_of_find?_eq_some h.correlated) hd.lifecycle
  refine ⟨ledger, hl, p, ?_⟩
  simp only [commandState, Call.run_bind_self, h.correlated]
  rw [Call.run_bind_of_ok (Call.run_zoom_ok.mpr ⟨p, hs, rfl⟩), hl]
  rfl

end LiveReport

/-- The stored state of the device has everything the report says. -/
def Unchanged {τ : Type} (w : Site τ) (frame : StateFrame) : Prop :=
  Json.changes (w.states frame.device) frame.envelope.state = []

/-- The delivery of the event of the change. -/
def delivery {τ : Type} (bus : EventBus (τ × Sources)) (w : Site τ) (frame : StateFrame) :
    Except Error Unit × (τ × Sources) :=
  (bus.publish (BusEvent.change frame.device (some frame.house)
    (Json.changes (w.states frame.device) frame.envelope.state)
    frame.envelope.correlationId 0)).run w.surroundings

/-- Every subscriber returns from the event of the change. -/
def Delivered {τ : Type} (bus : EventBus (τ × Sources)) (w : Site τ) (frame : StateFrame) : Prop :=
  (delivery bus w frame).1 = .ok ()

/-- The command has time on the port: the deadline check passes, and the clock answers. -/
def InTime {τ : Type} (w : Site τ) (frame : StateFrame) (row : DeviceCommand) (port : Port) : Prop :=
  (∃ p, (overdue row (w.ledger.control? row.commandId)).run port = (.ok false, p)) ∧
    ∃ row' p, (CommandService.state row (w.ledger.control? row.commandId) frame.envelope
      frame.retained).run port = (.ok row', p)

/-- The command has still time when the subscribers have returned. -/
def StillInTime {τ : Type} (bus : EventBus (τ × Sources)) (w : Site τ) (frame : StateFrame)
    (row : DeviceCommand) : Prop :=
  InTime w frame row { w.port with sources := (delivery bus w frame).2.2 }

/-- The evidence after the report is what it is without any subscriber: on the readings that are
left, exactly, and on any readings, but for the instants. -/
structure RecordsAlike {τ : Type} (bus : EventBus (τ × Sources)) (w : Site τ) (frame : StateFrame) :
    Prop where
  exactly : ((route bus frame).run w).2.evidence = ((route .silent frame).run
    { w with port := ((reportState bus frame).run w).2.port }).2.evidence
  alike : ((route bus frame).run w).2.untimed = ((route .silent frame).run w).2.untimed

section Route

variable {τ : Type} {w w' : Site τ} {frame : StateFrame} {row row' row₁ row₂ : DeviceCommand}

/-- What a state job makes of a row that has no time. -/
theorem state_late {control : Option ControlCommand} {p p' : Port}
    (hp : row.status.pending = true) (hlate : ∀ q, (overdue row control).run p ≠ (.ok false, q))
    (h : (CommandService.state row control frame.envelope frame.retained).run p = (.ok row₁, p')) :
    row₁.status = .timedOut := by
  have hd : Decided row control p p' (.state frame.house frame.device frame.envelope
    frame.retained) row₁ := Job.decided h
  cases hd with
  | terminal hterminal => rw [hp] at hterminal; cases hterminal
  | late => rfl
  | ignored _ ho => exact absurd ho (hlate _)
  | reported _ ho => exact absurd ho (hlate _)

/-- The live report on the readings that are left. -/
theorem LiveReport.later (h : LiveReport w frame row row') {port : Port}
    (ht : InTime w frame row port) : ∃ row₁, LiveReport { w with port } frame row row₁ := by
  obtain ⟨hcheck, row₁, hanswer⟩ := ht
  exact ⟨row₁, h.constraints, h.admitted, h.live, h.correlated, h.pending, h.started, h.permitted,
    h.reports, hcheck, hanswer⟩

/-- The command half has recorded a row that timed out, or nothing. -/
theorem commandState_late {port : Port} (h : LiveReport w frame row row')
    (hlate : ¬ InTime w frame row port) :
    ((commandState frame).run { w with port }).2.recorded = w.recorded ∨
      ∃ late, late.status = .timedOut ∧
        ((commandState frame).run { w with port }).2.recorded = w.recorded ++ [late] := by
  unfold commandState
  simp only [Call.run_bind_self, h.correlated]
  rw [Call.run_bind, Call.run_zoom]
  cases hs : (CommandService.state row (w.ledger.control? row.commandId) frame.envelope
      frame.retained).run port with
  | mk r p =>
      cases r with
      | error e => exact .inl rfl
      | ok late =>
          have hstatus : late.status = .timedOut :=
            state_late h.pending (fun q ho => hlate ⟨⟨q, ho⟩, late, p, hs⟩) hs
          dsimp only
          cases w.ledger.apply { update := some late } with
          | none => exact .inl rfl
          | some l => exact .inr ⟨late, hstatus, rfl⟩

/-- A report that changes nothing does nothing. -/
theorem reportState_unchanged (bus : EventBus (τ × Sources)) (h : LiveReport w frame row row')
    (hsame : Unchanged w frame) : (reportState bus frame).run w = (.ok (), w) := by
  obtain ⟨entity, ha, hv⟩ := h.run_requireHouse
  unfold reportState
  rw [Call.run_bind_of_ok ha, Call.run_bind_of_ok (Call.run_lift_ok.mpr ⟨hv, rfl⟩)]
  simp only [persistState, Call.run_bind_self]
  rw [show Json.changes (w.states frame.device) frame.envelope.state = [] from hsame]
  rfl

/-- Any other report stores its state, and ends as the delivery of its event. -/
theorem reportState_changed (bus : EventBus (τ × Sources)) (h : LiveReport w frame row row')
    (hchanged : ¬ Unchanged w frame) :
    ∃ states, (reportState bus frame).run w = ((delivery bus w frame).1,
      { w.withSurroundings (delivery bus w frame).2 with states }) := by
  obtain ⟨entity, ha, hv⟩ := h.run_requireHouse
  obtain ⟨_, hadm, -⟩ := h.admitted
  have hhouse : w.registry.houseId frame.device = .ok (some frame.house) :=
    (Registry.requireHouse_ok hadm).2
  unfold reportState
  rw [Call.run_bind_of_ok ha, Call.run_bind_of_ok (Call.run_lift_ok.mpr ⟨hv, rfl⟩)]
  simp only [persistState, Call.run_bind_self]
  rw [if_neg fun hempty => hchanged (List.isEmpty_iff.mp hempty), Call.run_bind_update,
    Call.run_bind_of_ok (Call.run_lift_ok.mpr ⟨hhouse, rfl⟩)]
  exact ⟨_, rfl⟩

/-- The command half rests on the ledger and the process only. -/
theorem commandState_congr (hl : w'.ledger = w.ledger) (hr : w'.recorded = w.recorded)
    (hp : w'.port = w.port) :
    ((commandState frame).run w').2.evidence = ((commandState frame).run w).2.evidence := by
  unfold commandState
  simp only [Call.run_bind_self, hl]
  split
  · simp only [Call.run_pure, Site.evidence, hl, hr]
  rename_i row _
  rw [Call.run_bind, Call.run_bind, Call.run_zoom, Call.run_zoom, hp]
  cases hs : ((CommandService.state row (w.ledger.control? row.commandId) frame.envelope
      frame.retained).run w.port).1 with
  | error e => simp only [Site.evidence, hl, hr]
  | ok row' =>
      dsimp only
      rw [hl]
      cases w.ledger.apply { update := some row' } with
      | none => simp only [Call.run_raise, Site.evidence, hr]
      | some ledger => simp only [Call.run_update, Site.evidence, hr]

/-- **The route of a live report**, when the device half has returned: the command half runs on the
readings that are left. -/
theorem route_ok {bus : EventBus (τ × Sources)} {w₁ : Site τ} (h : LiveReport w frame row row')
    (hrun : (reportState bus frame).run w = (.ok (), w₁)) :
    ((route bus frame).run w).2 = ((commandState frame).run w₁).2 := by
  obtain ⟨entity, ha, -⟩ := h.run_requireHouse
  unfold route
  rw [Call.run_bind_of_ok ha, Call.run_bind_of_ok hrun]

/-- A subscriber that raises keeps the message from the command half. -/
theorem route_error {bus : EventBus (τ × Sources)} {w₁ : Site τ} {e : Error}
    (h : LiveReport w frame row row') (hrun : (reportState bus frame).run w = (.error e, w₁)) :
    ((route bus frame).run w).2 = w₁ := by
  obtain ⟨entity, ha, -⟩ := h.run_requireHouse
  unfold route
  rw [Call.run_bind_of_ok ha, Call.run_bind, hrun]

/-- Without subscribers the clocks do not run on. -/
theorem route_silent (h : LiveReport w frame row row') :
    ((route .silent frame).run w).2.evidence = ((commandState frame).run w).2.evidence := by
  by_cases hsame : Unchanged w frame
  · rw [route_ok h (reportState_unchanged .silent h hsame)]
  · obtain ⟨states, hrun⟩ := reportState_changed .silent h hsame
    rw [route_ok h hrun]
    exact commandState_congr rfl rfl rfl

/-- A report that was recorded alike has reached the command half, in time. -/
theorem RecordsAlike.delivered {bus : EventBus (τ × Sources)} (h : LiveReport w frame row row')
    (halike : RecordsAlike bus w frame) (hchanged : ¬ Unchanged w frame) :
    Delivered bus w frame ∧ StillInTime bus w frame row := by
  obtain ⟨states, hrun⟩ := reportState_changed bus h hchanged
  -- without subscribers one row more is recorded
  obtain ⟨l, -, p, hsilent⟩ := h.run_commandState
  have hone : ((route .silent frame).run w).2.recorded = w.recorded ++ [row'] := by
    have hevidence := congrArg Prod.snd (route_silent h)
    rw [hsilent] at hevidence
    exact hevidence
  have hrecorded : ((route bus frame).run w).2.recorded.map (·.untimed) =
      (w.recorded ++ [row']).map (·.untimed) := by
    rw [← hone]
    exact congrArg (·.2.2) halike.alike
  have hmore : ((route bus frame).run w).2.recorded ≠ w.recorded := by
    intro hnone
    rw [hnone] at hrecorded
    exact absurd (congrArg List.length hrecorded) (by simp)
  cases hdelivery : (delivery bus w frame).1 with
  | error e =>
      rw [hdelivery] at hrun
      exact absurd (congrArg Site.recorded (route_error h hrun)) hmore
  | ok u =>
      refine ⟨hdelivery, ?_⟩
      by_contra hlate
      rw [hdelivery] at hrun
      have hcommand : ((route bus frame).run w).2.evidence = ((commandState frame).run
          { w with port := (w.withSurroundings (delivery bus w frame).2).port }).2.evidence :=
        (congrArg Site.evidence (route_ok h hrun)).trans (commandState_congr rfl rfl rfl)
      have hsame := congrArg Prod.snd hcommand
      rcases commandState_late h hlate with hnone | ⟨late, hstatus, hlast⟩
      · exact hmore (hsame.trans hnone)
      · rw [show ((route bus frame).run w).2.recorded = _ from hsame.trans hlast] at hrecorded
        simp only [List.map_append, List.map_cons, List.map_nil,
          List.append_cancel_left_eq] at hrecorded
        have hrow := congrArg DeviceCommand.status (List.cons.inj hrecorded).1
        exact h.status (hrow.symm.trans hstatus)

end Route

namespace Household

/-- The lamp's command, acknowledged and waiting for the state report. -/
def awaiting : DeviceCommand where
  commandId := "command"
  correlationId := "correlation"
  houseId := "home"
  deviceId := "lamp"
  requestedBy := "alice"
  idempotencyHash := "hash"
  requestedOn := true
  status := .dispatched
  ackStatus := some .applied
  reportedOn := none
  failureCode := none
  createdAt := 0
  updatedAt := 1
  expiresAt := 30000000
  dispatchStartedAt := some 0
  dispatchedAt := some 1
  ackReceivedAt := some 1
  stateReceivedAt := none
  completedAt := none

/-- What the report makes of the row, at instant 2. -/
def confirmed : DeviceCommand :=
  (awaiting.reported true 2 2).closed .applied none 2

/-- The lamp is off; the clock shows instant 2, and later an instant past the deadline. -/
def site : Site Unit where
  registry := {
    devices := [⟨"lamp", "hall", "relay", ["on_off"], true⟩]
    physical := []
    rooms := [⟨"hall", "ground"⟩]
    floors := [⟨"ground", "home"⟩] }
  states _ := [("on", .bool false)]
  ledger := ⟨[awaiting], []⟩
  recorded := []
  port := ⟨⟨List.replicate 5 2 ++ List.replicate 4 31000000, [], [], []⟩, {
    authority := .create ⟨"e", false, 0, 0, 0, none, false, false, 0⟩ ControlAuthority.closedGate
    connected := true
    controlSubscribed := true }⟩
  outside := ()

def report : StateFrame := ⟨"home", "lamp", ⟨"correlation", [("on", .bool true)]⟩, false⟩

/-- A bus whose only subscriber is a WebSocket peer that went away. -/
def broken : EventBus (Unit × Sources) := ⟨[fun _ => Call.raise (.other "WebSocketDisconnect")]⟩

end Household

end KzHome

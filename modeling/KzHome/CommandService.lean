import KzHome.ControlAuthority

/-!
# KzHome.CommandService

What `CommandService` does to a row it has locked.

A `Job` is one reason to touch an existing row: a read, the outcome of the
publication, an acknowledgement, a state report. Each locks the row, reads its
control record, decides here, and commits the row that comes out; the statements
around the decision are in `KzHome.Services`. Every method that is a decision is
a `Call`, because the clocks it reads can raise in the middle of it.
-/

namespace KzHome

/-- `AckEnvelope` -/
structure AckEnvelope where
  commandId : String
  correlationId : String
  status : AckStatus
  deriving DecidableEq, Repr

/-- `StateEnvelope` -/
structure StateEnvelope where
  correlationId : String
  state : List (String × Json)

/-- One reason to touch an existing ledger row. -/
inductive Job
  /-- A read, a replay or a blocked submission: expiry only. -/
  | read
  /-- The publication ended, without an exception or with one. -/
  | settle (published : Bool)
  | ack (house device : String) (envelope : AckEnvelope) (retained : Bool)
  | state (house device : String) (envelope : StateEnvelope) (retained : Bool)

namespace CommandService

open ControlAuthority (clocked)

/-- `self.now()` -/
def now : Call Port Error Instant := clocked ControlClock.readNow

/-- `event_time` -/
def eventTime (control : Option ControlCommand) : Call Port Error Instant :=
  match control with
  | some _ => clocked ControlClock.logicalNow
  | none => now

/-- `column or reading()` -/
def orRead (column : Option Instant) (reading : Call Port Error Instant) :
    Call Port Error Instant :=
  match column with
  | some t => pure t
  | none => reading

/-- `finish` -/
def finish (row : DeviceCommand) (control : Option ControlCommand) (status : CommandStatus)
    (code : Option FailureCode) : Call Port Error DeviceCommand := do
  let t ← eventTime control
  return { row with status, failureCode := code, updatedAt := t, completedAt := some t }

/-- The deadline check of `expire`. -/
def overdue (row : DeviceCommand) (control : Option ControlCommand) : Call Port Error Bool :=
  match control with
  | some record => ControlAuthority.expired record
  | none => do
    let t ← now
    return row.expiresAt ≤ t

/-- `expire` -/
def expire (row : DeviceCommand) (control : Option ControlCommand) :
    Call Port Error DeviceCommand := do
  if !row.status.pending then return row
  else
    let expired ← overdue row control
    if expired then finish row control .timedOut (some .deadlineExceeded)
    else return row

/-- `eligible`, after its call of `expire`. -/
def eligible (row : DeviceCommand) (retained : Bool) : Bool :=
  !retained && row.status.pending && row.dispatchStartedAt.isSome

/-- `permit_evidence` -/
def permitEvidence (control : Option ControlCommand) : Bool :=
  match control with
  | none => true
  | some record => record.permitBindingSha256.isSome

/-- `confirm` -/
def confirm (row : DeviceCommand) (control : Option ControlCommand) :
    Call Port Error DeviceCommand :=
  if row.ackStatus = some .applied ∧ permitEvidence control = true
      ∧ row.stateReceivedAt.isSome = true ∧ row.reportedOn = some row.requestedOn then
    finish row control .applied none
  else return row

/-- `ack`, on the row it found. -/
def ack (row : DeviceCommand) (control : Option ControlCommand) (envelope : AckEnvelope)
    (retained : Bool) : Call Port Error DeviceCommand := do
  let row ← expire row control
  if !eligible row retained then return row
  else if envelope.status = .applied ∧ permitEvidence control = false then return row
  -- ACK accepted cannot regress applied evidence
  else if envelope.status.negative
      ∨ (row.ackStatus ≠ some .applied ∧ row.ackStatus ≠ some envelope.status) then
    let received ← eventTime control
    let updated ← eventTime control
    let row := { row with
      ackStatus := some envelope.status, ackReceivedAt := some received, updatedAt := updated }
    if envelope.status.negative then
      finish row control .failed (some (.device envelope.status))
    else
      let dispatched ← orRead row.dispatchedAt (eventTime control)
      confirm { row with status := .dispatched, dispatchedAt := some dispatched } control
  else return row

/-- `state`, on the row it found. -/
def state (row : DeviceCommand) (control : Option ControlCommand) (envelope : StateEnvelope)
    (retained : Bool) : Call Port Error DeviceCommand := do
  let row ← expire row control
  match Json.asBool (Json.member envelope.state "on") with
  | some on =>
    if eligible row retained && permitEvidence control then
      let received ← eventTime control
      let updated ← eventTime control
      confirm { row with
        reportedOn := some on, stateReceivedAt := some received, updatedAt := updated } control
    else return row
  | none => return row

/-- The end of `submit`, on the row it reads again after the publication. -/
def settle (row : DeviceCommand) (control : Option ControlCommand) (published : Bool) :
    Call Port Error DeviceCommand := do
  let row ← expire row control
  if !row.status.pending then return row
  else if published then
    let dispatched ← orRead row.dispatchedAt now
    let updated ← now
    return { row with
      status := .dispatched, dispatchedAt := some dispatched, updatedAt := updated }
  else finish row control .failed (some .publishUnconfirmed)

end CommandService

/-- What a job does to the row it locked. -/
def Job.decide (job : Job) (row : DeviceCommand) (control : Option ControlCommand) :
    Call Port Error DeviceCommand :=
  match job with
  | .read => CommandService.expire row control
  | .settle published => CommandService.settle row control published
  | .ack _ _ envelope retained => CommandService.ack row control envelope retained
  | .state _ _ envelope retained => CommandService.state row control envelope retained

end KzHome

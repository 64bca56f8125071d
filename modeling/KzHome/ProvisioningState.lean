import KzHome.ControlAuthority
import KzHome.Tables

/-!
# KzHome.ProvisioningState

The state machine of a provisioning attempt.

A state is immutable: `transition` returns a new one or fails. Construction checks a
state (`__post_init__`), and so does the `replace` at the end of a transition. Digests are
taken by a `Sha256`.
-/

namespace KzHome

/-- `ProvisioningStatus` -/
inductive ProvisioningStatus
  | discovered
  | awaitingConfirmation
  | registered
  | connected
  | error
  | expired
  | cancelled
  deriving DecidableEq, Repr

/-- `ProvisioningErrorCode` -/
inductive ProvisioningErrorCode
  | proofRejected
  | transportUnavailable
  | registrationFailed
  deriving DecidableEq, Repr

/-- `ProvisioningEvent` -/
inductive ProvisioningEvent
  | proofVerified
  | confirm
  | connected
  | fail
  | cancel
  | expire
  deriving DecidableEq, Repr

/-- `ProvisioningConflict`, `ProvisioningExpired`, and the other `ValueError`s. -/
inductive ProvisioningFault
  | conflict (message : String)
  | expired (message : String)
  | value (message : String)
  deriving DecidableEq, Repr

structure ProvisioningState where
  sessionId : String
  houseId : String
  deviceId : String
  roomId : String
  createdAt : Instant
  expiresAt : Instant
  challengeHash : String
  status : ProvisioningStatus := .discovered
  revision : Nat := 0
  proofConsumed : Bool := false
  errorCode : Option ProvisioningErrorCode := none
  deriving DecidableEq, Repr

/-- `ProvisioningPublicStatus` -/
structure PublicStatus where
  sessionId : String
  houseId : String
  deviceId : String
  roomId : String
  status : ProvisioningStatus
  revision : Nat
  expiresAt : Instant
  errorCode : Option ProvisioningErrorCode
  deriving DecidableEq, Repr

/-- `TERMINAL` -/
def ProvisioningStatus.terminal : ProvisioningStatus → Bool
  | .connected | .error | .expired | .cancelled => true
  | .discovered | .awaitingConfirmation | .registered => false

/-- An ASCII letter or digit. -/
def alphanumeric (c : Char) : Bool :=
  ('a' ≤ c && c ≤ 'z') || ('A' ≤ c && c ≤ 'Z') || ('0' ≤ c && c ≤ '9')

/-- `TopicID` -/
def topicId (s : String) : Bool :=
  match s.toList with
  | [] => false
  | c :: rest => alphanumeric c && rest.length < 64 &&
      rest.all fun c => alphanumeric c || ['_', '.', '-'].contains c

/-- `[A-Za-z0-9_-]{43}`, the format of challenges and of claim codes. -/
def tokenFormat (s : String) : Bool :=
  s.length = 43 && s.toList.all fun c => alphanumeric c || c = '_' || c = '-'

/-- `[0-9a-f]{64}` -/
def digestFormat (s : String) : Bool :=
  s.length = 64 && s.toList.all fun c => ('0' ≤ c && c ≤ '9') || ('a' ≤ c && c ≤ 'f')

/-- `challenge_digest` -/
def challengeDigest (sha : Sha256) (challenge : String) : Except ProvisioningFault String :=
  if tokenFormat challenge then .ok (sha.hex challenge)
  else .error (.value "Invalid challenge format")

namespace ProvisioningState

/-- The statuses after a verified proof. -/
def proven : ProvisioningStatus → Bool
  | .awaitingConfirmation | .registered | .connected => true
  | _ => false

/-- `public_status`; the model checks the identifiers. -/
def publicStatus (s : ProvisioningState) : Except ProvisioningFault PublicStatus :=
  if topicId s.houseId && topicId s.deviceId && topicId s.roomId then
    .ok ⟨s.sessionId, s.houseId, s.deviceId, s.roomId, s.status, s.revision, s.expiresAt,
      s.errorCode⟩
  else .error (.value "ProvisioningPublicStatus")

/-- `__post_init__`: the state, if it is valid. -/
def postInit (s : ProvisioningState) : Except ProvisioningFault ProvisioningState :=
  if s.expiresAt ≤ s.createdAt then .error (.value "Expiry must follow creation")
  else if !digestFormat s.challengeHash then .error (.value "Invalid challenge digest")
  else if s.status = .discovered ∧ s.proofConsumed then
    .error (.value "Discovered attempt cannot have consumed proof")
  else if proven s.status ∧ !s.proofConsumed then .error (.value "Verified proof required")
  else if ¬ (s.status = .error ↔ s.errorCode.isSome) then
    .error (.value "Error code must match error status")
  else s.publicStatus.map fun _ => s

/-- The status that an event leads to, and whether the proof is consumed after it. -/
def target (sha : Sha256) (s : ProvisioningState) (event : ProvisioningEvent) (now : Instant)
    (challenge : Option String) (errorCode : Option ProvisioningErrorCode) :
    Except ProvisioningFault (Option ProvisioningStatus × Bool) :=
  match event with
  | .proofVerified =>
    if s.status ≠ .discovered ∨ s.proofConsumed then .error (.conflict "Proof already consumed")
    else match challenge with
      | none => .error (.conflict "Challenge mismatch")
      | some challenge => do
        let digest ← challengeDigest sha challenge
        if digest = s.challengeHash then return (some .awaitingConfirmation, true)
        else .error (.conflict "Challenge mismatch")
  | .confirm =>
    .ok (if s.status = .awaitingConfirmation then some .registered else none, s.proofConsumed)
  | .connected => .ok (if s.status = .registered then some .connected else none, s.proofConsumed)
  | .cancel => .ok (some .cancelled, s.proofConsumed)
  | .fail => .ok (errorCode.map fun _ => .error, s.proofConsumed)
  | .expire => .ok (if s.expiresAt ≤ now then some .expired else none, s.proofConsumed)

/-- `transition` up to its `replace`: the state that is to replace the old one. A time without a
timezone is `none`, and so is what is no `int`, no `ProvisioningEvent` or no
`ProvisioningErrorCode`. -/
def proposal (sha : Sha256) (s : ProvisioningState) (event : Option ProvisioningEvent)
    (expectedRevision : Option Int) (now : Option Instant) (challenge : Option String)
    (errorCode : Option (Option ProvisioningErrorCode)) :
    Except ProvisioningFault ProvisioningState :=
  match now with
  | none => .error (.value "Timezone-aware time required")
  | some now =>
    if expectedRevision ≠ some (s.revision : Int) then .error (.conflict "Revision conflict")
    else match event with
      | none => .error (.conflict "Unknown event")
      | some event =>
        if now < s.createdAt then .error (.conflict "Time precedes creation")
        else if s.status.terminal then .error (.conflict "Attempt is terminal")
        else if s.expiresAt ≤ now ∧ event ≠ .expire then .error (.expired "Attempt expired")
        else if challenge.isSome ∧ event ≠ .proofVerified then
          .error (.conflict "Unexpected challenge")
        else if errorCode.isSome ∧ event ≠ .fail then .error (.conflict "Unexpected error code")
        else match target sha s event now challenge errorCode.join with
          | .error e => .error e
          | .ok (none, _) => .error (.conflict "Transition not allowed")
          | .ok (some status, consumed) => .ok { s with
              status
              revision := s.revision + 1
              proofConsumed := consumed
              errorCode := errorCode.join }

/-- `transition`; `replace` runs `__post_init__` on the new state. -/
def transition (sha : Sha256) (s : ProvisioningState) (event : Option ProvisioningEvent)
    (expectedRevision : Option Int) (now : Option Instant) (challenge : Option String := none)
    (errorCode : Option (Option ProvisioningErrorCode) := none) :
    Except ProvisioningFault ProvisioningState :=
  (proposal sha s event expectedRevision now challenge errorCode).bind postInit

end ProvisioningState

end KzHome

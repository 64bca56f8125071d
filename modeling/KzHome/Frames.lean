import KzHome.Relay
import KzHome.Topics
import KzHome.CommandService

/-!
# KzHome.Frames

`handle_message`: how Core reads a message of the broker, up to the handler that it calls.

The bytes are decoded in the encoding that `json.loads` finds in them, the text is JSON, and its
bounds are checked by a loop over a stack: the keys and values of an object are put there, and the
last one is taken next. The loop visits what the value is made of, in another order
(`boundsLoop_eq`), so that it refuses what `validate_json_bounds` is said to refuse.

The device is admitted before its envelope is read.
-/

namespace KzHome.Frames

open JsonGrammar PyValues
open Simulator (Stamp Message jsonDepth leaves leavesItems leavesMembers intFits textWithin
  identifierField protocolVersion)

/-! ### Bytes -/

/-- What `json.detect_encoding` answers. -/
inductive Encoding
  | utf8
  | utf8Sig
  | utf16
  | utf16be
  | utf16le
  | utf32
  | utf32be
  | utf32le
  deriving DecidableEq, Repr

/-- `json.detect_encoding` -/
def detectEncoding (b : List UInt8) : Encoding :=
  if [0x00, 0x00, 0xFE, 0xFF].isPrefixOf b || [0xFF, 0xFE, 0x00, 0x00].isPrefixOf b then .utf32
  else if [0xFE, 0xFF].isPrefixOf b || [0xFF, 0xFE].isPrefixOf b then .utf16
  else if [0xEF, 0xBB, 0xBF].isPrefixOf b then .utf8Sig
  else match b with
    | b₀ :: b₁ :: b₂ :: b₃ :: _ =>
      if b₀ = 0 then if b₁ ≠ 0 then .utf16be else .utf32be
      else if b₁ = 0 then if b₂ ≠ 0 || b₃ ≠ 0 then .utf16le else .utf32le
      else .utf8
    | [b₀, b₁] =>
      if b₀ = 0 then .utf16be else if b₁ = 0 then .utf16le else .utf8
    | _ => .utf8

/-- How deep the interpreter's stack is, how the other encodings are decoded, and what pydantic
reads as a datetime or an integer. -/
structure Parser where
  levels : Nat
  decode : Encoding → ByteArray → Option String
  datetime : Value → Option Stamp
  integer : Value → Option Int

/-- The text that `json.loads` reads. -/
def Parser.text (p : Parser) (payload : ByteArray) : Option String :=
  match detectEncoding payload.data.toList with
  | .utf8 => String.fromUTF8? payload
  | encoding => p.decode encoding payload

/-! ### `validate_json_bounds` -/

mutual

/-- What a value is made of. -/
def weight : Value → Nat
  | .arr items => weightItems items + 1
  | .obj members => weightMembers members + 1
  | _ => 1

def weightItems : List Value → Nat
  | [] => 0
  | v :: vs => weight v + weightItems vs

def weightMembers : List (List Nat × Value) → Nat
  | [] => 0
  | (_, v) :: ms => weight v + 1 + weightMembers ms

end

/-- `stack.extend`, of a stack whose top comes first. -/
def extend (items stack : List Value) : List Value := items.reverse ++ stack

theorem weightItems_append (xs ys : List Value) :
    weightItems (xs ++ ys) = weightItems xs + weightItems ys := by
  induction xs with
  | nil => simp [weightItems]
  | cons x xs ih =>
      rw [List.cons_append, weightItems, weightItems, ih]
      omega

theorem weightItems_extend (items stack : List Value) :
    weightItems (extend items stack) = weightItems items + weightItems stack := by
  have hreverse : ∀ xs : List Value, weightItems xs.reverse = weightItems xs := by
    intro xs
    induction xs with
    | nil => rfl
    | cons x xs ih =>
        rw [List.reverse_cons, weightItems_append, ih, weightItems, weightItems, weightItems]
        omega
  rw [extend, weightItems_append, hreverse]

/-- `item.keys()` -/
def keys (members : List (List Nat × Value)) : List Value := members.map fun m => .str m.1

/-- `item.values()` -/
def values (members : List (List Nat × Value)) : List Value := members.map Prod.snd

/-- The keys and the values of an object weigh what the object says. -/
theorem weightMembers_eq (members : List (List Nat × Value)) :
    weightItems (keys members) + weightItems (values members) = weightMembers members := by
  induction members with
  | nil => rfl
  | cons m ms ih =>
      have hkeys : weightItems (keys (m :: ms)) = 1 + weightItems (keys ms) := rfl
      have hvalues : weightItems (values (m :: ms)) = weight m.2 + weightItems (values ms) := rfl
      rw [hkeys, hvalues, weightMembers]
      omega

theorem weight_pos (v : Value) : 0 < weight v := by
  cases v <;> simp [weight]

/-- The loop over the stack. -/
def boundsLoop : List Value → Bool
  | [] => true
  | .str s :: stack => textWithin 1024 s && boundsLoop stack
  | .obj members :: stack =>
    boundsLoop (extend (values members) (extend (keys members) stack))
  | .arr items :: stack => boundsLoop (extend items stack)
  | _ :: stack => boundsLoop stack
termination_by stack => weightItems stack
decreasing_by
  all_goals simp only [weightItems, weight, weightItems_extend]
  · omega
  · have := weightMembers_eq members
    omega
  · omega
  · have := weight_pos ‹Value›
    omega

/-- `validate_json_bounds` -/
def validateJsonBounds (v : Value) : Bool := jsonDepth 1 v ≤ 8 && boundsLoop [v]

/-- A string of at most 1024 bytes, or no string. -/
def shortString : Value → Bool
  | .str s => textWithin 1024 s
  | _ => true

theorem leavesItems_append (xs ys : List Value) :
    leavesItems (xs ++ ys) = leavesItems xs ++ leavesItems ys := by
  induction xs with
  | nil => rfl
  | cons x xs ih => rw [List.cons_append, leavesItems, leavesItems, ih, List.append_assoc]

theorem all_leavesItems_reverse (p : Value → Bool) (xs : List Value) :
    (leavesItems xs.reverse).all p = (leavesItems xs).all p := by
  induction xs with
  | nil => rfl
  | cons x xs ih =>
      rw [List.reverse_cons, leavesItems_append, List.all_append, ih, leavesItems, leavesItems,
        List.all_append, Bool.and_comm]
      simp [leavesItems]

theorem all_leaves_extend (p : Value → Bool) (items stack : List Value) :
    (leavesItems (extend items stack)).all p =
      ((leavesItems items).all p && (leavesItems stack).all p) := by
  rw [extend, leavesItems_append, List.all_append, all_leavesItems_reverse]

theorem all_leavesMembers (p : Value → Bool) (members : List (List Nat × Value)) :
    (leavesMembers members).all p =
      ((leavesItems (values members)).all p && (leavesItems (keys members)).all p) := by
  induction members with
  | nil => rfl
  | cons m ms ih =>
      have hvalues : leavesItems (values (m :: ms)) = leaves m.2 ++ leavesItems (values ms) := rfl
      have hkeys : leavesItems (keys (m :: ms)) = .str m.1 :: leavesItems (keys ms) := rfl
      rw [hvalues, hkeys, leavesMembers, List.all_cons, List.all_append, List.all_append,
        List.all_cons, ih]
      ac_rfl

theorem leaves_scalar {v : Value} (harr : ∀ items, v ≠ .arr items)
    (hobj : ∀ members, v ≠ .obj members) : leaves v = [v] := by
  cases v with
  | arr items => exact absurd rfl (harr items)
  | obj members => exact absurd rfl (hobj members)
  | _ => rfl

/-- **The loop visits every scalar and every name**, each of them once. -/
theorem boundsLoop_eq (stack : List Value) :
    boundsLoop stack = (leavesItems stack).all shortString := by
  induction stack using boundsLoop.induct with
  | case1 => rw [boundsLoop]; rfl
  | case2 s stack ih =>
      rw [boundsLoop, ih, leavesItems, leaves_scalar (v := .str s) nofun nofun,
        List.all_append, List.all_cons, List.all_nil, Bool.and_true]
      rfl
  | case3 members stack ih =>
      rw [boundsLoop, ih, leavesItems, leaves, List.all_append, all_leaves_extend,
        all_leaves_extend, all_leavesMembers, Bool.and_assoc]
  | case4 items stack ih =>
      rw [boundsLoop, ih, leavesItems, leaves, List.all_append, all_leaves_extend]
  | case5 v stack hstr hobj harr ih =>
      have hshort : shortString v = true := by
        cases v with
        | str s => exact (hstr s rfl).elim
        | _ => rfl
      rw [boundsLoop, ih, leavesItems, leaves_scalar harr hobj, List.all_append, List.all_cons,
        List.all_nil, Bool.and_true, hshort, Bool.true_and]
      · exact hstr
      · exact hobj
      · exact harr

/-- What the loop refuses is what the relay refuses. -/
theorem validateJsonBounds_eq (v : Value) :
    validateJsonBounds v = Simulator.validateJsonBounds v := by
  rw [validateJsonBounds, Simulator.validateJsonBounds, boundsLoop_eq, leavesItems, leavesItems,
    List.append_nil]
  refine congrArg (decide (jsonDepth 1 v ≤ 8) && ·) (congrArg (leaves v).all (funext fun w => ?_))
  cases w <;> rfl

/-! ### Envelopes -/

abbrev Members := List (List Nat × Value)

/-- `StateEnvelope` -/
structure StateEnvelope where
  timestamp : Stamp
  correlationId : String
  state : Members

/-- `AckEnvelope` -/
structure AckEnvelope where
  commandId : String
  correlationId : String
  timestamp : Option Stamp
  status : AckStatus
  errorCode : Option String
  message : Option String

/-- `StatusEnvelope` -/
structure StatusEnvelope where
  timestamp : Option Stamp
  online : Bool
  lastSeen : Stamp
  heartbeatIntervalSeconds : Option Int

/-- `TelemetryEnvelope` -/
structure TelemetryEnvelope where
  timestamp : Stamp
  correlationId : String
  metrics : Members

/-- `str = Field(default="", max_length=bound)` -/
def textField (bound : Nat) (raw : Members) (name : String) : Option String :=
  match lookup raw (points name) with
  | none => some ""
  | some (.str s) => (text? s).filter fun t => t.length ≤ bound
  | some _ => none

/-- `str | None = Field(default=None, max_length=bound)` -/
def optionalText (bound : Nat) (raw : Members) (name : String) : Option (Option String) :=
  match lookup raw (points name) with
  | none => some none
  | some .null => some none
  | some (.str s) => ((text? s).filter fun t => t.length ≤ bound).map some
  | some _ => none

/-- `datetime | None = None` -/
def optionalStamp (p : Parser) (raw : Members) (name : String) : Option (Option Stamp) :=
  match lookup raw (points name) with
  | none => some none
  | some .null => some none
  | some v => (p.datetime v).map some

/-- `datetime` -/
def stampField (p : Parser) (raw : Members) (name : String) : Option Stamp :=
  (lookup raw (points name)).bind p.datetime

/-- `Literal[...]` -/
def literalField {α : Type} (values : List (String × α)) (raw : Members) (name : String) :
    Option α :=
  match lookup raw (points name) with
  | some (.str s) => (values.find? fun e => points e.1 = s).map Prod.snd
  | _ => none

/-- `dict[str, Any]`, of at most so many fields. -/
def dictField (bound : Nat) (raw : Members) (name : String) : Option Members :=
  match lookup raw (points name) with
  | some (.obj members) => if members.length ≤ bound then some members else none
  | _ => none

/-- `int | None = Field(default=None, ge=30, le=300)` -/
def heartbeatField (p : Parser) (raw : Members) : Option (Option Int) :=
  match lookup raw (points "heartbeat_interval_seconds") with
  | none => some none
  | some .null => some none
  | some v => ((p.integer v).filter fun n => 30 ≤ n && n ≤ 300).map some

/-- `StateEnvelope.model_validate` -/
def StateEnvelope.validate (p : Parser) (raw : Members) : Option StateEnvelope := do
  guard (protocolVersion raw)
  let timestamp ← stampField p raw "timestamp"
  let correlationId ← textField 128 raw "correlation_id"
  let state ← dictField 64 raw "state"
  return ⟨timestamp, correlationId, state⟩

/-- The members of `AckEnvelope.status`. -/
def ackStatuses : List (String × AckStatus) :=
  [("accepted", .accepted), ("applied", .applied), ("rejected", .rejected), ("failed", .failed)]

/-- `AckEnvelope.model_validate` -/
def AckEnvelope.validate (p : Parser) (raw : Members) : Option AckEnvelope := do
  guard (protocolVersion raw)
  let commandId ← identifierField raw "command_id"
  let correlationId ← identifierField raw "correlation_id"
  let timestamp ← optionalStamp p raw "timestamp"
  let status ← literalField ackStatuses raw "status"
  let errorCode ← optionalText 128 raw "error_code"
  let message ← optionalText 512 raw "message"
  return ⟨commandId, correlationId, timestamp, status, errorCode, message⟩

/-- `StatusEnvelope.model_validate` -/
def StatusEnvelope.validate (p : Parser) (raw : Members) : Option StatusEnvelope := do
  guard (protocolVersion raw)
  let timestamp ← optionalStamp p raw "timestamp"
  let online ← literalField [("online", true), ("offline", false)] raw "status"
  let lastSeen ← stampField p raw "last_seen"
  let heartbeatIntervalSeconds ← heartbeatField p raw
  return ⟨timestamp, online, lastSeen, heartbeatIntervalSeconds⟩

/-- `TelemetryEnvelope.model_validate` -/
def TelemetryEnvelope.validate (p : Parser) (raw : Members) : Option TelemetryEnvelope := do
  guard (protocolVersion raw)
  let timestamp ← stampField p raw "timestamp"
  let correlationId ← textField 128 raw "correlation_id"
  let metrics ← dictField 128 raw "metrics"
  return ⟨timestamp, correlationId, metrics⟩

/-! ### `handle_message` -/

/-- What `handle_message` raises before a handler has the envelope. -/
inductive FrameError
  /-- of `parse_topic` -/
  | topic (e : Error)
  /-- "Core does not consume command/reply topics" -/
  | direction
  /-- "MQTT payload exceeds protocol limit" -/
  | oversized
  /-- "MQTT payload must be a UTF-8 JSON object" -/
  | json
  /-- `RecursionError` -/
  | recursion
  /-- "MQTT payload must be a JSON object" -/
  | object
  /-- what `validate_json_bounds` raises -/
  | bounds
  /-- "Unsupported MQTT protocol version" -/
  | version
  /-- of `identity_handler` -/
  | refused (e : Error)
  /-- "Invalid MQTT payload envelope" -/
  | envelope

/-- What the handlers get. -/
inductive Envelope
  | state (e : StateEnvelope)
  | status (e : StatusEnvelope)
  | ack (e : AckEnvelope)
  | telemetry (e : TelemetryEnvelope)

/-- What is made of a message: a request for a permit, which `_control_request` reads, or an
envelope of a device. -/
inductive Frame
  | request (houseId deviceId : String)
  | envelope (houseId deviceId : String) (e : Envelope)

/-- The payload limit of a kind. -/
def limit : TopicKind → Nat
  | .telemetry => 32 * 1024
  | _ => 16 * 1024

/-- The object that a payload stands for, screened. -/
def readObject (p : Parser) (payload : ByteArray) : Except FrameError Members :=
  match p.text payload with
  | none => .error .json
  | some text =>
    match parse (fun _ => true) p.levels text.toList with
    | .error .nested => .error .recursion
    | .error _ => .error .json
    | .ok v =>
      if !(leaves v).all intFits then .error .json
      else match loads v with
        | .obj raw =>
          if !validateJsonBounds (.obj raw) then .error .bounds
          else if !protocolVersion raw then .error .version
          else .ok raw
        | _ => .error .object

/-- The envelope of a kind, in `_route`. -/
def readEnvelope (p : Parser) (kind : TopicKind) (raw : Members) : Option Envelope :=
  match kind with
  | .state => (StateEnvelope.validate p raw).map .state
  | .status => (StatusEnvelope.validate p raw).map .status
  | .ack => (AckEnvelope.validate p raw).map .ack
  | _ => (TelemetryEnvelope.validate p raw).map .telemetry

/-- `handle_message`, up to the handler; `identity` is `identity_handler`. -/
def handleMessage (p : Parser) (identity : String → String → Except Error Unit) (m : Message) :
    Except FrameError Frame :=
  match Topics.parseTopic m.topic with
  | .error e => .error (.topic e)
  | .ok parsed =>
    if parsed.kind = .set ∨ parsed.kind = .controlCommand ∨ parsed.kind = .controlReply then
      .error .direction
    else if parsed.kind = .controlRequest then .ok (.request parsed.houseId parsed.deviceId)
    else if limit parsed.kind < m.payload.size then .error .oversized
    else match readObject p m.payload with
      | .error e => .error e
      | .ok raw =>
        match identity parsed.houseId parsed.deviceId with
        | .error e => .error (.refused e)
        | .ok () =>
          match readEnvelope p parsed.kind raw with
          | none => .error .envelope
          | some e => .ok (.envelope parsed.houseId parsed.deviceId e)

end KzHome.Frames

import KzHome.Frames
import KzHome.EndToEnd
import KzHome.PermitRequests
import Mathlib

/-!
# KzHome.Wire

What Core and the relay say to each other, as bytes.

A payload is written for the fields of an envelope when it is the UTF-8 of a JSON object that
stands for them; in which order they come, and how it is spaced and escaped, is left open.
pydantic's datetimes are a parameter: what it writes for an instant, it reads as that instant.

* Core's `set` message is read by the relay as the command that it is.
* **Whatever the relay publishes in a run, to whatever messages, Core reads as what it is**, for
  the relay's device, with the ids of the command that was delivered (`wire_faithful`).
-/

namespace KzHome.Wire

open JsonGrammar PyValues
open Simulator (Relay Command Ack Published Delivery Stamp output)
open Frames (Members Envelope Frame Parser shortString)

/-! ### Fields -/

/-- The members of an object, by their names. -/
def fields (fs : List (String × Value)) : Members := fs.map fun f => (points f.1, f.2)

/-- A `str` -/
def text (s : String) : Value := .str (points s)

theorem text?_points (s : String) : text? (points s) = some s := text?_eq_some.mpr rfl

theorem points_inj {s t : String} : points s = points t ↔ s = t := by
  constructor
  · intro h
    have hs := text?_points s
    rw [h, text?_points] at hs
    exact (Option.some.inj hs).symm
  · exact congrArg points

/-- The members of an object that was read are the fields, in whatever order. -/
structure Says (fs : List (String × Value)) (raw : Members) : Prop where
  nodup : (raw.map Prod.fst).Nodup
  perm : raw.Perm (fields fs)

theorem Says.lookup {fs : List (String × Value)} {raw : Members} (h : Says fs raw)
    (name : String) : lookup raw (points name) = (fs.find? fun f => f.1 = name).map Prod.snd := by
  cases hfind : fs.find? fun f => f.1 = name with
  | some f =>
      have hmem : (points f.1, f.2) ∈ raw :=
        h.perm.mem_iff.mpr (List.mem_map.mpr ⟨f, List.mem_of_find?_eq_some hfind, rfl⟩)
      have hname : f.1 = name := by simpa using List.find?_some hfind
      rw [← hname]
      exact lookup_of_mem h.nodup hmem
  | none =>
      rw [PyValues.lookup, Option.map_none, Option.map_eq_none_iff, List.find?_eq_none]
      intro m hm hkey
      obtain ⟨f, hf, rfl⟩ := List.mem_map.mp (h.perm.mem_iff.mp hm)
      exact List.find?_eq_none.mp hfind f hf (by simpa [points_inj] using hkey)

theorem textWithin_points (bytes : Nat) (s : String) :
    Simulator.textWithin bytes (points s) = decide (s.utf8ByteSize ≤ bytes) := by
  rw [Simulator.textWithin, text?_points]

/-! ### Bounds -/

/-- A value that may stand in an envelope. -/
structure Modest (v : Value) : Prop where
  depth : Simulator.jsonDepth 2 v ≤ 8
  strings : (Simulator.leaves v).all shortString = true

theorem modest_text {s : String} (h : s.utf8ByteSize ≤ 1024) : Modest (text s) where
  depth := (by decide : (2 : Nat) ≤ 8)
  strings := by
    rw [text, Frames.leaves_scalar (v := .str _) nofun nofun, List.all_cons, List.all_nil,
      Bool.and_true, shortString, textWithin_points, decide_eq_true_eq]
    exact h

theorem modest_null : Modest .null := ⟨by decide, by decide⟩

/-- `{"on": on}` -/
def switch (on : Bool) : Value := .obj [(points "on", .bool on)]

theorem modest_switch (on : Bool) : Modest (switch on) := by
  cases on
  · exact ⟨by decide, by decide +kernel⟩
  · exact ⟨by decide, by decide +kernel⟩

theorem depthMembers_le {members : Members} {current levels : Nat} (hcurrent : current ≤ levels)
    (h : ∀ m ∈ members, Simulator.jsonDepth (current + 1) m.2 ≤ levels) :
    Simulator.depthMembers current members ≤ levels := by
  induction members with
  | nil => exact hcurrent
  | cons m ms ih =>
      exact max_le (h m List.mem_cons_self) (ih fun m' hm' => h m' (List.mem_cons_of_mem m hm'))

/-- An object of modest values under short names passes `validate_json_bounds`. -/
theorem Says.validateJsonBounds {fs : List (String × Value)} {raw : Members} (hholds : Says fs raw)
    (h : ∀ f ∈ fs, f.1.utf8ByteSize ≤ 1024 ∧ Modest f.2) :
    Frames.validateJsonBounds (.obj raw) = true := by
  have hmembers : ∀ m ∈ raw,
      ∃ name : String, m.1 = points name ∧ name.utf8ByteSize ≤ 1024 ∧ Modest m.2 := by
    intro m hm
    obtain ⟨f, hf, rfl⟩ := List.mem_map.mp (hholds.perm.mem_iff.mp hm)
    exact ⟨f.1, rfl, h f hf⟩
  rw [Frames.validateJsonBounds, Frames.boundsLoop_eq, Bool.and_eq_true, decide_eq_true_eq]
  constructor
  · refine depthMembers_le (by decide) fun m hm => ?_
    obtain ⟨name, -, -, hmodest⟩ := hmembers m hm
    exact hmodest.depth
  · rw [Simulator.leavesItems, Simulator.leavesItems, List.append_nil]
    change (Simulator.leavesMembers raw).all shortString = true
    clear hholds
    induction raw with
    | nil => rfl
    | cons m ms ih =>
        obtain ⟨name, hname, hshort, hmodest⟩ := hmembers m List.mem_cons_self
        have hrest := ih fun m' hm' => hmembers m' (List.mem_cons_of_mem m hm')
        have hleaves : Simulator.leavesMembers (m :: ms) =
            .str m.1 :: Simulator.leaves m.2 ++ Simulator.leavesMembers ms := rfl
        rw [hleaves, List.cons_append, List.all_cons, List.all_append, hmodest.strings, hrest,
          shortString, hname, textWithin_points, decide_eq_true hshort]
        rfl

/-! ### Payloads -/

/-- The payload says the fields: it is the UTF-8 of an object that stands for them. -/
structure Written (levels : Nat) (fs : List (String × Value)) (payload : ByteArray) : Prop where
  size : payload.size ≤ 16 * 1024
  object : ∃ text v raw, payload = (String.ofList text).toUTF8 ∧
    Document (fun _ => true) levels v text ∧ loads v = .obj raw ∧ raw.Perm (fields fs) ∧
      (Simulator.leaves v).all Simulator.intFits = true

/-- A character that an object begins with, or goes on with after that. -/
def Plain (c : Char) : Prop := isSpace c = true ∨ c = '\x7b' ∨ c = '\x7d' ∨ c = '"'

theorem plain_blank {w : List Char} (hw : Blank w) {c : Char} (cs : List Char)
    (hc : Plain c) : ∃ d ds, w ++ c :: cs = d :: ds ∧ Plain d := by
  cases w with
  | nil => exact ⟨c, cs, rfl, hc⟩
  | cons d w => exact ⟨d, _, rfl, .inl (hw d List.mem_cons_self)⟩

theorem separated_quote {Inner : Value → List Char → Prop} {members : Members} {cs : List Char}
    (h : Separated (Member Inner) members cs) : ∃ ds, cs = '"' :: ds := by
  have hmember : ∀ {m ks}, Member Inner m ks → ∃ ds, ks = '"' :: ds := by
    intro m ks hm
    cases hm with
    | mk _ _ _ _ => exact ⟨_, rfl⟩
  cases h with
  | one hm _ =>
      obtain ⟨ds, rfl⟩ := hmember hm
      exact ⟨_, rfl⟩
  | more hm _ _ _ =>
      obtain ⟨ds, rfl⟩ := hmember hm
      exact ⟨_, rfl⟩

/-- An object begins with two such characters. -/
theorem document_plain {levels : Nat} {members : Members} {text : List Char}
    (h : Document (fun _ => true) levels (.obj members) text) :
    ∃ c d rest, text = c :: d :: rest ∧ Plain c ∧ Plain d := by
  obtain ⟨w, cs, w', hw, htext, -, rfl⟩ := h
  have hobject : ∃ d ds, cs = '\x7b' :: d :: ds ∧ Plain d := by
    cases levels with
    | zero => exact absurd rfl ((Scalar.isScalar htext).2 members)
    | succ n =>
        cases htext with
        | scalar h => exact absurd rfl (h.isScalar.2 members)
        | @obj _ cs hlisted _ =>
            cases hlisted with
            | empty hblank =>
                obtain ⟨d, ds, hds, hd⟩ := plain_blank hblank [] (.inr (.inr (.inl rfl)))
                exact ⟨d, ds, by rw [hds], hd⟩
            | elements hblank hseparated =>
                obtain ⟨ds, rfl⟩ := separated_quote hseparated
                obtain ⟨d, ds', hds, hd⟩ := plain_blank hblank
                  (ds ++ ['\x7d']) (.inr (.inr (.inr rfl)))
                refine ⟨d, ds', ?_, hd⟩
                rw [List.append_assoc, List.cons_append, hds]
  obtain ⟨d, ds, rfl, hd⟩ := hobject
  cases w with
  | nil => exact ⟨'\x7b', d, _, rfl, .inr (.inl rfl), hd⟩
  | cons c w =>
      obtain ⟨d', ds', hds, hd'⟩ := plain_blank (w := w)
        (fun c' hc' => hw c' (List.mem_cons_of_mem c hc')) (c := '\x7b') (d :: (ds ++ w'))
        (.inr (.inl rfl))
      exact ⟨c, d', ds', by simp only [List.cons_append, hds], .inl (hw c List.mem_cons_self), hd'⟩

/-- In UTF-8 it is one byte, which begins no byte order mark and is no zero. -/
theorem Plain.byte {c : Char} (h : Plain c) : ∃ b, String.utf8EncodeChar c = [b] ∧
    b ≠ 0x00 ∧ b ≠ 0xFF ∧ b ≠ 0xFE ∧ b ≠ 0xEF := by
  rw [Plain, isSpace, Bool.or_eq_true, Bool.or_eq_true, Bool.or_eq_true, decide_eq_true_eq,
    decide_eq_true_eq, decide_eq_true_eq, decide_eq_true_eq] at h
  rcases h with (((rfl | rfl) | rfl) | rfl) | rfl | rfl | rfl <;>
    exact ⟨_, rfl, by decide, by decide, by decide, by decide⟩

/-- `json.loads` finds UTF-8 in it. -/
theorem detect_utf8 {c d : Char} (hc : Plain c) (hd : Plain d) (rest : List Char) :
    Frames.detectEncoding (String.ofList (c :: d :: rest)).toUTF8.data.toList = .utf8 := by
  obtain ⟨b₀, hb₀, hzero, hff, hfe, hef⟩ := hc.byte
  obtain ⟨b₁, hb₁, hzero', -⟩ := hd.byte
  have hbytes : ∃ bytes, (String.ofList (c :: d :: rest)).toUTF8.data.toList =
      b₀ :: b₁ :: bytes := by
    have hcons : ∀ (c : Char) (cs : List Char), (c :: cs).utf8Encode.data.toList =
        String.utf8EncodeChar c ++ cs.utf8Encode.data.toList := by
      intro c cs
      rw [List.utf8Encode_cons, List.utf8Encode_singleton]
      simp
    rw [String.toUTF8_eq_toByteArray, String.toByteArray_ofList, hcons, hcons, hb₀, hb₁]
    exact ⟨_, rfl⟩
  obtain ⟨bytes, hbytes⟩ := hbytes
  rw [hbytes]
  cases bytes with
  | nil => simp [Frames.detectEncoding, hzero.symm, hff.symm, hfe.symm, hef.symm, hzero, hzero']
  | cons b₂ bytes =>
      cases bytes with
      | nil => simp [Frames.detectEncoding, hzero.symm, hff.symm, hfe.symm, hef.symm]
      | cons b₃ bytes =>
          simp [Frames.detectEncoding, hzero.symm, hff.symm, hfe.symm, hef.symm, hzero, hzero']

section Payloads

variable {levels : Nat} {fs : List (String × Value)} {payload : ByteArray}

/-- What is read of a payload says the fields. -/
theorem Written.reads (h : Written levels fs payload) :
    ∃ c d rest v raw, payload = (String.ofList (c :: d :: rest)).toUTF8 ∧ Plain c ∧ Plain d ∧
      Document (fun _ => true) levels v (c :: d :: rest) ∧ loads v = .obj raw ∧ Says fs raw ∧
        (Simulator.leaves v).all Simulator.intFits = true := by
  obtain ⟨text, v, raw, rfl, hdocument, hloads, hperm, hints⟩ := h.object
  have hdistinct : Distinct (.obj raw) := hloads ▸ loads_distinct v
  obtain ⟨members, rfl⟩ : ∃ members, v = .obj members := by
    cases v with
    | obj members => exact ⟨members, rfl⟩
    | _ => cases hloads
  obtain ⟨c, d, rest, rfl, hc, hd⟩ := document_plain hdocument
  exact ⟨c, d, rest, _, raw, rfl, hc, hd, hdocument, hloads, ⟨hdistinct.1, hperm⟩, hints⟩

theorem Written.readObject {p : Parser} (h : Written p.levels fs payload)
    (hmodest : ∀ f ∈ fs, f.1.utf8ByteSize ≤ 1024 ∧ Modest f.2)
    (hversion : ∀ raw, Says fs raw → Simulator.protocolVersion raw = true) :
    ∃ raw, Says fs raw ∧ Frames.readObject p payload = .ok raw := by
  obtain ⟨c, d, rest, v, raw, rfl, hc, hd, hdocument, hloads, hholds, hints⟩ := h.reads
  have htext : p.text (String.ofList (c :: d :: rest)).toUTF8 =
      some (String.ofList (c :: d :: rest)) := by
    rw [Parser.text, detect_utf8 hc hd]
    exact fromUTF8?_eq_some.mpr rfl
  refine ⟨raw, hholds, ?_⟩
  rw [Frames.readObject, htext]
  dsimp only
  rw [String.toList_ofList, parse_iff.mpr hdocument]
  simp [hints, hloads, hholds.validateJsonBounds hmodest, hversion raw hholds]

theorem Written.handleMessage {p : Parser} {identity : String → String → Except Error Unit}
    {house device topic : String} {kind : TopicKind} (h : Written p.levels fs payload)
    (hmodest : ∀ f ∈ fs, f.1.utf8ByteSize ≤ 1024 ∧ Modest f.2)
    (hversion : ∀ raw, Says fs raw → Simulator.protocolVersion raw = true)
    (htopic : Topics.buildTopic house device kind = .ok topic)
    (hid : identity house device = .ok ()) (hkind : kind = .state ∨ kind = .ack) {e : Envelope}
    (he : ∀ raw, Says fs raw → Frames.readEnvelope p kind raw = some e) (retained : Bool) :
    Frames.handleMessage p identity ⟨topic, payload, retained⟩ =
      .ok (.envelope house device e) := by
  have hsize : ¬ Frames.limit kind < payload.size := by
    have hlimit : Frames.limit kind = 16 * 1024 := by rcases hkind with rfl | rfl <;> rfl
    rw [hlimit]
    exact Nat.not_lt.mpr h.size
  have hinbound : ¬ (kind = .set ∨ kind = .controlCommand ∨ kind = .controlReply) ∧
      kind ≠ .controlRequest := by
    rcases hkind with rfl | rfl <;> decide
  obtain ⟨raw, hholds, hread⟩ := h.readObject hmodest hversion
  rw [Frames.handleMessage, Topics.parse_build htopic]
  dsimp only
  rw [if_neg hinbound.1, if_neg hinbound.2, if_neg hsize, hread]
  dsimp only
  rw [hid]
  dsimp only
  rw [he raw hholds]

/-- The relay reads the command that the fields say. -/
theorem Written.decode {cfg : Simulator.Config} (h : Written cfg.levels fs payload)
    (hmodest : ∀ f ∈ fs, f.1.utf8ByteSize ≤ 1024 ∧ Modest f.2) {c : Command}
    (hc : ∀ raw, Says fs raw → Simulator.validateEnvelope cfg (.obj raw) = some c)
    (hids : c.commandId.utf8ByteSize ≤ 128 ∧ c.correlationId.utf8ByteSize ≤ 128)
    (haware : c.timestamp.aware = true) :
    Simulator.decode cfg ⟨cfg.topic, payload, false⟩ = .ok c := by
  have hsize := Nat.not_lt.mpr h.size
  obtain ⟨_, _, rest, v, raw, rfl, -, -, hdocument, hloads, hholds, hints⟩ := h.reads
  have hbounds := hholds.validateJsonBounds hmodest
  rw [Frames.validateJsonBounds_eq] at hbounds
  have hwithin : ¬ (128 < c.commandId.utf8ByteSize ∨ 128 < c.correlationId.utf8ByteSize) := by
    rw [not_or, Nat.not_lt, Nat.not_lt]
    exact hids
  rw [Simulator.decode, if_neg (by simp), if_neg hsize, fromUTF8?_eq_some.mpr rfl]
  dsimp only
  rw [Simulator.decodeText, String.toList_ofList, parse_iff.mpr hdocument]
  simp [hints, hloads, hbounds, hc raw hholds, hwithin, haware]

end Payloads

/-! ### What is written -/

/-- How pydantic writes the datetimes of UTC: what it writes, it reads as the same instant. -/
structure Stamps (datetime : Value → Option Stamp) where
  /-- The instants that a datetime can tell. -/
  known : Int → Prop
  write : Int → String
  reads : ∀ t, known t → datetime (text (write t)) = some ⟨t, some 0⟩
  short : ∀ t, known t → (write t).utf8ByteSize ≤ 1024

section

variable {datetime : Value → Option Stamp} (w : Stamps datetime)

/-- The `CommandEnvelope` of a `set` message that switches. -/
def commandFields (f : SetFrame) (on : Bool) : List (String × Value) :=
  [("protocol_version", text "v1"), ("command_id", text f.commandId),
   ("correlation_id", text f.correlationId), ("timestamp", text (w.write f.timestamp)),
   ("expires_at", text (w.write f.expiresAt)), ("state", switch on)]

/-- The `status` of an ACK, as it is written. -/
def statusText : Simulator.AckStatus → String
  | .applied => "applied"
  | .rejected => "rejected"

/-- The `AckEnvelope` of the relay. -/
def ackFields (a : Ack) : List (String × Value) :=
  [("protocol_version", text "v1"), ("command_id", text a.commandId),
   ("correlation_id", text a.correlationId), ("timestamp", text (w.write a.timestamp)),
   ("status", text (statusText a.status)),
   ("error_code", (a.errorCode.map text).getD .null), ("message", .null)]

/-- The `StateEnvelope` of the relay. -/
def stateFields (timestamp : Int) (correlationId : String) (on : Bool) : List (String × Value) :=
  [("protocol_version", text "v1"), ("timestamp", text (w.write timestamp)),
   ("correlation_id", text correlationId), ("state", switch on)]

/-- What the relay writes. -/
def itemFields : Published → List (String × Value)
  | .ack a => ackFields w a
  | .state timestamp correlationId on => stateFields w timestamp correlationId on

/-- The topic it is published on. -/
def itemKind : Published → TopicKind
  | .ack _ => .ack
  | .state _ _ _ => .state

/-- What Core is to hear of it. -/
def heard : Published → Envelope
  | .ack a => .ack ⟨a.envelope.commandId, a.envelope.correlationId, some ⟨a.timestamp, some 0⟩,
      a.envelope.status, a.errorCode, none⟩
  | .state timestamp correlationId on =>
    .state ⟨⟨timestamp, some 0⟩, correlationId, [(points "on", .bool on)]⟩

/-- An id: some characters, in at most 128 bytes. -/
def Id (s : String) : Prop := 1 ≤ s.length ∧ s.utf8ByteSize ≤ 128

theorem Id.length {s : String} (h : Id s) : s.length ≤ 128 :=
  (Ledger.length_le_utf8ByteSize s).trans h.2

theorem Id.modest {s : String} (h : Id s) : Modest (text s) :=
  modest_text (h.2.trans (by decide))

/-- A `set` message that the relay can read: one of the ledger, whose ids are UUIDs. -/
structure Sendable (f : SetFrame) (on : Bool) : Prop where
  state : f.state = [("on", .bool on)]
  commandId : Id f.commandId
  correlationId : Id f.correlationId
  timestamp : w.known f.timestamp
  expiresAt : w.known f.expiresAt

/-- An item that can be written and read. -/
def Fair : Published → Prop
  | .ack a => Id a.commandId ∧ Id a.correlationId ∧ w.known a.timestamp ∧
      ∀ code ∈ a.errorCode, code.utf8ByteSize ≤ 128
  | .state timestamp correlationId _ => w.known timestamp ∧ Id correlationId

/-- The command of a `set` message that switches. -/
def commandOf (f : SetFrame) (on : Bool) : Command :=
  ⟨f.commandId, f.correlationId, ⟨f.timestamp, some 0⟩, some ⟨f.expiresAt, some 0⟩,
    [(points "on", .bool on)]⟩

variable {w}

theorem Says.identifierField {fs : List (String × Value)} {raw : Members} (hholds : Says fs raw)
    (name : String) {s : String}
    (h : (fs.find? fun f => f.1 = name).map Prod.snd = some (text s)) (hid : Id s) :
    Simulator.identifierField raw name = some s := by
  rw [Simulator.identifierField, hholds.lookup, h, text]
  dsimp only
  rw [text?_points, Option.filter_some, if_pos]
  rw [Bool.and_eq_true, decide_eq_true_eq, decide_eq_true_eq]
  exact ⟨hid.1, hid.length⟩

theorem Says.protocolVersion {fs : List (String × Value)} {raw : Members} (hholds : Says fs raw)
    (h : (fs.find? fun f => f.1 = "protocol_version").map Prod.snd = some (text "v1")) :
    Simulator.protocolVersion raw = true := by
  rw [Simulator.protocolVersion, hholds.lookup, h]
  exact decide_eq_true rfl

theorem commandFields_modest {f : SetFrame} {on : Bool} (h : Sendable w f on) :
    ∀ e ∈ commandFields w f on, e.1.utf8ByteSize ≤ 1024 ∧ Modest e.2 := by
  simp only [commandFields, List.forall_mem_cons]
  exact ⟨⟨by decide, modest_text (by decide)⟩, ⟨by decide, h.commandId.modest⟩,
    ⟨by decide, h.correlationId.modest⟩, ⟨by decide, modest_text (w.short _ h.timestamp)⟩,
    ⟨by decide, modest_text (w.short _ h.expiresAt)⟩, ⟨by decide, modest_switch on⟩, nofun⟩

end

/-- **The relay reads Core's message as the command that it is.** -/
theorem command_read (cfg : Simulator.Config) (w : Stamps cfg.datetime) {f : SetFrame} {on : Bool}
    (h : Sendable w f on) {payload : ByteArray}
    (hwritten : Written cfg.levels (commandFields w f on) payload) :
    Simulator.decode cfg ⟨cfg.topic, payload, false⟩ = .ok (commandOf f on) := by
  refine hwritten.decode (commandFields_modest h) (fun raw hholds => ?_)
    ⟨h.commandId.2, h.correlationId.2⟩ rfl
  have hversion := hholds.protocolVersion rfl
  have hcommand := hholds.identifierField "command_id" rfl h.commandId
  have hcorrelation := hholds.identifierField "correlation_id" rfl h.correlationId
  have htimestamp : lookup raw (points "timestamp") = some (text (w.write f.timestamp)) :=
    hholds.lookup _
  have hexpires : lookup raw (points "expires_at") = some (text (w.write f.expiresAt)) :=
    hholds.lookup _
  have hstate : lookup raw (points "state") = some (switch on) := hholds.lookup _
  have hexpiresField : Simulator.expiresField cfg raw =
      some (some ⟨f.expiresAt, some 0⟩) := by
    rw [Simulator.expiresField, hexpires, text]
    dsimp only
    rw [← text, w.reads _ h.expiresAt]
    rfl
  rw [Simulator.validateEnvelope]
  simp only [hversion, hcommand, hcorrelation, htimestamp, hexpiresField, hstate, guard, if_true,
    Option.bind_eq_bind, Option.bind_some, w.reads _ h.timestamp, switch]
  rfl

/-! ### What Core reads -/

section

variable {p : Parser} {w : Stamps p.datetime}

theorem itemFields_modest {item : Published} (h : Fair w item) :
    ∀ e ∈ itemFields w item, e.1.utf8ByteSize ≤ 1024 ∧ Modest e.2 := by
  cases item with
  | ack a =>
      obtain ⟨hcommand, hcorrelation, htime, hcode⟩ := h
      have hstatus : Modest (text (statusText a.status)) := by
        cases a.status
        · exact modest_text (by decide)
        · exact modest_text (by decide)
      have herror : Modest ((a.errorCode.map text).getD .null) := by
        cases hc : a.errorCode with
        | none => exact modest_null
        | some code => exact modest_text ((hcode code hc).trans (by decide))
      simp only [itemFields, ackFields, List.forall_mem_cons]
      exact ⟨⟨by decide, modest_text (by decide)⟩, ⟨by decide, hcommand.modest⟩,
        ⟨by decide, hcorrelation.modest⟩, ⟨by decide, modest_text (w.short _ htime)⟩,
        ⟨by decide, hstatus⟩, ⟨by decide, herror⟩, ⟨by decide, modest_null⟩, nofun⟩
  | state timestamp correlationId on =>
      obtain ⟨htime, hcorrelation⟩ := h
      simp only [itemFields, stateFields, List.forall_mem_cons]
      exact ⟨⟨by decide, modest_text (by decide)⟩, ⟨by decide, modest_text (w.short _ htime)⟩,
        ⟨by decide, hcorrelation.modest⟩, ⟨by decide, modest_switch on⟩, nofun⟩

theorem ack_validate {a : Ack} (h : Fair w (.ack a)) {raw : Members}
    (hholds : Says (ackFields w a) raw) :
    Frames.AckEnvelope.validate p raw =
      some ⟨a.envelope.commandId, a.envelope.correlationId, some ⟨a.timestamp, some 0⟩,
        a.envelope.status, a.errorCode, none⟩ := by
  obtain ⟨hcommandId, hcorrelationId, htime, hcode⟩ := h
  have hversion := hholds.protocolVersion rfl
  have hcommand := hholds.identifierField "command_id" rfl hcommandId
  have hcorrelation := hholds.identifierField "correlation_id" rfl hcorrelationId
  have htimestamp : Frames.optionalStamp p raw "timestamp" =
      some (some ⟨a.timestamp, some 0⟩) := by
    have hlookup : lookup raw (points "timestamp") =
        some (text (w.write a.timestamp)) := hholds.lookup _
    rw [Frames.optionalStamp, hlookup, text]
    dsimp only
    rw [← text, w.reads _ htime]
    rfl
  have hstatus : Frames.literalField Frames.ackStatuses raw "status" =
      some a.envelope.status := by
    have hlookup : lookup raw (points "status") =
        some (text (statusText a.status)) := hholds.lookup _
    rw [Frames.literalField, hlookup, text]
    dsimp only
    cases hs : a.status with
    | applied =>
        simp only [Ack.envelope, hs, statusText]
        decide
    | rejected =>
        simp only [Ack.envelope, hs, statusText]
        decide
  have herror : Frames.optionalText 128 raw "error_code" =
      some a.errorCode := by
    have hlookup : lookup raw (points "error_code") =
        some ((a.errorCode.map text).getD .null) := hholds.lookup _
    rw [Frames.optionalText, hlookup]
    cases hc : a.errorCode with
    | none => rfl
    | some code =>
        have hlength := (Ledger.length_le_utf8ByteSize code).trans (hcode code hc)
        rw [Option.map_some, Option.getD_some, text]
        dsimp only
        rw [text?_points, Option.filter_some, if_pos (decide_eq_true hlength), Option.map_some]
  have hmessage : Frames.optionalText 512 raw "message" = some none := by
    rw [Frames.optionalText, hholds.lookup]
    rfl
  rw [Frames.AckEnvelope.validate]
  simp only [hversion, hcommand, hcorrelation, htimestamp, hstatus, herror, hmessage, guard,
    if_true, Option.bind_eq_bind, Option.bind_some]
  rfl

theorem state_validate {timestamp : Int} {correlationId : String} {on : Bool}
    (h : Fair w (.state timestamp correlationId on)) {raw : Members}
    (hholds : Says (stateFields w timestamp correlationId on) raw) :
    Frames.StateEnvelope.validate p raw =
      some ⟨⟨timestamp, some 0⟩, correlationId, [(points "on", .bool on)]⟩ := by
  obtain ⟨htime, hcorrelationId⟩ := h
  have hversion := hholds.protocolVersion rfl
  have htimestamp : Frames.stampField p raw
      "timestamp" = some ⟨timestamp, some 0⟩ := by
    rw [Frames.stampField, hholds.lookup]
    exact w.reads _ htime
  have hcorrelation : Frames.textField 128 raw
      "correlation_id" = some correlationId := by
    have hlookup : lookup raw
        (points "correlation_id") = some (text correlationId) := hholds.lookup _
    rw [Frames.textField, hlookup, text]
    dsimp only
    rw [text?_points, Option.filter_some, if_pos (decide_eq_true hcorrelationId.length)]
  have hstate : Frames.dictField 64 raw "state" =
      some [(points "on", .bool on)] := by
    rw [Frames.dictField, hholds.lookup]
    rfl
  rw [Frames.StateEnvelope.validate]
  simp only [hversion, htimestamp, hcorrelation, hstate, guard, if_true, Option.bind_eq_bind,
    Option.bind_some]
  rfl

/-- **Core reads what the relay writes as what it is.** -/
theorem item_read {item : Published} (h : Fair w item) {payload : ByteArray}
    (hwritten : Written p.levels (itemFields w item) payload)
    {identity : String → String → Except Error Unit} {house device topic : String}
    (htopic : Topics.buildTopic house device (itemKind item) = .ok topic)
    (hid : identity house device = .ok ()) (retained : Bool) :
    Frames.handleMessage p identity ⟨topic, payload, retained⟩ =
      .ok (.envelope house device (heard item)) := by
  have hmodest := itemFields_modest h
  cases item with
  | ack a =>
      refine hwritten.handleMessage hmodest (fun raw hholds => hholds.protocolVersion rfl) htopic hid
        (.inr rfl) (fun raw hholds => ?_) retained
      exact congrArg (Option.map Envelope.ack) (ack_validate h hholds)
  | state timestamp correlationId on =>
      refine hwritten.handleMessage hmodest (fun raw hholds => hholds.protocolVersion rfl) htopic hid
        (.inl rfl) (fun raw hholds => ?_) retained
      exact congrArg (Option.map Envelope.state) (state_validate h hholds)

end

/-! ### What the relay publishes -/

/-- The item is about the command. -/
def About (c : Command) : Published → Prop
  | .ack a => a.commandId = c.commandId ∧ a.correlationId = c.correlationId
  | .state _ correlationId _ => correlationId = c.correlationId

/-- The ids of a command that the relay accepts. -/
theorem decode_ids {cfg : Simulator.Config} {m : Simulator.Message} {c : Command}
    (h : Simulator.decode cfg m = .ok c) : Id c.commandId ∧ Id c.correlationId := by
  have hfield : ∀ {members : Members} {name s : String},
      Simulator.identifierField members name = some s → 1 ≤ s.length := by
    intro members name s hs
    unfold Simulator.identifierField at hs
    split at hs
    · have hlength := (Option.filter_eq_some_iff.mp hs).2
      rw [Bool.and_eq_true, decide_eq_true_eq] at hlength
      exact hlength.1
    · cases hs
  unfold Simulator.decode at h
  split at h
  · cases h
  split at h
  · cases h
  split at h
  · cases h
  unfold Simulator.decodeText at h
  split at h
  · cases h
  · cases h
  split at h
  · cases h
  split at h
  · cases h
  split at h
  · cases h
  rename_i command hvalidate
  split at h
  · cases h
  rename_i hids
  split at h
  · cases h
  cases h
  rw [not_or, Nat.not_lt, Nat.not_lt] at hids
  unfold Simulator.validateEnvelope at hvalidate
  split at hvalidate
  · simp only [Option.bind_eq_bind, Option.bind_eq_some_iff] at hvalidate
    obtain ⟨_, -, commandId, hcommand, correlationId, hcorrelation, timestamp, -, expiresAt, -,
      hvalidate⟩ := hvalidate
    split at hvalidate
    · split at hvalidate
      · cases hvalidate
        exact ⟨⟨hfield hcommand, hids.1⟩, ⟨hfield hcorrelation, hids.2⟩⟩
      · cases hvalidate
    · cases hvalidate
  · cases hvalidate

/-- The error codes are short. -/
theorem verdict_code {now : Int} {c : Command} {code : String}
    (h : Simulator.verdict now c = .ok (.rejected code)) : code.utf8ByteSize ≤ 128 := by
  have hlifetime : ∀ code, Simulator.lifetimeError now c = some code → code.utf8ByteSize ≤ 128 := by
    intro code hcode
    unfold Simulator.lifetimeError at hcode
    split at hcode
    · cases hcode
    · split at hcode
      · obtain rfl := Option.some.inj hcode
        decide
      · split at hcode
        · obtain rfl := Option.some.inj hcode
          decide
        · cases hcode
  have hstate : ∀ code, Simulator.stateVerdict c = .rejected code → code.utf8ByteSize ≤ 128 := by
    intro code hcode
    unfold Simulator.stateVerdict at hcode
    split at hcode
    · obtain rfl := Simulator.Verdict.rejected.inj hcode
      decide
    · split at hcode
      · cases hcode
      · obtain rfl := Simulator.Verdict.rejected.inj hcode
        decide
      · obtain rfl := Simulator.Verdict.rejected.inj hcode
        decide
  unfold Simulator.verdict at h
  split at h
  · rename_i code' hcode
    obtain rfl := Simulator.Verdict.rejected.inj (Except.ok.inj h)
    exact hlifetime _ hcode
  · split at h
    · cases h
    · obtain rfl := Simulator.Verdict.rejected.inj (Except.ok.inj h)
      decide
    · exact hstate code (Except.ok.inj h)

section

variable {datetime : Value → Option Stamp} (w : Stamps datetime)

/-- Every ACK that is cached can be written, and is about its command. -/
def Sound (s : Relay) : Prop :=
  ∀ k e, s.seen.get? k = some e → Fair w (.ack e.ack) ∧ About e.command (.ack e.ack)

variable {w}

theorem Sound.purge {s : Relay} (h : Sound w s) (now : Int) : Sound w (s.purge now) :=
  fun k e he => h k e (Simulator.purge_get?.mp he).1

/-- What the relay says to a new command. -/
theorem answer_fair {now later : Int} {c : Command} {v : Simulator.Verdict}
    (hids : Id c.commandId ∧ Id c.correlationId) (hnow : w.known now) (hlater : w.known later)
    (hverdict : Simulator.verdict now c = .ok v) :
    ∀ item ∈ .ack (Simulator.acknowledge now c v) :: Simulator.announce later c v,
      Fair w item ∧ About c item := by
  cases v with
  | applied on =>
      simp only [Simulator.acknowledge, Simulator.announce, List.forall_mem_cons]
      exact ⟨⟨⟨hids.1, hids.2, hnow, nofun⟩, rfl, rfl⟩, ⟨⟨hlater, hids.2⟩, rfl⟩, nofun⟩
  | rejected code =>
      simp only [Simulator.acknowledge, Simulator.announce, List.forall_mem_cons]
      refine ⟨⟨⟨hids.1, hids.2, hnow, fun code' hcode => ?_⟩, rfl, rfl⟩, nofun⟩
      obtain rfl := Option.some.inj hcode
      exact verdict_code hverdict

/-- **One message**: what is published can be written and is about the command of the message,
and the cache stays sound. -/
theorem Sound.handle {s : Relay} (h : Sound w s) (cfg : Simulator.Config) {d : Delivery}
    (hknown : w.known d.now ∧ w.known d.later) :
    Sound w (s.handle cfg d).1 ∧ ∀ item ∈ output (s.handle cfg d).2,
      ∃ c, Simulator.decode cfg d.message = .ok c ∧ Fair w item ∧ About c item := by
  cases hdecode : Simulator.decode cfg d.message with
  | error e =>
      rw [Simulator.handle_of_error hdecode]
      exact ⟨h, List.forall_mem_nil _⟩
  | ok c =>
      rw [Simulator.handle_of_decode hdecode]
      have hids := decode_ids hdecode
      have hpurge := h.purge d.now
      have hturn := Simulator.accept_turn s d.now d.later c
      generalize (s.accept d.now d.later c).1 = s' at hturn ⊢
      generalize (s.accept d.now d.later c).2 = r at hturn ⊢
      cases hturn with
      | @repeated e hget hsame =>
          obtain ⟨hfair, habout⟩ := hpurge _ _ hget
          refine ⟨hpurge, List.forall_mem_singleton.mpr ⟨c, rfl, hfair, ?_⟩⟩
          simp only [Command.same, Bool.and_eq_true, decide_eq_true_eq] at hsame
          exact ⟨habout.1.trans hsame.1.1.1.1.symm, habout.2.trans hsame.1.1.1.2.symm⟩
      | reused _ _ => exact ⟨hpurge, List.forall_mem_nil _⟩
      | unjudged _ _ => exact ⟨hpurge, List.forall_mem_nil _⟩
      | full _ _ _ => exact ⟨hpurge, List.forall_mem_nil _⟩
      | overflowed _ _ _ _ =>
          refine ⟨fun k e he => hpurge k e ?_, List.forall_mem_nil _⟩
          rwa [Simulator.apply_seen] at he
      | answered hget hverdict hroom hretention =>
          have hanswer := answer_fair hids hknown.1 hknown.2 hverdict
          refine ⟨fun k e he => ?_, fun item hitem => ⟨c, rfl, hanswer item hitem⟩⟩
          rw [Dict.get?_set_eq] at he
          split at he
          · obtain rfl := Option.some.inj he
            exact hanswer _ List.mem_cons_self
          · exact hpurge k e he

theorem Sound.run {cfg : Simulator.Config} {s : Relay} (h : Sound w s) {ds : List Delivery}
    (hknown : ∀ d ∈ ds, w.known d.now ∧ w.known d.later) : Sound w (s.run cfg ds) := by
  induction ds generalizing s with
  | nil => exact h
  | cons d ds ih =>
      exact ih (h.handle cfg (hknown d List.mem_cons_self)).1
        fun d' hd' => hknown d' (List.mem_cons_of_mem d hd')

end

/-! ### Both directions -/

/-- The relay of a device, whose pydantic is that of Core. -/
def relayOf (p : Parser) (house device : String) (levels : Nat) : Simulator.Config :=
  ⟨house, device, levels, p.datetime⟩

/-- **The two understand each other.** Every `set` message of the ledger is read by the relay as
the command that Core sent. In every run of the relay, on whatever messages: all that it publishes
is about the command that it was just given, and Core reads it, however it is ordered, spaced and
escaped, as what it is. -/
theorem wire_faithful (p : Parser) (w : Stamps p.datetime) (house device : String) (levels : Nat)
    (identity : String → String → Except Error Unit) (hid : identity house device = .ok ()) :
    let cfg := relayOf p house device levels
    (∀ f on payload, Sendable w f on → Written levels (commandFields w f on) payload →
      Simulator.decode cfg ⟨cfg.topic, payload, false⟩ = .ok (commandOf f on) ∧
        (commandOf f on).carries f = true) ∧
    ∀ ds : List Delivery, (∀ d ∈ ds, w.known d.now ∧ w.known d.later) →
      ∀ pre d post, ds = pre ++ d :: post →
        ∀ item ∈ output ((Relay.start.run cfg pre).handle cfg d).2,
          (∃ c, Simulator.decode cfg d.message = .ok c ∧ About c item) ∧
            ∀ topic payload retained, Topics.buildTopic house device (itemKind item) = .ok topic →
              Written p.levels (itemFields w item) payload →
                Frames.handleMessage p identity ⟨topic, payload, retained⟩ =
                  .ok (.envelope house device (heard item)) := by
  intro cfg
  constructor
  · intro f on payload hf hwritten
    refine ⟨command_read cfg w hf hwritten, ?_⟩
    simp [Command.carries, commandOf, hf.state, Simulator.carriesState]
  · rintro ds hknown pre d post rfl item hitem
    have hsound : Sound w (Relay.start.run cfg pre) :=
      Sound.run (w := w) (fun k e he => by cases he)
        fun d' hd' => hknown d' (List.mem_append_left _ hd')
    obtain ⟨c, hdecode, hfair, habout⟩ := (hsound.handle cfg
      (hknown d (List.mem_append_right _ List.mem_cons_self))).2 item hitem
    exact ⟨⟨c, hdecode, habout⟩, fun topic payload retained htopic hwritten =>
      item_read hfair hwritten htopic hid retained⟩

/-! ### A way of writing -/

/-- The text of an object, whose values are written already. -/
def compact (fs : List (String × List Char)) : List Char :=
  (",".toList).intercalate (fs.map fun f => JsonText.quote f.1 ++ ":".toList ++ f.2)

/-- What is written for a value. -/
def Spells (n : Nat) (f : String × Value) (g : String × List Char) : Prop :=
  g.1 = f.1 ∧ Text (fun _ => true) n f.2 g.2

theorem separated_compact {n : Nat} {fs : List (String × Value)} {gs : List (String × List Char)}
    (h : List.Forall₂ (Spells n) fs gs) (hne : fs ≠ []) :
    Separated (Member (Text (fun _ => true) n)) (fields fs) (compact gs) := by
  induction h with
  | nil => exact absurd rfl hne
  | @cons f g fs gs hg hrest ih =>
      have hmember : Member (Text (fun _ => true) n) (points f.1, f.2)
          (JsonText.quote g.1 ++ ":".toList ++ g.2) := by
        rw [hg.1]
        exact member_dump hg.2
      cases hrest with
      | nil =>
          have hone := Separated.one hmember blank_nil
          simpa [compact, fields] using hone
      | cons hg' hrest =>
          have hmore := Separated.more hmember blank_nil blank_nil (ih (by simp))
          simp only [compact, fields, List.map_cons, List.intercalate_cons_cons] at hmore ⊢
          simpa using hmore

/-- What is written compactly says the fields. -/
theorem written_compact {n : Nat} {f : String × Value} {fs : List (String × Value)}
    {g : String × List Char} {gs : List (String × List Char)}
    (h : List.Forall₂ (Spells n) (f :: fs) (g :: gs)) (hdistinct : Distinct (.obj (fields (f :: fs))))
    (hints : (Simulator.leaves (.obj (fields (f :: fs)))).all Simulator.intFits = true)
    (hsize : (String.ofList ('\x7b' :: (compact (g :: gs) ++ ['\x7d']))).toUTF8.size ≤ 16 * 1024) :
    Written (n + 1) (f :: fs)
      (String.ofList ('\x7b' :: (compact (g :: gs) ++ ['\x7d']))).toUTF8 := by
  have hobject : Text (fun _ => true) (n + 1) (.obj (fields (f :: fs)))
      ('\x7b' :: (compact (g :: gs) ++ ['\x7d'])) :=
    .obj (.elements blank_nil (separated_compact h (List.cons_ne_nil _ _))) rfl
  exact ⟨hsize, _, _, _, rfl, ⟨[], _, [], blank_nil, hobject, blank_nil, by simp⟩,
    loads_of_distinct _ hdistinct, List.Perm.refl _, hints⟩

/-! ### A lamp -/

/-- The datetimes of one evening. -/
def lampTimes : List (Int × String) :=
  [(1793491200000000, "2026-11-01T00:00:00Z"), (1793491205000000, "2026-11-01T00:00:05Z")]

def lampParser : Parser where
  levels := 8
  decode _ _ := none
  datetime
    | .str s => (lampTimes.find? fun e => points e.2 = s).map fun e => ⟨e.1, some 0⟩
    | _ => none
  integer _ := none

def lampStamps : Stamps lampParser.datetime where
  known t := t ∈ lampTimes.map Prod.fst
  write t := ((lampTimes.find? fun e => e.1 = t).map Prod.snd).getD ""
  reads := by
    intro t ht
    simp only [lampTimes, List.map_cons, List.map_nil, List.mem_cons, List.not_mem_nil,
      or_false] at ht
    rcases ht with rfl | rfl
    · decide
    · decide
  short := by
    intro t ht
    simp only [lampTimes, List.map_cons, List.map_nil, List.mem_cons, List.not_mem_nil,
      or_false] at ht
    rcases ht with rfl | rfl
    · decide
    · decide

/-- The message that switches it on. -/
def lampFrame : SetFrame :=
  ⟨"house", "relay", "one", "c", 1793491200000000, 1793491205000000, [("on", .bool true)]⟩

def lampTexts : List (String × List Char) :=
  [("protocol_version", JsonText.quote "v1"), ("command_id", JsonText.quote "one"),
   ("correlation_id", JsonText.quote "c"), ("timestamp", JsonText.quote "2026-11-01T00:00:00Z"),
   ("expires_at", JsonText.quote "2026-11-01T00:00:05Z"),
   ("state", '\x7b' :: (compact [("on", "true".toList)] ++ ['\x7d']))]

/-- The same, as bytes. -/
def lampPayload : ByteArray := (String.ofList ('\x7b' :: (compact lampTexts ++ ['\x7d']))).toUTF8

/-- The ACK of the relay. -/
def lampAck : Ack := ⟨"one", "c", 1793491200000000, .applied, none⟩

def lampAckTexts : List (String × List Char) :=
  [("protocol_version", JsonText.quote "v1"), ("command_id", JsonText.quote "one"),
   ("correlation_id", JsonText.quote "c"), ("timestamp", JsonText.quote "2026-11-01T00:00:00Z"),
   ("status", JsonText.quote "applied"), ("error_code", "null".toList),
   ("message", "null".toList)]

def lampAckPayload : ByteArray :=
  (String.ofList ('\x7b' :: (compact lampAckTexts ++ ['\x7d']))).toUTF8

theorem spells_text (n : Nat) (name s : String) :
    Spells n (name, text s) (name, JsonText.quote s) :=
  ⟨rfl, (scalar_quote s).text n⟩

theorem spells_literal (n : Nat) (name : String) {v : Value} {cs : List Char}
    (h : (cs, v) ∈ literals) : Spells n (name, v) (name, cs) :=
  ⟨rfl, (Scalar.literal h).text n⟩

theorem lamp_known : lampStamps.known 1793491200000000 ∧ lampStamps.known 1793491205000000 :=
  ⟨List.mem_cons_self, List.mem_cons_of_mem _ List.mem_cons_self⟩

theorem lamp_sendable : Sendable lampStamps lampFrame true :=
  ⟨rfl, ⟨by decide, by decide⟩, ⟨by decide, by decide⟩, lamp_known.1, lamp_known.2⟩

theorem lamp_written :
    Written 8 (commandFields lampStamps lampFrame true) lampPayload := by
  have htrue : List.Forall₂ (Spells 6) [("on", .bool true)] [("on", "true".toList)] :=
    .cons (spells_literal 6 "on" (by simp [literals])) .nil
  have hlisted := Listed.elements blank_nil (separated_compact htrue (List.cons_ne_nil _ _))
  have hon : Spells 7 ("state", switch true)
      ("state", '\x7b' :: (compact [("on", "true".toList)] ++ ['\x7d'])) :=
    ⟨rfl, .obj hlisted rfl⟩
  refine written_compact (.cons (spells_text 7 _ _) (.cons (spells_text 7 _ _)
    (.cons (spells_text 7 _ _) (.cons (spells_text 7 _ _) (.cons (spells_text 7 _ _)
      (.cons hon .nil)))))) ?_ ?_ ?_
  · simp [Distinct, DistinctMembers, fields, text, switch, points_inj]
  · decide
  · decide +kernel

theorem lamp_ack_written :
    Written 8 (itemFields lampStamps (.ack lampAck)) lampAckPayload := by
  refine written_compact (.cons (spells_text 7 _ _) (.cons (spells_text 7 _ _)
    (.cons (spells_text 7 _ _) (.cons (spells_text 7 _ _) (.cons (spells_text 7 _ _)
      (.cons (spells_literal 7 _ (by simp [literals, lampAck]))
        (.cons (spells_literal 7 _ (by simp [literals])) .nil))))))) ?_ ?_ ?_
  · simp [Distinct, DistinctMembers, fields, text, points_inj, lampAck]
  · decide
  · decide +kernel

/-- Core switches the lamp on, and hears that it was. -/
theorem wire_faithful_lamp :
    Simulator.decode (relayOf lampParser "house" "relay" 8)
        ⟨(relayOf lampParser "house" "relay" 8).topic, lampPayload, false⟩ =
      .ok (commandOf lampFrame true) ∧
    Frames.handleMessage lampParser (fun _ _ => .ok ())
        ⟨"kzhome/v1/house/relay/ack", lampAckPayload, false⟩ =
      .ok (.envelope "house" "relay" (heard (.ack lampAck))) := by
  have h := wire_faithful lampParser lampStamps "house" "relay" 8 (fun _ _ => .ok ()) rfl
  have hdecode := (h.1 lampFrame true lampPayload lamp_sendable lamp_written).1
  refine ⟨hdecode, ?_⟩
  let d : Delivery :=
    ⟨⟨(relayOf lampParser "house" "relay" 8).topic, lampPayload, false⟩, 1793491200000000,
      1793491200000000⟩
  have hout : .ack lampAck ∈
      output ((Relay.start.run (relayOf lampParser "house" "relay" 8) []).handle
        (relayOf lampParser "house" "relay" 8) d).2 := by
    have hhandle := Simulator.handle_of_decode (s := Relay.start) (d := d) hdecode
    rw [Relay.run, List.foldl_nil, hhandle]
    decide
  refine (h.2 [d] ?_ [] d [] rfl (.ack lampAck) hout).2 _ _ _ rfl lamp_ack_written
  intro d' hd'
  obtain rfl := List.mem_singleton.mp hd'
  exact ⟨lamp_known.1, lamp_known.1⟩

end KzHome.Wire

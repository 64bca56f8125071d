import KzHome.Basic
import KzHome.Lib.PyLines

/-!
# KzHome.Topics

The MQTT topics of `mqtt_topics`: how one is built of a house, a device and a kind, and how it
is read.

A kind is one segment of the topic or two, and an identifier is always one: it has no separator
in it (`plain_of_valid`). So the segments of a topic are those of its parts
(`split_topic`), and building and reading undo each other (`topics_codec`).
-/

namespace KzHome

open PyText

/-! ### Identifiers and kinds -/

/-- `_IDENTIFIER.fullmatch` -/
def validIdentifier (value : String) : Bool :=
  match value.toList with
  | [] => false
  | c :: rest =>
    let alnum := fun (c : Char) => c.isAlphanum
    alnum c && rest.length ≤ 127 &&
      rest.all fun c => alnum c || c = Char.ofNat 95 || c = Char.ofNat 46 || c = Char.ofNat 45

/-- `TopicKind` -/
inductive TopicKind
  | state
  | set
  | ack
  | telemetry
  | status
  | controlCommand
  | controlRequest
  | controlReply
  deriving DecidableEq, Repr

namespace TopicKind

/-- `kind.value` -/
def value : TopicKind → String
  | state => "state"
  | set => "set"
  | ack => "ack"
  | telemetry => "telemetry"
  | status => "status"
  | controlCommand => "control/command"
  | controlRequest => "control/request"
  | controlReply => "control/reply"

/-- The members of `TopicKind`, in their order. -/
def members : List TopicKind :=
  [state, set, ack, telemetry, status, controlCommand, controlRequest, controlReply]

/-- `TopicKind(value)` -/
def ofValue? (v : String) : Option TopicKind := members.find? fun kind => kind.value = v

/-- **Every kind is the one of its value.** -/
theorem ofValue?_value (kind : TopicKind) : ofValue? kind.value = some kind := by
  cases kind <;> decide

theorem value_of_ofValue? {v : String} {kind : TopicKind} (h : ofValue? v = some kind) :
    kind.value = v := by
  simpa using List.find?_some h

/-- A kind is one segment or two. -/
theorem split_value_length (kind : TopicKind) :
    (split '/' kind.value).length = 1 ∨ (split '/' kind.value).length = 2 := by
  cases kind <;> decide

end TopicKind

namespace Topics

/-! ### Building and reading -/

/-- `PROTOCOL_VERSION` -/
def protocolVersion : String := "v1"

/-- `TOPIC_ROOT` -/
def topicRoot : String := "kzhome/" ++ protocolVersion

/-- `ParsedTopic` -/
structure ParsedTopic where
  houseId : String
  deviceId : String
  kind : TopicKind
  deriving DecidableEq, Repr

/-- `_validate_identifier` -/
def validateIdentifier (value name : String) : Except Error Unit :=
  if !validIdentifier value then .error (.other ("Invalid MQTT " ++ name)) else .ok ()

/-- `build_topic` -/
def buildTopic (houseId deviceId : String) (kind : TopicKind) : Except Error String := do
  validateIdentifier houseId "house_id"
  validateIdentifier deviceId "device_id"
  return topicRoot ++ "/" ++ houseId ++ "/" ++ deviceId ++ "/" ++ kind.value

/-- `parse_topic` -/
def parseTopic (topic : String) : Except Error ParsedTopic := do
  let parts := split '/' topic
  if parts.length ∉ [5, 6] ∨ parts.take 2 ≠ ["kzhome", protocolVersion] then
    .error (.other "Malformed or unsupported MQTT topic")
  else
    match parts.drop 2 with
    | houseId :: deviceId :: rest =>
      let rawKind := "/".intercalate rest
      validateIdentifier houseId "house_id"
      validateIdentifier deviceId "device_id"
      match TopicKind.ofValue? rawKind with
      | none => .error (.other "Unsupported MQTT topic kind")
      | some kind => return ⟨houseId, deviceId, kind⟩
    | _ => .error (.other "not enough values to unpack")

/-! ### What an identifier is made of -/

/-- The separator of topics, the wildcards of subscriptions, NUL and the line breaks. -/
def reserved : List Char := ['/', '+', '#', Char.ofNat 0, '\n', '\r']

theorem validateIdentifier_ok {value name : String} :
    validateIdentifier value name = .ok () ↔ validIdentifier value = true := by
  unfold validateIdentifier
  cases validIdentifier value <;> simp

/-- **An identifier has no reserved character.** -/
theorem plain_of_valid {value : String} (h : validIdentifier value = true) :
    ∀ c ∈ value.toList, c ∉ reserved := by
  have hone : ∀ c : Char, (c.isAlphanum || c = Char.ofNat 95 || c = Char.ofNat 46 ||
      c = Char.ofNat 45) = true → c ∉ reserved := by
    intro c hc hmem
    have hreserved : reserved.all (fun c => !(c.isAlphanum || c = Char.ofNat 95 ||
        c = Char.ofNat 46 || c = Char.ofNat 45)) = true := by decide
    have := List.all_eq_true.mp hreserved c hmem
    rw [hc] at this
    cases this
  unfold validIdentifier at h
  cases hvalue : value.toList with
  | nil => simp
  | cons c rest =>
      rw [hvalue] at h
      simp only [Bool.and_eq_true, List.all_eq_true] at h
      obtain ⟨⟨hc, -⟩, hrest⟩ := h
      intro d hd
      rcases List.mem_cons.mp hd with hd | hd
      · refine hone d ?_
        rw [hd, hc]
        rfl
      · exact hone d (hrest d hd)

/-- An identifier is one segment. -/
theorem split_identifier {value : String} (h : validIdentifier value = true) :
    split '/' value = [value] :=
  split_none fun hmem => plain_of_valid h '/' hmem (by decide)

/-! ### The codec -/

section

variable {houseId deviceId topic : String} {kind : TopicKind} {p : ParsedTopic}

/-- A check comes before the rest. -/
theorem check_ok {α : Type} {x : Except Error Unit} {f : Unit → Except Error α} {a : α} :
    (x >>= f) = .ok a ↔ x = .ok () ∧ f () = .ok a := by
  cases x with
  | error e =>
      constructor
      · intro h
        cases h
      · intro h
        cases h.1
  | ok u => exact ⟨fun h => ⟨rfl, h⟩, fun h => h.2⟩

/-- What a topic is built of. -/
theorem buildTopic_ok : buildTopic houseId deviceId kind = .ok topic ↔
    validIdentifier houseId = true ∧ validIdentifier deviceId = true ∧
      topic = topicRoot ++ "/" ++ houseId ++ "/" ++ deviceId ++ "/" ++ kind.value := by
  rw [buildTopic, check_ok, check_ok, validateIdentifier_ok, validateIdentifier_ok]
  refine and_congr_right fun _ => and_congr_right fun _ => ?_
  constructor
  · intro h
    exact (Except.ok.inj h).symm
  · intro h
    rw [h]
    rfl

/-- **The segments of a topic** are those of its parts. -/
theorem split_topic (hhouse : validIdentifier houseId = true)
    (hdevice : validIdentifier deviceId = true) (kind : TopicKind) :
    split '/' (topicRoot ++ "/" ++ houseId ++ "/" ++ deviceId ++ "/" ++ kind.value) =
      "kzhome" :: "v1" :: houseId :: deviceId :: split '/' kind.value := by
  have hsep : "/" = String.singleton '/' := rfl
  have hroot : split '/' topicRoot = ["kzhome", "v1"] := by decide
  rw [hsep, split_append, split_append, split_append, hroot, split_identifier hhouse,
    split_identifier hdevice]
  rfl

/-- What is read of a topic. -/
theorem parseTopic_ok : parseTopic topic = .ok p ↔
    ∃ rest, split '/' topic = "kzhome" :: "v1" :: p.houseId :: p.deviceId :: rest ∧
      (rest.length = 1 ∨ rest.length = 2) ∧ validIdentifier p.houseId = true ∧
      validIdentifier p.deviceId = true ∧ p.kind.value = "/".intercalate rest := by
  constructor
  · intro h
    unfold parseTopic at h
    dsimp only at h
    split at h
    · cases h
    · rename_i hok
      obtain ⟨hlength, htake⟩ := not_or.mp hok
      rw [not_not] at hlength htake
      have hparts : PyText.split '/' topic =
          "kzhome" :: "v1" :: (PyText.split '/' topic).drop 2 := by
        conv => lhs; rw [← List.take_append_drop 2 (PyText.split '/' topic), htake]
        rfl
      rw [hparts] at hlength
      generalize (PyText.split '/' topic).drop 2 = tail at h hparts hlength
      match tail with
      | [] => cases h
      | [_] => cases h
      | house :: device :: rest =>
          obtain ⟨hhouse, h⟩ := check_ok.mp h
          obtain ⟨hdevice, h⟩ := check_ok.mp h
          have hrest : rest.length = 1 ∨ rest.length = 2 := by
            simp only [List.length_cons, List.mem_cons, List.not_mem_nil, or_false] at hlength
            omega
          cases hkind : TopicKind.ofValue? ("/".intercalate rest) with
          | none =>
              rw [hkind] at h
              cases h
          | some kind =>
              rw [hkind] at h
              obtain rfl := Except.ok.inj h
              exact ⟨rest, hparts, hrest, validateIdentifier_ok.mp hhouse,
                validateIdentifier_ok.mp hdevice, TopicKind.value_of_ofValue? hkind⟩
  · intro h
    obtain ⟨rest, hparts, hrest, hhouse, hdevice, hkind⟩ := h
    unfold parseTopic
    dsimp only
    rw [hparts, if_neg]
    · refine check_ok.mpr ⟨validateIdentifier_ok.mpr hhouse, ?_⟩
      refine check_ok.mpr ⟨validateIdentifier_ok.mpr hdevice, ?_⟩
      rw [← hkind, TopicKind.ofValue?_value]
      rfl
    · rw [not_or, not_not, not_not]
      refine ⟨?_, rfl⟩
      simp only [List.length_cons, List.mem_cons, List.not_mem_nil, or_false]
      omega

/-- **What is built is read back.** -/
theorem parse_build (h : buildTopic houseId deviceId kind = .ok topic) :
    parseTopic topic = .ok ⟨houseId, deviceId, kind⟩ := by
  obtain ⟨hhouse, hdevice, htopic⟩ := buildTopic_ok.mp h
  refine parseTopic_ok.mpr ⟨split '/' kind.value, ?_, kind.split_value_length, hhouse, hdevice, ?_⟩
  · rw [htopic, split_topic hhouse hdevice]
  · exact (intercalate_split kind.value).symm

/-- **What is read builds the topic again.** -/
theorem build_parse (h : parseTopic topic = .ok p) :
    buildTopic p.houseId p.deviceId p.kind = .ok topic := by
  obtain ⟨rest, hparts, hrest, hhouse, hdevice, hkind⟩ := parseTopic_ok.mp h
  have hne : rest ≠ [] := by
    intro hnil
    rw [hnil] at hrest
    simp at hrest
  refine buildTopic_ok.mpr ⟨hhouse, hdevice, ?_⟩
  calc topic = (String.singleton '/').intercalate (split '/' topic) :=
        (intercalate_split topic).symm
    _ = "/".intercalate ("kzhome" :: "v1" :: p.houseId :: p.deviceId :: rest) := by
        rw [hparts]
        rfl
    _ = topicRoot ++ "/" ++ p.houseId ++ "/" ++ p.deviceId ++ "/" ++ p.kind.value := by
        rw [hkind, String.intercalate_cons_cons, String.intercalate_cons_cons,
          String.intercalate_cons_cons, String.intercalate_cons_of_ne_nil hne]
        simp only [topicRoot, protocolVersion, String.append_assoc]
        rfl

end

/-- **Topics are an exact codec**: what is built is read back, what is read builds the same
topic, no two triples share one, and no identifier has a reserved character in it. -/
theorem topics_codec :
    (∀ houseId deviceId kind topic, buildTopic houseId deviceId kind = .ok topic →
      parseTopic topic = .ok ⟨houseId, deviceId, kind⟩) ∧
    (∀ topic p, parseTopic topic = .ok p →
      buildTopic p.houseId p.deviceId p.kind = .ok topic) ∧
    (∀ p q : ParsedTopic, ∀ topic, buildTopic p.houseId p.deviceId p.kind = .ok topic →
      buildTopic q.houseId q.deviceId q.kind = .ok topic → p = q) ∧
    ∀ value name, validateIdentifier value name = .ok () → ∀ c ∈ value.toList, c ∉ reserved := by
  refine ⟨fun _ _ _ _ => parse_build, fun _ _ => build_parse, ?_, ?_⟩
  · intro p q topic hp hq
    have hsame := (parse_build hp).symm.trans (parse_build hq)
    exact Except.ok.inj hsame
  · intro value name h
    exact plain_of_valid (validateIdentifier_ok.mp h)

/-- A kind of two segments, and identifiers with dots and dashes. -/
theorem topics_codec_control :
    buildTopic "kz.home" "relay-1" .controlReply = .ok "kzhome/v1/kz.home/relay-1/control/reply" ∧
      parseTopic "kzhome/v1/kz.home/relay-1/control/reply" =
        .ok ⟨"kz.home", "relay-1", .controlReply⟩ := by
  have hbuild : buildTopic "kz.home" "relay-1" .controlReply =
      .ok "kzhome/v1/kz.home/relay-1/control/reply" := by
    decide +kernel
  exact ⟨hbuild, topics_codec.1 _ _ _ _ hbuild⟩

end Topics

end KzHome

import KzHome.ControlAuthority
import KzHome.Lib.PyValues

/-!
# KzHome.PermitRequests

`decode_request`: how Core reads the permit request of a device.

The bytes are UTF-8, the text is JSON whose objects name no member twice, and the members are
checked strictly: nothing is converted, nothing is left over. The texts of the UUIDs have to be
their own rendering.

**A request has one spelling of each member** (`permit_request_strict`): the bytes that are decoded
are the documents of the nine members, in any order, whose texts are canonical; and what Core
writes for a request is read back as it.
-/

namespace KzHome

open JsonGrammar
open PyValues (points text? text?_eq_some fromUTF8?_eq_some utf8_size)
open PyText (Canonical isLowerHex)

/-- `MAX_CONTROL_FRAME` -/
def maxControlFrame : Nat := 4096

/-- The members of an object, as `unique` collects them. -/
abbrev Raw := Dict (List Nat) Value

/-- Whether `unique` returns. -/
def unique (pairs : List (List Nat × Value)) : Bool := decide (pairs.map Prod.fst).Nodup

/-- The members that the model declares. -/
def declaredFields : List String :=
  ["control_version", "type", "execution_profile", "core_epoch", "command_id", "boot_id",
   "session_id", "nonce", "intent_sha256"]

/-- A member that is a text and passes a check. -/
def textField (raw : Raw) (name : String) (check : String → Bool) : Option String :=
  match raw.get? (points name) with
  | some (.str s) => (text? s).filter check
  | _ => none

/-- `^[0-9a-f]{width}$` -/
def hexPattern (width : Nat) (s : String) : Bool := s.length = width && s.toList.all isLowerHex

/-- `canonical_uuid`, after `max_length=36` -/
def canonicalUuid (s : String) : Bool :=
  s.length ≤ 36 && match PyText.uuid s.toList with
    | some n => PyText.uuidText n = s.toList
    | none => false

/-- `Literal[1]` of a member that is an `int`. -/
def literalOne : Option Value → Bool
  | some (.int n) => n = 1
  | _ => false

/-- `PermitRequest.model_validate` -/
def PermitRequest.validate (raw : Raw) : Option PermitRequest := do
  guard (raw.entries.all fun e => declaredFields.any fun name => points name = e.1)
  guard (literalOne (raw.get? (points "control_version")))
  let _ ← textField raw "type" fun s => s = "permit_request"
  let _ ← textField raw "execution_profile" fun s => s = controlProfile
  let coreEpoch ← textField raw "core_epoch" canonicalUuid
  let commandId ← textField raw "command_id" canonicalUuid
  let bootId ← textField raw "boot_id" (hexPattern 32)
  let sessionId ← textField raw "session_id" (hexPattern 32)
  let nonce ← textField raw "nonce" (hexPattern 32)
  let intentSha256 ← textField raw "intent_sha256" (hexPattern 64)
  return ⟨coreEpoch, commandId, bootId, sessionId, nonce, intentSha256⟩

/-- What `decode_request` raises. -/
inductive RequestError
  /-- "Oversized control frame" -/
  | oversized
  /-- "Invalid control JSON" -/
  | json
  /-- "Duplicate control field" -/
  | duplicate
  /-- "Invalid control version" -/
  | version
  /-- the `ValidationError` of the model -/
  | fields
  deriving DecidableEq, Repr

/-- `decode_request`. The interpreter has `spare` levels of recursion left after the first. -/
def decodeRequest (spare : Nat) (payload : ByteArray) : Except RequestError PermitRequest :=
  if maxControlFrame < payload.size then .error .oversized
  else match String.fromUTF8? payload with
    | none => .error .json
    | some text =>
      match parse unique (spare + 1) text.toList with
      | .error .refused => .error .duplicate
      | .error _ => .error .json
      | .ok (.obj pairs) =>
        if h : (pairs.map Prod.fst).Nodup then
          let raw : Raw := ⟨pairs, h⟩
          match raw.get? (points "control_version") with
          | some (.int _) =>
            match PermitRequest.validate raw with
            | some request => .ok request
            | none => .error .fields
          | _ => .error .version
        else .error .duplicate
      | .ok _ => .error .version

/-! ### Members -/

theorem textField_eq_some {raw : Raw} {name : String} {check : String → Bool} {s : String} :
    textField raw name check = some s ↔
      raw.get? (points name) = some (.str (points s)) ∧ check s = true := by
  unfold textField
  split
  · rename_i ps hget
    rw [Option.filter_eq_some_iff, text?_eq_some, hget]
    simp
  · rename_i hnot
    constructor
    · intro h
      cases h
    · rintro ⟨hget, -⟩
      exact absurd hget (hnot (points s))

theorem hexPattern_iff {width : Nat} {s : String} :
    hexPattern width s = true ↔ s.length = width ∧ ∀ c ∈ s.toList, isLowerHex c = true := by
  simp [hexPattern]

theorem canonicalUuid_iff {s : String} : canonicalUuid s = true ↔ Canonical s.toList := by
  rw [← PyText.uuid_renders_iff, canonicalUuid, Bool.and_eq_true]
  constructor
  · rintro ⟨-, h⟩
    split at h
    · rename_i n hn
      exact ⟨n, hn, of_decide_eq_true h⟩
    · cases h
  · rintro ⟨n, hn, htext⟩
    have hcanonical : Canonical s.toList := htext ▸ PyText.uuidText_canonical n
    have hlen : s.length = 36 := by
      rw [← String.length_toList]
      exact hcanonical.length
    exact ⟨by simp [hlen], by rw [hn]; exact decide_eq_true htext⟩

/-! ### Requests -/

/-- What every `PermitRequest` meets. -/
structure PermitRequest.Valid (request : PermitRequest) : Prop where
  coreEpoch : Canonical request.coreEpoch.toList
  commandId : Canonical request.commandId.toList
  bootId : request.bootId.length = 32 ∧ ∀ c ∈ request.bootId.toList, isLowerHex c = true
  sessionId : request.sessionId.length = 32 ∧ ∀ c ∈ request.sessionId.toList, isLowerHex c = true
  nonce : request.nonce.length = 32 ∧ ∀ c ∈ request.nonce.toList, isLowerHex c = true
  intentSha256 : request.intentSha256.length = 64 ∧
    ∀ c ∈ request.intentSha256.toList, isLowerHex c = true

/-- The nine members of a request. -/
def PermitRequest.members (request : PermitRequest) : List (List Nat × Value) :=
  [(points "control_version", .int 1), (points "type", .str (points "permit_request")),
   (points "execution_profile", .str (points controlProfile)),
   (points "core_epoch", .str (points request.coreEpoch)),
   (points "command_id", .str (points request.commandId)),
   (points "boot_id", .str (points request.bootId)),
   (points "session_id", .str (points request.sessionId)),
   (points "nonce", .str (points request.nonce)),
   (points "intent_sha256", .str (points request.intentSha256))]

theorem members_keys (request : PermitRequest) :
    request.members.map Prod.fst = declaredFields.map points := rfl

theorem declared_nodup : (declaredFields.map points).Nodup := by
  decide

/-- The checks: no member is undeclared, the nine are there, and each of them is well formed. -/
theorem validate_checks {raw : Raw} {request : PermitRequest} :
    PermitRequest.validate raw = some request ↔
      (∀ e ∈ raw.entries, e.1 ∈ declaredFields.map points) ∧
        (∀ m ∈ request.members, raw.get? m.1 = some m.2) ∧ request.Valid := by
  have hkeys : (raw.entries.all fun e => declaredFields.any fun name => points name = e.1) = true ↔
      ∀ e ∈ raw.entries, e.1 ∈ declaredFields.map points := by
    simp only [List.all_eq_true, List.any_eq_true, decide_eq_true_eq, List.mem_map]
  have hone : literalOne (raw.get? (points "control_version")) = true ↔
      raw.get? (points "control_version") = some (.int 1) := by
    unfold literalOne
    split
    · rename_i n hn
      rw [hn]
      simp
    · rename_i hnot
      simp only [Bool.false_eq_true, false_iff]
      exact fun h => hnot 1 h
  simp only [PermitRequest.validate, Option.bind_eq_bind, Option.bind_eq_some_iff,
    Option.guard_eq_some', hkeys, hone, textField_eq_some, decide_eq_true_eq, canonicalUuid_iff,
    hexPattern_iff]
  constructor
  · rintro ⟨-, hdeclared, -, hversion, _, ⟨htype, rfl⟩, _, ⟨hprofile, rfl⟩, epoch,
      ⟨hepoch, hepochText⟩, command, ⟨hcommand, hcommandText⟩, boot, ⟨hboot, hbootText⟩,
      session, ⟨hsession, hsessionText⟩, nonce, ⟨hnonce, hnonceText⟩, sha, ⟨hsha, hshaText⟩, heq⟩
    obtain rfl := Option.some.inj heq
    refine ⟨hdeclared, ?_, hepochText, hcommandText, hbootText, hsessionText, hnonceText, hshaText⟩
    simp only [PermitRequest.members, List.forall_mem_cons]
    exact ⟨hversion, htype, hprofile, hepoch, hcommand, hboot, hsession, hnonce, hsha,
      fun _ hm => nomatch hm⟩
  · rintro ⟨hdeclared, hget, hvalid⟩
    simp only [PermitRequest.members, List.forall_mem_cons] at hget
    obtain ⟨hversion, htype, hprofile, hepoch, hcommand, hboot, hsession, hnonce, hsha, -⟩ := hget
    exact ⟨(), hdeclared, (), hversion, _, ⟨htype, rfl⟩, _, ⟨hprofile, rfl⟩, _,
      ⟨hepoch, hvalid.coreEpoch⟩, _, ⟨hcommand, hvalid.commandId⟩, _, ⟨hboot, hvalid.bootId⟩, _,
      ⟨hsession, hvalid.sessionId⟩, _, ⟨hnonce, hvalid.nonce⟩, _, ⟨hsha, hvalid.intentSha256⟩, rfl⟩

/-- **The checks accept the nine members and nothing else**, and keep what they say. -/
theorem validate_eq_some {raw : Raw} {request : PermitRequest} :
    PermitRequest.validate raw = some request ↔
      raw.entries.Perm request.members ∧ request.Valid := by
  rw [validate_checks]
  have hraw : raw.entries.Nodup := List.Nodup.of_map Prod.fst raw.nodup
  have hmembers : (request.members.map Prod.fst).Nodup := declared_nodup
  constructor
  · rintro ⟨hkeys, hget, hvalid⟩
    refine ⟨(List.perm_ext_iff_of_nodup hraw (List.Nodup.of_map Prod.fst hmembers)).mpr ?_, hvalid⟩
    intro e
    constructor
    · intro he
      have hdeclared := hkeys e he
      rw [← members_keys request] at hdeclared
      obtain ⟨m, hm, hkey⟩ := List.mem_map.mp hdeclared
      have hval : raw.get? m.1 = some e.2 := by
        rw [hkey]
        exact Dict.get?_eq_some.mpr he
      have heq : e = m := Prod.ext hkey.symm (Option.some.inj (hval.symm.trans (hget m hm)))
      exact heq ▸ hm
    · intro hm
      exact Dict.get?_eq_some.mp (hget e hm)
  · rintro ⟨hperm, hvalid⟩
    refine ⟨?_, ?_, hvalid⟩
    · intro e he
      rw [← members_keys request]
      exact List.mem_map_of_mem (hperm.mem_iff.mp he)
    · intro m hm
      exact Dict.get?_eq_some.mpr (hperm.mem_iff.mpr hm)

/-! ### Decoding -/

theorem members_scalar (request : PermitRequest) : ∀ m ∈ request.members, IsScalar m.2 := by
  intro m hm
  simp only [PermitRequest.members, List.mem_cons, List.not_mem_nil, or_false] at hm
  rcases hm with rfl | rfl | rfl | rfl | rfl | rfl | rfl | rfl | rfl
  · exact isScalar_int 1
  · exact isScalar_str _
  · exact isScalar_str _
  · exact isScalar_str _
  · exact isScalar_str _
  · exact isScalar_str _
  · exact isScalar_str _
  · exact isScalar_str _
  · exact isScalar_str _

/-- The version is an `int` of a request that the checks accept. -/
theorem version_of_validate {raw : Raw} {request : PermitRequest}
    (h : PermitRequest.validate raw = some request) :
    raw.get? (points "control_version") = some (.int 1) :=
  (validate_checks.mp h).2.1 (points "control_version", .int 1) List.mem_cons_self

theorem decodeRequest_eq_ok {spare : Nat} {payload : ByteArray} {request : PermitRequest} :
    decodeRequest spare payload = .ok request ↔
      payload.size ≤ maxControlFrame ∧ ∃ text : String, payload = text.toUTF8 ∧
        ∃ raw : Raw, Document unique (spare + 1) (.obj raw.entries) text.toList ∧
          PermitRequest.validate raw = some request := by
  unfold decodeRequest
  constructor
  · intro h
    split at h
    · cases h
    · rename_i hsize
      refine ⟨Nat.not_lt.mp hsize, ?_⟩
      split at h
      · cases h
      · rename_i text htext
        refine ⟨text, fromUTF8?_eq_some.mp htext, ?_⟩
        split at h
        · cases h
        · cases h
        · rename_i pairs hparse
          split at h
          · rename_i hnodup
            refine ⟨⟨pairs, hnodup⟩, parse_iff.mp hparse, ?_⟩
            simp only at h
            split at h
            · split at h
              · rename_i hvalidate
                cases h
                exact hvalidate
              · cases h
            · cases h
          · cases h
        · cases h
  · rintro ⟨hsize, text, htext, raw, hdocument, hvalidate⟩
    rw [if_neg (Nat.not_lt.mpr hsize), fromUTF8?_eq_some.mpr htext]
    simp only [parse_iff.mpr hdocument]
    rw [dif_pos raw.nodup]
    simp only [version_of_validate hvalidate, hvalidate]

/-! ### What is written for a request -/

/-- The pieces that `json.dumps` writes for a character. -/
def written (c : Char) : List Piece :=
  match JsonText.shortEscapes.find? (fun e => e.1 = c.toNat) with
  | some _ => [.point c.toNat]
  | none =>
    if 32 ≤ c.toNat ∧ c.toNat ≤ 126 then [.point c.toNat]
    else if c.toNat < 65536 then [.unit c.toNat]
    else [.unit (55296 + (c.toNat - 65536) / 1024 % 1024), .unit (56320 + (c.toNat - 65536) % 1024)]

theorem hex4_read {n : Nat} (h : n < 65536) :
    JsonGrammar.hex4 (JsonText.hexDigit (n / 4096 % 16)) (JsonText.hexDigit (n / 256 % 16))
      (JsonText.hexDigit (n / 16 % 16)) (JsonText.hexDigit (n % 16)) = some n := by
  have hdigit : ∀ d, d < 16 → PyText.hexDigit? (JsonText.hexDigit d) = some d :=
    fun d hd => PyText.hexDigit_lowerHex hd
  rw [JsonGrammar.hex4, hdigit _ (Nat.mod_lt _ (by decide)), hdigit _ (Nat.mod_lt _ (by decide)),
    hdigit _ (Nat.mod_lt _ (by decide)), hdigit _ (Nat.mod_lt _ (by decide))]
  simp only [Option.some.injEq]
  omega

theorem pieces_escape (c : Char) : Pieces (written c) (JsonText.escapeChar c) := by
  unfold written JsonText.escapeChar
  cases hs : JsonText.shortEscapes.find? (fun e => e.1 = c.toNat) with
  | some e =>
      have hmem := List.mem_of_find?_eq_some hs
      have he : e.1 = c.toNat := by simpa using List.find?_some hs
      simp only [JsonText.shortEscapes, List.mem_cons, List.not_mem_nil, or_false] at hmem
      simp only [← he]
      rcases hmem with rfl | rfl | rfl | rfl | rfl | rfl | rfl
      · exact .short rfl .nil
      · exact .short rfl .nil
      · exact .short rfl .nil
      · exact .short rfl .nil
      · exact .short rfl .nil
      · exact .short rfl .nil
      · exact .short rfl .nil
  | none =>
      have hne : ∀ e ∈ JsonText.shortEscapes, e.1 ≠ c.toNat := by simpa using hs
      have hquote : c ≠ '"' := by
        rintro rfl
        exact hne (34, 34) (by simp [JsonText.shortEscapes]) (by decide)
      have hescape : c ≠ '\\' := by
        rintro rfl
        exact hne (92, 92) (by simp [JsonText.shortEscapes]) (by decide)
      simp only
      split
      · rename_i hprint
        refine .point ?_ hquote hescape .nil
        rw [Char.lt_def, UInt32.lt_iff_toNat_lt]
        have hc : c.val.toNat = c.toNat := rfl
        have h32 : ' '.val.toNat = 32 := rfl
        omega
      · split
        · rename_i hlt
          exact .unit (hex4_read hlt) .nil
        · exact .unit (hex4_read (by omega)) (.unit (hex4_read (by omega)) .nil)

/-- A pair of surrogates is one code point. -/
theorem join_pair {h l n : Nat} (hh : 0xD800 ≤ h) (hh' : h ≤ 0xDBFF) (hl : 0xDC00 ≤ l)
    (hl' : l ≤ 0xDFFF) (hn : 0x10000 + (h - 0xD800) * 0x400 + (l - 0xDC00) = n)
    (ps : List Piece) : join (.unit h :: .unit l :: ps) = n :: join ps := by
  rw [join, if_pos ⟨hh, hh', hl, hl'⟩, hn]

theorem join_written (c : Char) (ps : List Piece) : join (written c ++ ps) = c.toNat :: join ps := by
  unfold written
  cases JsonText.shortEscapes.find? (fun e => e.1 = c.toNat) with
  | some _ => rfl
  | none =>
      simp only
      split
      · rfl
      split
      · rename_i hlt
        -- a character is no surrogate, so that its escape is never half of a pair
        have hsurrogate : ¬ (0xD800 ≤ c.toNat ∧ c.toNat ≤ 0xDBFF) := by
          rintro ⟨hlo, hhi⟩
          rcases c.valid with h | h
          · have : c.toNat < 0xD800 := h
            omega
          · have : 0xDFFF < c.toNat := h.1
            omega
        cases ps with
        | nil => rfl
        | cons p ps =>
            cases p with
            | point n => rfl
            | unit l =>
                simp only [List.cons_append, List.nil_append]
                rw [join, if_neg]
                exact fun h => hsurrogate ⟨h.1, h.2.1⟩
      · rename_i hge
        have hmax : c.toNat < 1114112 := by
          rcases c.valid with h | h
          · have : c.toNat < 55296 := h
            omega
          · exact h.2
        exact join_pair (by omega) (by omega) (by omega) (by omega) (by omega) ps

/-- **A text that `json.dumps` writes is read back.** -/
theorem quote_read (s : String) :
    ∃ ps cs, Pieces ps cs ∧ join ps = points s ∧ JsonText.quote s = '"' :: (cs ++ ['"']) := by
  have hwritten : ∀ cs : List Char, Pieces (cs.flatMap written) (cs.flatMap JsonText.escapeChar) ∧
      join (cs.flatMap written) = cs.map Char.toNat := by
    intro cs
    induction cs with
    | nil => exact ⟨.nil, rfl⟩
    | cons c cs ih =>
        refine ⟨(pieces_escape c).append ih.1, ?_⟩
        rw [List.flatMap_cons, join_written, ih.2, List.map_cons]
  have hquote : JsonText.quotation = '"' := by decide
  refine ⟨_, _, (hwritten s.toList).1, (hwritten s.toList).2, ?_⟩
  rw [JsonText.quote, hquote, List.cons_append]

theorem scalar_quote (s : String) : Scalar (.str (points s)) (JsonText.quote s) := by
  obtain ⟨ps, cs, hpieces, hjoin, hquote⟩ := quote_read s
  rw [hquote, ← hjoin]
  exact .str hpieces

/-- A member as `json.dumps` writes it without white space. -/
theorem member_dump {Inner : Value → List Char → Prop} {key : String} {v : Value}
    {cs : List Char} (h : Inner v cs) :
    Member Inner (points key, v) (JsonText.quote key ++ ":".toList ++ cs) := by
  obtain ⟨ps, ks, hpieces, hjoin, hquote⟩ := quote_read key
  have happ : JsonText.quote key ++ ":".toList ++ cs =
      '"' :: (ks ++ '"' :: ([] ++ ':' :: ([] ++ cs))) := by
    rw [hquote]
    simp
  rw [happ, ← hjoin]
  exact .mk hpieces blank_nil blank_nil h

/-- What is written under a key for a value. -/
def Writes (n : Nat) (m : List Nat × Value) (f : String × JsonText.Field) : Prop :=
  m.1 = points f.1 ∧ Text unique n m.2 f.2.dump

theorem separated_dumps {n : Nat} {members : List (List Nat × Value)}
    {fields : List (String × JsonText.Field)} (h : List.Forall₂ (Writes n) members fields)
    (hne : members ≠ []) :
    Separated (Member (Text unique n)) members
      ((",".toList).intercalate
        (fields.map fun f => JsonText.quote f.1 ++ ":".toList ++ f.2.dump)) := by
  induction h with
  | nil => exact absurd rfl hne
  | @cons m f ms fs hm hrest ih =>
      have hmember : Member (Text unique n) m (JsonText.quote f.1 ++ ":".toList ++ f.2.dump) := by
        have heq : m = (points f.1, m.2) := Prod.ext hm.1 rfl
        rw [heq]
        exact member_dump hm.2
      cases hrest with
      | nil =>
          have hone := Separated.one hmember blank_nil
          simpa using hone
      | cons hm' hrest =>
          have hmore := Separated.more hmember blank_nil blank_nil (ih (by simp))
          simp only [List.map_cons, List.intercalate_cons_cons] at hmore ⊢
          simpa using hmore

/-- **An object that `json.dumps` writes is read back.** -/
theorem document_dumps {n : Nat} {members : List (List Nat × Value)}
    {fields : List (String × JsonText.Field)} (h : List.Forall₂ (Writes n) members fields)
    (hne : members ≠ []) (hunique : unique members = true) :
    Document unique (n + 1) (.obj members) (JsonText.dumps fields).toList := by
  have hlisted := Listed.elements blank_nil (separated_dumps h hne)
  refine ⟨[], _, [], blank_nil, .obj hlisted hunique, blank_nil, ?_⟩
  rw [JsonText.dumps, String.toList_ofList]
  simp

/-- `request.model_dump_json()` -/
def PermitRequest.encode (request : PermitRequest) : String :=
  JsonText.dumps (request.dump "permit_request")

theorem unique_members (request : PermitRequest) : unique request.members = true :=
  decide_eq_true declared_nodup

theorem encode_document (request : PermitRequest) (spare : Nat) :
    Document unique (spare + 1) (.obj request.members) request.encode.toList := by
  have htext : ∀ key s, Writes spare (points key, .str (points s)) (key, .text s) :=
    fun key s => ⟨rfl, (scalar_quote s).text spare⟩
  have hwhole : Whole ['1'] := .digits (by decide) (by decide) (fun _ h => nomatch h)
  have hone : Writes spare (points "control_version", .int 1) ("control_version", .number 1) :=
    ⟨rfl, (Scalar.number (.positive hwhole .none .none)).text spare⟩
  refine document_dumps ?_ (List.cons_ne_nil _ _) (unique_members request)
  exact .cons hone (.cons (htext _ _) (.cons (htext _ _) (.cons (htext _ _) (.cons (htext _ _)
    (.cons (htext _ _) (.cons (htext _ _) (.cons (htext _ _) (.cons (htext _ _) .nil))))))))

/-- A text of lower-case digits and hyphens needs no escapes. -/
theorem quote_plain {s : String} (h : ∀ c ∈ s.toList, c = '-' ∨ isLowerHex c = true) :
    (JsonText.quote s).length = s.length + 2 := by
  have hescape : ∀ cs : List Char, (∀ c ∈ cs, c = '-' ∨ isLowerHex c = true) →
      (cs.flatMap JsonText.escapeChar).length = cs.length := by
    intro cs hcs
    induction cs with
    | nil => rfl
    | cons c cs ih =>
        have hc : JsonText.escapeChar c = [c] := by
          rcases hcs c List.mem_cons_self with rfl | hlower
          · decide
          · obtain ⟨d, hd, rfl⟩ := PyText.isLowerHex_cases hlower
            interval_cases d <;> decide
        rw [List.flatMap_cons, hc, List.length_append, ih fun d hd => hcs d
          (List.mem_cons_of_mem c hd)]
        simp only [List.length_cons, List.length_nil]
        omega
  rw [JsonText.quote, List.cons_append, List.length_cons, List.length_append,
    hescape s.toList h, String.length_toList]
  rfl

/-- The nine members of a request fit into a control frame. -/
theorem encode_size {request : PermitRequest} (h : request.Valid) :
    request.encode.toUTF8.size ≤ maxControlFrame := by
  have hepoch := quote_plain fun c hc => h.coreEpoch.mem hc
  have hcommand := quote_plain fun c hc => h.commandId.mem hc
  have hboot := quote_plain fun c hc => .inr (h.bootId.2 c hc)
  have hsession := quote_plain fun c hc => .inr (h.sessionId.2 c hc)
  have hnonce := quote_plain fun c hc => .inr (h.nonce.2 c hc)
  have hsha := quote_plain fun c hc => .inr (h.intentSha256.2 c hc)
  have hepochLen : request.coreEpoch.length = 36 := by
    rw [← String.length_toList]
    exact h.coreEpoch.length
  have hcommandLen : request.commandId.length = 36 := by
    rw [← String.length_toList]
    exact h.commandId.length
  have hkeys : (declaredFields.map fun k => (JsonText.quote k).length) =
      [17, 6, 19, 12, 12, 9, 12, 7, 15] := by decide
  have htexts : (JsonText.quote "permit_request").length = 16 ∧
      (JsonText.quote controlProfile).length = 20 := by decide
  simp only [declaredFields, List.map_cons, List.map_nil, List.cons.injEq] at hkeys
  obtain ⟨h1, h2, h3, h4, h5, h6, h7, h8, h9, -⟩ := hkeys
  have hone : (JsonText.Field.number 1).dump.length = 1 := by decide
  obtain ⟨text, htext, hlength⟩ : ∃ text, request.encode = String.ofList text ∧ text.length =
      (JsonText.tailMembers (request.dump "permit_request")).length := JsonText.dumps_length _ _
  rw [htext]
  refine (utf8_size _).trans ?_
  rw [hlength, JsonText.tailMembers_length]
  simp only [PermitRequest.dump, List.map_cons, List.map_nil, List.sum_cons, List.sum_nil]
  simp only [JsonText.Field.dump] at hone ⊢
  rw [h1, h2, h3, h4, h5, h6, h7, h8, h9, htexts.1, htexts.2, hone, hepoch, hcommand, hboot, hsession,
    hnonce, hsha, hepochLen, hcommandLen, h.bootId.1, h.sessionId.1, h.nonce.1, h.intentSha256.1]
  decide

/-- What is written for a request is read back as it. -/
theorem decodeRequest_encode {request : PermitRequest} (h : request.Valid) (spare : Nat) :
    decodeRequest spare request.encode.toUTF8 = .ok request :=
  decodeRequest_eq_ok.mpr ⟨encode_size h, request.encode, rfl, ⟨request.members, declared_nodup⟩,
    encode_document request spare, validate_eq_some.mpr ⟨.refl _, h⟩⟩

/-! ### Strictness -/

/-- **Permit requests are read strictly and canonically.** The bytes that are decoded are the
UTF-8 texts of at most 4096 bytes that are JSON objects, without a repeated name in any object, of
exactly the nine members, each of them well formed; what is decoded is what they say. What is
written for a request is decoded as it. -/
theorem permit_request_strict (spare : Nat) :
    (∀ (payload : ByteArray) (request : PermitRequest),
      decodeRequest spare payload = .ok request ↔
        payload.size ≤ 4096 ∧ ∃ text : String, payload = text.toUTF8 ∧
          ∃ (members : List (List Nat × Value)) (levels : Nat),
            Document unique levels (.obj members) text.toList ∧
              members.Perm request.members ∧ request.Valid) ∧
      ∀ request : { r : PermitRequest // r.Valid },
        decodeRequest spare request.1.encode.toUTF8 = .ok request.1 := by
  constructor
  · intro payload request
    rw [decodeRequest_eq_ok]
    constructor
    · rintro ⟨hsize, text, htext, raw, hdocument, hvalidate⟩
      exact ⟨hsize, text, htext, raw.entries, _, hdocument, validate_eq_some.mp hvalidate⟩
    · rintro ⟨hsize, text, htext, members, levels, hdocument, hperm, hvalid⟩
      have hscalar : ∀ m ∈ members, IsScalar m.2 :=
        fun m hm => members_scalar request m (hperm.mem_iff.mp hm)
      have hnodup : (members.map Prod.fst).Nodup :=
        (hperm.map Prod.fst).nodup_iff.mpr declared_nodup
      exact ⟨hsize, text, htext, ⟨members, hnodup⟩, hdocument.flat hscalar spare,
        validate_eq_some.mpr ⟨hperm, hvalid⟩⟩
  · rintro ⟨request, hvalid⟩
    exact decodeRequest_encode hvalid spare

end KzHome

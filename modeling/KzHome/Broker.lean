import KzHome.Commissioning
import KzHome.Lib.TopicFilters
import KzHome.Topics

/-!
# KzHome.Broker

Who may publish and read on which topic, with the access list that the repository ships
(`deploy/mosquitto/acl`) and one relay granted by `render_acl`.

The list is a text, and `shipped_grants` says what the reader of `KzHome.Commissioning` finds in
it. Everything else is said of topics as Core parses them: commands come from Core, the reports of
a device from its own user, and nobody can publish a control request or telemetry at all
(`topics_are_separate`). How filters are matched is the broker's, and a parameter.
-/

namespace KzHome.Broker

open Commissioning Topics TopicFilters PyText

/-! ### Reading a list line by line -/

/-- What a line of the file says. -/
inductive Item
  | nothing
  | user (name : String)
  | topic (access : Access) (filter : String)

def keyword : Access → String
  | .read => "topic read "
  | .write => "topic write "

/-- A name or a filter, without blanks. -/
def word (text : String) : Bool := text ≠ "" && text.toList.all fun c => !isSpace c

/-- A line says an item. -/
def reads (line : String) : Item → Bool
  | .nothing => line = "" || line.toList.head? = some '#' && !line.toList.contains '\n'
  | .user name => line = "user " ++ name && word name
  | .topic access filter => line = keyword access ++ filter && word filter

/-- The reader after an item. -/
def item (r : Reader) : Item → Reader
  | .nothing => r
  | .user name =>
    { r with current := some name.toList, sections := r.sections ++ [name.toList] }
  | .topic access filter => { r with grants := r.grants ++ [⟨r.current, access, filter.toList⟩] }

/-- A text that does not begin with a blank keeps its first character. -/
theorem strip_cons {c : Char} (hc : isSpace c = false) (rest : List Char) :
    ∃ tail, strip isSpace (c :: rest) = c :: tail := by
  obtain ⟨⟨ws, htext, hws⟩, -⟩ := rstrip_spec isSpace (c :: rest)
  have hdrop : (c :: rest).dropWhile isSpace = c :: rest := List.dropWhile_cons_of_neg (by simp [hc])
  rw [strip_eq_rstrip, hdrop]
  cases hstrip : rstrip isSpace (c :: rest) with
  | nil =>
      rw [hstrip, List.nil_append] at htext
      have hblank := hws c (htext ▸ List.mem_cons_self)
      rw [hc] at hblank
      cases hblank
  | cons d tail =>
      rw [hstrip] at htext
      obtain ⟨rfl, -⟩ := List.cons.inj htext
      exact ⟨tail, rfl⟩

theorem word_plain {text : String} (h : word text = true) :
    text.toList ≠ [] ∧ ∀ c ∈ text.toList, isSpace c = false := by
  simp only [word, Bool.and_eq_true, decide_eq_true_eq, ne_eq] at h
  exact ⟨fun hnil => h.1 (String.toList_eq_nil_iff.mp hnil), none_of_all h.2⟩

theorem line_of_reads {line : String} {i : Item} (h : reads line i = true) (r : Reader) :
    r.line line.toList = item r i := by
  cases i with
  | nothing =>
      rw [reads, Bool.or_eq_true, Bool.and_eq_true, decide_eq_true_eq, decide_eq_true_eq] at h
      rcases h with rfl | ⟨hhash, -⟩
      · exact Reader.line_nil r
      · obtain ⟨rest, hline⟩ := List.head?_eq_some_iff.mp hhash
        obtain ⟨tail, hstrip⟩ := strip_cons (c := '#') (by decide) rest
        rw [hline, Reader.line, hstrip]
        exact if_pos (.inr rfl)
  | user name =>
      rw [reads, Bool.and_eq_true, decide_eq_true_eq] at h
      obtain ⟨rfl, hword⟩ := h
      obtain ⟨hne, hname⟩ := word_plain hword
      rw [String.toList_append,
        Reader.line_user (strip_line (head_of_all (by decide)) hne hname), strip_plain hname]
      rfl
  | topic access filter =>
      rw [reads, Bool.and_eq_true, decide_eq_true_eq] at h
      obtain ⟨rfl, hword⟩ := h
      obtain ⟨hne, hname⟩ := word_plain hword
      rw [String.toList_append]
      cases access with
      | read =>
          rw [keyword, Reader.line_read (strip_line (head_of_all (by decide)) hne hname),
            strip_plain hname]
          rfl
      | write =>
          rw [keyword, Reader.line_write (strip_line (head_of_all (by decide)) hne hname),
            strip_plain hname]
          rfl

theorem unbroken_of_reads {line : String} {i : Item} (h : reads line i = true) :
    '\n' ∉ line.toList := by
  have hword : ∀ {text : String}, word text = true → '\n' ∉ text.toList := by
    intro text htext hmem
    have hspace := (word_plain htext).2 '\n' hmem
    cases hspace
  have happend : ∀ a b : String, '\n' ∉ a.toList → word b = true → '\n' ∉ (a ++ b).toList := by
    intro a b ha hb
    rw [String.toList_append, List.mem_append, not_or]
    exact ⟨ha, hword hb⟩
  cases i with
  | nothing =>
      rw [reads, Bool.or_eq_true, Bool.and_eq_true, decide_eq_true_eq, decide_eq_true_eq] at h
      rcases h with rfl | ⟨-, hline⟩
      · exact List.not_mem_nil
      · simpa using hline
  | user name =>
      rw [reads, Bool.and_eq_true, decide_eq_true_eq] at h
      rw [h.1]
      exact happend _ _ (by decide) h.2
  | topic access filter =>
      rw [reads, Bool.and_eq_true, decide_eq_true_eq] at h
      rw [h.1]
      cases access with
      | read => exact happend _ _ (by decide) h.2
      | write => exact happend _ _ (by decide) h.2

theorem exists_of_forall₂ {α β : Type} {R : α → β → Prop} {xs : List α} {ys : List β}
    (h : List.Forall₂ R xs ys) {x : α} (hx : x ∈ xs) : ∃ y ∈ ys, R x y := by
  induction h with
  | nil => cases hx
  | cons hr _ ih =>
      rcases List.mem_cons.mp hx with rfl | hx
      · exact ⟨_, List.mem_cons_self, hr⟩
      · obtain ⟨y, hy, hxy⟩ := ih hx
        exact ⟨y, List.mem_cons_of_mem _ hy, hxy⟩

/-- **A file is read line by line.** -/
theorem readAcl_lines {lines : List String} {items : List Item}
    (h : List.Forall₂ (reads · · = true) lines items) (hne : lines ≠ []) :
    readAcl (['\n'].intercalate (lines.map String.toList)) = items.foldl item {} := by
  rw [readAcl, List.splitOn_intercalate, List.foldl_map]
  · generalize ({} : Reader) = r
    clear hne
    induction h generalizing r with
    | nil => rfl
    | cons hreads _ ih =>
        rw [List.foldl_cons, List.foldl_cons, line_of_reads hreads]
        exact ih _
  · intro l hl
    obtain ⟨line, hline, rfl⟩ := List.mem_map.mp hl
    obtain ⟨i, -, hreads⟩ := exists_of_forall₂ h hline
    exact unbroken_of_reads hreads
  · simpa using hne

/-! ### The shipped list -/

/-- The lines of `deploy/mosquitto/acl`. -/
def shippedLines : List String :=
  ["# Core's server role handles registered houses. Devices receive no access here.",
   "user kzhome-core",
   "topic read kzhome/v1/+/+/state",
   "topic read kzhome/v1/+/+/ack",
   "topic read kzhome/v1/+/+/telemetry",
   "topic read kzhome/v1/+/+/status",
   "topic write kzhome/v1/+/+/set",
   "# Experimental authority directions only; device control ACLs are not provisioned.",
   "topic read kzhome/v1/+/+/control/request",
   "topic write kzhome/v1/+/+/control/command",
   "topic write kzhome/v1/+/+/control/reply",
   "",
   "# Optional commissioning identity; no access until an operator creates its password.",
   "# Register these exact house/device IDs in Core, or change all device paths together.",
   "user relay-simulator",
   "topic read kzhome/v1/e2e_house/e2e_relay/set",
   "topic write kzhome/v1/e2e_house/e2e_relay/state",
   "topic write kzhome/v1/e2e_house/e2e_relay/ack",
   "topic write kzhome/v1/e2e_house/e2e_relay/status",
   "",
   "# Optional motion probe: publish-only, no relay access or subscriptions.",
   "user motion-simulator",
   "topic write kzhome/v1/e2e_house/e2e_motion/state",
   "topic write kzhome/v1/e2e_house/e2e_motion/status",
   ""]

/-- `deploy/mosquitto/acl` -/
def shippedAcl : List Char := ['\n'].intercalate (shippedLines.map String.toList)

def coreUser : List Char := "kzhome-core".toList

def relaySimulator : List Char := "relay-simulator".toList

def motionSimulator : List Char := "motion-simulator".toList

/-- A right: on the topics of a kind, of every device or of one. -/
structure Right where
  user : List Char
  access : Access
  place : Option (String × String)
  kind : TopicKind

/-- A topic, or a filter, with these two levels. -/
def levels (house device : String) (kind : TopicKind) : String :=
  topicRoot ++ "/" ++ house ++ "/" ++ device ++ "/" ++ kind.value

/-- The filter that the list has for it. -/
def Right.filter (r : Right) : String :=
  levels (r.place.getD ("+", "+")).1 (r.place.getD ("+", "+")).2 r.kind

def Right.grant (r : Right) : Grant := ⟨some r.user, r.access, r.filter.toList⟩

/-- What Core may do: all devices. -/
def coreRights : List Right :=
  [⟨coreUser, .read, none, .state⟩, ⟨coreUser, .read, none, .ack⟩,
   ⟨coreUser, .read, none, .telemetry⟩, ⟨coreUser, .read, none, .status⟩,
   ⟨coreUser, .write, none, .set⟩, ⟨coreUser, .read, none, .controlRequest⟩,
   ⟨coreUser, .write, none, .controlCommand⟩, ⟨coreUser, .write, none, .controlReply⟩]

/-- What the simulators may do: a device each. -/
def simulatorRights : List Right :=
  [⟨relaySimulator, .read, some ("e2e_house", "e2e_relay"), .set⟩,
   ⟨relaySimulator, .write, some ("e2e_house", "e2e_relay"), .state⟩,
   ⟨relaySimulator, .write, some ("e2e_house", "e2e_relay"), .ack⟩,
   ⟨relaySimulator, .write, some ("e2e_house", "e2e_relay"), .status⟩,
   ⟨motionSimulator, .write, some ("e2e_house", "e2e_motion"), .state⟩,
   ⟨motionSimulator, .write, some ("e2e_house", "e2e_motion"), .status⟩]

/-- What a granted relay may do. -/
def relayRights (house device : String) : List Right :=
  ⟨username device, .read, some (house, device), .set⟩ ::
    [.ack, .state, .status].map fun kind => ⟨username device, .write, some (house, device), kind⟩

/-- The section of a user, with the rights that are listed in it. -/
def paragraph (user : String) (rights : List Right) : List Item :=
  .user user :: rights.map fun r => .topic r.access r.filter

/-- What the lines say. -/
def shippedItems : List Item :=
  .nothing :: (paragraph "kzhome-core" (coreRights.take 5) ++
    .nothing :: ((coreRights.drop 5).map (fun r => .topic r.access r.filter) ++
    .nothing :: .nothing :: .nothing :: (paragraph "relay-simulator" (simulatorRights.take 4) ++
    .nothing :: .nothing :: (paragraph "motion-simulator" (simulatorRights.drop 4) ++ [.nothing]))))

theorem shipped_reads : List.Forall₂ (reads · · = true) shippedLines shippedItems := by
  decide +kernel

/-- The rights of one user, in the section of that user. -/
theorem foldl_topics {user : List Char} {rights : List Right} (h : ∀ r ∈ rights, r.user = user)
    {r₀ : Reader} (hcurrent : r₀.current = some user) :
    (rights.map fun r => Item.topic r.access r.filter).foldl item r₀ =
      { r₀ with grants := r₀.grants ++ rights.map Right.grant } := by
  induction rights generalizing r₀ with
  | nil => simp
  | cons r rights ih =>
      have hnext : (item r₀ (.topic r.access r.filter)).current = some user := hcurrent
      rw [List.map_cons, List.foldl_cons, ih (fun r hr => h r (List.mem_cons_of_mem _ hr)) hnext]
      simp [item, Right.grant, hcurrent, h r List.mem_cons_self]

theorem foldl_paragraph {user : String} {rights : List Right} (h : ∀ r ∈ rights, r.user = user.toList)
    (r₀ : Reader) :
    (paragraph user rights).foldl item r₀ =
      ⟨some user.toList, r₀.sections ++ [user.toList], r₀.grants ++ rights.map Right.grant⟩ := by
  rw [paragraph, List.foldl_cons, foldl_topics h rfl]
  rfl

/-- **What the shipped list grants.** -/
theorem shipped_grants :
    (readAcl shippedAcl).grants = (coreRights ++ simulatorRights).map Right.grant := by
  have hcore : ∀ r ∈ coreRights, r.user = coreUser := by simp [coreRights]
  have hrelay : ∀ r ∈ simulatorRights.take 4, r.user = relaySimulator := by simp [simulatorRights]
  have hmotion : ∀ r ∈ simulatorRights.drop 4, r.user = motionSimulator := by simp [simulatorRights]
  rw [shippedAcl, readAcl_lines shipped_reads (List.cons_ne_nil _ _), shippedItems]
  simp only [List.foldl_cons, List.foldl_append, item, List.foldl_nil]
  rw [foldl_paragraph fun r hr => hcore r (List.mem_of_mem_take hr),
    foldl_topics (fun r hr => hcore r (List.mem_of_mem_drop hr)) rfl,
    foldl_paragraph hrelay, foldl_paragraph hmotion]
  simp only [List.append_assoc, ← List.map_append, List.take_append_drop, List.nil_append]

/-! ### Rights and topics -/

/-- The right covers the topic. -/
def Right.allows (r : Right) (p : ParsedTopic) : Prop :=
  r.kind = p.kind ∧ ∀ place ∈ r.place, place = (p.houseId, p.deviceId)

/-- The device of a right has ids. -/
def Right.Valid (r : Right) : Prop :=
  ∀ place ∈ r.place, validIdentifier place.1 = true ∧ validIdentifier place.2 = true

/-- The client may do it on the topic. -/
def May (matching : String → String → Bool) (acl user : List Char) (access : Access)
    (topic : String) : Prop :=
  ∃ g ∈ (readAcl acl).grants, g.user = some user ∧ g.access = access ∧
    matching (String.ofList g.topic) topic = true

/-- All rights, once a relay is granted. -/
def rights (house device : String) : List Right :=
  coreRights ++ simulatorRights ++ relayRights house device

section

variable {matching : String → String → Bool} {house device topic : String} {granted user : List Char}
  {access : Access} {r : Right} {p : ParsedTopic}

theorem split_levels {house device : String} (hhouse : '/' ∉ house.toList)
    (hdevice : '/' ∉ device.toList) (kind : TopicKind) :
    split '/' (levels house device kind) =
      "kzhome" :: "v1" :: house :: device :: split '/' kind.value := by
  have hsep : "/" = String.singleton '/' := rfl
  have hroot : split '/' topicRoot = ["kzhome", "v1"] := by decide
  rw [levels, hsep, split_append, split_append, split_append, hroot, split_none hhouse,
    split_none hdevice]
  rfl

theorem value_inj {k k' : TopicKind} : k.value = k'.value ↔ k = k' :=
  ⟨fun h => Option.some.inj (by rw [← k.ofValue?_value, h, k'.ofValue?_value]), congrArg _⟩

/-- No kind has a wildcard in it. -/
theorem covers_value {k k' : TopicKind} :
    List.Forall₂ (fun f t => f = "+" ∨ f = t) (split '/' k.value) (split '/' k'.value) ↔ k = k' := by
  have hplain : "+" ∉ split '/' k.value := by cases k <;> decide
  exact (covers_plain hplain).trans value_inj

theorem separator_notMem {value : String} (h : validIdentifier value = true) :
    '/' ∉ value.toList := fun hmem => plain_of_valid h '/' hmem (by decide)

theorem ne_plus {value : String} (h : validIdentifier value = true) : value ≠ "+" := by
  rintro rfl
  cases h

theorem Right.Valid.split_filter (h : r.Valid) : split '/' r.filter =
    "kzhome" :: "v1" :: (r.place.getD ("+", "+")).1 :: (r.place.getD ("+", "+")).2 ::
      split '/' r.kind.value := by
  cases hplace : r.place with
  | none => rw [Right.filter, hplace]; exact split_levels (by decide) (by decide) _
  | some place =>
      have hvalid := h place hplace
      rw [Right.filter, hplace]
      exact split_levels (separator_notMem hvalid.1) (separator_notMem hvalid.2) _

/-- **A right covers the topics that it allows.** -/
theorem Right.Valid.covers_iff (h : r.Valid)
    (hbuild : buildTopic p.houseId p.deviceId p.kind = .ok topic) :
    covers r.filter topic ↔ r.allows p := by
  obtain ⟨hhouse, hdevice, rfl⟩ := buildTopic_ok.mp hbuild
  rw [covers, h.split_filter, split_topic hhouse hdevice, List.forall₂_cons, List.forall₂_cons,
    List.forall₂_cons, List.forall₂_cons, covers_value, Right.allows]
  cases hplace : r.place with
  | none => simp
  | some place =>
      have hvalid := h place hplace
      simp [ne_plus hvalid.1, ne_plus hvalid.2, Prod.ext_iff, and_comm, and_assoc]

theorem notMem_levels {c : Char} (hc : c = '+' ∨ c = '#') {house device : String}
    (hhouse : c ∉ house.toList) (hdevice : c ∉ device.toList) (kind : TopicKind) :
    c ∉ (levels house device kind).toList := by
  have hrest : c ∉ topicRoot.toList ∧ c ∉ "/".toList ∧ c ∉ kind.value.toList := by
    rcases hc with rfl | rfl
    · exact ⟨by decide, by decide, by cases kind <;> decide⟩
    · exact ⟨by decide, by decide, by cases kind <;> decide⟩
  simp only [levels, String.toList_append, List.mem_append, not_or]
  exact ⟨⟨⟨⟨⟨⟨hrest.1, hrest.2.1⟩, hhouse⟩, hrest.2.1⟩, hdevice⟩, hrest.2.1⟩, hrest.2.2⟩

theorem Right.Valid.levelled (h : r.Valid) : Levelled r.filter := by
  constructor
  · have hplain : ∀ place ∈ r.place, '#' ∉ place.1.toList ∧ '#' ∉ place.2.toList :=
      fun place hplace => ⟨fun hmem => plain_of_valid (h place hplace).1 '#' hmem (by decide),
        fun hmem => plain_of_valid (h place hplace).2 '#' hmem (by decide)⟩
    cases hplace : r.place with
    | none => rw [Right.filter, hplace]; exact notMem_levels (.inr rfl) (by decide) (by decide) _
    | some place =>
        rw [Right.filter, hplace]
        exact notMem_levels (.inr rfl) (hplain place hplace).1 (hplain place hplace).2 _
  · rw [h.split_filter]
    simp

theorem plain_topic (hbuild : buildTopic p.houseId p.deviceId p.kind = .ok topic) :
    Plain topic := by
  obtain ⟨hhouse, hdevice, rfl⟩ := buildTopic_ok.mp hbuild
  exact ⟨notMem_levels (.inl rfl) (fun hmem => plain_of_valid hhouse '+' hmem (by decide))
      (fun hmem => plain_of_valid hdevice '+' hmem (by decide)) _,
    notMem_levels (.inr rfl) (fun hmem => plain_of_valid hhouse '#' hmem (by decide))
      (fun hmem => plain_of_valid hdevice '#' hmem (by decide)) _⟩

/-- The ids of devices that can be granted are those of topics, but shorter. -/
theorem valid_of_topicId {s : String} (h : topicId s = true) : validIdentifier s = true := by
  have hchar : ∀ c : Char, alphanumeric c = true → c.isAlphanum = true := by
    intro c hc
    simp only [alphanumeric, Bool.or_eq_true, Bool.and_eq_true, decide_eq_true_eq] at hc
    simp only [Char.isAlphanum, Char.isAlpha, Char.isUpper, Char.isLower, Char.isDigit,
      Bool.or_eq_true, Bool.and_eq_true, decide_eq_true_eq]
    rcases hc with (hc | hc) | hc
    · exact .inl (.inr hc)
    · exact .inl (.inl hc)
    · exact .inr hc
  unfold topicId at h
  unfold validIdentifier
  cases htext : s.toList with
  | nil =>
      rw [htext] at h
      cases h
  | cons c rest =>
      rw [htext] at h
      simp only [Bool.and_eq_true, decide_eq_true_eq, List.all_eq_true, Bool.or_eq_true] at h ⊢
      refine ⟨⟨hchar c h.1.1, by omega⟩, fun d hd => ?_⟩
      rcases h.2 d hd with hd | hd
      · exact .inl (.inl (.inl (hchar d hd)))
      · have hlisted : d = '_' ∨ d = '.' ∨ d = '-' := by simpa using hd
        rcases hlisted with rfl | rfl | rfl
        · exact .inl (.inl (.inr rfl))
        · exact .inl (.inr rfl)
        · exact .inr rfl

theorem rights_valid (hhouse : validIdentifier house = true)
    (hdevice : validIdentifier device = true) : ∀ r ∈ rights house device, r.Valid := by
  have hcore : ∀ r ∈ coreRights, r.place = none := by simp [coreRights]
  have hsimulators : ∀ r ∈ simulatorRights,
      r.place = some ("e2e_house", "e2e_relay") ∨ r.place = some ("e2e_house", "e2e_motion") := by
    simp [simulatorRights]
  have hrelay : ∀ r ∈ relayRights house device, r.place = some (house, device) := by
    simp [relayRights]
  have hids : validIdentifier "e2e_house" = true ∧ validIdentifier "e2e_relay" = true ∧
      validIdentifier "e2e_motion" = true := by decide +kernel
  intro r hr place hplace
  rcases List.mem_append.mp hr with hr | hr
  · rcases List.mem_append.mp hr with hr | hr
    · rw [hcore r hr] at hplace
      cases hplace
    · rcases hsimulators r hr with h | h
      · obtain rfl := Option.some.inj (h.symm.trans hplace)
        exact ⟨hids.1, hids.2.1⟩
      · obtain rfl := Option.some.inj (h.symm.trans hplace)
        exact ⟨hids.1, hids.2.2⟩
  · obtain rfl := Option.some.inj ((hrelay r hr).symm.trans hplace)
    exact ⟨hhouse, hdevice⟩

theorem toList_levels (house device : String) (kind : TopicKind) :
    (levels house device kind).toList = Commissioning.topic house device ++ kind.value.toList := by
  have hroot : topicRoot.toList ++ "/".toList = "kzhome/v1/".toList := by decide +kernel
  simp only [levels, String.toList_append]
  rw [hroot]
  rfl

theorem relay_grants (house device : String) :
    relayGrants house device = (relayRights house device).map Right.grant := by
  simp only [relayGrants, relayRights, List.map_cons, List.map_nil, Right.grant, Right.filter,
    Option.getD_some, toList_levels, TopicKind.value]

/-- **What the file grants** is what the base grants, and the rights of the relay. -/
theorem granted_rights {base : List Char} {rs : List Right}
    (hbase : (readAcl base).grants = rs.map Right.grant)
    (h : renderAcl base house device = .ok granted) :
    (readAcl granted).grants = (rs ++ relayRights house device).map Right.grant := by
  obtain ⟨haccepted, rfl⟩ := renderAcl_ok h
  rw [haccepted.grants, hbase, relay_grants, List.map_append]

/-- **What a client may do** on a topic, by the rights of the file. -/
theorem may_iff {acl : List Char} {rs : List Right} (hm : Matching matching)
    (hacl : (readAcl acl).grants = rs.map Right.grant) (hvalid : ∀ r ∈ rs, r.Valid)
    (hbuild : buildTopic p.houseId p.deviceId p.kind = .ok topic) :
    May matching acl user access topic ↔
      ∃ r ∈ rs, r.user = user ∧ r.access = access ∧ r.allows p := by
  have hmatch : ∀ r ∈ rs, matching r.filter topic = true ↔ r.allows p := fun r hr =>
    ⟨fun h => ((hvalid r hr).covers_iff hbuild).mp (hm.sound _ _ (hvalid r hr).levelled h),
      fun h => hm.complete _ _ (hvalid r hr).levelled (plain_topic hbuild)
        (((hvalid r hr).covers_iff hbuild).mpr h)⟩
  rw [May, hacl]
  constructor
  · rintro ⟨g, hg, huser, haccess, hcovers⟩
    obtain ⟨r, hr, rfl⟩ := List.mem_map.mp hg
    rw [Right.grant, String.ofList_toList] at hcovers
    exact ⟨r, hr, Option.some.inj huser, haccess, (hmatch r hr).mp hcovers⟩
  · rintro ⟨r, hr, rfl, rfl, hallows⟩
    refine ⟨r.grant, List.mem_map_of_mem hr, rfl, rfl, ?_⟩
    rw [Right.grant, String.ofList_toList]
    exact (hmatch r hr).mpr hallows

/-- A topic that a client of one device may use is one of that device. -/
theorem topic_of_may {acl : List Char} {rs : List Right} (hm : Matching matching)
    (hacl : (readAcl acl).grants = rs.map Right.grant) (hvalid : ∀ r ∈ rs, r.Valid)
    (hplace : ∀ r ∈ rs, r.user = user → r.place.isSome = true)
    (hmay : May matching acl user access topic) : ∃ p, parseTopic topic = .ok p := by
  obtain ⟨g, hg, huser, -, hcovers⟩ := hmay
  rw [hacl] at hg
  obtain ⟨r, hr, rfl⟩ := List.mem_map.mp hg
  obtain ⟨⟨house, device⟩, hsome⟩ :=
    Option.isSome_iff_exists.mp (hplace r hr (Option.some.inj huser))
  have hids := hvalid r hr _ hsome
  rw [Right.grant, String.ofList_toList] at hcovers
  have hplain : "+" ∉ split '/' r.filter := by
    have hkind : "+" ∉ split '/' r.kind.value := by cases r.kind <;> decide
    rw [(hvalid r hr).split_filter, hsome]
    simp [(ne_plus hids.1).symm, (ne_plus hids.2).symm, hkind]
  obtain rfl := (covers_plain hplain).mp (hm.sound _ _ (hvalid r hr).levelled hcovers)
  refine ⟨⟨house, device, r.kind⟩, parse_build (buildTopic_ok.mpr ⟨hids.1, hids.2, ?_⟩)⟩
  rw [Right.filter, hsome]
  rfl

end

/-! ### Commands, reports and the rest -/

/-- The kinds that Core commands a device by. -/
def commanding : List TopicKind := [.set, .controlCommand, .controlReply]

/-- The kinds that a device reports by. -/
def reporting : List TopicKind := [.state, .ack, .status]

/-- `inbound` of `subscription_topics` -/
def inbound : List TopicKind := [.state, .ack, .telemetry, .status, .controlRequest]

/-- The client that reports for a device. -/
def Owner (house device : String) (user : List Char) (p : ParsedTopic) : Prop :=
  user = username device ∧ (p.houseId, p.deviceId) = (house, device) ∨
    user = relaySimulator ∧ (p.houseId, p.deviceId) = ("e2e_house", "e2e_relay") ∨
    user = motionSimulator ∧ (p.houseId, p.deviceId) = ("e2e_house", "e2e_motion")

/-- Who may do what: `granted` is the file, with the relay `device` of `house`. -/
structure Separate (matching : String → String → Bool) (granted : List Char)
    (house device : String) : Prop where
  /-- Commands come from Core. -/
  commands : ∀ user topic p, parseTopic topic = .ok p → p.kind ∈ commanding →
    (May matching granted user .write topic ↔ user = coreUser)
  /-- The reports of a device come from its own client. -/
  reports : ∀ user topic p, parseTopic topic = .ok p → p.kind ∈ reporting →
    May matching granted user .write topic → Owner house device user p
  /-- Nobody sends telemetry or asks for permits. -/
  silent : ∀ user topic p, parseTopic topic = .ok p → p.kind = .telemetry ∨ p.kind = .controlRequest →
    ¬ May matching granted user .write topic
  /-- Of the topics of devices, Core reads those that it subscribes to. -/
  hears : ∀ topic p, parseTopic topic = .ok p →
    (May matching granted coreUser .read topic ↔ p.kind ∈ inbound)
  /-- The relay reads its commands and sends its reports, and nothing else. -/
  relay : ∀ access topic, May matching granted (username device) access topic ↔
    ∃ p, parseTopic topic = .ok p ∧ (p.houseId, p.deviceId) = (house, device) ∧
      (access = .read ∧ p.kind = .set ∨ access = .write ∧ p.kind ∈ reporting)
  /-- Nobody but Core uses a topic that is none of a device. -/
  stray : ∀ user access topic, user ≠ coreUser → May matching granted user access topic →
    ∃ p, parseTopic topic = .ok p

section

variable {house device : String} {r : Right} {p : ParsedTopic}

/-- No user of the shipped file is that of a granted relay. -/
theorem ne_username (device : String) :
    coreUser ≠ username device ∧ relaySimulator ≠ username device ∧
      motionSimulator ≠ username device := by
  have hname : (username device).take 3 = "kzd".toList := rfl
  refine ⟨fun h => ?_, fun h => ?_, fun h => ?_⟩
  · exact absurd ((congrArg (List.take 3) h).trans hname) (by decide)
  · exact absurd ((congrArg (List.take 3) h).trans hname) (by decide)
  · exact absurd ((congrArg (List.take 3) h).trans hname) (by decide)

theorem core_rights : ∀ r ∈ coreRights, r.user = coreUser ∧ r.place = none ∧
    (r.access = .write ∧ r.kind ∈ commanding ∨ r.access = .read ∧ r.kind ∈ inbound) := by
  simp [coreRights, commanding, inbound]

/-- What a client of one device may do. -/
structure Right.Own (house device : String) (r : Right) : Prop where
  user : r.user ≠ coreUser
  place : r.place.isSome = true
  owner : ∀ p, r.allows p → Owner house device r.user p
  access : r.access = .read ∧ r.kind = .set ∨ r.access = .write ∧ r.kind ∈ reporting

theorem own_rights (house device : String) :
    ∀ r ∈ simulatorRights ++ relayRights house device, r.Own house device := by
  have hcore := (ne_username device).1.symm
  have hdistinct : relaySimulator ≠ coreUser ∧ motionSimulator ≠ coreUser := by decide
  have hone : ∀ {user : List Char} {place : String × String} {access : Access} {kind : TopicKind},
      user ≠ coreUser →
      (∀ p : ParsedTopic, place = (p.houseId, p.deviceId) → Owner house device user p) →
      (access = .read ∧ kind = .set ∨ access = .write ∧ kind ∈ reporting) →
      (Right.mk user access (some place) kind).Own house device :=
    fun huser howner haccess => ⟨huser, rfl, fun p h => howner p (h.2 _ rfl), haccess⟩
  have hrelay : ∀ p : ParsedTopic, ("e2e_house", "e2e_relay") = (p.houseId, p.deviceId) →
      Owner house device relaySimulator p := fun p h => .inr (.inl ⟨rfl, h.symm⟩)
  have hmotion : ∀ p : ParsedTopic, ("e2e_house", "e2e_motion") = (p.houseId, p.deviceId) →
      Owner house device motionSimulator p := fun p h => .inr (.inr ⟨rfl, h.symm⟩)
  have hown : ∀ p : ParsedTopic, (house, device) = (p.houseId, p.deviceId) →
      Owner house device (username device) p := fun p h => .inl ⟨rfl, h.symm⟩
  simp only [simulatorRights, relayRights, List.map_cons, List.map_nil, List.cons_append,
    List.nil_append, List.forall_mem_cons]
  exact ⟨hone hdistinct.1 hrelay (.inl ⟨rfl, rfl⟩), hone hdistinct.1 hrelay (.inr ⟨rfl, by decide⟩),
    hone hdistinct.1 hrelay (.inr ⟨rfl, by decide⟩), hone hdistinct.1 hrelay (.inr ⟨rfl, by decide⟩),
    hone hdistinct.2 hmotion (.inr ⟨rfl, by decide⟩),
    hone hdistinct.2 hmotion (.inr ⟨rfl, by decide⟩), hone hcore hown (.inl ⟨rfl, rfl⟩),
    hone hcore hown (.inr ⟨rfl, by decide⟩), hone hcore hown (.inr ⟨rfl, by decide⟩),
    hone hcore hown (.inr ⟨rfl, by decide⟩), List.forall_mem_nil _⟩

/-- A base list on which `render_acl` refuses no relay. -/
structure Open (base : List Char) : Prop where
  checked : ((splitlines base).foldlM Checker.line {}).toOption.isSome = true
  unmarked : ¬ marker <:+: base
  users : ∀ line ∈ splitlines base, (strip isSpace line).take 8 ≠ "user kzd".toList

instance (base : List Char) : Decidable (Open base) :=
  decidable_of_iff (_ ∧ _ ∧ _) ⟨fun h => ⟨h.1, h.2.1, h.2.2⟩, fun h => ⟨h.1, h.2, h.3⟩⟩

theorem Open.renders {base : List Char} (h : Open base) {house device : String}
    (hhouse : topicId house = true) (hdevice : topicId device = true) :
    renderAcl base house device = .ok (rendered base house device) := by
  have hidentity : identity house device = .ok (username device) := by
    rw [identity, hhouse, hdevice]
    rfl
  have hconflict : ¬ (marker <:+: base ∨ ∃ line ∈ splitlines base,
      strip isSpace line = "user ".toList ++ username device) := by
    rintro (hmarker | ⟨line, hline, heq⟩)
    · exact h.unmarked hmarker
    · refine h.users line hline ?_
      rw [heq]
      rfl
  rw [renderAcl, hidentity]
  cases hfold : (splitlines base).foldlM Checker.line {} with
  | error e =>
      have hchecked := h.checked
      rw [hfold] at hchecked
      cases hchecked
  | ok checker =>
      show (if _ then _ else _) = _
      rw [if_neg hconflict]
      rfl

theorem shipped_open : Open shippedAcl := by decide +kernel

theorem disjoint_kinds {kind : TopicKind} (h : kind ∈ commanding) :
    kind ∉ reporting ∧ kind ∉ inbound := by
  revert h
  cases kind <;> decide

theorem separate_of_granted {matching : String → String → Bool} (hm : Matching matching)
    {granted : List Char} (h : renderAcl shippedAcl house device = .ok granted) :
    Separate matching granted house device := by
  have hids := renderAcl_ok h
  have hhouse := valid_of_topicId hids.1.houseId
  have hdevice := valid_of_topicId hids.1.deviceId
  have hvalid : ∀ r ∈ rights house device, r.Valid := rights_valid hhouse hdevice
  have hacl : (readAcl granted).grants = (rights house device).map Right.grant :=
    granted_rights shipped_grants h
  have hmay : ∀ {user access topic p}, parseTopic topic = .ok p →
      (May matching granted user access topic ↔
        ∃ r ∈ rights house device, r.user = user ∧ r.access = access ∧ r.allows p) :=
    fun hparse => may_iff hm hacl hvalid (build_parse hparse)
  have hcases : ∀ r ∈ rights house device, r ∈ coreRights ∨ r.Own house device := by
    intro r hr
    rw [rights, List.append_assoc] at hr
    exact (List.mem_append.mp hr).imp_right (own_rights house device r)
  have hcore : ∀ r ∈ coreRights, r ∈ rights house device := fun r hr => by
    rw [rights, List.append_assoc]
    exact List.mem_append_left _ hr
  refine ⟨?commands, ?reports, ?silent, ?hears, ?relay, ?stray⟩
  case commands =>
    intro user topic p hparse hkind
    rw [hmay hparse]
    constructor
    · rintro ⟨r, hr, rfl, haccess, hallows⟩
      rcases hcases r hr with hr | hown
      · exact (core_rights r hr).1
      · rcases hown.access with ⟨hread, -⟩ | ⟨-, hreport⟩
        · rw [haccess] at hread
          cases hread
        · exact absurd (hallows.1 ▸ hreport) (disjoint_kinds hkind).1
    · rintro rfl
      refine ⟨⟨coreUser, .write, none, p.kind⟩, hcore _ ?_, rfl, rfl, rfl, fun _ h => by cases h⟩
      revert hkind
      cases p.kind <;> simp [commanding, coreRights]
  case reports =>
    intro user topic p hparse hkind h
    obtain ⟨r, hr, rfl, haccess, hallows⟩ := (hmay hparse).mp h
    rcases hcases r hr with hr | hown
    · rcases (core_rights r hr).2.2 with ⟨-, hcommand⟩ | ⟨hread, -⟩
      · exact absurd hkind (disjoint_kinds (hallows.1 ▸ hcommand)).1
      · rw [haccess] at hread
        cases hread
    · exact hown.owner p hallows
  case silent =>
    intro user topic p hparse hkind h
    obtain ⟨r, hr, rfl, haccess, hallows⟩ := (hmay hparse).mp h
    have hneither : p.kind ∉ commanding ∧ p.kind ∉ reporting := by
      rcases hkind with hkind | hkind
      · rw [hkind]
        decide
      · rw [hkind]
        decide
    rcases hcases r hr with hr | hown
    · rcases (core_rights r hr).2.2 with ⟨-, hcommand⟩ | ⟨hread, -⟩
      · exact hneither.1 (hallows.1 ▸ hcommand)
      · rw [haccess] at hread
        cases hread
    · rcases hown.access with ⟨hread, -⟩ | ⟨-, hreport⟩
      · rw [haccess] at hread
        cases hread
      · exact hneither.2 (hallows.1 ▸ hreport)
  case hears =>
    intro topic p hparse
    rw [hmay hparse]
    constructor
    · rintro ⟨r, hr, huser, haccess, hallows⟩
      rcases hcases r hr with hr | hown
      · rcases (core_rights r hr).2.2 with ⟨hwrite, -⟩ | ⟨-, hinbound⟩
        · rw [haccess] at hwrite
          cases hwrite
        · exact hallows.1 ▸ hinbound
      · exact absurd huser hown.user
    · intro hkind
      refine ⟨⟨coreUser, .read, none, p.kind⟩, hcore _ ?_, rfl, rfl, rfl, fun _ h => by cases h⟩
      revert hkind
      cases p.kind <;> simp [inbound, coreRights]
  case relay =>
    intro access topic
    have hplace : ∀ r ∈ rights house device, r.user = username device → r.Own house device := by
      intro r hr huser
      refine (hcases r hr).resolve_left fun hcore => ?_
      exact (ne_username device).1 ((core_rights r hcore).1.symm.trans huser)
    constructor
    · intro h
      obtain ⟨p, hparse⟩ := topic_of_may hm hacl hvalid (fun r hr hr' => (hplace r hr hr').place) h
      obtain ⟨r, hr, huser, rfl, hallows⟩ := (hmay hparse).mp h
      have hown := hplace r hr huser
      refine ⟨p, hparse, ?_, hallows.1 ▸ hown.access⟩
      rcases hown.owner p hallows with ⟨-, hdevice⟩ | ⟨hsimulator, -⟩ | ⟨hsimulator, -⟩
      · exact hdevice
      · exact absurd (hsimulator.symm.trans huser) (ne_username device).2.1
      · exact absurd (hsimulator.symm.trans huser) (ne_username device).2.2
    · rintro ⟨p, hparse, hdevice, haccess⟩
      refine (hmay hparse).mpr ⟨⟨username device, access, some (house, device), p.kind⟩, ?_, rfl, rfl,
        rfl, fun place hplace => ?_⟩
      · refine List.mem_append_right _ ?_
        rcases haccess with ⟨rfl, hkind⟩ | ⟨rfl, hkind⟩
        · rw [hkind]
          exact List.mem_cons_self
        · refine List.mem_cons_of_mem _ (List.mem_map.mpr ⟨p.kind, ?_, rfl⟩)
          revert hkind
          cases p.kind <;> decide
      · obtain rfl := Option.some.inj hplace
        exact hdevice.symm
  case stray =>
    intro user access topic huser h
    refine topic_of_may hm hacl hvalid (fun r hr hr' => ?_) h
    rcases hcases r hr with hr | hown
    · exact absurd (hr'.symm.trans (core_rights r hr).1) huser
    · exact hown.place

/-- **Commands come from Core, and the reports of a device from its own client.** With the shipped
access list any one relay can be granted. Whatever the broker makes of the filters that are left
open: nobody else can publish on these topics, nobody at all can publish telemetry or a control
request, and Core hears what it subscribes to. -/
theorem topics_are_separate {matching : String → String → Bool} (hm : Matching matching)
    (hhouse : topicId house = true) (hdevice : topicId device = true) :
    ∃ granted, renderAcl shippedAcl house device = .ok granted ∧
      Separate matching granted house device := by
  have hgranted := shipped_open.renders hhouse hdevice
  exact ⟨_, hgranted, separate_of_granted hm hgranted⟩

/-- The lamp of a house may report for itself, and not for the blind. -/
theorem topics_are_separate_lamp :
    ∃ granted, renderAcl shippedAcl "home" "lamp" = .ok granted ∧
      May byLevels granted (username "lamp") .write "kzhome/v1/home/lamp/state" ∧
      ¬ May byLevels granted (username "lamp") .write "kzhome/v1/home/blind/state" ∧
      ∀ user, ¬ May byLevels granted user .write "kzhome/v1/home/lamp/telemetry" := by
  obtain ⟨granted, hgranted, h⟩ : ∃ granted, renderAcl shippedAcl "home" "lamp" = .ok granted ∧
      Separate byLevels granted "home" "lamp" :=
    topics_are_separate byLevels_matching (by decide) (by decide)
  have hlamp : parseTopic "kzhome/v1/home/lamp/state" = .ok ⟨"home", "lamp", .state⟩ := by
    decide +kernel
  have hblind : parseTopic "kzhome/v1/home/blind/state" = .ok ⟨"home", "blind", .state⟩ := by
    decide +kernel
  have htelemetry : parseTopic "kzhome/v1/home/lamp/telemetry" =
      .ok ⟨"home", "lamp", .telemetry⟩ := by
    decide +kernel
  refine ⟨granted, hgranted, (h.relay _ _).mpr ⟨_, hlamp, rfl, .inr ⟨rfl, by decide⟩⟩, ?_,
    fun user => h.silent user _ _ htelemetry (.inl rfl)⟩
  intro hmay
  obtain ⟨p, hparse, hplace, -⟩ := (h.relay _ _).mp hmay
  obtain rfl := Except.ok.inj (hblind.symm.trans hparse)
  exact absurd hplace (by decide)

end

end KzHome.Broker

import KzHome.Lib.PyLines
import KzHome.ProvisioningState
import Mathlib

/-!
# KzHome.Commissioning

The broker's ACL file of one physical relay: `deploy/commission_device.py`.

`renderAcl` checks a base by the lines of `splitlines`, and a user by its very characters.
The broker reads the file by newlines, and takes the white space around a user away.

* An accepted base has a section for the relay's user if and only if one of its lines has more
  than one blank before that name.
* A carriage return inside the base does not survive: the file that is written with it is read
  back with a newline in its place, and is then the work of somebody else.
* **Where neither is the case, what is granted is exactly the relay's own four topics, and the
  file is only ever absent, the baseline or the granted text** (`rendering_lawful_iff`).
-/

namespace KzHome.Commissioning

open PyText (isSpace isBreak strip rstrip splitlines universal)

/-! ### `render_acl` -/

/-- `MARKER` -/
def marker : List Char := "# Operator-managed physical relay (commission_device.py)".toList

def username (device : String) : List Char := "kzdevice-".toList ++ device.toList

/-- `identity` -/
def identity (house device : String) : Except String (List Char) :=
  if topicId house && topicId device then .ok (username device)
  else .error "Use the canonical topic-safe Core IDs"

/-- `current_user` and `users` in the loop over the base. -/
structure Checker where
  current : Option (List Char) := none
  users : List (List Char) := []

def Checker.line (s : Checker) (line : List Char) : Except String Checker :=
  let directive := strip isSpace line
  if directive = [] ∨ "#".toList.isPrefixOf directive then .ok s
  else if "user ".toList.isPrefixOf directive then
    let user := directive.drop 5
    if user = [] ∨ user ∈ s.users then .error "Duplicate/empty base ACL user"
    else .ok { current := some user, users := user :: s.users }
  else if s.current = none ∨ ¬ ("topic read ".toList.isPrefixOf directive ∨
      "topic write ".toList.isPrefixOf directive) then
    -- global and pattern permissions could silently apply to every device
    .error "Only explicit per-user base ACL directives are supported"
  else .ok s

def topic (house device : String) : List Char :=
  "kzhome/v1/".toList ++ house.toList ++ "/".toList ++ device.toList ++ "/".toList

/-- What `render_acl` returns for a base that it accepts. -/
def rendered (base : List Char) (house device : String) : List Char :=
  rstrip isSpace base ++ "\n\n".toList ++ marker ++ "\nuser ".toList ++ username device ++
    "\n".toList ++ "topic read ".toList ++ topic house device ++ "set\n".toList ++
    (["ack", "state", "status"].flatMap fun kind =>
      "topic write ".toList ++ topic house device ++ kind.toList ++ "\n".toList)

/-- `render_acl` -/
def renderAcl (base : List Char) (house device : String) : Except String (List Char) := do
  let username ← identity house device
  let _ ← (splitlines base).foldlM Checker.line {}
  if marker <:+: base ∨
      ∃ line ∈ splitlines base, strip isSpace line = "user ".toList ++ username then
    throw "Base ACL conflicts with the physical identity"
  return rendered base house device

/-! ### `prepare_acl` -/

/-- What there is at the path. -/
inductive File
  | absent
  | text (raw : List Char)
  | unreadable
  deriving DecidableEq

structure Site where
  /-- `path` or its directory is a symbolic link. -/
  link : Bool := false
  file : File
  /-- How often a file was put in place. -/
  writes : Nat := 0
  deriving DecidableEq

/-- `action`, which is a text. -/
inductive AclAction
  | grant
  | check
  | revoke
  | unknown
  deriving DecidableEq

inductive Fault
  | value (message : String)
  | system
  deriving DecidableEq

/-- `current`, the text that `read_text` returns. -/
def Site.current (site : Site) : Except Fault (Option (List Char)) :=
  if site.link then .error (.value "ACL symlinks are not supported")
  else match site.file with
    | .absent => .ok none
    | .text raw => .ok (some (universal raw))
    | .unreadable => .error .system

/-- `os.replace` of the path by a file with that text. -/
def Site.replace (site : Site) (text : List Char) : Site :=
  { site with file := .text text, writes := site.writes + 1 }

def baseline (base : List Char) : List Char := rstrip isSpace base ++ "\n".toList

/-- `prepare_acl` up to the text that is to be written, if any. -/
def plan (base : List Char) (house device : String) (action : AclAction) (site : Site) :
    Except Fault (Option (List Char)) :=
  if action = .unknown then .error (.value "Unknown ACL action")
  else match renderAcl base house device, site.current with
    | .error message, _ => .error (.value message)
    | .ok _, .error e => .error e
    | .ok granted, .ok current =>
      if current ≠ none ∧ ¬ (current = some (baseline base) ∨ current = some granted) then
        .error (.value "Local ACL conflicts; review it without overwriting")
      else
        let desired := if action = .grant ∨ action = .check then granted else baseline base
        if action = .check then
          if current ≠ some desired then
            .error (.value "Local ACL does not match the intended binding")
          else .ok none
        else if current = some desired then .ok none
        else .ok (some desired)

/-- `prepare_acl`; `fails` is whether the system refuses to write. The text goes to a temporary
file first, which is removed then. -/
def prepareAcl (base : List Char) (house device : String) (action : AclAction) (fails : Bool)
    (site : Site) : Except Fault Unit × Site :=
  match plan base house device action site with
  | .error e => (.error e, site)
  | .ok none => (.ok (), site)
  | .ok (some desired) =>
    if fails then (.error .system, site) else (.ok (), site.replace desired)

/-- The site after some actions, each with whether the system refuses to write. -/
def run (base : List Char) (house device : String) (site : Site)
    (actions : List (AclAction × Bool)) : Site :=
  actions.foldl (fun site a => (prepareAcl base house device a.1 a.2 site).2) site

/-! ### The reader of the file -/

inductive Access
  | read
  | write
  deriving DecidableEq

structure Grant where
  user : Option (List Char)
  access : Access
  topic : List Char
  deriving DecidableEq

structure Reader where
  current : Option (List Char) := none
  sections : List (List Char) := []
  grants : List Grant := []

def Reader.line (r : Reader) (line : List Char) : Reader :=
  let directive := strip isSpace line
  if directive = [] ∨ "#".toList.isPrefixOf directive then r
  else if "user ".toList.isPrefixOf directive then
    let user := strip isSpace (directive.drop 5)
    { r with current := some user, sections := r.sections ++ [user] }
  else if "topic read ".toList.isPrefixOf directive then
    { r with grants := r.grants ++ [⟨r.current, .read, strip isSpace (directive.drop 11)⟩] }
  else if "topic write ".toList.isPrefixOf directive then
    { r with grants := r.grants ++ [⟨r.current, .write, strip isSpace (directive.drop 12)⟩] }
  else r

def readAcl (text : List Char) : Reader := (text.splitOn '\n').foldl Reader.line {}

/-- The topics of one relay. -/
def relayGrants (house device : String) : List Grant :=
  ⟨some (username device), .read, topic house device ++ "set".toList⟩ ::
    ["ack", "state", "status"].map fun kind =>
      ⟨some (username device), .write, topic house device ++ kind.toList⟩

/-- No file, or one that says the baseline or the granted text. -/
def Owned (base granted : List Char) (site : Site) : Prop :=
  site.current = .ok none ∨ site.current = .ok (some (baseline base)) ∨
    site.current = .ok (some granted)

/-- What an operator may rely on. -/
structure Lawful (base : List Char) (house device : String) (granted : List Char) : Prop where
  grants : (readAcl granted).grants = (readAcl base).grants ++ relayGrants house device
  fresh : username device ∉ (readAcl base).sections
  becomes : ∀ site actions, Owned base granted site →
    run base house device site actions = site ∨
    (run base house device site actions).current = .ok (some (baseline base)) ∨
    (run base house device site actions).current = .ok (some granted)
  foreign : ∀ site actions, ¬ Owned base granted site →
    run base house device site actions = site
  idempotent : ∀ action, action = .grant ∨ action = .revoke → ∀ fails fails' site site',
    prepareAcl base house device action fails site = (.ok (), site') →
    prepareAcl base house device action fails' site' = (.ok (), site')
  revoked : ∀ fails site site', prepareAcl base house device .grant fails site = (.ok (), site') →
    ∃ site'', prepareAcl base house device .revoke false site' = (.ok (), site'') ∧
      site''.current = .ok (some (baseline base))
  checked : ∀ fails site, (prepareAcl base house device .check fails site).2 = site ∧
    ((prepareAcl base house device .check fails site).1 = .ok () ↔
      site.current = .ok (some granted))

/-- A line that opens the relay's section with more than one blank before the name. -/
def Spaced (device : String) (line : List Char) : Prop :=
  ∃ ws, ws ≠ [] ∧ (∀ c ∈ ws, isSpace c = true) ∧
    strip isSpace line = "user ".toList ++ (ws ++ username device)

/-! ### Identifiers -/

theorem alphanumeric_plain {c : Char} (h : alphanumeric c = true) : isSpace c = false := by
  have hval : c.val.toNat = c.toNat := rfl
  simp only [alphanumeric, Bool.or_eq_true, Bool.and_eq_true, decide_eq_true_eq, Char.le_def,
    UInt32.le_iff_toNat_le, hval] at h
  change (97 ≤ c.toNat ∧ c.toNat ≤ 122 ∨ 65 ≤ c.toNat ∧ c.toNat ≤ 90) ∨
    48 ≤ c.toNat ∧ c.toNat ≤ 57 at h
  simp only [isSpace, Bool.or_eq_false_iff, Bool.and_eq_false_iff, decide_eq_false_iff_not]
  omega

/-- No white space stands in an identifier. -/
theorem topicId_plain {s : String} (h : topicId s = true) : ∀ c ∈ s.toList, isSpace c = false := by
  have hplain : ∀ c, (alphanumeric c || ['_', '.', '-'].contains c) = true →
      isSpace c = false := by
    intro c hc
    rw [Bool.or_eq_true] at hc
    rcases hc with hc | hc
    · exact alphanumeric_plain hc
    · simp only [List.contains_cons, List.contains_nil, Bool.or_false, Bool.or_eq_true,
        beq_iff_eq] at hc
      rcases hc with rfl | rfl | rfl
      · decide
      · decide
      · decide
  unfold topicId at h
  cases hs : s.toList with
  | nil => exact fun c hc => nomatch hc
  | cons first rest =>
      rw [hs] at h
      simp only [Bool.and_eq_true, List.all_eq_true] at h
      obtain ⟨⟨hfirst, -⟩, hrest⟩ := h
      intro c hc
      rcases List.mem_cons.mp hc with rfl | hc
      · exact alphanumeric_plain hfirst
      · exact hplain c (hrest c hc)

/-- A fixed text is gone through character by character. -/
theorem none_of_all {p : Char → Bool} {word : List Char} (h : word.all (fun c => !p c) = true) :
    ∀ c ∈ word, p c = false := by
  intro c hc
  simpa using List.all_eq_true.mp h c hc

theorem head_of_all {p : Char → Bool} {word : List Char}
    (h : (word.head?.all fun c => !p c) = true) : ∀ c ∈ word.head?, p c = false := by
  intro c hc
  rw [Option.mem_def.mp hc] at h
  simpa using h

/-- What stands in a name that the program makes of identifiers. -/
theorem plain_append {a b : List Char} (ha : ∀ c ∈ a, isSpace c = false)
    (hb : ∀ c ∈ b, isSpace c = false) : ∀ c ∈ a ++ b, isSpace c = false := by
  intro c hc
  rcases List.mem_append.mp hc with hc | hc
  · exact ha c hc
  · exact hb c hc

theorem username_plain {device : String} (h : topicId device = true) :
    ∀ c ∈ username device, isSpace c = false :=
  plain_append (none_of_all (by decide)) (topicId_plain h)

theorem topic_plain {house device : String} (hh : topicId house = true)
    (hd : topicId device = true) : ∀ c ∈ topic house device, isSpace c = false :=
  plain_append (plain_append (plain_append (plain_append (none_of_all (by decide))
    (topicId_plain hh)) (none_of_all (by decide))) (topicId_plain hd)) (none_of_all (by decide))

/-- A line of the file that `render_acl` writes: a keyword, and a name without white space. -/
theorem trimmed_append {word name : List Char} (hword : ∀ c ∈ word.head?, isSpace c = false)
    (hne : name ≠ []) (hname : ∀ c ∈ name, isSpace c = false) :
    PyText.Trimmed isSpace (word ++ name) := by
  constructor
  · intro c hc
    rw [Option.mem_def, List.head?_append] at hc
    cases hhead : word.head? with
    | none =>
        rw [hhead, Option.none_or] at hc
        exact hname c (List.mem_of_head? hc)
    | some d =>
        rw [hhead] at hc
        exact hword c (hhead.trans hc)
  · intro c hc
    rw [Option.mem_def, List.getLast?_append_of_ne_nil word hne] at hc
    exact hname c (List.mem_of_getLast? hc)

/-! ### What is accepted -/

section
variable {base : List Char} {house device : String} {granted : List Char}

/-- What `render_acl` has seen to when it returns. -/
structure Accepted (base : List Char) (house device : String) : Prop where
  houseId : topicId house = true
  deviceId : topicId device = true
  fresh : ∀ line ∈ splitlines base, strip isSpace line ≠ "user ".toList ++ username device

theorem renderAcl_ok (h : renderAcl base house device = .ok granted) :
    Accepted base house device ∧ granted = rendered base house device := by
  unfold renderAcl identity at h
  cases hids : topicId house && topicId device with
  | false =>
      rw [hids] at h
      cases h
  | true =>
      rw [hids] at h
      rw [Bool.and_eq_true] at hids
      cases hloop : (splitlines base).foldlM Checker.line {} with
      | error e =>
          rw [hloop] at h
          cases h
      | ok s =>
          rw [hloop] at h
          simp only [if_true, bind, Except.bind] at h
          split at h
          · cases h
          · rename_i hconflict
            rw [not_or, not_exists] at hconflict
            refine ⟨⟨hids.1, hids.2, fun line hline heq => ?_⟩, (Except.ok.inj h).symm⟩
            exact hconflict.2 line ⟨hline, heq⟩

/-- The broker finds no section that is written as the program writes it. -/
theorem Accepted.absent (h : Accepted base house device) :
    ∀ line ∈ base.splitOn '\n', strip isSpace line ≠ "user ".toList ++ username device := by
  intro line hline heq
  have hne : strip isSpace line ≠ [] := by
    rw [heq]
    exact List.cons_ne_nil _ _
  have hbreak : ∀ c ∈ strip isSpace line, isBreak c = false := by
    have hword : ∀ c ∈ "user ".toList, isBreak c = false := none_of_all (by decide)
    rw [heq]
    intro c hc
    rcases List.mem_append.mp hc with hc | hc
    · exact hword c hc
    · have hplain := username_plain h.deviceId c hc
      cases hb : isBreak c with
      | false => rfl
      | true => rw [PyText.isSpace_of_isBreak hb] at hplain; cases hplain
  obtain ⟨other, hother, hsame⟩ := PyText.strip_mem_splitlines hline hne hbreak
  exact h.fresh other hother (hsame.trans heq)

end

/-! ### What the broker reads -/

namespace Reader

/-- Only what is left of a line counts. -/
theorem line_congr {a b : List Char} (h : strip isSpace a = strip isSpace b) (r : Reader) :
    r.line a = r.line b := by
  simp only [line, h]

theorem line_nil (r : Reader) : r.line [] = r := rfl

theorem line_marker (r : Reader) : r.line marker = r := by
  have hcomment : "#".toList.isPrefixOf (strip isSpace marker) = true := by decide
  rw [line, if_pos (.inr hcomment)]

theorem line_user {text rest : List Char} (h : strip isSpace text = "user ".toList ++ rest)
    (r : Reader) : r.line text =
      { r with current := some (strip isSpace rest),
               sections := r.sections ++ [strip isSpace rest] } := by
  simp only [line, h]
  rfl

theorem line_read {text rest : List Char} (h : strip isSpace text = "topic read ".toList ++ rest)
    (r : Reader) : r.line text =
      { r with grants := r.grants ++ [⟨r.current, .read, strip isSpace rest⟩] } := by
  simp only [line, h]
  rfl

theorem line_write {text rest : List Char}
    (h : strip isSpace text = "topic write ".toList ++ rest) (r : Reader) : r.line text =
      { r with grants := r.grants ++ [⟨r.current, .write, strip isSpace rest⟩] } := by
  simp only [line, h]
  rfl

/-- A line opens a section of `user`. -/
def Opens (user line : List Char) : Prop :=
  ∃ rest, strip isSpace line = "user ".toList ++ rest ∧ strip isSpace rest = user

theorem line_sections (r : Reader) (text user : List Char) :
    user ∈ (r.line text).sections ↔ user ∈ r.sections ∨ Opens user text := by
  by_cases huser : "user ".toList.isPrefixOf (strip isSpace text) = true
  · obtain ⟨rest, hrest⟩ := List.isPrefixOf_iff_prefix.mp huser
    rw [line_user hrest.symm, List.mem_append, List.mem_singleton]
    constructor
    · rintro (hold | rfl)
      · exact .inl hold
      · exact .inr ⟨rest, hrest.symm, rfl⟩
    · rintro (hold | ⟨rest', hrest', hstrip⟩)
      · exact .inl hold
      · rw [← hrest, List.append_cancel_left_eq] at hrest'
        exact .inr (by rw [hrest', hstrip])
  · have hsame : (r.line text).sections = r.sections := by
      simp only [line, if_neg huser]
      split
      · rfl
      · split
        · rfl
        · split
          · rfl
          · rfl
    rw [hsame]
    constructor
    · exact .inl
    · rintro (hold | ⟨rest, hrest, -⟩)
      · exact hold
      · exact absurd (List.isPrefixOf_iff_prefix.mpr ⟨rest, hrest.symm⟩) huser

theorem foldl_sections (lines : List (List Char)) (r : Reader) (user : List Char) :
    user ∈ (lines.foldl line r).sections ↔
      user ∈ r.sections ∨ ∃ text ∈ lines, Opens user text := by
  induction lines generalizing r with
  | nil => simp
  | cons text lines ih =>
      rw [List.foldl_cons, ih, line_sections]
      simp only [List.mem_cons, exists_eq_or_imp, or_assoc]

end Reader

theorem mem_sections (user text : List Char) :
    user ∈ (readAcl text).sections ↔ ∃ line ∈ text.splitOn '\n', Reader.Opens user line := by
  rw [readAcl, Reader.foldl_sections]
  simp

theorem readAcl_append (text rest : List Char) :
    readAcl (text ++ '\n' :: rest) = (rest.splitOn '\n').foldl Reader.line (readAcl text) := by
  rw [readAcl, List.splitOn_append_cons_self, List.foldl_append, readAcl]

/-- One more character of white space says nothing. -/
theorem readAcl_snoc {c : Char} (hc : isSpace c = true) (text : List Char) :
    readAcl (text ++ [c]) = readAcl text := by
  by_cases hlf : c = '\n'
  · subst hlf
    exact readAcl_append text []
  · obtain ⟨lines, line, htext, hmore⟩ := PyText.splitOn_snoc hlf text
    rw [readAcl, readAcl, htext, hmore, List.foldl_append, List.foldl_append, List.foldl_cons,
      List.foldl_cons, Reader.line_congr (PyText.strip_snoc hc line)]

theorem readAcl_space {ws : List Char} (hws : ∀ c ∈ ws, isSpace c = true) (text : List Char) :
    readAcl (text ++ ws) = readAcl text := by
  induction ws using List.reverseRecOn with
  | nil => rw [List.append_nil]
  | append_singleton ws c ih =>
      rw [← List.append_assoc, readAcl_snoc (hws c (by simp)),
        ih fun d hd => hws d (List.mem_append_left _ hd)]

theorem readAcl_rstrip (base : List Char) : readAcl (rstrip isSpace base) = readAcl base := by
  obtain ⟨⟨ws, hbase, hws⟩, -⟩ := PyText.rstrip_spec isSpace base
  calc readAcl (rstrip isSpace base) = readAcl (rstrip isSpace base ++ ws) :=
        (readAcl_space hws _).symm
    _ = readAcl base := by rw [← hbase]

/-- A name without white space is taken as it is. -/
theorem strip_plain {name : List Char} (h : ∀ c ∈ name, isSpace c = false) :
    strip isSpace name = name := PyText.strip_none h

/-- A keyword and a name: the line is no other one. -/
theorem strip_line {word name : List Char} (hword : ∀ c ∈ word.head?, isSpace c = false)
    (hne : name ≠ []) (hname : ∀ c ∈ name, isSpace c = false) :
    strip isSpace (word ++ name) = word ++ name :=
  PyText.strip_idem (trimmed_append hword hne hname)

section
variable {base : List Char} {house device : String} {granted : List Char}

theorem username_ne (device : String) : username device ≠ [] := List.cons_ne_nil _ _

theorem topic_kind_ne (house device : String) (kind : List Char) :
    topic house device ++ kind ≠ [] := List.cons_ne_nil _ _

/-- No line of the file breaks where `render_acl` writes a name. -/
theorem splitOn_line {word name : List Char} (hword : '\n' ∉ word)
    (hname : ∀ c ∈ name, isSpace c = false) (rest : List Char) :
    (word ++ name ++ '\n' :: rest).splitOn '\n' = (word ++ name) :: rest.splitOn '\n' := by
  have hnot : '\n' ∉ word ++ name := by
    rw [List.mem_append, not_or]
    refine ⟨hword, fun hmem => ?_⟩
    cases hname _ hmem
  rw [List.splitOn_append_cons_self, List.splitOn_eq_singleton hnot, List.singleton_append]

/-- **What is granted is what the base grants, and the relay's own topics.** -/
theorem Accepted.grants (h : Accepted base house device) :
    (readAcl (rendered base house device)).grants =
      (readAcl base).grants ++ relayGrants house device := by
  have huser := username_plain h.deviceId
  have hkind : ∀ kind : String, (∀ c ∈ kind.toList, isSpace c = false) →
      ∀ c ∈ topic house device ++ kind.toList, isSpace c = false := fun kind hkind =>
    plain_append (topic_plain h.houseId h.deviceId) hkind
  have hset := hkind "set" (none_of_all (by decide))
  have hack := hkind "ack" (none_of_all (by decide))
  have hstate := hkind "state" (none_of_all (by decide))
  have hstatus := hkind "status" (none_of_all (by decide))
  have hlines : rendered base house device = rstrip isSpace base ++ '\n' :: ([] ++ '\n' ::
      (marker ++ [] ++ '\n' :: ("user ".toList ++ username device ++ '\n' ::
      ("topic read ".toList ++ (topic house device ++ "set".toList) ++ '\n' ::
      ("topic write ".toList ++ (topic house device ++ "ack".toList) ++ '\n' ::
      ("topic write ".toList ++ (topic house device ++ "state".toList) ++ '\n' ::
      ("topic write ".toList ++ (topic house device ++ "status".toList) ++ '\n' :: []))))))) := by
    simp [rendered]
  rw [hlines, readAcl_append, List.splitOn_append_cons_self,
    splitOn_line (by decide) (by simp), splitOn_line (by decide) huser,
    splitOn_line (by decide) hset, splitOn_line (by decide) hack,
    splitOn_line (by decide) hstate, splitOn_line (by decide) hstatus, readAcl_rstrip]
  simp only [List.splitOn_nil, List.singleton_append, List.foldl_cons, List.foldl_nil]
  rw [Reader.line_user (strip_line (head_of_all (by decide)) (username_ne device) huser),
    Reader.line_read (strip_line (head_of_all (by decide)) (topic_kind_ne house device _) hset),
    Reader.line_write (strip_line (head_of_all (by decide)) (topic_kind_ne house device _) hack),
    Reader.line_write (strip_line (head_of_all (by decide)) (topic_kind_ne house device _) hstate),
    Reader.line_write (strip_line (head_of_all (by decide)) (topic_kind_ne house device _) hstatus)]
  simp only [List.append_nil, Reader.line_nil, Reader.line_marker, strip_plain huser,
    strip_plain hset, strip_plain hack, strip_plain hstate, strip_plain hstatus,
    List.append_assoc, relayGrants, List.map_cons, List.map_nil, List.cons_append, List.nil_append]

/-- A section of the relay's user is written as the program writes it, or with more blanks. -/
theorem opens_username (hdevice : topicId device = true) (line : List Char) :
    Reader.Opens (username device) line ↔
      strip isSpace line = "user ".toList ++ username device ∨ Spaced device line := by
  have huser := username_plain hdevice
  constructor
  · rintro ⟨rest, hline, hrest⟩
    obtain ⟨⟨ws, ws', hpad, hws, hws'⟩, -⟩ := PyText.strip_spec isSpace rest
    rw [hrest] at hpad
    have hnone : ws' = [] := by
      -- a directive has no white space at its end
      cases hlast : ws'.getLast? with
      | none => exact List.getLast?_eq_none_iff.mp hlast
      | some c =>
          have hend : (strip isSpace line).getLast? = some c := by
            rw [hline, hpad, List.getLast?_append, List.getLast?_append, hlast]
            rfl
          have hplain := (PyText.strip_spec isSpace line).2.2 c hend
          rw [hws' c (List.mem_of_getLast? hlast)] at hplain
          cases hplain
    rw [hnone, List.append_nil] at hpad
    cases ws with
    | nil => exact .inl (by rw [hline, hpad, List.nil_append])
    | cons c ws => exact .inr ⟨c :: ws, List.cons_ne_nil c ws, hws, by rw [hline, hpad]⟩
  · rintro (hline | ⟨ws, -, hws, hline⟩)
    · exact ⟨username device, hline, strip_plain huser⟩
    · refine ⟨ws ++ username device, hline, ?_⟩
      have htrim := @trimmed_append [] _ (by simp) (username_ne device) huser
      have hpad := @PyText.strip_pad isSpace ws [] _ hws (by simp) htrim
      simpa using hpad

theorem Accepted.fresh_iff (h : Accepted base house device) :
    username device ∉ (readAcl base).sections ↔
      ∀ line ∈ base.splitOn '\n', ¬ Spaced device line := by
  rw [mem_sections, not_exists]
  constructor
  · intro hnone line hline hspaced
    exact hnone line ⟨hline, (opens_username h.deviceId line).mpr (.inr hspaced)⟩
  · rintro hnone line ⟨hline, hopens⟩
    rcases (opens_username h.deviceId line).mp hopens with hexact | hspaced
    · exact h.absent line hline hexact
    · exact hnone line hline hspaced

/-! ### One action -/

/-- The text that an action wants to see. -/
def AclAction.desired (base granted : List Char) : AclAction → Option (List Char)
  | .grant | .check => some granted
  | .revoke => some (baseline base)
  | .unknown => none

theorem owned_current {site : Site} {current : Option (List Char)}
    (hcurrent : site.current = .ok current) : Owned base granted site ↔
      ¬ (current ≠ none ∧ ¬ (current = some (baseline base) ∨ current = some granted)) := by
  rw [Owned, hcurrent]
  simp only [Except.ok.injEq, ne_eq, not_and_or, not_not]

/-- When an action goes through, and what it then writes. -/
theorem plan_ok (h : renderAcl base house device = .ok granted) (action : AclAction) (site : Site)
    (out : Option (List Char)) : plan base house device action site = .ok out ↔
      Owned base granted site ∧ ∃ desired, action.desired base granted = some desired ∧
        ((site.current = .ok (some desired) ∧ out = none) ∨
          (site.current ≠ .ok (some desired) ∧ action ≠ .check ∧ out = some desired)) := by
  cases hcurrent : site.current with
  | error e =>
      have hnot : ¬ Owned base granted site := by
        rw [Owned, hcurrent]
        simp
      simp only [plan, h, hcurrent, hnot, false_and, iff_false]
      split
      · simp
      · simp
  | ok current =>
      rw [owned_current hcurrent]
      by_cases howned : current ≠ none ∧
          ¬ (current = some (baseline base) ∨ current = some granted)
      · simp only [plan, h, hcurrent, eq_true howned, if_true, not_true_eq_false, false_and,
          iff_false]
        split
        · simp
        · simp
      · rw [plan, h, hcurrent]
        simp only [howned, if_false, not_false_eq_true, true_and, Except.ok.injEq, ne_eq]
        cases action with
        | grant =>
            by_cases hsame : current = some granted
            · simp [AclAction.desired, hsame, eq_comm]
            · simp [AclAction.desired, hsame, eq_comm]
        | check =>
            by_cases hsame : current = some granted
            · simp [AclAction.desired, hsame, eq_comm]
            · simp [AclAction.desired, hsame, eq_comm]
        | revoke =>
            by_cases hsame : current = some (baseline base)
            · simp [AclAction.desired, hsame, eq_comm]
            · simp [AclAction.desired, hsame, eq_comm]
        | unknown => simp [AclAction.desired]

/-- **What an action that goes through has done**: nothing, or put its text in place. -/
theorem prepare_ok (h : renderAcl base house device = .ok granted) (action : AclAction)
    (fails : Bool) (site site' : Site) :
    prepareAcl base house device action fails site = (.ok (), site') ↔
      Owned base granted site ∧ ∃ desired, action.desired base granted = some desired ∧
        ((site.current = .ok (some desired) ∧ site' = site) ∨
          (site.current ≠ .ok (some desired) ∧ action ≠ .check ∧ fails = false ∧
            site' = site.replace desired)) := by
  unfold prepareAcl
  cases hplan : plan base house device action site with
  | error e =>
      constructor
      · intro heq
        cases heq
      · rintro ⟨howned, desired, hdesired, ⟨hsame, -⟩ | ⟨hother, haction, -, -⟩⟩
        · have := (plan_ok h action site none).mpr ⟨howned, desired, hdesired, .inl ⟨hsame, rfl⟩⟩
          rw [hplan] at this
          cases this
        · have := (plan_ok h action site (some desired)).mpr
            ⟨howned, desired, hdesired, .inr ⟨hother, haction, rfl⟩⟩
          rw [hplan] at this
          cases this
  | ok out =>
      obtain ⟨howned, desired, hdesired, hout⟩ := (plan_ok h action site out).mp hplan
      simp only [howned, hdesired, true_and, Option.some.injEq, exists_eq_left']
      rcases hout with ⟨hsame, rfl⟩ | ⟨hother, haction, rfl⟩
      · simp [hsame, eq_comm]
      · cases fails with
        | true => simp [hother]
        | false => simp [hother, haction, eq_comm]

/-- Whatever comes of an action, the site is as it was, or has the text of the action. -/
theorem prepare_site (h : renderAcl base house device = .ok granted) (action : AclAction)
    (fails : Bool) (site : Site) :
    (prepareAcl base house device action fails site).2 = site ∨
      Owned base granted site ∧ action ≠ .check ∧ ∃ desired,
        action.desired base granted = some desired ∧
        (prepareAcl base house device action fails site).2 = site.replace desired := by
  cases hresult : prepareAcl base house device action fails site with
  | mk result site' =>
      cases result with
      | ok value =>
          obtain ⟨howned, desired, hdesired, ⟨-, hsite⟩ | ⟨-, haction, -, hsite⟩⟩ :=
            (prepare_ok h action fails site site').mp hresult
          · exact .inl hsite
          · exact .inr ⟨howned, haction, desired, hdesired, hsite⟩
      | error e =>
          left
          unfold prepareAcl at hresult
          split at hresult
          · exact (Prod.mk.inj hresult).2.symm
          · cases (Prod.mk.inj hresult).1
          · split at hresult
            · exact (Prod.mk.inj hresult).2.symm
            · cases (Prod.mk.inj hresult).1

theorem replace_current {site : Site} (h : Owned base granted site) (text : List Char) :
    (site.replace text).current = .ok (some (universal text)) := by
  have hlink : site.link = false := by
    cases hlink : site.link with
    | false => rfl
    | true =>
        simp only [Owned, Site.current, hlink, if_true] at h
        rcases h with h | h | h
        · cases h
        · cases h
        · cases h
  simp [Site.replace, Site.current, hlink]

/-! ### Runs of actions -/

theorem run_cons (site : Site) (a : AclAction × Bool) (actions : List (AclAction × Bool)) :
    run base house device site (a :: actions) =
      run base house device (prepareAcl base house device a.1 a.2 site).2 actions := rfl

theorem run_foreign (h : renderAcl base house device = .ok granted) {site : Site}
    (hforeign : ¬ Owned base granted site) (actions : List (AclAction × Bool)) :
    run base house device site actions = site := by
  induction actions with
  | nil => rfl
  | cons a actions ih =>
      rcases prepare_site h a.1 a.2 site with hsame | ⟨howned, -⟩
      · rw [run_cons, hsame, ih]
      · exact absurd howned hforeign

/-- No carriage return: what is written is read back. -/
def Stable (text : List Char) : Prop := universal text = text

theorem desired_current (action : AclAction) {site : Site} {desired : List Char}
    (hbase : Stable (baseline base)) (hgranted : Stable granted) (howned : Owned base granted site)
    (hdesired : action.desired base granted = some desired) :
    (site.replace desired).current = .ok (some desired) := by
  have hstable : Stable desired := by
    cases action with
    | grant => cases hdesired; exact hgranted
    | check => cases hdesired; exact hgranted
    | revoke => cases hdesired; exact hbase
    | unknown => cases hdesired
  rw [replace_current howned, hstable]

theorem owned_desired {action : AclAction} {site : Site} {desired : List Char}
    (hdesired : action.desired base granted = some desired)
    (hcurrent : site.current = .ok (some desired)) :
    site.current = .ok (some (baseline base)) ∨ site.current = .ok (some granted) := by
  cases action with
  | grant => cases hdesired; exact .inr hcurrent
  | check => cases hdesired; exact .inr hcurrent
  | revoke => cases hdesired; exact .inl hcurrent
  | unknown => cases hdesired

theorem run_becomes (h : renderAcl base house device = .ok granted)
    (hbase : Stable (baseline base)) (hgranted : Stable granted)
    (actions : List (AclAction × Bool)) (site : Site) :
    run base house device site actions = site ∨
      (run base house device site actions).current = .ok (some (baseline base)) ∨
      (run base house device site actions).current = .ok (some granted) := by
  induction actions generalizing site with
  | nil => exact .inl rfl
  | cons a actions ih =>
      rw [run_cons]
      rcases prepare_site h a.1 a.2 site with hsame | ⟨howned, -, desired, hdesired, hsite⟩
      · rw [hsame]
        exact ih site
      · rw [hsite]
        have hread := desired_current _ hbase hgranted howned hdesired
        rcases ih (site.replace desired) with hrun | hrun
        · rw [hrun]
          exact .inr (owned_desired hdesired hread)
        · exact .inr hrun

/-- After an action that went through, its text is what the file says. -/
theorem prepare_current (h : renderAcl base house device = .ok granted)
    (hbase : Stable (baseline base)) (hgranted : Stable granted) {action : AclAction}
    {fails : Bool} {site site' : Site}
    (hrun : prepareAcl base house device action fails site = (.ok (), site')) :
    ∃ desired, action.desired base granted = some desired ∧
      site'.current = .ok (some desired) := by
  obtain ⟨howned, desired, hdesired, ⟨hsame, rfl⟩ | ⟨-, -, -, rfl⟩⟩ :=
    (prepare_ok h action fails site site').mp hrun
  · exact ⟨desired, hdesired, hsame⟩
  · exact ⟨desired, hdesired, desired_current _ hbase hgranted howned hdesired⟩

theorem prepare_again (h : renderAcl base house device = .ok granted) (action : AclAction)
    {site : Site} {desired : List Char} (hdesired : action.desired base granted = some desired)
    (hcurrent : site.current = .ok (some desired)) (fails : Bool) :
    prepareAcl base house device action fails site = (.ok (), site) := by
  have howned : Owned base granted site := .inr (owned_desired hdesired hcurrent)
  exact (prepare_ok h action fails site site).mpr
    ⟨howned, desired, hdesired, .inl ⟨hcurrent, rfl⟩⟩

theorem prepare_check (h : renderAcl base house device = .ok granted) (fails : Bool)
    (site : Site) : (prepareAcl base house device .check fails site).2 = site ∧
      ((prepareAcl base house device .check fails site).1 = .ok () ↔
        site.current = .ok (some granted)) := by
  have hsame : (prepareAcl base house device .check fails site).2 = site := by
    rcases prepare_site h .check fails site with hsame | ⟨-, haction, -⟩
    · exact hsame
    · exact absurd rfl haction
  refine ⟨hsame, fun hok => ?_, fun hcurrent => ?_⟩
  · obtain ⟨-, desired, hdesired, ⟨hcurrent, -⟩ | ⟨-, haction, -⟩⟩ :=
      (prepare_ok h .check fails site site).mp (Prod.ext hok hsame)
    · cases hdesired
      exact hcurrent
    · exact absurd rfl haction
  · rw [prepare_again h .check rfl hcurrent fails]

theorem prepare_revoke (h : renderAcl base house device = .ok granted)
    (hbase : Stable (baseline base)) (hgranted : Stable granted) {site : Site}
    (hcurrent : site.current = .ok (some granted)) :
    ∃ site', prepareAcl base house device .revoke false site = (.ok (), site') ∧
      site'.current = .ok (some (baseline base)) := by
  have howned : Owned base granted site := .inr (.inr hcurrent)
  by_cases hsame : site.current = .ok (some (baseline base))
  · exact ⟨site, prepare_again h .revoke rfl hsame false, hsame⟩
  · refine ⟨site.replace (baseline base), (prepare_ok h .revoke false site _).mpr
      ⟨howned, baseline base, rfl, .inr ⟨hsame, by decide, rfl, rfl⟩⟩, ?_⟩
    exact desired_current .revoke hbase hgranted howned rfl

/-! ### The law -/

theorem not_mem_of_plain {name : List Char} (h : ∀ c ∈ name, isSpace c = false) : '\r' ∉ name := by
  intro hmem
  cases h _ hmem

theorem Accepted.not_mem_rendered (h : Accepted base house device)
    (hcr : '\r' ∉ rstrip isSpace base) : '\r' ∉ rendered base house device := by
  have huser := not_mem_of_plain (username_plain h.deviceId)
  have htopic := not_mem_of_plain (topic_plain h.houseId h.deviceId)
  have hmarker : '\r' ∉ marker := by decide
  simp only [rendered, List.mem_append, not_or]
  refine ⟨⟨⟨⟨⟨⟨⟨⟨⟨hcr, by decide⟩, hmarker⟩, by decide⟩, huser⟩, by decide⟩, by decide⟩, htopic⟩,
    by decide⟩, fun hkinds => ?_⟩
  obtain ⟨kind, hkind, hmem⟩ := List.mem_flatMap.mp hkinds
  simp only [List.mem_append, htopic, or_false] at hmem
  have hkinds : ∀ kind ∈ ["ack", "state", "status"], '\r' ∉ kind.toList := by decide
  rcases hmem with (hmem | hmem) | hmem
  · revert hmem
    decide
  · exact hkinds kind hkind hmem
  · revert hmem
    decide

theorem not_mem_baseline (hcr : '\r' ∉ rstrip isSpace base) : '\r' ∉ baseline base := by
  rw [baseline, List.mem_append, not_or]
  exact ⟨hcr, by decide⟩

/-- A carriage return in the base: the second grant finds another text than the first has left. -/
theorem not_idempotent (h : renderAcl base house device = .ok granted)
    (hbase : '\r' ∈ baseline base) (hgranted : '\r' ∈ granted) :
    ¬ Lawful base house device granted := by
  intro hlaw
  let site : Site := { file := .absent }
  have howned : Owned base granted site := .inl rfl
  have hfirst := (prepare_ok h .grant false site (site.replace granted)).mpr
    ⟨howned, granted, rfl, .inr ⟨by simp [site, Site.current], by decide, rfl, rfl⟩⟩
  have hagain := hlaw.idempotent .grant (.inl rfl) false false _ _ hfirst
  obtain ⟨hread, -⟩ := (prepare_ok h .grant false _ _).mp hagain
  rw [Owned, replace_current howned] at hread
  simp only [Except.ok.injEq, Option.some.injEq, reduceCtorEq, false_or] at hread
  have hnone := PyText.not_mem_universal granted
  rcases hread with hread | hread
  · exact hnone (hread ▸ hbase)
  · exact hnone (hread.symm ▸ hgranted)

/-- **What `render_acl` accepts is lawful if and only if** the base has no section of the relay's
user behind more than one blank, and no carriage return inside. -/
theorem rendering_lawful_iff (h : renderAcl base house device = .ok granted) :
    Lawful base house device granted ↔
      (∀ line ∈ base.splitOn '\n', ¬ Spaced device line) ∧ '\r' ∉ rstrip isSpace base := by
  obtain ⟨haccepted, hgranted⟩ := renderAcl_ok h
  constructor
  · intro hlaw
    refine ⟨haccepted.fresh_iff.mp hlaw.fresh, fun hcr => ?_⟩
    have hbase : '\r' ∈ baseline base := List.mem_append_left _ hcr
    have hrendered : '\r' ∈ granted := by
      rw [hgranted, rendered]
      simp only [List.append_assoc]
      exact List.mem_append_left _ hcr
    exact not_idempotent h hbase hrendered hlaw
  · rintro ⟨hspaced, hcr⟩
    have hbase : Stable (baseline base) := PyText.universal_id (not_mem_baseline hcr)
    have hstable : Stable granted := by
      rw [hgranted]
      exact PyText.universal_id (haccepted.not_mem_rendered hcr)
    constructor
    case grants => rw [hgranted, haccepted.grants]
    case fresh => exact haccepted.fresh_iff.mpr hspaced
    case becomes => exact fun site actions _ => run_becomes h hbase hstable actions site
    case foreign => exact fun site actions hforeign => run_foreign h hforeign actions
    case idempotent =>
      intro action _ fails fails' site site' hrun
      obtain ⟨desired, hdesired, hcurrent⟩ := prepare_current h hbase hstable hrun
      exact prepare_again h action hdesired hcurrent fails'
    case revoked =>
      intro fails site site' hrun
      obtain ⟨desired, hdesired, hcurrent⟩ := prepare_current h hbase hstable hrun
      cases hdesired
      exact prepare_revoke h hbase hstable hcurrent
    case checked => exact fun fails site => prepare_check h fails site

end

/-- A base of one user. -/
theorem rendering_lawful_plain :
    renderAcl "user core\ntopic write kzhome/v1/#\n".toList "house" "device" =
        .ok (rendered "user core\ntopic write kzhome/v1/#\n".toList "house" "device") ∧
      Lawful "user core\ntopic write kzhome/v1/#\n".toList "house" "device"
        (rendered "user core\ntopic write kzhome/v1/#\n".toList "house" "device") := by
  have hok : renderAcl "user core\ntopic write kzhome/v1/#\n".toList "house" "device" =
      .ok (rendered "user core\ntopic write kzhome/v1/#\n".toList "house" "device") := by
    decide +kernel
  refine ⟨hok, (rendering_lawful_iff hok).mpr ⟨?_, by decide⟩⟩
  rintro line hline ⟨ws, hne, hws, heq⟩
  have hlines : ∀ line ∈ "user core\ntopic write kzhome/v1/#\n".toList.splitOn '\n',
      ¬ "kzdevice-device".toList <:+ strip isSpace line := by decide
  refine hlines line hline ⟨"user ".toList ++ ws, ?_⟩
  rw [heq, List.append_assoc]
  rfl

/-- Another blank before the name, and the base has a section for the relay's own user; a carriage
return, and the text is not read back. -/
theorem rendering_not_lawful :
    (renderAcl "user  kzdevice-device\ntopic read x\n".toList "house" "device" =
        .ok (rendered "user  kzdevice-device\ntopic read x\n".toList "house" "device") ∧
      ¬ Lawful "user  kzdevice-device\ntopic read x\n".toList "house" "device"
        (rendered "user  kzdevice-device\ntopic read x\n".toList "house" "device")) ∧
    renderAcl "user core\r\ntopic read x".toList "house" "device" =
        .ok (rendered "user core\r\ntopic read x".toList "house" "device") ∧
      ¬ Lawful "user core\r\ntopic read x".toList "house" "device"
        (rendered "user core\r\ntopic read x".toList "house" "device") := by
  refine ⟨⟨by decide +kernel, fun hlaw => ?_⟩, by decide +kernel, fun hlaw => ?_⟩
  · have hsection : username "device" ∈
        (readAcl "user  kzdevice-device\ntopic read x\n".toList).sections := by decide
    exact hlaw.fresh hsection
  · have hok : renderAcl "user core\r\ntopic read x".toList "house" "device" =
        .ok (rendered "user core\r\ntopic read x".toList "house" "device") := by
      decide +kernel
    exact not_idempotent hok (by decide) (by decide) hlaw

end KzHome.Commissioning

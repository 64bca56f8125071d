import KzHome.Lib.SqlTraces
import KzHome.LiveRules

/-!
# KzHome.LiveRuns

Every run of logins, refreshes, logouts, websockets and events, with their statements in any
order, and with accounts and memberships that change meanwhile.

**Tokens descend** (`tokens_descend`): every pair goes back to a password, through refreshes that
each found the session before it good; and no session is found good after it was revoked, so that
only requests that overlap can use one token twice, as in `twice`.

**Live updates** (`live_updates`): a message goes to a websocket only while its event is handled,
after the user was found active and permitted to read the house that the message names; and the
user has logged in.

**Every connection has its turn** (`event_handled`): at most one message, and none only for a user
who was refused or a websocket that was broken.
-/

namespace KzHome.Live

open Session Sql

/-! ### Tokens -/

/-- The token that a note is about. -/
def Note.token? : Note → Option String
  | .decoded token => some token
  | _ => none

/-- The pair that a note is about. -/
def Note.issue? : Note → Option Issue
  | .issued issue => some issue
  | _ => none

section

variable (service : Auth.Service)

/-- **Where a pair comes from**: a password, or a pair before it. -/
inductive Descends (t : Trace) : Issue → Prop
  | password (issue : Issue) (email password : String) (i l : Entry Platform Note Unit)
      (hin : [i, l].Sublist t) (hs : l.session = i.session) (hissued : i.note = .issued issue)
      (hnote : l.note = .byEmail email) (hproves : l.db.Proves service email password issue.user) :
      Descends t issue
  | rotated (issue old : Issue) (i r u a j : Entry Platform Note Unit)
      (hin : [i, r, u, a].Sublist t) (hold : [a, j].Sublist t) (hr : r.session = i.session)
      (hu : u.session = i.session) (ha : a.session = i.session) (hissued : i.note = .issued issue)
      (hrevoked : r.note = .revoked (service.hashJti old.refresh.jti))
      (huser : u.note = .user issue.user) (hactive : u.db.isActive issue.user = true)
      (hsession : a.note = .session (service.hashJti old.refresh.jti))
      (hgood : a.db.Good (service.hashJti old.refresh.jti) issue.user)
      (hjssued : j.note = .issued old) (hsame : old.user = issue.user) (h : Descends t old) :
      Descends t issue

end

section

variable {service : Auth.Service} {t : Trace}

theorem Descends.cons {issue : Issue} (x : Entry Platform Note Unit)
    (h : Descends service t issue) : Descends service (x :: t) issue := by
  induction h with
  | password issue email password i l hin hs hissued hnote hproves =>
      exact .password issue email password i l (hin.cons x) hs hissued hnote hproves
  | rotated issue old i r u a j hin hold hr hu ha hissued hrevoked huser hactive hsession hgood
      hjssued hsame _ ih =>
      exact .rotated issue old i r u a j (hin.cons x) (hold.cons x) hr hu ha hissued hrevoked huser
        hactive hsession hgood hjssued hsame ih

/-- What an entry rests on, among the entries that are older than it. -/
theorem Lawful.before (h : Lawful service t) {e x : Entry Platform Note Unit}
    (hin : [e, x].Sublist t) : ∃ older, Justified service older e ∧ x ∈ older := by
  induction t with
  | nil => cases hin
  | cons y t ih =>
      cases hin with
      | cons _ hin => exact ih h.2 hin
      | cons_cons _ hin => exact ⟨t, h.1, List.singleton_sublist.mp hin⟩

/-- **Pairs descend from passwords**: induction on the trace, each pair from an older one. -/
theorem Lawful.descends (h : Lawful service t) {i : Entry Platform Note Unit} (hi : i ∈ t)
    {issue : Issue} (hissued : i.note = .issued issue) : Descends service t issue := by
  induction t generalizing i issue with
  | nil => cases hi
  | cons x t ih =>
      rcases List.mem_cons.mp hi with rfl | hi
      · have hj := h.1
        simp only [Justified, hissued] at hj
        obtain ⟨-, hpair⟩ := hj
        generalize hsource : issue.source = source at hpair
        cases hpair with
        | password email password l hl hs hnote hproves =>
            exact .password issue email password i l
              ((List.singleton_sublist.mpr hl).cons_cons i) hs hissued hnote hproves
        | rotated hash r u a hin hr hu ha hrevoked huser hsession hactive hgood =>
            -- the session that was found good was issued before
            have hmem : a ∈ t := hin.mem (by simp)
            obtain ⟨older, hread, hsub⟩ := h.2.at hmem
            simp only [Justified, hsession] at hread
            obtain ⟨row, hrow, hnone, hexp, hrowuser⟩ := hgood
            obtain ⟨j, hj, old, hold, rfl, hsame⟩ := hread.issued row hrow
            have hafter : [a, j].Sublist t :=
              ((List.singleton_sublist.mpr hj).cons_cons a).trans hsub
            exact .rotated issue old i r u a j (hin.cons_cons i) (hafter.cons i) hr hu ha hissued
              hrevoked huser hactive hsession ⟨row, hrow, hnone, hexp, hrowuser⟩ hold (hsame.trans hrowuser)
              ((ih h.2 (hafter.mem (List.mem_cons_of_mem a List.mem_cons_self)) hold).cons i)
      · exact (ih h.2 hi hissued).cons x

end

/-- **Tokens descend.** However the statements of logins, refreshes and logouts interleave: every
pair goes back to the password of an active account, through refreshes of the same user that each
found the session of the pair before it unrevoked and unexpired, and the user active, and revoked
the session before they issued; and a session that has been revoked is not found good again. -/
theorem tokens_descend (service : Auth.Service) (p : Platform)
    (hsessions : p.store.sessions = .empty) (hconnections : p.connections = .empty)
    (labels : List Label) :
    (∀ i ∈ trace service p labels, ∀ issue, i.note = .issued issue →
      Descends service (trace service p labels) issue) ∧
    ∀ a r hash user, [a, r].Sublist (trace service p labels) → r.note = .revoked hash →
      a.note = .session hash → ¬ a.db.Good hash user := by
  have h := trace_lawful service hsessions hconnections labels
  refine ⟨fun i hi issue => h.descends hi, ?_⟩
  rintro a r hash user hin hr ha ⟨row, hrow, hnone, -⟩
  obtain ⟨older, hj, hmem⟩ := h.before hin
  simp only [Justified, ha] at hj
  exact hj.fresh row hrow hnone r hmem hr

/-! ### A household -/

/-- Tokens of one user, by their type and `jti`. -/
def household : Auth.Service where
  codec :=
    { encode := fun claims =>
        if claims.sub = "ann" then
          match claims.type with
          | .access => "a" ++ claims.jti
          | .refresh => "r" ++ claims.jti
        else ""
      payload := fun token =>
        match token.toList with
        | 'a' :: jti => some ⟨"ann", .access, 0, 900 * second, String.ofList jti⟩
        | 'r' :: jti => some ⟨"ann", .refresh, 0, 86400 * second, String.ofList jti⟩
        | _ => none
      accessMinutes := 15
      refreshDays := 1 }
  passwords := ⟨fun hash password => hash = password, ""⟩
  sha := ⟨id, fun _ _ h => h⟩
  lower := id

/-- A resident of a house. -/
def home : Platform where
  store := ⟨.ofList [("ann", ⟨"ann@home", "secret", true⟩)], .empty⟩
  memberships := .ofList [("m1", ⟨"ann", "home", .resident⟩)]
  now := 0
  connections := .empty

/-- A request that performs statements, with what it draws. -/
def request (s : Nat) (call : Call) (inputs : List String) : List Label :=
  .start () call :: inputs.map (.exec s)

/-- Two refreshes with one token: each reads the session before the other revokes it. -/
def twice : List Label :=
  request 0 (.login "ann@home" "secret") ["", "", "1", "", "2", ""] ++
    request 1 (.refresh "r2") ["", "", "", ""] ++ request 2 (.refresh "r2") ["", "", "", ""] ++
      ["", "", "3", "", "4", ""].map (.exec 1) ++ ["", "", "5", "", "6", ""].map (.exec 2)

/-- Three pairs from one password: the token of the first is used twice. -/
theorem tokens_descend_twice :
    (trace household home twice).countP (fun e => e.note.issue?.isSome) = 3 ∧
      ∀ i ∈ trace household home twice, ∀ issue, i.note = .issued issue →
        Descends household (trace household home twice) issue :=
  ⟨by decide +kernel, (tokens_descend household home rfl rfl twice).1⟩

/-! ### Live updates -/

section

variable (service : Auth.Service)

/-- Every token that reads has been issued before it is presented. -/
def Unforged : Trace → Prop
  | [] => True
  | d :: older =>
    (∀ token ∈ d.note.token?, (service.codec.payload token).isSome = true →
      ∃ i ∈ older, ∃ issue ∈ i.note.issue?,
        token = service.codec.encode issue.access ∨ token = service.codec.encode issue.refresh) ∧
      Unforged older

/-- Whether tokens were forged. -/
def decideUnforged : (t : Trace) → Decidable (Unforged service t)
  | [] => .isTrue trivial
  | d :: older =>
    have := decideUnforged older
    inferInstanceAs (Decidable ((∀ token ∈ d.note.token?,
      (service.codec.payload token).isSome = true → ∃ i ∈ older, ∃ issue ∈ i.note.issue?,
        token = service.codec.encode issue.access ∨ token = service.codec.encode issue.refresh) ∧
      Unforged service older))

instance (t : Trace) : Decidable (Unforged service t) := decideUnforged service t

/-- A token reads as of the subject and the type that it was issued for. -/
def ReadsBack : Prop :=
  ∀ claims read, service.codec.payload (service.codec.encode claims) = some read →
    read.sub = claims.sub ∧ read.type = claims.type

/-- A user who has logged in: an access token of theirs was presented in time, by a request that
then found them active, and its pair descends from a password. -/
def LoggedIn (t : Trace) (s : Nat) (token user : String) : Prop :=
  Entrance service t s token user ∧ ∃ issue, issue.user = user ∧
    token = service.codec.encode issue.access ∧ Descends service t issue

end

section

variable {service : Auth.Service} {t : Trace}

/-- What the oldest of some entries rests on. -/
theorem Lawful.oldest (h : Lawful service t) {l : Trace} {e : Entry Platform Note Unit}
    (hin : (l ++ [e]).Sublist t) :
    ∃ older, Justified service older e ∧ (l ++ e :: older).Sublist t := by
  induction t generalizing l with
  | nil =>
      have := List.sublist_nil.mp hin
      simp at this
  | cons y t ih =>
      cases l with
      | nil =>
          cases hin with
          | cons _ hin =>
              obtain ⟨older, hj, hsub⟩ := ih h.2 (l := []) hin
              exact ⟨older, hj, hsub.cons y⟩
          | cons_cons _ _ => exact ⟨t, h.1, List.Sublist.refl _⟩
      | cons z l =>
          cases hin with
          | cons _ hin =>
              obtain ⟨older, hj, hsub⟩ := ih h.2 (l := z :: l) hin
              exact ⟨older, hj, hsub.cons y⟩
          | cons_cons _ hin =>
              obtain ⟨older, hj, hsub⟩ := ih h.2 hin
              exact ⟨older, hj, hsub.cons_cons y⟩

theorem issue?_eq_some {note : Note} {issue : Issue} (h : issue ∈ note.issue?) :
    note = .issued issue := by
  unfold Note.issue? at h
  split at h
  · rw [Option.some.inj h]
  · cases h

/-- A token that was presented, and reads. -/
theorem Unforged.issued (h : Unforged service t) {d : Entry Platform Note Unit} (hd : d ∈ t)
    {token : String} (hnote : d.note = .decoded token)
    (hreads : (service.codec.payload token).isSome = true) :
    ∃ i ∈ t, ∃ issue, i.note = .issued issue ∧
      (token = service.codec.encode issue.access ∨ token = service.codec.encode issue.refresh) := by
  induction t with
  | nil => cases hd
  | cons x t ih =>
      rcases List.mem_cons.mp hd with rfl | hd
      · obtain ⟨i, hi, issue, hissue, htoken⟩ := h.1 token (by rw [hnote]; rfl) hreads
        exact ⟨i, List.mem_cons_of_mem d hi, issue, issue?_eq_some hissue, htoken⟩
      · obtain ⟨i, hi, hrest⟩ := ih h.2 hd
        exact ⟨i, List.mem_cons_of_mem x hi, hrest⟩

theorem Entrance.sublist {older : Trace} {s : Nat} {token user : String}
    (h : Entrance service older s token user) (hsub : older.Sublist t) :
    Entrance service t s token user := by
  obtain ⟨u, d, hin, hrest⟩ := h
  exact ⟨u, d, hin.trans hsub, hrest⟩

/-- **Who is let in has logged in**, as long as tokens are not forged. -/
theorem Lawful.loggedIn (h : Lawful service t) (hunforged : Unforged service t)
    (hback : ReadsBack service) {s : Nat} {token user : String}
    (hentrance : Entrance service t s token user) : LoggedIn service t s token user := by
  obtain ⟨u, d, hin, -, -, -, hd, -, claims, hclaims, rfl⟩ := id hentrance
  obtain ⟨hpayload, hcond⟩ := Option.filter_eq_some_iff.mp hclaims
  simp only [Bool.and_eq_true, decide_eq_true_eq] at hcond
  obtain ⟨i, hi, issue, hissued, htoken⟩ :=
    hunforged.issued (hin.mem (by simp)) hd (by rw [hpayload]; rfl)
  have hown : issue.Own := by
    obtain ⟨older, hj, -⟩ := h.at hi
    simp only [Justified, hissued] at hj
    exact hj.1
  rcases htoken with rfl | rfl
  · obtain ⟨hsub, -⟩ := hback _ _ hpayload
    exact ⟨hentrance, issue, (hsub.trans hown.access.1).symm, rfl, h.descends hi hissued⟩
  · -- a refresh token is not taken for an access token
    obtain ⟨-, htype⟩ := hback _ _ hpayload
    rw [hown.refresh.2, hcond.2] at htype
    cases htype

end

/-- A message has gone to a websocket: what has happened before, the newest first. -/
structure Delivered (service : Auth.Service) (t : Trace) (e : Entry Platform Note Unit) (conn : Nat)
    (message : Dict String Json) (m a p c : Entry Platform Note Unit) (event : BusEvent)
    (user house token : String) : Prop where
  order : [e, m, a, p, c].Sublist t
  handling : m.session = e.session ∧ a.session = e.session ∧ p.session = e.session
  published : p.note = .published event ∧ p.db.connections.get? conn = some user
  active : a.note = .active conn user ∧ a.db.isActive user = true
  permitted : m.note = .member conn user house ∧ m.db.permits user house .houseRead = true
  house : event.houseId = some house ∧ message = event.message ∧
    message.get? "house_id" = some (.str house)
  connected : c.note = .connected conn token user ∧ c.session = conn
  loggedIn : LoggedIn service t conn token user

/-- **Live updates.** Whatever happens meanwhile to accounts, memberships and connections: a
message that goes to a websocket is that of an event whose handling had found the websocket
connected, then its user active, and then permitted to read the house that the message names; and
the websocket was let in by an access token of that user, who had logged in. -/
theorem live_updates (service : Auth.Service) (p : Platform)
    (hsessions : p.store.sessions = .empty) (hconnections : p.connections = .empty)
    (hback : ReadsBack service) (labels : List Label)
    (hunforged : Unforged service (trace service p labels)) :
    ∀ e ∈ trace service p labels, ∀ conn message, e.note = .sent conn message →
      ∃ m a q c event user house token, Delivered service (trace service p labels) e conn message
        m a q c event user house token := by
  intro e he conn message hsent
  have h := trace_lawful service hsessions hconnections labels
  generalize trace service p labels = t at *
  obtain ⟨older, hj, hsub⟩ := h.at he
  simp only [Justified, hsent] at hj
  obtain ⟨m, a, q, event, user, house, hin, hm, ha, hq, hpublished, hconn, hhouse, rfl, hactive,
    hisActive, hmember, hpermits⟩ := hj
  -- the connections that were there when the event was published
  obtain ⟨before, hadmitted, hbefore⟩ :=
    h.oldest (l := [e, m, a]) ((hin.cons_cons e).trans hsub)
  simp only [Justified, hpublished] at hadmitted
  obtain ⟨c, hc, token, hsession, hconnected⟩ := hadmitted conn user hconn
  have horder : [e, m, a, q, c].Sublist t :=
    .trans ((List.singleton_sublist.mpr hc).append_left [e, m, a, q]) hbefore
  have hloggedIn : LoggedIn service t conn token user := by
    obtain ⟨older', hj', hsub'⟩ := h.at (horder.mem (by simp) : c ∈ t)
    simp only [Justified, hconnected] at hj'
    exact h.loggedIn hunforged hback (hj'.2.sublist (.trans (List.sublist_cons_self c _) hsub'))
  exact ⟨m, a, q, c, event, user, house, token, horder, ⟨hm, ha, hq⟩, ⟨hpublished, hconn⟩,
    ⟨hactive, hisActive⟩, ⟨hmember, hpermits⟩,
    ⟨hhouse, rfl, BusEvent.message_houseId hhouse⟩, ⟨hconnected, hsession⟩, hloggedIn⟩

/-- Whether a note is that of a message to a websocket. -/
def Note.isSentTo (conn : Nat) : Note → Bool
  | .sent c _ => c = conn
  | _ => false

theorem isSentTo_eq_true {conn : Nat} {note : Note} (h : note.isSentTo conn = true) :
    ∃ message, note = .sent conn message := by
  unfold Note.isSentTo at h
  split at h
  · rename_i c message
    exact ⟨message, by rw [of_decide_eq_true h]⟩
  · cases h

/-- A change of a lamp. -/
def lampOn : BusEvent :=
  ⟨.deviceStateChanged, [("device_id", .str "lamp"), ("house_id", .str "home"),
    ("state", .obj [("on", .bool true)])], "c1", 0⟩

/-- A login, a websocket with its access token, and the change. -/
def evening : List Label :=
  request 0 (.login "ann@home" "secret") ["", "", "1", "", "2", ""] ++
    request 1 (.websocket "Bearer a1") ["", "", "", ""] ++
      request 2 (.event lampOn) ["", "", "", "", "", ""]

theorem household_readsBack : ReadsBack household := by
  intro claims read h
  by_cases hsub : claims.sub = "ann"
  · cases htype : claims.type with
    | access =>
        simp only [household, if_pos hsub, htype, String.toList_append] at h
        obtain rfl := Option.some.inj h
        exact ⟨hsub.symm, rfl⟩
    | refresh =>
        simp only [household, if_pos hsub, htype, String.toList_append] at h
        obtain rfl := Option.some.inj h
        exact ⟨hsub.symm, rfl⟩
  · simp only [household, if_neg hsub] at h
    cases h

theorem live_updates_evening :
    ∃ e ∈ trace household home evening, ∃ message, e.note = .sent 1 message ∧
      ∃ m a q c event user house token, Delivered household (trace household home evening) e 1
        message m a q c event user house token := by
  have hsent : ∃ e ∈ trace household home evening, e.note.isSentTo 1 = true := by decide +kernel
  obtain ⟨e, he, hnote⟩ := hsent
  obtain ⟨message, hmessage⟩ := isSentTo_eq_true hnote
  exact ⟨e, he, message, hmessage, live_updates household home rfl rfl household_readsBack evening
    (by decide +kernel) e he 1 message hmessage⟩

/-! ### Every connection has its turn -/

section

variable {service : Auth.Service} {conn : Nat}

theorem atMost_issuePair (user : String) (source : Source) :
    AtMost (Note.isSentTo conn) 0 (issuePair service user source) := by
  refine atMost_read rfl fun p => atMost_input fun jti => ?_
  refine atMost_read rfl fun p => atMost_input fun jti => ?_
  refine atMost_commit rfl fun r => ?_
  exact atMost_lift fun _ => trivial

theorem atMost_login (email password : String) :
    AtMost (Note.isSentTo conn) 0 (login service email password) := by
  refine atMost_read rfl fun p => ?_
  exact atMost_lift fun user => atMost_issuePair user _

theorem atMost_active (hash : String) : AtMost (Note.isSentTo conn) 0 (active hash) :=
  atMost_read rfl fun _ => atMost_read rfl fun _ => trivial

theorem atMost_refresh (token : String) :
    AtMost (Note.isSentTo conn) 0 (refresh service token) := by
  refine atMost_read rfl fun p => atMost_lift fun claims => ?_
  refine (atMost_active _).seq fun session => ?_
  refine atMost_read rfl fun p => atMost_lift fun _ => ?_
  exact atMost_commit rfl fun _ => atMost_issuePair _ _

theorem atMost_logout (token : String) :
    AtMost (Note.isSentTo conn) 0 (logout service token) := by
  refine atMost_read rfl fun p => atMost_lift fun claims => ?_
  refine (atMost_active _).seq fun session => atMost_lift fun _ => ?_
  exact atMost_commit rfl fun _ => trivial

theorem atMost_accessUser (token : String) :
    AtMost (Note.isSentTo conn) 0 (accessUser service token) := by
  refine atMost_read rfl fun p => atMost_lift fun claims => ?_
  exact atMost_read rfl fun p => atMost_lift fun _ => trivial

theorem atMost_getCurrentUser (authorization : String) :
    AtMost (Note.isSentTo conn) 0 (getCurrentUser service authorization) := by
  refine atMost_lift fun token => (atMost_accessUser token).seq fun user => ?_
  exact atMost_read rfl fun _ => trivial

theorem atMost_websocketEndpoint (s : Nat) (authorization : String) :
    AtMost (Note.isSentTo conn) 0 (websocketEndpoint service s authorization) := by
  unfold websocketEndpoint
  cases bearerToken authorization with
  | none => trivial
  | some token =>
      refine (atMost_accessUser token).attempt.seq fun r => ?_
      cases r with
      | error e => trivial
      | ok user =>
          refine atMost_input fun _ => atMost_commit rfl fun _ => ?_
          exact atMost_input fun _ => atMost_commit rfl fun _ => trivial

theorem atMost_authorizesHouse (c : Nat) (user house : String) :
    AtMost (Note.isSentTo conn) 0 (authorizesHouse c user house) := by
  refine atMost_read rfl fun p => ?_
  split
  · trivial
  · exact atMost_read rfl fun _ => trivial

/-- The loop sends to every connection of its list once. -/
theorem atMost_deliver (event : BusEvent) (house : String) (items : List (Nat × String)) :
    AtMost (Note.isSentTo conn) ((items.map Prod.fst).count conn) (deliver event house items) := by
  induction items with
  | nil => exact atMost_read rfl fun _ => trivial
  | cons item items ih =>
      obtain ⟨c, user⟩ := item
      have hle : (items.map Prod.fst).count conn ≤ (((c, user) :: items).map Prod.fst).count conn :=
        List.count_le_count_cons
      refine (atMost_authorizesHouse c user house).seq fun ok => ?_
      split
      · refine atMost_input fun outcome => ?_
        split
        · exact atMost_commit rfl fun _ => ih.mono hle
        · by_cases hc : c = conn
          · subst hc
            rw [List.map_cons, List.count_cons_self]
            exact atMost_read_succ fun _ => ih
          · exact atMost_read (by simp [Note.isSentTo, hc]) fun _ => ih.mono hle
      · exact ih.mono hle

theorem atMost_handleEvent (event : BusEvent) :
    AtMost (Note.isSentTo conn) 1 (handleEvent event) := by
  unfold handleEvent
  cases event.houseId with
  | none => trivial
  | some house =>
      refine atMost_read rfl fun p => (atMost_deliver event house _).mono ?_
      exact List.nodup_iff_count_le_one.mp p.connections.nodup conn

/-- **No request sends more than one message to a websocket.** -/
theorem atMost_program (s : Nat) (p : Unit) (call : Call) :
    AtMost (Note.isSentTo conn) 1 (program service s p call) := by
  cases call with
  | login email password =>
      refine AtMost.seq (atMost_login email password) fun _ => ?_
      trivial
  | refresh token =>
      refine AtMost.seq (atMost_refresh token) fun _ => ?_
      trivial
  | logout token => exact (atMost_logout token).mono (Nat.zero_le 1)
  | authenticated authorization =>
      refine AtMost.seq (atMost_getCurrentUser authorization) fun _ => ?_
      trivial
  | websocket authorization => exact (atMost_websocketEndpoint s authorization).mono (Nat.zero_le 1)
  | event event => exact atMost_handleEvent event

end

theorem Turn.sublist {older t : Trace} {s conn : Nat} {p : Entry Platform Note Unit}
    {event : BusEvent} {house user : String} (h : Turn older s p event house conn user)
    (hsub : older.Sublist t) : Turn t s p event house conn user := by
  cases h with
  | sent e hin hs hnote => exact .sent e (hin.trans hsub) hs hnote
  | inactive e hin hs hnote hdb => exact .inactive e (hin.trans hsub) hs hnote hdb
  | forbidden e hin hs hnote hdb => exact .forbidden e (hin.trans hsub) hs hnote hdb
  | broken e hin hs hnote => exact .broken e (hin.trans hsub) hs hnote

section

variable {xs : List (Performed (interface Platform String Write Error Note)
  (Sql.Store Platform String Note Unit))}

/-- The loop of `handle_event` has come to its end. -/
theorem deliver_over {event : BusEvent} {house : String} {items : List (Nat × String)}
    (h : Leads (deliver event house items) xs (.ret ())) :
    ∃ x ∈ xs, Op.noted? x.op x.ans = some (.handled event) := by
  induction items generalizing xs with
  | nil =>
      obtain ⟨before, ans, after, ys, rfl, -⟩ := h.ret_call
      exact ⟨_, .head _, rfl⟩
  | cons item items ih =>
      obtain ⟨conn, user⟩ := item
      obtain ⟨permitted, ys, zs, rfl, -, hrest⟩ :=
        Leads.ret_bind (m := authorizesHouse conn user house) h
      have hlater : ∀ {ws}, ws <:+ zs → Leads (deliver event house items) ws (.ret ()) →
          ∃ x ∈ ys ++ zs, Op.noted? x.op x.ans = some (.handled event) := by
        intro ws hws hleads
        obtain ⟨x, hx, hnote⟩ := ih hleads
        exact ⟨x, List.mem_append_right ys (hws.subset hx), hnote⟩
      split at hrest
      · -- the message goes out, or the websocket is broken
        obtain ⟨_, outcome, _, ws, rfl, hsent⟩ := hrest.ret_call
        simp only [Prog.bind] at hsent
        split at hsent
        · obtain ⟨_, _, _, us, rfl, hnext⟩ := hsent.ret_call
          exact hlater ((List.suffix_cons _ us).trans (List.suffix_cons _ _)) hnext
        · obtain ⟨_, _, _, us, rfl, hnext⟩ := hsent.ret_call
          exact hlater ((List.suffix_cons _ us).trans (List.suffix_cons _ _)) hnext
      · exact hlater (List.suffix_refl _) hrest

/-- **A handling of an event that has returned** had nothing to do, or has noted that it handled
the event. -/
theorem handleEvent_over {event : BusEvent} (h : Leads (handleEvent event) xs (.ret ())) :
    event.houseId = none ∨ ∃ x ∈ xs, Op.noted? x.op x.ans = some (.handled event) := by
  unfold handleEvent at h
  split at h
  · rename_i hnone
    exact .inl hnone
  · obtain ⟨_, p, _, ys, rfl, hloop⟩ := h.ret_call
    obtain ⟨x, hx, hnote⟩ := deliver_over hloop
    exact .inr ⟨x, .tail _ hx, hnote⟩

end

/-- The state after a run from a platform. -/
abbrev after (service : Auth.Service) (p : Platform) (labels : List Label) :=
  (requests service).run (.init (.init p 0)) labels

/-- **Every connection has its turn.** The handling of an event sends at most one message to a
websocket; and when the handling of an event of a house has returned, every websocket that was
connected when it began has been sent the event, or its user was found inactive or not permitted to
read the house, or it was broken. -/
theorem event_handled (service : Auth.Service) (p : Platform)
    (hsessions : p.store.sessions = .empty) (hconnections : p.connections = .empty)
    (labels : List Label) :
    (∀ s conn, count (Note.isSentTo conn) s (trace service p labels) ≤ 1) ∧
    ∀ before event more, labels = before ++ .start () (.event event) :: more →
      (after service p labels).sessions (after service p before).started = some ((), .ret ()) →
      event.houseId = none ∨ ∃ q ∈ trace service p labels, ∃ house,
        q.session = (after service p before).started ∧ q.note = .published event ∧
          event.houseId = some house ∧ ∀ conn user, q.db.connections.get? conn = some user →
            Turn (trace service p labels) q.session q event house conn user := by
  have hlawful := trace_lawful service hsessions hconnections labels
  refine ⟨fun s conn => run_count _ (fun s p call => atMost_program s p call) p 0 labels s, ?_⟩
  rintro before event more rfl hreturned
  have hrun : after service p (before ++ .start () (.event event) :: more) =
      (requests service).run (after service p before) (.start () (.event event) :: more) :=
    Transition.System.run_append _ _ _ _
  rw [hrun] at hreturned
  obtain ⟨-, xs, hleads, -, hnoted⟩ := call_noted hreturned
  rcases handleEvent_over hleads with hnone | ⟨x, hx, hnote⟩
  · exact .inl hnone
  · have hmem : ⟨(after service p before).started, (), x.before.db, .handled event⟩ ∈
        trace service p (before ++ .start () (.event event) :: more) := by
      show _ ∈ (after service p (before ++ .start () (.event event) :: more)).shared.trace
      rw [hrun]
      exact (hnoted x hx).2 _ hnote
    obtain ⟨older, hj, hsub⟩ := hlawful.at hmem
    obtain ⟨q, hq, house, hs, hpublished, hhouse, hturns⟩ := hj
    refine .inr ⟨q, hsub.subset (List.mem_cons_of_mem _ hq), house, hs, hpublished, hhouse,
      fun conn user hconn => ?_⟩
    rw [hs]
    exact (hturns conn user hconn).sublist (.trans (List.sublist_cons_self _ _) hsub)

/-- A login, two websockets with its access token, and the change. -/
def twoScreens : List Label :=
  request 0 (.login "ann@home" "secret") ["", "", "1", "", "2", ""] ++
    request 1 (.websocket "Bearer a1") ["", "", "", ""] ++
      request 2 (.websocket "Bearer a1") ["", "", "", ""]

/-- The change, sent to both websockets. -/
def shown : List String := ["", "", "", "", "", "", "", "", "", ""]

/-- Both websockets were connected when the change was published, and have had their turn. -/
theorem event_handled_twoScreens :
    count (Note.isSentTo 1) 3 (trace household home (twoScreens ++ request 3 (.event lampOn) shown))
      = 1 ∧
    count (Note.isSentTo 2) 3 (trace household home (twoScreens ++ request 3 (.event lampOn) shown))
      = 1 ∧
    (∀ s conn, count (Note.isSentTo conn) s
      (trace household home (twoScreens ++ request 3 (.event lampOn) shown)) ≤ 1) ∧
    ∃ q ∈ trace household home (twoScreens ++ request 3 (.event lampOn) shown), ∃ house,
      q.note = .published lampOn ∧ ∀ conn user, q.db.connections.get? conn = some user →
        Turn (trace household home (twoScreens ++ request 3 (.event lampOn) shown)) 3 q lampOn house
          conn user := by
  obtain ⟨hmost, hturns⟩ := event_handled household home rfl rfl
    (twoScreens ++ request 3 (.event lampOn) shown)
  refine ⟨by decide +kernel, by decide +kernel, hmost, ?_⟩
  have hstarted : (after household home twoScreens).started = 3 := by decide +kernel
  have hreturned : ((after household home
      (twoScreens ++ request 3 (.event lampOn) shown)).sessions 3).any
        (fun m => m.2.returned) = true := by decide +kernel
  obtain ⟨⟨⟨⟩, m⟩, hm, hret⟩ := (Option.any_eq_true ..).mp hreturned
  obtain rfl := Prog.eq_ret hret
  rcases hturns twoScreens lampOn _ rfl (by rw [hstarted]; exact hm) with hnone | hpublished
  · cases hnone
  · obtain ⟨q, hq, house, hs, hnote, -, hconns⟩ := hpublished
    rw [hstarted] at hs
    exact ⟨q, hq, house, hnote, fun conn user hconn => hs ▸ hconns conn user hconn⟩

end KzHome.Live

import KzHome.Lib.SqlCounts
import KzHome.LiveUpdates

/-!
# KzHome.LiveRules

What every note of a request rests on.

`Justified` says it, note by note, in terms of the older entries of the trace: which statements of
the same request have come before, and what they have seen. It is the protocol that the programs
of `KzHome.LiveUpdates` keep to (`outline_program`), so every trace is `Lawful`; that sessions are
revoked for good and that connections were let in is read off the tables when they are read
(`Follows`).
-/

namespace KzHome.Live

open Session Sql

section

variable (service : Auth.Service)

/-- The session with the hash is the user's, not revoked and not expired. -/
def Platform.Good (p : Platform) (hash user : String) : Prop :=
  ∃ row, p.store.sessions.get? hash = some row ∧ row.revokedAt = none ∧ p.now < row.expiresAt ∧
    row.userId = user

/-- The password is that of an active account with the address. -/
def Platform.Proves (p : Platform) (email password user : String) : Prop :=
  ∃ account, p.store.accounts.get? user = some account ∧ account.email = service.normalize email ∧
    account.isActive = true ∧ service.passwords.verify account.passwordHash password = true

/-! ### What notes rest on -/

/-- A refresh session that is there was issued; one that is not revoked had not been revoked. -/
structure SessionRead (older : Trace) (p : Platform) (hash : String) : Prop where
  issued : ∀ row, p.store.sessions.get? hash = some row → ∃ i ∈ older, ∃ issue,
    i.note = .issued issue ∧ service.hashJti issue.refresh.jti = hash ∧ issue.user = row.userId
  fresh : ∀ row, p.store.sessions.get? hash = some row → row.revokedAt = none →
    ∀ r ∈ older, r.note ≠ .revoked hash

/-- A session is revoked by a request that has found it good. -/
def Revocation (older : Trace) (s : Nat) (hash : String) : Prop :=
  ∃ a ∈ older, a.session = s ∧ a.note = .session hash ∧ ∃ user, a.db.Good hash user

/-- A pair is issued for a password, or for a session that the request has found good, whose user
it has found active, and that it has revoked, in this order. -/
inductive Pair (older : Trace) (s : Nat) (user : String) : Source → Prop
  | password (email password : String) (l : Entry Platform Note Unit) (hl : l ∈ older)
      (hs : l.session = s) (hnote : l.note = .byEmail email)
      (hproves : l.db.Proves service email password user) :
      Pair older s user (.password email password)
  | rotated (hash : String) (r u a : Entry Platform Note Unit) (hin : [r, u, a].Sublist older)
      (hr : r.session = s) (hu : u.session = s) (ha : a.session = s)
      (hrevoked : r.note = .revoked hash) (huser : u.note = .user user)
      (hsession : a.note = .session hash) (hactive : u.db.isActive user = true)
      (hgood : a.db.Good hash user) : Pair older s user (.rotated hash)

/-- The claims of the tokens of a pair. -/
structure Issue.Own (issue : Issue) : Prop where
  access : issue.access.sub = issue.user ∧ issue.access.type = .access
  refresh : issue.refresh.sub = issue.user ∧ issue.refresh.type = .refresh

/-- A request is let in by a token that it has decoded, of a user whom it has found active
afterwards. -/
def Entrance (older : Trace) (s : Nat) (token user : String) : Prop :=
  ∃ u d, [u, d].Sublist older ∧ u.session = s ∧ d.session = s ∧ u.note = .user user ∧
    d.note = .decoded token ∧ u.db.isActive user = true ∧
      ∃ claims, service.codec.decode token .access d.db.now = some claims ∧ claims.sub = user

/-- A message goes to a connection that was there when its event was published, of a user who was
found active, and then permitted to read the house. -/
def Delivery (older : Trace) (s conn : Nat) (message : Dict String Json) : Prop :=
  ∃ m a p event user house, [m, a, p].Sublist older ∧ m.session = s ∧ a.session = s ∧
    p.session = s ∧ p.note = .published event ∧ p.db.connections.get? conn = some user ∧
      event.houseId = some house ∧ message = event.message ∧ a.note = .active conn user ∧
        a.db.isActive user = true ∧ m.note = .member conn user house ∧
          m.db.permits user house .houseRead = true

/-- What became of a connection in the handling of an event that was published with `p`. -/
inductive Turn (older : Trace) (s : Nat) (p : Entry Platform Note Unit) (event : BusEvent)
    (house : String) (conn : Nat) (user : String) : Prop
  | sent (e : Entry Platform Note Unit) (hin : [e, p].Sublist older) (hs : e.session = s)
      (hnote : e.note = .sent conn event.message)
  | inactive (e : Entry Platform Note Unit) (hin : [e, p].Sublist older) (hs : e.session = s)
      (hnote : e.note = .active conn user) (hdb : e.db.isActive user = false)
  | forbidden (e : Entry Platform Note Unit) (hin : [e, p].Sublist older) (hs : e.session = s)
      (hnote : e.note = .member conn user house)
      (hdb : e.db.permits user house .houseRead = false)
  | broken (e : Entry Platform Note Unit) (hin : [e, p].Sublist older) (hs : e.session = s)
      (hnote : e.note = .broken conn)

/-- An event has been handled when every connection has had its turn. -/
def Handled (older : Trace) (s : Nat) (event : BusEvent) : Prop :=
  ∃ p ∈ older, ∃ house, p.session = s ∧ p.note = .published event ∧ event.houseId = some house ∧
    ∀ conn user, p.db.connections.get? conn = some user → Turn older s p event house conn user

/-- The connections are websockets that were let in. -/
def Admitted (older : Trace) (p : Platform) : Prop :=
  ∀ conn user, p.connections.get? conn = some user →
    ∃ c ∈ older, ∃ token, c.session = conn ∧ c.note = .connected conn token user

/-- What an entry rests on. -/
def Justified (older : Trace) (e : Entry Platform Note Unit) : Prop :=
  match e.note with
  | .session hash => SessionRead service older e.db hash
  | .revoked hash => Revocation older e.session hash
  | .issued issue => issue.Own ∧ Pair service older e.session issue.user issue.source
  | .admitted token user => Entrance service older e.session token user
  | .connected conn token user => conn = e.session ∧ Entrance service older conn token user
  | .published _ => Admitted older e.db
  | .sent conn message => Delivery older e.session conn message
  | .handled event => Handled older e.session event
  | _ => True

/-- Every entry rests on what is older. -/
def Lawful : Trace → Prop
  | [] => True
  | e :: older => Justified service older e ∧ Lawful older

/-- What the trace tells of the tables. -/
structure Follows (p : Platform) (t : Trace) : Prop where
  rows : ∀ hash row, p.store.sessions.get? hash = some row → ∃ i ∈ t, ∃ issue,
    i.note = .issued issue ∧ service.hashJti issue.refresh.jti = hash ∧ issue.user = row.userId
  kept : ∀ i ∈ t, ∀ issue, i.note = .issued issue →
    (p.store.sessions.get? (service.hashJti issue.refresh.jti)).isSome = true
  revoked : ∀ r ∈ t, ∀ hash, r.note = .revoked hash →
    ∃ row, p.store.sessions.get? hash = some row ∧ row.revokedAt ≠ none
  admitted : Admitted t p

end

section

variable {service : Auth.Service}

/-- Where an entry of a lawful trace stands. -/
theorem Lawful.at {t : Trace} (h : Lawful service t) {e : Entry Platform Note Unit} (he : e ∈ t) :
    ∃ older, Justified service older e ∧ (e :: older).Sublist t := by
  induction t with
  | nil => cases he
  | cons x t ih =>
      rcases List.mem_cons.mp he with rfl | he
      · exact ⟨t, h.1, List.Sublist.refl _⟩
      · obtain ⟨older, hj, hsub⟩ := ih h.2 he
        exact ⟨older, hj, hsub.cons x⟩

/-! ### More entries -/

section

variable {t : Trace} (x : Entry Platform Note Unit) {s : Nat} {user : String}

theorem Pair.cons {source : Source} (h : Pair service t s user source) :
    Pair service (x :: t) s user source := by
  cases h with
  | password email password l hl hs hnote hproves =>
      exact .password email password l (List.mem_cons_of_mem x hl) hs hnote hproves
  | rotated hash r u a hin hr hu ha hrevoked huser hsession hactive hgood =>
      exact .rotated hash r u a (hin.cons x) hr hu ha hrevoked huser hsession hactive hgood

theorem Entrance.cons {token : String} (h : Entrance service t s token user) :
    Entrance service (x :: t) s token user := by
  obtain ⟨u, d, hin, hrest⟩ := h
  exact ⟨u, d, hin.cons x, hrest⟩

theorem Turn.cons {p : Entry Platform Note Unit} {event : BusEvent} {house : String} {conn : Nat}
    (h : Turn t s p event house conn user) : Turn (x :: t) s p event house conn user := by
  cases h with
  | sent e hin hs hnote => exact .sent e (hin.cons x) hs hnote
  | inactive e hin hs hnote hdb => exact .inactive e (hin.cons x) hs hnote hdb
  | forbidden e hin hs hnote hdb => exact .forbidden e (hin.cons x) hs hnote hdb
  | broken e hin hs hnote => exact .broken e (hin.cons x) hs hnote

theorem Admitted.cons {p : Platform} (h : Admitted t p) : Admitted (x :: t) p := by
  intro conn user hconn
  obtain ⟨c, hc, hrest⟩ := h conn user hconn
  exact ⟨c, List.mem_cons_of_mem x hc, hrest⟩

/-- An entry of a statement that changes nothing. -/
theorem Follows.cons {p : Platform} (h : Follows service p t) (hissued : ∀ issue, x.note ≠ .issued issue)
    (hrevoked : ∀ hash, x.note ≠ .revoked hash) : Follows service p (x :: t) where
  rows hash row hrow := by
    obtain ⟨i, hi, hrest⟩ := h.rows hash row hrow
    exact ⟨i, List.mem_cons_of_mem x hi, hrest⟩
  kept i hi issue hnote := by
    rcases List.mem_cons.mp hi with rfl | hi
    · exact absurd hnote (hissued issue)
    · exact h.kept i hi issue hnote
  revoked r hr hash hnote := by
    rcases List.mem_cons.mp hr with rfl | hr
    · exact absurd hnote (hrevoked hash)
    · exact h.revoked r hr hash hnote
  admitted := h.admitted.cons x

end

/-! ### What writes do -/

section

variable {p q : Platform} {t : Trace}

theorem apply_one {w : Write} (h : schema.apply p [w] = .ok q) : p.write w = .ok q := by
  simp only [schema, List.foldlM_cons, List.foldlM_nil] at h
  cases hw : p.write w with
  | error e => rw [hw] at h; cases h
  | ok q' => rw [hw] at h; exact h

theorem now_of_write {w : Write} (h : p.write w = .ok q) : q.now = p.now := by
  cases w with
  | revoke hash => obtain rfl := Except.ok.inj h; rfl
  | insert hash row =>
      simp only [Platform.write] at h
      split at h
      · cases h
      · obtain rfl := Except.ok.inj h; rfl
  | register conn user => obtain rfl := Except.ok.inj h; rfl
  | unregister conn => obtain rfl := Except.ok.inj h; rfl

/-- A revocation of a session that is there. -/
theorem Follows.revoke (h : Follows service p t) {hash : String}
    (hthere : (p.store.sessions.get? hash).isSome = true) {e : Entry Platform Note Unit}
    (he : e.note = .revoked hash) :
    Follows service { p with store := Auth.revoke p.store p.now hash } (e :: t) where
  rows k row hrow := by
    dsimp only at hrow
    rw [Auth.get?_revoke] at hrow
    split at hrow
    · obtain ⟨item, hitem, rfl⟩ := Option.map_eq_some_iff.mp hrow
      obtain ⟨i, hi, hrest⟩ := h.rows k item hitem
      exact ⟨i, List.mem_cons_of_mem e hi, hrest⟩
    · obtain ⟨i, hi, hrest⟩ := h.rows k row hrow
      exact ⟨i, List.mem_cons_of_mem e hi, hrest⟩
  kept i hi issue hnote := by
    rcases List.mem_cons.mp hi with rfl | hi
    · rw [he] at hnote; cases hnote
    · dsimp only
      rw [Auth.get?_revoke]
      split
      · rw [Option.isSome_map]
        exact h.kept i hi issue hnote
      · exact h.kept i hi issue hnote
  revoked r hr k hnote := by
    dsimp only
    rw [Auth.get?_revoke]
    by_cases hk : k = hash
    · subst hk
      obtain ⟨row, hrow⟩ := Option.isSome_iff_exists.mp hthere
      exact ⟨_, by rw [if_pos rfl, hrow]; rfl, by simp⟩
    · rw [if_neg hk]
      rcases List.mem_cons.mp hr with rfl | hr
      · rw [he] at hnote
        exact absurd (Note.revoked.inj hnote).symm hk
      · exact h.revoked r hr k hnote
  admitted := h.admitted.cons e

/-- A new session. -/
theorem Follows.insert (h : Follows service p t) {hash : String} {row : RefreshSession}
    {issue : Issue} (hw : p.write (.insert hash row) = .ok q) {e : Entry Platform Note Unit}
    (he : e.note = .issued issue) (hhash : service.hashJti issue.refresh.jti = hash)
    (huser : row.userId = issue.user) : Follows service q (e :: t) := by
  simp only [Platform.write] at hw
  split at hw
  · cases hw
  rename_i hnew
  rw [Option.not_isSome_iff_eq_none] at hnew
  obtain rfl := Except.ok.inj hw
  refine ⟨fun k r hr => ?_, fun i hi issue' hnote => ?_, fun r hr k hnote => ?_,
    h.admitted.cons e⟩
  · dsimp only at hr
    rw [Dict.get?_set_eq] at hr
    split at hr
    · rename_i hk
      obtain rfl := Option.some.inj hr
      exact ⟨e, List.mem_cons_self, issue, he, hhash.trans hk.symm, huser.symm⟩
    · obtain ⟨i, hi, hrest⟩ := h.rows k r hr
      exact ⟨i, List.mem_cons_of_mem e hi, hrest⟩
  · dsimp only
    rw [Dict.get?_set_eq]
    split
    · rfl
    · rename_i hk
      rcases List.mem_cons.mp hi with rfl | hi
      · obtain rfl := Note.issued.inj (he.symm.trans hnote)
        exact absurd hhash hk
      · exact h.kept i hi issue' hnote
  · rcases List.mem_cons.mp hr with rfl | hr
    · rw [he] at hnote; cases hnote
    · obtain ⟨row', hrow', hrevoked⟩ := h.revoked r hr k hnote
      have hk : k ≠ hash := fun hk => by rw [hk, hnew] at hrow'; cases hrow'
      exact ⟨row', by dsimp only; rw [Dict.get?_set_eq, if_neg hk]; exact hrow', hrevoked⟩

/-- Other connections. -/
theorem Follows.connections (h : Follows service p t) {connections : Dict Nat String}
    (hadmitted : Admitted t { p with connections }) : Follows service { p with connections } t :=
  ⟨h.rows, h.kept, h.revoked, hadmitted⟩

theorem Follows.register (h : Follows service p t) {e : Entry Platform Note Unit} {conn : Nat}
    {token user : String} (he : e.note = .connected conn token user) (hconn : e.session = conn) :
    Follows service { p with connections := p.connections.set conn user } (e :: t) := by
  have hcons := h.cons e (by rw [he]; simp) (by rw [he]; simp)
  refine hcons.connections fun k other hk => ?_
  dsimp only at hk
  rw [Dict.get?_set_eq] at hk
  split at hk
  · rename_i heq
    obtain rfl := Option.some.inj hk
    subst heq
    exact ⟨e, List.mem_cons_self, token, hconn, he⟩
  · exact hcons.admitted k other hk

theorem Follows.unregister (h : Follows service p t) {e : Entry Platform Note Unit} {conn : Nat}
    (he : e.note = .disconnected conn ∨ e.note = .broken conn) :
    Follows service { p with connections := p.connections.pop conn } (e :: t) := by
  have hcons := h.cons e (by rcases he with he | he <;> simp [he])
    (by rcases he with he | he <;> simp [he])
  exact hcons.connections fun k user hk => hcons.admitted k user (Dict.get?_pop.mp hk).2

/-- What others do. -/
theorem Follows.become (h : Follows service p t) (hpq : p.mayBecome q = true) :
    Follows service q t := by
  simp only [Platform.mayBecome, decide_eq_true_eq] at hpq
  obtain ⟨-, hsessions, hconnections⟩ := hpq
  have hs : q.store.sessions = p.store.sessions := Dict.ext hsessions
  have hc : q.connections = p.connections := Dict.ext hconnections
  exact ⟨hs ▸ h.rows, hs ▸ h.kept, hs ▸ h.revoked, fun conn user hconn =>
    h.admitted conn user (hc ▸ hconn)⟩

end

end

/-! ### The protocol -/

section

variable (service : Auth.Service)

/-- When a request commits, and what it notes with it. -/
inductive Commits (s : Nat) (st : Sql.Store Platform String Note Unit) :
    List Write → Option Note → Prop
  | revoke (hash : String) (h : Revocation st.trace s hash) :
      Commits s st [.revoke hash] (some (.revoked hash))
  | insert (row : RefreshSession) (issue : Issue) (huser : row.userId = issue.user)
      (hown : issue.Own) (h : Pair service st.trace s issue.user issue.source) :
      Commits s st [.insert (service.hashJti issue.refresh.jti) row] (some (.issued issue))
  | register (token user : String) (h : Entrance service st.trace s token user) :
      Commits s st [.register s user] (some (.connected s token user))
  | disconnect (conn : Nat) : Commits s st [.unregister conn] (some (.disconnected conn))
  | drop (conn : Nat) : Commits s st [.unregister conn] (some (.broken conn))

/-- When a statement without writes may be noted. -/
def Notes (s : Nat) (st : Sql.Store Platform String Note Unit) : Note → Prop
  | .admitted token user => Entrance service st.trace s token user
  | .sent conn message => Delivery st.trace s conn message
  | .handled event => Handled st.trace s event
  | .revoked _ | .issued _ | .connected _ _ _ | .disconnected _ | .broken _ => False
  | _ => True

def protocol : Protocol Platform String Write Note Unit where
  inv st := Lawful service st.trace ∧ Follows service st.db st.trace
  commits s _ st := Commits service s st
  notes s _ st := Notes service s st

abbrev contract := Protocol.contract (protocol service) schema Platform.mayBecome

end

section

variable {service : Auth.Service}

/-- A session that was found good is there. -/
theorem Revocation.there {p : Platform} {t : Trace} {s : Nat} {hash : String}
    (h : Revocation t s hash) (hl : Lawful service t) (hf : Follows service p t) :
    (p.store.sessions.get? hash).isSome = true := by
  obtain ⟨a, ha, -, hnote, user, row, hrow, -⟩ := h
  obtain ⟨older, hj, hsub⟩ := hl.at ha
  simp only [Justified, hnote] at hj
  obtain ⟨i, hi, issue, hissued, hhash, -⟩ := hj.issued row hrow
  rw [← hhash]
  exact hf.kept i (hsub.mem (List.mem_cons_of_mem a hi)) issue hissued

/-- **A note** is justified by the older ones and by the tables. -/
theorem Notes.justified {s : Nat} {p : Unit} {st : Sql.Store Platform String Note Unit}
    {note : Note} (h : Notes service s st note) (hf : Follows service st.db st.trace) :
    Justified service st.trace ⟨s, p, st.db, note⟩ := by
  cases note with
  | session hash =>
      refine ⟨fun row hrow => hf.rows hash row hrow, fun row hrow hnone r hr hnote => ?_⟩
      obtain ⟨row', hrow', hrevoked⟩ := hf.revoked r hr hash hnote
      obtain rfl := Option.some.inj (hrow.symm.trans hrow')
      exact hrevoked hnone
  | published event => exact hf.admitted
  | admitted token user => exact h
  | sent conn message => exact h
  | handled event => exact h
  | revoked hash => exact h.elim
  | issued issue => exact h.elim
  | connected conn token user => exact h.elim
  | byEmail email => trivial
  | decoded token => trivial
  | user id => trivial
  | disconnected conn => trivial
  | active conn user => trivial
  | member conn user house => trivial
  | broken conn => trivial

theorem keeps : (protocol service).Keeps schema Platform.mayBecome where
  locks _ _ h := h
  clock _ _ h _ := h
  reading _ h := h
  noted a s p note hi h := by
    refine ⟨⟨Notes.justified h hi.2, hi.1⟩, hi.2.cons _ ?_ ?_⟩
    · intro issue hnote
      dsimp only at hnote
      subst hnote
      exact h
    · intro hash hnote
      dsimp only at hnote
      subst hnote
      exact h
  committed a s p w note db hi hc _ hdb := by
    cases hc with
    | revoke hash h =>
        obtain rfl := Except.ok.inj (apply_one hdb)
        exact ⟨⟨h, hi.1⟩, hi.2.revoke (h.there hi.1 hi.2) rfl⟩
    | insert row issue huser hown h =>
        exact ⟨⟨⟨hown, h⟩, hi.1⟩, hi.2.insert (apply_one hdb) rfl rfl huser⟩
    | register token user h =>
        obtain rfl := Except.ok.inj (apply_one hdb)
        exact ⟨⟨⟨rfl, h⟩, hi.1⟩, hi.2.register rfl rfl⟩
    | disconnect conn =>
        obtain rfl := Except.ok.inj (apply_one hdb)
        exact ⟨⟨trivial, hi.1⟩, hi.2.unregister (.inl rfl)⟩
    | drop conn =>
        obtain rfl := Except.ok.inj (apply_one hdb)
        exact ⟨⟨trivial, hi.1⟩, hi.2.unregister (.inr rfl)⟩
  changed a db hi h := ⟨hi.1, hi.2.become h⟩

/-! ### The programs keep to it -/

variable {s : Nat} {p : Unit}

/-- What more entries do not falsify. -/
theorem stable_trace {K : Trace → Prop} (hK : ∀ x t, K t → K (x :: t)) :
    (contract service).Stable s p fun st => K st.trace := by
  have hrecord : ∀ (a : Sql.Store Platform String Note Unit) t (q : Unit) n, K a.trace →
      K (a.record t q n).trace := by
    intro a t q n h
    cases n with
    | none => exact h
    | some n => exact hK _ _ h
  refine Protocol.stable_of ?_ ?_ ?_ ?_ ?_ ?_
  · exact fun a l _ h => h
  · exact fun a t _ h => h
  · exact fun a h => h
  · exact fun a t q n h => hrecord a t q (some n) h
  · exact fun a t q w n db _ _ _ _ _ h => hrecord a t q n h
  · exact fun a db _ _ h => h

theorem stable_true : (contract service).Stable s p fun _ => True := Contract.Stable.const True

theorem stable_sublist (l : Trace) :
    (contract service).Stable s p fun st => l.Sublist st.trace :=
  stable_trace (K := fun t => l.Sublist t) fun x _ h => h.cons x

/-- Time passes. -/
theorem stable_now (t : Instant) : (contract service).Stable s p fun st => t ≤ st.db.now := by
  refine Protocol.stable_db (K := fun q : Platform => t ≤ q.now) ?_ ?_
  · intro a u q w n db _ hc hdb h
    have hnow : db.now = a.db.now := by
      cases hc with
      | revoke hash _ => exact now_of_write (apply_one hdb)
      | insert row issue _ _ _ => exact now_of_write (apply_one hdb)
      | register token user _ => exact now_of_write (apply_one hdb)
      | disconnect conn => exact now_of_write (apply_one hdb)
      | drop conn => exact now_of_write (apply_one hdb)
    exact hnow ▸ h
  · intro a db _ h hle
    simp only [Platform.mayBecome, decide_eq_true_eq] at h
    exact Int.le_trans hle h.1

/-- The write of a statement cannot fail unless it is an insertion. -/
theorem apply_ne_error {q : Platform} {w : Write} {e : Error} (hw : ∀ hash row, w ≠ .insert hash row)
    (h : schema.apply q [w] = .error e) : False := by
  cases w with
  | insert hash row => exact hw hash row rfl
  | revoke hash => cases h
  | register conn user => cases h
  | unregister conn => cases h

theorem authenticate_ok {store : Auth.Store} {email password user : String}
    (h : authenticate service store email password = .ok user) :
    ∃ account, store.accounts.get? user = some account ∧
      account.email = service.normalize email ∧ account.isActive = true ∧
        service.passwords.verify account.passwordHash password = true := by
  unfold authenticate at h
  cases hfind : service.byEmail store email with
  | none =>
      rw [hfind] at h
      cases h
  | some found =>
      rw [hfind] at h
      dsimp only [Option.map_some, Option.getD_some] at h
      obtain ⟨hget, hemail⟩ := Dict.find?_eq_some hfind
      split at h
      · cases h
      · rename_i hcond
        simp only [Bool.or_eq_true, Bool.not_eq_true', not_or, Bool.not_eq_false] at hcond
        obtain rfl := Except.ok.inj h
        exact ⟨found.2, hget, of_decide_eq_true hemail, hcond⟩

theorem require_ok {condition : Bool} {message : String} {u : Unit}
    (h : require condition message = .ok u) : condition = true := by
  unfold require at h
  split at h
  · assumption
  · cases h

theorem decode_ok {token message : String} {type : TokenType} {now : Instant} {claims : Claims}
    (h : decode service token type now message = .ok claims) :
    service.codec.decode token type now = some claims := by
  unfold decode at h
  cases hd : service.codec.decode token type now with
  | none => rw [hd] at h; cases h
  | some claims' =>
      rw [hd] at h
      exact congrArg some (Except.ok.inj h)

theorem outline_issuePair (user : String) (source : Source) :
    (contract service).Outline (machine schema Platform.mayBecome) s p
      (issuePair service user source) (fun st => Pair service st.trace s user source)
      (Contract.returns fun _ _ => True) := by
  have hstable : (contract service).Stable s p fun st => Pair service st.trace s user source :=
    stable_trace (K := fun t => Pair service t s user source) fun x _ h => h.cons x
  refine Protocol.outline_peek hstable fun q => ?_
  refine Protocol.outline_input hstable fun jti => ?_
  refine Protocol.outline_peek hstable fun q => ?_
  refine Protocol.outline_input hstable fun jti => ?_
  refine Protocol.outline_commit (R := fun _ _ => True) (fun _ => stable_true)
    (fun st _ h => Commits.insert _ ⟨user, _, _, source⟩ rfl ⟨⟨rfl, rfl⟩, rfl, rfl⟩ h) (fun _ _ _ _ _ => trivial)
    (fun _ _ _ _ => trivial) fun r => ?_
  exact Protocol.outline_lift fun _ _ _ _ _ => trivial

theorem outline_login (email password : String) :
    (contract service).Outline (machine schema Platform.mayBecome) s p
      (login service email password) (fun _ => True) (Contract.returns fun _ _ => True) := by
  refine Protocol.outline_read (R := fun q st => ⟨s, p, q, .byEmail email⟩ ∈ st.trace)
    (fun _ => Protocol.stable_traced) (fun _ _ _ _ hn => Option.some.inj hn ▸ trivial)
    (fun _ _ _ => List.mem_cons_self) fun q => ?_
  refine Protocol.outline_lift fun user huser => ?_
  refine (outline_issuePair user _).pre fun st _ h => ?_
  exact .password email password _ h rfl rfl (authenticate_ok huser)

/-- A session that is taken for active was found good. -/
theorem outline_active (hash : String) :
    (contract service).Outline (machine schema Platform.mayBecome) s p (active hash)
      (fun _ => True) (Contract.returns fun session st => ∀ row, session = some row →
        ∃ q, [⟨s, p, q, .session hash⟩].Sublist st.trace ∧ q.Good hash row.userId) := by
  refine Protocol.outline_read
    (R := fun q st => [⟨s, p, q, .session hash⟩].Sublist st.trace ∧ q.now ≤ st.db.now)
    (fun _ => (stable_sublist _).and (stable_now _))
    (fun _ _ _ _ hn => Option.some.inj hn ▸ trivial)
    (fun _ _ _ => ⟨List.singleton_sublist.mpr List.mem_cons_self, Int.le_refl _⟩) fun q => ?_
  refine Protocol.outline_read
    (R := fun later st => [⟨s, p, q, .session hash⟩].Sublist st.trace ∧ q.now ≤ later.now)
    (fun _ => (stable_sublist _).and (Contract.Stable.const _)) (fun _ _ _ _ hn => by cases hn)
    (fun _ _ h => h) fun later => ?_
  intro st _ h row hrow
  obtain ⟨hget, hnone, hexp⟩ := Auth.active_some hrow
  exact ⟨q, h.1, row, hget, hnone, Int.lt_of_le_of_lt h.2 hexp, rfl⟩

theorem outline_refresh (token : String) :
    (contract service).Outline (machine schema Platform.mayBecome) s p (refresh service token)
      (fun _ => True) (Contract.returns fun _ _ => True) := by
  refine Protocol.outline_read (R := fun _ _ => True) (fun _ => stable_true)
    (fun _ _ _ _ hn => Option.some.inj hn ▸ trivial) (fun _ _ _ => trivial) fun q => ?_
  refine Protocol.outline_lift fun claims _ => ?_
  refine (outline_active _).seq fun session => ?_
  refine Protocol.outline_read (R := fun q' st => ∀ row, session = some row → ∃ q,
    [⟨s, p, q', .user claims.sub⟩, ⟨s, p, q, .session (service.hashJti claims.jti)⟩].Sublist
      st.trace ∧ q.Good (service.hashJti claims.jti) row.userId)
    (fun _ => Contract.Stable.forall fun row => Contract.Stable.forall fun _ =>
      Contract.Stable.exists fun q => (stable_sublist _).and (Contract.Stable.const _))
    (fun _ _ _ _ hn => Option.some.inj hn ▸ trivial)
    (fun st _ h row hrow => (h row hrow).imp fun q h => ⟨h.1.cons_cons _, h.2⟩) fun q' => ?_
  refine Protocol.outline_lift fun _ hgood => ?_
  have hgood := require_ok hgood
  rw [Bool.and_eq_true, Option.any_eq_true] at hgood
  obtain ⟨⟨row, hrow, huser⟩, hactive⟩ := hgood
  have huser : row.userId = claims.sub := of_decide_eq_true huser
  refine Contract.Outline.pre (Contract.Outline.of_exists fun q => ?_) fun st _ h => h row hrow
  refine Contract.Outline.pre (Contract.Outline.given fun hq => ?_) fun st _ h => h.symm
  refine Protocol.outline_commit_cases
    (R := fun _ st => Pair service st.trace s claims.sub
      (.rotated (service.hashJti claims.jti)))
    (fun _ => stable_trace (K := fun t => Pair service t s claims.sub _) fun x _ h => h.cons x)
    (fun st _ h => .revoke _ ⟨⟨s, p, q, .session _⟩, h.mem (by simp), rfl, rfl, row.userId, hq⟩)
    (fun st db _ h _ => ?_) (fun _ _ _ _ he => (apply_ne_error (by simp) he).elim)
    fun _ => outline_issuePair claims.sub _
  exact .rotated _ _ _ _ (h.cons_cons _) rfl rfl rfl rfl rfl rfl hactive (huser ▸ hq)

theorem outline_logout (token : String) :
    (contract service).Outline (machine schema Platform.mayBecome) s p (logout service token)
      (fun _ => True) (Contract.returns fun _ _ => True) := by
  refine Protocol.outline_read (R := fun _ _ => True) (fun _ => stable_true)
    (fun _ _ _ _ hn => Option.some.inj hn ▸ trivial) (fun _ _ _ => trivial) fun q => ?_
  refine Protocol.outline_lift fun claims _ => ?_
  refine (outline_active _).seq fun session => ?_
  refine Protocol.outline_lift fun _ hsome => ?_
  obtain ⟨row, hrow⟩ := Option.isSome_iff_exists.mp (require_ok hsome)
  refine Protocol.outline_commit (R := fun _ _ => True) (fun _ => stable_true)
    (fun st _ h => ?_) (fun _ _ _ _ _ => trivial) (fun _ _ _ _ => trivial)
    fun _ _ _ _ => trivial
  obtain ⟨q, hq, hgood⟩ := h row hrow
  exact .revoke _ ⟨_, hq.mem List.mem_cons_self, rfl, rfl, _, hgood⟩

theorem outline_accessUser (token : String) :
    (contract service).Outline (machine schema Platform.mayBecome) s p (accessUser service token)
      (fun _ => True) (Contract.returns fun user st => Entrance service st.trace s token user) := by
  refine Protocol.outline_read (R := fun q st => [⟨s, p, q, .decoded token⟩].Sublist st.trace)
    (fun _ => stable_sublist _) (fun _ _ _ _ hn => Option.some.inj hn ▸ trivial)
    (fun _ _ _ => List.singleton_sublist.mpr List.mem_cons_self) fun q => ?_
  refine Protocol.outline_lift fun claims hclaims => ?_
  refine Protocol.outline_read (R := fun q' st =>
    [⟨s, p, q', .user claims.sub⟩, ⟨s, p, q, .decoded token⟩].Sublist st.trace)
    (fun _ => stable_sublist _) (fun _ _ _ _ hn => Option.some.inj hn ▸ trivial)
    (fun _ _ h => h.cons_cons _) fun q' => ?_
  refine Protocol.outline_lift fun _ hactive => ?_
  exact fun st _ h => ⟨_, _, h, rfl, rfl, rfl, rfl, require_ok hactive, claims,
    decode_ok hclaims, rfl⟩

theorem stable_entrance (token user : String) :
    (contract service).Stable s p fun st => Entrance service st.trace s token user :=
  stable_trace (K := fun t => Entrance service t s token user) fun x _ h => h.cons x

theorem outline_getCurrentUser (authorization : String) :
    (contract service).Outline (machine schema Platform.mayBecome) s p
      (getCurrentUser service authorization) (fun _ => True)
      (Contract.returns fun _ _ => True) := by
  refine Protocol.outline_lift fun token _ => ?_
  refine (outline_accessUser token).seq fun user => ?_
  refine Protocol.outline_read (R := fun _ _ => True) (fun _ => stable_true)
    (fun st _ _ h hn => Option.some.inj hn ▸ h) (fun _ _ _ => trivial) fun _ => ?_
  exact fun _ _ _ => trivial

theorem outline_websocketEndpoint (authorization : String) :
    (contract service).Outline (machine schema Platform.mayBecome) s p
      (websocketEndpoint service s authorization) (fun _ => True)
      (Contract.returns fun _ _ => True) := by
  unfold websocketEndpoint
  cases bearerToken authorization with
  | none => exact fun _ _ _ => trivial
  | some token =>
      refine (outline_accessUser token).attempt.seq fun r => ?_
      cases r with
      | error e => exact fun _ _ _ => trivial
      | ok user =>
          refine Protocol.outline_input (stable_entrance token user) fun _ => ?_
          refine Protocol.outline_commit (R := fun _ _ => True) (fun _ => stable_true)
            (fun st _ h => .register token user h) (fun _ _ _ _ _ => trivial)
            (fun _ _ _ _ => trivial) fun _ => ?_
          refine Protocol.outline_input stable_true fun _ => ?_
          exact Protocol.outline_commit (R := fun _ _ => True) (fun _ => stable_true)
            (fun _ _ _ => .disconnect s) (fun _ _ _ _ _ => trivial)
            (fun _ _ _ _ => trivial) fun _ _ _ _ => trivial

/-- A connection may be sent the event that was published with `e`. -/
def Cleared (t : Trace) (s : Nat) (e : Entry Platform Note Unit) (house : String) (conn : Nat)
    (user : String) : Prop :=
  ∃ m a, [m, a, e].Sublist t ∧ m.session = s ∧ a.session = s ∧ a.note = .active conn user ∧
    a.db.isActive user = true ∧ m.note = .member conn user house ∧
      m.db.permits user house .houseRead = true

theorem Cleared.cons {t : Trace} {e : Entry Platform Note Unit} {house user : String} {conn : Nat}
    (x : Entry Platform Note Unit) (h : Cleared t s e house conn user) :
    Cleared (x :: t) s e house conn user := by
  obtain ⟨m, a, hin, hrest⟩ := h
  exact ⟨m, a, hin.cons x, hrest⟩

/-- What `authorizes_house` comes to, with whatever else is known in front of it. -/
theorem outline_authorizesHouse {e : Entry Platform Note Unit} (event : BusEvent)
    {house user : String} {conn : Nat} {K : Trace → Prop} (hK : ∀ x t, K t → K (x :: t))
    (he : ∀ t, K t → e ∈ t) :
    (contract service).Outline (machine schema Platform.mayBecome) s p
      (authorizesHouse conn user house) (fun st => K st.trace)
      (Contract.returns fun ok st => K st.trace ∧
        (ok = true → Cleared st.trace s e house conn user) ∧
          (ok = false → Turn st.trace s e event house conn user)) := by
  refine Protocol.outline_read
    (R := fun q st => K st.trace ∧ [⟨s, p, q, .active conn user⟩, e].Sublist st.trace)
    (fun _ => (stable_trace hK).and (stable_sublist _))
    (fun _ _ _ _ hn => Option.some.inj hn ▸ trivial)
    (fun st _ h => ⟨hK _ _ h, (List.singleton_sublist.mpr (he _ h)).cons_cons _⟩) fun q => ?_
  cases hactive : q.isActive user with
  | false =>
      simp only [Bool.not_false, if_true]
      exact fun st _ h => ⟨h.1, fun hok => absurd hok Bool.false_ne_true, fun _ =>
        .inactive _ h.2 rfl rfl hactive⟩
  | true =>
      simp only [Bool.not_true, Bool.false_eq_true, if_false]
      refine Protocol.outline_read
        (R := fun q' st => K st.trace ∧
          [⟨s, p, q', .member conn user house⟩, ⟨s, p, q, .active conn user⟩, e].Sublist st.trace)
        (fun _ => (stable_trace hK).and (stable_sublist _))
        (fun _ _ _ _ hn => Option.some.inj hn ▸ trivial)
        (fun st _ h => ⟨hK _ _ h.1, h.2.cons_cons _⟩) fun q' => ?_
      intro st _ h
      refine ⟨h.1, fun hok => ⟨_, _, h.2, rfl, rfl, rfl, hactive, rfl, hok⟩, fun hok => ?_⟩
      exact .forbidden _ (.trans (((List.Sublist.refl _).cons _).cons_cons _) h.2) rfl rfl hok

/-- **The loop**, after the connections of `before`. -/
theorem outline_deliver {q : Platform} {event : BusEvent} {house : String}
    (hhouse : event.houseId = some house) (before rest : List (Nat × String))
    (hall : q.connections.entries = before ++ rest) :
    (contract service).Outline (machine schema Platform.mayBecome) s p (deliver event house rest)
      (fun st => ⟨s, p, q, .published event⟩ ∈ st.trace ∧ ∀ e ∈ before,
        Turn st.trace s ⟨s, p, q, .published event⟩ event house e.1 e.2)
      (Contract.returns fun _ _ => True) := by
  induction rest generalizing before with
  | nil =>
      refine Protocol.outline_read (R := fun _ _ => True) (fun _ => stable_true)
        (fun st _ _ h hn => Option.some.inj hn ▸ ⟨_, h.1, house, rfl, rfl, hhouse, ?_⟩)
        (fun _ _ _ => trivial) fun _ _ _ _ => trivial
      intro conn user hconn
      refine h.2 (conn, user) ?_
      rw [Dict.get?_eq_some, hall, List.append_nil] at hconn
      exact hconn
  | cons next rest ih =>
      obtain ⟨conn, user⟩ := next
      have hconn : q.connections.get? conn = some user :=
        Dict.get?_eq_some.mpr (hall ▸ List.mem_append_right before List.mem_cons_self)
      -- what is known in front of this connection, and when it has had its turn
      let e : Entry Platform Note Unit := ⟨s, p, q, .published event⟩
      let Known (t : Trace) : Prop := e ∈ t ∧ ∀ c ∈ before, Turn t s e event house c.1 c.2
      have hcons : ∀ x t, Known t → Known (x :: t) := fun x t h =>
        ⟨List.mem_cons_of_mem x h.1, fun c hc => (h.2 c hc).cons x⟩
      have hnext : (contract service).Outline (machine schema Platform.mayBecome) s p
          (deliver event house rest) (fun st => Known st.trace ∧
            Turn st.trace s e event house conn user) (Contract.returns fun _ _ => True) := by
        refine (ih (before ++ [(conn, user)]) (by rw [hall, List.append_assoc]; rfl)).pre
          fun st _ h => ⟨h.1.1, fun c hc => ?_⟩
        rcases List.mem_append.mp hc with hc | hc
        · exact h.1.2 c hc
        · rw [List.mem_singleton.mp hc]
          exact h.2
      have hstable : (contract service).Stable s p fun st => Known st.trace ∧
          Turn st.trace s e event house conn user :=
        (stable_trace hcons).and (stable_trace (K := fun t => Turn t s e event house conn user)
          fun x _ h => h.cons x)
      have hfirst : ∀ x t, Known t → [x, e].Sublist (x :: t) := fun x t h =>
        (List.singleton_sublist.mpr h.1).cons_cons x
      refine (outline_authorizesHouse event hcons fun _ h => h.1).seq fun ok => ?_
      cases ok with
      | false => exact hnext.pre fun st _ h => ⟨h.1, h.2.2 rfl⟩
      | true =>
          refine Protocol.outline_input ((stable_trace hcons).and
            ((Contract.Stable.forall fun _ => stable_trace (K := fun t =>
              Cleared t s e house conn user) fun x _ h => h.cons x).and
            (Contract.Stable.forall fun _ => stable_trace (K := fun t =>
              Turn t s e event house conn user) fun x _ h => h.cons x))) fun outcome => ?_
          split
          · refine Protocol.outline_commit_cases (R := fun _ st => Known st.trace ∧
                Turn st.trace s e event house conn user) (fun _ => hstable)
              (fun _ _ _ => .drop conn) (fun st db _ h _ => ?_)
              (fun _ _ _ _ he => (apply_ne_error (by simp) he).elim) fun _ => hnext
            exact ⟨hcons _ _ h.1, .broken _ (hfirst _ _ h.1) rfl rfl⟩
          · refine Protocol.outline_read (R := fun _ st => Known st.trace ∧
                Turn st.trace s e event house conn user) (fun _ => hstable)
              (fun st _ _ h hn => Option.some.inj hn ▸ ?_) (fun st _ h => ?_) fun _ => hnext
            · obtain ⟨m, a, hin, hm, ha, hrest⟩ := h.2.1 rfl
              exact ⟨m, a, e, event, user, house, hin, hm, ha, rfl, rfl, hconn, hhouse, rfl, hrest⟩
            · exact ⟨hcons _ _ h.1, .sent _ (hfirst _ _ h.1) rfl rfl⟩

theorem outline_handleEvent (event : BusEvent) :
    (contract service).Outline (machine schema Platform.mayBecome) s p (handleEvent event)
      (fun _ => True) (Contract.returns fun _ _ => True) := by
  unfold handleEvent
  cases hhouse : event.houseId with
  | none => exact fun _ _ _ => trivial
  | some house =>
      refine Protocol.outline_read (R := fun q st => ⟨s, p, q, .published event⟩ ∈ st.trace)
        (fun _ => Protocol.stable_traced) (fun _ _ _ _ hn => Option.some.inj hn ▸ trivial)
        (fun _ _ _ => List.mem_cons_self) fun q => ?_
      exact (outline_deliver hhouse [] _ rfl).pre fun _ _ h =>
        ⟨h, fun _ he => absurd he List.not_mem_nil⟩

theorem outline_program (call : Call) :
    (contract service).Outline (machine schema Platform.mayBecome) s p (program service s p call)
      (fun _ => True) (fun _ _ => True) := by
  suffices h : (contract service).Outline (machine schema Platform.mayBecome) s p
      (program service s p call) (fun _ => True) (Contract.returns fun _ _ => True) from
    h.post fun _ _ _ _ => trivial
  cases call with
  | login email password => exact (outline_login email password).seq fun _ _ _ _ => trivial
  | refresh token => exact (outline_refresh token).seq fun _ _ _ _ => trivial
  | logout token => exact outline_logout token
  | authenticated authorization =>
      exact (outline_getCurrentUser authorization).seq fun _ _ _ _ => trivial
  | websocket authorization => exact outline_websocketEndpoint authorization
  | event event => exact outline_handleEvent event

/-- **Every trace is lawful**, from a platform without sessions and without connections. -/
theorem trace_lawful (service : Auth.Service) {q : Platform} (hsessions : q.store.sessions = .empty)
    (hconnections : q.connections = .empty) (labels : List Label) :
    Lawful service (trace service q labels) := by
  have hinit : Follows service q [] := by
    refine ⟨fun hash row hrow => ?_, fun i hi => absurd hi List.not_mem_nil,
      fun r hr => absurd hr List.not_mem_nil, fun conn user hconn => ?_⟩
    · rw [hsessions] at hrow
      cases hrow
    · rw [hconnections] at hconn
      cases hconn
  exact (Protocol.run_inv keeps (fun s p call => outline_program call)
    (a := Sql.Store.init q 0) ⟨trivial, hinit⟩ labels).1

end

end KzHome.Live

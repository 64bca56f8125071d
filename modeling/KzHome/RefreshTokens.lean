import KzHome.ControlAuthority
import KzHome.Lib.Dict
import KzHome.Lib.PyText
import KzHome.Lib.Rotation
import KzHome.Lib.Transition

/-!
# KzHome.RefreshTokens

`AuthenticationService`: login, refresh and logout.

A refresh token is good for the session under the hash of its `jti`. `refresh` revokes
the session and issues a pair with a new one; `logout` revokes it. The log of a run has
the sessions as credentials of `Rotation`: the table follows it (`Sound`), so the laws of
rotation hold of the tokens.
-/

namespace KzHome

open Rotation

/-- The type of a token. -/
inductive TokenType
  | access
  | refresh
  deriving DecidableEq, Repr

/-- The claims of a token. -/
structure Claims where
  sub : String
  type : TokenType
  iat : Instant
  exp : Instant
  jti : String
  deriving DecidableEq, Repr

/-- `TokenCodec`: `payload` reads the claims of a token whose signature is right and that has
all required claims. -/
structure TokenCodec where
  encode : Claims → String
  payload : String → Option Claims
  accessMinutes : Nat
  refreshDays : Nat

/-- `PasswordManager` -/
structure PasswordManager where
  verify : String → String → Bool
  dummyHash : String

/-- A row of `users`; emails are normalized. -/
structure Account where
  email : String
  passwordHash : String
  isActive : Bool
  deriving DecidableEq, Repr

/-- A row of `refresh_sessions`. -/
structure RefreshSession where
  userId : String
  expiresAt : Instant
  revokedAt : Option Instant
  deriving DecidableEq, Repr

/-- `AuthenticationError` -/
structure AuthenticationError where
  message : String
  deriving DecidableEq, Repr

/-- The result of `_issue_pair`. -/
structure TokenPair where
  accessToken : String
  refreshToken : String
  expiresIn : Nat
  deriving DecidableEq, Repr

namespace TokenCodec

variable (codec : TokenCodec)

/-- The lifetime of a token. -/
def lifetime : TokenType → Int
  | .access => codec.accessMinutes * 60 * second
  | .refresh => codec.refreshDays * 86400 * second

/-- `issue`, with the `jti` it draws. -/
def issue (subject : String) (type : TokenType) (now : Instant) (jti : String) :
    String × Claims :=
  let claims := ⟨subject, type, now, now + codec.lifetime type, jti⟩
  (codec.encode claims, claims)

/-- `decode`; a token that is issued in the future is refused as well. -/
def decode (token : String) (expected : TokenType) (now : Instant) : Option Claims :=
  (codec.payload token).filter fun claims =>
    claims.iat ≤ now && now < claims.exp && claims.type = expected

end TokenCodec

namespace Auth

/-- The tables. -/
structure Store where
  accounts : Dict String Account
  sessions : Dict String RefreshSession

/-- What the service works with. -/
structure Service where
  codec : TokenCodec
  passwords : PasswordManager
  sha : Sha256
  /-- `str.lower` -/
  lower : String → String

variable (service : Service)

/-- `email.strip().lower()` -/
def Service.normalize (email : String) : String :=
  service.lower (String.ofList (PyText.strip PyText.isSpace email.toList))

/-- `UserRepository.by_email` -/
def Service.byEmail (store : Store) (email : String) : Option (String × Account) :=
  store.accounts.find? fun _ account => account.email = service.normalize email

/-- `hash_jti` -/
def Service.hashJti (jti : String) : String := service.sha.hex jti

/-- `RefreshSessionRepository.active` -/
def active (store : Store) (now : Instant) (hash : String) : Option RefreshSession :=
  (store.sessions.get? hash).filter fun item => item.revokedAt.isNone && now < item.expiresAt

/-- `RefreshSessionRepository.revoke` -/
def revoke (store : Store) (now : Instant) (hash : String) : Store :=
  { store with sessions := store.sessions.modify hash fun item => { item with revokedAt := now } }

/-- `_issue_pair`, with the `jti`s that it draws. -/
def issuePair (store : Store) (user : String) (now : Instant) (accessJti refreshJti : String) :
    TokenPair × Store :=
  let access := service.codec.issue user .access now accessJti
  let refresh := service.codec.issue user .refresh now refreshJti
  (⟨access.1, refresh.1, service.codec.accessMinutes * 60⟩,
    { store with
      sessions := store.sessions.set (service.hashJti refresh.2.jti) ⟨user, refresh.2.exp, none⟩ })

/-- `login` -/
def login (store : Store) (email password : String) (now : Instant)
    (accessJti refreshJti : String) : Except AuthenticationError (TokenPair × Store) :=
  let user := service.byEmail store email
  let hash := (user.map (·.2.passwordHash)).getD service.passwords.dummyHash
  let valid := service.passwords.verify hash password
  match user with
  | none => .error ⟨"Invalid email or password"⟩
  | some user =>
    if !user.2.isActive || !valid then .error ⟨"Invalid email or password"⟩
    else .ok (issuePair service store user.1 now accessJti refreshJti)

/-- `refresh`; the hash is that of the revoked session. -/
def refresh (store : Store) (token : String) (now : Instant) (accessJti refreshJti : String) :
    Except AuthenticationError (String × TokenPair × Store) :=
  match service.codec.decode token .refresh now with
  | none => .error ⟨"Invalid refresh token"⟩
  | some claims =>
    let hash := service.hashJti claims.jti
    match active store now hash, store.accounts.get? claims.sub with
    | some session, some user =>
      if session.userId ≠ claims.sub ∨ !user.isActive then .error ⟨"Invalid refresh token"⟩
      else .ok (hash,
        issuePair service (revoke store now hash) claims.sub now accessJti refreshJti)
    | _, _ => .error ⟨"Invalid refresh token"⟩

/-- `logout` -/
def logout (store : Store) (token : String) (now : Instant) :
    Except AuthenticationError (String × Store) :=
  match service.codec.decode token .refresh now with
  | none => .error ⟨"Invalid refresh token"⟩
  | some claims =>
    let hash := service.hashJti claims.jti
    match active store now hash with
    | none => .error ⟨"Invalid refresh token"⟩
    | some _ => .ok (hash, revoke store now hash)

/-! ### Runs -/

/-- The tables and the clock, with the ghosts: the `jti`s that were issued, the log of sessions,
and the refresh tokens that `refresh` and `logout` have accepted. -/
structure World where
  store : Store
  now : Instant
  issued : List String
  log : List (Rotation.Event String)
  accepted : List String

/-- What happens: requests, with the `jti`s that they draw, the time, and changes of accounts. -/
inductive Label
  | login (email password accessJti refreshJti : String)
  | refresh (token accessJti refreshJti : String)
  | logout (token : String)
  | clock (t : Instant)
  | account (id : String) (row : Account)
  deriving DecidableEq, Repr

/-- `uuid4` does not repeat. -/
def fresh (w : World) (accessJti refreshJti : String) : Bool :=
  accessJti ∉ w.issued ∧ refreshJti ∉ w.issued ∧ accessJti ≠ refreshJti

/-- One request, or one change from outside. -/
def step (w : World) : Label → Option World
  | .login email password accessJti refreshJti =>
    if fresh w accessJti refreshJti then
      match login service w.store email password w.now accessJti refreshJti with
      | .error _ => none
      | .ok r => some { w with
          store := r.2
          issued := accessJti :: refreshJti :: w.issued
          log := .born (service.hashJti refreshJti) :: w.log }
    else none
  | .refresh token accessJti refreshJti =>
    if fresh w accessJti refreshJti then
      match refresh service w.store token w.now accessJti refreshJti with
      | .error _ => none
      | .ok r => some { w with
          store := r.2.2
          issued := accessJti :: refreshJti :: w.issued
          log := .rotated r.1 (service.hashJti refreshJti) :: w.log
          accepted := token :: w.accepted }
    else none
  | .logout token =>
    match logout service w.store token w.now with
    | .error _ => none
    | .ok r => some { w with
        store := r.2
        log := .closed r.1 :: w.log
        accepted := token :: w.accepted }
  | .clock t => if w.now ≤ t then some { w with now := t } else none
  | .account id row => some { w with
      store := { w.store with accounts := w.store.accounts.set id row } }

/-- The service as a transition system; a refused request changes nothing. -/
def system : Transition.System World Label := ⟨step service⟩

/-- Before any session. -/
def World.init (accounts : Dict String Account) (now : Instant) : World :=
  ⟨⟨accounts, .empty⟩, now, [], [], []⟩

/-! ### What requests do -/

section

variable {service : Service} {store store' : Store} {now : Instant} {token hash : String}

theorem active_some {session : RefreshSession} (h : active store now hash = some session) :
    store.sessions.get? hash = some session ∧ session.revokedAt = none ∧
      now < session.expiresAt := by
  obtain ⟨hget, hcond⟩ := Option.filter_eq_some_iff.mp h
  simp only [Bool.and_eq_true, Option.isNone_iff_eq_none, decide_eq_true_eq] at hcond
  exact ⟨hget, hcond⟩

/-- The sessions after a revocation. -/
theorem get?_revoke (h : String) : (revoke store now hash).sessions.get? h =
    if h = hash then (store.sessions.get? h).map fun item => { item with revokedAt := some now }
    else store.sessions.get? h :=
  Dict.get?_modify store.sessions hash h _

/-- The claims of an accepted token, and the session that it was good for. -/
structure Accepts (service : Service) (store : Store) (now : Instant) (token hash : String) :
    Prop where
  claims : ∃ claims, service.codec.payload token = some claims ∧ hash = service.hashJti claims.jti
  session : ∃ session, active store now hash = some session

theorem refresh_ok {accessJti refreshJti : String} {pair : TokenPair}
    (h : refresh service store token now accessJti refreshJti = .ok (hash, pair, store')) :
    Accepts service store now token hash ∧ ∃ claims user,
      service.codec.payload token = some claims ∧ hash = service.hashJti claims.jti ∧
        store.accounts.get? claims.sub = some user ∧ user.isActive = true ∧ now < claims.exp ∧
          store' = (issuePair service (revoke store now hash) claims.sub now accessJti
            refreshJti).2 := by
  unfold refresh at h
  split at h
  · cases h
  · rename_i claims hclaims
    obtain ⟨hpayload, hcond⟩ := Option.filter_eq_some_iff.mp hclaims
    simp only [Bool.and_eq_true, decide_eq_true_eq] at hcond
    obtain ⟨⟨-, hexp⟩, -⟩ := hcond
    dsimp only at h
    split at h
    · rename_i session user hsession huser
      split at h
      · cases h
      · rename_i hcond
        obtain ⟨rfl, -, rfl⟩ := Prod.mk.inj (Except.ok.inj h) |>.imp_right Prod.mk.inj
        simp only [not_or, ne_eq, not_not, Bool.not_eq_true', Bool.not_eq_false] at hcond
        exact ⟨⟨⟨claims, hpayload, rfl⟩, session, hsession⟩, claims, user, hpayload, rfl, huser,
          hcond.2, hexp, rfl⟩
    · cases h

theorem logout_ok (h : logout service store token now = .ok (hash, store')) :
    Accepts service store now token hash ∧ store' = revoke store now hash := by
  unfold logout at h
  split at h
  · cases h
  · rename_i claims hclaims
    dsimp only at h
    split at h
    · cases h
    · rename_i session hsession
      obtain ⟨rfl, rfl⟩ := Prod.mk.inj (Except.ok.inj h)
      exact ⟨⟨⟨claims, (Option.filter_eq_some_iff.mp hclaims).1, rfl⟩, session, hsession⟩, rfl⟩

theorem login_ok {email password accessJti refreshJti : String} {pair : TokenPair}
    (h : login service store email password now accessJti refreshJti = .ok (pair, store')) :
    ∃ user, store' = (issuePair service store user now accessJti refreshJti).2 := by
  unfold login at h
  dsimp only at h
  split at h
  · cases h
  · rename_i user huser
    split at h
    · cases h
    · exact ⟨user.1, (congrArg Prod.snd (Except.ok.inj h)).symm⟩

end

/-! ### The table follows the log -/

/-- The sessions are the credentials of the log, revoked when they are spent; accepted tokens
were good for spent sessions. -/
structure Sound (w : World) : Prop where
  valid : Valid w.log
  rows : ∀ h, (w.store.sessions.get? h).isSome = (origin w.log h).isSome
  revoked : ∀ h row, w.store.sessions.get? h = some row → row.revokedAt.isNone = live w.log h
  issued : ∀ h, (origin w.log h).isSome → ∃ jti ∈ w.issued, h = service.hashJti jti
  spent : ∀ token ∈ w.accepted, ∃ claims, service.codec.payload token = some claims ∧
    ∃ e ∈ w.log, e.spends = some (service.hashJti claims.jti)
  once : w.accepted.Nodup

variable {service} {w w' : World}

/-- A fresh `jti` has a hash without a session. -/
theorem Sound.fresh (h : Sound service w) {jti : String} (hjti : jti ∉ w.issued) :
    origin w.log (service.hashJti jti) = none := by
  rw [← Option.not_isSome_iff_eq_none]
  intro hsome
  obtain ⟨jti', hmem, heq⟩ := h.issued _ hsome
  exact hjti (service.sha.injective _ _ heq ▸ hmem)

/-- An accepted token is good for a live session, and has not been accepted before. -/
theorem Sound.accepts (h : Sound service w) {token hash : String}
    (ha : Accepts service w.store w.now token hash) :
    live w.log hash = true ∧ token ∉ w.accepted := by
  obtain ⟨session, hsession⟩ := ha.session
  obtain ⟨hget, hnone, -⟩ := active_some hsession
  have hlive : live w.log hash = true := by
    rw [← h.revoked hash session hget, hnone]
    rfl
  refine ⟨hlive, fun hmem => ?_⟩
  obtain ⟨claims, hclaims, rfl⟩ := ha.claims
  obtain ⟨claims', hclaims', e, he, hspends⟩ := h.spent token hmem
  obtain rfl := Option.some.inj (hclaims.symm.trans hclaims')
  rw [(dead_of_spent h.valid he hspends).2] at hlive
  cases hlive

/-- A new session; `alive` are the sessions that were unrevoked before. -/
theorem issuePair_follows {store : Store} (user accessJti : String) (now : Instant)
    {refreshJti : String} {log : List (Rotation.Event String)} {e : Rotation.Event String}
    {alive : String → Bool} {r : String}
    (hrows : ∀ h, (store.sessions.get? h).isSome = (origin log h).isSome)
    (hrevoked : ∀ h row, store.sessions.get? h = some row → row.revokedAt.isNone = alive h)
    (horigin : ∀ h, origin (e :: log) h =
      if h = service.hashJti refreshJti then some r else origin log h)
    (hlive : ∀ h, live (e :: log) h =
      if h = service.hashJti refreshJti then true else alive h) :
    let store' := (issuePair service store user now accessJti refreshJti).2
    (∀ h, (store'.sessions.get? h).isSome = (origin (e :: log) h).isSome) ∧
      ∀ h row, store'.sessions.get? h = some row → row.revokedAt.isNone = live (e :: log) h := by
  have hget : ∀ h, ((issuePair service store user now accessJti refreshJti).2.sessions.get? h) =
      if h = service.hashJti refreshJti then
        some ⟨user, now + service.codec.lifetime .refresh, none⟩
      else store.sessions.get? h := fun h => Dict.get?_set_eq _ _ _ _
  refine ⟨fun h => ?_, fun h row hrow => ?_⟩
  · rw [hget, horigin]
    split
    · rfl
    · exact hrows h
  · rw [hget] at hrow
    rw [hlive]
    split at hrow
    · rename_i heq
      obtain rfl := Option.some.inj hrow
      rw [if_pos heq]
      rfl
    · rename_i hne
      rw [if_neg hne]
      exact hrevoked h row hrow

/-- A revocation. -/
theorem Sound.revoke (h : Sound service w) (hash : String) :
    (∀ k, ((revoke w.store w.now hash).sessions.get? k).isSome = (origin w.log k).isSome) ∧
      ∀ k row, (revoke w.store w.now hash).sessions.get? k = some row →
        row.revokedAt.isNone = (k ≠ hash && live w.log k) := by
  refine ⟨fun k => ?_, fun k row hrow => ?_⟩
  · rw [get?_revoke, ← h.rows k]
    split
    · rw [Option.isSome_map]
    · rfl
  · rw [get?_revoke] at hrow
    split at hrow
    · rename_i heq
      obtain ⟨item, -, rfl⟩ := Option.map_eq_some_iff.mp hrow
      simp [heq]
    · rename_i hne
      simp [hne, h.revoked k row hrow]

/-- New identifiers are issued ones. -/
theorem Sound.issued_cons (h : Sound service w) {e : Rotation.Event String}
    {accessJti refreshJti r : String}
    (horigin : ∀ k, origin (e :: w.log) k =
      if k = service.hashJti refreshJti then some r else origin w.log k) :
    ∀ k, (origin (e :: w.log) k).isSome →
      ∃ jti ∈ accessJti :: refreshJti :: w.issued, k = service.hashJti jti := by
  intro k hk
  rw [horigin] at hk
  split at hk
  · rename_i heq
    exact ⟨refreshJti, by simp, heq⟩
  · obtain ⟨jti, hmem, heq⟩ := h.issued k hk
    exact ⟨jti, by simp [hmem], heq⟩

/-- Accepted tokens stay spent. -/
theorem Sound.spent_cons (h : Sound service w) (e : Rotation.Event String) :
    ∀ token ∈ w.accepted, ∃ claims, service.codec.payload token = some claims ∧
      ∃ e' ∈ e :: w.log, e'.spends = some (service.hashJti claims.jti) := by
  intro token hmem
  obtain ⟨claims, hclaims, e', he, hspends⟩ := h.spent token hmem
  exact ⟨claims, hclaims, e', List.mem_cons_of_mem _ he, hspends⟩

/-- An accepted token is spent by the event that is logged. -/
theorem Sound.spent_accepted (h : Sound service w) {e : Rotation.Event String} {token hash : String}
    (ha : Accepts service w.store w.now token hash) (he : e.spends = some hash) :
    ∀ token' ∈ token :: w.accepted, ∃ claims, service.codec.payload token' = some claims ∧
      ∃ e' ∈ e :: w.log, e'.spends = some (service.hashJti claims.jti) := by
  intro token' hmem
  rcases List.mem_cons.mp hmem with rfl | hmem
  · obtain ⟨claims, hclaims, rfl⟩ := ha.claims
    exact ⟨claims, hclaims, e, List.mem_cons_self, he⟩
  · exact h.spent_cons e token' hmem

theorem Sound.init (accounts : Dict String Account) (now : Instant) :
    Sound service (World.init accounts now) where
  valid := trivial
  rows _ := rfl
  revoked _ _ hrow := by cases hrow
  issued _ hsome := by cases hsome
  spent _ hmem := by cases hmem
  once := List.nodup_nil

/-- **Every step keeps the table and the log together.** -/
theorem Sound.step (h : Sound service w) {l : Label} (hs : Auth.step service w l = some w') :
    Sound service w' := by
  cases l with
  | login email password accessJti refreshJti =>
      simp only [Auth.step] at hs
      split at hs
      · rename_i hfresh
        simp only [Auth.fresh, decide_eq_true_eq] at hfresh
        split at hs
        · cases hs
        · rename_i r hr
          obtain rfl := Option.some.inj hs
          obtain ⟨pair, store'⟩ := r
          obtain ⟨user, rfl⟩ := login_ok hr
          have hnew := h.fresh hfresh.2.1
          have horigin : ∀ k, origin (.born (service.hashJti refreshJti) :: w.log) k =
              if k = service.hashJti refreshJti then some (service.hashJti refreshJti)
              else origin w.log k := fun _ => rfl
          obtain ⟨hrows, hrevoked⟩ :=
            issuePair_follows user accessJti w.now h.rows h.revoked horigin
            fun k => by
              simp only [live]
              split <;> simp_all
          exact ⟨⟨hnew, h.valid⟩, hrows, hrevoked, h.issued_cons horigin, h.spent_cons _, h.once⟩
      · cases hs
  | refresh token accessJti refreshJti =>
      simp only [Auth.step] at hs
      split at hs
      · rename_i hfresh
        simp only [Auth.fresh, decide_eq_true_eq] at hfresh
        split at hs
        · cases hs
        · rename_i r hr
          obtain rfl := Option.some.inj hs
          obtain ⟨hash, pair, store'⟩ := r
          obtain ⟨ha, claims, user, -, -, -, -, -, rfl⟩ := refresh_ok hr
          obtain ⟨hlive, hnew⟩ := h.accepts ha
          obtain ⟨o, ho⟩ := Option.isSome_iff_exists.mp (origin_of_live h.valid hlive)
          have horigin : ∀ k, origin (.rotated hash (service.hashJti refreshJti) :: w.log) k =
              if k = service.hashJti refreshJti then some o else origin w.log k := by
            intro k
            simp only [origin, ho]
          obtain ⟨hr₁, hr₂⟩ := h.revoke hash
          obtain ⟨hrows, hrevoked⟩ := issuePair_follows claims.sub accessJti w.now hr₁ hr₂ horigin
            fun k => by
              simp only [live]
              split <;> simp_all
          exact ⟨⟨hlive, h.fresh hfresh.2.1, h.valid⟩, hrows, hrevoked, h.issued_cons horigin,
            h.spent_accepted ha rfl, List.nodup_cons.mpr ⟨hnew, h.once⟩⟩
      · cases hs
  | logout token =>
      simp only [Auth.step] at hs
      split at hs
      · cases hs
      · rename_i r hr
        obtain rfl := Option.some.inj hs
        obtain ⟨hash, store'⟩ := r
        obtain ⟨ha, rfl⟩ := logout_ok hr
        obtain ⟨hlive, hnew⟩ := h.accepts ha
        obtain ⟨hrows, hrevoked⟩ := h.revoke hash
        exact ⟨⟨hlive, h.valid⟩, hrows, hrevoked, h.issued, h.spent_accepted ha rfl,
          List.nodup_cons.mpr ⟨hnew, h.once⟩⟩
  | clock t =>
      simp only [Auth.step] at hs
      split at hs
      · obtain rfl := Option.some.inj hs
        exact ⟨h.valid, h.rows, h.revoked, h.issued, h.spent, h.once⟩
      · cases hs
  | account id row =>
      obtain rfl := Option.some.inj hs
      exact ⟨h.valid, h.rows, h.revoked, h.issued, h.spent, h.once⟩

/-- Logs grow. -/
theorem step_log {l : Label} (hs : step service w l = some w') {e : Rotation.Event String}
    (he : e ∈ w.log) : e ∈ w'.log := by
  cases l with
  | login email password accessJti refreshJti =>
      simp only [step] at hs
      split at hs
      · split at hs
        · cases hs
        · obtain rfl := Option.some.inj hs
          exact List.mem_cons_of_mem _ he
      · cases hs
  | refresh token accessJti refreshJti =>
      simp only [step] at hs
      split at hs
      · split at hs
        · cases hs
        · obtain rfl := Option.some.inj hs
          exact List.mem_cons_of_mem _ he
      · cases hs
  | logout token =>
      simp only [step] at hs
      split at hs
      · cases hs
      · obtain rfl := Option.some.inj hs
        exact List.mem_cons_of_mem _ he
  | clock t =>
      simp only [step] at hs
      split at hs
      · obtain rfl := Option.some.inj hs
        exact he
      · cases hs
  | account id row =>
      obtain rfl := Option.some.inj hs
      exact he

/-! ### Linear rotation -/

variable (service)

/-- After a run. -/
def after (accounts : Dict String Account) (now : Instant) (labels : List Label) : World :=
  (system service).run (World.init accounts now) labels

theorem after_sound (accounts : Dict String Account) (now : Instant) (labels : List Label) :
    Sound service (after service accounts now labels) :=
  (system service).invariant (fun _ _ _ h hs => h.step hs) (Sound.init accounts now) labels

theorem after_log (accounts : Dict String Account) (now : Instant) (labels more : List Label)
    {e : Rotation.Event String} (he : e ∈ (after service accounts now labels).log) :
    e ∈ (after service accounts now (labels ++ more)).log := by
  unfold after
  rw [Transition.System.run_append]
  exact (system service).related (P := fun _ => True) (R := fun a b => e ∈ a.log → e ∈ b.log)
    (fun _ h => h) (fun _ _ _ hab hbc h => hbc (hab h)) (fun _ _ _ _ _ => trivial)
    (fun _ _ _ _ hs => step_log hs) trivial more he

/-- A session that is there and not revoked. -/
def Unrevoked (w : World) (hash : String) : Prop :=
  ∃ row, w.store.sessions.get? hash = some row ∧ row.revokedAt = none

/-- `refresh` accepts a token, with some `jti`s for the new pair. -/
def Refreshes (w : World) (token : String) : Prop :=
  ∃ accessJti refreshJti r, refresh service w.store token w.now accessJti refreshJti = .ok r

/-- `logout` accepts a token. -/
def LogsOut (w : World) (token : String) : Prop :=
  ∃ r, logout service w.store token w.now = .ok r

/-- The token of some claims was rotated or logged out, it or its session has expired, or it is
that of a user who is not active. -/
inductive Unusable (w : World) (claims : Claims) : Prop
  | rotated (new : String) (h : .rotated (service.hashJti claims.jti) new ∈ w.log)
  | closed (h : .closed (service.hashJti claims.jti) ∈ w.log)
  | expired (row : RefreshSession)
      (h : w.store.sessions.get? (service.hashJti claims.jti) = some row)
      (hexpired : row.expiresAt ≤ w.now)
  | overdue (h : claims.exp ≤ w.now)
  | inactive (h : ∀ user, w.store.accounts.get? claims.sub = some user → user.isActive = false)

variable {service}

/-- An accepted token is that of a live session. -/
theorem Sound.live_of_accepts (h : Sound service w) {token : String} {claims : Claims}
    (hclaims : service.codec.payload token = some claims)
    (ha : Refreshes service w token ∨ LogsOut service w token) :
    live w.log (service.hashJti claims.jti) = true := by
  have haccepts : ∃ hash, Accepts service w.store w.now token hash := by
    rcases ha with ⟨accessJti, refreshJti, ⟨hash, pair, store'⟩, hr⟩ | ⟨⟨hash, store'⟩, hr⟩
    · exact ⟨hash, (refresh_ok hr).1⟩
    · exact ⟨hash, (logout_ok hr).1⟩
  obtain ⟨hash, ha⟩ := haccepts
  obtain ⟨claims', hclaims', rfl⟩ := ha.claims
  obtain rfl := Option.some.inj (hclaims.symm.trans hclaims')
  exact (h.accepts ha).1

theorem Sound.not_refreshes (h : Sound service w) {token : String} {claims : Claims}
    (hclaims : service.codec.payload token = some claims) (hu : Unusable service w claims) :
    ¬ Refreshes service w token := by
  intro hr
  have hlive := h.live_of_accepts hclaims (Or.inl hr)
  obtain ⟨accessJti, refreshJti, ⟨hash, pair, store'⟩, hr⟩ := hr
  obtain ⟨ha, claims', user, hclaims', hhash, huser, hactive, hexp, -⟩ := refresh_ok hr
  obtain rfl := Option.some.inj (hclaims.symm.trans hclaims')
  cases hu with
  | rotated new hmem =>
      rw [(dead_of_spent h.valid hmem rfl).2] at hlive
      cases hlive
  | closed hmem =>
      rw [(dead_of_spent h.valid hmem rfl).2] at hlive
      cases hlive
  | expired row hrow hexpired =>
      obtain ⟨session, hsession⟩ := ha.session
      obtain ⟨hget, -, hlater⟩ := active_some hsession
      rw [hhash] at hget
      obtain rfl := Option.some.inj (hrow.symm.trans hget)
      exact absurd hexpired (Int.not_le.mpr hlater)
  | overdue hover => exact absurd hover (Int.not_le.mpr hexp)
  | inactive hinactive =>
      rw [hinactive user huser] at hactive
      cases hactive

/-- **Refresh tokens rotate linearly.** After every run of logins, refreshes and logouts: no
token was accepted twice; of the sessions that go back to one login at most one is unrevoked;
a token that was rotated or logged out, has expired or is an inactive user's is not refreshed;
and once a session was logged out, no token that goes back to the same login is accepted. -/
theorem tokens_rotate (service : Service) (accounts : Dict String Account) (now : Instant)
    (labels more : List Label) :
    let earlier := after service accounts now labels
    let w := after service accounts now (labels ++ more)
    w.accepted.Nodup ∧
      (∀ login a b, origin w.log a = some login → origin w.log b = some login →
        Unrevoked w a → Unrevoked w b → a = b) ∧
      (∀ token claims, service.codec.payload token = some claims → Unusable service w claims →
        ¬ Refreshes service w token) ∧
      ∀ hash, .closed hash ∈ earlier.log → ∀ token claims,
        service.codec.payload token = some claims →
          origin w.log (service.hashJti claims.jti) = origin w.log hash →
            ¬ Refreshes service w token ∧ ¬ LogsOut service w token := by
  intro earlier w
  have h : Sound service w := after_sound service accounts now (labels ++ more)
  have hlive : ∀ a, Unrevoked w a → live w.log a = true := by
    rintro a ⟨row, hrow, hnone⟩
    rw [← h.revoked a row hrow, hnone]
    rfl
  refine ⟨h.once, ?_, fun token claims => h.not_refreshes, ?_⟩
  · intro login a b ha hb hua hub
    exact live_unique h.valid (hlive a hua) (hlive b hub) (ha.trans hb.symm)
  · intro hash hclosed token claims hclaims horigin
    have hdead := dead_of_closed h.valid (after_log service accounts now labels more hclosed)
      horigin
    refine ⟨fun hr => ?_, fun hr => ?_⟩
    · rw [h.live_of_accepts hclaims (Or.inl hr)] at hdead
      cases hdead
    · rw [h.live_of_accepts hclaims (Or.inr hr)] at hdead
      cases hdead

/-- Tokens that are their identifiers, good for a day; the password is the hash. -/
def household : Service where
  codec :=
    { encode := fun claims => claims.jti
      payload := fun token => some ⟨"ann", .refresh, 0, 86400 * second, token⟩
      accessMinutes := 15
      refreshDays := 1 }
  passwords := ⟨fun hash password => hash = password, ""⟩
  sha := ⟨id, fun _ _ h => h⟩
  lower := id

example : (after household ⟨[("ann", ⟨"ann@home", "secret", true⟩)], by decide⟩ 0
    [.login "ann@home" "secret" "a1" "r1", .refresh "r1" "a2" "r2", .refresh "r1" "a3" "r3",
      .logout "r2", .refresh "r2" "a4" "r4"]).accepted = ["r2", "r1"] := by rfl

end Auth

end KzHome

import KzHome.Attempts
import KzHome.Lib.SqlRules

/-!
# KzHome.AttemptRules

The rules that the requests on provisioning attempts keep to.

`Commits` lists the transactions that may commit, each with what its session knows of the rows
that it has locked, and `Notes` the refusals that may be noted. What a commit makes of the
attempts is put together from two statements: an attempt is settled (`Rows.settle`) or inserted
(`Rows.insert`). Both keep the invariant, and leave terminal rows as they are (`Kept`).
-/

namespace KzHome.Provisioning

open Session Sql

/-- The database of the requests. -/
abbrev Shared := Store Tables TableRow ProvisioningNote String

/-- An answer with its moment. -/
abbrev Answer := Entry Tables ProvisioningNote String

/-! ### What stays of the attempts -/

/-- Rows stay, with their identity, and terminal rows stay as they are. -/
def Kept (t t' : Tables) : Prop :=
  ∀ id row, t.attempts.get? id = some row → ∃ row', t'.attempts.get? id = some row' ∧
    row'.identity = row.identity ∧ (row.status ≠ .discovered → row' = row)

theorem Kept.refl (t : Tables) : Kept t t := fun _ row h => ⟨row, h, rfl, fun _ => rfl⟩

theorem Kept.trans (a b c : Tables) (h : Kept a b) (k : Kept b c) : Kept a c := by
  intro id row hrow
  obtain ⟨row', hrow', hid, hsame⟩ := h id row hrow
  obtain ⟨row'', hrow'', hid', hsame'⟩ := k id row' hrow'
  refine ⟨row'', hrow'', hid'.trans hid, fun hterminal => ?_⟩
  obtain rfl := hsame hterminal
  exact hsame' hterminal

/-- A discovered row is written. -/
theorem Kept.of_becomes {t t' : Tables} {id : String} {row row' : AttemptRow}
    (hget : t.attempts.get? id = some row) (hdiscovered : row.status = .discovered)
    (hid : row'.identity = row.identity) (h : t.Becomes id row' t') : Kept t t' := by
  intro k r hr
  by_cases hk : k = id
  · subst hk
    obtain rfl := Option.some.inj (hget.symm.trans hr)
    exact ⟨row', h.self, hid, fun hterminal => absurd hdiscovered hterminal⟩
  · exact ⟨r, (h.others hk).trans hr, rfl, fun _ => rfl⟩

theorem Kept.of_inserted {t t' : Tables} {id : String} {row : AttemptRow}
    (hissued : ∀ k r, t.attempts.get? k = some r → k ∈ t.issued) (hid : id ∉ t.issued)
    (hrows : ∀ k, t'.attempts.get? k = if k = id then some row else t.attempts.get? k) :
    Kept t t' := by
  intro k r hr
  refine ⟨r, ?_, rfl, fun _ => rfl⟩
  rw [hrows, if_neg]
  · exact hr
  · rintro rfl
    exact hid (hissued _ r hr)

/-! ### The invariant of the attempts -/

section

variable {seen : Instant → Prop} {begun : String → AttemptRow → Prop} {t t' : Tables}

/-- The attempts in a database: `seen` are the expiries that have been observed, `begun` the rows
that a request has begun, and `now` is the clock. -/
structure Rows (seen : Instant → Prop) (begun : String → AttemptRow → Prop) (now : Instant)
    (t : Tables) : Prop where
  sound : ∀ id row, t.attempts.get? id = some row → row.Sound
  created : ∀ id row, t.attempts.get? id = some row → row.createdAt ≤ now
  issued : ∀ id row, t.attempts.get? id = some row → id ∈ t.issued
  keys : ∀ id id' row row', t.attempts.get? id = some row → t.attempts.get? id' = some row' →
    row.houseId = row'.houseId → row.actorId = row'.actorId →
    row.createKeyHash = row'.createKeyHash → id = id'
  active : ∀ id id' row row', t.attempts.get? id = some row → t.attempts.get? id' = some row' →
    row.deviceId = row'.deviceId → row.status = .discovered → row'.status = .discovered → id = id'
  observed : ∀ id row, t.attempts.get? id = some row → row.status = .expired → seen row.expiresAt
  begun : ∀ id row, t.attempts.get? id = some row → begun id row.identity

/-- What two rows of one identity share. -/
theorem identity_inj {row row' : AttemptRow} (h : row'.identity = row.identity) :
    row'.houseId = row.houseId ∧ row'.actorId = row.actorId ∧
      row'.createKeyHash = row.createKeyHash ∧ row'.deviceId = row.deviceId ∧
      row'.createdAt = row.createdAt ∧ row'.expiresAt = row.expiresAt ∧
      row'.requestHash = row.requestHash := by
  have hhouse := congrArg AttemptRow.houseId h
  have hactor := congrArg AttemptRow.actorId h
  have hkey := congrArg AttemptRow.createKeyHash h
  have hdevice := congrArg AttemptRow.deviceId h
  have hcreated := congrArg AttemptRow.createdAt h
  have hexpires := congrArg AttemptRow.expiresAt h
  have hrequest := congrArg AttemptRow.requestHash h
  exact ⟨hhouse, hactor, hkey, hdevice, hcreated, hexpires, hrequest⟩

theorem Rows.mono {seen' : Instant → Prop} {begun' : String → AttemptRow → Prop}
    {now now' : Instant} (h : Rows seen begun now t) (hseen : ∀ x, seen x → seen' x)
    (hbegun : ∀ id row, begun id row → begun' id row) (hnow : now ≤ now') :
    Rows seen' begun' now' t where
  sound := h.sound
  created id row hrow := Int.le_trans (h.created id row hrow) hnow
  issued := h.issued
  keys := h.keys
  active := h.active
  observed id row hrow hexpired := hseen _ (h.observed id row hrow hexpired)
  begun id row hrow := hbegun _ _ (h.begun id row hrow)

theorem Rows.same {now : Instant} (h : Rows seen begun now t)
    (hattempts : ∀ k, t.attempts.get? k = t'.attempts.get? k)
    (hissued : ∀ id ∈ t.issued, id ∈ t'.issued) : Rows seen begun now t' where
  sound id row hrow := h.sound id row ((hattempts id).trans hrow)
  created id row hrow := h.created id row ((hattempts id).trans hrow)
  issued id row hrow := hissued id (h.issued id row ((hattempts id).trans hrow))
  keys id id' row row' hrow hrow' :=
    h.keys id id' row row' ((hattempts id).trans hrow) ((hattempts id').trans hrow')
  active id id' row row' hrow hrow' :=
    h.active id id' row row' ((hattempts id).trans hrow) ((hattempts id').trans hrow')
  observed id row hrow := h.observed id row ((hattempts id).trans hrow)
  begun id row hrow := h.begun id row ((hattempts id).trans hrow)

/-- Every row has the identity of a row from before. -/
def Stems (t t' : Tables) : Prop :=
  ∀ id row, t'.attempts.get? id = some row →
    ∃ row₀, t.attempts.get? id = some row₀ ∧ row.identity = row₀.identity

theorem Stems.refl (t : Tables) : Stems t t := fun _ row h => ⟨row, h, rfl⟩

theorem Stems.of_becomes {id : String} {row row' : AttemptRow}
    (hget : t.attempts.get? id = some row) (hid : row'.identity = row.identity)
    (h : t.Becomes id row' t') : Stems t t' := by
  intro k r hr
  by_cases hk : k = id
  · subst hk
    obtain rfl := Option.some.inj (h.self.symm.trans hr)
    exact ⟨row, hget, hid⟩
  · exact ⟨r, (h.others hk).symm.trans hr, rfl⟩

/-- A discovered row that is written with its identity, and is no longer discovered. -/
theorem Rows.settle {now : Instant} {id : String} {row row' : AttemptRow}
    (h : Rows seen begun now t) (hget : t.attempts.get? id = some row)
    (hid : row'.identity = row.identity) (hsound : row'.Sound) (hterminal : row'.status ≠ .discovered)
    (hseen : row'.status = .expired → seen row.expiresAt) (hrows : t.Becomes id row' t') :
    Rows seen begun now t' := by
  have hstems : Stems t t' := .of_becomes hget hid hrows
  -- a row that is not the written one was there before
  have hold : ∀ k r, t'.attempts.get? k = some r → (k = id ∧ r = row') ∨
      t.attempts.get? k = some r := by
    intro k r hr
    by_cases hk : k = id
    · subst hk
      exact Or.inl ⟨rfl, Option.some.inj (hr.symm.trans hrows.self)⟩
    · exact Or.inr ((hrows.others hk).symm.trans hr)
  have hactive : ∀ k r, t'.attempts.get? k = some r → r.status = .discovered →
      t.attempts.get? k = some r := by
    intro k r hr hdiscovered
    rcases hold k r hr with ⟨-, rfl⟩ | hr
    · exact absurd hdiscovered hterminal
    · exact hr
  constructor
  · intro k r hr
    rcases hold k r hr with ⟨-, rfl⟩ | hr
    · exact hsound
    · exact h.sound k r hr
  · intro k r hr
    obtain ⟨r₀, hr₀, hsame⟩ := hstems k r hr
    rw [(identity_inj hsame).2.2.2.2.1]
    exact h.created k r₀ hr₀
  · intro k r hr
    obtain ⟨r₀, hr₀, -⟩ := hstems k r hr
    rw [hrows.issued]
    exact h.issued k r₀ hr₀
  · intro k k' r r' hr hr' hhouse hactor hkey
    obtain ⟨r₀, hr₀, hsame⟩ := hstems k r hr
    obtain ⟨r₀', hr₀', hsame'⟩ := hstems k' r' hr'
    have hs := identity_inj hsame
    have hs' := identity_inj hsame'
    exact h.keys k k' r₀ r₀' hr₀ hr₀' (hs.1.symm.trans (hhouse.trans hs'.1))
      (hs.2.1.symm.trans (hactor.trans hs'.2.1)) (hs.2.2.1.symm.trans (hkey.trans hs'.2.2.1))
  · intro k k' r r' hr hr' hdevice hdiscovered hdiscovered'
    exact h.active k k' r r' (hactive k r hr hdiscovered) (hactive k' r' hr' hdiscovered') hdevice
      hdiscovered hdiscovered'
  · intro k r hr hexpired
    rcases hold k r hr with ⟨-, rfl⟩ | hr
    · rw [(identity_inj hid).2.2.2.2.2.1]
      exact hseen hexpired
    · exact h.observed k r hr hexpired
  · intro k r hr
    obtain ⟨r₀, hr₀, hsame⟩ := hstems k r hr
    rw [hsame]
    exact h.begun k r₀ hr₀

/-- A new row. -/
theorem Rows.insert {now : Instant} {id : String} {row : AttemptRow} (h : Rows seen begun now t)
    (hkey : ∀ k r, t.attempts.get? k = some r → r.houseId = row.houseId →
      r.actorId = row.actorId → r.createKeyHash ≠ row.createKeyHash)
    (hdevice : ∀ k r, t.attempts.get? k = some r → r.deviceId = row.deviceId →
      r.status ≠ .discovered)
    (hsound : row.Sound) (hcreated : row.createdAt ≤ now) (hdiscovered : row.status = .discovered)
    (hbegun : begun id row.identity) (hissued : t'.issued = id :: t.issued)
    (hrows : ∀ k, t'.attempts.get? k = if k = id then some row else t.attempts.get? k) :
    Rows seen begun now t' := by
  have hold : ∀ k r, t'.attempts.get? k = some r →
      (k = id ∧ r = row) ∨ t.attempts.get? k = some r := by
    intro k r hr
    rw [hrows] at hr
    by_cases hk : k = id
    · rw [if_pos hk] at hr
      exact Or.inl ⟨hk, (Option.some.inj hr).symm⟩
    · rw [if_neg hk] at hr
      exact Or.inr hr
  constructor
  · intro k r hr
    rcases hold k r hr with ⟨-, rfl⟩ | hr
    · exact hsound
    · exact h.sound k r hr
  · intro k r hr
    rcases hold k r hr with ⟨-, rfl⟩ | hr
    · exact hcreated
    · exact h.created k r hr
  · intro k r hr
    rw [hissued]
    rcases hold k r hr with ⟨rfl, -⟩ | hr
    · exact List.mem_cons_self
    · exact List.mem_cons_of_mem _ (h.issued k r hr)
  · intro k k' r r' hr hr' hhouse hactor hhash
    rcases hold k r hr with ⟨rfl, rfl⟩ | hr <;> rcases hold k' r' hr' with ⟨rfl, rfl⟩ | hr'
    · rfl
    · exact absurd hhash.symm (hkey k' r' hr' hhouse.symm hactor.symm)
    · exact absurd hhash (hkey k r hr hhouse hactor)
    · exact h.keys k k' r r' hr hr' hhouse hactor hhash
  · intro k k' r r' hr hr' hsame hd hd'
    rcases hold k r hr with ⟨rfl, rfl⟩ | hr <;> rcases hold k' r' hr' with ⟨rfl, rfl⟩ | hr'
    · rfl
    · exact absurd hd' (hdevice k' r' hr' hsame.symm)
    · exact absurd hd (hdevice k r hr hsame)
    · exact h.active k k' r r' hr hr' hsame hd hd'
  · intro k r hr hexpired
    rcases hold k r hr with ⟨-, rfl⟩ | hr
    · rw [hdiscovered] at hexpired
      cases hexpired
    · exact h.observed k r hr hexpired
  · intro k r hr
    rcases hold k r hr with ⟨rfl, rfl⟩ | hr
    · exact hbegun
    · exact h.begun k r hr

/-! ### Transactions -/

theorem writes_append (w w' : List Statement) :
    t.writes (w ++ w') = (t.writes w).bind fun t₁ => t₁.writes w' := by
  induction w generalizing t with
  | nil => rfl
  | cons x w ih =>
      rw [List.cons_append, Tables.writes, Tables.writes]
      cases t.write x with
      | error e => rfl
      | ok t₁ => exact ih

/-- The attempts after an expiry was noted, or not. -/
theorem writes_ages {id : String} {row : AttemptRow} {now : Instant}
    (hget : t.attempts.get? id = some row) (h : t.writes (ages id row now) = .ok t') :
    t.Becomes id (row.aged now) t' := by
  unfold ages at h
  unfold AttemptRow.aged
  by_cases hover : row.Overdue now
  · rw [if_pos hover, Tables.writes_singleton] at h
    obtain ⟨row₀, hget₀, -, hrows⟩ := Tables.settling_ok h
    obtain rfl := Option.some.inj (hget.symm.trans hget₀)
    rw [if_pos hover]
    exact hrows
  · rw [if_neg hover] at h
    obtain rfl := Except.ok.inj h
    rw [if_neg hover]
    exact .refl hget

/-- An expiry can always be noted. -/
theorem writes_ages_total {id : String} {row : AttemptRow} (hsound : row.Sound)
    (hget : t.attempts.get? id = some row) (now : Instant) :
    ∃ t', t.writes (ages id row now) = .ok t' := by
  unfold ages
  by_cases hover : row.Overdue now
  · rw [if_pos hover, Tables.writes_singleton]
    exact Tables.settling_total hget hover.1 (hsound.fresh hover.1).1 fun _ h => by cases h
  · rw [if_neg hover]
    exact ⟨t, rfl⟩

theorem Kept.of_aged {id : String} {row : AttemptRow} {now : Instant}
    (hget : t.attempts.get? id = some row) (h : t.Becomes id (row.aged now) t') : Kept t t' := by
  by_cases hover : row.Overdue now
  · exact .of_becomes hget hover.1 AttemptRow.identity_aged h
  · have haged : row.aged now = row := if_neg hover
    rw [haged] at h
    intro k r hr
    by_cases hk : k = id
    · subst hk
      obtain rfl := Option.some.inj (hget.symm.trans hr)
      exact ⟨row, h.self, rfl, fun _ => rfl⟩
    · exact ⟨r, (h.others hk).trans hr, rfl, fun _ => rfl⟩

theorem Rows.age {clock now : Instant} {id : String} {row : AttemptRow}
    (h : Rows seen begun clock t) (hget : t.attempts.get? id = some row)
    (hseen : ∀ x, x ≤ now → seen x) (hrows : t.Becomes id (row.aged now) t') :
    Rows seen begun clock t' := by
  by_cases hover : row.Overdue now
  · have haged : row.aged now = row.settled .expired none := if_pos hover
    have hid : (row.settled .expired none).identity = row.identity := rfl
    have hterminal : (row.settled .expired none).status ≠ .discovered := fun heq => by cases heq
    rw [haged] at hrows
    exact h.settle hget hid ((h.sound id row hget).settle_expired hover.1) hterminal
      (fun _ => hseen _ hover.2) hrows
  · have haged : row.aged now = row := if_neg hover
    rw [haged] at hrows
    refine h.same (fun k => ?_) fun k hk => hrows.issued ▸ hk
    by_cases hk : k = id
    · rw [hk, hrows.self, hget]
    · exact (hrows.others hk).symm

/-- The active attempt makes way for a new one. -/
inductive Cleared (active : Option (String × AttemptRow)) (now : Instant) (t t' : Tables) : Prop
  | nobody (hactive : active = none) (hsame : t' = t)
  | aged (id : String) (row : AttemptRow) (hactive : active = some (id, row))
      (hrows : t.Becomes id (row.aged now) t')

theorem writes_clears {now : Instant} {active : Option (String × AttemptRow)}
    (hget : ∀ e, active = some e → t.attempts.get? e.1 = some e.2)
    (hw : t.writes (clears active now) = .ok t') : Cleared active now t t' := by
  cases active with
  | none => exact .nobody rfl (Except.ok.inj hw).symm
  | some e =>
      have hclears : clears (some e) now = ages e.1 e.2 now := by simp [clears]
      rw [hclears] at hw
      exact .aged e.1 e.2 rfl (writes_ages (hget e rfl) hw)

section

variable {clock now : Instant} {active : Option (String × AttemptRow)}

theorem Rows.clear (h : Rows seen begun clock t)
    (hget : ∀ e, active = some e → t.attempts.get? e.1 = some e.2)
    (hseen : ∀ x, x ≤ now → seen x) (hcleared : Cleared active now t t') :
    Rows seen begun clock t' := by
  cases hcleared with
  | nobody hactive hsame => exact hsame ▸ h
  | aged id row hactive hrows => exact h.age (hget (id, row) hactive) hseen hrows

theorem Cleared.kept (hget : ∀ e, active = some e → t.attempts.get? e.1 = some e.2)
    (hcleared : Cleared active now t t') : Kept t t' := by
  cases hcleared with
  | nobody hactive hsame => exact hsame ▸ .refl t
  | aged id row hactive hrows => exact .of_aged (hget (id, row) hactive) hrows

theorem Cleared.stems (hget : ∀ e, active = some e → t.attempts.get? e.1 = some e.2)
    (hcleared : Cleared active now t t') : Stems t t' := by
  cases hcleared with
  | nobody hactive hsame => exact hsame ▸ .refl t
  | aged id row hactive hrows =>
      exact .of_becomes (hget (id, row) hactive) AttemptRow.identity_aged hrows

theorem Cleared.rest (hcleared : Cleared active now t t') :
    t'.issued = t.issued ∧ t'.users = t.users := by
  cases hcleared with
  | nobody hactive hsame => exact hsame ▸ ⟨rfl, rfl⟩
  | aged id row hactive hrows => exact ⟨hrows.issued, hrows.users⟩

theorem Cleared.others (hcleared : Cleared active now t t') {k : String}
    (hk : ∀ e, active = some e → e.1 ≠ k) : t'.attempts.get? k = t.attempts.get? k := by
  cases hcleared with
  | nobody hactive hsame => rw [hsame]
  | aged id row hactive hrows => exact hrows.others (hk (id, row) hactive).symm

end

end

/-! ### The rules -/

section

variable (sha : Sha256)

/-- A request has looked at the clock at the instant or later. -/
def Seen (st : Shared) (x : Instant) : Prop :=
  ∃ e ∈ st.trace, ∃ request now reply,
    e.note = .answered request (some now) reply ∧ x ≤ now ∧ now ∈ st.readings

/-- A request of the actor has begun the attempt. -/
def Begun (st : Shared) (id : String) (row : AttemptRow) : Prop :=
  ∃ e ∈ st.trace, ∃ data key, e.owner = row.actorId ∧
    e.note = .answered (.create row.houseId data key) (some row.createdAt) (.ok (row.shown id)) ∧
    row.createKeyHash = sha.hex key ∧ row.requestHash = bodyHash sha data

/-- The entry cancels the attempt. -/
def cancelsNow (id : String) (e : Answer) : Bool :=
  match e.note with
  | .answered (.cancel _ session _ _) _ (.ok _) =>
    session = id && (e.db.attempts.get? id).any fun row => row.status = .discovered
  | _ => false

/-- The invariant of the attempts. -/
structure Inv (st : Shared) : Prop where
  rows : Rows (Seen st) (Begun sha st) st.clock st.db
  once : ∀ id, st.trace.countP (cancelsNow id) ≤ 1
  terminal : ∀ id, 0 < st.trace.countP (cancelsNow id) →
    ∃ row, st.db.attempts.get? id = some row ∧ row.status ≠ .discovered

/-- The request is about the attempt. -/
def Meets (p id : String) (row : AttemptRow) : ProvisioningRequest → Prop
  | .create house _ key => keyed sha house p key id row = true
  | .get house session | .cancel house session _ _ => session = id ∧ row.houseId = house
  | .claim _ _ => False

/-- The requests that tell of an attempt what it has become. -/
inductive Reads (p id : String) (row : AttemptRow) : ProvisioningRequest → Prop
  | get : Reads p id row (.get row.houseId id)
  | replay (data : ProvisioningStart) (key : String) (hactor : row.actorId = p)
      (hkey : row.createKeyHash = sha.hex key) (hbody : row.requestHash = bodyHash sha data) :
      Reads p id row (.create row.houseId data key)

/-- How a request of actor `p` ends that is about an attempt, between the tables `t` and `t'`. -/
inductive Outcome (p id : String) (row : AttemptRow) (t t' : Tables) :
    ProvisioningRequest → Option Instant → Except RouteError PublicStatus → Prop
  /-- The status is told. -/
  | told {request : ProvisioningRequest} {now : Instant} (hreads : Reads sha p id row request)
      (hrow : t.Becomes id (row.aged now) t') :
      Outcome p id row t t' request (some now) (.ok ((row.aged now).shown id))
  /-- The key was used for another body. -/
  | otherBody {data : ProvisioningStart} {key : String}
      (hbody : row.requestHash ≠ bodyHash sha data) (hsame : t' = t) :
      Outcome p id row t t' (.create row.houseId data key) none (.error keyConflict)
  /-- A cancellation finds that the attempt has expired. -/
  | overdue {revision : Nat} {key : String} {now : Instant} (hover : row.Overdue now)
      (hrow : t.Becomes id (row.settled .expired none) t') :
      Outcome p id row t t' (.cancel row.houseId id revision key) (some now) (.error statusConflict)
  | repeated {revision : Nat} {key : String} {now : Instant} (hby : CancelledBy sha row p key)
      (hrevision : row.cancelRevision = some revision) (hsame : t' = t) :
      Outcome p id row t t' (.cancel row.houseId id revision key) (some now) (.ok (row.shown id))
  | otherRevision {revision : Nat} {key : String} {now : Instant} (hby : CancelledBy sha row p key)
      (hrevision : row.cancelRevision ≠ some revision) (hsame : t' = t) :
      Outcome p id row t t' (.cancel row.houseId id revision key) (some now) (.error keyConflict)
  | cancelled {revision : Nat} {key : String} {now : Instant} (hdiscovered : row.status = .discovered)
      (hopen : now < row.expiresAt) (hrevision : row.revision = revision)
      (hrow : t.Becomes id (row.settled .cancelled (some ⟨sha.hex key, p, 0⟩)) t') :
      Outcome p id row t t' (.cancel row.houseId id revision key) (some now)
        (.ok ((row.settled .cancelled (some ⟨sha.hex key, p, 0⟩)).shown id))
  | late {revision : Nat} {key : String} {now : Instant} (hopen : ¬ row.Overdue now)
      (hby : ¬ CancelledBy sha row p key)
      (hrevision : ¬ (row.status = .discovered ∧ row.revision = revision)) (hsame : t' = t) :
      Outcome p id row t t' (.cancel row.houseId id revision key) (some now) (.error statusConflict)

/-- How a request ends that is about no attempt: it fails, or it begins one. -/
inductive Fresh (p : String) (t t' : Tables) :
    ProvisioningRequest → Except RouteError PublicStatus → Prop
  | failed {request : ProvisioningRequest} {e : RouteError} (hsame : t' = t) :
      Fresh p t t' request (.error e)
  | begun {data : ProvisioningStart} {key id : String} {row : AttemptRow} (hnew : id ∉ t.issued)
      (hget : t'.attempts.get? id = some row) (hdiscovered : row.status = .discovered)
      (hactor : row.actorId = p) (hkey : row.createKeyHash = sha.hex key)
      (hbody : row.requestHash = bodyHash sha data) (hkept : Kept t t') :
      Fresh p t t' (.create row.houseId data key) (.ok (row.shown id))

/-- What an entry tells of its step, from the tables of the entry to the tables `t'`. -/
def Lawful (e : Answer) (t' : Tables) : Prop :=
  match e.note with
  | .barred _ _ => t' = e.db
  | .answered request now reply =>
    (∀ id row, e.db.attempts.get? id = some row → Meets sha e.owner id row request →
      Outcome sha e.owner id row e.db t' request now reply) ∧
    ((∀ id row, e.db.attempts.get? id = some row → ¬ Meets sha e.owner id row request) →
      Fresh sha e.owner e.db t' request reply)
  | .failed request id => t' = e.db ∧ id.isSome ∧ ∃ house data key, request = .create house data key

/-- A row that the session has locked. -/
abbrev Known (s : Nat) (id : String) (row : AttemptRow) : Shared → Prop :=
  Protocol.Knows s (fun r => r = .attempt id) fun t : Tables => t.attempts.get? id = some row

/-- A statement that leaves the attempts alone. -/
def Apart (x : Statement) : Prop :=
  ∀ t t' : Tables, t.write x = .ok t' →
    t'.attempts = t.attempts ∧ t'.issued = t.issued ∧ t'.users = t.users

/-- The transactions that session `s` of actor `p` may commit. -/
inductive Commits (s : Nat) (p : String) (st : Shared) :
    List Statement → Option ProvisioningNote → Prop
  /-- A manual claim. -/
  | claimed {w : List Statement} (h : ∀ x ∈ w, Apart x) : Commits s p st w none
  /-- A status is told. -/
  | told {request : ProvisioningRequest} {id : String} {row : AttemptRow} {now : Instant}
      (hknown : Known s id row st) (hnow : now ∈ st.readings)
      (hreads : Reads sha p id row request) :
      Commits s p st (ages id row now)
        (some (.answered request (some now) (.ok ((row.aged now).shown id))))
  /-- A cancellation was decided on. -/
  | cancelled {id key : String} {row : AttemptRow} {revision : Nat} {now : Instant}
      {decision : Decision} (hknown : Known s id row st) (hnow : now ∈ st.readings)
      (hdecision : cancels sha p id row revision key now = .ok decision) :
      Commits s p st decision.writes
        (some (.answered (.cancel row.houseId id revision key) (some now) decision.reply))
  /-- A new attempt, in a house that the session has locked. -/
  | created {house key device : String} {data : ProvisioningStart}
      {active : Option (String × AttemptRow)} {now : Instant} {draw : Draw}
      (hheld : st.locks (.house house) = some s)
      (hactive : ∀ e, active = some e → Known s e.1 e.2 st)
      (hsound : (newRow sha p house data key device now draw).Sound) (hnow : now ∈ st.readings)
      (hclock : now ≤ st.clock) :
      Commits s p st
        (clears active now ++
          [.insertAttempt draw.id (newRow sha p house data key device now draw)])
        (some (.answered (.create house data key) (some now)
          (.ok ((newRow sha p house data key device now draw).shown draw.id))))

/-- The notes that are made without a commit. -/
def Notes (p : String) (st : Shared) : ProvisioningNote → Prop
  | .barred _ _ => True
  | .answered request now (.error e) => ∀ id row, st.db.attempts.get? id = some row →
      Meets sha p id row request → Outcome sha p id row st.db st.db request now (.error e)
  | .answered _ _ (.ok _) => False
  | .failed request id => id.isSome ∧ ∃ house data key, request = .create house data key

/-- The protocol of the requests. -/
def protocol : Protocol Tables TableRow Statement ProvisioningNote String where
  inv := Inv sha
  commits s p := Commits sha s p
  notes _ p := Notes sha p

end

end KzHome.Provisioning

import KzHome.AttemptReplies
import KzHome.AttemptRules
import KzHome.Lib.Outcomes
import KzHome.ProvisioningHistories

/-!
# KzHome.AttemptRuns

Requests on provisioning attempts, side by side with manual claims.

What a commit makes of the attempts is an `Effect`, and every effect keeps the invariant. What a
session knows between two of its statements it knows because it holds a lock: of an attempt, or of
a house, in which nobody else begins an attempt then.

**Attempts** (`attempts_durable`): however the requests are interleaved, the attempts are a durable
state machine, and every answer that was given is lawful.
-/

namespace KzHome

open Session Sql

/-- What else happens to the database: it leaves the attempts alone, and deletes no user. -/
structure Elsewhere where
  allowed : Tables → Tables → Bool
  attempts : ∀ t t', allowed t t' = true → t'.attempts = t.attempts
  issued : ∀ t t', allowed t t' = true → ∀ id ∈ t.issued, id ∈ t'.issued
  users : ∀ t t', allowed t t' = true → ∀ id, (t.users.get? id).isSome = true →
    (t'.users.get? id).isSome = true

namespace Provisioning

variable {sha : Sha256}

/-! ### Outcomes -/

section

variable {p id : String} {row : AttemptRow} {t t' : Tables} {request : ProvisioningRequest}
  {now : Option Instant} {reply : Except RouteError PublicStatus}

theorem Reads.meets (h : Reads sha p id row request) : Meets sha p id row request := by
  cases h with
  | get => exact ⟨rfl, rfl⟩
  | replay data key hactor hkey hbody => simp [Meets, keyed, hactor, hkey]

/-- Two attempts that one request is about are one. -/
theorem Meets.unique {seen : Instant → Prop} {begun : String → AttemptRow → Prop} {clock : Instant}
    {id' : String} {row' : AttemptRow} (h : Rows seen begun clock t)
    (hget : t.attempts.get? id = some row) (hget' : t.attempts.get? id' = some row')
    (hmeets : Meets sha p id row request) (hmeets' : Meets sha p id' row' request) : id = id' := by
  cases request with
  | create house data key =>
      obtain ⟨hhouse, hactor, hkey⟩ := of_decide_eq_true hmeets
      obtain ⟨hhouse', hactor', hkey'⟩ := of_decide_eq_true hmeets'
      exact h.keys id id' row row' hget hget' (hhouse.trans hhouse'.symm)
        (hactor.trans hactor'.symm) (hkey.trans hkey'.symm)
  | get house session => exact hmeets.1.symm.trans hmeets'.1
  | cancel house session revision key => exact hmeets.1.symm.trans hmeets'.1
  | claim house data => exact hmeets.elim

/-- What an outcome writes: nothing, or one row. -/
theorem Outcome.writes (h : Outcome sha p id row t t' request now reply) :
    t' = t ∨ (∃ x, now = some x ∧ t.Becomes id (row.aged x) t') ∨
      row.status = .discovered ∧
        ∃ key, t.Becomes id (row.settled .cancelled (some ⟨key, p, 0⟩)) t' := by
  cases h with
  | told hreads hrow => exact Or.inr (Or.inl ⟨_, rfl, hrow⟩)
  | otherBody hbody hsame => exact Or.inl hsame
  | overdue hover hrow =>
      refine Or.inr (Or.inl ⟨_, rfl, ?_⟩)
      unfold AttemptRow.aged
      rw [if_pos hover]
      exact hrow
  | repeated hby hrevision hsame => exact Or.inl hsame
  | otherRevision hby hrevision hsame => exact Or.inl hsame
  | cancelled hdiscovered hopen hrevision hrow => exact Or.inr (Or.inr ⟨hdiscovered, _, hrow⟩)
  | late hopen hby hrevision hsame => exact Or.inl hsame

theorem Outcome.others (h : Outcome sha p id row t t' request now reply) {k : String}
    (hk : k ≠ id) : t'.attempts.get? k = t.attempts.get? k := by
  rcases h.writes with hsame | ⟨x, -, hrow⟩ | ⟨-, key, hrow⟩
  · rw [hsame]
  · exact hrow.others hk
  · exact hrow.others hk

theorem Outcome.rest (h : Outcome sha p id row t t' request now reply) :
    t'.issued = t.issued ∧ t'.users = t.users := by
  rcases h.writes with hsame | ⟨x, -, hrow⟩ | ⟨-, key, hrow⟩
  · exact hsame ▸ ⟨rfl, rfl⟩
  · exact ⟨hrow.issued, hrow.users⟩
  · exact ⟨hrow.issued, hrow.users⟩

theorem Outcome.stems (h : Outcome sha p id row t t' request now reply)
    (hget : t.attempts.get? id = some row) : Stems t t' := by
  rcases h.writes with hsame | ⟨x, -, hrow⟩ | ⟨-, key, hrow⟩
  · exact hsame ▸ .refl t
  · exact .of_becomes hget AttemptRow.identity_aged hrow
  · exact .of_becomes hget (AttemptRow.identity_settled _ _) hrow

theorem Outcome.kept (h : Outcome sha p id row t t' request now reply)
    (hget : t.attempts.get? id = some row) : Kept t t' := by
  rcases h.writes with hsame | ⟨x, -, hrow⟩ | ⟨hdiscovered, key, hrow⟩
  · exact hsame ▸ .refl t
  · exact .of_aged hget hrow
  · exact .of_becomes hget hdiscovered (AttemptRow.identity_settled _ _) hrow

theorem Outcome.rows {seen : Instant → Prop} {begun : String → AttemptRow → Prop} {clock : Instant}
    (h : Outcome sha p id row t t' request now reply) (hget : t.attempts.get? id = some row)
    (hrows : Rows seen begun clock t) (hseen : ∀ x, now = some x → ∀ y, y ≤ x → seen y) :
    Rows seen begun clock t' := by
  rcases h.writes with hsame | ⟨x, hnow, hrow⟩ | ⟨hdiscovered, key, hrow⟩
  · exact hsame ▸ hrows
  · exact hrows.age hget (hseen x hnow) hrow
  · have hid : (row.settled .cancelled (some ⟨key, p, 0⟩)).identity = row.identity := rfl
    have hterminal : (row.settled .cancelled (some ⟨key, p, 0⟩)).status ≠ .discovered :=
      fun heq => by cases heq
    exact hrows.settle hget hid ((hrows.sound id row hget).settle_cancelled hdiscovered key p)
      hterminal (fun heq => by cases heq) hrow

/-- A cancellation that succeeds leaves a terminal row. -/
theorem Outcome.settles {house : String} {revision : Nat} {key : String} {status : PublicStatus}
    (h : Outcome sha p id row t t' request now reply)
    (hrequest : request = .cancel house id revision key) (hreply : reply = .ok status)
    (hget : t.attempts.get? id = some row) (hsound : row.Sound) :
    ∃ row', t'.attempts.get? id = some row' ∧ row'.status ≠ .discovered := by
  cases h with
  | told hreads hrow =>
      subst hrequest
      cases hreads
  | repeated hby hrevision hsame =>
      refine ⟨row, hsame ▸ hget, fun hdiscovered => ?_⟩
      have hnone := congrArg Prod.fst (hsound.fresh hdiscovered).2
      rw [AttemptRow.cancellation, hby.1] at hnone
      cases hnone
  | cancelled hdiscovered hopen hrevision hrow => exact ⟨_, hrow.self, fun heq => by cases heq⟩
  | otherBody hbody hsame => cases hreply
  | overdue hover hrow => cases hreply
  | otherRevision hby hrevision hsame => cases hreply
  | late hopen hby hrevision hsame => cases hreply

section

variable {revision : Nat} {key : String} {x : Instant} {decision : Decision}

theorem cancels_outcome (h : cancels sha p id row revision key x = .ok decision)
    (hget : t.attempts.get? id = some row) (hw : t.writes decision.writes = .ok t') :
    Outcome sha p id row t t' (.cancel row.houseId id revision key) (some x) decision.reply := by
  unfold cancels at h
  split at h
  · rename_i hover
    obtain rfl := Except.ok.inj h
    rw [Tables.writes_singleton] at hw
    obtain ⟨row₀, hget₀, -, hrow⟩ := Tables.settling_ok hw
    obtain rfl := Option.some.inj (hget.symm.trans hget₀)
    exact .overdue hover hrow
  rename_i hopen
  split at h
  · rename_i hby
    split at h
    · rename_i hrevision
      obtain rfl := Except.ok.inj h
      exact .repeated hby hrevision (Except.ok.inj hw).symm
    · cases h
  rename_i hby
  split at h
  · rename_i hmatch
    obtain rfl := Except.ok.inj h
    rw [Tables.writes_singleton] at hw
    obtain ⟨row₀, hget₀, -, hrow⟩ := Tables.settling_ok hw
    obtain rfl := Option.some.inj (hget.symm.trans hget₀)
    have hbefore : x < row.expiresAt := Int.not_le.mp fun hexpired => hopen ⟨hmatch.1, hexpired⟩
    exact .cancelled hmatch.1 hbefore hmatch.2 hrow
  · rename_i hrevision
    obtain rfl := Except.ok.inj h
    exact .late hopen hby hrevision (Except.ok.inj hw).symm

/-- A cancellation that is refused at once. -/
theorem cancels_refused {e : RouteError} (h : cancels sha p id row revision key x = .error e) :
    Outcome sha p id row t t (.cancel row.houseId id revision key) (some x) (.error e) := by
  unfold cancels at h
  split at h
  · cases h
  split at h
  · rename_i hby
    split at h
    · cases h
    · rename_i hrevision
      obtain rfl := Except.error.inj h
      exact .otherRevision hby hrevision rfl
  split at h
  · cases h
  · cases h

/-- What a cancellation has decided can be written. -/
theorem cancels_total (h : cancels sha p id row revision key x = .ok decision)
    (hget : t.attempts.get? id = some row) (hsound : row.Sound)
    (huser : (t.users.get? p).isSome = true) : ∃ t', t.writes decision.writes = .ok t' := by
  unfold cancels at h
  split at h
  · rename_i hover
    obtain rfl := Except.ok.inj h
    rw [Tables.writes_singleton]
    exact Tables.settling_total hget hover.1 (hsound.fresh hover.1).1 fun _ h => by cases h
  split at h
  · split at h
    · obtain rfl := Except.ok.inj h
      exact ⟨t, rfl⟩
    · cases h
  split at h
  · rename_i hmatch
    obtain rfl := Except.ok.inj h
    rw [Tables.writes_singleton]
    refine Tables.settling_total hget hmatch.1 (hsound.fresh hmatch.1).1 fun c hc => ?_
    obtain rfl := Option.some.inj hc
    exact huser
  · obtain rfl := Except.ok.inj h
    exact ⟨t, rfl⟩

end

end

/-! ### Effects -/

section

variable {s : Nat} {p : String} {st : Shared} {db : Tables} {n : Option ProvisioningNote}

/-- What a commit makes of the attempts. -/
inductive Effect (sha : Sha256) (p : String) (st : Shared) (db : Tables) :
    Option ProvisioningNote → Prop
  | apart (hattempts : db.attempts = st.db.attempts) (hissued : db.issued = st.db.issued)
      (husers : db.users = st.db.users) : Effect sha p st db none
  | outcome {request : ProvisioningRequest} {now : Instant}
      {reply : Except RouteError PublicStatus} {id : String} {row : AttemptRow}
      (hnow : now ∈ st.readings) (hget : st.db.attempts.get? id = some row)
      (hmeets : Meets sha p id row request)
      (h : Outcome sha p id row st.db db request (some now) reply) :
      Effect sha p st db (some (.answered request (some now) reply))
  | begun {house key device : String} {data : ProvisioningStart}
      {active : Option (String × AttemptRow)} {now : Instant} {draw : Draw} (t : Tables)
      (hactive : ∀ e, active = some e → st.db.attempts.get? e.1 = some e.2)
      (hsound : (newRow sha p house data key device now draw).Sound) (hnow : now ∈ st.readings)
      (hclock : now ≤ st.clock) (hcleared : Cleared active now st.db t)
      (hinsert : t.write (.insertAttempt draw.id (newRow sha p house data key device now draw)) =
        .ok db) :
      Effect sha p st db (some (.answered (.create house data key) (some now)
        (.ok ((newRow sha p house data key device now draw).shown draw.id))))

theorem writes_apart {t t' : Tables} {w : List Statement} (h : ∀ x ∈ w, Apart x)
    (hw : t.writes w = .ok t') :
    t'.attempts = t.attempts ∧ t'.issued = t.issued ∧ t'.users = t.users := by
  induction w generalizing t with
  | nil =>
      obtain rfl := Except.ok.inj hw
      exact ⟨rfl, rfl, rfl⟩
  | cons x w ih =>
      rw [Tables.writes] at hw
      cases hx : t.write x with
      | error e =>
          rw [hx] at hw
          cases hw
      | ok t₁ =>
          rw [hx] at hw
          obtain ⟨ha, hi, hu⟩ := h x List.mem_cons_self t t₁ hx
          obtain ⟨ha', hi', hu'⟩ := ih (fun y hy => h y (List.mem_cons_of_mem x hy)) hw
          exact ⟨ha'.trans ha, hi'.trans hi, hu'.trans hu⟩

/-- The two parts of a creation. -/
theorem writes_created {active : Option (String × AttemptRow)} {now : Instant} {id : String}
    {row : AttemptRow} {t t' : Tables}
    (hactive : ∀ e, active = some e → t.attempts.get? e.1 = some e.2)
    (hw : t.writes (clears active now ++ [.insertAttempt id row]) = .ok t') :
    ∃ t₁, Cleared active now t t₁ ∧ t₁.write (.insertAttempt id row) = .ok t' := by
  rw [writes_append] at hw
  cases hc : t.writes (clears active now) with
  | error e =>
      rw [hc] at hw
      cases hw
  | ok t₁ =>
      rw [hc] at hw
      change t₁.writes [.insertAttempt id row] = .ok t' at hw
      rw [Tables.writes_singleton] at hw
      exact ⟨t₁, writes_clears hactive hc, hw⟩

theorem Commits.effect {w : List Statement} (hc : Commits sha s p st w n)
    (hw : st.db.writes w = .ok db) : Effect sha p st db n := by
  cases hc with
  | claimed h =>
      obtain ⟨ha, hi, hu⟩ := writes_apart h hw
      exact .apart ha hi hu
  | told hknown hnow hreads =>
      exact .outcome hnow hknown.2 hreads.meets (.told hreads (writes_ages hknown.2 hw))
  | cancelled hknown hnow hdecision =>
      exact .outcome hnow hknown.2 ⟨rfl, rfl⟩ (cancels_outcome hdecision hknown.2 hw)
  | created hheld hactive hsound hnow hclock =>
      obtain ⟨t, hcleared, hinsert⟩ := writes_created (fun e he => (hactive e he).2) hw
      exact .begun t (fun e he => (hactive e he).2) hsound hnow hclock hcleared hinsert

theorem Effect.users (h : Effect sha p st db n) : db.users = st.db.users := by
  cases h with
  | apart hattempts hissued husers => exact husers
  | outcome hnow hget hmeets h => exact h.rest.2
  | begun t hactive hsound hnow hclock hcleared hinsert =>
      obtain ⟨-, -, -, -, husers, -⟩ := Tables.insertAttempt_ok hinsert
      exact husers.trans hcleared.rest.2

theorem Effect.kept (h : Effect sha p st db n)
    (hissued : ∀ id row, st.db.attempts.get? id = some row → id ∈ st.db.issued) :
    Kept st.db db := by
  cases h with
  | apart hattempts _ _ =>
      intro id row hrow
      exact ⟨row, by rw [hattempts, hrow], rfl, fun _ => rfl⟩
  | outcome hnow hget hmeets h => exact h.kept hget
  | begun t hactive hsound hnow hclock hcleared hinsert =>
      obtain ⟨hnew, -, -, -, -, hrows⟩ := Tables.insertAttempt_ok hinsert
      refine .trans _ t _ (hcleared.kept hactive) (.of_inserted (fun k r hr => ?_) hnew hrows)
      obtain ⟨r₀, hr₀, -⟩ := hcleared.stems hactive k r hr
      rw [hcleared.rest.1]
      exact hissued k r₀ hr₀

/-! ### Keeping the invariant -/

section

variable {a b : Shared}

theorem Seen.mono {x : Instant} (h : Seen a x) (htrace : ∀ e ∈ a.trace, e ∈ b.trace)
    (hreadings : ∀ t ∈ a.readings, t ∈ b.readings) : Seen b x := by
  obtain ⟨e, he, request, now, reply, hnote, hx, hnow⟩ := h
  exact ⟨e, htrace e he, request, now, reply, hnote, hx, hreadings now hnow⟩

theorem Begun.mono {id : String} {row : AttemptRow} (h : Begun sha a id row)
    (htrace : ∀ e ∈ a.trace, e ∈ b.trace) : Begun sha b id row := by
  obtain ⟨e, he, data, key, howner, hnote, hkey, hbody⟩ := h
  exact ⟨e, htrace e he, data, key, howner, hnote, hkey, hbody⟩

/-- A step that neither writes attempts nor notes anything. -/
theorem Inv.quiet (h : Inv sha a) (htrace : b.trace = a.trace)
    (hreadings : ∀ t ∈ a.readings, t ∈ b.readings) (hclock : a.clock ≤ b.clock)
    (hattempts : b.db.attempts = a.db.attempts) (hissued : ∀ id ∈ a.db.issued, id ∈ b.db.issued) :
    Inv sha b where
  rows := by
    have hrows : Rows (Seen b) (Begun sha b) b.clock a.db := h.rows.mono
      (fun x hx => hx.mono (fun e he => htrace ▸ he) hreadings)
      (fun id row hb => hb.mono fun e he => htrace ▸ he) hclock
    exact hrows.same (fun k => by rw [hattempts]) hissued
  once id := by
    rw [htrace]
    exact h.once id
  terminal id hpos := by
    rw [hattempts]
    rw [htrace] at hpos
    exact h.terminal id hpos

/-- An entry that cancels an attempt. -/
theorem cancelsNow_eq {id : String} {e : Answer} (h : cancelsNow id e = true) :
    (∃ house revision key now status,
      e.note = .answered (.cancel house id revision key) now (.ok status)) ∧
      ∃ row, e.db.attempts.get? id = some row ∧ row.status = .discovered := by
  unfold cancelsNow at h
  split at h
  · rename_i house session revision key now status hnote
    obtain ⟨hsession, hrow⟩ := Bool.and_eq_true_iff.mp h
    obtain rfl := of_decide_eq_true hsession
    cases hget : e.db.attempts.get? session with
    | none =>
        rw [hget] at hrow
        cases hrow
    | some row =>
        rw [hget] at hrow
        exact ⟨⟨house, revision, key, now, status, hnote⟩, row, rfl, of_decide_eq_true hrow⟩
  · cases h

/-- A step with an entry. -/
theorem Inv.entry {e : Answer} (h : Inv sha a) (htrace : b.trace = e :: a.trace)
    (he : e.db = a.db) (hrows : Rows (Seen b) (Begun sha b) b.clock b.db) (hkept : Kept a.db b.db)
    (hcancel : ∀ id, cancelsNow id e = true →
      ∃ row, b.db.attempts.get? id = some row ∧ row.status ≠ .discovered) : Inv sha b where
  rows := hrows
  once id := by
    rw [htrace]
    by_cases hnow : cancelsNow id e = true
    · -- nobody has cancelled it before, as it was discovered
      have hzero : a.trace.countP (cancelsNow id) = 0 := by
        by_contra hne
        obtain ⟨row, hrow, hterminal⟩ := h.terminal id (Nat.pos_of_ne_zero hne)
        obtain ⟨-, row₀, hrow₀, hdiscovered⟩ := cancelsNow_eq hnow
        rw [he] at hrow₀
        obtain rfl := Option.some.inj (hrow.symm.trans hrow₀)
        exact hterminal hdiscovered
      rw [List.countP_cons_of_pos hnow, hzero]
    · rw [List.countP_cons_of_neg hnow]
      exact h.once id
  terminal id hpos := by
    by_cases hnow : cancelsNow id e = true
    · exact hcancel id hnow
    · rw [htrace, List.countP_cons_of_neg hnow] at hpos
      obtain ⟨row, hrow, hterminal⟩ := h.terminal id hpos
      obtain ⟨row', hrow', -, hsame⟩ := hkept id row hrow
      obtain rfl := hsame hterminal
      exact ⟨row', hrow', hterminal⟩

end

/-- **An effect keeps the invariant.** -/
theorem Effect.inv (hi : Inv sha st) (h : Effect sha p st db n) :
    Inv sha { st.record s p n with db } := by
  have hkept := h.kept hi.rows.issued
  cases h with
  | apart hattempts hissued husers =>
      exact hi.quiet rfl (fun _ h => h) (Int.le_refl _) hattempts fun id hid => hissued ▸ hid
  | @outcome request now reply id row hnow hget hmeets h =>
      have hseen : ∀ x, x ≤ now →
          Seen { st.record s p (some (.answered request (some now) reply)) with db } x :=
        fun x hx => ⟨_, List.mem_cons_self, request, now, reply, rfl, hx, hnow⟩
      refine hi.entry rfl rfl ?_ hkept fun k hcancel => ?_
      · refine h.rows hget (hi.rows.mono ?_ ?_ (Int.le_refl _)) ?_
        · exact fun x hx => hx.mono (fun e he => List.mem_cons_of_mem _ he) fun _ ht => ht
        · exact fun k r hb => hb.mono fun e he => List.mem_cons_of_mem _ he
        · intro x hx y hy
          obtain rfl := Option.some.inj hx
          exact hseen y hy
      · obtain ⟨⟨house, revision, key, now', status, hnote⟩, row', hrow', -⟩ := cancelsNow_eq hcancel
        obtain ⟨rfl, -, rfl⟩ := ProvisioningNote.answered.inj hnote
        obtain rfl : k = id := hmeets.1
        exact h.settles rfl rfl hget (hi.rows.sound _ row hget)
  | @begun house key device data active now draw t hactive hsound hnow hclock hcleared hinsert =>
      obtain ⟨hnew, hkeys, hdevices, hissued, -, hrows⟩ := Tables.insertAttempt_ok hinsert
      refine hi.entry rfl rfl ?_ hkept fun k hcancel => ?_
      · refine Rows.insert (Rows.clear (hi.rows.mono ?_ ?_ (Int.le_refl _)) hactive ?_
          hcleared) hkeys (hdevices rfl) hsound hclock rfl ?_ hissued hrows
        · exact fun x hx => hx.mono (fun e he => List.mem_cons_of_mem _ he) fun _ ht => ht
        · exact fun k r hb => hb.mono fun e he => List.mem_cons_of_mem _ he
        · exact fun x hx => ⟨_, List.mem_cons_self, _, now, _, rfl, hx, hnow⟩
        · exact ⟨_, List.mem_cons_self, data, key, rfl, rfl, rfl, rfl⟩
      · obtain ⟨⟨house, revision, key, now', status, hnote⟩, -⟩ := cancelsNow_eq hcancel
        cases hnote

/-- **An effect is lawful.** -/
theorem Effect.lawful {note : ProvisioningNote} (hi : Inv sha st)
    (h : Effect sha p st db (some note)) : Lawful sha ⟨s, p, st.db, note⟩ db := by
  have hkept := h.kept hi.rows.issued
  cases h with
  | @outcome request now reply id row hnow hget hmeets h =>
      refine ⟨fun k r hr hm => ?_, fun hnone => absurd hmeets (hnone id row hget)⟩
      obtain rfl := Meets.unique hi.rows hget hr hmeets hm
      obtain rfl := Option.some.inj (hget.symm.trans hr)
      exact h
  | @begun house key device data active now draw t hactive hsound hnow hclock hcleared hinsert =>
      obtain ⟨hnew, hkeys, -, -, -, hrows⟩ := Tables.insertAttempt_ok hinsert
      refine ⟨fun k r hr hm => ?_, fun _ => ?_⟩
      · -- the key was not used
        obtain ⟨hhouse, hactor, hkey⟩ := of_decide_eq_true hm
        obtain ⟨r', hr', hid, -⟩ := hcleared.kept hactive k r hr
        have hsame := identity_inj hid
        exact absurd (hsame.2.2.1.trans hkey)
          (hkeys k r' hr' (hsame.1.trans hhouse) (hsame.2.1.trans hactor))
      · have hget : db.attempts.get? draw.id =
            some (newRow sha p house data key device now draw) := by
          rw [hrows, if_pos rfl]
        exact .begun (hcleared.rest.1 ▸ hnew) hget rfl rfl rfl rfl hkept

/-! ### Commits of others -/

variable {t : Nat} {w : List Statement} {house actor key : String}

/-- A row that another session has locked stays. -/
theorem Commits.others (hi : Inv sha st) (hc : Commits sha s p st w n)
    (hw : st.db.writes w = .ok db) (hne : t ≠ s) {id : String} {row : AttemptRow}
    (hlock : st.locks (.attempt id) = some t) (hrow : st.db.attempts.get? id = some row) :
    db.attempts.get? id = some row := by
  have hapart : ∀ id' row', Known s id' row' st → id ≠ id' := by
    intro id' row' hknown heq
    have hs := hknown.1 (.attempt id') rfl
    rw [← heq, hlock] at hs
    exact hne (Option.some.inj hs)
  cases hc with
  | claimed h =>
      rw [(writes_apart h hw).1]
      exact hrow
  | told hknown hnow hreads =>
      rw [(writes_ages hknown.2 hw).others (hapart _ _ hknown)]
      exact hrow
  | cancelled hknown hnow hdecision =>
      rw [(cancels_outcome hdecision hknown.2 hw).others (hapart _ _ hknown)]
      exact hrow
  | @created house key device data active now draw hheld hactive hsound hnow hclock =>
      obtain ⟨t₁, hcleared, hinsert⟩ := writes_created (fun e he => (hactive e he).2) hw
      obtain ⟨hnew, -, -, -, -, hrows⟩ := Tables.insertAttempt_ok hinsert
      have hid : id ≠ draw.id := by
        rintro rfl
        exact hnew (hcleared.rest.1 ▸ hi.rows.issued _ row hrow)
      rw [hrows, if_neg hid, hcleared.others fun e he => (hapart _ _ (hactive e he)).symm]
      exact hrow

/-- A question about what is never written again of the attempts of a house. -/
structure OfHouse (house : String) (q : String → AttemptRow → Bool) : Prop where
  congr : ∀ id row row', row'.identity = row.identity → q id row' = q id row
  house : ∀ id row, q id row = true → row.houseId = house

theorem ofHouse_keyed : OfHouse house (keyed sha house actor key) where
  congr id row row' h := by
    have hsame := identity_inj h
    unfold keyed
    rw [hsame.1, hsame.2.1, hsame.2.2.1]
  house id row h := (of_decide_eq_true h).1

/-- The attempt that `_load` looks for. -/
theorem ofHouse_load (session : String) :
    OfHouse house fun id row => id = session ∧ row.houseId = house where
  congr id row row' h := by rw [(identity_inj h).1]
  house id row h := (of_decide_eq_true h).2

/-- There is no such attempt. -/
def Without (q : String → AttemptRow → Bool) (t : Tables) : Prop :=
  ∀ id row, t.attempts.get? id = some row → q id row = false

variable {q : String → AttemptRow → Bool}

theorem Without.of_find?_eq_none {t : Tables} (h : t.attempts.find? q = none) : Without q t := by
  intro id row hrow
  exact Dict.find?_eq_none.mp h (id, row) (Dict.get?_eq_some.mp hrow)

theorem Without.stems {t t' : Tables} (hq : OfHouse house q) (h : Without q t)
    (hstems : Stems t t') : Without q t' := by
  intro id row hrow
  obtain ⟨row₀, hrow₀, hid⟩ := hstems id row hrow
  rw [hq.congr id row₀ row hid]
  exact h id row₀ hrow₀

/-- Nobody begins an attempt in a house that another session has locked. -/
theorem Commits.without (hc : Commits sha s p st w n) (hw : st.db.writes w = .ok db) (hne : t ≠ s)
    (hlock : st.locks (.house house) = some t) (hq : OfHouse house q) (h : Without q st.db) :
    Without q db := by
  cases hc with
  | claimed hapart =>
      intro id row hrow
      rw [(writes_apart hapart hw).1] at hrow
      exact h id row hrow
  | told hknown hnow hreads =>
      exact h.stems hq (.of_becomes hknown.2 AttemptRow.identity_aged (writes_ages hknown.2 hw))
  | cancelled hknown hnow hdecision =>
      exact h.stems hq ((cancels_outcome hdecision hknown.2 hw).stems hknown.2)
  | @created house' key' device data active now draw hheld hactive hsound hnow hclock =>
      obtain ⟨t₁, hcleared, hinsert⟩ := writes_created (fun e he => (hactive e he).2) hw
      obtain ⟨-, -, -, -, -, hrows⟩ := Tables.insertAttempt_ok hinsert
      have hother : house' ≠ house := by
        rintro rfl
        exact hne (Option.some.inj (hlock.symm.trans hheld))
      intro id row hrow
      rw [hrows] at hrow
      by_cases hid : id = draw.id
      · rw [if_pos hid] at hrow
        obtain rfl := Option.some.inj hrow
        exact Bool.eq_false_of_not_eq_true fun hasked => hother (hq.house _ _ hasked)
      · rw [if_neg hid] at hrow
        exact h.stems hq (hcleared.stems fun e he => (hactive e he).2) id row hrow

end

/-! ### What a session knows -/

section

variable {c : Elsewhere} {s : Nat} {p house key : String}

/-- The contract of the requests. -/
abbrev contract (sha : Sha256) (c : Elsewhere) := Protocol.contract (protocol sha) schema c.allowed

/-- Outlines of requests. -/
abbrev Outlined (sha : Sha256) (c : Elsewhere) (s : Nat) (p : String) {α : Type} (m : Request α)
    (A : Shared → Prop) (Q : Except RouteError α → Shared → Prop) : Prop :=
  (contract sha c).Outline (machine schema c.allowed) s p m A Q

theorem keeps (c : Elsewhere) : (protocol sha).Keeps schema c.allowed where
  locks _ _ h := h.quiet rfl (fun _ h => h) (Int.le_refl _) rfl fun _ h => h
  clock _ _ h ht := h.quiet rfl (fun _ h => h) ht rfl fun _ h => h
  reading _ h := h.quiet rfl (fun _ h => List.mem_cons_of_mem _ h) (Int.le_refl _) rfl fun _ h => h
  noted a s p n h hn := by
    refine h.entry rfl rfl (h.rows.mono ?_ ?_ (Int.le_refl _)) (.refl _) fun id hcancel => ?_
    · exact fun x hx => hx.mono (fun e he => List.mem_cons_of_mem _ he) fun _ ht => ht
    · exact fun k r hb => hb.mono fun e he => List.mem_cons_of_mem _ he
    · obtain ⟨⟨house, revision, key, now, status, rfl⟩, -⟩ := cancelsNow_eq hcancel
      exact hn.elim
  committed _ _ _ _ _ _ h hc _ hdb := (hc.effect hdb).inv h
  changed a db h hal := h.quiet rfl (fun _ h => h) (Int.le_refl _) (c.attempts a.db db hal)
    (c.issued a.db db hal)

theorem stable_known (id : String) (row : AttemptRow) :
    (contract sha c).Stable s p (Known s id row) := by
  refine Protocol.stable_knows ?_ ?_
  · intro a t q w n db hne hi hc _ hdb hlocks hrow
    exact hc.others hi hdb hne.symm (hlocks _ rfl) hrow
  · intro a db _ hal hrow
    rw [c.attempts a.db db hal]
    exact hrow

/-- The actor is there, and the session has locked the house. -/
abbrev Entered (s : Nat) (house p : String) : Shared → Prop :=
  Protocol.Knows s (fun r => r = .house house) fun t : Tables => (t.users.get? p).isSome = true

theorem stable_entered : (contract sha c).Stable s p (Entered s house p) := by
  refine Protocol.stable_knows ?_ ?_
  · intro a t q w n db _ _ hc _ hdb _ huser
    rw [(hc.effect hdb).users]
    exact huser
  · intro a db _ hal huser
    exact c.users a.db db hal p huser

/-- There is no such attempt, in a house that the session has locked. -/
abbrev Lacks (s : Nat) (house : String) (q : String → AttemptRow → Bool) : Shared → Prop :=
  Protocol.Knows s (fun r => r = .house house) (Without q)

theorem stable_lacks {q : String → AttemptRow → Bool} (hq : OfHouse house q) :
    (contract sha c).Stable s p (Lacks s house q) := by
  refine Protocol.stable_knows ?_ ?_
  · intro a t q w n db hne _ hc _ hdb hlocks h
    exact hc.without hdb hne.symm (hlocks _ rfl) hq h
  · intro a db _ hal h id row hrow
    rw [c.attempts a.db db hal] at hrow
    exact h id row hrow

/-- An attempt stands, with its identity. -/
def Stands (id : String) (row : AttemptRow) (t : Tables) : Prop :=
  ∃ row', t.attempts.get? id = some row' ∧ row'.identity = row.identity

theorem stable_stands (id : String) (row : AttemptRow) :
    (contract sha c).Stable s p fun st => Stands id row st.db := by
  refine Protocol.stable_db ?_ ?_
  · intro a t q w n db hi hc hdb h
    obtain ⟨row', hrow', hid⟩ := h
    obtain ⟨row'', hrow'', hid', -⟩ := (hc.effect hdb).kept hi.rows.issued id row' hrow'
    exact ⟨row'', hrow'', hid'.trans hid⟩
  · intro a db _ hal h
    obtain ⟨row', hrow', hid⟩ := h
    exact ⟨row', by rw [c.attempts a.db db hal]; exact hrow', hid⟩

/-! ### Outlines -/

/-- Postconditions of a part of a request: its errors are of a kind. -/
def ending {α : Type} (E : RouteError → Prop) (T : α → Shared → Prop) :
    Except RouteError α → Shared → Prop
  | .ok a => T a
  | .error e => fun _ => E e

variable {A : Shared → Prop}

/-- A part of a request, and what comes after it. -/
theorem Outlined.next {α β : Type} {m : Request α} {f : α → Request β} {E : RouteError → Prop}
    {T : α → Shared → Prop} {Q : Except RouteError β → Shared → Prop}
    (hm : Outlined sha c s p m A (ending E T)) (herr : ∀ e st, E e → Q (.error e) st)
    (hf : ∀ a, Outlined sha c s p (f a) (T a) Q) : Outlined sha c s p (m >>= f) A Q :=
  hm.bind (fun e st _ h => herr e st h) hf

/-- `SELECT … FOR UPDATE` of an attempt: it is found and locked, or there is none. -/
theorem outline_selectAttempt {q : String → AttemptRow → Bool} {N : Tables → Prop}
    (hA : (contract sha c).Stable s p A) (htake : ∀ st row, A st → A (st.take schema s row))
    (hN : (contract sha c).Stable s p fun st => A st ∧ N st.db)
    (hnone : ∀ t : Tables, t.attempts.find? q = none → N t)
    (hlost : ∀ id row row', row'.identity = row.identity → q id row = true → q id row' = false →
      ∀ t, N t) :
    Outlined sha c s p (selectAttempt q) A (ending (fun _ => False) fun (found : Option (String × AttemptRow)) st =>
      (found = none → A st ∧ N st.db) ∧
        ∀ e, found = some e → (A st ∧ Known s e.1 e.2 st) ∧ q e.1 e.2 = true) := by
  refine Protocol.outline_read
    (R := fun t st => (A st ∧ ∀ e, t.attempts.find? q = some e → Stands e.1 e.2 st.db) ∧
      (t.attempts.find? q = none → A st ∧ N st.db))
    (fun t => (hA.and (Contract.Stable.forall fun e : String × AttemptRow =>
      Contract.Stable.forall fun _ => stable_stands e.1 e.2)).and (Contract.Stable.forall fun _ => hN))
    (fun _ _ _ _ hn => by cases hn) ?_ fun t => ?_
  · intro st _ h
    exact ⟨⟨h, fun e he => ⟨e.2, (Dict.find?_eq_some he).1, rfl⟩⟩, fun hf => ⟨h, hnone st.db hf⟩⟩
  cases hfind : t.attempts.find? q with
  | none => exact fun st _ h => ⟨fun _ => h.2 rfl, fun e he => by cases he⟩
  | some e =>
      refine Protocol.outline_lock
        (R := fun t st => (A st ∧ ∀ row, t.attempts.get? e.1 = some row → Known s e.1 row st) ∧
          Stands e.1 e.2 t)
        (fun t => (hA.and (Contract.Stable.forall fun row => Contract.Stable.forall fun _ =>
          stable_known e.1 row)).and (Contract.Stable.const _)) ?_ fun t' => ?_
      · intro st _ h
        refine ⟨⟨htake st _ h.1.1, fun row hrow => ⟨?_, ?_⟩⟩, h.1.2 e rfl⟩
        · rintro r rfl
          refine Protocol.locked_take st _ ?_
          rw [Protocol.take_db]
          change (st.db.attempts.get? e.1).isSome = true
          rw [hrow, Option.isSome_some]
        · rw [Protocol.take_db]
          exact hrow
      · intro st _ h
        obtain ⟨⟨hst, hknown⟩, row', hrow', hid⟩ := h
        by_cases hq : q e.1 row' = true
        · have hfound : ((t'.attempts.get? e.1).filter (q e.1)).map (fun row => (e.1, row)) =
              some (e.1, row') := by
            rw [hrow', Option.filter_some_pos hq, Option.map_some]
          refine ⟨fun hf => ?_, fun e' he' => ?_⟩
          · rw [hfound] at hf
            cases hf
          · rw [hfound] at he'
            obtain rfl := Option.some.inj he'
            exact ⟨⟨hst, hknown row' hrow'⟩, hq⟩
        · have hfound : ((t'.attempts.get? e.1).filter (q e.1)).map (fun row => (e.1, row)) =
              none := by
            rw [hrow', Option.filter_some_neg (by simpa using hq), Option.map_none]
          refine ⟨fun _ => ⟨hst, ?_⟩, fun e' he' => ?_⟩
          · exact hlost e.1 e.2 row' hid (Dict.find?_eq_some hfind).2 (Bool.eq_false_of_not_eq_true hq)
              st.db
          · rw [hfound] at he'
            cases he'

theorem user_of_admitted {membership : Option (String × MembershipRow)} {user : Option UserRow}
    {u : Unit} (h : admitted membership user = .ok u) : user.isSome = true := by
  cases user with
  | none => cases h
  | some user => rfl

/-- A part of a request that knows nothing yet. -/
theorem outline_require : Outlined sha c s p (require p house) (fun _ => True)
    (Contract.returns fun _ _ => True) := by
  refine Protocol.outline_peek (Contract.Stable.const True) fun t => ?_
  exact Protocol.outline_lift fun _ _ _ _ _ => trivial

theorem outline_selectMembership (hA : (contract sha c).Stable s p A)
    (htake : ∀ st row, A st → A (st.take schema s row)) :
    Outlined sha c s p (selectMembership p house) A (Contract.returns fun _ => A) := by
  refine Protocol.outline_peek hA fun t => ?_
  split
  · exact fun _ _ h => h
  · exact Protocol.outline_grab hA (fun st h => htake st _ h) fun _ _ _ h => h

/-- The session has locked the house. -/
abbrev Holds (s : Nat) (house : String) : Shared → Prop :=
  Protocol.Knows s (fun r => r = .house house) fun _ : Tables => True

theorem stable_holds : (contract sha c).Stable s p (Holds s house) :=
  Protocol.stable_knows (fun _ _ _ _ _ _ _ _ _ _ _ _ _ => trivial) fun _ _ _ _ _ => trivial

theorem stable_user : (contract sha c).Stable s p fun st => (st.db.users.get? p).isSome = true := by
  refine Protocol.stable_db (K := fun t : Tables => (t.users.get? p).isSome = true) ?_ ?_
  · intro a t q w n db _ hc hdb huser
    rw [(hc.effect hdb).users]
    exact huser
  · intro a db _ hal huser
    exact c.users a.db db hal p huser

theorem outline_authorize : Outlined sha c s p (authorize house p) (fun _ => True)
    (Contract.returns fun _ => Entered s house p) := by
  refine Protocol.outline_lock
    (R := fun t st => (t.houses.get? house).isSome = true → Holds s house st)
    (fun t => Contract.Stable.forall fun _ => stable_holds) ?_ fun t => ?_
  · intro st _ _ hhouse
    refine ⟨?_, trivial⟩
    rintro r rfl
    refine Protocol.locked_take st _ ?_
    rw [Protocol.take_db]
    exact hhouse
  refine Protocol.outline_lift fun _ hok => ?_
  refine Contract.Outline.pre (P := Holds s house) ?_ fun st _ h => h (ensure_ok hok)
  refine (outline_selectMembership stable_holds fun st row h => h.take schema row).seq
    fun membership => ?_
  refine Protocol.outline_read
    (R := fun t st => Holds s house st ∧
      ((t.users.get? p).isSome = true → (st.db.users.get? p).isSome = true))
    (fun t => stable_holds.and (Contract.Stable.forall fun _ => stable_user))
    (fun _ _ _ _ hn => by cases hn) (fun _ _ h => ⟨h, fun hu => hu⟩) fun t => ?_
  refine Protocol.outline_end fun st _ h => ?_
  cases had : admitted membership (t.users.get? p) with
  | error e => trivial
  | ok u => exact ⟨h.1.1, h.2 (user_of_admitted had)⟩

theorem outline_enter : Outlined sha c s p (enter p house) (fun _ => True)
    (Contract.returns fun _ => Entered s house p) :=
  outline_require.seq fun _ => outline_authorize

theorem outline_enterCreate (data : ProvisioningStart) :
    Outlined sha c s p (enterCreate sha p house data) (fun _ => True)
      (Contract.returns fun _ => Entered s house p) := by
  refine outline_require.seq fun _ => Protocol.outline_lift fun supplied _ => ?_
  exact outline_authorize.seq fun _ => fun _ _ h => h

/-! ### Creating -/

/-- A request about no attempt can be refused. -/
theorem notes_unmet {st : Shared} {request : ProvisioningRequest} {now : Option Instant}
    {e : RouteError}
    (h : ∀ id row, st.db.attempts.get? id = some row → ¬ Meets sha p id row request) :
    Notes sha p st (.answered request now (.error e)) :=
  fun id row hrow hmeets => absurd hmeets (h id row hrow)

/-- What a creation knows when it looks at the clock. -/
def Found (sha : Sha256) (s : Nat) (p house : String) (data : ProvisioningStart) (key : String) :
    Lookup → Shared → Prop
  | .previous id row, st => (row.houseId = house ∧ row.actorId = p ∧
      row.createKeyHash = sha.hex key ∧ row.requestHash = bodyHash sha data) ∧
        Entered s house p st ∧ Known s id row st
  | .fresh _ active, st => Lacks s house (keyed sha house p key) st ∧
      ∀ e, active = some e → Known s e.1 e.2 st

theorem outline_byHardware (hardware : String) (hA : (contract sha c).Stable s p A)
    (htake : ∀ st row, A st → A (st.take schema s row)) :
    Outlined sha c s p (byHardware hardware) A (ending (fun _ => False) fun _ => A) := by
  refine Protocol.outline_peek hA fun t => ?_
  split
  · exact fun _ _ h => h
  · exact Protocol.outline_grab hA (fun st h => htake st _ h) fun _ _ _ h => h

/-- `SELECT … FOR UPDATE` of an attempt of a house that the session has locked. -/
theorem outline_ownAttempt {q : String → AttemptRow → Bool} (hq : OfHouse house q) :
    Outlined sha c s p (selectAttempt q) (Entered s house p)
      (ending (fun _ => False) fun (found : Option (String × AttemptRow)) st =>
        (found = none → Lacks s house q st) ∧
          ∀ e, found = some e → (Entered s house p st ∧ Known s e.1 e.2 st) ∧ q e.1 e.2 = true) := by
  have hboth : (contract sha c).Stable s p fun st => Entered s house p st ∧ Without q st.db := by
    intro a b ha hb h hr
    have hlacks : Lacks s house q a := ⟨h.1.1, h.2⟩
    exact ⟨stable_entered a b ha hb h.1 hr, (stable_lacks hq a b ha hb hlacks hr).2⟩
  refine (outline_selectAttempt (N := Without q) stable_entered
    (fun st row h => h.take schema row) hboth (fun t => Without.of_find?_eq_none)
    fun id row row' hid hasked hnot => ?_).post fun r st _ h => ?_
  · rw [hq.congr id row row' hid, hasked] at hnot
    cases hnot
  · cases r with
    | error e => exact h
    | ok found => exact ⟨fun hnone => ⟨(h.1 hnone).1.1, (h.1 hnone).2⟩, h.2⟩

theorem outline_prepareCreate (data : ProvisioningStart) (supplied : String) :
    Outlined sha c s p (prepareCreate sha p house data key supplied) (Entered s house p) fun r st =>
      match r with
      | .ok lookup => Found sha s p house data key lookup st
      | .error e => Notes sha p st (.answered (.create house data key) none (.error e)) := by
  refine (outline_ownAttempt ofHouse_keyed).next (fun _ _ h => h.elim) fun found => ?_
  cases found with
  | some previous =>
      refine Contract.Outline.pre (P := fun st => keyed sha house p key previous.1 previous.2 = true ∧
        (Entered s house p st ∧ Known s previous.1 previous.2 st)) ?_ fun st _ h =>
          ⟨(h.2 previous rfl).2, (h.2 previous rfl).1⟩
      refine Contract.Outline.given fun hkeyed => ?_
      obtain ⟨hhouse, hactor, hkey⟩ := of_decide_eq_true hkeyed
      refine Protocol.outline_try (fun e st he hi h id row hrow hmeets => ?_) fun _ hok => ?_
      · -- the attempt of the key is the one that was found
        have hfound : Meets sha p previous.1 previous.2 (.create house data key) := hkeyed
        obtain rfl := Meets.unique hi.rows h.2.2 hrow hfound hmeets
        obtain rfl := Option.some.inj (h.2.2.symm.trans hrow)
        obtain ⟨hbody, rfl⟩ := ensure_refused he
        subst hhouse
        exact .otherBody (fun heq => by simp [heq] at hbody) rfl
      · exact fun st _ h =>
          ⟨⟨hhouse, hactor, hkey, of_decide_eq_true (ensure_ok hok)⟩, h.1, h.2⟩
  | none =>
      have hstable : (contract sha c).Stable s p (Lacks s house (keyed sha house p key)) :=
        stable_lacks ofHouse_keyed
      -- whatever the other checks refuse, the key was not used
      have hrefused : ∀ e st, Lacks s house (keyed sha house p key) st →
          Notes sha p st (.answered (.create house data key) none (.error e)) := by
        refine fun e st h => notes_unmet fun id row hrow hmeets => ?_
        have hnot := h.2 id row hrow
        rw [show keyed sha house p key id row = true from hmeets] at hnot
        cases hnot
      refine Contract.Outline.pre (P := Lacks s house (keyed sha house p key)) ?_ fun st _ h =>
        h.1 rfl
      refine Protocol.outline_peek hstable fun t => ?_
      refine Protocol.outline_try (fun e st _ _ h => hrefused e st h) fun _ _ => ?_
      refine (outline_byHardware data.hardwareId hstable fun st row h =>
        h.take schema row).next (fun _ _ h => h.elim) fun item => ?_
      refine Protocol.outline_try (fun e st _ _ h => hrefused e st h) fun device _ => ?_
      refine (outline_selectAttempt (N := fun _ => True) hstable
        (fun st row h => h.take schema row) (hstable.and (Contract.Stable.const True))
        (fun _ _ => trivial) fun _ _ _ _ _ _ _ => trivial).next (fun _ _ h => h.elim)
          fun active => ?_
      intro st _ h
      refine ⟨?_, fun e he => (h.2 e he).1.2⟩
      cases active with
      | none => exact (h.1 rfl).1
      | some e => exact (h.2 e rfl).1.1

/-! ### Ends of requests -/

section

variable {request : ProvisioningRequest}

/-- A refusal that can be noted. -/
theorem outline_refuse {note : ProvisioningNote} {e : RouteError}
    (h : ∀ st, Inv sha st → A st → Notes sha p st note) :
    Outlined sha c s p (refuse note e) A (Contract.returns fun _ _ => True) := by
  refine Protocol.outline_read (R := fun _ _ => True) (fun _ => Contract.Stable.const True) ?_
    (fun _ _ _ => trivial) fun _ => ?_
  · intro st n hi hA hn
    obtain rfl := Option.some.inj hn
    exact h st hi hA
  refine Protocol.outline_rollback (R := fun _ => True) (Contract.Stable.const True)
    (fun _ _ _ => trivial) ?_
  exact Protocol.outline_last

/-- A decision that may be committed; its commit fails only where a new attempt was to begin. -/
theorem outline_conclude {now : Instant} {new : Option String} {decision : Decision}
    (hcommit : ∀ st, Inv sha st → A st → Commits sha s p st decision.writes
      (some (.answered request (some now) decision.reply)))
    (htotal : (new.isSome = true ∧ ∃ house data key, request = .create house data key) ∨
      ∀ st, Inv sha st → A st → ∃ db, st.db.writes decision.writes = .ok db) :
    Outlined sha c s p (conclude request now new (.ok decision)) A
      (Contract.returns fun _ _ => True) := by
  refine Protocol.outline_commit_cases (R := fun r _ => ∀ v, r = .error v → new.isSome = true ∧
      ∃ house data key, request = .create house data key)
    (fun _ => Contract.Stable.const _) hcommit (fun _ _ _ _ _ v hv => by cases hv) ?_ fun r => ?_
  · intro st e hi hA he v _
    refine htotal.resolve_right fun htotal => ?_
    obtain ⟨db, hdb⟩ := htotal st hi hA
    change st.db.writes decision.writes = .error e at he
    rw [hdb] at he
    cases he
  cases r with
  | ok u => exact Protocol.outline_lift fun _ _ _ _ _ => trivial
  | error v =>
      refine Protocol.outline_read (R := fun _ _ => True) (fun _ => Contract.Stable.const True) ?_
        (fun _ _ _ => trivial) fun _ => ?_
      · intro st n _ h hn
        obtain rfl := Option.some.inj hn
        exact h v rfl
      · exact Protocol.outline_last

end

theorem outline_create (data : ProvisioningStart) :
    Outlined sha c s p (create sha p house data key) (fun _ => True)
      (Contract.returns fun _ _ => True) := by
  refine (outline_enterCreate data).attempt.seq fun r => ?_
  cases r with
  | error e => exact outline_refuse fun _ _ _ => trivial
  | ok supplied =>
  refine (outline_prepareCreate data supplied).attempt.seq fun r => ?_
  cases r with
  | error e => exact outline_refuse fun st _ h => h
  | ok lookup =>
      cases lookup with
      | previous id row =>
          refine Protocol.outline_now (R := fun now st => (row.Sound ∧ row.houseId = house ∧
              row.actorId = p ∧ row.createKeyHash = sha.hex key ∧ row.requestHash = bodyHash sha data) ∧
                (Known s id row st ∧ (now ∈ st.readings ∧ now ≤ st.clock)))
            (fun now => (Contract.Stable.const _).and
              ((stable_known id row).and Protocol.stable_reading)) ?_ fun now => ?_
          · intro st hi h
            exact ⟨⟨hi.rows.sound id row h.2.2.2, h.1⟩, h.2.2, List.mem_cons_self, Int.le_refl _⟩
          refine Contract.Outline.given fun hrow => ?_
          obtain ⟨hsound, rfl, hactor, hkey, hbody⟩ := hrow
          rw [decideCreate_previous sha hsound]
          refine outline_conclude (fun st _ h => ?_) (Or.inr fun st _ h => ?_)
          · exact .told h.1 h.2.1 (.replay data key hactor hkey hbody)
          · exact writes_ages_total hsound h.1.2 now
      | fresh device active =>
          have hstable : ∀ now, (contract sha c).Stable s p fun st =>
              (∀ e, active = some e → e.2.Sound) ∧ (Lacks s house (keyed sha house p key) st ∧
                (∀ e, active = some e → Known s e.1 e.2 st) ∧
                  (now ∈ st.readings ∧ now ≤ st.clock)) := fun now =>
            (Contract.Stable.const _).and ((stable_lacks ofHouse_keyed).and ((Contract.Stable.forall
              fun e : String × AttemptRow => Contract.Stable.forall fun _ =>
                stable_known e.1 e.2).and Protocol.stable_reading))
          refine Protocol.outline_now hstable ?_ fun now => ?_
          · intro st hi h
            exact ⟨fun e he => hi.rows.sound e.1 e.2 (h.2 e he).2, h.1, h.2, List.mem_cons_self,
              Int.le_refl _⟩
          refine Protocol.outline_input (hstable now) fun id => ?_
          refine Protocol.outline_input (hstable now) fun challenge => ?_
          refine Protocol.outline_input (hstable now) fun token => ?_
          refine Contract.Outline.given fun hactive => ?_
          cases hd : decideCreate sha p house data key (.fresh device active) now
            ⟨id, challenge, token⟩ with
          | error e =>
              refine outline_refuse fun st _ h k row hrow hmeets => ?_
              have hnot := h.1.2 k row hrow
              rw [show keyed sha house p key k row = true from hmeets] at hnot
              cases hnot
          | ok decision =>
              obtain ⟨hsound, rfl⟩ := decideCreate_fresh sha hactive hd
              refine outline_conclude (fun st _ h => ?_) (Or.inl ⟨rfl, house, data, key, rfl⟩)
              exact .created (h.1.1 _ rfl) h.2.1 hsound h.2.2.1 h.2.2.2

/-! ### Reading and cancelling -/

/-- A request that has not found its attempt can be refused: there is none. -/
theorem outline_load {session : String} {request : ProvisioningRequest}
    (hrequest : ∀ p id row, Meets sha p id row request → id = session ∧ row.houseId = house) :
    Outlined sha c s p (load house session) (Entered s house p) fun r st =>
      match r with
      | .ok e => (e.1 = session ∧ e.2.houseId = house) ∧
          (Entered s house p st ∧ Known s e.1 e.2 st)
      | .error e => Notes sha p st (.answered request none (.error e)) := by
  refine (outline_ownAttempt (ofHouse_load session)).next (fun _ _ h => h.elim) fun row => ?_
  refine Protocol.outline_end fun st _ h => ?_
  cases row with
  | none =>
      refine notes_unmet fun id row hrow hmeets => ?_
      have hnot := (h.1 rfl).2 id row hrow
      exact of_decide_eq_false hnot (hrequest p id row hmeets)
  | some e => exact ⟨of_decide_eq_true (h.2 e rfl).2, (h.2 e rfl).1⟩

/-- A session that has loaded an attempt has looked at the clock. -/
theorem outline_loaded {id : String} {row : AttemptRow} {f : Instant → Request Unit}
    (hf : ∀ now, row.Sound → row.createdAt ≤ now → Outlined sha c s p (f now)
      (fun st => Known s id row st ∧ (st.db.users.get? p).isSome = true ∧ now ∈ st.readings)
      (Contract.returns fun _ _ => True)) :
    Outlined sha c s p (Sql.now >>= f) (fun st => Entered s house p st ∧ Known s id row st)
      (Contract.returns fun _ _ => True) := by
  refine Protocol.outline_now (R := fun now st => (row.Sound ∧ row.createdAt ≤ now) ∧
      (Known s id row st ∧ (st.db.users.get? p).isSome = true ∧
        (now ∈ st.readings ∧ now ≤ st.clock)))
    (fun now => (Contract.Stable.const _).and
      ((stable_known id row).and (stable_user.and Protocol.stable_reading))) ?_ fun now => ?_
  · intro st hi h
    exact ⟨⟨hi.rows.sound id row h.2.2, hi.rows.created id row h.2.2⟩, h.2, h.1.2,
      List.mem_cons_self, Int.le_refl _⟩
  refine Contract.Outline.given fun hrow => ?_
  exact (hf now hrow.1 hrow.2).pre fun st _ h => ⟨h.1, h.2.1, h.2.2.1⟩

theorem outline_onAttempt {session : String} {request : ProvisioningRequest}
    {decide : String → AttemptRow → Instant → Except RouteError Decision}
    (hrequest : ∀ p id row, Meets sha p id row request → id = session ∧ row.houseId = house)
    (hdecide : ∀ row now, row.houseId = house → row.Sound → row.createdAt ≤ now →
      Outlined sha c s p (conclude request now none (decide session row now))
        (fun st => Known s session row st ∧ (st.db.users.get? p).isSome = true ∧ now ∈ st.readings)
        (Contract.returns fun _ _ => True)) :
    Outlined sha c s p (onAttempt p house session request decide) (fun _ => True)
      (Contract.returns fun _ _ => True) := by
  refine outline_enter.attempt.seq fun r => ?_
  cases r with
  | error e => exact outline_refuse fun _ _ _ => trivial
  | ok u =>
  refine (outline_load hrequest).attempt.seq fun r => ?_
  cases r with
  | error e => exact outline_refuse fun st _ h => h
  | ok e =>
      obtain ⟨id, row⟩ := e
      refine Contract.Outline.given fun hrow => ?_
      obtain ⟨rfl, hhouse⟩ := hrow
      exact outline_loaded fun now hsound hcreated => hdecide row now hhouse hsound hcreated

theorem outline_get (session : String) : Outlined sha c s p (get sha p house session)
    (fun _ => True) (Contract.returns fun _ _ => True) := by
  refine outline_onAttempt (fun _ _ _ h => ⟨h.1.symm, h.2⟩) fun row now hhouse hsound _ => ?_
  subst hhouse
  rw [decideGet_eq sha hsound]
  refine outline_conclude (fun st _ h => ?_) (Or.inr fun st _ h => ?_)
  · exact .told h.1 h.2.2 .get
  · exact writes_ages_total hsound h.1.2 now

theorem outline_cancel (session : String) (revision : Nat) :
    Outlined sha c s p (cancel sha p house session revision key) (fun _ => True)
      (Contract.returns fun _ _ => True) := by
  refine outline_onAttempt (fun _ _ _ h => ⟨h.1.symm, h.2⟩) fun row now hhouse hsound hcreated => ?_
  subst hhouse
  rw [decideCancel_eq sha hsound hcreated]
  cases hd : cancels sha p session row revision key now with
  | error e =>
      refine outline_refuse fun st hi h k r hr hmeets => ?_
      obtain rfl : session = k := hmeets.1
      obtain rfl := Option.some.inj (h.1.2.symm.trans hr)
      exact cancels_refused hd
  | ok decision =>
      refine outline_conclude (fun st _ h => ?_) (Or.inr fun st _ h => ?_)
      · exact .cancelled h.1 h.2.2 hd
      · exact cancels_total hd h.1.2 hsound h.2.1

/-! ### Manual claims -/

/-- A program whose commits leave the attempts alone. -/
def Bystander {α : Type} : Structure.Request α → Prop
  | .ret _ => True
  | .raise _ => True
  | .call (.read _) k => ∀ t, Bystander (k t)
  | .call (.lock _) k => ∀ t, Bystander (k t)
  | .call (.commit w _) k => (∀ x ∈ w, Apart x) ∧ ∀ r, Bystander (k r)
  | .call .rollback k => ∀ u, Bystander (k u)
  | .call .now k => ∀ now, Bystander (k now)
  | .call .input k => ∀ x, Bystander (k x)

theorem Bystander.bind {α β : Type} {m : Structure.Request α} {f : α → Structure.Request β}
    (hm : Bystander m) (hf : ∀ a, Bystander (f a)) : Bystander (m >>= f) := by
  induction m with
  | ret a => exact hf a
  | raise e => trivial
  | call op k ih =>
      cases op with
      | commit w note => exact ⟨hm.1, fun r => ih r (hm.2 r)⟩
      | _ => exact fun a => ih a (hm a)

theorem bystander_lift {α : Type} (x : Except RouteError α) : Bystander (Prog.lift x) := by
  cases x with
  | error e => trivial
  | ok a => trivial

theorem apart_insertDevice (device : String) (row : DeviceRow) :
    Apart (.insertDevice device row) := by
  intro t t' h
  simp only [Tables.write] at h
  split at h
  · obtain rfl := Except.ok.inj h
    exact ⟨rfl, rfl, rfl⟩
  · cases h

theorem apart_bind (device house : String) : Apart (.bind device house) := by
  intro t t' h
  simp only [Tables.write] at h
  split at h
  · split at h
    · cases h
    split at h
    · obtain rfl := Except.ok.inj h
      exact ⟨rfl, rfl, rfl⟩
    · cases h
  · cases h

theorem bystander_claim (actor house hardware : String) (digest : Except Error String)
    (room name : String) : Bystander (Structure.claim actor house hardware digest room name) := by
  have hrequire : Bystander (Structure.require actor house .deviceOnboard) :=
    fun t => (bystander_lift _).bind fun _ => trivial
  have hhardware : Bystander (Structure.byHardware hardware) :=
    fun t => (bystander_lift _).bind fun e t => (bystander_lift _).bind fun _ => trivial
  refine hrequire.bind fun _ _ => hhardware.bind fun e => ?_
  refine (bystander_lift _).bind fun _ => (bystander_lift _).bind fun _ => ?_
  refine (bystander_lift _).bind fun _ => (bystander_lift _).bind fun _ t => ?_
  refine (bystander_lift _).bind fun _ => (bystander_lift _).bind fun _ => ?_
  refine (bystander_lift _).bind fun profile => ⟨fun x hx => ?_, fun r => bystander_lift _⟩
  rcases List.mem_cons.mp hx with rfl | hx
  · exact apart_insertDevice _ _
  · obtain rfl := List.mem_singleton.mp hx
    exact apart_bind _ _

theorem outline_bystander {α : Type} {m : Structure.Request α} (h : Bystander m) :
    Outlined sha c s p (Sql.renote (fun _ => none) m) (fun _ => True)
      (Contract.returns fun _ _ => True) := by
  have htrue : (contract sha c).Stable s p fun _ => True := Contract.Stable.const True
  induction m with
  | ret a => exact fun _ _ _ => trivial
  | raise e => exact fun _ _ _ => trivial
  | call op k ih =>
      cases op with
      | read note =>
          refine Protocol.outline_read (fun _ => htrue) (fun _ _ _ _ hn => ?_) (fun _ _ _ => trivial)
            fun t => ih t (h t)
          cases note with
          | none => cases hn
          | some note => cases hn
      | lock row => exact Protocol.outline_grab htrue (fun _ _ => trivial) fun t => ih t (h t)
      | commit w note =>
          have hnote : note.bind (fun _ => (none : Option ProvisioningNote)) = none := by
            cases note with
            | none => rfl
            | some note => rfl
          refine Protocol.outline_commit (fun _ => htrue) (fun st _ _ => ?_) (fun _ _ _ _ _ => trivial)
            (fun _ _ _ _ => trivial) fun r => ih r (h.2 r)
          rw [hnote]
          exact .claimed h.1
      | rollback => exact Protocol.outline_rollback htrue (fun _ _ _ => trivial) (ih () (h ()))
      | now => exact Protocol.outline_now (fun _ => htrue) (fun _ _ _ => trivial) fun t => ih t (h t)
      | input => exact Protocol.outline_input htrue fun x => ih x (h x)

theorem outline_program (s : Nat) (p : String) (request : ProvisioningRequest) :
    Outlined sha c s p (program sha s p request) (fun _ => True) (fun _ _ => True) := by
  suffices h : Outlined sha c s p (program sha s p request) (fun _ => True)
      (Contract.returns fun _ _ => True) from h.post fun _ _ _ _ => trivial
  cases request with
  | create house data key => exact outline_create data
  | get house session => exact outline_get session
  | cancel house session revision key => exact outline_cancel session revision
  | claim house data => exact outline_bystander (bystander_claim _ _ _ _ _ _)

end

/-! ### Runs -/

/-- States of the requests. -/
abbrev Requests := Session.State (interface Tables TableRow Statement Violation ProvisioningNote)
  Shared String RouteError

/-- What happens to them. -/
abbrev Event := Session.Label String ProvisioningRequest String (Outside Tables)

/-- Requests side by side, while something else happens. -/
def requestsAmong (sha : Sha256) (c : Elsewhere) : Transition.System Requests Event :=
  system (machine schema c.allowed) (program sha)

/-- Nothing else happens. -/
def nothing : Elsewhere where
  allowed := undisturbed
  attempts _ _ h := by cases h
  issued _ _ h := by cases h
  users _ _ h := by cases h

/-- No request was made yet. -/
def unused (t : Tables) (clock : Instant) : Requests :=
  State.init (Store.init { t with attempts := .empty } clock)

theorem inv_unused (t : Tables) (clock : Instant) : Inv sha (unused t clock).shared where
  rows := by
    constructor <;> intro id
    all_goals simp [unused, State.init, Store.init]
  once id := Nat.zero_le 1
  terminal id h := absurd h (Nat.lt_irrefl 0)

/-- A note is lawful. -/
theorem Notes.lawful {p : String} {st : Shared} {note : ProvisioningNote} (s : Nat)
    (h : Notes sha p st note) : Lawful sha ⟨s, p, st.db, note⟩ st.db := by
  cases note with
  | barred request e => rfl
  | failed request id => exact ⟨rfl, h⟩
  | answered request now reply =>
      cases reply with
      | ok status => exact h.elim
      | error e => exact ⟨h, fun _ => .failed rfl⟩

section

variable {t : Tables} {clock : Instant}

theorem run_inv (c : Elsewhere) (labels : List Event) :
    Inv sha ((requestsAmong sha c).run (unused t clock) labels).shared :=
  Protocol.run_inv (keeps c) outline_program (inv_unused t clock) labels

end

end Provisioning

end KzHome

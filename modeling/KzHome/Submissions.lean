import KzHome.Records

/-!
# KzHome.Submissions

Submissions over a run: one row for a key, one attempt to send it, one answer.

What makes the sending unique is noted with the event itself (`Logged.sending`):
the session that committed a row is the only one that may send it, and only while
nothing in the log says that it was sent. The rest is bookkeeping about the log:
every event done for a submission belongs to the one row of its key
(`Event.onBehalf`).
-/

namespace KzHome

open Session

variable {cfg : Config} {registry : Registry} {s pid : Nat} {a b : Shared}

/-- The submission an event was noted for. -/
def Event.onBehalf : Event → Option Submission
  | .processed e => e.submission
  | .created _ sub _ => some sub
  | .sendCall sub _ => some sub
  | .reply sub _ => some sub
  | _ => none

/-! ### The row of a submission -/

/-- Every event done for a submission has a row that agrees with it, and a reply
names that row. -/
structure Answered (db : Ledger) (log : List Event) : Prop where
  agrees : ∀ e ∈ log, ∀ sub, e.onBehalf = some sub → ∃ r ∈ db.commands, sub.Agrees r
  reply : ∀ sub id, .reply sub id ∈ log → ∃ r ∈ db.commands, r.commandId = id ∧ sub.Agrees r

theorem Submission.Agrees.newRow (sub : Submission) (id correlation : String) (now : Instant) :
    sub.Agrees (Services.newRow sub id correlation now) := ⟨rfl, rfl, rfl⟩

theorem Does.answered (hi : Inv a) (h : Answered a.db a.log) (hd : Does cfg s pid a b) :
    Answered b.db b.log := by
  have hkeep : ∀ {r : DeviceCommand} {sub : Submission}, r ∈ a.db.commands → sub.Agrees r →
      ∃ r' ∈ b.db.commands, r'.commandId = r.commandId ∧ sub.Agrees r' := by
    intro r sub hr hag
    obtain ⟨r', hr', hid, hl⟩ := (hd.frame hi).lifecycle hi.valid hr
    exact ⟨r', hr', hid, hag.lifecycle hl⟩
  refine ⟨fun e he sub hs => ?_, fun sub id he => ?_⟩
  · have hold : ∀ {e : Event}, e ∈ a.log → e.onBehalf = some sub →
        ∃ r ∈ b.db.commands, sub.Agrees r := by
      intro e he hs
      obtain ⟨r, hr, hag⟩ := h.agrees e he sub hs
      obtain ⟨r', hr', -, hag'⟩ := hkeep hr hag
      exact ⟨r', hr', hag'⟩
    rcases hd.mem_log hi he with he | hnew
    · exact hold he hs
    · cases e with
      | processed p => exact hnew.2.2 sub hs
      | created s' sub' row =>
          obtain rfl := Option.some.inj hs
          obtain ⟨-, -, hmem, -, -, id, correlation, now, rfl⟩ := hnew
          exact ⟨_, hmem, .newRow _ id correlation now⟩
      | sendCall sub' id =>
          obtain rfl := Option.some.inj hs
          obtain ⟨row, hc, -⟩ := hnew
          exact hold hc rfl
      | reply sub' id =>
          obtain rfl := Option.some.inj hs
          obtain ⟨r, hr, -, hag⟩ := hnew
          obtain ⟨r', hr', -, hag'⟩ := hkeep hr hag
          exact ⟨r', hr', hag'⟩
      | _ => cases hs
  · rcases hd.mem_log hi he with he | ⟨r, hr, hid, hag⟩
    · obtain ⟨r, hr, hid, hag⟩ := h.reply sub id he
      obtain ⟨r', hr', hid', hag'⟩ := hkeep hr hag
      exact ⟨r', hr', hid'.trans hid, hag'⟩
    · obtain ⟨r', hr', hid', hag'⟩ := hkeep hr hag
      exact ⟨r', hr', hid'.trans hid, hag'⟩

theorem answered (cfg : Config) (registry : Registry) (labels : List Label) :
    Answered (after cfg registry labels).shared.db (after cfg registry labels).shared.log :=
  after_ledger (P := Answered) ⟨fun _ h => (by cases h), fun _ _ h => (by cases h)⟩
    (fun hi h hd => hd.answered hi h) labels

/-! ### Sending a row -/

/-- How often the command of a row was sent, by one of the two measures. -/
def timesSent (k : Sending) (id : String) (log : List Event) : Nat :=
  log.countP fun e => e.sending = some (k, id)

/-- An operation notes at most one event about sending. -/
theorem Does.sends_once (hd : Does cfg s pid a b) :
    ∃ es, b.log = a.log ++ es ∧ ∀ k id, timesSent k id es ≤ 1 := by
  obtain ⟨es, hlog, hes⟩ := hd.notes
  refine ⟨es, hlog, fun k id => ?_⟩
  cases hes with
  | nothing => exact Nat.zero_le _
  | one e => exact List.countP_le_length
  | freed p s sub row => simp [timesSent, Event.sending]

/-- **Sending happens at most once**, and after the commit of the row. -/
structure SentOnce (log : List Event) : Prop where
  once : ∀ k id, timesSent k id log ≤ 1
  committed : ∀ before e rest, log = before ++ e :: rest → ∀ k id, e.sending = some (k, id) →
    ∃ s sub row, .created s sub row ∈ before ∧ row.commandId = id

theorem Does.sentOnce (hi : Inv a) (h : SentOnce a.log) (hd : Does cfg s pid a b) :
    SentOnce b.log := by
  obtain ⟨es, hlog, hes⟩ := hd.sends_once
  have hnew : ∀ e ∈ es, ∀ k id, e.sending = some (k, id) →
      (∃ sub row, .created s sub row ∈ a.log ∧ row.commandId = id) ∧
        ∀ e' ∈ a.log, e'.sending ≠ some (k, id) := by
    obtain ⟨es', hlog', hes'⟩ := hd.logged hi
    obtain rfl : es = es' := List.append_cancel_left (hlog.symm.trans hlog')
    exact fun e he k id hs => (hes' e he).sending hs
  refine ⟨fun k id => ?_, fun before e rest heq k id hs => ?_⟩
  · have hsum : timesSent k id b.log = timesSent k id a.log + timesSent k id es := by
      rw [hlog]; exact List.countP_append
    by_cases hz : timesSent k id es = 0
    · rw [hsum, hz]; exact h.once k id
    · -- it is being sent now, so it was not sent before
      obtain ⟨e, he, hs⟩ := List.countP_pos_iff.mp (Nat.pos_of_ne_zero hz)
      have hzero : timesSent k id a.log = 0 := List.countP_eq_zero.mpr fun e' he' => by
        simpa using (hnew e he k id (by simpa using hs)).2 e' he'
      rw [hsum, hzero, Nat.zero_add]
      exact hes k id
  · rw [hlog] at heq
    rcases List.append_eq_append_iff.mp heq with ⟨mid, rfl, hmid⟩ | ⟨mid, hmid, hrest⟩
    · obtain ⟨⟨sub, row, hc, hid⟩, -⟩ := hnew e (by rw [hmid]; simp) k id hs
      exact ⟨s, sub, row, List.mem_append_left _ hc, hid⟩
    · cases mid with
      | nil =>
          have he : e ∈ es := by
            rw [← show e :: rest = es from hrest]; exact List.mem_cons_self ..
          obtain ⟨⟨sub, row, hc, hid⟩, -⟩ := hnew e he k id hs
          exact ⟨s, sub, row, by simpa [hmid] using hc, hid⟩
      | cons e' mid =>
          obtain ⟨rfl, -⟩ : e = e' ∧ rest = mid ++ es := by simpa using hrest
          exact h.committed before e mid hmid k id hs

theorem sentOnce (cfg : Config) (registry : Registry) (labels : List Label) :
    SentOnce (after cfg registry labels).shared.log :=
  after_ledger (P := fun _ log => SentOnce log)
    ⟨fun _ _ => Nat.zero_le _, fun before e rest h => by simp at h⟩
    (fun hi h hd => hd.sentOnce hi h) labels

/-! ### Messages -/

/-- Every message of a row is that row's, published in time. -/
def Faithful (st : Shared) : Prop :=
  ∀ d id, .dispatched d ∈ st.log → d.row = some id →
    ∃ row ∈ st.db.commands, row.commandId = id ∧ d.frame.Carries row ∧
      row.createdAt ≤ d.now ∧ d.now < row.expiresAt ∧ d.now ∈ st.readings

theorem Faithful.keep (h : Faithful a) (hlog : b.log = a.log) (hdb : b.db = a.db)
    (hread : b.readings = a.readings) : Faithful b := by
  unfold Faithful
  rw [hlog, hdb, hread]
  exact h

theorem Does.faithful (hi : Inv a) (h : Faithful a) (hd : Does cfg s pid a b) : Faithful b := by
  have hf := hd.frame hi
  have hkeep : ∀ {d : Dispatch} {id : String}, (∃ r ∈ a.db.commands, r.commandId = id ∧
      d.frame.Carries r) → d.frame.timestamp ≤ d.now → d.now < d.frame.expiresAt →
      d.now ∈ a.readings → ∃ row ∈ b.db.commands, row.commandId = id ∧ d.frame.Carries row ∧
        row.createdAt ≤ d.now ∧ d.now < row.expiresAt ∧ d.now ∈ b.readings := by
    rintro d id ⟨r, hr, hid, hc⟩ hle hlt hread
    obtain ⟨r', hr', hid', hl⟩ := hf.lifecycle hi.valid hr
    have hc' := hc.of_fixed hl.fixed
    have hts : d.frame.timestamp = r'.createdAt := by rw [show d.frame = _ from hc']
    have hex : d.frame.expiresAt = r'.expiresAt := by rw [show d.frame = _ from hc']
    exact ⟨r', hr', hid'.trans hid, hc', hts ▸ hle, hex ▸ hlt, hf.readings.subset hread⟩
  intro d id he hrow
  rcases hd.mem_log hi he with hold | hnew
  · obtain ⟨r, hr, hid, hc, hle, hlt, hread⟩ := h d id hold hrow
    have hts : d.frame.timestamp = r.createdAt := by rw [show d.frame = _ from hc]
    have hex : d.frame.expiresAt = r.expiresAt := by rw [show d.frame = _ from hc]
    exact hkeep ⟨r, hr, hid, hc⟩ (hts ▸ hle) (hex ▸ hlt) hread
  · have hd' : Dispatchable cfg s a d := hnew
    exact hkeep (hd'.row id hrow).carries hd'.started hd'.early hd'.reading

theorem faithful (cfg : Config) (registry : Registry) (labels : List Label) :
    Faithful (after cfg registry labels).shared := by
  refine after_invariant (P := Faithful) (fun _ _ h => by cases h)
    (fun hi h hd => hd.faithful hi h) (fun _ h => h.keep rfl rfl rfl) (fun _ h ha => ?_) labels
  obtain ⟨hdb, -, hlog, hread⟩ := act_frame ha
  exact h.keep hlog hdb hread

/-! ### Conflicting submissions -/

/-- The row of a key is the only one with that key. -/
theorem Answered.same (hi : Inv a) (h : Answered a.db a.log) {e : Event} (he : e ∈ a.log)
    {sub : Submission} (hs : e.onBehalf = some sub) {row : DeviceCommand}
    (hr : row ∈ a.db.commands) (hk : row.key = sub.key) :
    row.deviceId = sub.device ∧ row.requestedOn = sub.on := by
  obtain ⟨r, hr', hag⟩ := h.agrees e he sub hs
  obtain rfl := Table.eq_of_key hi.valid.keys hr hr' (hk.trans hag.1.symm)
  exact hag.2

/-- The lookup of a key that was used for another device or value. -/
theorem conflict_step {w w' : World} (hi : Inv w.shared) {sub : Submission} {entity : Device}
    (hm : w.sessions s = some (pid, Services.submitKeyed cfg s sub entity)) {row : DeviceCommand}
    (hr : row ∈ w.shared.db.commands) (hk : row.key = sub.key)
    (hne : row.deviceId ≠ sub.device ∨ row.requestedOn ≠ sub.on) {input : Input}
    (h : (coreSystem cfg).step w (.exec s input) = some w') :
    w'.sessions s =
        some (pid, .raise (.conflict "Idempotency key was used for another intent")) ∧
      ∃ locks, w'.shared = { w.shared with locks } := by
  obtain ⟨k, hprog, hfound⟩ : ∃ k : Option DeviceCommand → Program Unit,
      Services.submitKeyed cfg s sub entity =
        .call (.find (.key sub.house sub.user sub.hash)) k ∧
      ∀ previous, k (some previous) = Services.submitReplay sub previous :=
    ⟨_, rfl, fun _ => rfl⟩
  rw [hprog] at hm
  have hmatch : (Selector.key sub.house sub.user sub.hash).matches row = true := by
    simp only [DeviceCommand.key, Submission.key, Prod.mk.injEq] at hk
    simp [Selector.matches, hk.1, hk.2.1, hk.2.2]
  -- the lookup returns this row, as no other one has the key
  obtain ⟨row', hf⟩ : ∃ row', w.shared.db.commands.find?
      (Selector.key sub.house sub.user sub.hash).matches = some row' :=
    Option.isSome_iff_exists.mp (List.find?_isSome.mpr ⟨row, hr, hmatch⟩)
  obtain rfl : row' = row := by
    refine Table.eq_of_key hi.valid.keys (List.mem_of_find?_eq_some hf) hr ?_
    have := List.find?_some hf
    simp only [Selector.matches, Bool.and_eq_true, decide_eq_true_eq] at this
    rw [hk]
    simp [DeviceCommand.key, Submission.key, this.1.1, this.1.2, this.2]
  simp only [coreSystem, Session.system, Session.step, hm, Option.map_eq_some_iff] at h
  obtain ⟨⟨ans, sh⟩, hh, rfl⟩ := h
  simp only [core, Shared.handle, hf] at hh
  obtain ⟨st, hlock, hst⟩ := Option.map_eq_some_iff.mp hh
  obtain ⟨rfl, rfl⟩ := Prod.mk.inj hst
  unfold Shared.lock at hlock
  split at hlock
  · obtain rfl := Option.some.inj hlock
    refine ⟨?_, _, rfl⟩
    dsimp only
    rw [Function.update_self, hfound, Services.submitReplay, if_pos hne]
  · cases hlock

/-- **At-most-once dispatch and idempotency.** In every run: the keys of the rows
are distinct, and so are the devices of the pending ones; the command of a row is
sent at most once, after its commit; the replies for one key name one row; no event
is done for a submission whose key belongs to another device or value, and its
lookup ends in a conflict that changes nothing; and a message of a row is exactly
that row's, published at a reading of the clock inside its validity. -/
theorem at_most_once (cfg : Config) (registry : Registry) (labels : List Label) :
    let w := after cfg registry labels
    (w.shared.db.commands.map (·.key)).Nodup ∧
    (w.shared.db.pendingRows.map (·.deviceId)).Nodup ∧
    (∀ k id, timesSent k id w.shared.log ≤ 1) ∧
    (∀ before e rest, w.shared.log = before ++ e :: rest → ∀ k id, e.sending = some (k, id) →
      ∃ s sub row, .created s sub row ∈ before ∧ row.commandId = id) ∧
    (∀ sub sub' id id', .reply sub id ∈ w.shared.log → .reply sub' id' ∈ w.shared.log →
      sub.key = sub'.key → id = id') ∧
    (∀ e ∈ w.shared.log, ∀ sub, e.onBehalf = some sub → ∀ row ∈ w.shared.db.commands,
      row.key = sub.key → row.deviceId = sub.device ∧ row.requestedOn = sub.on) ∧
    (∀ s pid sub entity, w.sessions s = some (pid, Services.submitKeyed cfg s sub entity) →
      ∀ row ∈ w.shared.db.commands, row.key = sub.key →
        (row.deviceId ≠ sub.device ∨ row.requestedOn ≠ sub.on) →
        ∀ input w', (coreSystem cfg).step w (.exec s input) = some w' →
          w'.sessions s =
              some (pid, .raise (.conflict "Idempotency key was used for another intent")) ∧
            ∃ locks, w'.shared = { w.shared with locks }) ∧
    (∀ d id, .dispatched d ∈ w.shared.log → d.row = some id →
      ∃ row ∈ w.shared.db.commands, row.commandId = id ∧ d.frame.Carries row ∧
        row.createdAt ≤ d.now ∧ d.now < row.expiresAt ∧ d.now ∈ w.shared.readings) := by
  intro w
  have hi : Inv w.shared := after_inv cfg registry labels
  have hans : Answered w.shared.db w.shared.log := answered cfg registry labels
  have hsent : SentOnce w.shared.log := sentOnce cfg registry labels
  refine ⟨hi.valid.keys, hi.valid.pendingDevices, hsent.once, hsent.committed, ?_, ?_, ?_,
    faithful cfg registry labels⟩
  · intro sub sub' id id' hr hr' hk
    obtain ⟨r, hm, rfl, hag⟩ := hans.reply sub id hr
    obtain ⟨r', hm', rfl, hag'⟩ := hans.reply sub' id' hr'
    rw [Table.eq_of_key hi.valid.keys hm hm' (hag.1.trans (hk.trans hag'.1.symm))]
  · exact fun e he sub hs row hr hk => hans.same hi he hs hr hk
  · intro s pid sub entity hm row hr hk hne input w' hstep
    exact conflict_step hi hm hr hk hne hstep

end KzHome

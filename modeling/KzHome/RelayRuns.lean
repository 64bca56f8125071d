import KzHome.Relay

/-!
# KzHome.RelayRuns

What the relay does with a command over a whole run.

An executed command is remembered: as long as its id is in the cache, every message with it is
answered from there, and once the entry has expired, the command is older than the window in which
commands are accepted (`Remembered`). The retention starts at the later of the timestamp and the
reading of the clock, so it covers the window for every skew between the two.
-/

namespace KzHome.Simulator

open JsonGrammar
open PyValues

/-! ### Judging -/

/-- A command that may be executed: what its expiry and its timestamp have to be. -/
structure Timely (now : Int) (c : Command) : Prop where
  lifetime : ∀ e ∈ c.expiresAt, e.aware = true ∧ 0 < e.instant - c.timestamp.instant ∧
    e.instant - c.timestamp.instant ≤ 30 * second ∧ now < e.instant
  recent : now - 300 * second ≤ c.timestamp.instant
  ahead : c.timestamp.instant ≤ now + 30 * second

theorem lifetime_of_none {now : Int} {c : Command} (h : lifetimeError now c = none) :
    ∀ e ∈ c.expiresAt, e.aware = true ∧ 0 < e.instant - c.timestamp.instant ∧
      e.instant - c.timestamp.instant ≤ 30 * second ∧ now < e.instant := by
  intro e he
  rw [lifetimeError, Option.mem_def.mp he] at h
  simp only at h
  split at h
  · cases h
  · rename_i hlife
    split at h
    · cases h
    · rename_i hnow
      simp only [Bool.or_eq_true, Bool.not_eq_true', Bool.and_eq_false_iff, not_or,
        Bool.not_eq_false, decide_eq_false_iff_not, not_not] at hlife
      exact ⟨hlife.1, hlife.2.1, hlife.2.2, not_le.mp hnow⟩

theorem window_of_inside {now timestamp : Int}
    (h : outsideWindow now timestamp = .ok false) :
    now - 300 * second ≤ timestamp ∧ timestamp ≤ now + 30 * second := by
  unfold outsideWindow at h
  split at h
  · cases h
  · split at h
    · cases h
    · rename_i hold
      split at h
      · cases h
      · have hahead := of_decide_eq_false (Except.ok.inj h)
        exact ⟨not_lt.mp hold, not_lt.mp hahead⟩

/-- Only a timely command is executed. -/
theorem timely_of_applied {now : Int} {c : Command} {on : Bool}
    (h : verdict now c = .ok (.applied on)) : Timely now c := by
  unfold verdict at h
  split at h
  · cases h
  · rename_i hlife
    split at h
    · cases h
    · cases h
    · rename_i hwindow
      have hin := window_of_inside hwindow
      exact ⟨lifetime_of_none hlife, hin.1, hin.2⟩

theorem retention_covers {now expires : Int} {c : Command}
    (h : retention now c = .ok expires) :
    c.timestamp.instant + commandWindow ≤ expires ∧ now + commandWindow ≤ expires := by
  unfold retention at h
  split at h
  · rename_i hlt
    split at h
    · cases h
    · cases h
      omega
  · rename_i hle
    split at h
    · cases h
    · cases h
      omega

/-! ### Steps -/

@[simp] theorem purge_on (s : Relay) (now : Int) : (s.purge now).on = s.on := rfl

theorem purge_get? {s : Relay} {now : Int} {k : String} {e : Entry} :
    (s.purge now).seen.get? k = some e ↔ s.seen.get? k = some e ∧ now ≤ e.expires := by
  rw [Relay.purge, Dict.get?_filter, decide_eq_true_eq]

theorem purge_size (s : Relay) (now : Int) : (s.purge now).seen.size ≤ s.seen.size :=
  Dict.size_le fun _ _ h => (purge_get?.mp h).1

@[simp] theorem apply_seen (s : Relay) (v : Verdict) : (s.apply v).seen = s.seen := by
  cases v with
  | applied on => rfl
  | rejected code => rfl

/-- What a command does to the relay, and what is answered. -/
inductive Turn (s : Relay) (now later : Int) (c : Command) :
    Relay → Except RelayError (List Published) → Prop
  | repeated {e : Entry} (hget : (s.purge now).seen.get? c.commandId = some e)
      (hsame : c.same e.command = true) : Turn s now later c (s.purge now) (.ok [.ack e.ack])
  | reused {e : Entry} (hget : (s.purge now).seen.get? c.commandId = some e)
      (hsame : c.same e.command = false) : Turn s now later c (s.purge now) (.error .reused)
  | unjudged {e : RelayError} (hget : (s.purge now).seen.get? c.commandId = none)
      (hverdict : verdict now c = .error e) : Turn s now later c (s.purge now) (.error e)
  | full {v : Verdict} (hget : (s.purge now).seen.get? c.commandId = none)
      (hverdict : verdict now c = .ok v) (hfull : 4096 ≤ (s.purge now).seen.size) :
      Turn s now later c (s.purge now) (.error .capacity)
  | overflowed {v : Verdict} {e : RelayError}
      (hget : (s.purge now).seen.get? c.commandId = none) (hverdict : verdict now c = .ok v)
      (hroom : (s.purge now).seen.size < 4096) (hretention : retention now c = .error e) :
      Turn s now later c ((s.purge now).apply v) (.error e)
  | answered {v : Verdict} {expires : Int}
      (hget : (s.purge now).seen.get? c.commandId = none) (hverdict : verdict now c = .ok v)
      (hroom : (s.purge now).seen.size < 4096) (hretention : retention now c = .ok expires) :
      Turn s now later c
        { (s.purge now).apply v with
          seen := (s.purge now).seen.set c.commandId ⟨expires, c, acknowledge now c v⟩ }
        (.ok (.ack (acknowledge now c v) :: announce later c v))

theorem accept_turn (s : Relay) (now later : Int) (c : Command) :
    Turn s now later c (s.accept now later c).1 (s.accept now later c).2 := by
  unfold Relay.accept
  simp only
  cases hget : (s.purge now).seen.get? c.commandId with
  | some e =>
      simp only
      cases hsame : c.same e.command with
      | true => exact .repeated hget hsame
      | false => exact .reused hget hsame
  | none =>
      simp only
      cases hverdict : verdict now c with
      | error e => exact .unjudged hget hverdict
      | ok v =>
          simp only
          split
          · rename_i hfull
            exact .full hget hverdict hfull
          · rename_i hroom
            cases hretention : retention now c with
            | error e => exact .overflowed hget hverdict (not_le.mp hroom) hretention
            | ok expires =>
                simp only [apply_seen]
                exact .answered hget hverdict (not_le.mp hroom) hretention

theorem handle_of_decode {cfg : Config} {s : Relay} {d : Delivery} {c : Command}
    (h : decode cfg d.message = .ok c) : s.handle cfg d = s.accept d.now d.later c := by
  rw [Relay.handle, h]

theorem handle_of_error {cfg : Config} {s : Relay} {d : Delivery} {e : RelayError}
    (h : decode cfg d.message = .error e) : s.handle cfg d = (s, .error e) := by
  rw [Relay.handle, h]

/-! ### The cache -/

/-- An entry stays as it is until it has expired. -/
theorem Turn.keeps {s s' : Relay} {now later : Int} {c : Command}
    {r : Except RelayError (List Published)} (h : Turn s now later c s' r) {k : String} {e : Entry}
    (he : s.seen.get? k = some e) (hnow : now ≤ e.expires) : s'.seen.get? k = some e := by
  have hpurge : (s.purge now).seen.get? k = some e := purge_get?.mpr ⟨he, hnow⟩
  cases h with
  | repeated _ _ => exact hpurge
  | reused _ _ => exact hpurge
  | unjudged _ _ => exact hpurge
  | full _ _ _ => exact hpurge
  | overflowed _ _ _ _ => rwa [apply_seen]
  | answered hget _ _ _ =>
      have hne : k ≠ c.commandId := by
        rintro rfl
        rw [hpurge] at hget
        cases hget
      rw [Dict.get?_set_eq, if_neg hne]
      exact hpurge

theorem handle_keeps {cfg : Config} {s : Relay} {d : Delivery} {k : String} {e : Entry}
    (he : s.seen.get? k = some e) (hnow : d.now ≤ e.expires) :
    (s.handle cfg d).1.seen.get? k = some e := by
  cases h : decode cfg d.message with
  | error r => rwa [handle_of_error h]
  | ok c =>
      rw [handle_of_decode h]
      exact (accept_turn s d.now d.later c).keeps he hnow

theorem run_keeps {cfg : Config} {s : Relay} {ds : List Delivery} {k : String} {e : Entry}
    (he : s.seen.get? k = some e) (hnow : ∀ d ∈ ds, d.now ≤ e.expires) :
    (s.run cfg ds).seen.get? k = some e := by
  induction ds generalizing s with
  | nil => exact he
  | cons d ds ih =>
      exact ih (handle_keeps he (hnow d List.mem_cons_self))
        fun d' hd' => hnow d' (List.mem_cons_of_mem d hd')

theorem Turn.size {s s' : Relay} {now later : Int} {c : Command}
    {r : Except RelayError (List Published)} (h : Turn s now later c s' r)
    (hs : s.seen.size ≤ 4096) : s'.seen.size ≤ 4096 := by
  have hpurge := (purge_size s now).trans hs
  cases h with
  | repeated _ _ => exact hpurge
  | reused _ _ => exact hpurge
  | unjudged _ _ => exact hpurge
  | full _ _ _ => exact hpurge
  | overflowed _ _ _ _ => rwa [apply_seen]
  | answered _ _ hroom _ => exact (Dict.size_set_le _ _ _).trans hroom

/-- The cache is never larger than its capacity. -/
theorem run_size (cfg : Config) {s : Relay} (hs : s.seen.size ≤ 4096) (ds : List Delivery) :
    (s.run cfg ds).seen.size ≤ 4096 := by
  induction ds generalizing s with
  | nil => exact hs
  | cons d ds ih =>
      have hd : (s.handle cfg d).1.seen.size ≤ 4096 := by
        cases h : decode cfg d.message with
        | error r => rwa [handle_of_error h]
        | ok c =>
            rw [handle_of_decode h]
            exact (accept_turn s d.now d.later c).size hs
      exact ih hd

/-! ### Executions -/

/-- The message changes what the relay switches. -/
def Changes (cfg : Config) (s : Relay) (d : Delivery) : Prop := (s.handle cfg d).1.on ≠ s.on

/-- **What a change takes**: a command that is not cached, is timely and finds room. -/
theorem changes_cases {cfg : Config} {s : Relay} {d : Delivery} (h : Changes cfg s d) :
    ∃ c on, decode cfg d.message = .ok c ∧ (s.purge d.now).seen.get? c.commandId = none ∧
      verdict d.now c = .ok (.applied on) ∧ (s.purge d.now).seen.size < 4096 := by
  unfold Changes at h
  cases hdecode : decode cfg d.message with
  | error r =>
      rw [handle_of_error hdecode] at h
      exact absurd rfl h
  | ok c =>
      rw [handle_of_decode hdecode] at h
      refine ⟨c, ?_⟩
      have hturn := accept_turn s d.now d.later c
      generalize (s.accept d.now d.later c).1 = s' at h hturn
      generalize (s.accept d.now d.later c).2 = r at hturn
      cases hturn with
      | repeated _ _ => exact absurd rfl h
      | reused _ _ => exact absurd rfl h
      | unjudged _ _ => exact absurd rfl h
      | full _ _ _ => exact absurd rfl h
      | @overflowed v _ hget hverdict hroom _ =>
          cases v with
          | rejected code => exact absurd rfl h
          | applied on => exact ⟨on, rfl, hget, hverdict, hroom⟩
      | @answered v _ hget hverdict hroom _ =>
          cases v with
          | rejected code => exact absurd rfl h
          | applied on => exact ⟨on, rfl, hget, hverdict, hroom⟩

/-- A command that is not executed any more from `now` on: its id is cached until its window has
passed, or the window has passed already. -/
def Remembered (c : Command) (s : Relay) (now : Int) : Prop :=
  (∃ e, s.seen.get? c.commandId = some e ∧ c.timestamp.instant + commandWindow ≤ e.expires) ∨
    c.timestamp.instant + commandWindow < now

theorem Remembered.handle {cfg : Config} {c : Command} {s : Relay} {now : Int}
    (h : Remembered c s now) {d : Delivery} (hnow : now ≤ d.now) :
    Remembered c (s.handle cfg d).1 d.now := by
  rcases h with ⟨e, he, hcovers⟩ | hpast
  · by_cases hlive : d.now ≤ e.expires
    · exact .inl ⟨e, handle_keeps he hlive, hcovers⟩
    · exact .inr (hcovers.trans_lt (not_le.mp hlive))
  · exact .inr (hpast.trans_le hnow)

theorem Remembered.run {cfg : Config} {c : Command} {s : Relay} {now : Int}
    (h : Remembered c s now) {ds : List Delivery} {last : Int}
    (hsorted : ds.Pairwise fun d d' => d.now ≤ d'.now) (hfirst : ∀ d ∈ ds, now ≤ d.now)
    (hlast : ∀ d ∈ ds, d.now ≤ last) (hle : now ≤ last) : Remembered c (s.run cfg ds) last := by
  induction ds generalizing s now with
  | nil =>
      rcases h with hcached | hpast
      · exact .inl hcached
      · exact .inr (hpast.trans_le hle)
  | cons d ds ih =>
      rw [List.pairwise_cons] at hsorted
      exact ih (h.handle (hfirst d List.mem_cons_self)) hsorted.2 hsorted.1
        (fun d' hd' => hlast d' (List.mem_cons_of_mem d hd')) (hlast d List.mem_cons_self)

/-- An executed command is remembered, if the date until which it is can be represented. -/
theorem remembered_of_executed {cfg : Config} {s : Relay} {d : Delivery} {c : Command} {on : Bool}
    {expires : Int} (hdecode : decode cfg d.message = .ok c)
    (hget : (s.purge d.now).seen.get? c.commandId = none)
    (hverdict : verdict d.now c = .ok (.applied on)) (hroom : (s.purge d.now).seen.size < 4096)
    (hretention : retention d.now c = .ok expires) : Remembered c (s.handle cfg d).1 d.now := by
  rw [handle_of_decode hdecode, Relay.accept]
  simp only [hget, hverdict, if_neg (not_le.mpr hroom), hretention]
  exact .inl ⟨_, Dict.get?_set_self _ _ _, (retention_covers hretention).1⟩

theorem same_commandId {c c' : Command} (h : c.same c' = true) : c.commandId = c'.commandId := by
  simp only [Command.same, Bool.and_eq_true, decide_eq_true_eq] at h
  exact h.1.1.1.1

theorem same_instant {c c' : Command} (h : c.same c' = true) :
    c.timestamp.instant = c'.timestamp.instant := by
  simp only [Command.same, Stamp.same, Bool.and_eq_true, decide_eq_true_eq] at h
  exact h.1.1.2.1

/-- A remembered command is not executed, however its content is spelled. -/
theorem Remembered.unchanged {cfg : Config} {c c' : Command} {s : Relay} {d : Delivery}
    (h : Remembered c s d.now) (hdecode : decode cfg d.message = .ok c')
    (hsame : c'.same c = true) : ¬ Changes cfg s d := by
  intro hchanges
  obtain ⟨c'', on, hdecode', hget, hverdict, -⟩ := changes_cases hchanges
  obtain rfl : c' = c'' := Except.ok.inj (hdecode.symm.trans hdecode')
  have hrecent := (timely_of_applied hverdict).recent
  rw [same_instant hsame] at hrecent
  rw [same_commandId hsame] at hget
  have hpast : ¬ c.timestamp.instant + commandWindow < d.now := by
    unfold commandWindow
    omega
  rcases h with ⟨e, he, hcovers⟩ | h
  · have hcached := purge_get?.mpr ⟨he, (not_lt.mp hpast).trans hcovers⟩
    rw [hcached] at hget
    cases hget
  · exact hpast h

/-! ### Content -/

theorem lookup_distinct {members : List (List Nat × Value)} (h : Distinct (.obj members))
    {key : List Nat} {v : Value} (hv : lookup members key = some v) : Distinct v := by
  obtain ⟨m, hm, rfl⟩ := Option.map_eq_some_iff.mp hv
  exact distinctMembers_iff.mp h.2 m (List.mem_of_find?_eq_some hm)

theorem validateEnvelope_state {cfg : Config} {v : Value} {c : Command} (hv : Distinct v)
    (h : validateEnvelope cfg v = some c) : Distinct (.obj c.state) := by
  unfold validateEnvelope at h
  split at h
  · rename_i members
    simp only [Option.bind_eq_bind, Option.bind_eq_some_iff] at h
    obtain ⟨_, -, commandId, -, correlationId, -, timestamp, -, expiresAt, -, h⟩ := h
    split at h
    · rename_i state hstate
      split at h
      · cases h
        exact lookup_distinct hv hstate
      · cases h
    · cases h
  · cases h

theorem decode_state {cfg : Config} {m : Message} {c : Command} (h : decode cfg m = .ok c) :
    Distinct (.obj c.state) := by
  unfold decode at h
  split at h
  · cases h
  split at h
  · cases h
  split at h
  · cases h
  unfold decodeText at h
  split at h
  · cases h
  · cases h
  rename_i v _
  split at h
  · cases h
  split at h
  · cases h
  split at h
  · cases h
  rename_i hvalidate
  split at h
  · cases h
  split at h
  · cases h
  cases h
  exact validateEnvelope_state (loads_distinct v) hvalidate

/-- **A message that is delivered again has the content that it had.** -/
theorem same_of_decode {cfg : Config} {m : Message} {c : Command} (h : decode cfg m = .ok c) :
    c.same c = true := by
  have hstate := pyEq_refl _ (decode_state h)
  have hstamp : ∀ t : Stamp, t.same t = true := fun t => by simp [Stamp.same]
  rw [Command.same, hstate, hstamp]
  cases c.expiresAt with
  | none => simp
  | some e => simp [hstamp e]

/-! ### Runs -/

/-- The date until which an executed command is retained is a datetime. -/
def Representable (cfg : Config) (d : Delivery) : Prop :=
  ∀ c on, decode cfg d.message = .ok c → verdict d.now c = .ok (.applied on) →
    ∃ expires, retention d.now c = .ok expires

theorem run_append (cfg : Config) (s : Relay) (ds ds' : List Delivery) :
    s.run cfg (ds ++ ds') = (s.run cfg ds).run cfg ds' := List.foldl_append

/-- **A command changes the switch at most once in a run.** -/
theorem unchanged_again {cfg : Config} {pre mid post : List Delivery} {d d' : Delivery}
    {c c' : Command} {s : Relay}
    (hclock : (pre ++ d :: (mid ++ d' :: post)).Pairwise fun a b => a.now ≤ b.now)
    (hdate : Representable cfg d) (hdecode : decode cfg d.message = .ok c)
    (hdecode' : decode cfg d'.message = .ok c') (hsame : c'.same c = true)
    (hchanges : Changes cfg (s.run cfg pre) d) :
    ¬ Changes cfg (s.run cfg (pre ++ d :: mid)) d' := by
  obtain ⟨c'', on, hc, hget, hverdict, hroom⟩ := changes_cases hchanges
  obtain rfl : c = c'' := Except.ok.inj (hdecode.symm.trans hc)
  obtain ⟨expires, hretention⟩ := hdate c on hdecode hverdict
  have hremembered := remembered_of_executed hdecode hget hverdict hroom hretention
  have htail := (List.pairwise_append.mp hclock).2.1
  rw [List.pairwise_cons] at htail
  obtain ⟨hfirst, hrest⟩ := htail
  obtain ⟨hmid, -, hlast⟩ := List.pairwise_append.mp hrest
  have hrun := @Remembered.run cfg _ _ _ hremembered _ _ hmid
    (fun a ha => hfirst a (List.mem_append_left _ ha))
    (fun a ha => hlast a ha d' List.mem_cons_self)
    (hfirst d' (List.mem_append_right _ List.mem_cons_self))
  rw [run_append]
  exact hrun.unchanged hdecode' hsame

/-- What the ACK of a command that is cached afterwards is. -/
theorem ack_of_cached {cfg : Config} {s : Relay} {d : Delivery} {c : Command} {e : Entry}
    {a : Ack} {rest : List Published} (hdecode : decode cfg d.message = .ok c)
    (hok : (s.handle cfg d).2 = .ok (.ack a :: rest))
    (he : (s.handle cfg d).1.seen.get? c.commandId = some e) :
    e.ack = a ∧ c.same e.command = true := by
  rw [handle_of_decode hdecode] at hok he
  have hturn := accept_turn s d.now d.later c
  generalize (s.accept d.now d.later c).1 = s' at he hturn
  generalize (s.accept d.now d.later c).2 = r at hok hturn
  cases hturn with
  | repeated hget hsame =>
      cases hok
      obtain rfl := Option.some.inj (he.symm.trans hget)
      exact ⟨rfl, hsame⟩
  | reused _ _ => cases hok
  | unjudged _ _ => cases hok
  | full _ _ _ => cases hok
  | overflowed _ _ _ _ => cases hok
  | answered _ _ _ _ =>
      cases hok
      rw [Dict.get?_set_self] at he
      cases he
      exact ⟨rfl, same_of_decode hdecode⟩

/-- **A redelivery is answered with the ACK that there was**, while it is cached. -/
theorem redelivery_repeats {cfg : Config} {mid : List Delivery} {d d' : Delivery}
    {c : Command} {s : Relay} {e : Entry} {a : Ack} {rest : List Published}
    (hmessage : d'.message = d.message) (hdecode : decode cfg d.message = .ok c)
    (hok : (s.handle cfg d).2 = .ok (.ack a :: rest))
    (he : (s.handle cfg d).1.seen.get? c.commandId = some e)
    (hmid : ∀ b ∈ mid, b.now ≤ d'.now) (hlive : d'.now ≤ e.expires) :
    ((s.handle cfg d).1.run cfg mid).handle cfg d' =
      (((s.handle cfg d).1.run cfg mid).purge d'.now, .ok [.ack a]) := by
  obtain ⟨rfl, hsame⟩ := ack_of_cached hdecode hok he
  have hkept := @run_keeps cfg _ _ _ _ he fun b hb => (hmid b hb).trans hlive
  have hcached := purge_get?.mpr ⟨hkept, hlive⟩
  rw [handle_of_decode (hmessage ▸ hdecode), Relay.accept]
  simp only [hcached, hsame]
  rfl

/-- **What changes the switch is a timely command, and it is acknowledged as applied.** -/
theorem change_acknowledged {cfg : Config} {s : Relay} {d : Delivery}
    (hdate : Representable cfg d) (h : Changes cfg s d) :
    ∃ c on a, decode cfg d.message = .ok c ∧ Timely d.now c ∧ a.status = .applied ∧
      (s.handle cfg d).2 = .ok [.ack a, .state d.later c.correlationId on] := by
  obtain ⟨c, on, hdecode, hget, hverdict, hroom⟩ := changes_cases h
  obtain ⟨expires, hretention⟩ := hdate c on hdecode hverdict
  refine ⟨c, on, acknowledge d.now c (.applied on), hdecode, timely_of_applied hverdict, rfl, ?_⟩
  rw [handle_of_decode hdecode, Relay.accept]
  simp only [hget, hverdict, if_neg (not_le.mpr hroom), hretention]
  rfl

theorem reused_refused {cfg : Config} {s : Relay} {d : Delivery} {c : Command} {e : Entry}
    (hdecode : decode cfg d.message = .ok c)
    (hget : (s.purge d.now).seen.get? c.commandId = some e) (hsame : c.same e.command = false) :
    s.handle cfg d = (s.purge d.now, .error .reused) := by
  rw [handle_of_decode hdecode, Relay.accept]
  simp only [hget, hsame]
  rfl

theorem full_refused {cfg : Config} {s : Relay} {d : Delivery} {c : Command}
    (hdecode : decode cfg d.message = .ok c)
    (hget : (s.purge d.now).seen.get? c.commandId = none)
    (hfull : 4096 ≤ (s.purge d.now).seen.size) :
    ∃ e, s.handle cfg d = (s.purge d.now, .error e) := by
  rw [handle_of_decode hdecode, Relay.accept]
  simp only [hget]
  cases verdict d.now c with
  | error e => exact ⟨e, rfl⟩
  | ok v => exact ⟨.capacity, by simp only [if_pos hfull]⟩

/-- **The relay executes a command at most once, over a whole run** whose executed commands are
retained until a date that is a datetime. A redelivery is answered with the ACK that is cached,
another content under a cached id is refused, nothing but a timely command changes the switch and
an ACK that says so goes with it, and a full cache refuses what is new. -/
theorem relay_executes_once (cfg : Config) (ds : List Delivery)
    (hclock : ds.Pairwise fun a b => a.now ≤ b.now) (hdates : ∀ d ∈ ds, Representable cfg d) :
    (Relay.start.run cfg ds).seen.size ≤ 4096 ∧
      ∀ pre d post, ds = pre ++ d :: post →
        let s := Relay.start.run cfg pre
        (∀ mid d' post' c c', post = mid ++ d' :: post' → decode cfg d.message = .ok c →
          decode cfg d'.message = .ok c' → c'.same c = true → Changes cfg s d →
            ¬ Changes cfg (Relay.start.run cfg (pre ++ d :: mid)) d') ∧
        (∀ mid d' post' c e a rest, post = mid ++ d' :: post' → d'.message = d.message →
          decode cfg d.message = .ok c → (s.handle cfg d).2 = .ok (.ack a :: rest) →
          (s.handle cfg d).1.seen.get? c.commandId = some e → d'.now ≤ e.expires →
            let s' := Relay.start.run cfg (pre ++ d :: mid)
            s'.handle cfg d' = (s'.purge d'.now, .ok [.ack a])) ∧
        (∀ c e, decode cfg d.message = .ok c →
          (s.purge d.now).seen.get? c.commandId = some e → c.same e.command = false →
            s.handle cfg d = (s.purge d.now, .error .reused)) ∧
        (Changes cfg s d → ∃ c on a, decode cfg d.message = .ok c ∧ Timely d.now c ∧
          a.status = .applied ∧
            (s.handle cfg d).2 = .ok [.ack a, .state d.later c.correlationId on]) ∧
        ∀ c, decode cfg d.message = .ok c → (s.purge d.now).seen.get? c.commandId = none →
          4096 ≤ (s.purge d.now).seen.size → ∃ e, s.handle cfg d = (s.purge d.now, .error e) := by
  refine ⟨run_size cfg (Nat.zero_le _) ds, ?_⟩
  rintro pre d post rfl s
  have hd : Representable cfg d := hdates d (List.mem_append_right _ List.mem_cons_self)
  refine ⟨?_, ?_, fun c e => reused_refused, change_acknowledged hd, fun c => full_refused⟩
  · rintro mid d' post' c c' rfl hdecode hdecode' hsame hchanges
    exact unchanged_again hclock hd hdecode hdecode' hsame hchanges
  · rintro mid d' post' c e a rest rfl hmessage hdecode hok he hlive
    have hmid : ∀ b ∈ mid, b.now ≤ d'.now := by
      intro b hb
      have htail := (List.pairwise_append.mp hclock).2.1
      exact (List.pairwise_append.mp (List.pairwise_cons.mp htail).2).2.2 b hb d' List.mem_cons_self
    intro s'
    have hs' : s' = ((s.handle cfg d).1).run cfg mid := run_append cfg Relay.start pre (d :: mid)
    rw [hs']
    exact redelivery_repeats hmessage hdecode hok he hmid hlive

theorem representable_of_decode {cfg : Config} {d : Delivery}
    (h : (match decode cfg d.message with
      | .ok c => (retention d.now c).toBool
      | .error _ => true) = true) : Representable cfg d := by
  intro c on hdecode _
  rw [hdecode] at h
  simp only at h
  cases hretention : retention d.now c with
  | ok expires => exact ⟨expires, rfl⟩
  | error e =>
      rw [hretention] at h
      cases h

/-- A relay whose parser knows a few datetimes. -/
def lampRelay : Config where
  houseId := "house"
  deviceId := "relay"
  levels := 8
  datetime
    | .str s =>
      if s = points "2026-11-01T00:00:00Z" then some ⟨1793491200000000, some 0⟩
      else if s = points "9999-12-31T23:58:00Z" then some ⟨253402300680000000, some 0⟩
      else none
    | _ => none

/-- A command of that relay. -/
def lampCommand (commandId timestamp on : String) : Message :=
  ⟨lampRelay.topic, ("\x7b\"command_id\":\"" ++ commandId ++
    "\",\"correlation_id\":\"c\",\"timestamp\":\"" ++ timestamp ++
    "\",\"state\":\x7b\"on\":" ++ on ++ "\x7d\x7d").toUTF8, false⟩

/-- A command that is delivered twice. -/
def lampTwice : List Delivery :=
  [⟨lampCommand "one" "2026-11-01T00:00:00Z" "true", 1793491200000000, 1793491200000000⟩,
   ⟨lampCommand "one" "2026-11-01T00:00:00Z" "true", 1793491210000000, 1793491210000000⟩]

theorem relay_executes_once_lamp :
    (Relay.start.run lampRelay lampTwice).on = true ∧
      (Relay.start.run lampRelay lampTwice).seen.size ≤ 4096 := by
  refine ⟨by decide +kernel, (relay_executes_once lampRelay lampTwice ?_ ?_).1⟩
  · simp [lampTwice]
  · intro d hd
    simp only [lampTwice, List.mem_cons, List.not_mem_nil, or_false] at hd
    rcases hd with rfl | rfl
    · exact representable_of_decode (by decide +kernel)
    · exact representable_of_decode (by decide +kernel)

/-- **A command that is executed in the last minutes that a datetime can tell is executed again**:
the date until which it had to be retained is none, so it is not cached. -/
theorem unretained_executes_twice : ∃ d₁ d₂ d₃ : Delivery,
    d₁.now ≤ d₂.now ∧ d₂.now ≤ d₃.now ∧ d₃.message = d₁.message ∧
      Changes lampRelay Relay.start d₁ ∧
      Changes lampRelay (Relay.start.run lampRelay [d₁, d₂]) d₃ := by
  refine ⟨⟨lampCommand "one" "9999-12-31T23:58:00Z" "true", 253402300680000000, 0⟩,
    ⟨lampCommand "two" "9999-12-31T23:58:00Z" "false", 253402300690000000, 0⟩,
    ⟨lampCommand "one" "9999-12-31T23:58:00Z" "true", 253402300700000000, 0⟩,
    by decide, by decide, rfl, ?_, ?_⟩
  · unfold Changes
    decide +kernel
  · unfold Changes
    decide +kernel

end KzHome.Simulator

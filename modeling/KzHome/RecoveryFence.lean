import KzHome.Lib.Counters
import KzHome.Retention
import KzHome.TickReadings
import Mathlib.Tactic.FieldSimp
import Mathlib.Tactic.NormNum

/-!
# KzHome.RecoveryFence

The recovery fence of a new process, measured in real time.

Two processes count real time with counters of their own. What the new one has taken over in its
snapshot was prepared before it, so the fence starts after the last lifetime of an old command
has (`Fenced`), and it is long enough to wait that lifetime out on any two counters that keep to
the bounds the new process was started with (`fence_covers`, `Counters.waited_out`).
-/

namespace KzHome

open Counters Session Restart

/-! ### Runs in real time -/

section Real

variable {K : Type*}

/-- A label, and the interval of real time that it takes. -/
structure Moment (K : Type*) where
  label : Label
  since : K
  till : K

/-- Core, and the real time up to which it has run. -/
structure Timed.State (K : Type*) where
  world : World
  now : K

variable [LinearOrder K]

/-- Core in real time, one label after the other. -/
def timed (cfg : Config) : Transition.System (Timed.State K) (Moment K) where
  step s x :=
    if s.now ≤ x.since ∧ x.since ≤ x.till then
      ((coreSystem cfg).step s.world x.label).map fun w => ⟨w, x.till⟩
    else none

/-- Before anything was submitted, at instant `t`. -/
def Timed.start (registry : Registry) (t : K) : Timed.State K :=
  ⟨State.init (Shared.empty registry), t⟩

/-- The tick readings that a label brings to process `pid` are those of a counter: each is an
`int` that the counter may show at some instant while the label takes place. -/
def Counts (shows : K → Int → Prop) (pid : Nat) (s : Timed.State K) (x : Moment K) : Prop :=
  ∀ r ∈ ticksFor s.world pid x.label,
    ∃ v t, r = some v ∧ x.since ≤ t ∧ t ≤ x.till ∧ shows t v

theorem Counts.mono {shows shows' : K → Int → Prop} {pid : Nat} {s : Timed.State K} {x : Moment K}
    (h : Counts shows pid s x) (hshows : ∀ t v, shows t v → shows' t v) :
    Counts shows' pid s x := by
  intro r hr
  obtain ⟨v, t, hv, hsince, htill, hs⟩ := h r hr
  exact ⟨v, t, hv, hsince, htill, hshows t v hs⟩

/-- The start of a process that a label is. -/
def bootOf : Label → Option Boot
  | .external (.boot b) => some b
  | _ => none

/-- Process `pid` is started with these bounds. -/
def BootedWith (ppm err : Int) (pid : Nat) (s : Timed.State K) (x : Moment K) : Prop :=
  ∀ b ∈ bootOf x.label, s.world.shared.booted = pid →
    b.rateErrorPpm = ppm ∧ b.recoveryErrorUs = err

instance (ppm err : Int) (pid : Nat) (s : Timed.State K) (x : Moment K) :
    Decidable (BootedWith ppm err pid s x) :=
  inferInstanceAs (Decidable (∀ b ∈ bootOf x.label, _ → _))

end Real

/-! ### Lifetimes that have begun -/

section Begun

variable {K : Type*} [LinearOrder K] {shows showsNew : K → Int → Prop} {old new s pid : Nat}
  {t t' : K} {a b : Shared} {cfg : Config} {ids : List String}

/-- The lifetime behind a window had begun by `t`: the deadline is at most a lifetime after a
tick that was read by then. -/
def Begun (shows : K → Int → Prop) (window : Window) (t : K) : Prop :=
  ∃ u ≤ t, ∃ v, shows u v ∧ window.deadline ≤ v + lifetimeUs

/-- The commands are in the ledger, and the lifetimes of those that `old` has prepared had begun
by `t`. -/
def Covered (shows : K → Int → Prop) (old : Nat) (ids : List String) (t : K) (st : Shared) : Prop :=
  ∀ id ∈ ids, (∃ r ∈ st.db.commands, r.commandId = id) ∧
    ∀ row record window, .prepared old row record window ∈ st.log → row.commandId = id →
      Begun shows window t

theorem Begun.mono {window : Window} (h : Begun shows window t) (hle : t ≤ t') :
    Begun shows window t' := by
  obtain ⟨u, hu, hv⟩ := h
  exact ⟨u, hu.trans hle, hv⟩

theorem Covered.mono (h : Covered shows old ids t a) (hle : t ≤ t') : Covered shows old ids t' a :=
  fun id hid => ⟨(h id hid).1, fun row record window hl hrow =>
    ((h id hid).2 row record window hl hrow).mono hle⟩

theorem Covered.of_eq (h : Covered shows old ids t a) (hdb : b.db = a.db) (hlog : b.log = a.log) :
    Covered shows old ids t b := by
  intro id hid
  rw [hdb, hlog]
  exact h id hid

/-- A command that is in the ledger is not prepared again. -/
theorem Covered.does (hi : Inv a) (h : Covered shows old ids t a) (hd : Does cfg s pid a b) :
    Covered shows old ids t b := by
  intro id hid
  obtain ⟨⟨r, hr, hrid⟩, hbegun⟩ := h id hid
  refine ⟨?_, fun row record window hl hrow => ?_⟩
  · obtain ⟨r', hr', hid', -⟩ := (hd.frame hi).lifecycle hi.valid hr
    exact ⟨r', hr', hid'.trans hrid⟩
  · rcases hd.mem_log hi hl with hold | ⟨-, hfresh, -⟩
    · exact hbegun row record window hold hrow
    · exact absurd (hrid.trans hrow.symm) (hfresh r hr)

/-- What a snapshot takes is in the ledger. -/
theorem snapshotIds_mem {db : Ledger} {epoch id : String}
    (h : id ∈ ControlAuthority.snapshotIds db epoch) :
    ∃ record ∈ db.controls, record.commandId = id ∧ record.authorityEpoch ≠ epoch ∧
      ∃ row ∈ db.commands, row.commandId = id ∧ row.status.pending = true := by
  obtain ⟨record, hrecord, rfl⟩ := List.mem_map.mp (List.mem_of_mem_take h)
  obtain ⟨hmem, hp⟩ := List.mem_filter.mp hrecord
  rw [Bool.and_eq_true, List.any_eq_true, decide_eq_true_eq] at hp
  obtain ⟨⟨row, hrow, hpending⟩, hepoch⟩ := hp
  rw [Bool.and_eq_true, decide_eq_true_eq] at hpending
  exact ⟨record, hmem, rfl, hepoch, row, hrow, hpending⟩

/-! ### The invariant -/

/-- What is known in real time about an old and a new process. -/
structure Fenced (cfg : Config) (shows showsNew : K → Int → Prop) (old new : Nat) (ppm err : Int)
    (s : Timed.State K) : Prop where
  sound : Sound (contract cfg) core s.world
  measured : Sessions (fun _ => Op.Measured) s.world
  /-- The last tick of the old process was read. -/
  last : ∀ proc, s.world.shared.procs old = some proc →
    ∃ t ≤ s.now, shows t proc.authority.clock.last
  begun : ∀ row record window, .prepared old row record window ∈ s.world.shared.log →
    Begun shows window s.now
  /-- What a snapshot has taken was prepared before it. -/
  taken : ∀ ids, .snapshot new ids ∈ s.world.shared.log →
    Covered shows old ids s.now s.world.shared
  /-- The fence of the new process has started after what its snapshot has taken was
  prepared. -/
  fence : ∀ proc, s.world.shared.procs new = some proc →
    proc.authority.recoveryInitialized = true →
      ∃ t, showsNew t proc.authority.clock.fenceStart ∧
        Covered shows old proc.authority.recoveryIds t s.world.shared
  bounds : ∀ proc, s.world.shared.procs new = some proc →
    0 ≤ ppm ∧ ppm < 1000000 ∧ 0 ≤ err ∧
      proc.authority.clock.fenceUs = ControlClock.fence ppm err

/-- The lifetime of what is prepared has begun. -/
theorem Preparable.begun {row : DeviceCommand} {record : ControlCommand} {window : Window}
    {now : Instant} {tick : Int} (h : Preparable cfg pid a row record window now tick)
    (hlast : ∀ proc, a.procs pid = some proc → ∃ u ≤ t, shows u proc.authority.clock.last) :
    Begun shows window t := by
  obtain ⟨proc, anchor, ⟨proc', hp, hlater⟩, -, -, htick, -⟩ := h.process
  obtain ⟨u, hu, hshows⟩ := hlast proc' hp
  refine ⟨u, hu, _, hshows, ?_⟩
  have hremaining : row.expiresAt - now ≤ lifetimeUs :=
    (Int.sub_le_sub_left h.created row.expiresAt).trans h.lifetime
  have htick' : tick ≤ proc'.authority.clock.last := htick.trans hlater.last
  rw [h.window]
  exact Int.add_le_add htick' hremaining

variable {ppm err : Int} {x : Moment K} {s s' : Timed.State K}

theorem Effect.covered (hi : Inv a) (heff : Effect cfg a b) (h : Covered shows old ids t a) :
    Covered shows old ids t b := by
  cases heff with
  | stay => exact h
  | does hd => exact h.does hi hd
  | close ended => exact h
  | act ended ha => exact h.of_eq (act_frame ha).1 (act_frame ha).2.2.1

/-- An event after one step was there before, or a session notes it. -/
theorem Effect.mem_log (hi : Inv a) (heff : Effect cfg a b) {e : Event} (he : e ∈ b.log) :
    e ∈ a.log ∨ ∃ s pid, Does cfg s pid a b ∧ Logged cfg s pid a b e := by
  cases heff with
  | stay => exact Or.inl he
  | does hd => exact (hd.mem_log hi he).imp_right fun hl => ⟨_, _, hd, hl⟩
  | close ended => exact Or.inl he
  | act ended ha => exact Or.inl ((act_frame ha).2.2.1 ▸ he)

theorem Fenced.step (h : Fenced cfg shows showsNew old new ppm err s)
    (hold : Counts shows old s x) (hnew : Counts showsNew new s x)
    (hboot : BootedWith ppm err new s x) (hstep : (timed cfg).step s x = some s') :
    Fenced cfg shows showsNew old new ppm err s' := by
  simp only [timed] at hstep
  split at hstep
  case isFalse => cases hstep
  rename_i htime
  obtain ⟨w', hw, rfl⟩ := Option.map_eq_some_iff.mp hstep
  have hi := h.sound.inv
  have heff := step_effect h.sound hw
  have hsince : s.now ≤ x.since := htime.1
  have hnow : s.now ≤ x.till := htime.1.trans htime.2
  have hbegun : ∀ row record window, .prepared old row record window ∈ w'.shared.log →
      Begun shows window s.now := by
    intro row record window hl
    rcases heff.mem_log hi hl with hl | ⟨t, q, -, rfl, -, -, -, now, tick, hp⟩
    · exact h.begun row record window hl
    · exact hp.begun h.last
  refine ⟨h.sound.step (obligations cfg) hw, h.measured.step (fun p call _ => program_measures call)
    hw, fun proc' hp => ?last, fun row record window hl => (hbegun row record window hl).mono hnow,
    fun ids hl => ?taken, fun proc' hp hinit => ?fence, fun proc' hp => ?bounds⟩
  case last =>
    cases step_remade h.measured hw hp with
    | kept hproc hsame =>
        obtain ⟨t, ht, hshows⟩ := h.last _ hproc
        exact ⟨t, ht.trans hnow, by rw [hsame.clock]; exact hshows⟩
    | ran hproc hs hm =>
        rcases hm.last with heq | hread
        · obtain ⟨t, ht, hshows⟩ := h.last _ hproc
          exact ⟨t, ht.trans hnow, by rw [heq]; exact hshows⟩
        · obtain ⟨v, t, hv, -, ht, hshows⟩ := hold _ (hs ▸ hread)
          exact ⟨t, ht, by rw [Option.some.inj hv]; exact hshows⟩
    | @booted b clock hl hb hc =>
        have hmem : b.initialTick ∈ ticksFor s.world old x.label := by
          rw [hl, ticksFor, if_pos hb]
          exact List.mem_singleton.mpr rfl
        obtain ⟨v, t, hv, -, ht, hshows⟩ := hold _ hmem
        refine ⟨t, ht, ?_⟩
        have hlast : clock.last = v := by
          unfold ControlClock.create at hc
          split at hc
          · cases hc
          · obtain rfl := Except.ok.inj hc
            rw [hv]
            rfl
        rw [← hlast] at hshows
        exact hshows
  case taken =>
    rcases heff.mem_log hi hl with hl | ⟨t, q, hd, rfl, proc, -, rfl⟩
    · exact (heff.covered hi (h.taken ids hl)).mono hnow
    · intro id hid
      obtain ⟨-, -, -, -, row, hrow, hrid, -⟩ := snapshotIds_mem hid
      obtain ⟨row', hrow', hrid', -⟩ := (hd.frame hi).lifecycle hi.valid hrow
      exact ⟨⟨row', hrow', hrid'.trans hrid⟩, fun row record window hl _ =>
        (hbegun row record window hl).mono hnow⟩
  case fence =>
    have hgo : ∀ {proc : Proc}, s.world.shared.procs new = some proc →
        proc'.authority.clock.fenceStart = proc.authority.clock.fenceStart →
        proc'.authority.recoveryInitialized = proc.authority.recoveryInitialized →
        proc'.authority.recoveryIds = proc.authority.recoveryIds →
          ∃ t, showsNew t proc'.authority.clock.fenceStart ∧
            Covered shows old proc'.authority.recoveryIds t w'.shared := by
      intro proc hproc hstart hinitialized hids
      obtain ⟨t, hshows, hcovered⟩ := h.fence proc hproc (hinitialized ▸ hinit)
      rw [hstart, hids]
      exact ⟨t, hshows, heff.covered hi hcovered⟩
    cases step_remade h.measured hw hp with
    | kept hproc hsame => exact hgo hproc (by rw [hsame.clock]) hsame.initialized hsame.ids
    | ran hproc hs hm =>
        rcases heff.fence_cases hi hproc hp with ⟨hstart, hinitialized, hids⟩ | hsnapshot
        · exact hgo hproc hstart hinitialized hids
        rcases hm.fence with ⟨hstart, hinitialized, hids⟩ | hread
        · exact hgo hproc hstart hinitialized hids
        · -- the fence is started after the snapshot was taken
          obtain ⟨v, t, hv, ht, -, hshows⟩ := hnew _ (hs ▸ hread)
          refine ⟨t, by rw [Option.some.inj hv]; exact hshows, ?_⟩
          exact (heff.covered hi (h.taken _ hsnapshot)).mono (hsince.trans ht)
    | booted hl hb hc => cases hinit
  case bounds =>
    cases step_remade h.measured hw hp with
    | kept hproc hsame => rw [hsame.clock]; exact h.bounds _ hproc
    | ran hproc hs hm => rw [hm.fenceUs]; exact h.bounds _ hproc
    | @booted b clock hl hb hc =>
        obtain ⟨rfl, rfl⟩ := hboot b (by rw [hl]; rfl) hb
        unfold ControlClock.create at hc
        split at hc
        · cases hc
        · rename_i hvalid
          obtain rfl := Except.ok.inj hc
          rw [not_or, not_not, not_lt] at hvalid
          exact ⟨hvalid.1.1, hvalid.1.2, hvalid.2, rfl⟩

theorem Fenced.start (registry : Registry) (t : K) :
    Fenced cfg shows showsNew old new ppm err (Timed.start registry t) where
  sound := Sound.init (Inv.empty registry)
  measured := Sessions.init _
  last _ h := by cases h
  begun _ _ _ h := by cases h
  taken _ h := by cases h
  fence _ h := by cases h
  bounds _ h := by cases h

/-- The readings of a run are those of the two counters, and the new process is started with
these bounds. -/
def Clocked (cfg : Config) (shows showsNew : K → Int → Prop) (old new : Nat) (ppm err : Int) :
    Timed.State K → List (Moment K) → Prop :=
  (timed cfg).Along fun s x =>
    Counts shows old s x ∧ Counts showsNew new s x ∧ BootedWith ppm err new s x

theorem fenced {registry : Registry} {run : List (Moment K)}
    (h : Clocked cfg shows showsNew old new ppm err (Timed.start registry t) run) :
    Fenced cfg shows showsNew old new ppm err ((timed cfg).run (Timed.start registry t) run) :=
  Transition.System.Along.invariant
    (fun _ _ _ hf hc hstep => hf.step hc.1 hc.2.1 hc.2.2 hstep) (.start registry t) h

end Begun

/-! ### The length of the fence -/

/-- The fence is the lifetime and the error, at the worst rates of two counters. -/
theorem fence_covers {ppm err : Int} (hppm : ppm < 1000000) :
    (lifetimeUs + err) * (1000000 + ppm) ≤ ControlClock.fence ppm err * (1000000 - ppm) := by
  have hpos : 0 < 1000000 - ppm := by omega
  unfold ControlClock.fence
  dsimp only
  generalize (lifetimeUs + err) * (1000000 + ppm) = n
  generalize 1000000 - ppm = d at hpos ⊢
  have hmod := Int.emod_lt_of_pos (n + d - 1) hpos
  have hdiv := Int.mul_ediv_add_emod (n + d - 1) d
  rw [Int.mul_comm d] at hdiv
  omega

section Fence

variable {K : Type*} [Field K] [LinearOrder K] [IsStrictOrderedRing K]

/-- The rate error as a fraction. -/
def rateError (ppm : Int) : K := ppm / 1000000

theorem fence_covers_cast {ppm err : Int} (hppm : ppm < 1000000) :
    ((lifetimeUs : K) + err) * (1 + rateError ppm) ≤
      ControlClock.fence ppm err * (1 - rateError ppm) := by
  have h : (((lifetimeUs + err) * (1000000 + ppm) : Int) : K) ≤
      ((ControlClock.fence ppm err * (1000000 - ppm) : Int) : K) :=
    Int.cast_le.mpr (fence_covers hppm)
  push_cast at h
  have hscale : (1000000 : K) * ((lifetimeUs + err) * (1 + rateError ppm)) ≤
      1000000 * (ControlClock.fence ppm err * (1 - rateError ppm)) := by
    have hrate : (1000000 : K) * rateError ppm = ppm := by
      unfold rateError
      field_simp
    calc (1000000 : K) * ((lifetimeUs + err) * (1 + rateError ppm))
        = (lifetimeUs + err) * (1000000 + 1000000 * rateError ppm) := by ring
      _ = (lifetimeUs + err) * (1000000 + ppm) := by rw [hrate]
      _ ≤ ControlClock.fence ppm err * (1000000 - ppm) := h
      _ = ControlClock.fence ppm err * (1000000 - 1000000 * rateError ppm) := by rw [hrate]
      _ = 1000000 * (ControlClock.fence ppm err * (1 - rateError ppm)) := by ring
  exact le_of_mul_le_mul_left hscale (by norm_num)

/-- The command waits in the ledger, with a control record of another epoch. -/
def Ledger.WaitsForeign (db : Ledger) (epoch id : String) : Prop :=
  ∃ record ∈ db.controls, record.commandId = id ∧ record.authorityEpoch ≠ epoch ∧
    ∃ row ∈ db.commands, row.commandId = id ∧ row.status.pending = true

/-- The state `st` of Core in which process `new` took the snapshot it keeps. -/
def Snapshotted (proc : Proc) (st : Shared) : Prop :=
  proc.authority.recoveryIds = ControlAuthority.snapshotIds st.db proc.authority.clock.epoch

/-- `expired` of the new process never returns `True` early: whenever the new process reads the
tick `v` and finds a command of the old one expired, at an instant at which the tick of the old
one is `y`, the command's window is over in the old process. -/
def NeverEarly (shows showsNew : K → Int → Prop) (old new : Nat) (st : Shared) : Prop :=
  ∀ proc row record record' window sources p' v y u, st.procs new = some proc →
    .prepared old row record' window ∈ st.log → row.commandId = record.commandId →
    record.authorityEpoch ≠ proc.authority.clock.epoch →
    (ControlAuthority.expired record).run ⟨sources, proc⟩ = (.ok true, p') →
    sources.ticks.head? = some (some v) → showsNew u v → shows u y → window.deadline ≤ y

theorem Fenced.neverEarly {cfg : Config} {old new : Nat} {ppm err : Int} {low high : K}
    {countOld countNew : K → K} {s : Timed.State K}
    (h : Fenced cfg (Shows countOld low high) (Shows countNew low high) old new ppm err s)
    (hdrifts : Drifts (rateError ppm) countOld) (hdrifts' : Drifts (rateError ppm) countNew)
    (hband : 2 * (low + high) ≤ (1 + rateError ppm) * err) :
    NeverEarly (Shows countOld low high) (Shows countNew low high) old new s.world.shared := by
  intro proc row record record' window sources p' v y u hp hl hid hforeign hexpired hv hu hy
  rcases ControlAuthority.expired_ok hexpired with
    ⟨-, hinit, hmem, -, w, t, htick, -, hpassed⟩ | ⟨heq, -⟩
  · obtain ⟨-, -, rest, hticks, -, -⟩ := ControlClock.tick_ok.mp htick
    have hticks : sources.ticks = some w :: rest := hticks
    obtain rfl : w = v := by
      rw [hticks] at hv
      exact Option.some.inj (Option.some.inj hv)
    obtain ⟨f, hfence, hcovered⟩ := h.fence proc hp hinit
    obtain ⟨hppm, hppm', herr, hlength⟩ := h.bounds proc hp
    obtain ⟨b, hbf, x, hbegun, hdeadline⟩ := (hcovered _ hmem).2 row record' window hl hid
    have hrate : (0 : K) ≤ rateError ppm :=
      div_nonneg (Int.cast_nonneg hppm) (by norm_num)
    have hrate' : rateError ppm < (1 : K) := by
      rw [rateError, div_lt_one (by norm_num)]
      exact_mod_cast hppm'
    have hpassed : ControlClock.fence ppm err ≤ w - proc.authority.clock.fenceStart :=
      hlength ▸ hpassed
    exact hdeadline.trans (waited_out hrate hrate' (by decide) (Int.cast_nonneg herr)
      (fence_covers_cast hppm') hband hdrifts hdrifts' hbf hbegun hfence hu hy hpassed)
  · exact absurd heq hforeign

end Fence

/-! ### The snapshot -/

section Snapshot

variable {cfg : Config} {registry : Registry} {labels : List Label} {pid : Nat} {proc : Proc}

/-- What lasts, lasts for the rest of the run. -/
theorem Lasting.run {F : Proc → Prop} (hF : ∀ x y, x.Later y → F x → F y)
    (h : Lasting (after cfg registry labels).shared pid F) (more : List Label) :
    Lasting (after cfg registry (labels ++ more)).shared pid F := by
  induction more using List.reverseRecOn with
  | nil =>
      rw [List.append_nil]
      exact h
  | append_singleton more l ih =>
      rw [← List.append_assoc]
      exact ih.snoc hF l

/-- What a process has recovered is a snapshot that it noted. -/
theorem snapshot_noted (hp : (after cfg registry labels).shared.procs pid = some proc)
    (hinit : proc.authority.recoveryInitialized = true) :
    .snapshot pid proc.authority.recoveryIds ∈ (after cfg registry labels).shared.log := by
  refine after_invariant (P := fun st => ∀ q x, st.procs q = some x →
    x.authority.recoveryInitialized = true → Event.snapshot q x.authority.recoveryIds ∈ st.log)
    ?_ (fun hi h hd q x hq hx => ?_) (fun _ h => h) (fun hi h ha q x hq hx => ?_) labels pid proc hp
    hinit
  · exact fun _ _ h => by cases h
  · obtain ⟨y, hy, ⟨-, hinitialized, hids⟩ | hsnapshot⟩ := hd.fence_cases hq
    · rw [hids]
      exact hd.log_subset hi (h q y hy (hinitialized ▸ hx))
    · exact hd.log_subset hi hsnapshot
  · rw [(act_frame ha).2.2.1]
    rcases act_memory ha hq with ⟨y, hy, hsame⟩ | ⟨bt, clock, -, -, -, rfl⟩
    · rw [hsame.ids]
      exact h q y hy (hsame.initialized ▸ hx)
    · cases hx

/-- **The snapshot of a process** is that of some state of the run. -/
theorem snapshot_taken (hp : (after cfg registry labels).shared.procs pid = some proc)
    (hinit : proc.authority.recoveryInitialized = true) :
    ∃ before rest, labels = before ++ rest ∧
      Snapshotted proc (after cfg registry before).shared := by
  obtain ⟨before, l, rest, s, q, rfl, -, rfl, proc₀, halive, hids⟩ :=
    noted_at (snapshot_noted hp hinit)
  have hlast : Lasting (after cfg registry before).shared pid fun x =>
      proc.authority.recoveryIds =
        ControlAuthority.snapshotIds (after cfg registry before).shared.db x.authority.clock.epoch :=
    .alive (fun x y hxy h => by rw [hxy.epoch]; exact h) (after_inv cfg registry before) halive hids
  exact ⟨before, l :: rest, rfl,
    (hlast.run (fun x y hxy h => by rw [hxy.epoch]; exact h) (l :: rest)).holds proc hp⟩

/-- A command that did not wait when the snapshot was taken is never judged. -/
theorem expired_unseen {record : ControlCommand}
    (hp : (after cfg registry labels).shared.procs pid = some proc)
    (hforeign : record.authorityEpoch ≠ proc.authority.clock.epoch)
    (hunseen : ∀ before rest, labels = before ++ rest →
      Snapshotted proc (after cfg registry before).shared →
        ¬ (after cfg registry before).shared.db.WaitsForeign proc.authority.clock.epoch
          record.commandId) (sources : Sources) :
    ∃ e, ((ControlAuthority.expired record).run ⟨sources, proc⟩).1 = .error e := by
  cases hr : (ControlAuthority.expired record).run ⟨sources, proc⟩ with
  | mk r p' =>
      cases r with
      | error e => exact ⟨e, rfl⟩
      | ok late =>
          exfalso
          rcases ControlAuthority.expired_ok hr with ⟨-, hinit, hmem, -⟩ | ⟨heq, -⟩
          · obtain ⟨before, rest, rfl, htaken⟩ := snapshot_taken hp hinit
            have hmem : record.commandId ∈ proc.authority.recoveryIds := hmem
            rw [show proc.authority.recoveryIds = _ from htaken] at hmem
            exact hunseen before rest rfl htaken (snapshotIds_mem hmem)
          · exact hforeign heq

end Snapshot

/-! ### The recovery fence -/

/-- **The recovery fence** never expires an old command early, when the errors of all readings
lie in a band that twice fits into the recovery error, and never judges a command that its
snapshot has not seen. -/
theorem recovery_fence {K : Type*} [Field K] [LinearOrder K] [IsStrictOrderedRing K]
    (cfg : Config) (registry : Registry) :
    (∀ (old new : Nat) (ppm err : Int) (low high start : K) (countOld countNew : K → K)
      (run : List (Moment K)),
      Drifts (rateError ppm) countOld → Drifts (rateError ppm) countNew →
      2 * (low + high) ≤ (1 + rateError ppm) * err →
      Clocked cfg (Shows countOld low high) (Shows countNew low high) old new ppm err
        (Timed.start registry start) run →
      NeverEarly (Shows countOld low high) (Shows countNew low high) old new
        ((timed cfg).run (Timed.start registry start) run).world.shared) ∧
    ∀ labels pid proc record, (after cfg registry labels).shared.procs pid = some proc →
      record.authorityEpoch ≠ proc.authority.clock.epoch →
      (∀ before rest, labels = before ++ rest →
        Snapshotted proc (after cfg registry before).shared →
          ¬ (after cfg registry before).shared.db.WaitsForeign proc.authority.clock.epoch
            record.commandId) →
      ∀ sources, ∃ e, ((ControlAuthority.expired record).run ⟨sources, proc⟩).1 = .error e :=
  ⟨fun _ _ _ _ _ _ _ _ _ _ hdrifts hdrifts' hband hrun =>
      (fenced hrun).neverEarly hdrifts hdrifts' hband,
    fun _ _ _ _ hp hforeign hunseen sources => expired_unseen hp hforeign hunseen sources⟩

/-- **Readings that are off by `q`** leave the fence long enough when four of them fit into the
recovery error; for readings that only round down, by less than `q`, two are enough. A command that
the snapshot has not seen is never judged. -/
theorem fence_never_early {K : Type*} [Field K] [LinearOrder K] [IsStrictOrderedRing K]
    (cfg : Config) (registry : Registry) :
    (∀ (old new : Nat) (ppm err : Int) (q start : K) (countOld countNew : K → K)
      (run : List (Moment K)),
      Drifts (rateError ppm) countOld → Drifts (rateError ppm) countNew →
      (4 * q ≤ (1 + rateError ppm) * err →
        Clocked cfg (Shows countOld q q) (Shows countNew q q) old new ppm err
          (Timed.start registry start) run →
        NeverEarly (Shows countOld q q) (Shows countNew q q) old new
          ((timed cfg).run (Timed.start registry start) run).world.shared) ∧
      (2 * q ≤ err →
        Clocked cfg (Shows countOld q 0) (Shows countNew q 0) old new ppm err
          (Timed.start registry start) run →
        NeverEarly (Shows countOld q 0) (Shows countNew q 0) old new
          ((timed cfg).run (Timed.start registry start) run).world.shared)) ∧
    ∀ labels pid proc record, (after cfg registry labels).shared.procs pid = some proc →
      record.authorityEpoch ≠ proc.authority.clock.epoch →
      (∀ before rest, labels = before ++ rest →
        Snapshotted proc (after cfg registry before).shared →
          ¬ (after cfg registry before).shared.db.WaitsForeign proc.authority.clock.epoch
            record.commandId) →
      ∀ sources, ∃ e, ((ControlAuthority.expired record).run ⟨sources, proc⟩).1 = .error e := by
  refine ⟨fun old new ppm err q start countOld countNew run hdrifts hdrifts' => ⟨?_, ?_⟩,
    fun _ _ _ _ hp hforeign hunseen sources => expired_unseen hp hforeign hunseen sources⟩
  · intro hband hrun
    refine (fenced hrun).neverEarly hdrifts hdrifts' ?_
    calc 2 * (q + q) = 4 * q := by ring
      _ ≤ (1 + rateError ppm) * err := hband
  · intro hband hrun proc row record record' window sources p' v y u hp
    -- a process that was started has bounds that are no errors
    obtain ⟨hppm, -, herr, -⟩ := (fenced hrun).bounds proc hp
    have hrate : (0 : K) ≤ rateError ppm := div_nonneg (Int.cast_nonneg hppm) (by norm_num)
    have herr : (0 : K) ≤ err := Int.cast_nonneg herr
    refine (fenced hrun).neverEarly hdrifts hdrifts' ?_ proc row record record' window sources p'
      v y u hp
    calc 2 * (q + 0) = 2 * q := by rw [add_zero]
      _ ≤ err := hband
      _ ≤ (1 + rateError ppm) * err := le_mul_of_one_le_left herr (le_add_of_nonneg_right hrate)

namespace Household

/-- What an operation gets when the tick counter shows `v`. -/
def inputAt (v : Int) : Input :=
  ⟨⟨[v], List.replicate 2 (some v), [some v], [true]⟩, commandId, true⟩

/-- A process of the lamp's household, which lets the lamp be controlled. -/
def bootOfEpoch (epoch : String) : Boot :=
  ⟨epoch, some 0, some 0, true, 1000, 1000, fun _ _ _ => .ok ()⟩

/-- The lamp's command is prepared at instant `t`, at tick 40000000; then a second process starts,
whose counter shows 0, and takes its snapshot. -/
def replaced (t : ℚ) : List (Moment ℚ) :=
  [⟨.external (.boot (bootOfEpoch epoch)), 0, 0⟩, ⟨.start 0 .initializeAuthority, 0, 0⟩] ++
    List.replicate 4 ⟨.exec 0 (inputAt 0), 0, 0⟩ ++
    ⟨.start 0 (.prepare intent), t, t⟩ :: List.replicate 11 ⟨.exec 1 (inputAt 40000000), t, t⟩ ++
    [⟨.external (.boot (bootOfEpoch "e")), t, t⟩, ⟨.start 1 .initializeAuthority, t, t⟩] ++
    List.replicate 4 ⟨.exec 2 (inputAt 0), t, t⟩

/-- The readings of a label that takes no time. -/
def CountsNow (shows : ℚ → Int → Prop) (pid : Nat) (s : Timed.State ℚ) (x : Moment ℚ) : Prop :=
  ∀ r ∈ ticksFor s.world pid x.label, r.isSome = true ∧ shows x.since (r.getD 0)

instance (shows : ℚ → Int → Prop) [∀ t v, Decidable (shows t v)] (pid : Nat) (s : Timed.State ℚ)
    (x : Moment ℚ) : Decidable (CountsNow shows pid s x) :=
  inferInstanceAs (Decidable (∀ r ∈ ticksFor s.world pid x.label, _ ∧ _))

theorem CountsNow.counts {shows : ℚ → Int → Prop} {pid : Nat} {s : Timed.State ℚ} {x : Moment ℚ}
    (h : CountsNow shows pid s x) (hx : x.since ≤ x.till) : Counts shows pid s x := by
  intro r hr
  obtain ⟨hsome, hshows⟩ := h r hr
  obtain ⟨v, rfl⟩ := Option.isSome_iff_exists.mp hsome
  exact ⟨v, x.since, rfl, le_refl _, hx, hshows⟩

theorem clocked_of_now {cfg : Config} {shows showsNew : ℚ → Int → Prop} {old new : Nat}
    {ppm err : Int} {s : Timed.State ℚ} {run : List (Moment ℚ)}
    (h : (timed cfg).Along (fun s x => x.since ≤ x.till ∧ CountsNow shows old s x ∧
      CountsNow showsNew new s x ∧ BootedWith ppm err new s x) s run) :
    Clocked cfg shows showsNew old new ppm err s run :=
  h.mono fun _ _ hx => ⟨hx.2.1.counts hx.1, hx.2.2.1.counts hx.1, hx.2.2.2⟩

/-- An old counter that is slow, and a new one that is fast, within a thousandth. -/
def slowCount (t : ℚ) : ℚ := 99901 / 100000 * t

/-- The instant at which the old counter has come to 39999500. -/
def replacedAt : ℚ := 39999500 * 100000 / 99901

def fastCount (t : ℚ) : ℚ := 100099 / 100000 * (t - replacedAt) + 500

/-- The old process has prepared the lamp's command. -/
def preparedLamp : Event → Bool
  | .prepared 0 row _ window => row.commandId = commandId && window.deadline = 70000000
  | _ => false

/-- The readings of the new process when it looks whether the command is expired. -/
def lookup : Sources := ⟨[], [some 30061063], [], []⟩

/-- The control record of the lamp's command. -/
def lampRecord : ControlCommand := ControlAuthority.candidate controlConfig.sha epoch intent.row

/-- The lamp's command was prepared by the old process, and the new one finds it expired. -/
def findsExpired (st : Shared) : Bool :=
  st.log.any preparedLamp && (st.procs 1).any fun proc =>
    epoch ≠ proc.authority.clock.epoch &&
      ((ControlAuthority.expired lampRecord).run ⟨lookup, proc⟩).1.toOption = some true

/-- The new process of `st` judges the lamp's command, which the old one prepared with `window`. -/
structure Judged (st : Shared) (proc : Proc) (row : DeviceCommand) (record : ControlCommand)
    (window : Window) : Prop where
  alive : st.procs 1 = some proc
  prepared : .prepared 0 row record window ∈ st.log
  command : row.commandId = lampRecord.commandId
  foreign : lampRecord.authorityEpoch ≠ proc.authority.clock.epoch
  expired : ((ControlAuthority.expired lampRecord).run ⟨lookup, proc⟩).1 = .ok true
  deadline : window.deadline = 70000000

theorem judged_of_findsExpired {st : Shared} (h : findsExpired st = true) :
    ∃ proc row record window, Judged st proc row record window := by
  rw [findsExpired, Bool.and_eq_true, List.any_eq_true, Option.any_eq_true] at h
  obtain ⟨⟨e, he, hprepared⟩, proc, hp, hproc⟩ := h
  rw [Bool.and_eq_true, decide_eq_true_eq, decide_eq_true_eq] at hproc
  obtain ⟨hforeign, hrun⟩ := hproc
  cases e with
  | prepared pid row record window =>
      cases pid with
      | succ pid => cases hprepared
      | zero =>
          simp only [preparedLamp, Bool.and_eq_true, decide_eq_true_eq] at hprepared
          obtain ⟨hid, hdeadline⟩ := hprepared
          refine ⟨proc, row, record, window, hp, he, hid, hforeign, ?_, hdeadline⟩
          cases hr : ((ControlAuthority.expired lampRecord).run ⟨lookup, proc⟩).1 with
          | error e =>
              rw [hr] at hrun
              cases hrun
          | ok late =>
              rw [hr] at hrun
              rw [Option.some.inj hrun]
  | _ => cases hprepared

theorem Judged.not_early {shows showsNew : ℚ → Int → Prop} {st : Shared} {proc : Proc}
    {row : DeviceCommand} {record : ControlCommand} {window : Window}
    (h : Judged st proc row record window) (hnever : NeverEarly shows showsNew 0 1 st) {u : ℚ}
    {y : Int} (hu : showsNew u 30061063) (hy : shows u y) : window.deadline ≤ y :=
  hnever proc row lampRecord record window lookup _ 30061063 y u h.alive h.prepared h.command
    h.foreign (Prod.ext h.expired rfl) rfl hu hy

/-- The run of the slow counter and the fast one, evaluated once. -/
theorem replaced_facts :
    (timed controlConfig).Along (fun s x => x.since ≤ x.till ∧
      CountsNow (Shows slowCount 500 500) 0 s x ∧ CountsNow (Shows fastCount 500 500) 1 s x ∧
      BootedWith 1000 1000 1 s x) (Timed.start controlled 0) (replaced replacedAt) ∧
    findsExpired ((timed controlConfig).run (Timed.start controlled 0)
      (replaced replacedAt)).world.shared = true := by
  decide +kernel

/-- A counter of a constant rate moves by no less and no more than the rate. -/
theorem drift_of_rate (rate : ℚ) {low high c : ℚ} {count : ℚ → ℚ} (hcount : ∀ t, count t = rate * t + c)
    (hlow : low < rate) (hhigh : rate < high) (s t : ℚ) (h : s < t) :
    low * (t - s) < count t - count s ∧ count t - count s < high * (t - s) := by
  have hmoved : count t - count s = rate * (t - s) := by
    rw [hcount, hcount]
    ring
  have hpos : 0 < t - s := sub_pos.mpr h
  rw [hmoved]
  exact ⟨mul_lt_mul_of_pos_right hlow hpos, mul_lt_mul_of_pos_right hhigh hpos⟩

/-- **Two readings of each counter are off**, by less than half the recovery error each, and the
fence is a hundred microseconds too short. -/
theorem fence_early : ∃ (ppm err : Int) (q : ℚ) (countOld countNew : ℚ → ℚ)
    (run : List (Moment ℚ)), 2 * q ≤ err ∧
      (∀ s t, s < t → (1 - rateError ppm) * (t - s) < countOld t - countOld s ∧
        countOld t - countOld s < (1 + rateError ppm) * (t - s)) ∧
      (∀ s t, s < t → (1 - rateError ppm) * (t - s) < countNew t - countNew s ∧
        countNew t - countNew s < (1 + rateError ppm) * (t - s)) ∧
      Clocked controlConfig (Shows countOld q q) (Shows countNew q q) 0 1 ppm err
        (Timed.start controlled 0) run ∧
      ¬ NeverEarly (Shows countOld q q) (Shows countNew q q) 0 1
        ((timed controlConfig).run (Timed.start controlled 0) run).world.shared := by
  refine ⟨1000, 1000, 500, slowCount, fastCount, replaced replacedAt, by norm_num, ?_, ?_,
    clocked_of_now replaced_facts.1, fun hnever => ?_⟩
  · exact drift_of_rate (99901 / 100000) (c := 0) (fun t => (add_zero _).symm)
      (by norm_num [rateError]) (by norm_num [rateError])
  · refine drift_of_rate (100099 / 100000) (c := 500 - 100099 / 100000 * replacedAt) (fun t => ?_)
      (by norm_num [rateError]) (by norm_num [rateError])
    rw [fastCount]
    ring
  · obtain ⟨proc, row, record, window, hjudged⟩ := judged_of_findsExpired replaced_facts.2
    have hnew : Shows fastCount 500 500 (replacedAt + 30060063 * 100000 / 100099) 30061063 := by
      constructor <;> norm_num [fastCount, replacedAt]
    have hold : Shows slowCount 500 500 (replacedAt + 30060063 * 100000 / 100099) 69999603 := by
      constructor <;> norm_num [slowCount, replacedAt]
    have hlate := hjudged.not_early hnever hnew hold
    rw [hjudged.deadline] at hlate
    exact absurd hlate (by decide)

/-- A counter without an error. -/
def exactCount (t : ℚ) : ℚ := t

def newCount (t : ℚ) : ℚ := t - 40000000

theorem newCount_drifts : Drifts (rateError 1000) newCount := by
  intro s t h
  have hpos : 0 ≤ t - s := sub_nonneg.mpr h
  constructor <;> norm_num [rateError, newCount] <;> linarith

theorem exactCount_drifts : Drifts (rateError 1000) exactCount := by
  intro s t h
  have hmoved : newCount t - newCount s = exactCount t - exactCount s := sub_sub_sub_cancel_right ..
  exact hmoved ▸ newCount_drifts s t h

/-- The run of the exact counters, evaluated once. -/
theorem exact_facts :
    (timed controlConfig).Along (fun s x => x.since ≤ x.till ∧
      CountsNow (Shows exactCount 0 0) 0 s x ∧ CountsNow (Shows newCount 0 0) 1 s x ∧
      BootedWith 1000 1000 1 s x) (Timed.start controlled 0) (replaced 40000000) ∧
    findsExpired ((timed controlConfig).run (Timed.start controlled 0)
      (replaced 40000000)).world.shared = true := by
  decide +kernel

/-- What shows no error shows none of the errors that are allowed. -/
theorem exact_clocked {low high : ℚ} (hlow : 0 ≤ low) (hhigh : 0 ≤ high) :
    Clocked controlConfig (Shows exactCount low high) (Shows newCount low high) 0 1 1000 1000
      (Timed.start controlled 0) (replaced 40000000) :=
  Transition.System.Along.mono (fun _ _ h => ⟨h.1.mono fun _ _ hs => hs.mono hlow hhigh,
    h.2.1.mono fun _ _ hs => hs.mono hlow hhigh, h.2.2⟩) (clocked_of_now exact_facts.1)

/-- With errors of at most a quarter of the recovery error the new process finds the lamp's command
expired, and whatever the old one reads then, it is past the deadline. -/
theorem recovery_fence_lamp :
    ∃ proc row record window, Judged ((timed controlConfig).run (Timed.start controlled 0)
        (replaced 40000000)).world.shared proc row record window ∧
      Shows newCount 250 250 70061063 30061063 ∧ Shows exactCount 250 250 70061063 70061063 ∧
      ∀ y, Shows exactCount 250 250 70061063 y → window.deadline ≤ y := by
  obtain ⟨proc, row, record, window, hjudged⟩ := judged_of_findsExpired exact_facts.2
  have hreads : Shows newCount 250 250 70061063 30061063 := by
    constructor <;> norm_num [newCount]
  have hreads' : Shows exactCount 250 250 70061063 70061063 := by
    constructor <;> norm_num [exactCount]
  refine ⟨proc, row, record, window, hjudged, hreads, hreads', fun y hy => ?_⟩
  exact hjudged.not_early
    ((recovery_fence controlConfig controlled).1 0 1 1000 1000 250 250 0 exactCount newCount
      (replaced 40000000) exactCount_drifts newCount_drifts (by norm_num [rateError])
      (exact_clocked (by norm_num) (by norm_num)))
    hreads hy

/-- The same with readings that round down by up to half the recovery error. -/
theorem fence_never_early_lamp :
    ∃ proc row record window, Judged ((timed controlConfig).run (Timed.start controlled 0)
        (replaced 40000000)).world.shared proc row record window ∧
      Shows newCount 500 0 70061063 30061063 ∧ Shows exactCount 500 0 70061063 70061063 ∧
      ∀ y, Shows exactCount 500 0 70061063 y → window.deadline ≤ y := by
  obtain ⟨proc, row, record, window, hjudged⟩ := judged_of_findsExpired exact_facts.2
  have hreads : Shows newCount 500 0 70061063 30061063 := by
    constructor <;> norm_num [newCount]
  have hreads' : Shows exactCount 500 0 70061063 70061063 := by
    constructor <;> norm_num [exactCount]
  refine ⟨proc, row, record, window, hjudged, hreads, hreads', fun y hy => ?_⟩
  exact hjudged.not_early
    (((fence_never_early controlConfig controlled).1 0 1 1000 1000 500 0 exactCount newCount
      (replaced 40000000) exactCount_drifts newCount_drifts).2 (by norm_num)
      (exact_clocked (by norm_num) (le_refl 0)))
    hreads hy

end Household

end KzHome

import KzHome.Permits
import Mathlib.Tactic.Linarith

/-!
# KzHome.Windows

The timing arithmetic of one Core epoch.

A window's deadline is the tick at which the clock of its process shows the row's
`expires_at` (`prepared_deadline`), whenever the preparation sampled that clock.
Grants, expiry and deliveries are then comparisons of ticks that say the same as
the comparisons of instants they stand for.
-/

namespace KzHome

open ControlAuthority (Grant)

variable {cfg : Config} {registry : Registry} {s pid : Nat} {a b : Shared} {labels : List Label}

/-! ### The deadline of a window -/

/-- The tick at which a clock shows an instant. -/
def ControlClock.tickOf (c : ControlClock) (anchor t : Instant) : Int := c.start + (t - anchor)

theorem ControlClock.tickOf_le {c : ControlClock} {anchor t : Instant} {v : Int} :
    c.tickOf anchor t ≤ v ↔ t ≤ c.instantOf anchor v := by
  simp only [tickOf, instantOf]
  constructor <;> intro h <;> linarith

theorem ControlClock.lt_tickOf {c : ControlClock} {anchor t : Instant} {v : Int} :
    v < c.tickOf anchor t ↔ c.instantOf anchor v < t := by
  rw [← not_le, ← not_le, tickOf_le]

/-- The deadline is the tick of an instant on the clock of a process. -/
def DeadlineOf (t : Instant) (deadline : Int) (proc : Proc) : Prop :=
  ∃ anchor, proc.authority.clock.anchor = some anchor ∧
    deadline = proc.authority.clock.tickOf anchor t

theorem DeadlineOf.later {t : Instant} {deadline : Int} {x y : Proc} (hl : x.Later y)
    (h : DeadlineOf t deadline x) : DeadlineOf t deadline y := by
  obtain ⟨anchor, ha, rfl⟩ := h
  exact ⟨anchor, hl.anchor.trans ha, by simp [ControlClock.tickOf, hl.start]⟩

/-- A clock shows an instant at one tick. -/
theorem DeadlineOf.unique {t : Instant} {d d' : Int} {proc : Proc} (h : DeadlineOf t d proc)
    (h' : DeadlineOf t d' proc) : d = d' := by
  obtain ⟨anchor, ha, rfl⟩ := h
  obtain ⟨anchor', ha', rfl⟩ := h'
  obtain rfl := Option.some.inj (ha.symm.trans ha')
  rfl

/-- **The deadline does not depend on when `prepare` ran.** -/
theorem Preparable.deadline {row : DeviceCommand} {record : ControlCommand} {window : Window}
    {now : Instant} {tick : Int} (hi : Inv a)
    (hp : Preparable cfg pid a row record window now tick) :
    Lasting a pid (DeadlineOf row.expiresAt window.deadline) := by
  obtain ⟨proc, anchor, halive, ha, hnow, -, -⟩ := hp.process
  refine .alive (fun _ _ => DeadlineOf.later) hi halive ⟨anchor, ha, ?_⟩
  have hw : window.deadline = tick + (row.expiresAt - now) := by rw [hp.window]; rfl
  rw [hw, hnow]
  simp only [ControlClock.tickOf, ControlClock.instantOf]
  linarith

theorem prepared_deadline {row : DeviceCommand} {record : ControlCommand} {window : Window}
    (h : .prepared pid row record window ∈ (after cfg registry labels).shared.log) :
    Lasting (after cfg registry labels).shared pid (DeadlineOf row.expiresAt window.deadline) := by
  refine after_lasting (fun _ _ => DeadlineOf.later) (fun before s q b hl => ?_) h
  obtain ⟨rfl, -, -, -, now, tick, hp⟩ := hl
  exact hp.deadline (after_inv cfg registry before)

theorem prepared_identity {row : DeviceCommand} {record : ControlCommand} {window : Window}
    (h : .prepared pid row record window ∈ (after cfg registry labels).shared.log) :
    window.identity = row.identity := by
  obtain ⟨before, l, rest, s, q, -, -, -, -, -, -, now, tick, hp⟩ := noted_at h
  rw [hp.window]
  rfl

/-- The window behind a grant is that of the row. -/
theorem Granting.deadline {house device : String} {request : PermitRequest} {row : DeviceCommand}
    {record : ControlCommand} {window : Window}
    (hg : Granting cfg s pid (after cfg registry labels).shared house device request row record
      window) :
    Lasting (after cfg registry labels).shared pid (DeadlineOf row.expiresAt window.deadline) := by
  obtain ⟨row₀, record₀, hl, -⟩ := hg.prepared
  have hexp : row₀.expiresAt = row.expiresAt :=
    congrArg Identity.expiresAt ((prepared_identity hl).symm.trans hg.identity)
  rw [← hexp]
  exact prepared_deadline hl

/-! ### Grants -/

/-- The timing of a grant on the clock of its process: the tick that was sampled, the
instant the clock shows there, and how long the grant lasts from then. -/
structure Permit.Times (p : Permit) (proc : Proc) (now : Instant) (tick remaining : Int) : Prop where
  core : ∃ anchor, proc.authority.clock.anchor = some anchor ∧
    now = proc.authority.clock.instantOf anchor tick
  delivery : p.delivery = {
    payload := ControlAuthority.grantPayload p.request now p.row.expiresAt remaining
    commandId := p.row.commandId
    epoch := proc.authority.clock.epoch
    deadlineTick := p.window.deadline
    validUntilTick := tick + remaining
    grant := true }
  positive : 0 < remaining
  short : remaining < permitUs
  early : now + remaining < p.row.expiresAt
  window : tick + remaining < p.window.deadline

theorem Permit.Times.later {p : Permit} {x y : Proc} {now : Instant} {tick remaining : Int}
    (hl : x.Later y) (h : p.Times x now tick remaining) : p.Times y now tick remaining := by
  obtain ⟨anchor, ha, hnow⟩ := h.core
  refine ⟨⟨anchor, hl.anchor.trans ha, ?_⟩, ?_, h.positive, h.short, h.early, h.window⟩
  · rw [hnow]; simp [ControlClock.instantOf, hl.start]
  · rw [h.delivery, hl.epoch]

/-- The timing of a fresh grant. -/
theorem FreshGrant.times {g : Grant} {proc : Proc} (hf : FreshGrant cfg pid a g)
    (hp : a.procs pid = some proc) (hd : DeadlineOf g.row.expiresAt g.window.deadline proc) :
    (g.permit s pid).Times proc g.now g.tick g.remaining := by
  obtain ⟨proc₀, anchor, ⟨proc', hp', hl⟩, ha, hnow, hdel⟩ := hf.sampled
  obtain rfl := Option.some.inj (hp.symm.trans hp')
  obtain ⟨anchor', ha', hdead⟩ := hd
  obtain rfl := Option.some.inj (ha'.symm.trans (hl.anchor.trans ha))
  have hrem := hf.remaining
  have hmin := min_le_left permitUs (g.window.deadline - g.tick)
  have hmin' := min_le_right permitUs (g.window.deadline - g.tick)
  have hlt : g.tick + g.remaining < g.window.deadline := by omega
  have hinst : g.now = proc.authority.clock.instantOf anchor' g.tick := by
    rw [hnow]; simp [ControlClock.instantOf, hl.start]
  refine ⟨⟨anchor', ha', hinst⟩, ?_, hf.positive, by omega, ?_, hlt⟩
  · rw [hl.epoch]; exact hdel
  · -- the same comparison, on the line of instants
    rw [hdead, ControlClock.lt_tickOf] at hlt
    have hsum : proc.authority.clock.instantOf anchor' (g.tick + g.remaining) =
        g.now + g.remaining := by
      rw [hinst]; simp only [ControlClock.instantOf]; linarith
    rwa [hsum] at hlt

/-- The timing of a bound grant, as long as its process lives. -/
theorem bound_times {g : Grant}
    (h : .bound s pid g ∈ (after cfg registry labels).shared.log) :
    Lasting (after cfg registry labels).shared pid fun proc =>
      (g.permit s pid).Times proc g.now g.tick g.remaining := by
  refine after_lasting (fun _ _ => Permit.Times.later) (fun before t q b hl => ?_) h
  obtain ⟨rfl, rfl, hg, hf, -⟩ := hl
  obtain ⟨proc, -, ⟨now, hnow, -⟩, -⟩ := hf.sampled
  exact .alive (fun _ _ => Permit.Times.later) (after_inv cfg registry before)
    ⟨now, hnow, .refl _⟩ (hf.times hnow (hg.deadline.holds now hnow))

/-- The row, the record and the window of a bound grant are still the same when it is
asked for again. -/
theorem bound_same {g : Grant} {house device : String} {request : PermitRequest}
    {row : DeviceCommand} {record : ControlCommand} {window : Window} {proc : Proc}
    (hl : .bound s pid g ∈ (after cfg registry labels).shared.log) {s' : Nat}
    (hg : Granting cfg s' pid (after cfg registry labels).shared house device request row record
      window)
    (hp : (after cfg registry labels).shared.procs pid = some proc)
    (hid : g.row.commandId = row.commandId) (hctx : g.context = request.context house device) :
    g.request = request ∧ g.row.expiresAt = row.expiresAt ∧
      g.window.deadline = window.deadline := by
  have hi := after_inv cfg registry labels
  have htimes := (bound_times hl).holds proc hp
  have hbound := hi.bound _ _ _ hl
  obtain ⟨earlier, l, rest, t, q, rfl, -, -, rfl, hg₀, -, -⟩ := noted_at hl
  have hexp : g.row.expiresAt = row.expiresAt := by
    obtain ⟨r, hr, hrid, hlife⟩ := row_lifecycle cfg registry earlier (l :: rest)
      (hg₀.holds.mem (after_inv cfg registry earlier).valid)
    obtain rfl := Table.eq_of_key hi.valid.commandIds hr (hg.holds.mem hi.valid) (hrid.trans hid)
    exact (congrArg (·.2.2.2.2.2.2.2.2) hlife.fixed).symm
  refine ⟨?_, hexp, ?_⟩
  · have hwire : g.record.wireSha256 = record.wireSha256 := by
      rw [hid, hg.control] at hbound
      rw [Option.some.inj hbound]
    have hcommand := hg₀.command.symm.trans (hid.trans hg.command)
    have hintent := hg₀.intent.trans (hwire.trans hg.intent.symm)
    simp only [Grant.context, PermitRequest.context, PermitContext.mk.injEq] at hctx
    obtain ⟨-, -, hepoch, hboot, hsession, hnonce⟩ := hctx
    cases hgr : g.request
    rw [hgr] at hcommand hintent hepoch hboot hsession hnonce
    cases request
    simp_all
  · obtain ⟨row₀, record₀, hl₀, -⟩ := hg₀.prepared
    have hl₀ := (log_grows cfg registry earlier (l :: rest)).subset hl₀
    have hexp₀ : row₀.expiresAt = g.row.expiresAt :=
      congrArg Identity.expiresAt ((prepared_identity hl₀).symm.trans hg₀.identity)
    exact ((prepared_deadline hl₀).holds proc hp).unique
      (by rw [hexp₀, hexp]; exact hg.deadline.holds proc hp)

/-- **Every grant is timed by the clock of its process**, also when it is repeated. -/
theorem granted_times {p : Permit} (h : .granted p ∈ (after cfg registry labels).shared.log) :
    ∃ before rest, labels = before ++ rest ∧
      ∃ proc, (after cfg registry before).shared.procs p.pid = some proc ∧
        ∃ now tick remaining, p.Times proc now tick remaining := by
  obtain ⟨before, l, rest, s, pid, rfl, -, hret⟩ := noted_at h
  have hret : Returns cfg s pid (after cfg registry before).shared p := hret
  refine ⟨before, l :: rest, rfl, ?_⟩
  cases hret with
  | fresh hp hl => exact ⟨_, hp, _, _, _, (bound_times hl).holds _ hp⟩
  | cached hp hg hb hr =>
      have hperm := permitted cfg registry before
      obtain ⟨t, g, hl, hid, hbind, rfl⟩ := hperm.replies _ _ _ _ _ hp hr
      rw [hperm.digest _ _ _ hl] at hbind
      obtain ⟨hreq, hexp, hdead⟩ := bound_same hl hg hp hid (binding_inj hbind)
      have ht := (bound_times hl).holds _ hp
      refine ⟨_, hp, g.now, g.tick, g.remaining, ht.core, ?_, ht.positive, ht.short, ?_, ?_⟩
      · have hdel := ht.delivery
        simp only [Grant.permit] at hdel
        rw [hdel, hreq, hexp, hdead, hid]
      · have := ht.early
        simp only [Grant.permit] at this
        rwa [hexp] at this
      · have := ht.window
        simp only [Grant.permit] at this
        rwa [hdead] at this

/-! ### Expiry and deliveries -/

/-- **An own record is overdue exactly when the clock shows its row's deadline**, read
at the same tick. -/
theorem own_expired {record : ControlCommand} {row : DeviceCommand} {window : Window} {proc : Proc}
    (hp : (after cfg registry labels).shared.procs pid = some proc)
    (he : record.authorityEpoch = proc.authority.clock.epoch)
    (hw : proc.authority.windows.get? record.commandId = some window)
    (hr : row ∈ (after cfg registry labels).shared.db.commands)
    (hid : row.commandId = record.commandId) (sources : Sources) (late : Bool) (p' : Port) :
    (ControlAuthority.expired record).run ⟨sources, proc⟩ = (.ok late, p') ↔
      ∃ now u, ControlClock.logicalNow.run ⟨sources, proc.authority.clock⟩ = (.ok now, u) ∧
        p' = Port.withTiming ⟨sources, proc⟩ u ∧ late = decide (row.expiresAt ≤ now) := by
  have hi := after_inv cfg registry labels
  obtain ⟨row₀, record₀, hl, hid₀⟩ := hi.windows _ _ _ _ hp hw
  have hexp : row₀.expiresAt = row.expiresAt := by
    obtain ⟨before, l, rest, s, q, rfl, -, -, -, hmem, -⟩ := noted_at hl
    obtain ⟨r, hr', hrid, hlife⟩ := row_lifecycle cfg registry (before ++ [l]) rest hmem
    rw [List.append_assoc] at hr'
    obtain rfl := Table.eq_of_key hi.valid.commandIds hr' hr (hrid.trans (hid₀.trans hid.symm))
    exact (congrArg (·.2.2.2.2.2.2.2.2) hlife.fixed).symm
  obtain ⟨anchor, ha, hd⟩ := (prepared_deadline hl).holds proc hp
  have hdec : ∀ v, decide (window.deadline ≤ v) =
      decide (row.expiresAt ≤ proc.authority.clock.instantOf anchor v) := by
    intro v
    rw [hd, hexp]
    exact decide_eq_decide.mpr ControlClock.tickOf_le
  have hrun : (ControlAuthority.expired record).run ⟨sources, proc⟩ = (do
      let tick ← ControlAuthority.clocked ControlClock.tick
      return decide (window.deadline ≤ tick) : Call Port Error Bool).run ⟨sources, proc⟩ := by
    unfold ControlAuthority.expired
    rw [ControlAuthority.run_bind_authority, if_neg (not_not.mpr he), hw]
  rw [hrun, Call.run_bind_ok]
  constructor
  · rintro ⟨v, p₁, ht, h⟩
    obtain ⟨u, htick, rfl⟩ := ControlAuthority.clocked_ok.mp ht
    simp only [Call.run_pure, Prod.mk.injEq, Except.ok.injEq] at h
    obtain ⟨rfl, rfl⟩ := h
    exact ⟨_, u, ControlClock.logicalNow_ok.mpr ⟨v, anchor, htick, ha, rfl⟩, rfl, hdec v⟩
  · rintro ⟨now, u, hn, rfl, rfl⟩
    obtain ⟨v, anchor', ht, ha', rfl⟩ := ControlClock.logicalNow_ok.mp hn
    obtain rfl := Option.some.inj (ha.symm.trans ha')
    refine ⟨v, _, ControlAuthority.clocked_ok.mpr ⟨u, ht, rfl⟩, ?_⟩
    rw [hdec v]
    rfl

/-- A delivery is accepted at a sampled tick before both its limits. -/
theorem accepted_early {delivery : ControlDelivery} {p p' : Port}
    (h : (ControlAuthority.validateDelivery delivery).run p = (.ok (), p')) :
    ∃ now tick u, ControlClock.sample.run p.timing = (.ok (now, tick), u) ∧
      tick < delivery.validUntilTick ∧ tick < delivery.deadlineTick := by
  unfold ControlAuthority.validateDelivery at h
  obtain ⟨⟨now, tick⟩, p₁, hs, h⟩ := Call.run_bind_ok.mp h
  obtain ⟨u, hrun, rfl⟩ := ControlAuthority.clocked_ok.mp hs
  rw [ControlAuthority.run_bind_authority] at h
  split at h
  · simp at h
  · rename_i hok
    rw [not_or, not_le, lt_min_iff] at hok
    exact ⟨now, tick, u, hrun, hok.2⟩

/-- **The timing of one epoch**, in every run: windows, grants, expiry and deliveries. -/
theorem epoch_timing (cfg : Config) (registry : Registry) (labels : List Label) :
    (∀ pid row record window proc,
      .prepared pid row record window ∈ (after cfg registry labels).shared.log →
      (after cfg registry labels).shared.procs pid = some proc →
        ∃ anchor, proc.authority.clock.anchor = some anchor ∧
          window.deadline = proc.authority.clock.start + (row.expiresAt - anchor)) ∧
    (∀ pid proc id window, (after cfg registry labels).shared.procs pid = some proc →
      proc.authority.windows.get? id = some window →
        ∃ row record, .prepared pid row record window ∈ (after cfg registry labels).shared.log ∧
          row.commandId = id) ∧
    (∀ p, .granted p ∈ (after cfg registry labels).shared.log →
      ∃ before rest, labels = before ++ rest ∧
        ∃ proc, (after cfg registry before).shared.procs p.pid = some proc ∧
          ∃ now tick remaining, p.Times proc now tick remaining) ∧
    (∀ pid proc record row window, (after cfg registry labels).shared.procs pid = some proc →
      record.authorityEpoch = proc.authority.clock.epoch →
      proc.authority.windows.get? record.commandId = some window →
      row ∈ (after cfg registry labels).shared.db.commands → row.commandId = record.commandId →
        ∀ sources late p',
          (ControlAuthority.expired record).run ⟨sources, proc⟩ = (.ok late, p') ↔
            ∃ now u, ControlClock.logicalNow.run ⟨sources, proc.authority.clock⟩ = (.ok now, u) ∧
              p' = Port.withTiming ⟨sources, proc⟩ u ∧ late = decide (row.expiresAt ≤ now)) ∧
    ∀ delivery p p', (ControlAuthority.validateDelivery delivery).run p = (.ok (), p') →
      ∃ now tick u, ControlClock.sample.run p.timing = (.ok (now, tick), u) ∧
        tick < delivery.validUntilTick ∧ tick < delivery.deadlineTick :=
  ⟨fun _ _ _ _ proc hl hp => (prepared_deadline hl).holds proc hp,
    fun _ _ _ _ hp hw => (after_inv cfg registry labels).windows _ _ _ _ hp hw,
    fun _ h => granted_times h,
    fun _ _ _ _ _ hp he hw hr hid => own_expired hp he hw hr hid,
    fun _ _ _ h => accepted_early h⟩

end KzHome

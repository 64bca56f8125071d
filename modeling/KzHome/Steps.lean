import KzHome.Contract

/-!
# KzHome.Steps

What `Does` amounts to, aspect by aspect.

`Does.frame` says what every effect leaves alone and that the ledger only changes
by a commit of rows the session holds (`Commit`); `Does.logged` says what is true
when an event is noted; `Does.memory` says how the memory of the process changes.
Later proofs use these three and do not go through the list of effects again.
-/

namespace KzHome

open ControlAuthority (Grant)

variable {cfg : Config} {s t pid q : Nat} {a b : Shared}

/-! ### Commits -/

/-- A commit by session `s`: it overwrites and binds only rows whose lock it
holds, moves them along their life cycle, and inserts a control record only
together with its row and under a living authority. -/
structure Commit (s : Nat) (a : Shared) (w : Ledger.Write) (db : Ledger) : Prop where
  applied : a.db.apply w = some db
  update : ∀ row, w.update = some row →
    (∃ r₀, Holds s a r₀ ∧ r₀.commandId = row.commandId ∧ r₀.Lifecycle row) ∧
      ∀ t ∈ row.evidenceTimes, Timed a row.commandId t
  insert : ∀ row, w.insert = some row → row.evidenceTimes = []
  bind : ∀ id b, w.bind = some (id, b) → ∃ r₀, Holds s a r₀ ∧ r₀.commandId = id
  control : ∀ record, w.control = some record →
    (∃ row, w.insert = some row ∧ record.commandId = row.commandId) ∧
      ∃ pid proc, a.procs pid = some proc ∧
        record.authorityEpoch = proc.authority.clock.epoch

/-- The row a session holds is the only committed row of its command. -/
theorem Holds.mem {row : DeviceCommand} (hv : a.db.Valid) (h : Holds s a row) :
    row ∈ a.db.commands :=
  ((Ledger.command?_eq_some hv).mp h.row).1

/-- Two sessions hold different rows. -/
theorem Holds.ne {row row' : DeviceCommand} (h : Holds s a row) (h' : Holds t a row')
    (hne : t ≠ s) : row.commandId ≠ row'.commandId := by
  intro heq
  have := h'.locked
  rw [← heq, h.locked] at this
  exact hne (Option.some.inj this).symm

namespace Commit

variable {w : Ledger.Write} {db : Ledger}

theorem valid (h : Commit s a w db) : db.Valid := Ledger.apply_valid h.applied

/-- Every committed row has a successor in its life cycle. -/
theorem lifecycle (h : Commit s a w db) (hv : a.db.Valid) {r : DeviceCommand}
    (hr : r ∈ a.db.commands) :
    ∃ r' ∈ db.commands, r'.commandId = r.commandId ∧ r.Lifecycle r' := by
  by_cases hu : ∃ u, w.update = some u ∧ r.commandId = u.commandId
  · obtain ⟨u, hu, hid⟩ := hu
    obtain ⟨⟨r₀, hh, hid₀, hl⟩, -⟩ := h.update u hu
    obtain rfl : r₀ = r := Table.eq_of_key hv.commandIds (hh.mem hv) hr (hid₀.trans hid.symm)
    exact ⟨u, (Ledger.mem_commands_apply h.applied).mpr (Or.inl ⟨hu, r₀, hr, hid⟩), hid.symm, hl⟩
  · refine ⟨r, (Ledger.mem_commands_apply h.applied).mpr (Or.inr (Or.inr ⟨hr, ?_⟩)), rfl, .refl r⟩
    intro u hw heq
    exact hu ⟨u, hw, heq⟩

/-- Rows held by other sessions are left alone. -/
theorem row_of_holds (h : Commit s a w db) (hv : a.db.Valid) (hne : t ≠ s) {row : DeviceCommand}
    (hh : Holds t a row) : db.command? row.commandId = some row := by
  rw [Ledger.command?_apply h.applied hv, hh.row]
  · intro u hu heq
    obtain ⟨⟨r₀, h₀, hid, -⟩, -⟩ := h.update u hu
    exact h₀.ne hh hne (hid.trans heq)
  · intro i hi heq
    exact Ledger.insert_fresh h.applied hi row (hh.mem hv) heq.symm

/-- So are their control records. -/
theorem control_of_holds (h : Commit s a w db) (hv : a.db.Valid) (hne : t ≠ s)
    {row : DeviceCommand} (hh : Holds t a row) :
    db.control? row.commandId = a.db.control? row.commandId := by
  refine Ledger.control?_apply h.applied hv (fun id b hb heq => ?_) (fun record hc heq => ?_)
  · obtain ⟨r₀, h₀, hid⟩ := h.bind id b hb
    exact h₀.ne hh hne (hid.trans heq)
  · obtain ⟨⟨i, hi, hid⟩, -⟩ := h.control record hc
    exact Ledger.insert_fresh h.applied hi row (hh.mem hv) (heq.symm.trans hid)

/-- A record that is bound does not change any more. -/
theorem control_bound (h : Commit s a w db) (hv : a.db.Valid) {id : String}
    {record : ControlCommand} (hc : a.db.control? id = some record)
    (hb : record.permitBindingSha256.isSome = true) : db.control? id = some record := by
  obtain ⟨hmem, rfl⟩ := (Ledger.control?_eq_some hv).mp hc
  obtain ⟨r, hr, hid⟩ := List.mem_map.mp (hv.controlCommands record hmem)
  rw [← hc]
  refine Ledger.control?_apply h.applied hv (fun id b' hw heq => ?_) fun record' hw heq => ?_
  · obtain ⟨r₀, hr₀, hid₀, hnone⟩ := Ledger.bind_of_apply h.applied hw
    obtain rfl := Table.eq_of_key hv.controlIds hr₀ hmem (hid₀.trans heq)
    rw [hnone] at hb; cases hb
  · obtain ⟨⟨i, hi, hid'⟩, -⟩ := h.control record' hw
    exact Ledger.insert_fresh h.applied hi r hr (hid.trans (heq.symm.trans hid'))

end Commit

/-! ### The frame -/

/-- What an operation of session `s` of process `pid` can change at all. -/
structure Frame (s pid : Nat) (a b : Shared) : Prop where
  db : b.db = a.db ∨ ∃ w, Commit s a w b.db
  registry : b.registry = a.registry
  epochs : b.epochs = a.epochs
  booted : b.booted = a.booted
  readings : a.readings <+: b.readings
  locks : ∀ t k, t ≠ s → a.locks k = some t → b.locks k = some t
  procs : b.procs = a.procs ∨ ∃ proc proc', a.procs pid = some proc ∧ proc.Later proc' ∧
    b.procs = Function.update a.procs pid (some proc')

namespace Frame

theorem refl (s pid : Nat) (a : Shared) : Frame s pid a a :=
  ⟨Or.inl rfl, rfl, rfl, rfl, List.prefix_refl _, fun _ _ _ h => h, Or.inl rfl⟩

/-- A record that is bound does not change any more. -/
theorem control_bound (h : Frame s pid a b) (hv : a.db.Valid) {id : String}
    {record : ControlCommand} (hc : a.db.control? id = some record)
    (hb : record.permitBindingSha256.isSome = true) : b.db.control? id = some record := by
  rcases h.db with hsame | ⟨w, hcom⟩
  · rw [hsame]; exact hc
  · exact hcom.control_bound hv hc hb

theorem boundTo (h : Frame s pid a b) (hv : a.db.Valid) {id binding : String}
    (hb : a.db.BoundTo id binding) : b.db.BoundTo id binding := by
  obtain ⟨record, hc, hbind⟩ := hb
  exact ⟨record, h.control_bound hv hc (by rw [hbind]; rfl), hbind⟩

theorem note (h : Frame s pid a b) (es : List Event) : Frame s pid a (b.note es) :=
  ⟨h.db, h.registry, h.epochs, h.booted, h.readings, h.locks, h.procs⟩

theorem locked {ks : List Lock} (h : RowLocks.available a.locks s ks) :
    Frame s pid a { a with locks := RowLocks.take a.locks s ks } :=
  ⟨Or.inl rfl, rfl, rfl, rfl, List.prefix_refl _,
    fun _ _ hne hk => RowLocks.take_other h hk hne, Or.inl rfl⟩

theorem unlocked (s pid : Nat) (a : Shared) : Frame s pid a (a.unlock s) :=
  ⟨Or.inl rfl, rfl, rfl, rfl, List.prefix_refl _,
    fun _ _ hne hk => RowLocks.release_other hk (by simpa using hne), Or.inl rfl⟩

theorem remember {p p' : Port} (hp : a.At pid p) (hl : p.proc.Later p'.proc) :
    Frame s pid a (a.remember pid p p') :=
  ⟨Or.inl rfl, rfl, rfl, rfl, List.prefix_append _ _, fun _ _ _ hk => hk,
    Or.inr ⟨p.proc, p'.proc, hp, hl, rfl⟩⟩

theorem committed {w : Ledger.Write} {db : Ledger} (h : Commit s a w db) (pid : Nat)
    (es : List Event) : Frame s pid a (a.committed s db es) :=
  ⟨Or.inr ⟨w, h⟩, rfl, rfl, rfl, List.prefix_refl _,
    fun _ _ hne hk => RowLocks.release_other hk (by simpa using hne), Or.inl rfl⟩

end Frame

/-- Another authority with the same clock and gate is a later memory. -/
theorem Port.withAuthority_later {p : Port} {x : ControlAuthority}
    (hc : x.clock = p.proc.authority.clock) (hg : x.gate = p.proc.authority.gate) :
    p.proc.Later (p.withAuthority x).proc := by
  refine ⟨?_, ?_, ?_, ?_, ?_, hg, ?_⟩ <;> simp [Port.withAuthority, hc]

theorem Judged.lifecycle {e : Processed} (h : Judged s pid a e) : e.row.Lifecycle e.result := by
  obtain ⟨port', hd, -⟩ := h.decided
  exact (Job.decided hd).lifecycle

theorem DeviceCommand.Lifecycle.commandId {r r' : DeviceCommand} (h : r.Lifecycle r') :
    r'.commandId = r.commandId := congrArg (·.1) h.fixed

/-- The evidence times of a judged row, old and new. -/
theorem Judged.timed {e : Processed} (hi : Inv a) (h : Judged s pid a e) {t : Instant}
    (ht : t ∈ e.result.evidenceTimes) : Timed a e.result.commandId t := by
  obtain ⟨port', hd, ⟨now, hnow, hlater⟩, before, hpre, -⟩ := h.decided
  have hid : e.result.commandId = e.row.commandId := h.lifecycle.commandId
  rw [hid]
  rcases (Job.decided hd).times ht with hold | ⟨hst, hown⟩
  · exact hi.timed e.row (h.holds.mem hi.valid) t hold
  · refine ⟨fun hc => ?_, fun record hc q proc hq he => ?_⟩
    · rw [h.control] at hc
      exact hpre.subset (List.mem_append_right _ (hst.direct hc))
    · rw [h.control] at hc
      have hep := hown record hc
      have hmoves := (Job.decide_moves e.job e.row e.control).of_run hd
      have hnowep : now.authority.clock.epoch = e.port.proc.authority.clock.epoch :=
        hlater.epoch.trans hmoves.later.epoch
      obtain rfl := hi.owners q proc pid now hq hnow (by rw [← he, hep, hnowep])
      rw [hnow] at hq
      obtain rfl := Option.some.inj hq
      exact (hst.ticked (by rw [hc]; rfl)).later hlater

theorem Judged.commit {e : Processed} (hi : Inv a) (h : Judged s pid a e) :
    (∃ r₀, Holds s a r₀ ∧ r₀.commandId = e.result.commandId ∧ r₀.Lifecycle e.result) ∧
      ∀ t ∈ e.result.evidenceTimes, Timed a e.result.commandId t :=
  ⟨⟨e.row, h.holds, h.lifecycle.commandId.symm, h.lifecycle⟩, fun _ ht => h.timed hi ht⟩

/-! ### The five kinds of commits -/

section

variable {db : Ledger}

theorem Judged.commits {e : Processed} (hi : Inv a) (hj : Judged s pid a e)
    (hdb : a.db.apply { update := some e.result } = some db) :
    Commit s a { update := some e.result } db := by
  refine ⟨hdb, fun row hu => ?_, (fun _ h => by cases h), (fun _ _ h => by cases h),
    (fun _ h => by cases h)⟩
  obtain rfl := Option.some.inj hu
  exact hj.commit hi

theorem created_commits {sub : Submission} {id correlation : String} {now : Instant}
    {freed : Option Processed} (hi : Inv a) (hf : ∀ e, freed = some e → Judged s pid a e)
    (hdb : a.db.apply { update := freed.map (·.result)
                        insert := some (Services.newRow sub id correlation now) } = some db) :
    Commit s a { update := freed.map (·.result)
                 insert := some (Services.newRow sub id correlation now) } db := by
  refine ⟨hdb, fun row hu => ?_, fun row hr => ?_, (fun _ _ h => by cases h),
    (fun _ h => by cases h)⟩
  · obtain ⟨e, he, rfl⟩ := Option.map_eq_some_iff.mp hu
    exact (hf e he).commit hi
  · obtain rfl := Option.some.inj hr
    rfl

theorem Preparable.commits {row : DeviceCommand} {record : ControlCommand} {window : Window}
    {now : Instant} {tick : Int} (hp : Preparable cfg pid a row record window now tick)
    (hdb : a.db.apply { insert := some row, control := some record } = some db) :
    Commit s a { insert := some row, control := some record } db := by
  refine ⟨hdb, (fun _ h => by cases h), fun row hr => ?_, (fun _ _ h => by cases h),
    fun r h => ?_⟩
  · obtain rfl := Option.some.inj hr
    obtain ⟨i, rfl⟩ := hp.intent
    rfl
  · obtain rfl := Option.some.inj h
    obtain ⟨proc, _, ⟨now, hnow, hlater⟩, -, -, -, rfl⟩ := hp.process
    exact ⟨⟨_, rfl, rfl⟩, pid, now, hnow, hlater.epoch.symm⟩

theorem Holds.staged_commits {row : DeviceCommand} {now : Instant} (hi : Inv a)
    (hh : Holds s a row) (hp : row.status.pending = true)
    (hdb : a.db.apply { update := some { row with dispatchStartedAt := some now } } = some db) :
    Commit s a { update := some { row with dispatchStartedAt := some now } } db := by
  refine ⟨hdb, fun row hu => ?_, (fun _ h => by cases h), (fun _ _ h => by cases h),
    (fun _ h => by cases h)⟩
  obtain rfl := Option.some.inj hu
  exact ⟨⟨_, hh, rfl, .of_pending hp rfl (.stay _)⟩, fun t ht => hi.timed _ (hh.mem hi.valid) t ht⟩

theorem Granting.commits {house device : String} {request : PermitRequest} {row : DeviceCommand}
    {record : ControlCommand} {window : Window} {binding : String}
    (hg : Granting cfg s pid a house device request row record window)
    (hdb : a.db.apply { bind := some (row.commandId, binding) } = some db) :
    Commit s a { bind := some (row.commandId, binding) } db := by
  refine ⟨hdb, (fun _ h => by cases h), (fun _ h => by cases h), fun id b h => ?_,
    (fun _ h => by cases h)⟩
  obtain ⟨rfl, rfl⟩ := Prod.mk.inj (Option.some.inj h)
  exact ⟨_, hg.holds, rfl⟩

end

/-- **Nothing but the frame changes.** -/
theorem Does.frame (hi : Inv a) (h : Does cfg s pid a b) : Frame s pid a b := by
  cases h with
  | nothing => exact .refl s pid a
  | locked h => exact .locked h
  | guarded h => exact (Frame.locked h).note _
  | snapshot => exact (Frame.refl s pid a).note _
  | unlocked => exact .unlocked s pid a
  | ticked hp ht => exact (Frame.remember hp ht.later).note _
  | fenced hp hf => exact .remember hp hf.later
  | forgot hp => exact .remember hp (Port.withAuthority_later rfl rfl)
  | windowed hp => exact .remember hp (Port.withAuthority_later rfl rfl)
  | trimmed hp ht => exact .remember hp ht.later
  | cached hp ht => exact (Frame.remember hp ht.later).note _
  | @replied p g hp hl hn =>
      have hl' : p.proc.Later
          (p.withAuthority (ControlAuthority.storeReply g p.proc.authority)).proc :=
        Port.withAuthority_later rfl rfl
      exact (Frame.remember hp hl').note _
  | processed hj hs hdb => exact .committed (hj.commits hi hdb) pid _
  | created hid hf hdb =>
      exact .committed (created_commits hi (fun e he => (hf e he).1) hdb) pid _
  | prepared hp hdb => exact .committed (hp.commits hdb) pid _
  | staged hh hp hn hg hdb => exact .committed (hh.staged_commits hi hp hdb) pid _
  | bound hg hf hdb => exact .committed (hg.commits hdb) pid _
  | dispatched => exact (Frame.refl s pid a).note _
  | denied => exact (Frame.refl s pid a).note _
  | delivered => exact (Frame.refl s pid a).note _

/-! ### The log -/

/-- A row whose command id is not in the ledger. -/
def Fresh (a : Shared) (row : DeviceCommand) : Prop :=
  ∀ r ∈ a.db.commands, r.commandId ≠ row.commandId

/-- A grant that was returned: the one that was bound before, or the cached reply
of the same context. -/
inductive Returns (cfg : Config) (s pid : Nat) (a : Shared) : Permit → Prop
  | fresh {g : Grant} {proc : Proc} (hp : a.procs pid = some proc) (hl : .bound s pid g ∈ a.log)
      (hn : ∀ e ∈ a.log, e.grants ≠ some (s, g.row.commandId)) : Returns cfg s pid a (g.permit s pid)
  | cached {proc : Proc} {house device : String} {request : PermitRequest} {row : DeviceCommand}
      {record : ControlCommand} {window : Window} {delivery : ControlDelivery}
      (hp : a.procs pid = some proc)
      (hg : Granting cfg s pid a house device request row record window)
      (hb : record.permitBindingSha256 =
        some (cfg.sha.hex (ControlAuthority.contextText house device request)))
      (hr : proc.authority.replies.get? row.commandId =
        some (cfg.sha.hex (ControlAuthority.contextText house device request), delivery)) :
      Returns cfg s pid a ⟨s, pid, house, device, request, row, record, window, delivery⟩

/-- What is true when a session notes an event in a step from `a` to `b`. -/
def Logged (cfg : Config) (s pid : Nat) (a b : Shared) : Event → Prop
  | .guarded r => r = a.registry
  | .processed e => Judged s pid a e ∧ e.result ∈ b.db.commands ∧
      ∀ sub, e.submission = some sub → ∃ r ∈ b.db.commands, sub.Agrees r
  | .created s' sub row => s' = s ∧ Fresh a row ∧ row ∈ b.db.commands ∧ row.commandId ≠ "" ∧ row.correlationId ≠ "" ∧
      ∃ id correlation now, row = Services.newRow sub id correlation now
  | .sendCall sub id => ∃ row, .created s sub row ∈ a.log ∧ id = row.commandId ∧
      ∀ e ∈ a.log, e.sending ≠ some (.call, id)
  | .reply sub id => ∃ r ∈ a.db.commands, r.commandId = id ∧ sub.Agrees r
  | .dispatched d => Dispatchable cfg s a d
  | .prepared pid' row record window => pid' = pid ∧ Fresh a row ∧ row ∈ b.db.commands ∧
      record ∈ b.db.controls ∧ ∃ now tick, Preparable cfg pid a row record window now tick
  | .staged row result => Holds s a row ∧ result ∈ b.db.commands ∧ GateOpen pid a row.houseId row.deviceId
  | .snapshot pid' ids => pid' = pid ∧ ∃ proc, Alive pid a proc ∧
      ids = ControlAuthority.snapshotIds a.db proc.authority.clock.epoch
  | .bound s' pid' g => s' = s ∧ pid' = pid ∧
      Granting cfg s pid a g.house g.device g.request g.row g.record g.window ∧
        FreshGrant cfg pid a g ∧
          { g.record with permitBindingSha256 := some g.binding } ∈ b.db.controls
  | .granted permit => Returns cfg s pid a permit
  | .published topic house device payload =>
      (topic = .controlReply ∧ ∃ request, payload = Services.deniedPayload request) ∨
        (topic ≠ .set ∧ GateOpen pid a house device)

theorem Submission.Agrees.lifecycle {sub : Submission} {r r' : DeviceCommand} (h : sub.Agrees r)
    (hl : r.Lifecycle r') : sub.Agrees r' := by
  have hf := hl.fixed
  simp only [DeviceCommand.fixedColumns, Prod.mk.injEq] at hf
  obtain ⟨-, -, hh, hd, hu, hk, ho, -, -⟩ := hf
  refine ⟨?_, hd.trans h.2.1, ho.trans h.2.2⟩
  rw [← h.1]
  simp [DeviceCommand.key, hh, hu, hk]

theorem Ledger.insert_mem {l l' : Ledger} {w : Ledger.Write} (h : l.apply w = some l')
    {row : DeviceCommand} (hw : w.insert = some row) : row ∈ l'.commands :=
  (Ledger.mem_commands_apply h).mpr (Or.inr (Or.inl hw))

/-- **What is noted is true.** -/
theorem Does.logged (hi : Inv a) (h : Does cfg s pid a b) :
    ∃ es, b.log = a.log ++ es ∧ ∀ e ∈ es, Logged cfg s pid a b e := by
  have hone : ∀ {e : Event}, Logged cfg s pid a b e → ∀ e' ∈ [e], Logged cfg s pid a b e' := by
    intro e he e' hm
    rw [List.mem_singleton.mp hm]
    exact he
  have hv := hi.valid
  cases h with
  | nothing => exact ⟨[], (List.append_nil _).symm, by simp⟩
  | locked h => exact ⟨[], (List.append_nil _).symm, by simp⟩
  | guarded h => exact ⟨_, rfl, hone rfl⟩
  | snapshot hp => exact ⟨_, rfl, hone ⟨rfl, _, hp, rfl⟩⟩
  | unlocked => exact ⟨[], (List.append_nil _).symm, by simp⟩
  | ticked hp ht hs =>
      refine ⟨_, rfl, ?_⟩
      cases hs with
      | nothing => simp
      | sendCall hc hs => exact hone ⟨_, hc, rfl, hs⟩
      | reply hr ha => exact hone ⟨_, hr, rfl, ha⟩
  | fenced => exact ⟨[], (List.append_nil _).symm, by simp⟩
  | forgot => exact ⟨[], (List.append_nil _).symm, by simp⟩
  | windowed => exact ⟨[], (List.append_nil _).symm, by simp⟩
  | trimmed => exact ⟨[], (List.append_nil _).symm, by simp⟩
  | cached hp ht hg hb hr => exact ⟨_, rfl, hone (.cached hp hg hb hr)⟩
  | replied hp hl hn => exact ⟨_, rfl, hone (.fresh hp hl hn)⟩
  | @processed e db hj hs hdb =>
      have hmem : e.result ∈ db.commands := (Ledger.mem_commands_apply hdb).mpr
        (Or.inl ⟨rfl, e.row, hj.holds.mem hv, hj.lifecycle.commandId.symm⟩)
      refine ⟨_, rfl, hone ⟨hj, hmem, fun sub hsub => ?_⟩⟩
      obtain ⟨r, hr, hag⟩ := hs sub hsub
      by_cases hid : r.commandId = e.row.commandId
      · obtain rfl := Table.eq_of_key hv.commandIds hr (hj.holds.mem hv) hid
        exact ⟨_, hmem, hag.lifecycle hj.lifecycle⟩
      · refine ⟨r, (Ledger.mem_commands_apply hdb).mpr (Or.inr (Or.inr ⟨hr, ?_⟩)), hag⟩
        intro u hu
        obtain rfl := Option.some.inj hu
        rw [hj.lifecycle.commandId]
        exact hid
  | @created sub id correlation now freed db hid hf hdb =>
      have hmem := Ledger.insert_mem hdb rfl
      refine ⟨_, rfl, fun e he => ?_⟩
      rcases List.mem_append.mp he with he | he
      · obtain ⟨e', hfe, rfl⟩ : ∃ e', freed = some e' ∧ Event.processed e' = e := by
          simpa [Option.mem_toList] using he
        obtain ⟨hj, -, -, hsub⟩ := hf e' hfe
        refine ⟨hj, (Ledger.mem_commands_apply hdb).mpr (Or.inl
          ⟨by simp [hfe], e'.row, hj.holds.mem hv, hj.lifecycle.commandId.symm⟩), fun sub' h => ?_⟩
        rw [hsub] at h
        obtain rfl := Option.some.inj h
        exact ⟨_, hmem, rfl, rfl, rfl⟩
      · rw [List.mem_singleton.mp he]
        exact ⟨rfl, Ledger.insert_fresh hdb rfl, hmem, hid.1, hid.2, id, correlation, now, rfl⟩
  | @prepared row record window now tick db hp hdb =>
      refine ⟨_, rfl, hone ⟨rfl, Ledger.insert_fresh hdb rfl, Ledger.insert_mem hdb rfl,
        (Ledger.mem_controls_apply hdb hv).mpr (Or.inl rfl), _, _, hp⟩⟩
  | staged hh hp hn hg hdb =>
      exact ⟨_, rfl, hone ⟨hh, (Ledger.mem_commands_apply hdb).mpr
        (Or.inl ⟨rfl, _, hh.mem hv, rfl⟩), hg⟩⟩
  | bound hg hf hdb =>
      obtain ⟨hr, hid⟩ := (Ledger.control?_eq_some hv).mp hg.control
      exact ⟨_, rfl, hone ⟨rfl, rfl, hg, hf, (Ledger.mem_controls_apply hdb hv).mpr
        (Or.inr (Or.inl ⟨_, _, _, rfl, hr, hid, hf.unbound, rfl⟩))⟩⟩
  | dispatched hd => exact ⟨_, rfl, hone hd⟩
  | denied => exact ⟨_, rfl, hone (Or.inl ⟨rfl, _, rfl⟩)⟩
  | delivered ht hg => exact ⟨_, rfl, hone (Or.inr ⟨ht, hg⟩)⟩

/-- What is noted about sending a row is noted by the session that committed it,
for the first time. -/
theorem Logged.sending {e : Event} {k : Sending} {id : String} (h : Logged cfg s pid a b e)
    (hs : e.sending = some (k, id)) :
    (∃ sub row, .created s sub row ∈ a.log ∧ row.commandId = id) ∧
      ∀ e' ∈ a.log, e'.sending ≠ some (k, id) := by
  cases e with
  | sendCall sub id' =>
      obtain ⟨rfl, rfl⟩ : Sending.call = k ∧ id' = id := by simpa [Event.sending] using hs
      obtain ⟨row, hc, hid, hn⟩ := h
      exact ⟨⟨sub, row, hc, hid.symm⟩, hn⟩
  | dispatched d =>
      simp only [Event.sending, Option.map_eq_some_iff, Prod.mk.injEq] at hs
      obtain ⟨id', hd, rfl, rfl⟩ := hs
      obtain ⟨⟨sub, row, hc, hid, -⟩, hn, -⟩ := Dispatchable.row h id' hd
      exact ⟨⟨sub, row, hc, hid⟩, hn⟩
  | _ => cases hs

/-- A grant is returned by the session that notes it, and is bound. -/
theorem Logged.grants (hi : Inv a) {e : Event} {t : Nat} {id : String}
    (h : Logged cfg s pid a b e) (hg : e.grants = some (t, id)) :
    t = s ∧ ∃ binding, a.db.BoundTo id binding := by
  cases e with
  | granted permit =>
      obtain ⟨rfl, rfl⟩ : permit.session = t ∧ permit.row.commandId = id := by
        simpa [Event.grants] using hg
      cases h with
      | fresh _ hl => exact ⟨rfl, _, hi.boundTo hl⟩
      | cached _ hgr hb => exact ⟨rfl, _, _, hgr.control, hb⟩
  | _ => cases hg

/-- An event of the new log is an old one, or what was noted is true. -/
theorem Does.mem_log (hi : Inv a) (h : Does cfg s pid a b) {e : Event} (he : e ∈ b.log) :
    e ∈ a.log ∨ Logged cfg s pid a b e := by
  obtain ⟨es, hlog, hes⟩ := h.logged hi
  rw [hlog, List.mem_append] at he
  exact he.imp_right (hes e)

theorem Does.log_subset (hi : Inv a) (h : Does cfg s pid a b) : a.log ⊆ b.log := by
  obtain ⟨es, hlog, -⟩ := h.logged hi
  rw [hlog]
  exact List.subset_append_left _ _

/-- What one operation can note: at most one event, or the end of a previous attempt
together with a new row. -/
inductive Notes : List Event → Prop
  | nothing : Notes []
  | one (e : Event) : Notes [e]
  | freed (p : Processed) (s : Nat) (sub : Submission) (row : DeviceCommand) :
      Notes [.processed p, .created s sub row]

theorem Does.notes (h : Does cfg s pid a b) : ∃ es, b.log = a.log ++ es ∧ Notes es := by
  cases h with
  | ticked hp ht hs =>
      refine ⟨_, rfl, ?_⟩
      cases hs with
      | nothing => exact .nothing
      | sendCall => exact .one _
      | reply => exact .one _
  | @created sub id correlation now freed db hid hf hdb =>
      refine ⟨_, rfl, ?_⟩
      cases freed with
      | none => exact .one _
      | some p => exact .freed p s sub _
  | guarded => exact ⟨_, rfl, .one _⟩
  | snapshot => exact ⟨_, rfl, .one _⟩
  | cached => exact ⟨_, rfl, .one _⟩
  | replied => exact ⟨_, rfl, .one _⟩
  | processed => exact ⟨_, rfl, .one _⟩
  | prepared => exact ⟨_, rfl, .one _⟩
  | staged => exact ⟨_, rfl, .one _⟩
  | bound => exact ⟨_, rfl, .one _⟩
  | dispatched => exact ⟨_, rfl, .one _⟩
  | denied => exact ⟨_, rfl, .one _⟩
  | delivered => exact ⟨_, rfl, .one _⟩
  | _ => exact ⟨[], (List.append_nil _).symm, .nothing⟩

/-! ### The rows -/

/-- Where a committed row comes from. -/
inductive RowOrigin (s pid : Nat) (a b : Shared) (row : DeviceCommand) : Prop
  | old (h : row ∈ a.db.commands)
  | new (hf : Fresh a row) (hp : row.status.pending = true) (ha : row.ackStatus = none)
  | processed (e : Processed) (hj : Judged s pid a e) (hl : .processed e ∈ b.log)
      (h : row = e.result)
  | staged (row₀ : DeviceCommand) (hh : Holds s a row₀) (hp : row₀.status.pending = true)
      (now : Instant) (h : row = { row₀ with dispatchStartedAt := some now })

/-- **A committed row is an old one, a new one, or what a job or a staging made of the
row the session held.** -/
theorem Does.row_origin (h : Does cfg s pid a b) {row : DeviceCommand}
    (hr : row ∈ b.db.commands) : RowOrigin s pid a b row := by
  cases h with
  | @processed e db hj hs hdb =>
      rcases (Ledger.mem_commands_apply hdb).mp hr with ⟨hu, -⟩ | hi | ⟨hold, -⟩
      · obtain rfl := Option.some.inj hu
        exact .processed e hj (List.mem_append_right _ (List.mem_singleton.mpr rfl)) rfl
      · cases hi
      · exact .old hold
  | @created sub id correlation now freed db hid hf hdb =>
      rcases (Ledger.mem_commands_apply hdb).mp hr with ⟨hu, -⟩ | hi | ⟨hold, -⟩
      · obtain ⟨e, rfl, rfl⟩ := Option.map_eq_some_iff.mp hu
        exact .processed e (hf e rfl).1 (List.mem_append_right _ (List.mem_cons_self ..)) rfl
      · obtain rfl := Option.some.inj hi
        exact .new (Ledger.insert_fresh hdb rfl) rfl rfl
      · exact .old hold
  | prepared hp hdb =>
      rcases (Ledger.mem_commands_apply hdb).mp hr with ⟨hu, -⟩ | hi | ⟨hold, -⟩
      · cases hu
      · obtain rfl := Option.some.inj hi
        obtain ⟨i, rfl⟩ := hp.intent
        exact .new (Ledger.insert_fresh hdb rfl) hp.pending rfl
      · exact .old hold
  | staged hh hp hn hg hdb =>
      rcases (Ledger.mem_commands_apply hdb).mp hr with ⟨hu, -⟩ | hi | ⟨hold, -⟩
      · exact .staged _ hh hp _ (Option.some.inj hu).symm
      · cases hi
      · exact .old hold
  | bound hg hf hdb =>
      rcases (Ledger.mem_commands_apply hdb).mp hr with ⟨hu, -⟩ | hi | ⟨hold, -⟩
      · cases hu
      · cases hi
      · exact .old hold
  | _ => exact .old hr

/-- Where a committed control record comes from. -/
inductive ControlOrigin (s pid : Nat) (a b : Shared) (record : ControlCommand) : Prop
  | old (h : record ∈ a.db.controls)
  | prepared (row : DeviceCommand) (window : Window)
      (hl : .prepared pid row record window ∈ b.log) (hid : record.commandId = row.commandId)
  | bound (g : Grant) (hl : .bound s pid g ∈ b.log) (hold : g.record ∈ a.db.controls)
      (h : record = { g.record with permitBindingSha256 := some g.binding })

/-- **A control record is an old one, that of a preparation, or one that was bound.** -/
theorem Does.control_origin (hi : Inv a) (h : Does cfg s pid a b) {record : ControlCommand}
    (hr : record ∈ b.db.controls) : ControlOrigin s pid a b record := by
  cases h with
  | processed hj hs hdb =>
      rcases (Ledger.mem_controls_apply hdb hi.valid).mp hr with h | ⟨_, _, _, h, -⟩ | ⟨hold, -⟩
      · cases h
      · cases h
      · exact .old hold
  | created hid hf hdb =>
      rcases (Ledger.mem_controls_apply hdb hi.valid).mp hr with h | ⟨_, _, _, h, -⟩ | ⟨hold, -⟩
      · cases h
      · cases h
      · exact .old hold
  | prepared hp hdb =>
      rcases (Ledger.mem_controls_apply hdb hi.valid).mp hr with h | ⟨_, _, _, h, -⟩ | ⟨hold, -⟩
      · obtain rfl := Option.some.inj h
        refine .prepared _ _ (List.mem_append_right _ (List.mem_singleton.mpr rfl)) ?_
        obtain ⟨_, _, -, -, -, -, rfl⟩ := hp.process
        rfl
      · cases h
      · exact .old hold
  | staged hh hp hn hg hdb =>
      rcases (Ledger.mem_controls_apply hdb hi.valid).mp hr with h | ⟨_, _, _, h, -⟩ | ⟨hold, -⟩
      · cases h
      · cases h
      · exact .old hold
  | @bound g db hg hf hdb =>
      rcases (Ledger.mem_controls_apply hdb hi.valid).mp hr with
        h | ⟨_, _, r₀, h, hr₀, hid, -, rfl⟩ | ⟨hold, -⟩
      · cases h
      · obtain ⟨rfl, rfl⟩ := Prod.mk.inj (Option.some.inj h)
        obtain ⟨hmem, hgid⟩ := (Ledger.control?_eq_some hi.valid).mp hg.control
        obtain rfl := Table.eq_of_key hi.valid.controlIds hr₀ hmem (hid.trans hgid.symm)
        exact .bound g (List.mem_append_right _ (List.mem_singleton.mpr rfl)) hr₀ rfl
      · exact .old hold
  | _ => exact .old hr

/-! ### Memory -/

/-- How the memory of a process changes. -/
inductive Remembers (a : Shared) (s pid : Nat) (p p' : Port) : Prop
  | ticked (h : p.Ticks p')
  | fenced (ids : List String) (h : p.Fences ids p') (hs : .snapshot pid ids ∈ a.log)
  | forgot (ids : List String)
      (h : p' = p.withAuthority (ControlAuthority.popWindows ids p.proc.authority))
  | windowed (row : DeviceCommand) (record : ControlCommand) (window : Window)
      (hl : .prepared pid row record window ∈ a.log)
      (h : p' = p.withAuthority { p.proc.authority with
        windows := p.proc.authority.windows.set row.commandId window })
  | trimmed (h : p.Trims p')
  | replied (g : Grant) (hl : .bound s pid g ∈ a.log)
      (hn : ∀ e ∈ a.log, e.grants ≠ some (s, g.row.commandId))
      (h : p' = p.withAuthority (ControlAuthority.storeReply g p.proc.authority))

theorem Remembers.later {p p' : Port} (h : Remembers a s pid p p') : p.proc.Later p'.proc := by
  cases h with
  | ticked h => exact h.later
  | fenced ids h => exact h.later
  | forgot ids h => rw [h]; exact Port.withAuthority_later rfl rfl
  | windowed row record window hl h => rw [h]; exact Port.withAuthority_later rfl rfl
  | trimmed h => exact h.later
  | replied g hl hn h => rw [h]; exact Port.withAuthority_later rfl rfl

/-- **The memory of the process changes in one of these ways, or not at all.** -/
theorem Does.memory (h : Does cfg s pid a b) :
    b.procs = a.procs ∨ ∃ p p', a.At pid p ∧
      b.procs = Function.update a.procs pid (some p'.proc) ∧ Remembers a s pid p p' := by
  cases h with
  | ticked hp ht hs => exact Or.inr ⟨_, _, hp, rfl, .ticked ht⟩
  | fenced hp hf hs => exact Or.inr ⟨_, _, hp, rfl, .fenced _ hf hs⟩
  | forgot hp => exact Or.inr ⟨_, _, hp, rfl, .forgot _ rfl⟩
  | windowed hp hl => exact Or.inr ⟨_, _, hp, rfl, .windowed _ _ _ hl rfl⟩
  | trimmed hp ht => exact Or.inr ⟨_, _, hp, rfl, .trimmed ht⟩
  | cached hp ht => exact Or.inr ⟨_, _, hp, rfl, .trimmed ht⟩
  | replied hp hl hn => exact Or.inr ⟨_, _, hp, rfl, .replied _ hl hn rfl⟩
  | _ => exact Or.inl rfl

end KzHome

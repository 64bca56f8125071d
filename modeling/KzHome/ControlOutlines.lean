import KzHome.Outlines

/-!
# KzHome.ControlOutlines

Proof outlines of the control programs: `initialize`, `prepare`, `stage`,
`request`, and the two publications that follow a stage and a request. With them
every service call has an outline, so the contract holds in every run (`sound`).
-/

namespace KzHome

open Session Services ControlAuthority

variable {cfg : Config} {s pid : Nat} {P : Shared → Prop}

/-! ### The gate -/

/-- What is known after the authority of the process was read. -/
theorem Triple.authority (hP : Stable cfg s pid P) :
    Triple cfg s pid (Program.compute ControlAuthority.authority) P (fun r st => P st ∧
      ∃ proc, Alive pid st proc ∧ r.2 = proc.authority) := by
  refine .compute (fun _ a st => ∃ proc, Alive pid st proc ∧ a = proc.authority) hP
    authority_moves (fun _ a => .exists fun _ => Alive.stable.and (.const _))
    fun st p a p' _ _ _ _ hrun => ?_
  rw [run_authority, Prod.mk.injEq, Except.ok.injEq] at hrun
  obtain ⟨rfl, rfl⟩ := hrun
  exact ⟨p.proc, ⟨p.proc, by simp [Shared.remember], .refl _⟩, rfl⟩

/-- **`physical` returns only when the gate is open.** -/
theorem physical_outline (hP : Stable cfg s pid P) (house device : String) :
    Triple cfg s pid (physical house device) P
      (fun _ st => P st ∧ GateOpen pid st house device) := by
  refine .check hP fun _ item => ?_
  split
  · exact .raise
  refine .check hP fun _ actual => ?_
  split
  · exact .raise
  refine .seq (.registry hP fun _ => Or.inl rfl) fun r => ?_
  refine .seq ((Triple.authority hP).pre fun _ _ h => h.1) fun x => ?_
  obtain ⟨port, a⟩ := x
  refine Triple.lift.post fun u st _ h => ?_
  obtain ⟨⟨hp, proc, ha, rfl⟩, hg⟩ := h
  exact ⟨hp, proc, r, ha, hg⟩

/-! ### `initialize` -/

theorem initializeAuthority_outline :
    Triple cfg s pid (initializeAuthority pid) (fun _ => True) (fun _ _ => True) := by
  refine .seq (.authority (.const True)) fun x => ?_
  obtain ⟨port, a⟩ := x
  dsimp only
  split
  · exact .ret fun _ _ _ => trivial
  have hquery : Triple cfg s pid
      (Program.query fun db => [.snapshot pid (snapshotIds db a.clock.epoch)])
      (fun st => True ∧ ∃ proc, Alive pid st proc ∧ a = proc.authority)
      (fun db st => .snapshot pid (snapshotIds db a.clock.epoch) ∈ st.log) := by
    refine Triple.op (fun _ => logged_stable) fun st inp db st' hi hp hh => ?_
    obtain ⟨rfl, rfl⟩ := Prod.mk.inj (Option.some.inj hh)
    obtain ⟨-, proc, ha, rfl⟩ := hp
    exact ⟨.snapshot ha, List.mem_append_right _ (List.mem_singleton.mpr rfl)⟩
  refine .seq hquery fun db => ?_
  have hdoes : ∀ {st : Shared} {p p' : Port} {r : Except Error Int},
      .snapshot pid (snapshotIds db a.clock.epoch) ∈ st.log → st.At pid p →
        (startFence (snapshotIds db a.clock.epoch)).run p = (r, p') →
          Does cfg s pid st ((st.remember pid p p').note []) := by
    intro st p p' r hs hat hrun
    rcases (startFence_moves _).of_run hrun with ht | hf
    · exact .ticked hat ht .nothing
    · rw [Shared.note_nil]
      exact .fenced hat hf hs
  refine .seq (.computeNote (fun _ _ _ => True) logged_stable (fun _ _ => .const _)
    (fun p => (startFence_moves _ p).elim (·.later) (·.later)) (fun _ _ => by simp)
    (fun st p e p' _ hs hat hrun => ?_)
    fun st p x p' _ hs hat hrun => ⟨hdoes hs hat hrun, trivial⟩) fun _ => .ret fun _ _ _ => trivial
  have := hdoes hs hat hrun
  rwa [Shared.note_nil] at this

/-! ### `prepare` -/

/-- Code that changes the authority and nothing else. -/
theorem Triple.modify (f : ControlAuthority → ControlAuthority) (hP : Stable cfg s pid P)
    (hf : ∀ a, (f a).clock = a.clock ∧ (f a).gate = a.gate)
    (h : ∀ st p, P st → st.At pid p →
      Does cfg s pid st (st.remember pid p (p.withAuthority (f p.proc.authority)))) :
    Triple cfg s pid (Program.compute (ControlAuthority.modify f)) P (fun _ st => P st) := by
  have hrun : ∀ {p p' : Port} {r : Except Error Unit}, (ControlAuthority.modify f).run p = (r, p') →
      r = .ok () ∧ p' = p.withAuthority (f p.proc.authority) := by
    intro p p' r h
    simp only [ControlAuthority.modify, Call.run_update, Prod.mk.injEq] at h
    exact ⟨h.1.symm, h.2.symm⟩
  refine (Triple.computeNote (fun _ _ _ => True) hP (fun _ _ => .const _) (fun p => ?_)
    (fun _ _ => by simp) (fun st p e p' _ _ _ hr => ?_) fun st p x p' _ hp hat hr => ?_).post
    fun _ _ _ h => h.1
  · exact Port.withAuthority_later (hf _).1 (hf _).2
  · cases (hrun hr).1
  · obtain ⟨-, rfl⟩ := hrun hr
    rw [Shared.note_nil]
    exact ⟨h st p hp hat, trivial⟩

theorem makeRoom_outline (hP : Stable cfg s pid P) :
    Triple cfg s pid makeRoom P (fun _ st => P st) := by
  refine .seq ((Triple.authority hP).post fun _ _ _ h => h.1) fun x => ?_
  obtain ⟨port, a⟩ := x
  dsimp only
  split
  · exact .ret fun _ _ h => h
  refine .seq ((Triple.query (fun _ _ => True) hP (fun _ => .const _) fun _ _ _ => trivial).post
    fun _ _ _ h => h.1) fun db => ?_
  refine .seq (.modify _ hP (fun _ => ⟨rfl, rfl⟩) fun st p _ hat => .forgot hat) fun _ => ?_
  refine .seq ((Triple.authority hP).post fun _ _ _ h => h.1) fun x => ?_
  obtain ⟨port, a⟩ := x
  dsimp only
  split
  · exact .ret fun _ _ h => h
  · exact .raise

/-- What a sample of the process's clock says. -/
def SampledBy (pid : Nat) (epoch : String) (now : Instant) (tick : Int) (st : Shared) : Prop :=
  ∃ proc anchor, Alive pid st proc ∧ proc.authority.clock.epoch = epoch ∧
    proc.authority.clock.anchor = some anchor ∧
    now = proc.authority.clock.instantOf anchor tick ∧ tick ≤ proc.authority.clock.last

theorem Relies.sampledBy {epoch : String} {now : Instant} {tick : Int} {a b : Shared}
    (hr : Relies s pid a b) (h : SampledBy pid epoch now tick a) :
    SampledBy pid epoch now tick b := by
  obtain ⟨proc, anchor, ha, hrest⟩ := h
  exact ⟨proc, anchor, hr.alive ha, hrest⟩

theorem SampledBy.stable {epoch : String} {now : Instant} {tick : Int} :
    Stable cfg s pid (SampledBy pid epoch now tick) :=
  fun _ _ _ _ h hr => hr.sampledBy h

theorem ControlClock.Sampled.by {st : Shared} {p : Port} {t : Timing} {now : Instant} {tick : Int}
    (h : Sampled p.timing now tick t) :
    SampledBy pid p.proc.authority.clock.epoch now tick (st.remember pid p (p.withTiming t)) := by
  obtain ⟨anchor, ha, hnow⟩ := h.instant
  refine ⟨(p.withTiming t).proc, anchor, ⟨_, by simp [Shared.remember], .refl _⟩,
    h.advances.epoch, h.advances.anchor.trans ha, ?_, h.after⟩
  rw [hnow]
  simp [instantOf, Port.withTiming, Port.timing, h.advances.start]

theorem prepareSample_outline (hP : Stable cfg s pid P) :
    Triple cfg s pid (Program.compute prepareSample) P (fun r st => P st ∧
      SampledBy pid r.1.proc.authority.clock.epoch r.2.1 r.2.2 st) := by
  refine .compute (fun p x st => SampledBy pid p.proc.authority.clock.epoch x.1 x.2 st) hP
    prepareSample_moves (fun _ _ => SampledBy.stable) fun st p x p' _ _ _ _ hrun => ?_
  obtain ⟨now, tick⟩ := x
  obtain ⟨-, t, hs, rfl⟩ := prepareSample_ok hrun
  exact hs.by

/-- **`prepare` commits a checked intent, and only then remembers its window.** -/
theorem prepare_outline (i : Intent) :
    Triple cfg s pid (prepare cfg pid i.row) (fun _ => True) (fun _ _ => True) := by
  refine .seq (physical_outline (.const True) _ _) fun _ => ?_
  refine .seq ((prepareSample_outline GateOpen.stable).pre fun _ _ h => h.2) fun x => ?_
  obtain ⟨port, now, tick⟩ := x
  have hP : Stable cfg s pid (fun st => GateOpen pid st i.row.houseId i.row.deviceId ∧
      SampledBy pid port.proc.authority.clock.epoch now tick st) :=
    GateOpen.stable.and SampledBy.stable
  refine .seq ((Triple.find hP _).post fun _ _ _ h => h.1) fun found => ?_
  refine .seq .lift fun u => ?_
  refine .given (fun _ _ h => prepareCheck_ok h.2) fun hcheck => ?_
  obtain ⟨hpend, hnew, hcreated, hearly, hlife⟩ := hcheck
  refine .seq ((makeRoom_outline hP).pre fun _ _ h => h.1) fun _ => ?_
  refine .seq (.flush hP _) fun accepted => ?_
  split
  · exact .raise
  refine .seq (.commit (fun st => .prepared pid i.row
    (candidate cfg.sha port.proc.authority.clock.epoch i.row)
    (windowOf i.row (candidate cfg.sha port.proc.authority.clock.epoch i.row) now tick) ∈ st.log)
    logged_stable fun st db hi h hdb => ?_) fun refused => ?_
  · obtain ⟨hgate, proc, anchor, ha, hep, hanchor, hnow, hlast⟩ := h
    have hprep : Preparable cfg pid st i.row
        (candidate cfg.sha port.proc.authority.clock.epoch i.row)
        (windowOf i.row (candidate cfg.sha port.proc.authority.clock.epoch i.row) now tick)
        now tick :=
      ⟨⟨i, rfl⟩, hpend, hnew, hcreated, hearly, hlife,
        ⟨proc, anchor, ha, hanchor, hnow, hlast, by rw [hep]⟩, rfl, hgate⟩
    exact ⟨.prepared hprep hdb, List.mem_append_right _ (List.mem_singleton.mpr rfl)⟩
  · split
    · exact .raise
    · refine .seq (Triple.modify _ (fun a b ha hb h hr => ?_) (fun _ => ⟨rfl, rfl⟩)
        fun st p h hat => .windowed hat (h rfl)) fun _ => .ret fun _ _ _ => trivial
      exact fun hn => hr.log (h hn)

/-! ### `stage` -/

theorem sample_outline (hP : Stable cfg s pid P) :
    Triple cfg s pid (Program.compute (clocked ControlClock.sample)) P (fun r st => P st ∧
      SampledBy pid r.1.proc.authority.clock.epoch r.2.1 r.2.2 st) := by
  refine .compute (fun p x st => SampledBy pid p.proc.authority.clock.epoch x.1 x.2 st) hP
    (.clocked ControlClock.sample_moves) (fun _ _ => SampledBy.stable)
    fun st p x p' _ _ _ _ hrun => ?_
  obtain ⟨now, tick⟩ := x
  obtain ⟨t, hs, rfl⟩ := clocked_ok.mp hrun
  exact (ControlClock.sample_ok hs).by

/-- The row a control operation found is locked and is the one that was asked for. -/
def Routed (s : Nat) (house device id : String) (found : Option DeviceCommand) (st : Shared) :
    Prop :=
  ∀ row, found = some row → Holds s st row ∧ row.commandId = id ∧ row.houseId = house ∧
    row.deviceId = device

theorem Relies.routed {house device id : String} {found : Option DeviceCommand} {a b : Shared}
    (hr : Relies s pid a b) (h : Routed s house device id found a) :
    Routed s house device id found b :=
  fun row hf => ⟨hr.holds (h row hf).1, (h row hf).2⟩

theorem Routed.stable {house device id : String} {found : Option DeviceCommand} :
    Stable cfg s pid (Routed s house device id found) :=
  fun _ _ _ _ h hr => hr.routed h

theorem Triple.routed (hP : Stable cfg s pid P) (house device id : String) :
    Triple cfg s pid (Program.find (.routed house device id)) P
      (fun found st => P st ∧ Routed s house device id found st) := by
  refine (Triple.find hP _).post fun found st _ h => ⟨h.1, fun row hf => ?_⟩
  obtain ⟨hh, hm⟩ := h.2 row hf
  simp only [Selector.matches, Bool.and_eq_true, decide_eq_true_eq] at hm
  exact ⟨hh, hm.1.1, hm.1.2, hm.2⟩

/-- **`stage` marks a row that was never staged, behind the gate.** -/
theorem stage_outline (house device id : String) :
    Triple cfg s pid (stage cfg house device id) (fun _ => True)
      (fun _ st => GateOpen pid st house device) := by
  refine .seq (physical_outline (.const True) _ _) fun _ => ?_
  have hG : Stable cfg s pid (fun st => GateOpen pid st house device) := GateOpen.stable
  refine .seq (((sample_outline hG).pre fun _ _ h => h.2).post fun _ _ _ h => h.1) fun x => ?_
  obtain ⟨port, now, tick⟩ := x
  refine .seq (.routed hG house device id) fun found => ?_
  have hP : Stable cfg s pid (fun st => GateOpen pid st house device ∧
      Routed s house device id found st) := hG.and Routed.stable
  have hget : Triple cfg s pid (getControl id) (fun st => GateOpen pid st house device ∧
      Routed s house device id found st) (fun _ st => GateOpen pid st house device ∧
      Routed s house device id found st) :=
    .seq (.query (fun _ _ => True) hP (fun _ => .const _) fun _ _ _ => trivial)
      fun db => .ret fun _ _ h => h.1
  refine .seq hget fun record => ?_
  refine .seq (.compute (fun _ x _ => ∃ row, found = some row ∧ row.status.pending = true ∧
    row.dispatchStartedAt = none ∧ x.1 = { row with dispatchStartedAt := some now }) hP
    (stageDecide_moves _ _ _ _ _ _) (fun _ _ => .const _) fun st p x p' _ _ _ _ hrun => ?_)
    fun x => ?_
  · obtain ⟨row, record', window, hrow, -, hst, hres, -⟩ := stageDecide_ok hrun
    exact ⟨row, hrow, hst.pending, hst.unstaged, hres⟩
  obtain ⟨port', result, delivery⟩ := x
  refine .given (fun _ _ h => h.2) fun hdec => ?_
  obtain ⟨row, rfl, hpend, hnew, rfl⟩ := hdec
  refine .seq (.commit (fun st => GateOpen pid st house device) hG
    fun st db hi h hdb => ?_) fun refused => ?_
  · obtain ⟨⟨hgate, hfound⟩, -⟩ := h
    obtain ⟨hh, -, hhouse, hdevice⟩ := hfound row rfl
    have hd : Does cfg s pid st (st.committed s db
        [.staged row { row with dispatchStartedAt := some now }]) :=
      .staged hh hpend hnew (by rw [hhouse, hdevice]; exact hgate) hdb
    exact ⟨hd, gateOpen_persistent.own _ _ hi hgate hd⟩
  · split
    · exact .ret fun _ _ h => h rfl
    · exact .raise

/-! ### `request` -/

/-- A grant that the session has bound and not returned yet. -/
structure Unreturned (s pid : Nat) (g : Grant) (st : Shared) : Prop where
  gate : GateOpen pid st g.house g.device
  bound : .bound s pid g ∈ st.log
  unreturned : ∀ e ∈ st.log, e.grants ≠ some (s, g.row.commandId)

theorem Unreturned.stable {g : Grant} : Stable cfg s pid (Unreturned s pid g) :=
  fun _ _ _ _ h hr => ⟨hr.gateOpen h.gate, hr.log h.bound, hr.grants _ h.unreturned⟩

/-- Nothing was returned for a record that is not bound. -/
theorem Inv.unreturned {st : Shared} {id : String} {record : ControlCommand} (hi : Inv st)
    (hc : st.db.control? id = some record) (hn : record.permitBindingSha256 = none) :
    ∀ e ∈ st.log, e.grants ≠ some (s, id) := by
  intro e he hg
  obtain ⟨b, record', hc', hb⟩ := hi.granted e he s id hg
  rw [hc] at hc'
  obtain rfl := Option.some.inj hc'
  rw [hn] at hb
  cases hb

/-- **A grant is returned once, after it has been bound.** -/
theorem bindGrant_outline (g : Grant) :
    Triple cfg s pid (bindGrant s pid g)
      (fun st => Granting cfg s pid st g.house g.device g.request g.row g.record g.window ∧
        FreshGrant cfg pid st g)
      (fun _ st => GateOpen pid st g.house g.device) := by
  refine .seq (.commit (Unreturned s pid g) Unreturned.stable fun st db hi h hdb => ?_)
    fun refused => ?_
  · have hd : Does cfg s pid st (st.committed s db [.bound s pid g]) := .bound h.1 h.2 hdb
    refine ⟨hd, gateOpen_persistent.own _ _ hi h.1.gate hd,
      List.mem_append_right _ (List.mem_singleton.mpr rfl), fun e he => ?_⟩
    rcases List.mem_append.mp he with he | he
    · exact hi.unreturned h.1.control h.2.unbound e he
    · rw [List.mem_singleton.mp he]; simp [Event.grants]
  split
  · exact .raise
  · exact .raise
  have hrun : ∀ {p p' : Port} {r : Except Error Unit},
      (ControlAuthority.modify (storeReply g)).run p = (r, p') →
        r = .ok () ∧ p' = p.withAuthority (storeReply g p.proc.authority) := by
    intro p p' r h
    simp only [ControlAuthority.modify, Call.run_update, Prod.mk.injEq] at h
    exact ⟨h.1.symm, h.2.symm⟩
  refine .seq ((Triple.run (fun _ _ st => GateOpen pid st g.house g.device)
    (fun _ _ => GateOpen.stable) (fun st p e p' _ _ _ hr => ?_)
    fun st p x p' hi hp hat hr => ?_).pre fun _ _ h => h rfl) fun _ => .ret fun _ _ h => h
  · cases (hrun hr).1
  · obtain ⟨-, rfl⟩ := hrun hr
    have hd : Does cfg _ _ _ _ := Does.replied hat hp.bound hp.unreturned
    exact ⟨hd, gateOpen_persistent.own _ _ hi hp.gate hd⟩

/-- What the decision of `request` rests on, besides the memory it reads. -/
structure Asked (s pid : Nat) (house device id epoch : String) (now : Instant) (tick : Int)
    (found : Option DeviceCommand) (control : Option ControlCommand) (st : Shared) : Prop where
  gate : GateOpen pid st house device
  sampled : SampledBy pid epoch now tick st
  routed : Routed s house device id found st
  control : found.isSome = true → st.db.control? id = control

theorem Asked.stable {house device id epoch : String} {now : Instant} {tick : Int}
    {found : Option DeviceCommand} {control : Option ControlCommand} :
    Stable cfg s pid (Asked s pid house device id epoch now tick found control) := by
  intro a b ha hb h hr
  refine ⟨hr.gateOpen h.gate, hr.sampledBy h.sampled, hr.routed h.routed, fun hs => ?_⟩
  obtain ⟨row, rfl⟩ := Option.isSome_iff_exists.mp hs
  obtain ⟨hh, hid, -⟩ := h.routed row rfl
  rw [← hid, hr.controls row hh, hid]
  exact h.control rfl

section

variable {house device epoch : String} {request : PermitRequest} {now : Instant} {tick : Int}
  {found : Option DeviceCommand} {control : Option ControlCommand} {st : Shared} {p : Port}

theorem Alive.current (hat : st.At pid p) : Alive pid st p.proc := ⟨p.proc, hat, .refl _⟩

/-- A request that was found grantable. -/
theorem ControlAuthority.Grantable.granting {row : DeviceCommand} {record : ControlCommand} {window : Window}
    (hi : Inv st) (hat : st.At pid p)
    (h : Asked s pid house device request.commandId epoch now tick (some row) (some record) st)
    (hg : Grantable cfg.sha p request row record window tick) :
    Granting cfg s pid st house device request row record window := by
  obtain ⟨hh, hid, hhouse, hdevice⟩ := h.routed row rfl
  obtain ⟨row₀, record₀, hl, hid₀⟩ := hi.windows pid p.proc _ window hat hg.found
  exact ⟨hh, by rw [hid]; exact h.control rfl, hid, hhouse, hdevice,
    ⟨p.proc, .current hat, hg.epoch, hg.requestEpoch⟩, hg.intent, hg.pending, hg.staged,
    hg.identity, ⟨row₀, record₀, hl, hid₀.trans hid.symm⟩, h.gate⟩

/-- A fresh decision. -/
theorem ControlAuthority.Decides.fresh {row : DeviceCommand} {record : ControlCommand} {window : Window} {g : Grant}
    (hat : st.At pid p) (hs : SampledBy pid epoch now tick st)
    (hg : Grantable cfg.sha p request row record window tick)
    (hd : Decides cfg.sha house device request p now tick row record window (.fresh g)) :
    FreshGrant cfg pid st g := by
  obtain ⟨hnone, hpos, hrem, hge⟩ := hd
  obtain ⟨proc, anchor, ⟨current, hc, hl⟩, -, hanchor, hnow, -⟩ := hs
  obtain rfl : p.proc = current := Option.some.inj (hat.symm.trans hc)
  rw [hge]
  exact ⟨hnone, hg.early, hpos, hrem, rfl, proc, anchor, ⟨p.proc, hc, hl⟩, hanchor, hnow,
    by rw [hl.epoch]⟩

end

/-- What `request` knows once it has decided. -/
def Granted (cfg : Config) (s pid : Nat) (house device : String) : Decision → Shared → Prop
  | .cached _ _ _, st => GateOpen pid st house device
  | .fresh g, st => g.house = house ∧ g.device = device ∧
      Granting cfg s pid st g.house g.device g.request g.row g.record g.window ∧
        FreshGrant cfg pid st g

theorem Granted.stable {house device : String} {d : Decision} :
    Stable cfg s pid (Granted cfg s pid house device d) := by
  cases d with
  | cached row record delivery => exact GateOpen.stable
  | fresh g => exact (Contract.Stable.const _).and ((Contract.Stable.const _).and
      (granting_stable.and freshGrant_stable))

theorem Relies.granted {house device : String} {d : Decision} {a b : Shared} (ha : Inv a)
    (hb : Inv b) (hr : Relies s pid a b) (h : Granted cfg s pid house device d a) :
    Granted cfg s pid house device d b :=
  Granted.stable a b ha hb h hr

/-- The decision of `request`, with the reply it may return at once. -/
theorem requestDecide_outline (house device epoch : String) (request : PermitRequest)
    (now : Instant) (tick : Int) (found : Option DeviceCommand) (control : Option ControlCommand) :
    Triple cfg s pid (Program.computeNote
      (requestDecide cfg.sha house device request found control now tick)
      (cachedNote s pid house device request))
      (Asked s pid house device request.commandId epoch now tick found control)
      (fun r st => Granted cfg s pid house device r.2 st) := by
  have hm := requestDecide_moves cfg.sha house device request found control now tick
  refine Triple.run (fun _ d st => Granted cfg s pid house device d st) (fun _ _ => Granted.stable)
    (fun st p e p' _ _ hat hrun => .trimmed hat (hm.of_run hrun)) ?_
  intro st p d p' hi ha hat hrun
  obtain ⟨row, record, window, rfl, rfl, hg, hd⟩ := requestDecide_ok hrun
  have hgr := hg.granting hi hat ha
  have hlater := (hm.of_run hrun).later
  cases d with
  | cached row' record' delivery =>
      obtain ⟨rfl, rfl, hb, hrep⟩ := hd
      simp only [cachedNote, hg.found]
      have hdoes := Does.cached hat (hm.of_run hrun) hgr hb hrep
      exact ⟨hdoes, gateOpen_persistent.own _ _ hi ha.gate hdoes⟩
  | fresh g =>
      have hfresh := hd.fresh hat ha.sampled hg
      have hge := hd.2.2.2
      simp only [cachedNote, Shared.note_nil]
      have hdoes : Does cfg s pid st (st.remember pid p p') := .trimmed hat (hm.of_run hrun)
      refine ⟨hdoes, Relies.granted hi (hdoes.inv hi) (.remembered_quiet hat hlater) ?_⟩
      rw [hge] at hfresh ⊢
      exact ⟨rfl, rfl, hgr, hfresh⟩

theorem request_outline (house device : String) (req : PermitRequest) :
    Triple cfg s pid (Services.request cfg s pid house device req) (fun _ => True)
      (fun _ st => GateOpen pid st house device) := by
  refine .seq (physical_outline (.const True) _ _) fun _ => ?_
  refine .seq ((sample_outline GateOpen.stable).pre fun _ _ h => h.2) fun x => ?_
  obtain ⟨port, now, tick⟩ := x
  refine .seq (.routed (GateOpen.stable.and SampledBy.stable) house device req.commandId)
    fun found => ?_
  have hP : Stable cfg s pid (fun st => (GateOpen pid st house device ∧
      SampledBy pid port.proc.authority.clock.epoch now tick st) ∧
      Routed s house device req.commandId found st) :=
    (GateOpen.stable.and SampledBy.stable).and Routed.stable
  refine .seq ((Triple.lockControl (fun c st => Asked s pid house device req.commandId
    port.proc.authority.clock.epoch now tick found c st) hP (fun _ => Asked.stable)
    fun st _ h => ⟨h.1.1, h.1.2, h.2, fun _ => rfl⟩).post fun _ _ _ h => h.2) fun control => ?_
  refine .seq (requestDecide_outline house device _ req now tick found control) fun x => ?_
  obtain ⟨port', d⟩ := x
  cases d with
  | cached row record delivery => exact .ret fun _ _ h => h
  | fresh g =>
      refine .given (fun _ _ h => And.intro h.1 h.2.1) fun hg => ?_
      obtain ⟨rfl, rfl⟩ := hg
      exact (bindGrant_outline g).pre fun _ _ h => h.2.2

/-! ### Publications -/

theorem validateDelivery_outline (hP : Stable cfg s pid P) (delivery : ControlDelivery) :
    Triple cfg s pid (Services.validateDelivery delivery) P (fun _ st => P st) := by
  refine .seq (.compute_ hP fun p => .refl p) fun x => ?_
  obtain ⟨port, up⟩ := x
  dsimp only
  split
  · exact .raise
  · exact .seq (.compute_ hP (validateDelivery_moves delivery)) fun _ => .ret fun _ _ h => h

theorem sendControlCommand_outline (house device id : String) :
    Triple cfg s pid (sendControlCommand cfg house device id) (fun _ => True)
      (fun _ _ => True) := by
  refine .seq (stage_outline house device id) fun delivery => ?_
  refine .seq (.rollback gateOpen_persistent) fun _ => ?_
  refine .seq (validateDelivery_outline GateOpen.stable delivery) fun _ => ?_
  exact .seq (.publish GateOpen.stable ⟨rfl, rfl⟩ fun st _ h => .delivered (by simp) h)
    fun _ => .ret fun _ _ _ => trivial

theorem controlRequest_outline (house device : String) (req : PermitRequest) :
    Triple cfg s pid (controlRequest cfg s pid house device req) (fun _ => True)
      (fun _ _ => True) := by
  refine .seq (requireHouse_outline (.const True) house device) fun _ => ?_
  have hgrant : Triple cfg s pid (do
      let delivery ← Services.request cfg s pid house device req
      Program.rollback
      Services.validateDelivery delivery
      return delivery.payload) (fun _ => True) (fun _ st => GateOpen pid st house device) :=
    .seq (request_outline house device req) fun delivery =>
      .seq (.rollback gateOpen_persistent) fun _ =>
        .seq (validateDelivery_outline GateOpen.stable delivery) fun _ => .ret fun _ _ h => h
  refine .seq ((Contract.Outline.attempt hgrant).pre fun _ _ _ => trivial) fun outcome => ?_
  cases outcome with
  | ok payload =>
      refine .seq (.rollback gateOpen_persistent) fun _ => ?_
      exact .seq (.publish GateOpen.stable ⟨rfl, rfl⟩ fun st _ h => .delivered (by simp) h)
        fun _ => .ret fun _ _ _ => trivial
  | error e =>
      refine .seq ((Triple.rollback Persistent.const_true).pre fun _ _ _ => trivial) fun _ => ?_
      dsimp only
      split
      · exact .seq (.publish (.const True) ⟨rfl, rfl⟩ fun st _ h => .denied)
          fun _ => .ret fun _ _ _ => trivial
      · exact .raise

/-! ### Soundness -/

/-- Every service call has an outline. -/
theorem program_outline (call : ServiceCall) :
    Triple cfg s pid (call.program cfg s pid) (fun _ => True) (fun _ _ => True) := by
  cases call with
  | submit house device user key on => exact submit_outline house device user key on
  | get house id =>
      refine .seq ((get_outline none house id).pre fun _ _ _ x hx => ?_)
        fun _ => .ret fun _ _ _ => trivial
      cases hx
  | ack house device envelope retained => exact ack_outline house device envelope retained
  | state house device envelope retained => exact state_outline house device envelope retained
  | updateState device patch correlationId => exact updateState_outline device patch correlationId
  | initializeAuthority => exact initializeAuthority_outline
  | prepare intent => exact prepare_outline intent
  | sendControlCommand house device id => exact sendControlCommand_outline house device id
  | controlRequest house device request => exact controlRequest_outline house device request

theorem obligations (cfg : Config) :
    Obligations (contract cfg) core (fun s p (call : ServiceCall) => call.program cfg s p) where
  does_inv hi hd := Does.inv hi hd
  does_relies hi hd hne := Does.relies hi hd hne
  act_inv hi h := act_inv hi h
  act_relies hi h hk := act_relies hi h hk
  close_inv hi := close_inv hi
  close_relies _ ht := close_relies ht
  programs s p call := by
    refine ⟨fun _ => True, .const True, fun _ _ _ => trivial, ?_⟩
    exact Contract.Outline.post (program_outline call) fun _ _ _ _ => trivial

/-- **The contract holds in every run.** -/
theorem sound (cfg : Config) (registry : Registry) (labels : List Label) :
    Sound (contract cfg) core (after cfg registry labels) :=
  Sound.run (obligations cfg) (Sound.init (Inv.empty registry)) labels

end KzHome

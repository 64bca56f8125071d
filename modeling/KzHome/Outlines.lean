import KzHome.Rules

/-!
# KzHome.Outlines

Proof outlines of the ledger programs: the guards, `send_command`, the jobs on
an existing row, `submit` and `update_state`.

Each is the program again, statement by statement, with what is known in front of
it. The assertion that matters in the middle of `process` is `Judged`: the
decision was taken on the committed row and record, and the row is still locked.
-/

namespace KzHome

open Session Services

variable {cfg : Config} {s pid : Nat} {P : Shared → Prop}

/-! ### Guards -/

/-- A statement on the other tables whose result is checked before anything else. -/
theorem Triple.check (hP : Stable cfg s pid P) {locks : Registry → List Lock} {α β : Type}
    {c : Registry → Except Error α} {f : Registry → α → Program β} {Q : β → Shared → Prop}
    (hf : ∀ r x, Triple cfg s pid (f r x) P Q) :
    Triple cfg s pid (do
      let r ← Program.registry locks fun _ => []
      let x ← Prog.lift (c r)
      f r x) P Q :=
  .seq (.registry hP fun _ => Or.inl rfl) fun r => .seq .lift fun x =>
    (hf r x).pre fun _ _ h => h.1.1

/-- `require_house` returns the registry in which the device had this house. -/
theorem requireHouse_outline (hP : Stable cfg s pid P) (house device : String) :
    Triple cfg s pid (requireHouse house device) P (fun r st => P st ∧ .guarded r ∈ st.log ∧
      r.houseId device = .ok (some house)) := by
  refine .check hP fun _ _ => .check hP fun _ _ => ?_
  refine .seq (.registry hP fun _ => Or.inr rfl) fun r => ?_
  split
  · exact .raise
  · rename_i actual hact
    split
    · exact .raise
    · rename_i heq
      refine .ret fun st _ h => ⟨h.1, h.2 _ (List.mem_singleton.mpr rfl), ?_⟩
      rw [hact, not_not.mp heq]

/-- What `authorize_command` has established. -/
structure Authorized (cfg : Config) (house device : String) (housed unbound : Registry)
    (st : Shared) : Prop where
  inHouse : housed.houseId device = .ok (some house)
  noInventory : unbound.byDevice device = none
  software : (house, device) ∈ cfg.softwareDevices
  guarded : .guarded housed ∈ st.log ∧ .guarded unbound ∈ st.log

theorem Authorized.stable {house device : String} {housed unbound : Registry} :
    Stable cfg s pid (Authorized cfg house device housed unbound) :=
  fun _ _ _ _ h hr => ⟨h.inHouse, h.noInventory, h.software, hr.log h.guarded.1,
    hr.log h.guarded.2⟩

theorem authorizeCommand_outline (hP : Stable cfg s pid P) (house device : String) :
    Triple cfg s pid (authorizeCommand cfg house device) P (fun r st => P st ∧
      Authorized cfg house device r.1 r.2 st) := by
  refine .seq (requireHouse_outline hP house device) fun housed => ?_
  refine .seq (.registry (hP.and (logged_stable.and (.const _))) fun _ => Or.inr rfl)
    fun unbound => ?_
  split
  · exact .raise
  · rename_i hnone
    split
    · exact .raise
    · rename_i hsoft
      exact .ret fun st _ h => ⟨h.1.1, h.1.2.2, Registry.requireCommandContract_ok.mp hnone,
        not_not.mp hsoft, h.1.2.1, h.2 _ (List.mem_singleton.mpr rfl)⟩

/-! ### `send_command` -/

theorem SetFrame.Carries.of_fixed {f : SetFrame} {r r' : DeviceCommand} (h : f.Carries r)
    (hf : r'.fixedColumns = r.fixedColumns) : f.Carries r' := by
  simp only [DeviceCommand.fixedColumns, Prod.mk.injEq] at hf
  obtain ⟨hid, hco, hh, hd, -, -, ho, hc, he⟩ := hf
  unfold SetFrame.Carries at h ⊢
  rw [h, hid, hco, hh, hd, ho, hc, he]

theorem Relies.sentFor {f : SetFrame} {id : String} {a b : Shared} (hr : Relies s pid a b)
    (h : f.SentFor s id a) : f.SentFor s id b := by
  obtain ⟨sub, row, hc, rfl, hcall⟩ := h.called
  obtain ⟨r, hm, hid, hcar⟩ := h.carries
  obtain ⟨r', hm', hf⟩ := hr.fixed r hm
  exact ⟨⟨sub, row, hr.log hc, rfl, hr.log hcall⟩, hr.sends .frame sub row hc h.unsent,
    r', hm', (congrArg (·.1) hf).trans hid, hcar.of_fixed hf⟩

/-- The message of a row has its identifiers already. -/
def RowFrame (s : Nat) (row : Option String) (f : SetFrame) (st : Shared) : Prop :=
  ∀ id, row = some id → f.commandId ≠ "" ∧ f.correlationId ≠ "" ∧ f.SentFor s id st

theorem RowFrame.stable {row : Option String} {f : SetFrame} :
    Stable cfg s pid (RowFrame s row f) :=
  fun _ _ _ _ h hr id hid => ⟨(h id hid).1, (h id hid).2.1, hr.sentFor (h id hid).2.2⟩

/-- An identifier that is replaced when it is empty. -/
theorem Triple.orUuid (hP : Stable cfg s pid P) (value : String) :
    Triple cfg s pid (Services.orUuid value) P (fun id st => P st ∧ (value ≠ "" → id = value)) := by
  unfold Services.orUuid
  split
  · rename_i h
    exact (Triple.uuid hP).post fun id st _ hp => ⟨hp.1, fun hne => absurd h hne⟩
  · exact .ret fun st _ hp => ⟨hp, fun _ => rfl⟩

/-- A reading of `now` has been taken. -/
theorem Triple.now (hP : Stable cfg s pid P) :
    Triple cfg s pid (Program.compute CommandService.now) P
      (fun r st => P st ∧ r.2 ∈ st.readings) := by
  refine .compute (fun _ now st => now ∈ st.readings) hP CommandService.now_moves
    (fun _ _ => reading_stable) fun st p now p' _ _ _ _ hrun => ?_
  have hnows := CommandService.now_ok hrun
  refine List.mem_append_right _ ?_
  rw [hnows]
  simp [consumed]

/-- **`send_command` publishes only what it has checked.** -/
theorem sendCommand_outline (row : Option String) (frame : SetFrame) :
    Triple cfg s pid (sendCommand cfg row frame) (RowFrame s row frame) (fun _ _ => True) := by
  refine .seq (authorizeCommand_outline RowFrame.stable frame.house frame.device) fun r => ?_
  have hA : Stable cfg s pid (fun st => RowFrame s row frame st ∧
      Authorized cfg frame.house frame.device r.1 r.2 st) := RowFrame.stable.and Authorized.stable
  obtain ⟨housed, unbound⟩ := r
  dsimp only at hA ⊢
  split
  · exact .raise
  rename_i hlife
  refine .seq (.orUuid hA _) fun correlationId => ?_
  refine .seq (.orUuid (hA.and (.const _)) _) fun commandId => ?_
  split
  · exact .raise
  have hB := (hA.and (.const (frame.correlationId ≠ "" → correlationId = frame.correlationId))).and
    (.const (frame.commandId ≠ "" → commandId = frame.commandId))
  refine .seq (.now hB) fun p => ?_
  obtain ⟨port, now⟩ := p
  dsimp only
  split
  · exact .raise
  rename_i hnow
  rw [not_not] at hlife hnow
  refine .seq (Triple.op (R := fun _ _ => True) (fun _ => .const _)
    fun st inp x st' hi h hh => ?_) fun sent => ?_
  · obtain ⟨⟨⟨⟨hrow, hauth⟩, hcorr⟩, hid⟩, hread⟩ := h
    obtain ⟨rfl, rfl⟩ := Prod.mk.inj (Option.some.inj hh)
    refine ⟨.dispatched ?_, trivial⟩
    refine ⟨hauth.guarded.1, hauth.inHouse, hauth.guarded.2, hauth.noInventory, hauth.software,
      hlife.2, hnow.1, hnow.2, hread, fun id hr => ?_⟩
    obtain ⟨hne, hne', hsent⟩ := hrow id hr
    rw [hcorr hne', hid hne]
    exact hsent
  · split
    · exact .ret fun _ _ _ => trivial
    · exact .raise

/-! ### Jobs -/

theorem Triple.frame {α : Type} {m : Program α} {F : Shared → Prop} {Q : α → Shared → Prop}
    (hF : (contract cfg).Persistent s pid F) (h : Triple cfg s pid m P Q) :
    Triple cfg s pid m (fun st => P st ∧ F st) (fun x st => Q x st ∧ F st) :=
  (Contract.Outline.frame hF h).post fun r st _ hr => by
    cases r with
    | ok x => exact hr
    | error e => trivial

/-- The submission a job is done for, if any, has a row. -/
def OnBehalf (sub : Option Submission) (st : Shared) : Prop :=
  ∀ x, sub = some x → ∃ r ∈ st.db.commands, x.Agrees r

theorem OnBehalf.stable {sub : Option Submission} : Stable cfg s pid (OnBehalf sub) := by
  rintro a b - - h hr x hx
  obtain ⟨r, hm, hag⟩ := h x hx
  obtain ⟨r', hm', hf⟩ := hr.fixed r hm
  exact ⟨r', hm', hag.of_fixed hf⟩

theorem OnBehalf.of_submitted {sub : Submission} {id : String} {st : Shared}
    (h : Submitted sub id st) : OnBehalf (some sub) st := by
  rintro x hx
  obtain rfl := Option.some.inj hx
  obtain ⟨r, hr, -, hag⟩ := h
  exact ⟨r, hr, hag⟩

section

variable {row : DeviceCommand} {job : Job}

/-- The control record of a row that is locked. -/
theorem getControl_outline (hP : Stable cfg s pid P) (hh : ∀ st, P st → Holds s st row) :
    Triple cfg s pid (getControl row.commandId) P
      (fun control st => P st ∧ st.db.control? row.commandId = control) := by
  refine .seq (.query (fun db st =>
    Holds s st row ∧ st.db.control? row.commandId = db.control? row.commandId) hP
    (fun db => Holds.control_stable) fun st _ hp => ⟨hh st hp, rfl⟩) fun db => ?_
  exact .ret fun st _ h => ⟨h.1, h.2.2⟩

/-- The decision on a row that is locked. -/
theorem decide_outline (sub : Option Submission) {control : Option ControlCommand} (hP : Stable cfg s pid P)
    (hh : ∀ st, P st → Holds s st row) (hc : ∀ st, P st → st.db.control? row.commandId = control)
    (hr : job.Routes row) :
    Triple cfg s pid (Program.compute (job.decide row control)) P (fun r st => P st ∧
      Judged s pid st { job, row, control, port := r.1, result := r.2, submission := sub }) := by
  refine .compute (fun port result st =>
    Judged s pid st { job, row, control, port, result, submission := sub }) hP
    (job.decide_moves row control) (fun _ _ => judged_stable) fun st p result p' hi hp hat ht hrun => ?_
  have hold := hh st hp
  have hcontrol := hc st hp
  have hmem := hold.mem hi.valid
  refine ⟨⟨hold.locked, hold.row⟩, hcontrol, hr, ⟨p', hrun, ?_, st.readings, List.prefix_refl _, ?_⟩, ?_⟩
  · exact ⟨p'.proc, by simp [Shared.remember], .refl _⟩
  · rintro hnone t ht
    exact (hi.timed row hmem t ht).direct (hcontrol.trans hnone)
  · rintro record hsome hepoch t ht
    exact (hi.timed row hmem t ht).ticked record (hcontrol.trans hsome) pid p.proc hat hepoch

/-- **A job commits what it decided on the locked row.** -/
theorem process_outline (sub : Option Submission) (hr : job.Routes row) :
    Triple cfg s pid (process job sub row) (fun st => Holds s st row ∧ OnBehalf sub st)
      (fun result _ => result.commandId = row.commandId) := by
  have hP : Stable cfg s pid (fun st => Holds s st row ∧ OnBehalf sub st) :=
    Holds.stable.and OnBehalf.stable
  refine .seq (getControl_outline hP fun _ h => h.1) fun control => ?_
  have hC : Stable cfg s pid (fun st => (Holds s st row ∧ OnBehalf sub st) ∧
      st.db.control? row.commandId = control) := fun a b ha hb h hrel =>
    ⟨hP a b ha hb h.1 hrel, (hrel.controls row h.1.1).trans h.2⟩
  refine .seq (decide_outline sub hC (fun _ h => h.1.1) (fun _ h => h.2) hr) fun r => ?_
  obtain ⟨port, result⟩ := r
  refine .seq (.commit (fun _ => result.commandId = row.commandId) (.const _)
    fun st db hi h hdb => ?_) fun refused => ?_
  · obtain ⟨⟨⟨hh, hsub⟩, hcontrol⟩, hj⟩ := h
    exact ⟨.processed hj hsub hdb, hj.lifecycle.commandId⟩
  · split
    · exact .ret fun st _ h => h rfl
    · exact .raise

end

/-- `find`, when there is nothing to keep. -/
theorem Triple.found (sel : Selector) :
    Triple cfg s pid (Program.find sel) (fun _ => True)
      (fun found st => ∀ row, found = some row → Holds s st row ∧ sel.matches row = true) :=
  (Triple.find (.const True) sel).post fun _ _ _ h => h.2

theorem Persistent.const_true : (contract cfg).Persistent s pid (fun _ => True) :=
  ⟨.const True, fun _ _ _ _ _ => trivial⟩

theorem get_outline (sub : Option Submission) (house id : String) :
    Triple cfg s pid (get sub house id) (OnBehalf sub)
      (fun result _ => result.commandId = id) := by
  refine .seq (.find OnBehalf.stable _) fun found => ?_
  split
  · exact .raise
  · rename_i row
    refine .given (φ := row.commandId = id) (fun st _ h => ?_) fun hid => ?_
    · have := (h.2 row rfl).2
      simp [Selector.matches] at this
      exact this.2
    · rw [← hid]
      exact (process_outline sub (show Job.Routes row .read from trivial)).pre fun st _ h =>
        ⟨(h.2 row rfl).1, h.1⟩

theorem ack_outline (house device : String) (envelope : AckEnvelope) (retained : Bool) :
    Triple cfg s pid (ack house device envelope retained) (fun _ => True) (fun _ _ => True) := by
  refine .seq (.found _) fun found => ?_
  split
  · exact (Triple.rollback Persistent.const_true).pre fun _ _ _ => trivial
  · rename_i row
    refine .given (φ := (Job.ack house device envelope retained).Routes row) (fun st _ h => ?_)
      fun hr => ?_
    · have := (h row rfl).2
      simp only [Selector.matches, Bool.and_eq_true, decide_eq_true_eq] at this
      exact ⟨this.1.1.1, this.1.1.2, this.1.2, this.2⟩
    · refine .seq ((process_outline none hr).pre fun st _ h => ⟨(h row rfl).1, ?_⟩)
        fun _ => .ret fun _ _ _ => trivial
      simp [OnBehalf]

theorem state_outline (house device : String) (envelope : StateEnvelope) (retained : Bool) :
    Triple cfg s pid (state house device envelope retained) (fun _ => True) (fun _ _ => True) := by
  refine .seq (.found _) fun found => ?_
  split
  · exact (Triple.rollback Persistent.const_true).pre fun _ _ _ => trivial
  · rename_i row
    refine .given (φ := (Job.state house device envelope retained).Routes row) (fun st _ h => ?_)
      fun hr => ?_
    · have := (h row rfl).2
      simp only [Selector.matches, Bool.and_eq_true, decide_eq_true_eq] at this
      exact ⟨this.1.1, this.1.2, this.2⟩
    · refine .seq ((process_outline none hr).pre fun st _ h => ⟨(h row rfl).1, ?_⟩)
        fun _ => .ret fun _ _ _ => trivial
      simp [OnBehalf]

/-! ### `submit` -/

/-- Noting that something is about to happen. -/
theorem Triple.note (R : Shared → Prop) {e : Event} (hR : Stable cfg s pid R)
    (h : ∀ st p, Inv st → P st → st.At pid p → Said s st [e] ∧
      R ((st.remember pid p p).note [e])) :
    Triple cfg s pid (Program.note e) P (fun _ st => R st) := by
  intro st inp port st' hi hp hh
  obtain ⟨proc, hproc, hst⟩ := Option.map_eq_some_iff.mp hh
  obtain ⟨rfl, rfl⟩ := Prod.mk.inj hst
  have hat : st.At pid ⟨inp.sources, proc⟩ := hproc
  obtain ⟨hs, hr⟩ := h st _ hi hp hat
  exact ⟨.ticked hat (.refl _) hs, R, hR, hr, fun _ _ h => h⟩

/-- The reply to a submission that has a row. -/
theorem reply_outline (sub : Submission) (id : String) :
    Triple cfg s pid (Program.note (.reply sub id)) (Submitted sub id) (fun _ _ => True) := by
  refine .note _ (.const True) fun st p _ hs _ => ⟨?_, trivial⟩
  obtain ⟨r, hr, rfl, hag⟩ := hs
  exact .reply hr hag

theorem settle_outline (sub : Submission) (id : String) (published : Bool) :
    Triple cfg s pid (settle sub id published) (Submitted sub id) (fun _ _ => True) := by
  refine .seq (.find Submitted.stable _) fun found => ?_
  split
  · exact .raise
  · rename_i row
    have hfirst : Triple cfg s pid (process (.settle published) (some sub) row)
        (fun st => Submitted sub id st ∧
          ∀ r, some row = some r → Holds s st r ∧ (Selector.byId id).matches r = true)
        (fun _ st => Submitted sub id st) :=
      ((Triple.frame Submitted.persistent (process_outline (some sub)
        (show Job.Routes row (.settle published) from trivial))).pre
        fun st _ h => ⟨⟨(h.2 row rfl).1, .of_submitted h.1⟩, h.1⟩).post fun _ _ _ h => h.2
    refine .seq hfirst fun _ => ?_
    have hsecond : Triple cfg s pid (get (some sub) sub.house id) (Submitted sub id)
        (fun row st => row.commandId = id ∧ Submitted sub id st) :=
      (Triple.frame Submitted.persistent (get_outline (some sub) sub.house id)).pre
        fun st _ h => ⟨.of_submitted h, h⟩
    refine .seq hsecond fun row => ?_
    exact .given (fun _ _ h => h.1) fun hid => (reply_outline sub row.commandId).pre
      fun st _ h => hid ▸ h.2

/-- A submission that session `s` has committed and not sent yet. -/
structure Unsent (s : Nat) (sub : Submission) (row : DeviceCommand) (st : Shared) : Prop where
  created : .created s sub row ∈ st.log
  unsent : ∀ k, ∀ e ∈ st.log, e.sending ≠ some (k, row.commandId)

theorem Unsent.stable {sub : Submission} {row : DeviceCommand} :
    Stable cfg s pid (Unsent s sub row) :=
  fun _ _ _ _ h hr => ⟨hr.log h.created, fun k => hr.sends k sub row h.created (h.unsent k)⟩

theorem dispatch_outline (sub : Submission) {id correlation : String} (now : Instant)
    (hid : id ≠ "" ∧ correlation ≠ "") :
    Triple cfg s pid (dispatch cfg sub (newRow sub id correlation now))
      (Unsent s sub (newRow sub id correlation now)) (fun _ _ => True) := by
  have hnote : Triple cfg s pid (Program.note (.sendCall sub id))
      (Unsent s sub (newRow sub id correlation now))
      (fun _ st => RowFrame s (some id) (frameOf sub (newRow sub id correlation now)) st ∧
        Submitted sub id st) := by
    refine .note _ (RowFrame.stable.and Submitted.stable) fun st p hi hu _ =>
      ⟨.sendCall hu.created (hu.unsent .call), ?_⟩
    obtain ⟨r, hr, hf⟩ := hi.created s sub _ hu.created
    have hrid : r.commandId = id := congrArg (·.1) hf
    refine ⟨fun id' hid' => ?_, r, hr, hrid, ?_⟩
    · obtain rfl := Option.some.inj hid'
      refine ⟨hid.1, hid.2, ⟨sub, _, List.mem_append_left _ hu.created, rfl,
        List.mem_append_right _ (List.mem_singleton.mpr rfl)⟩, fun e he => ?_, r, hr, hrid, ?_⟩
      · rcases List.mem_append.mp he with he | he
        · exact hu.unsent .frame e he
        · rw [List.mem_singleton.mp he]; simp [Event.sending]
      · exact SetFrame.Carries.of_fixed (r := newRow sub id correlation now) rfl hf
    · exact Submission.Agrees.of_fixed (r := newRow sub id correlation now) ⟨rfl, rfl, rfl⟩ hf
  refine .seq hnote fun _ => ?_
  refine .seq (Contract.Outline.attempt (Contract.Outline.frame Submitted.persistent
    (sendCommand_outline (some id) _))) fun outcome => ?_
  exact (settle_outline sub id outcome.isOk).pre fun _ _ h => h.2

/-- The previous attempt that a new submission found expired, not committed yet. -/
def Freed (s pid : Nat) (sub : Submission) (freed : Option Processed) (st : Shared) : Prop :=
  ∀ e, freed = some e → Judged s pid st e ∧ e.job = .read ∧ e.result.status.pending = false ∧
    e.submission = some sub

theorem Freed.stable {sub : Submission} {freed : Option Processed} :
    Stable cfg s pid (Freed s pid sub freed) :=
  fun _ _ _ _ h hr e he => ⟨hr.judged (h e he).1, (h e he).2⟩

/-- Nothing was sent for a row that is not in the ledger. -/
theorem Inv.unsent {a : Shared} (hi : Inv a) {row : DeviceCommand} (h : Fresh a row)
    (k : Sending) : ∀ e ∈ a.log, e.sending ≠ some (k, row.commandId) := by
  intro e he hs
  obtain ⟨s', sub, row', hc, hid⟩ := hi.sent e he k row.commandId hs
  obtain ⟨r, hr, hf⟩ := hi.created s' sub row' hc
  exact h r hr ((congrArg (·.1) hf).trans hid)

theorem create_outline (sub : Submission) (freed : Option Processed) :
    Triple cfg s pid (create cfg s sub freed) (Freed s pid sub freed) (fun _ _ => True) := by
  refine .seq (.compute_ Freed.stable fun p => .refl p) fun r => ?_
  obtain ⟨port, connected⟩ := r
  dsimp only
  split
  · exact .raise
  refine .seq (authorizeCommand_outline Freed.stable sub.house sub.device) fun r => ?_
  refine .seq ((Triple.compute_ Freed.stable CommandService.now_moves).pre fun _ _ h => h.1)
    fun r => ?_
  obtain ⟨port, now⟩ := r
  refine .seq (.uuid Freed.stable) fun id => ?_
  refine .seq (.uuid (Freed.stable.and (.const _))) fun correlation => ?_
  refine .given (fun _ _ h => And.intro h.1.2 h.2) fun hid => ?_
  refine .seq (.commit (Unsent s sub (newRow sub id correlation now)) Unsent.stable
    fun st db hi h hdb => ⟨.created hid h.1.1 hdb, ?_, ?_⟩) fun refused => ?_
  · exact List.mem_append_right _ (List.mem_append_right _ (List.mem_singleton.mpr rfl))
  · intro k e hm
    have hfresh := Ledger.insert_fresh hdb rfl
    rcases List.mem_append.mp hm with hm | hm
    · exact hi.unsent hfresh k e hm
    · have : e.sending = none := by
        cases freed with
        | none => simp at hm; rw [hm]; rfl
        | some p => simp at hm; rcases hm with rfl | rfl <;> rfl
      rw [this]; simp
  · split
    · exact .raise
    · exact (dispatch_outline sub now hid).pre fun _ _ h => h rfl

theorem submitFree_outline (sub : Submission) (device : Device) (freed : Option Processed) :
    Triple cfg s pid (submitFree cfg s sub device freed) (Freed s pid sub freed)
      (fun _ _ => True) := by
  unfold submitFree
  split
  · exact .raise
  · exact create_outline sub freed

theorem Freed.none {sub : Submission} {st : Shared} : Freed s pid sub none st :=
  fun _ h => by cases h

theorem submitNew_outline (sub : Submission) (device : Device) :
    Triple cfg s pid (submitNew cfg s sub device) (fun _ => True) (fun _ _ => True) := by
  refine .check (.const True) fun r _ => ?_
  split
  · exact .raise
  refine .seq .lift fun _ => ?_
  refine .seq ((Triple.found _).pre fun _ _ _ => trivial) fun found => ?_
  split
  · exact (submitFree_outline sub device none).pre fun _ _ _ => .none
  · rename_i row
    have hP : Stable cfg s pid (fun st => Holds s st row) := Holds.stable
    refine .seq ((getControl_outline hP fun _ h => h).pre fun st _ h => (h row rfl).1)
      fun control => ?_
    refine .seq (decide_outline (some sub) Holds.control_stable (fun _ h => h.1) (fun _ h => h.2)
      (show Job.Routes row .read from trivial)) fun r => ?_
    obtain ⟨port, result⟩ := r
    dsimp only
    split
    · exact .raise
    · rename_i hterm
      have hJ : Stable cfg s pid (fun st => Judged s pid st
          { job := .read, row, control, port, result, submission := some sub }) := judged_stable
      refine .seq ((Triple.flush hJ _).pre fun _ _ h => h.2) fun accepted => ?_
      split
      · exact .raise
      · refine (submitFree_outline sub device _).pre fun st _ h e he => ?_
        obtain rfl := Option.some.inj he
        exact ⟨h, rfl, by simpa using hterm, rfl⟩

theorem submitReplay_outline (sub : Submission) (previous : DeviceCommand) :
    Triple cfg s pid (submitReplay sub previous)
      (fun st => Holds s st previous ∧ previous.key = sub.key) (fun _ _ => True) := by
  unfold submitReplay
  split
  · exact .raise
  · rename_i hsame
    rw [not_or, not_not, not_not] at hsame
    have hF : (contract cfg).Persistent s pid (Submitted sub previous.commandId) :=
      Submitted.persistent
    refine .seq ((Triple.frame hF (process_outline (some sub)
      (show Job.Routes previous .read from trivial))).pre fun st hi h => ?_) fun row => ?_
    · have hs : Submitted sub previous.commandId st :=
        ⟨previous, h.1.mem hi.valid, rfl, h.2, hsame.1, hsame.2⟩
      exact ⟨⟨h.1, .of_submitted hs⟩, hs⟩
    · exact .given (fun _ _ h => h.1) fun hid => (reply_outline sub row.commandId).pre
        fun st _ h => hid ▸ h.2

theorem submitKeyed_outline (sub : Submission) (device : Device) :
    Triple cfg s pid (submitKeyed cfg s sub device) (fun _ => True) (fun _ _ => True) := by
  refine .seq (.found _) fun found => ?_
  split
  · rename_i previous
    refine (submitReplay_outline sub previous).pre fun st _ h => ⟨(h previous rfl).1, ?_⟩
    have := (h previous rfl).2
    simp only [Selector.matches, Bool.and_eq_true, decide_eq_true_eq] at this
    simp [DeviceCommand.key, Submission.key, this.1.1, this.1.2, this.2]
  · exact (submitNew_outline sub device).pre fun _ _ _ => trivial

theorem submit_outline (house device user key : String) (on : Bool) :
    Triple cfg s pid (submit cfg s house device user key on) (fun _ => True)
      (fun _ _ => True) := by
  have hT : Stable cfg s pid (fun _ => True) := .const True
  refine .check hT fun _ _ => ?_
  refine .seq (.registry hT fun _ => Or.inl rfl) fun r => ?_
  split
  · exact .raise
  refine .seq ((Triple.registry hT fun _ => Or.inl rfl).pre fun _ _ _ => trivial) fun r => ?_
  refine .seq .lift fun actual => ?_
  split
  · exact .raise
  exact (submitKeyed_outline _ _).pre fun _ _ _ => trivial

/-! ### `update_state` -/

theorem updateState_outline (device : String) (patch : List (String × Json))
    (correlationId : String) :
    Triple cfg s pid (updateState cfg device patch correlationId) (fun _ => True)
      (fun _ _ => True) := by
  have hT : Stable cfg s pid (fun _ => True) := .const True
  refine .check hT fun _ _ => .check hT fun _ _ => .check hT fun _ entity => ?_
  refine .seq .lift fun _ => ?_
  refine .seq ((Triple.compute_ hT CommandService.now_moves).pre fun _ _ _ => trivial)
    fun r => ?_
  obtain ⟨port, timestamp⟩ := r
  refine .check hT fun _ house => ?_
  split
  · exact .raise
  · refine .seq ((sendCommand_outline none _).pre fun _ _ _ id h => by cases h) fun _ => ?_
    exact .ret fun _ _ _ => trivial

end KzHome

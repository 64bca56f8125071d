import KzHome.Preservation

/-!
# KzHome.Rules

Proof rules for the operations of Core, against its contract.

`Triple m P Q`: from states with `P`, every operation of `m` is one of the effects
in `Does`, and if `m` returns `a`, then `Q a` holds. Assertions that a session may
rely on are `Stable`; operations that take locks, read, or only change memory keep
them (`Relies.quiet`), so the rules below carry one stable `P` through and add what
the operation has learned.
-/

namespace KzHome

open Session

section

variable (cfg : Config) (s pid : Nat)

/-- `m` keeps to the contract from `P` on, and `Q` holds of what it returns. -/
abbrev Triple {α : Type} (m : Program α) (P : Shared → Prop) (Q : α → Shared → Prop) : Prop :=
  (contract cfg).Outline core s pid m P (Contract.returns Q)

/-- The assertion survives the other sessions. -/
abbrev Stable (P : Shared → Prop) : Prop := (contract cfg).Stable s pid P

end

variable {cfg : Config} {s pid : Nat} {a b : Shared} {α β : Type}

@[simp] theorem Shared.note_nil (st : Shared) : st.note [] = st := by
  simp [Shared.note]

/-! ### Own operations -/

/-- An operation that leaves the ledger and the session's locks alone, and notes
nothing that its session waits for, does not disturb its own session either. -/
theorem Relies.quiet (hdb : b.db = a.db) (hlocks : ∀ k, a.locks k = some s → b.locks k = some s)
    {es : List Event} (hlog : b.log = a.log ++ es)
    (hquiet : ∀ e ∈ es, e.Quiet) (hread : a.readings <+: b.readings)
    (hproc : ∀ proc, a.procs pid = some proc →
      ∃ proc', b.procs pid = some proc' ∧ proc.Later proc') : Relies s pid a b := by
  refine ⟨hlocks, fun row hh => by rw [hdb]; exact hh.row, fun row _ => by rw [hdb],
    fun r hr => ⟨r, by rw [hdb]; exact hr, rfl⟩, ?_, fun k sub row _ hs e hm => ?_,
    fun id hn e hm => ?_, hread, hproc⟩
  · rw [hlog]; exact List.subset_append_left _ _
  · rw [hlog, List.mem_append] at hm
    rcases hm with hm | hm
    · exact hs e hm
    · rw [(hquiet e hm).1]; simp
  · rw [hlog, List.mem_append] at hm
    rcases hm with hm | hm
    · exact hn e hm
    · rw [(hquiet e hm).2]; simp

theorem Relies.locked (ks : List Lock) {es : List Event}
    (hquiet : ∀ e ∈ es, e.Quiet) :
    Relies s pid a (Shared.note { a with locks := RowLocks.take a.locks s ks } es) :=
  .quiet rfl (fun _ hk => RowLocks.take_self hk) rfl hquiet (List.prefix_refl _)
    fun proc hp => ⟨proc, hp, .refl _⟩

theorem Relies.took (ks : List Lock) :
    Relies s pid a { a with locks := RowLocks.take a.locks s ks } :=
  .quiet rfl (fun _ hk => RowLocks.take_self hk) (List.append_nil _).symm (by simp)
    (List.prefix_refl _) fun proc hp => ⟨proc, hp, .refl _⟩

theorem Relies.noted {es : List Event} (hquiet : ∀ e ∈ es, e.Quiet) :
    Relies s pid a (a.note es) :=
  .quiet rfl (fun _ hk => hk) rfl hquiet (List.prefix_refl _) fun proc hp => ⟨proc, hp, .refl _⟩

theorem Relies.remembered {p p' : Port} {es : List Event} (hp : a.At pid p)
    (hl : p.proc.Later p'.proc) (hquiet : ∀ e ∈ es, e.Quiet) :
    Relies s pid a ((a.remember pid p p').note es) := by
  refine .quiet rfl (fun _ hk => hk) rfl hquiet (List.prefix_append _ _) fun proc hq => ?_
  have hq' : some p.proc = some proc := hp.symm.trans hq
  obtain rfl := Option.some.inj hq'
  exact ⟨p'.proc, by simp [Shared.note, Shared.remember], hl⟩

theorem Relies.remembered_quiet {p p' : Port} (hp : a.At pid p)
    (hl : p.proc.Later p'.proc) : Relies s pid a (a.remember pid p p') := by
  have h : Relies s pid a ((a.remember pid p p').note []) := .remembered hp hl (by simp)
  rwa [Shared.note_nil] at h

/-! ### Stable assertions -/

section

variable {row : DeviceCommand} {e : Event}

theorem Holds.stable : Stable cfg s pid (fun st => Holds s st row) :=
  fun _ _ _ _ h hr => ⟨hr.locks _ h.locked, hr.rows row h⟩

/-- A control record read under the lock of its row. -/
theorem Holds.control_stable {c : Option ControlCommand} :
    Stable cfg s pid (fun st => Holds s st row ∧ st.db.control? row.commandId = c) :=
  fun _ _ _ _ h hr => ⟨⟨hr.locks _ h.1.locked, hr.rows row h.1⟩, (hr.controls row h.1).trans h.2⟩

theorem Relies.alive {proc : Proc} (hr : Relies s pid a b) (h : Alive pid a proc) :
    Alive pid b proc := by
  obtain ⟨now, hp, hl⟩ := h
  obtain ⟨now', hp', hl'⟩ := hr.proc now hp
  exact ⟨now', hp', hl.trans hl'⟩

theorem Relies.gateOpen {house device : String} (hr : Relies s pid a b)
    (h : GateOpen pid a house device) : GateOpen pid b house device := by
  obtain ⟨proc, r, ha, hg⟩ := h
  exact ⟨proc, r, hr.alive ha, hg⟩

theorem Relies.holds (hr : Relies s pid a b) (h : Holds s a row) : Holds s b row :=
  ⟨hr.locks _ h.locked, hr.rows row h⟩

theorem GateOpen.stable {house device : String} :
    Stable cfg s pid (fun st => GateOpen pid st house device) :=
  fun _ _ _ _ h hr => hr.gateOpen h

theorem Alive.stable {proc : Proc} : Stable cfg s pid (fun st => Alive pid st proc) :=
  fun _ _ _ _ h hr => hr.alive h

theorem logged_stable : Stable cfg s pid (fun st => e ∈ st.log) :=
  fun _ _ _ _ h hr => hr.log h

theorem reading_stable {t : Instant} : Stable cfg s pid (fun st => t ∈ st.readings) :=
  fun _ _ _ _ h hr => hr.readings.subset h

/-- There is a row of the submission with this command id. -/
def Submitted (sub : Submission) (id : String) (st : Shared) : Prop :=
  ∃ r ∈ st.db.commands, r.commandId = id ∧ sub.Agrees r

theorem Submission.Agrees.of_fixed {sub : Submission} {r r' : DeviceCommand} (h : sub.Agrees r)
    (hf : r'.fixedColumns = r.fixedColumns) : sub.Agrees r' := by
  simp only [DeviceCommand.fixedColumns, Prod.mk.injEq] at hf
  obtain ⟨-, -, hh, hd, hu, hk, ho, -, -⟩ := hf
  refine ⟨?_, hd.trans h.2.1, ho.trans h.2.2⟩
  rw [← h.1]
  simp [DeviceCommand.key, hh, hu, hk]

theorem Submitted.stable {sub : Submission} {id : String} :
    Stable cfg s pid (Submitted sub id) := by
  rintro _ _ _ _ ⟨r, hr, hid, hag⟩ hrel
  obtain ⟨r', hr', hf⟩ := hrel.fixed r hr
  exact ⟨r', hr', (congrArg (·.1) hf).trans hid, hag.of_fixed hf⟩

theorem Submitted.persistent {sub : Submission} {id : String} :
    (contract cfg).Persistent s pid (Submitted sub id) := by
  refine ⟨Submitted.stable, ?_⟩
  rintro a b hi ⟨r, hr, hid, hag⟩ hd
  obtain ⟨r', hr', hid', hl⟩ := (Does.frame hi hd).lifecycle hi.valid hr
  exact ⟨r', hr', hid'.trans hid, hag.of_fixed hl.fixed⟩

theorem gateOpen_persistent {house device : String} :
    (contract cfg).Persistent s pid (fun st => GateOpen pid st house device) := by
  refine ⟨GateOpen.stable, ?_⟩
  rintro a b hi ⟨proc, r, ⟨now, hp, hl⟩, hg⟩ hd
  obtain ⟨now', hp', hl'⟩ := (Does.frame hi hd).proc_forth hp
  exact ⟨proc, r, ⟨now', hp', hl.trans hl'⟩, hg⟩

theorem Relies.judged {j : Processed} (hr : Relies s pid a b) (h : Judged s pid a j) :
    Judged s pid b j := by
  obtain ⟨port', hd, ha, before, hpre, ht⟩ := h.decided
  exact ⟨hr.holds h.holds, (hr.controls _ h.holds).trans h.control, h.routes,
    ⟨port', hd, hr.alive ha, before, hpre.trans hr.readings, ht⟩, h.reached⟩

theorem judged_stable {j : Processed} : Stable cfg s pid (fun st => Judged s pid st j) :=
  fun _ _ _ _ h hr => hr.judged h

theorem granting_stable {house device : String} {request : PermitRequest}
    {record : ControlCommand} {window : Window} :
    Stable cfg s pid (fun st => Granting cfg s pid st house device request row record window) := by
  rintro a b - - h hr
  obtain ⟨proc, ha, he⟩ := h.epoch
  obtain ⟨row₀, record₀, hl, hid⟩ := h.prepared
  exact ⟨hr.holds h.holds, (hr.controls row h.holds).trans h.control, h.command, h.inHouse,
    h.ofDevice, ⟨proc, hr.alive ha, he⟩, h.intent, h.pending, h.staged, h.identity,
    ⟨row₀, record₀, hr.log hl, hid⟩, hr.gateOpen h.gate⟩

theorem freshGrant_stable {g : ControlAuthority.Grant} :
    Stable cfg s pid (fun st => FreshGrant cfg pid st g) := by
  rintro a b - - h hr
  obtain ⟨proc, anchor, ha, hrest⟩ := h.sampled
  exact ⟨h.unbound, h.early, h.positive, h.remaining, h.binding,
    ⟨proc, anchor, hr.alive ha, hrest⟩⟩

end

/-! ### Rules -/

variable {P : Shared → Prop}

theorem Triple.seq {m : Program α} {f : α → Program β} {R : α → Shared → Prop}
    {Q : β → Shared → Prop} (hm : Triple cfg s pid m P R)
    (hf : ∀ x, Triple cfg s pid (f x) (R x) Q) : Triple cfg s pid (m >>= f) P Q :=
  Contract.Outline.seq hm hf

theorem Triple.pre {m : Program α} {P' : Shared → Prop} {Q : α → Shared → Prop}
    (h : Triple cfg s pid m P Q) (hP : ∀ st, Inv st → P' st → P st) : Triple cfg s pid m P' Q :=
  Contract.Outline.pre h hP

theorem Triple.post {m : Program α} {Q Q' : α → Shared → Prop}
    (h : Triple cfg s pid m P Q) (hQ : ∀ x st, Inv st → Q x st → Q' x st) :
    Triple cfg s pid m P Q' :=
  Contract.Outline.post h fun r st hi hr => by
    cases r with
    | ok x => exact hQ x st hi hr
    | error e => trivial

theorem Triple.ret {x : α} {Q : α → Shared → Prop} (h : ∀ st, Inv st → P st → Q x st) :
    Triple cfg s pid (Prog.ret x : Program α) P Q := h

theorem Triple.raise {e : Error} {Q : α → Shared → Prop} :
    Triple cfg s pid (Prog.raise e : Program α) P Q := fun _ _ _ => trivial

theorem Triple.lift {r : Except Error α} :
    Triple cfg s pid (Prog.lift r) P (fun x st => P st ∧ r = .ok x) := by
  cases r with
  | ok x => exact fun st _ hP => ⟨hP, rfl⟩
  | error e => exact .raise

/-- What the precondition says regardless of the state. -/
theorem Triple.given {φ : Prop} {m : Program α} {Q : α → Shared → Prop}
    (hφ : ∀ st, Inv st → P st → φ) (h : φ → Triple cfg s pid m P Q) : Triple cfg s pid m P Q := by
  by_cases hx : φ
  · exact h hx
  · cases m with
    | ret x => exact fun st hi hp => absurd (hφ st hi hp) hx
    | raise e => exact fun st hi hp => absurd (hφ st hi hp) hx
    | call op k => exact fun st _ _ _ hi hp => absurd (hφ st hi hp) hx

/-- One operation, and what is known after it. -/
theorem Triple.op {op : Op} {R : op.Ans → Shared → Prop} (hR : ∀ x, Stable cfg s pid (R x))
    (h : ∀ st inp x st', Inv st → P st → st.handle s pid inp op = some (x, st') →
      Does cfg s pid st st' ∧ R x st') :
    Triple cfg s pid (Program.ask op) P R :=
  Contract.Outline.ask hR h fun _ _ _ hx => hx

/-- A statement on the other tables. -/
theorem Triple.registry (hP : Stable cfg s pid P) {locks : Registry → List Lock}
    {note : Registry → List Event} (hn : ∀ r, note r = [] ∨ note r = [.guarded r]) :
    Triple cfg s pid (Program.registry locks note) P
      (fun r st => P st ∧ ∀ e ∈ note r, e ∈ st.log) := by
  refine Triple.op (fun r => hP.and ?_) fun st inp r st' hi hp hh => ?_
  · exact fun _ _ _ _ h hr e he => hr.log (h e he)
  · obtain ⟨u, hlock, hu⟩ := Option.map_eq_some_iff.mp hh
    obtain ⟨rfl, rfl⟩ := Prod.mk.inj hu
    unfold Shared.lock at hlock
    split at hlock
    · rename_i hav
      obtain rfl := Option.some.inj hlock
      have hquiet : ∀ e ∈ note st.registry, e.Quiet := by
        rcases hn st.registry with h | h <;> rw [h] <;>
          simp [Event.Quiet, Event.sending, Event.grants]
      have hrel : Relies s pid st _ := .locked (locks st.registry) hquiet
      have hd : Does cfg s pid st (Shared.note
          { st with locks := RowLocks.take st.locks s (locks st.registry) } (note st.registry)) := by
        rcases hn st.registry with h | h <;> rw [h]
        · rw [Shared.note_nil]; exact .locked hav
        · exact .guarded hav
      refine ⟨hd, hP _ _ hi (hd.inv hi) hp hrel, fun e he => ?_⟩
      exact List.mem_append_right _ he
    · cases hlock

/-- A statement on the ledger without locks. -/
theorem Triple.query (R : Ledger → Shared → Prop) (hP : Stable cfg s pid P)
    (hR : ∀ db, Stable cfg s pid (R db)) (h : ∀ st, Inv st → P st → R st.db st) :
    Triple cfg s pid (Program.query fun _ => []) P (fun db st => P st ∧ R db st) := by
  refine Triple.op (fun db => hP.and (hR db)) fun st inp db st' hi hp hh => ?_
  obtain ⟨rfl, rfl⟩ := Prod.mk.inj (Option.some.inj hh)
  rw [Shared.note_nil]
  exact ⟨.nothing, hp, h _ hi hp⟩

/-- `SELECT … FOR UPDATE`: the row that was found is held from now on. -/
theorem Triple.find (hP : Stable cfg s pid P) (sel : Selector) :
    Triple cfg s pid (Program.find sel) P
      (fun found st => P st ∧ ∀ row, found = some row → Holds s st row ∧ sel.matches row = true) := by
  refine Triple.op (fun found => hP.and fun _ _ _ _ h hr row hf =>
    ⟨hr.holds (h row hf).1, (h row hf).2⟩) fun st inp found st' hi hp hh => ?_
  unfold Shared.handle at hh
  dsimp only at hh
  cases hf : st.db.commands.find? sel.matches with
  | none =>
      rw [hf] at hh
      obtain ⟨rfl, rfl⟩ := Prod.mk.inj (Option.some.inj hh)
      exact ⟨.nothing, hp, fun _ h => by cases h⟩
  | some row =>
      rw [hf] at hh
      obtain ⟨u, hlock, hu⟩ := Option.map_eq_some_iff.mp hh
      obtain ⟨rfl, rfl⟩ := Prod.mk.inj hu
      unfold Shared.lock at hlock
      split at hlock
      · rename_i hav
        obtain rfl := Option.some.inj hlock
        have hd : Does cfg s pid st _ := .locked hav
        refine ⟨hd, hP _ _ hi (hd.inv hi) hp (.took _), fun row' hr => ?_⟩
        obtain rfl := Option.some.inj hr
        refine ⟨⟨RowLocks.take_of_mem (List.mem_singleton.mpr rfl), ?_⟩, List.find?_some hf⟩
        exact (Ledger.command?_eq_some hi.valid).mpr ⟨List.mem_of_find?_eq_some hf, rfl⟩
      · cases hlock

/-- The control record, locked. -/
theorem Triple.lockControl (R : Option ControlCommand → Shared → Prop)
    (hP : Stable cfg s pid P) {id : String} (hR : ∀ c, Stable cfg s pid (R c))
    (h : ∀ st, Inv st → P st → R (st.db.control? id) st) :
    Triple cfg s pid (Program.lockControl id) P (fun c st => P st ∧ R c st) := by
  refine Triple.op (fun c => hP.and (hR c)) fun st inp c st' hi hp hh => ?_
  have hr := h st hi hp
  unfold Shared.handle at hh
  dsimp only at hh
  cases hc : st.db.control? id with
  | none =>
      rw [hc] at hh hr
      obtain ⟨rfl, rfl⟩ := Prod.mk.inj (Option.some.inj hh)
      exact ⟨.nothing, hp, hr⟩
  | some record =>
      rw [hc] at hh hr
      obtain ⟨u, hlock, hu⟩ := Option.map_eq_some_iff.mp hh
      obtain ⟨rfl, rfl⟩ := Prod.mk.inj hu
      unfold Shared.lock at hlock
      split at hlock
      · rename_i hav
        obtain rfl := Option.some.inj hlock
        have hd : Does cfg s pid st _ := .locked hav
        exact ⟨hd, hP _ _ hi (hd.inv hi) hp (.took _), hR _ _ _ hi (hd.inv hi) hr (.took _)⟩
      · cases hlock

/-- Code of the process: `herr` and `hok` are what it does to the memory when it
raises and when it returns, and `R` what is known once it has returned. -/
theorem Triple.run (R : Port → α → Shared → Prop) {c : Call Port Error α}
    {note : Port → α → List Event} (hR : ∀ p x, Stable cfg s pid (R p x))
    (herr : ∀ st p e p', Inv st → P st → st.At pid p → c.run p = (.error e, p') →
      Does cfg s pid st (st.remember pid p p'))
    (hok : ∀ st p x p', Inv st → P st → st.At pid p → c.run p = (.ok x, p') →
      Does cfg s pid st ((st.remember pid p p').note (note p x)) ∧
        R p x ((st.remember pid p p').note (note p x))) :
    Triple cfg s pid (Program.computeNote c note) P (fun r st => R r.1 r.2 st) := by
  intro st inp port st' hi hp hh
  obtain ⟨proc, hproc, hst⟩ := Option.map_eq_some_iff.mp hh
  obtain ⟨rfl, rfl⟩ := Prod.mk.inj hst
  have hat : st.At pid ⟨inp.sources, proc⟩ := hproc
  rcases hrun : c.run ⟨inp.sources, proc⟩ with ⟨r, p'⟩
  cases r with
  | error e =>
      simp only [Program.noteOk, hrun, Shared.note_nil]
      refine ⟨herr st _ e p' hi hp hat hrun, fun _ => True, .const True, trivial, ?_⟩
      simp only [Prog.bind, hrun]
      exact Triple.raise
  | ok x =>
      obtain ⟨hd, hr⟩ := hok st _ x p' hi hp hat hrun
      simp only [Program.noteOk, hrun]
      refine ⟨hd, _, hR _ x, hr, ?_⟩
      simp only [Prog.bind, hrun]
      exact fun _ _ h => h

/-- Code of the process that notes nothing its session waits for. -/
theorem Triple.computeNote (R : Port → α → Shared → Prop) (hP : Stable cfg s pid P)
    {c : Call Port Error α} {note : Port → α → List Event}
    (hR : ∀ p x, Stable cfg s pid (R p x)) (hl : Call.Moves (fun p p' => p.proc.Later p'.proc) c)
    (hquiet : ∀ p x, ∀ e ∈ note p x, e.Quiet)
    (herr : ∀ st p e p', Inv st → P st → st.At pid p → c.run p = (.error e, p') →
      Does cfg s pid st (st.remember pid p p'))
    (hok : ∀ st p x p', Inv st → P st → st.At pid p → c.run p = (.ok x, p') →
      Does cfg s pid st ((st.remember pid p p').note (note p x)) ∧
        R p x ((st.remember pid p p').note (note p x))) :
    Triple cfg s pid (Program.computeNote c note) P (fun r st => P st ∧ R r.1 r.2 st) := by
  refine .run (fun p x st => P st ∧ R p x st) (fun p x => hP.and (hR p x)) herr
    fun st p x p' hi hp hat hrun => ?_
  obtain ⟨hd, hr⟩ := hok st p x p' hi hp hat hrun
  exact ⟨hd, hP _ _ hi (hd.inv hi) hp (.remembered hat (hl.of_run hrun) (hquiet p x)), hr⟩

/-- Code that only reads clocks. -/
theorem Triple.compute (R : Port → α → Shared → Prop) (hP : Stable cfg s pid P)
    {c : Call Port Error α} (hc : Call.Moves Port.Ticks c)
    (hR : ∀ p x, Stable cfg s pid (R p x))
    (h : ∀ st p x p', Inv st → P st → st.At pid p → p.Ticks p' → c.run p = (.ok x, p') →
      R p x (st.remember pid p p')) :
    Triple cfg s pid (Program.compute c) P (fun r st => P st ∧ R r.1 r.2 st) := by
  have hticked : ∀ {st : Shared} {p p' : Port}, st.At pid p → p.Ticks p' →
      Does cfg s pid st (st.remember pid p p') := by
    intro st p p' hat ht
    have hd : Does cfg s pid st ((st.remember pid p p').note []) := .ticked hat ht .nothing
    rwa [Shared.note_nil] at hd
  refine Triple.computeNote R hP hR (fun p => (hc p).later) (fun _ _ => by simp)
    (fun st p e p' _ _ hat hrun => hticked hat (hc.of_run hrun)) fun st p x p' hi hp hat hrun => ?_
  rw [Shared.note_nil]
  exact ⟨hticked hat (hc.of_run hrun), h st p x p' hi hp hat (hc.of_run hrun) hrun⟩

/-- Code whose result is not used. -/
theorem Triple.compute_ (hP : Stable cfg s pid P) {c : Call Port Error α}
    (hc : Call.Moves Port.Ticks c) :
    Triple cfg s pid (Program.compute c) P (fun _ st => P st) :=
  (Triple.compute (fun _ _ _ => True) hP hc (fun _ _ => .const _)
    fun _ _ _ _ _ _ _ _ _ => trivial).post fun _ _ _ h => h.1

theorem Triple.flush (hP : Stable cfg s pid P) (w : Ledger.Write) :
    Triple cfg s pid (Program.flush w) P (fun _ st => P st) := by
  refine Triple.op (fun _ => hP) fun st inp x st' hi hp hh => ?_
  obtain ⟨rfl, rfl⟩ := Prod.mk.inj (Option.some.inj hh)
  exact ⟨.nothing, hp⟩

theorem Triple.uuid (hP : Stable cfg s pid P) :
    Triple cfg s pid Program.uuid P (fun id st => P st ∧ id ≠ "") := by
  refine Triple.op (fun _ => hP.and (.const _)) fun st inp x st' hi hp hh => ?_
  unfold Shared.handle at hh
  dsimp only at hh
  split at hh
  · rename_i hlen
    obtain ⟨rfl, rfl⟩ := Prod.mk.inj (Option.some.inj hh)
    refine ⟨.nothing, hp, ?_⟩
    rintro he
    rw [he] at hlen
    simp at hlen
  · cases hh

/-- The end of a transaction: what does not mention locks stays. -/
theorem Triple.rollback (hP : (contract cfg).Persistent s pid P) :
    Triple cfg s pid Program.rollback P (fun _ st => P st) := by
  refine Triple.op (fun _ => hP.stable) fun st inp x st' hi hp hh => ?_
  obtain ⟨-, rfl⟩ := Prod.mk.inj (Option.some.inj hh)
  exact ⟨.unlocked, hP.own _ _ hi hp .unlocked⟩

/-- A commit: either it went through, with the effect `Does`, or the transaction is
gone. -/
theorem Triple.commit (R : Shared → Prop) {w : Ledger.Write} {note : List Event}
    (hR : Stable cfg s pid R)
    (h : ∀ st db, Inv st → P st → st.db.apply w = some db →
      Does cfg s pid st (st.committed s db note) ∧ R (st.committed s db note)) :
    Triple cfg s pid (Program.commit w note) P (fun refused st => refused = none → R st) := by
  refine Triple.op (fun _ => ?_) fun st inp x st' hi hp hh => ?_
  · exact fun a b ha hb hx hr hn => hR a b ha hb (hx hn) hr
  · unfold Shared.handle at hh
    dsimp only at hh
    cases hdb : st.db.apply w with
    | some db =>
        rw [hdb] at hh
        obtain ⟨rfl, rfl⟩ := Prod.mk.inj (Option.some.inj hh)
        obtain ⟨hd, hr⟩ := h st db hi hp hdb
        exact ⟨hd, fun _ => hr⟩
    | none =>
        rw [hdb] at hh
        obtain ⟨rfl, rfl⟩ := Prod.mk.inj (Option.some.inj hh)
        exact ⟨.unlocked, fun hn => by cases hn⟩

/-- A publication. -/
theorem Triple.publish (hP : Stable cfg s pid P) {e : Event}
    (hquiet : e.Quiet)
    (h : ∀ st, Inv st → P st → Does cfg s pid st (st.note [e])) :
    Triple cfg s pid (Program.publish e) P (fun _ st => P st) := by
  refine Triple.op (fun _ => hP) fun st inp x st' hi hp hh => ?_
  obtain ⟨rfl, rfl⟩ := Prod.mk.inj (Option.some.inj hh)
  have hd := h st hi hp
  refine ⟨hd, hP _ _ hi (hd.inv hi) hp (.noted fun e' hm => ?_)⟩
  rw [List.mem_singleton.mp hm]
  exact hquiet

end KzHome

import KzHome.Steps

/-!
# KzHome.Preservation

The contract holds together: every effect of a session keeps the invariant and
leaves every other session what it relies on, and so do the end of sessions and
everything that happens outside them.
-/

namespace KzHome

variable {cfg : Config} {s t pid q : Nat} {a b : Shared}

/-! ### Control records keep their epoch -/

/-- A commit changes neither whether a committed row is under control nor the epoch
of its record. -/
theorem Commit.control_epoch {w : Ledger.Write} {db : Ledger} (h : Commit s a w db)
    (hv : a.db.Valid) {r : DeviceCommand} (hr : r ∈ a.db.commands) :
    (db.control? r.commandId).map (·.authorityEpoch) =
      (a.db.control? r.commandId).map (·.authorityEpoch) := by
  have hnew : ∀ record, w.control = some record → record.commandId ≠ r.commandId := by
    intro record hc heq
    obtain ⟨⟨row, hi, hid⟩, -⟩ := h.control record hc
    exact Ledger.insert_fresh h.applied hi r hr (heq.symm.trans hid)
  by_cases hb : ∃ b, w.bind = some (r.commandId, b)
  · obtain ⟨b, hb⟩ := hb
    obtain ⟨r₀, hr₀, hid, hnone⟩ := Ledger.bind_of_apply h.applied hb
    rw [(Ledger.control?_eq_some hv).mpr ⟨hr₀, hid⟩, (Ledger.control?_eq_some h.valid).mpr
      ⟨(Ledger.mem_controls_apply h.applied hv).mpr
        (Or.inr (Or.inl ⟨_, b, r₀, hb, hr₀, hid, hnone, rfl⟩)), hid⟩]
    rfl
  · rw [Ledger.control?_apply h.applied hv (fun id b hw heq => hb ⟨b, by rw [← heq]; exact hw⟩) hnew]

/-! ### Processes -/

/-- A process of the new state was there before, with an earlier memory. -/
theorem Frame.proc_back (h : Frame s pid a b) {q : Nat} {proc' : Proc}
    (hq : b.procs q = some proc') : ∃ proc, a.procs q = some proc ∧ proc.Later proc' := by
  rcases h.procs with hsame | ⟨proc, proc'', hp, hl, hupd⟩
  · rw [hsame] at hq
    exact ⟨proc', hq, .refl _⟩
  · rw [hupd] at hq
    by_cases hqp : q = pid
    · subst hqp
      rw [Function.update_self] at hq
      obtain rfl := Option.some.inj hq
      exact ⟨proc, hp, hl⟩
    · rw [Function.update_of_ne hqp] at hq
      exact ⟨proc', hq, .refl _⟩

/-- A living process stays, with a later memory. -/
theorem Frame.proc_forth (h : Frame s pid a b) {q : Nat} {proc : Proc}
    (hq : a.procs q = some proc) : ∃ proc', b.procs q = some proc' ∧ proc.Later proc' := by
  rcases h.procs with hsame | ⟨proc₀, proc', hp, hl, hupd⟩
  · exact ⟨proc, by rw [hsame]; exact hq, .refl _⟩
  · by_cases hqp : q = pid
    · subst hqp
      rw [hp] at hq
      obtain rfl := Option.some.inj hq
      exact ⟨proc', by rw [hupd, Function.update_self], hl⟩
    · exact ⟨proc, by rw [hupd, Function.update_of_ne hqp]; exact hq, .refl _⟩

/-- Popping windows leaves only windows that were there. -/
theorem ControlAuthority.get?_popWindows {x : ControlAuthority} {ids : List String} {id : String}
    {w : Window} (h : (popWindows ids x).windows.get? id = some w) :
    x.windows.get? id = some w := by
  rw [popWindows, Dict.get?_foldl_pop] at h
  split at h
  · cases h
  · exact h

/-- A window after a step was there before or comes from a preparation. -/
theorem Remembers.windows {p p' : Port} (h : Remembers a s pid p p') {id : String} {w : Window}
    (hw : p'.proc.authority.windows.get? id = some w) :
    p.proc.authority.windows.get? id = some w ∨
      ∃ row record, .prepared pid row record w ∈ a.log ∧ row.commandId = id := by
  cases h with
  | ticked h => rw [h.authority_eq] at hw; exact Or.inl hw
  | fenced ids h =>
      obtain ⟨tick, -, -, hp⟩ := h.proc
      rw [hp] at hw
      exact Or.inl hw
  | forgot ids h => rw [h] at hw; exact Or.inl (ControlAuthority.get?_popWindows hw)
  | windowed row record window hl h =>
      rw [h] at hw
      rcases Dict.get?_set.mp hw with ⟨rfl, rfl⟩ | ⟨-, hw⟩
      · exact Or.inr ⟨row, record, hl, rfl⟩
      · exact Or.inl hw
  | trimmed h => rw [h.proc] at hw; exact Or.inl hw
  | replied g hl hn h => rw [h] at hw; exact Or.inl hw

/-! ### The invariant -/

/-- Committed rows have successors with the same fixed columns. -/
theorem Frame.lifecycle (h : Frame s pid a b) (hv : a.db.Valid) {r : DeviceCommand}
    (hr : r ∈ a.db.commands) :
    ∃ r' ∈ b.db.commands, r'.commandId = r.commandId ∧ r.Lifecycle r' := by
  rcases h.db with hsame | ⟨w, hc⟩
  · exact ⟨r, by rw [hsame]; exact hr, rfl, .refl r⟩
  · exact hc.lifecycle hv hr

/-- Times of evidence about a committed row remain what they are. -/
theorem Frame.timed (h : Frame s pid a b) (hv : a.db.Valid) {r : DeviceCommand}
    (hr : r ∈ a.db.commands) {t : Instant} (ht : Timed a r.commandId t) :
    Timed b r.commandId t := by
  have hep : (b.db.control? r.commandId).map (·.authorityEpoch) =
      (a.db.control? r.commandId).map (·.authorityEpoch) := by
    rcases h.db with hsame | ⟨w, hc⟩
    · rw [hsame]
    · exact hc.control_epoch hv hr
  refine ⟨fun hn => ?_, fun record hc q proc hq he => ?_⟩
  · rw [hn, Option.map_none, eq_comm, Option.map_eq_none_iff] at hep
    exact h.readings.subset (ht.direct hep)
  · rw [hc, Option.map_some, eq_comm, Option.map_eq_some_iff] at hep
    obtain ⟨record₀, hc₀, he₀⟩ := hep
    obtain ⟨proc₀, hq₀, hl⟩ := h.proc_back hq
    exact (ht.ticked record₀ hc₀ q proc₀ hq₀ (by rw [he₀, he, hl.epoch])).later hl

/-- **Every effect keeps the invariant.** -/
theorem Does.inv (hi : Inv a) (h : Does cfg s pid a b) : Inv b := by
  have hf := h.frame hi
  have hlog := h.log_subset hi
  refine ⟨?valid, ?created, ?creators, ?sent, ?bound, ?granted, ?epochs, ?owners,
    ?controlEpochs, ?windows, ?timed⟩
  case valid =>
    rcases hf.db with hsame | ⟨w, hc⟩
    · rw [hsame]; exact hi.valid
    · exact hc.valid
  case created =>
    intro s' sub row he
    rcases h.mem_log hi he with hold | ⟨-, -, hmem, -⟩
    · obtain ⟨r, hr, hfix⟩ := hi.created s' sub row hold
      obtain ⟨r', hr', -, hl⟩ := hf.lifecycle hi.valid hr
      exact ⟨r', hr', hl.fixed.trans hfix⟩
    · exact ⟨row, hmem, rfl⟩
  case creators =>
    -- a fresh command id is not that of any row committed before
    have hclash : ∀ {s' s'' sub sub' row row'}, Event.created s' sub row ∈ a.log →
        Logged cfg s pid a b (.created s'' sub' row') → row.commandId ≠ row'.commandId := by
      rintro s' s'' sub sub' row row' hold ⟨-, hfresh, -⟩ heq
      obtain ⟨r, hr, hfix⟩ := hi.created s' sub row hold
      exact hfresh r hr ((congrArg (·.1) hfix).trans heq)
    intro s' sub row s'' sub' row' he he' heq
    rcases h.mem_log hi he with hold | hnew <;> rcases h.mem_log hi he' with hold' | hnew'
    · exact hi.creators _ _ _ _ _ _ hold hold' heq
    · exact absurd heq (hclash hold hnew')
    · exact absurd heq.symm (hclash hold' hnew)
    · exact hnew.1.trans hnew'.1.symm
  case sent =>
    intro e he k id hs
    rcases h.mem_log hi he with hold | hnew
    · obtain ⟨s', sub, row, hc, hid⟩ := hi.sent e hold k id hs
      exact ⟨s', sub, row, hlog hc, hid⟩
    · obtain ⟨⟨sub, row, hc, hid⟩, -⟩ := hnew.sending hs
      exact ⟨s, sub, row, hlog hc, hid⟩
  case bound =>
    intro s' pid' g he
    rcases h.mem_log hi he with hold | ⟨-, -, hgr, -, hmem⟩
    · exact hf.control_bound hi.valid (hi.bound s' pid' g hold) rfl
    · have hid : g.record.commandId = g.row.commandId := Ledger.commandId_of_control? hgr.control
      rcases hf.db with hsame | ⟨w, hc⟩
      · exact (Ledger.control?_eq_some (hsame ▸ hi.valid)).mpr ⟨hmem, hid⟩
      · exact (Ledger.control?_eq_some hc.valid).mpr ⟨hmem, hid⟩
  case granted =>
    intro e he s' id hg
    rcases h.mem_log hi he with hold | hnew
    · obtain ⟨binding, hb⟩ := hi.granted e hold s' id hg
      exact ⟨binding, hf.boundTo hi.valid hb⟩
    · obtain ⟨-, binding, hb⟩ := hnew.grants hi hg
      exact ⟨binding, hf.boundTo hi.valid hb⟩
  case epochs =>
    intro q proc hq
    obtain ⟨proc₀, hq₀, hl⟩ := hf.proc_back hq
    rw [hf.epochs, hf.booted, hl.epoch]
    exact hi.epochs q proc₀ hq₀
  case owners =>
    intro q proc q' proc' hq hq' he
    obtain ⟨proc₀, hq₀, hl⟩ := hf.proc_back hq
    obtain ⟨proc₀', hq₀', hl'⟩ := hf.proc_back hq'
    exact hi.owners q proc₀ q' proc₀' hq₀ hq₀' (by rw [← hl.epoch, ← hl'.epoch, he])
  case controlEpochs =>
    intro record hrec
    rw [hf.epochs]
    rcases hf.db with hsame | ⟨w, hc⟩
    · rw [hsame] at hrec; exact hi.controlEpochs record hrec
    · rcases (Ledger.mem_controls_apply hc.applied hi.valid).mp hrec with
        hnew | ⟨_, _, r₀, -, hr₀, -, -, rfl⟩ | ⟨hold, -⟩
      · obtain ⟨-, q, proc, hq, he⟩ := hc.control record hnew
        rw [he]; exact (hi.epochs q proc hq).1
      · exact hi.controlEpochs r₀ hr₀
      · exact hi.controlEpochs record hold
  case windows =>
    intro q proc id w hq hw
    rcases h.memory with hsame | ⟨p, p', hp, hupd, hrem⟩
    · rw [hsame] at hq
      obtain ⟨row, record, hl, hid⟩ := hi.windows q proc id w hq hw
      exact ⟨row, record, hlog hl, hid⟩
    · rw [hupd] at hq
      by_cases hqp : q = pid
      · subst hqp
        rw [Function.update_self] at hq
        obtain rfl := Option.some.inj hq
        rcases hrem.windows hw with hold | ⟨row, record, hl, hid⟩
        · obtain ⟨row, record, hl, hid⟩ := hi.windows q p.proc id w hp hold
          exact ⟨row, record, hlog hl, hid⟩
        · exact ⟨row, record, hlog hl, hid⟩
      · rw [Function.update_of_ne hqp] at hq
        obtain ⟨row, record, hl, hid⟩ := hi.windows q proc id w hq hw
        exact ⟨row, record, hlog hl, hid⟩
  case timed =>
    intro row hrow t ht
    rcases hf.db with hsame | ⟨w, hc⟩
    · rw [hsame] at hrow
      exact hf.timed hi.valid hrow (hi.timed row hrow t ht)
    · rcases (Ledger.mem_commands_apply hc.applied).mp hrow with
        ⟨hu, r₀, hr₀, hid⟩ | hins | ⟨hold, -⟩
      · rw [← hid]
        refine hf.timed hi.valid hr₀ ?_
        rw [hid]
        exact (hc.update row hu).2 t ht
      · rw [hc.insert row hins] at ht
        cases ht
      · exact hf.timed hi.valid hold (hi.timed row hold t ht)

/-! ### Reliance -/

/-- **No effect disturbs another session.** -/
theorem Does.relies (hi : Inv a) (h : Does cfg s pid a b) (hne : t ≠ s) : Relies t q a b := by
  have hf := h.frame hi
  refine ⟨fun k hk => hf.locks t k hne hk, fun row hh => ?rows, fun row hh => ?controls,
    fun r hr => ?fixed, h.log_subset hi, fun k sub row hc hs e hm he => ?sends,
    fun id hn e hm he => ?grants, hf.readings, fun proc hq => hf.proc_forth hq⟩
  case rows =>
    rcases hf.db with hsame | ⟨w, hc⟩
    · rw [hsame]; exact hh.row
    · exact hc.row_of_holds hi.valid hne hh
  case controls =>
    rcases hf.db with hsame | ⟨w, hc⟩
    · rw [hsame]
    · exact hc.control_of_holds hi.valid hne hh
  case fixed =>
    obtain ⟨r', hr', -, hl⟩ := hf.lifecycle hi.valid hr
    exact ⟨r', hr', hl.fixed⟩
  case sends =>
    rcases h.mem_log hi hm with hold | hnew
    · exact hs e hold he
    · obtain ⟨⟨sub', row', hc', hid⟩, -⟩ := hnew.sending he
      exact hne (hi.creators t sub row s sub' row' hc hc' hid.symm)
  case grants =>
    rcases h.mem_log hi hm with hold | hnew
    · exact hn e hold he
    · exact hne (hnew.grants hi he).1

/-! ### Outside the sessions -/

/-- Only the locks of ended sessions change when sessions end. -/
theorem close_inv {ended : Nat → Bool} (hi : Inv a) : Inv (a.close ended) :=
  ⟨hi.valid, hi.created, hi.creators, hi.sent, hi.bound, hi.granted, hi.epochs, hi.owners,
    hi.controlEpochs, hi.windows, fun row hr t ht => ⟨(hi.timed row hr t ht).direct, (hi.timed row hr t ht).ticked⟩⟩

theorem close_relies {ended : Nat → Bool} (ht : ended t = false) :
    Relies t q a (a.close ended) :=
  ⟨fun _ hk => RowLocks.release_other hk ht, fun _ hh => hh.row, fun _ _ => rfl,
    fun r hr => ⟨r, hr, rfl⟩, fun _ h => h, fun _ _ _ _ hs => hs, fun _ hs => hs,
    List.prefix_refl _, fun proc hq => ⟨proc, hq, .refl _⟩⟩

/-- What an external action does to processes: it starts a fresh one, or leaves a
later memory of some of the old ones. -/
theorem act_procs {x : Action} (h : a.act x = some b) :
    (∃ bt : Boot, x = .boot bt ∧ bt.epoch ∉ a.epochs ∧ b.epochs = bt.epoch :: a.epochs ∧
      b.booted = a.booted + 1 ∧ ∃ clock,
        ControlClock.create bt.epoch bt.initialTick bt.anchor bt.qualified bt.rateErrorPpm
          bt.recoveryErrorUs = .ok clock ∧
        b.procs = Function.update a.procs a.booted
          (some ⟨ControlAuthority.create clock bt.gate, false, false⟩)) ∨
    (b.epochs = a.epochs ∧ b.booted = a.booted ∧
      (∀ q proc', b.procs q = some proc' → ∃ proc, a.procs q = some proc ∧ proc.Later proc' ∧
        proc'.authority.windows = proc.authority.windows ∧
        ∀ id v, proc'.authority.replies.get? id = some v →
          proc.authority.replies.get? id = some v) ∧
      ∀ q proc, core.kills x q = false → a.procs q = some proc →
        ∃ proc', b.procs q = some proc' ∧ proc.Later proc') := by
  have hupd : ∀ {p₀ : Nat} {proc : Proc} (proc' : Proc), a.procs p₀ = some proc → proc.Later proc' →
      proc'.authority.windows = proc.authority.windows →
      (∀ id v, proc'.authority.replies.get? id = some v →
        proc.authority.replies.get? id = some v) →
      (∀ q x', Function.update a.procs p₀ (some proc') q = some x' →
        ∃ x, a.procs q = some x ∧ x.Later x' ∧ x'.authority.windows = x.authority.windows ∧
          ∀ id v, x'.authority.replies.get? id = some v →
            x.authority.replies.get? id = some v) ∧
      ∀ q x, a.procs q = some x →
        ∃ x', Function.update a.procs p₀ (some proc') q = some x' ∧ x.Later x' := by
    intro p₀ proc proc' hp hl hw hr
    refine ⟨fun q x' hq => ?_, fun q x hq => ?_⟩
    · by_cases hqp : q = p₀
      · subst hqp
        rw [Function.update_self] at hq
        obtain rfl := Option.some.inj hq
        exact ⟨proc, hp, hl, hw, hr⟩
      · rw [Function.update_of_ne hqp] at hq
        exact ⟨x', hq, .refl _, rfl, fun _ _ h => h⟩
    · by_cases hqp : q = p₀
      · subst hqp
        rw [hp] at hq
        obtain rfl := Option.some.inj hq
        exact ⟨proc', by rw [Function.update_self], hl⟩
      · exact ⟨x, by rw [Function.update_of_ne hqp]; exact hq, .refl _⟩
  cases x with
  | boot bt =>
      left
      unfold Shared.act at h
      dsimp only at h
      split at h
      · cases h
      · rename_i hfresh
        split at h
        · cases h
        · rename_i clock hcl
          obtain rfl := Option.some.inj h
          exact ⟨bt, rfl, hfresh, rfl, rfl, clock, hcl, rfl⟩
  | crash p₀ =>
      right
      obtain rfl := Option.some.inj h
      refine ⟨rfl, rfl, fun q proc' hq => ?_, fun q proc hk hq => ?_⟩
      · dsimp only at hq
        by_cases hqp : q = p₀
        · subst hqp; rw [Function.update_self] at hq; cases hq
        · rw [Function.update_of_ne hqp] at hq
          exact ⟨proc', hq, .refl _, rfl, fun _ _ h => h⟩
      · have hqp : q ≠ p₀ := by simpa [core] using hk
        exact ⟨proc, by dsimp only; rw [Function.update_of_ne hqp]; exact hq, .refl _⟩
  | link p₀ up sub =>
      right
      simp only [Shared.act, Option.map_eq_some_iff] at h
      obtain ⟨proc, hp, rfl⟩ := h
      have := hupd ⟨proc.authority, up, sub⟩ hp ⟨rfl, rfl, rfl, rfl, rfl, rfl, le_rfl⟩ rfl fun _ _ h => h
      exact ⟨rfl, rfl, this.1, fun q x _ => this.2 q x⟩
  | evict p₀ id =>
      right
      simp only [Shared.act, Option.map_eq_some_iff] at h
      obtain ⟨proc, hp, rfl⟩ := h
      have := hupd { proc with authority := { proc.authority with
        replies := proc.authority.replies.pop id } } hp ⟨rfl, rfl, rfl, rfl, rfl, rfl, le_rfl⟩ rfl fun _ _ h =>
        (Dict.get?_pop.mp h).2
      exact ⟨rfl, rfl, this.1, fun q x _ => this.2 q x⟩
  | registry r =>
      right
      obtain rfl := Option.some.inj h
      exact ⟨rfl, rfl, fun q x hq => ⟨x, hq, .refl _, rfl, fun _ _ h => h⟩, fun q x _ hq => ⟨x, hq, .refl _⟩⟩

/-- External actions leave the ledger, the locks and the ghosts alone. -/
theorem act_frame {x : Action} (h : a.act x = some b) :
    b.db = a.db ∧ b.locks = a.locks ∧ b.log = a.log ∧ b.readings = a.readings := by
  cases x with
  | boot bt =>
      unfold Shared.act at h
      dsimp only at h
      split at h
      · cases h
      · split at h
        · cases h
        · obtain rfl := Option.some.inj h; exact ⟨rfl, rfl, rfl, rfl⟩
  | crash p₀ => obtain rfl := Option.some.inj h; exact ⟨rfl, rfl, rfl, rfl⟩
  | link p₀ up sub =>
      obtain ⟨proc, -, rfl⟩ := Option.map_eq_some_iff.mp h
      exact ⟨rfl, rfl, rfl, rfl⟩
  | evict p₀ id =>
      obtain ⟨proc, -, rfl⟩ := Option.map_eq_some_iff.mp h
      exact ⟨rfl, rfl, rfl, rfl⟩
  | registry r => obtain rfl := Option.some.inj h; exact ⟨rfl, rfl, rfl, rfl⟩

theorem ControlClock.create_epoch {epoch : String} {initial : Option Int} {anchor : Option Instant}
    {qualified : Bool} {rate recovery : Int} {c : ControlClock}
    (h : create epoch initial anchor qualified rate recovery = .ok c) : c.epoch = epoch := by
  unfold create at h
  split at h
  · cases h
  · obtain rfl := Except.ok.inj h; rfl

theorem act_inv {x : Action} (hi : Inv a) (h : a.act x = some b) : Inv b := by
  obtain ⟨hdb, -, hlog, hread⟩ := act_frame h
  rcases act_procs h with ⟨bt, -, hfresh, hep, hbo, clock, hcl, hprocs⟩ | ⟨hep, hbo, hback, -⟩
  · have hclock := ControlClock.create_epoch hcl
    -- the new process is not one of the old ones, and its epoch is new
    have hcases : ∀ {q proc}, b.procs q = some proc →
        (q = a.booted ∧ proc = ⟨ControlAuthority.create clock bt.gate, false, false⟩) ∨
          (q ≠ a.booted ∧ a.procs q = some proc) := by
      intro q proc hq
      rw [hprocs] at hq
      by_cases hqp : q = a.booted
      · subst hqp
        rw [Function.update_self] at hq
        exact Or.inl ⟨rfl, (Option.some.inj hq).symm⟩
      · rw [Function.update_of_ne hqp] at hq
        exact Or.inr ⟨hqp, hq⟩
    refine ⟨by rw [hdb]; exact hi.valid, by rw [hdb, hlog]; exact hi.created,
      by rw [hlog]; exact hi.creators, by rw [hlog]; exact hi.sent,
      by rw [hlog, hdb]; exact hi.bound, by rw [hlog, hdb]; exact hi.granted, fun q proc hq => ?_,
      fun q proc q' proc' hq hq' he => ?_, fun record hr => ?_, fun q proc id w hq hw => ?_, fun row hr t ht => ?_⟩
    · rw [hep, hbo]
      rcases hcases hq with ⟨rfl, rfl⟩ | ⟨-, hold⟩
      · exact ⟨List.mem_cons.mpr (Or.inl hclock), by omega⟩
      · obtain ⟨h1, h2⟩ := hi.epochs q proc hold
        exact ⟨List.mem_cons_of_mem _ h1, by omega⟩
    · have hdiff : ∀ {q proc}, a.procs q = some proc → proc.authority.clock.epoch ≠ clock.epoch := by
        intro q proc hold heq
        exact hfresh (hclock ▸ heq ▸ (hi.epochs q proc hold).1)
      rcases hcases hq with ⟨rfl, rfl⟩ | ⟨-, hold⟩ <;>
        rcases hcases hq' with ⟨rfl, rfl⟩ | ⟨-, hold'⟩
      · rfl
      · exact absurd he.symm (hdiff hold')
      · exact absurd he (hdiff hold)
      · exact hi.owners q proc q' proc' hold hold' he
    · rw [hdb] at hr
      rw [hep]
      exact List.mem_cons_of_mem _ (hi.controlEpochs record hr)
    · rw [hlog]
      rcases hcases hq with ⟨rfl, rfl⟩ | ⟨-, hold⟩
      · simp [ControlAuthority.create] at hw
      · exact hi.windows q proc id w hold hw
    · rw [hdb] at hr
      refine ⟨fun hn => ?_, fun record hc q proc hq he => ?_⟩
      · rw [hread]; rw [hdb] at hn; exact (hi.timed row hr t ht).direct hn
      · rw [hdb] at hc
        rcases hcases hq with ⟨rfl, rfl⟩ | ⟨-, hold⟩
        · have hmem := ((Ledger.control?_eq_some hi.valid).mp hc).1
          have : record.authorityEpoch = bt.epoch := he.trans hclock
          exact absurd (this ▸ hi.controlEpochs record hmem) hfresh
        · exact (hi.timed row hr t ht).ticked record hc q proc hold he
  · refine ⟨by rw [hdb]; exact hi.valid, by rw [hdb, hlog]; exact hi.created,
      by rw [hlog]; exact hi.creators, by rw [hlog]; exact hi.sent,
      by rw [hlog, hdb]; exact hi.bound, by rw [hlog, hdb]; exact hi.granted, fun q proc hq => ?_,
      fun q proc q' proc' hq hq' he => ?_, by rw [hdb, hep]; exact hi.controlEpochs, fun q proc id w hq hw => ?_,
      fun row hr t ht => ?_⟩
    · obtain ⟨proc₀, hq₀, hl, -⟩ := hback q proc hq
      rw [hep, hbo, hl.epoch]
      exact hi.epochs q proc₀ hq₀
    · obtain ⟨proc₀, hq₀, hl, -⟩ := hback q proc hq
      obtain ⟨proc₀', hq₀', hl', -⟩ := hback q' proc' hq'
      exact hi.owners q proc₀ q' proc₀' hq₀ hq₀' (by rw [← hl.epoch, ← hl'.epoch, he])
    · obtain ⟨proc₀, hq₀, -, hwin, -⟩ := hback q proc hq
      rw [hlog]
      exact hi.windows q proc₀ id w hq₀ (by rw [← hwin]; exact hw)
    · rw [hdb] at hr
      refine ⟨fun hn => ?_, fun record hc q proc hq he => ?_⟩
      · rw [hread]; rw [hdb] at hn; exact (hi.timed row hr t ht).direct hn
      · rw [hdb] at hc
        obtain ⟨proc₀, hq₀, hl, -⟩ := hback q proc hq
        exact ((hi.timed row hr t ht).ticked record hc q proc₀ hq₀ (by rw [he, hl.epoch])).later hl

theorem act_relies {x : Action} (hi : Inv a) (h : a.act x = some b)
    (hk : core.kills x q = false) : Relies t q a b := by
  obtain ⟨hdb, hlocks, hlog, hread⟩ := act_frame h
  refine ⟨by rw [hlocks]; exact fun _ h => h, by rw [hdb]; exact fun _ hh => hh.row,
    by rw [hdb]; exact fun _ _ => rfl, by rw [hdb]; exact fun r hr => ⟨r, hr, rfl⟩,
    by rw [hlog]; exact fun _ h => h, by rw [hlog]; exact fun _ _ _ _ hs => hs,
    by rw [hlog]; exact fun _ hs => hs,
    by simp only [hread, List.prefix_refl], fun proc hq => ?_⟩
  rcases act_procs h with ⟨bt, -, -, -, -, clock, -, hprocs⟩ | ⟨-, -, -, hforth⟩
  · have hne : q ≠ a.booted := by
      have := (hi.epochs q proc hq).2
      omega
    exact ⟨proc, by rw [hprocs, Function.update_of_ne hne]; exact hq, .refl _⟩
  · exact hforth q proc hk hq

/-- The invariant holds before anything was submitted. -/
theorem Inv.empty (registry : Registry) : Inv (Shared.empty registry) where
  valid := Ledger.check_iff.mp rfl
  created _ _ _ h := by cases h
  creators _ _ _ _ _ _ h := by cases h
  sent _ h := by cases h
  bound _ _ _ h := by cases h
  granted _ h := by cases h
  epochs _ _ h := by cases h
  owners _ _ _ _ h := by cases h
  controlEpochs _ h := by cases h
  windows _ _ _ _ h := by cases h
  timed _ h := by cases h

end KzHome

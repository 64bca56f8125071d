import KzHome.Records

/-!
# KzHome.Permits

One durable permit for each command.

A grant is bound in the ledger before it is returned, by an update that only
finds unbound records, so a command is bound once (`Permitted.once`); what a
process keeps as a reply, and what `request` returns, is always a grant that was
bound (`Permitted.replies`, `Permitted.granted`). Once the reply is forgotten
there is nothing left to return (`Forgotten.step`). Processes are not told apart
here: any number of them may live at the same time.
-/

namespace KzHome

open ControlAuthority (Grant contextText)
open Session

/-! ### Contexts -/

/-- What a permit is bound to. -/
structure PermitContext where
  house : String
  device : String
  coreEpoch : String
  bootId : String
  sessionId : String
  nonce : String
  deriving DecidableEq, Repr

/-- The context of a request. -/
def PermitRequest.context (request : PermitRequest) (house device : String) : PermitContext :=
  ⟨house, device, request.coreEpoch, request.bootId, request.sessionId, request.nonce⟩

/-- The context a grant was made in. -/
def ControlAuthority.Grant.context (g : Grant) : PermitContext := g.request.context g.house g.device

/-- The context a grant was returned in. -/
def Permit.context (p : Permit) : PermitContext := p.request.context p.house p.device

theorem contextText_inj {house device house' device' : String} {request request' : PermitRequest}
    (h : contextText house device request = contextText house' device' request') :
    request.context house device = request'.context house' device' := by
  obtain ⟨hhouse, hrest⟩ := JsonText.dumpsList_inj h
  simp only [List.cons.injEq, and_true] at hrest
  simp [PermitRequest.context, hhouse, hrest]

/-- A binding determines its context. -/
theorem binding_inj {sha : Sha256} {house device house' device' : String}
    {request request' : PermitRequest} (h : sha.hex (contextText house device request) =
      sha.hex (contextText house' device' request')) :
    request.context house device = request'.context house' device' :=
  contextText_inj (sha.injective _ _ h)

theorem contextText_of_context {house device house' device' : String}
    {request request' : PermitRequest}
    (h : request.context house device = request'.context house' device') :
    contextText house device request = contextText house' device' request' := by
  simp only [PermitRequest.context, PermitContext.mk.injEq] at h
  obtain ⟨rfl, rfl, h₁, h₂, h₃, h₄⟩ := h
  simp [contextText, h₁, h₂, h₃, h₄]

/-! ### What is bound and what is returned -/

variable {cfg : Config} {registry : Registry} {s t pid : Nat} {a b : Shared} {id : String}

/-- A reply after a step was there before, or is that of a grant the session has
bound and not returned yet. -/
theorem Remembers.replies {p p' : Port} (h : Remembers a s pid p p')
    {v : String × ControlDelivery} (hv : p'.proc.authority.replies.get? id = some v) :
    p.proc.authority.replies.get? id = some v ∨
      ∃ g, .bound s pid g ∈ a.log ∧ (∀ e ∈ a.log, e.grants ≠ some (s, g.row.commandId)) ∧
        g.row.commandId = id ∧ v = (g.binding, g.delivery) := by
  cases h with
  | ticked h => rw [h.authority_eq] at hv; exact Or.inl hv
  | fenced ids h =>
      obtain ⟨tick, -, -, hp⟩ := h.proc
      rw [hp] at hv
      exact Or.inl hv
  | forgot ids h => rw [h] at hv; exact Or.inl hv
  | windowed row record window hl h => rw [h] at hv; exact Or.inl hv
  | trimmed h => exact Or.inl (h.replies id v hv)
  | replied g hl hn h =>
      rw [h] at hv
      rcases Dict.get?_set.mp hv with ⟨rfl, rfl⟩ | ⟨-, hv⟩
      · exact Or.inr ⟨g, hl, hn, rfl, rfl⟩
      · exact Or.inl hv

/-- What the log and the memory say about permits. -/
structure Permitted (cfg : Config) (st : Shared) : Prop where
  /-- A binding is the digest of its context. -/
  digest : ∀ s pid g, .bound s pid g ∈ st.log →
    g.binding = cfg.sha.hex (contextText g.house g.device g.request)
  /-- A command is bound once. -/
  once : ∀ s pid g s' pid' g', .bound s pid g ∈ st.log → .bound s' pid' g' ∈ st.log →
    g.row.commandId = g'.row.commandId → s = s' ∧ pid = pid' ∧ g = g'
  /-- A process keeps replies of bound grants. -/
  replies : ∀ pid proc id binding delivery, st.procs pid = some proc →
    proc.authority.replies.get? id = some (binding, delivery) →
      ∃ s g, .bound s pid g ∈ st.log ∧ g.row.commandId = id ∧ g.binding = binding ∧
        g.delivery = delivery
  /-- Bound grants are returned, in their own context. -/
  granted : ∀ p, .granted p ∈ st.log →
    ∃ s g, .bound s p.pid g ∈ st.log ∧ g.row.commandId = p.row.commandId ∧
      g.delivery = p.delivery ∧ g.context = p.context

/-- A new binding is of a command that was not bound. -/
theorem Granting.unbound {house device : String} {request : PermitRequest} {row : DeviceCommand}
    {record : ControlCommand} {window : Window} {binding : String}
    (hg : Granting cfg s pid a house device request row record window)
    (hn : record.permitBindingSha256 = none) : ¬ a.db.BoundTo row.commandId binding := by
  rintro ⟨record', hc, hb⟩
  rw [hg.control] at hc
  obtain rfl := Option.some.inj hc
  rw [hn] at hb
  cases hb

theorem Does.permitted (hi : Inv a) (h : Permitted cfg a) (hd : Does cfg s pid a b) :
    Permitted cfg b := by
  have hlog := hd.log_subset hi
  refine ⟨fun s' pid' g he => ?digest, fun s₁ pid₁ g₁ s₂ pid₂ g₂ h₁ h₂ heq => ?once,
    fun q proc id binding delivery hq hr => ?replies, fun p he => ?granted⟩
  case digest =>
    rcases hd.mem_log hi he with hold | ⟨-, -, -, hf, -⟩
    · exact h.digest s' pid' g hold
    · exact hf.binding
  case once =>
    rcases hd.mem_log hi h₁ with hold₁ | ⟨rfl, rfl, hg₁, hf₁, -⟩ <;>
      rcases hd.mem_log hi h₂ with hold₂ | ⟨rfl, rfl, hg₂, hf₂, -⟩
    · exact h.once _ _ _ _ _ _ hold₁ hold₂ heq
    · exact absurd (heq ▸ hi.boundTo hold₁) (hg₂.unbound hf₂.unbound)
    · exact absurd (heq ▸ hi.boundTo hold₂) (hg₁.unbound hf₁.unbound)
    · -- one step notes at most one binding
      obtain ⟨es, hes, hone⟩ := hd.notes
      have hnew : ∀ {g}, Granting cfg s₂ pid₂ a g.house g.device g.request g.row g.record g.window →
          FreshGrant cfg pid₂ a g → .bound s₂ pid₂ g ∈ b.log → .bound s₂ pid₂ g ∈ es := by
        intro g hg hf hb
        rw [hes, List.mem_append] at hb
        exact hb.resolve_left fun hold => hg.unbound hf.unbound (hi.boundTo hold)
      have h₁ := hnew hg₁ hf₁ h₁
      have h₂ := hnew hg₂ hf₂ h₂
      cases hone with
      | nothing => cases h₁
      | one e =>
          have heq := (List.mem_singleton.mp h₁).trans (List.mem_singleton.mp h₂).symm
          exact ⟨rfl, rfl, (Event.bound.inj heq).2.2⟩
      | freed p s sub row => simp at h₁
  case replies =>
    rcases hd.memory with hsame | ⟨p, p', hp, hupd, hrem⟩
    · rw [hsame] at hq
      obtain ⟨s', g, hl, hrest⟩ := h.replies q proc id binding delivery hq hr
      exact ⟨s', g, hlog hl, hrest⟩
    · rw [hupd] at hq
      by_cases hqp : q = pid
      · subst hqp
        rw [Function.update_self] at hq
        obtain rfl := Option.some.inj hq
        rcases hrem.replies hr with hold | ⟨g, hl, -, hid, hv⟩
        · obtain ⟨s', g, hl, hrest⟩ := h.replies q p.proc id binding delivery hp hold
          exact ⟨s', g, hlog hl, hrest⟩
        · obtain ⟨rfl, rfl⟩ := Prod.mk.inj hv
          exact ⟨s, g, hlog hl, hid, rfl, rfl⟩
      · rw [Function.update_of_ne hqp] at hq
        obtain ⟨s', g, hl, hrest⟩ := h.replies q proc id binding delivery hq hr
        exact ⟨s', g, hlog hl, hrest⟩
  case granted =>
    rcases hd.mem_log hi he with hold | hret
    · obtain ⟨s', g, hl, hrest⟩ := h.granted p hold
      exact ⟨s', g, hlog hl, hrest⟩
    · cases hret with
      | @fresh g _ _ hl hn => exact ⟨s, g, hlog hl, rfl, rfl, rfl⟩
      | cached hp hg hb hr =>
          obtain ⟨s', g, hl, hid, hbind, hdel⟩ := h.replies _ _ _ _ _ hp hr
          refine ⟨s', g, hlog hl, hid, hdel, ?_⟩
          rw [h.digest _ _ _ hl] at hbind
          exact binding_inj hbind

theorem permitted (cfg : Config) (registry : Registry) (labels : List Label) :
    Permitted cfg (after cfg registry labels).shared := by
  refine after_invariant (P := Permitted cfg) ?_ (fun hi h hd => hd.permitted hi h)
    (fun _ h => ⟨h.digest, h.once, h.replies, h.granted⟩) (fun {a x b} hi h ha => ?_) labels
  · exact ⟨fun _ _ _ h => (by cases h), fun _ _ _ _ _ _ h => (by cases h),
      fun _ _ _ _ _ h => (by cases h), fun _ h => (by cases h)⟩
  · obtain ⟨-, -, hlog, -⟩ := act_frame ha
    refine ⟨by rw [hlog]; exact h.digest, by rw [hlog]; exact h.once,
      fun q proc id binding delivery hq hr => ?_, by rw [hlog]; exact h.granted⟩
    rw [hlog]
    rcases act_procs ha with ⟨bt, -, -, -, -, clock, -, hprocs⟩ | ⟨-, -, hback, -⟩
    · rw [hprocs] at hq
      by_cases hqb : q = a.booted
      · subst hqb
        rw [Function.update_self] at hq
        obtain rfl := Option.some.inj hq
        simp [ControlAuthority.create] at hr
      · rw [Function.update_of_ne hqb] at hq
        exact h.replies q proc id binding delivery hq hr
    · obtain ⟨proc₀, hq₀, -, -, hrep⟩ := hback q proc hq
      exact h.replies q proc₀ id binding delivery hq₀ (hrep _ _ hr)

/-! ### After the reply is lost -/

/-- The events by which a grant for the command was returned. -/
def grantsOf (id : String) (log : List Event) : List Event :=
  log.filter fun e => e.grants.map Prod.snd = some id

/-- The permit of the command was used up: it is bound, no living process of the
record's epoch keeps the reply, and the sessions that bound it have returned their
grant or are gone. -/
structure Forgotten (id : String) (w : World) : Prop where
  record : ∃ record, w.shared.db.control? id = some record ∧
    record.permitBindingSha256.isSome = true ∧
    ∀ pid proc, w.shared.procs pid = some proc →
      record.authorityEpoch = proc.authority.clock.epoch →
        proc.authority.replies.get? id = none
  returned : ∀ s pid g, .bound s pid g ∈ w.shared.log → g.row.commandId = id →
    w.sessions s = none ∨ ∃ e ∈ w.shared.log, e.grants = some (s, id)

section

variable {record : ControlCommand}

/-- A session that has nothing left to return for a command returns nothing for it,
binds nothing for it and remembers nothing about it. -/
theorem Does.forgotten (hi : Inv a) (hd : Does cfg s pid a b)
    (hc : a.db.control? id = some record) (hb : record.permitBindingSha256.isSome = true)
    (hr : ∀ proc, a.procs pid = some proc → record.authorityEpoch = proc.authority.clock.epoch →
      proc.authority.replies.get? id = none)
    (hg : ∀ g, .bound s pid g ∈ a.log → g.row.commandId = id →
      ∃ e ∈ a.log, e.grants = some (s, id)) :
    grantsOf id b.log = grantsOf id a.log ∧
      (∀ t q g, .bound t q g ∈ b.log → g.row.commandId = id → .bound t q g ∈ a.log) ∧
      ∀ proc, b.procs pid = some proc → record.authorityEpoch = proc.authority.clock.epoch →
        proc.authority.replies.get? id = none := by
  have hnot : ∀ {record' : ControlCommand}, a.db.control? id = some record' →
      record'.permitBindingSha256 ≠ none := by
    intro record' hc' hn
    obtain rfl := Option.some.inj (hc.symm.trans hc')
    rw [hn] at hb; cases hb
  refine ⟨?grants, fun t q g he hid => ?bound, fun proc hq hep => ?replies⟩
  case grants =>
    obtain ⟨es, hlog, hes⟩ := hd.logged hi
    have hnone : grantsOf id es = [] := by
      refine List.filter_eq_nil_iff.mpr fun e he hgr => ?_
      have hgr : e.grants.map Prod.snd = some id := of_decide_eq_true hgr
      cases e with
      | granted p =>
          obtain rfl := Option.some.inj hgr
          have hret : Returns cfg s pid a p := hes _ he
          cases hret with
          | @fresh g _ _ hl hn =>
              obtain ⟨e', he', hg'⟩ := hg g hl rfl
              exact hn e' he' hg'
          | @cached proc _ _ _ _ record' _ _ hp hgt _ hrep =>
              obtain ⟨proc', ⟨now, hnow, hlater⟩, hep, -⟩ := hgt.epoch
              obtain rfl := Option.some.inj (hp.symm.trans hnow)
              obtain rfl := Option.some.inj (hc.symm.trans hgt.control)
              rw [hr proc hp (hep.trans hlater.epoch.symm)] at hrep
              cases hrep
      | _ => cases hgr
    rw [hlog, grantsOf, List.filter_append]
    rw [show List.filter _ es = [] from hnone, List.append_nil]
    rfl
  case bound =>
    rcases hd.mem_log hi he with hold | ⟨-, -, hgt, hf, -⟩
    · exact hold
    · exact absurd hf.unbound (hnot (hid ▸ hgt.control))
  case replies =>
    rcases hd.memory with hsame | ⟨p, p', hp, hupd, hrem⟩
    · rw [hsame] at hq
      exact hr proc hq hep
    · rw [hupd, Function.update_self] at hq
      obtain rfl := Option.some.inj hq
      by_contra hne
      obtain ⟨v, hv⟩ := Option.ne_none_iff_exists'.mp hne
      rcases hrem.replies hv with hold | ⟨g, hl, hn, hid, -⟩
      · rw [hr p.proc hp (hep.trans hrem.later.epoch)] at hold
        cases hold
      · obtain ⟨e, he, hge⟩ := hg g hl hid
        exact hn e he (hid ▸ hge)

end

/-- Sessions that bound something were started. -/
def Started (w : World) : Prop := ∀ s pid g, .bound s pid g ∈ w.shared.log → s < w.started

/-- **One step after the reply was lost**: nothing is granted for the command. -/
theorem Forgotten.step {w w' : World} (hs : Sound (contract cfg) core w) (hst : Started w)
    (h : Forgotten id w) {l : Label} (hstep : (coreSystem cfg).step w l = some w') :
    Forgotten id w' ∧ grantsOf id w'.shared.log = grantsOf id w.shared.log := by
  obtain ⟨record, hc, hb, hr⟩ := h.record
  have hover : ∀ {s pid g}, .bound s pid g ∈ w.shared.log → w.sessions s = none →
      w'.sessions s = none := fun hl ho => (step_over hstep (hst _ _ _ hl) ho).2
  -- a step that leaves ledger and log alone, and at most loses replies
  have hquiet : w'.shared.db = w.shared.db → w'.shared.log = w.shared.log →
      (∀ pid proc, w'.shared.procs pid = some proc →
        record.authorityEpoch = proc.authority.clock.epoch →
          proc.authority.replies.get? id = none) →
      Forgotten id w' ∧ grantsOf id w'.shared.log = grantsOf id w.shared.log := by
    intro hdb hlog hr'
    refine ⟨⟨⟨record, by rw [hdb]; exact hc, hb, hr'⟩, fun s pid g hl hid => ?_⟩, by rw [hlog]⟩
    rw [hlog] at hl ⊢
    exact (h.returned s pid g hl hid).imp_left (hover hl)
  rcases shared_cases hs hstep with heq | ⟨s, pid, input, m, -, hm, hd⟩ | ⟨ended, heq⟩ |
    ⟨x, b, -, ha, heq⟩
  · exact hquiet (by rw [heq]) (by rw [heq]) (by rw [heq]; exact hr)
  · have hd : Does cfg s pid w.shared w'.shared := hd
    obtain ⟨hgr, hbd, hrep⟩ := hd.forgotten hs.inv hc hb (hr pid) fun g hl hid =>
      (h.returned s pid g hl hid).resolve_left (by rw [hm]; simp)
    have hf := hd.frame hs.inv
    refine ⟨⟨⟨record, hf.control_bound (Inv.valid hs.inv) hc hb, hb, fun q proc hq hep => ?_⟩,
      fun t q g hl hid => ?_⟩, hgr⟩
    · by_cases hqp : q = pid
      · exact hrep proc (hqp ▸ hq) hep
      · rcases hd.memory with hsame | ⟨p, p', -, hupd, -⟩
        · exact hr q proc (by rw [← hsame]; exact hq) hep
        · rw [hupd, Function.update_of_ne hqp] at hq
          exact hr q proc hq hep
    · have hl' := hbd t q g hl hid
      refine (h.returned t q g hl' hid).imp (hover hl') fun ⟨e, he, hge⟩ =>
        ⟨e, hd.log_subset hs.inv he, hge⟩
  · refine hquiet ?_ ?_ ?_ <;> rw [heq]
    · rfl
    · rfl
    · exact hr
  · obtain ⟨hdb, -, hlog, -⟩ := act_frame ha
    refine hquiet (by rw [heq]; exact hdb) (by rw [heq]; exact hlog) fun q proc hq hep => ?_
    have hq : b.procs q = some proc := by rw [heq] at hq; exact hq
    rcases act_procs ha with ⟨bt, -, hfresh, -, -, clock, hcl, hprocs⟩ | ⟨-, -, hback, -⟩
    · rw [hprocs] at hq
      by_cases hqb : q = w.shared.booted
      · -- a new process has an epoch of its own
        subst hqb
        rw [Function.update_self] at hq
        obtain rfl := Option.some.inj hq
        rfl
      · rw [Function.update_of_ne hqb] at hq
        exact hr q proc hq hep
    · obtain ⟨proc₀, hq₀, hl, -, hrep⟩ := hback q proc hq
      have hnone := hr q proc₀ hq₀ (hep.trans hl.epoch)
      by_contra hne
      obtain ⟨v, hv⟩ := Option.ne_none_iff_exists'.mp hne
      rw [hrep id v hv] at hnone
      cases hnone

theorem Started.step {w w' : World} (hs : Sound (contract cfg) core w) (h : Started w) {l : Label}
    (hstep : (coreSystem cfg).step w l = some w') : Started w' := by
  have hle : w.started ≤ w'.started := started_le hstep
  intro s pid g hl
  rcases shared_cases hs hstep with heq | ⟨t, q, input, m, -, hm, hd⟩ | ⟨ended, heq⟩ |
    ⟨x, b, -, ha, heq⟩
  · rw [heq] at hl
    exact (h s pid g hl).trans_le hle
  · rcases Does.mem_log hs.inv hd hl with hold | ⟨rfl, -⟩
    · exact (h s pid g hold).trans_le hle
    · refine lt_of_lt_of_le (lt_of_not_ge fun hge => ?_) hle
      rw [hs.unused s hge] at hm
      cases hm
  · rw [heq] at hl
    exact (h s pid g hl).trans_le hle
  · rw [heq] at hl
    exact (h s pid g ((act_frame ha).2.2.1 ▸ hl)).trans_le hle

theorem started (cfg : Config) (registry : Registry) (labels : List Label) :
    Started (after cfg registry labels) := by
  induction labels using List.reverseRecOn with
  | nil => exact fun _ _ _ h => (by cases h)
  | append_singleton labels l ih =>
      rw [after_snoc]
      rcases (coreSystem cfg).next_cases (after cfg registry labels) l with h | h
      · rw [h]; exact ih
      · exact ih.step (sound cfg registry labels) h

/-- **A forgotten permit is never granted again.** -/
theorem Forgotten.run {labels : List Label} (h : Forgotten id (after cfg registry labels))
    (more : List Label) : Forgotten id (after cfg registry (labels ++ more)) ∧
      grantsOf id (after cfg registry (labels ++ more)).shared.log =
        grantsOf id (after cfg registry labels).shared.log := by
  induction more using List.reverseRecOn with
  | nil => rw [List.append_nil]; exact ⟨h, rfl⟩
  | append_singleton more l ih =>
      rw [← List.append_assoc, after_snoc]
      rcases (coreSystem cfg).next_cases (after cfg registry (labels ++ more)) l with hn | hn
      · rw [hn]; exact ih
      · obtain ⟨hf, hg⟩ := ih.1.step (sound cfg registry _) (started cfg registry _) hn
        exact ⟨hf, hg.trans ih.2⟩

/-! ### One durable permit -/

/-- What the permits of a run are, at the moment after `labels`. -/
structure OneDurablePermit (cfg : Config) (registry : Registry) (labels : List Label) : Prop where
  /-- All grants for a command are the same, in the same context. -/
  same : ∀ p p', .granted p ∈ (after cfg registry labels).shared.log →
    .granted p' ∈ (after cfg registry labels).shared.log → p.row.commandId = p'.row.commandId →
      p.delivery.payload = p'.delivery.payload ∧
        p.delivery.validUntilTick = p'.delivery.validUntilTick ∧ p.context = p'.context
  /-- Before a grant is returned its binding is committed, for good. -/
  durable : ∀ l p, .granted p ∈ (after cfg registry (labels ++ [l])).shared.log →
    ∃ b, b = cfg.sha.hex (contextText p.house p.device p.request) ∧
      (after cfg registry labels).shared.db.BoundTo p.row.commandId b ∧
      ∀ more, (after cfg registry (labels ++ more)).shared.db.BoundTo p.row.commandId b
  /-- A command is bound at most once. -/
  once : ∀ s pid g s' pid' g', .bound s pid g ∈ (after cfg registry labels).shared.log →
    .bound s' pid' g' ∈ (after cfg registry labels).shared.log →
      g.row.commandId = g'.row.commandId → s = s' ∧ pid = pid' ∧ g = g'
  /-- A context is bound to at most one command. -/
  contexts : ∀ s pid g s' pid' g', .bound s pid g ∈ (after cfg registry labels).shared.log →
    .bound s' pid' g' ∈ (after cfg registry labels).shared.log →
      g.context = g'.context → g.row.commandId = g'.row.commandId
  /-- A grant was decided on the locked row, pending and staged, with the columns of its
  window, and on a record of the authority's own epoch. -/
  authorised : ∀ p, .granted p ∈ (after cfg registry labels).shared.log →
    ∃ before rest, labels = before ++ rest ∧
      Granting cfg p.session p.pid (after cfg registry before).shared p.house p.device p.request
        p.row p.record p.window
  /-- After the reply is lost, nothing is granted for the command again. -/
  refused : ∀ id, Forgotten id (after cfg registry labels) → ∀ more,
    grantsOf id (after cfg registry (labels ++ more)).shared.log =
      grantsOf id (after cfg registry labels).shared.log

/-- Bindings stay. -/
theorem boundTo_stays {binding : String} {labels : List Label}
    (h : (after cfg registry labels).shared.db.BoundTo id binding) (more : List Label) :
    (after cfg registry (labels ++ more)).shared.db.BoundTo id binding :=
  after_related (R := fun a b => a.db.BoundTo id binding → b.db.BoundTo id binding)
    (fun _ h => h) (fun h k x => k (h x)) (fun hi hd h => (hd.frame hi).boundTo hi.valid h)
    (fun _ h => h) (fun _ ha h => by rw [(act_frame ha).1]; exact h) labels more h

/-- Two records with one binding are one. -/
theorem Ledger.BoundTo.unique {l : Ledger} (hv : l.Valid) {id' binding : String}
    (h : l.BoundTo id binding) (h' : l.BoundTo id' binding) : id = id' := by
  obtain ⟨r, hc, hb⟩ := h
  obtain ⟨r', hc', hb'⟩ := h'
  obtain ⟨hr, rfl⟩ := (Ledger.control?_eq_some hv).mp hc
  obtain ⟨hr', rfl⟩ := (Ledger.control?_eq_some hv).mp hc'
  exact congrArg _ (Table.eq_of_unique hv.bindings hr hr' hb hb')

/-- A grant that was returned was decided while its row was locked. -/
theorem granting_at {labels : List Label} {p : Permit}
    (h : .granted p ∈ (after cfg registry labels).shared.log) :
    ∃ before rest, labels = before ++ rest ∧
      Granting cfg p.session p.pid (after cfg registry before).shared p.house p.device p.request
        p.row p.record p.window := by
  obtain ⟨before, l, rest, s, pid, rfl, -, hret⟩ := noted_at h
  have hret : Returns cfg s pid (after cfg registry before).shared p := hret
  cases hret with
  | @fresh g _ _ hl =>
      obtain ⟨earlier, l', rest', s', pid', rfl, -, rfl, rfl, hg, -⟩ := noted_at hl
      exact ⟨earlier, l' :: rest' ++ l :: rest, by simp, hg⟩
  | cached hp hg => exact ⟨before, l :: rest, rfl, hg⟩

/-- **One durable permit per command**, for any number of processes and in every run. -/
theorem one_durable_permit (cfg : Config) (registry : Registry) (labels : List Label) :
    OneDurablePermit cfg registry labels := by
  have hi := after_inv cfg registry labels
  have hp := permitted cfg registry labels
  refine ⟨fun p p' h h' heq => ?same, fun l p h => ?durable, hp.once,
    fun s pid g s' pid' g' h h' heq => ?contexts, fun p h => granting_at h,
    fun id h more => (h.run more).2⟩
  case same =>
    obtain ⟨s, g, hl, hid, hdel, hctx⟩ := hp.granted p h
    obtain ⟨s', g', hl', hid', hdel', hctx'⟩ := hp.granted p' h'
    obtain ⟨-, -, rfl⟩ := hp.once _ _ _ _ _ _ hl hl' (hid.trans (heq.trans hid'.symm))
    rw [← hdel, ← hdel', ← hctx, ← hctx']
    exact ⟨rfl, rfl, rfl⟩
  case durable =>
    have hb : (after cfg registry labels).shared.db.BoundTo p.row.commandId
        (cfg.sha.hex (contextText p.house p.device p.request)) := by
      rcases mem_log_snoc h with hold | ⟨s, pid, -, hret⟩
      · obtain ⟨s, g, hl, hid, -, hctx⟩ := hp.granted p hold
        rw [← hid, ← contextText_of_context hctx, ← hp.digest _ _ _ hl]
        exact hi.boundTo hl
      · have hret : Returns cfg s pid (after cfg registry labels).shared p := hret
        cases hret with
        | @fresh g _ _ hl => exact hp.digest _ _ _ hl ▸ hi.boundTo hl
        | cached _ hg hb => exact ⟨_, hg.control, hb⟩
    exact ⟨_, rfl, hb, boundTo_stays hb⟩
  case contexts =>
    have hd := hp.digest _ _ _ h
    have hd' := hp.digest _ _ _ h'
    have hb := hi.boundTo h
    have hb' := hi.boundTo h'
    rw [hd] at hb
    rw [hd', ← contextText_of_context heq] at hb'
    exact hb.unique hi.valid hb'

end KzHome

import KzHome.Completion

/-!
# KzHome.Deadlines

When a command that became `applied` was in time.

The deadline is checked with one clock reading, and the instant of completion is
taken with a later one (`Processed.finishing`). A job that supplies the missing
half of the evidence (`Processed.Completes`) therefore completes its row even if
the deadline falls between the two; in a run where it never does, no success is
late, and otherwise one is (`no_late_success_iff`).
-/

namespace KzHome

open CommandService

variable {cfg : Config} {registry : Registry} {s pid : Nat} {a b : Shared}

/-! ### The instants a job reads -/

/-- What the clock of a row has to offer, reading by reading. -/
def Port.instants (p : Port) : Option ControlCommand → List (Option Instant)
  | none => p.sources.nows.map some
  | some _ => p.sources.ticks.map fun v => do
    let v ← v
    let anchor ← p.proc.authority.clock.anchor
    return p.proc.authority.clock.instantOf anchor v

section

variable {p p₁ p' : Port} {control : Option ControlCommand} {t : Instant}

/-- A tick takes one instant. -/
theorem tick_instants {record : ControlCommand} {v : Int} {u : Timing}
    (h : ControlClock.tick.run p.timing = (.ok v, u)) :
    p.instants (some record) =
      (p.proc.authority.clock.anchor.map fun anchor =>
        p.proc.authority.clock.instantOf anchor v) :: (p.withTiming u).instants (some record) := by
  obtain ⟨-, -, rest, hrest, -, rfl⟩ := ControlClock.tick_ok.mp h
  have hticks : p.sources.ticks = some v :: rest := hrest
  simp only [Port.instants, Port.withTiming, Port.timing, hticks, List.map_cons,
    ControlClock.instantOf]
  cases p.proc.authority.clock.anchor <;> rfl

theorem eventTime_instants (h : (eventTime control).run p = (.ok t, p')) :
    p.instants control = some t :: p'.instants control := by
  cases control with
  | none =>
      have hn := now_ok h
      simp [Port.instants, hn]
  | some record =>
      obtain ⟨u, hr, rfl⟩ := ControlAuthority.clocked_ok.mp h
      obtain ⟨v, anchor, htick, ha, rfl⟩ := ControlClock.logicalNow_ok.mp hr
      have hanchor : p.proc.authority.clock.anchor = some anchor := ha
      rw [tick_instants htick, hanchor]
      rfl

theorem overdue_instants {row : DeviceCommand} (h : (overdue row control).run p = (.ok false, p')) :
    ∃ o, p.instants control = o :: p'.instants control := by
  cases control with
  | none =>
      obtain ⟨t, p₁, ht, h⟩ := Call.run_bind_ok.mp h
      simp only [Call.run_pure, Prod.mk.injEq] at h
      obtain ⟨-, rfl⟩ := h
      exact ⟨some t, eventTime_instants (t := t) ht⟩
  | some record =>
      rcases ControlAuthority.expired_ok h with ⟨-, -, -, hb, -⟩ | ⟨-, w, v, u, -, htick, rfl, -⟩
      · cases hb
      · exact ⟨_, tick_instants htick⟩

/-- The last reading of a decision is the last one it took. -/
theorem eventTime_last (h₁ : p.Ticks p₁) (h : (eventTime none).run p₁ = (.ok t, p')) :
    ∃ earlier, consumed p.sources.nows p'.sources.nows = earlier ++ [t] := by
  obtain ⟨earlier, hpre⟩ := nows_suffix h₁
  have hnows : p₁.sources.nows = t :: p'.sources.nows := now_ok h
  refine ⟨earlier, (List.append_left_inj p'.sources.nows).mp ?_⟩
  rw [consumed_append ⟨earlier ++ [t], by simp [← hpre, hnows]⟩, ← hpre, hnows]
  simp

/-- Under control, it is the instant of the last tick. -/
theorem eventTime_reached {record : ControlCommand}
    (h : (eventTime (some record)).run p = (.ok t, p')) {x : Instant}
    (hx : p'.proc.authority.clock.Reached x) : x ≤ t := by
  obtain ⟨u, hr, rfl⟩ := ControlAuthority.clocked_ok.mp h
  obtain ⟨v, anchor, htick, ha, rfl⟩ := ControlClock.logicalNow_ok.mp hr
  obtain ⟨-, -, rest, hrest, -, rfl⟩ := ControlClock.tick_ok.mp htick
  obtain ⟨anchor', ha', hle⟩ := hx
  have hanchor : p.proc.authority.clock.anchor = some anchor' := ha'
  obtain rfl : anchor = anchor' := Option.some.inj (ha.symm.trans hanchor)
  exact hle

end

/-- The job supplies the missing half of the evidence: its deadline check passes, its
message counts, and the other half stands. -/
def Processed.Completes (e : Processed) : Prop :=
  e.row.status.pending = true ∧ ((overdue e.row e.control).run e.port).1 = .ok false ∧
  permitEvidence e.control = true ∧
  match e.job with
  | .ack _ _ envelope retained =>
    eligible e.row retained = true ∧ envelope.status = .applied ∧
      e.row.ackStatus ≠ some .applied ∧ e.row.stateReceivedAt.isSome = true ∧
      e.row.reportedOn = some e.row.requestedOn
  | .state _ _ envelope retained =>
    eligible e.row retained = true ∧
      Json.asBool (Json.member envelope.state "on") = some e.row.requestedOn ∧
      e.row.ackStatus = some .applied
  | _ => False

/-- The last reading that a completing job takes from its clock: the fifth, or the
fourth when the row has its dispatch instant already. -/
def Processed.finishing (e : Processed) : Option Instant :=
  let earlier := match e.job with
    | .ack .. => if e.row.dispatchedAt.isSome then 3 else 4
    | _ => 3
  (e.port.instants e.control)[earlier]?.join

/-- A completing job takes its last reading before the deadline. -/
def Processed.InTime (e : Processed) : Prop :=
  e.Completes → ∀ t, e.finishing = some t → t < e.row.expiresAt

/-! ### Completing jobs -/

section

variable {e : Processed} {port' : Port}

/-- Completing a row takes one more reading. -/
theorem CommandService.Confirmed.applied_inv {row result : DeviceCommand}
    {control : Option ControlCommand} {p p' : Port} (h : Confirmed row control p p' result)
    (hp : row.status.pending = true) (ha : result.status = .applied) :
    ∃ t, Confirmable row control ∧ (eventTime control).run p = (.ok t, p') ∧
      result = row.closed .applied none t := by
  cases h with
  | «open» _ _ => rw [ha] at hp; cases hp
  | applied hc ht => exact ⟨_, hc, ht, rfl⟩

/-- A row for which everything has been said is completed. -/
theorem CommandService.Confirmed.applied_of {row result : DeviceCommand}
    {control : Option ControlCommand} {p p' : Port} (h : Confirmed row control p p' result)
    (hc : Confirmable row control) : result.status = .applied := by
  cases h with
  | «open» hn _ => exact absurd hc hn
  | applied _ _ => rfl

/-- A decision that made a pending row `applied`: the job completed it, at the last
reading it took. -/
structure Finished (e : Processed) (port' : Port) : Prop where
  completes : e.Completes
  ack : e.row.ackStatus = some .applied ∧ e.result.ackReceivedAt = e.row.ackReceivedAt ∨
    e.result.ackReceivedAt.isSome = true
  state : e.result.stateReceivedAt.isSome = true
  last : ∃ p₁ t, e.port.Ticks p₁ ∧ (eventTime e.control).run p₁ = (.ok t, port') ∧
    e.result.completedAt = some t ∧ e.finishing = some t

/-- The readings of an acknowledgement that completes its row. -/
theorem Processed.finishing_ack {house device : String} {envelope : AckEnvelope} {retained : Bool}
    {p₁ p₂ p₃ : Port} {r u d t : Instant} (hj : e.job = .ack house device envelope retained)
    (ho : (overdue e.row e.control).run e.port = (.ok false, p₁))
    (hr : Reads (eventTime e.control) p₁ [r, u] p₂)
    (hd : (orRead e.row.dispatchedAt (eventTime e.control)).run p₂ = (.ok d, p₃))
    (ht : (eventTime e.control).run p₃ = (.ok t, port')) : e.finishing = some t := by
  obtain ⟨o, hno⟩ := overdue_instants ho
  obtain ⟨p₄, hr₁, p₅, hr₂, rfl⟩ := hr
  have h₁ := eventTime_instants hr₁
  have h₂ := eventTime_instants hr₂
  have h₄ := eventTime_instants ht
  simp only [finishing, hj, hno, h₁, h₂]
  cases hdis : e.row.dispatchedAt with
  | some d₀ =>
      rw [hdis] at hd
      simp only [orRead, Call.run_pure, Prod.mk.injEq] at hd
      obtain ⟨-, rfl⟩ := hd
      simp [h₄]
  | none =>
      rw [hdis] at hd
      have h₃ := eventTime_instants hd
      simp [h₃, h₄]

/-- The readings of a state report that completes its row. -/
theorem Processed.finishing_state {house device : String} {envelope : StateEnvelope}
    {retained : Bool} {p₁ p₂ : Port} {r u t : Instant}
    (hj : e.job = .state house device envelope retained)
    (ho : (overdue e.row e.control).run e.port = (.ok false, p₁))
    (hr : Reads (eventTime e.control) p₁ [r, u] p₂)
    (ht : (eventTime e.control).run p₂ = (.ok t, port')) : e.finishing = some t := by
  obtain ⟨o, hno⟩ := overdue_instants ho
  obtain ⟨p₄, hr₁, p₅, hr₂, rfl⟩ := hr
  simp only [finishing, hj, hno, eventTime_instants hr₁, eventTime_instants hr₂,
    eventTime_instants ht]
  simp

theorem Decided.finished (hd : Decided e.row e.control e.port port' e.job e.result)
    (hp : e.row.status.pending = true) (ha : e.result.status = .applied) :
    Finished e port' := by
  obtain ⟨job, row, control, port, result, submission⟩ := e
  dsimp only at hd hp ha
  cases hd with
  | terminal hn => rw [hp] at hn; cases hn
  | late => cases ha
  | ignored => rw [ha] at hp; cases hp
  | published => cases ha
  | unpublished => cases ha
  | refused => cases ha
  | @acknowledged house device envelope retained r u d p₁ p₂ p₃ _ _ ho he hn hperm hnew hr hd hc =>
      obtain ⟨t, ⟨hack, hpe, hst, hon⟩, ht, rfl⟩ := hc.applied_inv rfl ha
      have hst' : envelope.status = .applied := Option.some.inj hack
      refine ⟨⟨hp, by rw [ho], hpe, he, hst', hnew.1, hst, hon⟩, Or.inr rfl, hst, p₃, t, ?_, ht,
        rfl, Processed.finishing_ack rfl ho hr hd ht⟩
      exact (((overdue_moves row control).of_run ho).trans
        (hr.ticks (eventTime_moves control))).trans
          ((orRead_moves (eventTime_moves control) row.dispatchedAt).of_run hd)
  | @reported house device envelope retained on r u p₁ p₂ _ _ ho he hperm hon hr hc =>
      obtain ⟨t, ⟨hack, hpe, -, hrep⟩, ht, rfl⟩ := hc.applied_inv hp ha
      have hrep' : on = row.requestedOn := Option.some.inj hrep
      refine ⟨⟨hp, by rw [ho], hpe, he, hrep' ▸ hon, hack⟩, Or.inl ⟨hack, rfl⟩, rfl, p₂, t, ?_, ht,
        rfl, Processed.finishing_state rfl ho hr ht⟩
      exact ((overdue_moves row control).of_run ho).trans (hr.ticks (eventTime_moves control))

/-- A job that completes its row makes it `applied`. -/
theorem Decided.completes (hd : Decided e.row e.control e.port port' e.job e.result)
    (hc : e.Completes) : e.result.status = .applied := by
  obtain ⟨job, row, control, port, result, submission⟩ := e
  obtain ⟨hp, ho, hperm, hjob⟩ := hc
  dsimp only at hd hp ho hperm hjob ⊢
  cases hd with
  | terminal hn => rw [hp] at hn; cases hn
  | late _ ho' => rw [ho'] at ho; cases ho
  | ignored _ _ hi =>
      cases job with
      | read => cases hjob
      | settle => cases hjob
      | ack house device envelope retained =>
          obtain ⟨he, hst, hnew, -, -⟩ := hjob
          rcases hi with hi | ⟨-, hi⟩ | ⟨-, hi | hi⟩
          · rw [he] at hi; cases hi
          · rw [hperm] at hi; cases hi
          · exact absurd hi hnew
          · exact absurd (hst ▸ hi) hnew
      | state house device envelope retained =>
          obtain ⟨he, hon, -⟩ := hjob
          rcases hi with hi | hi | hi
          · rw [hon] at hi; cases hi
          · rw [he] at hi; cases hi
          · rw [hperm] at hi; cases hi
  | published => cases hjob
  | unpublished => cases hjob
  | refused _ _ _ hn => rw [hjob.2.1] at hn; cases hn
  | acknowledged _ _ _ _ _ _ _ _ hc =>
      obtain ⟨-, hst, -, hrec, hon⟩ := hjob
      exact hc.applied_of ⟨congrArg some hst, hperm, hrec, hon⟩
  | reported _ _ _ _ hon _ hc =>
      obtain ⟨-, hon', hack⟩ := hjob
      rw [hon] at hon'
      exact hc.applied_of ⟨hack, hperm, rfl, hon'⟩

/-- An acknowledged row has the instant of its acknowledgement. -/
theorem Decided.acked (hd : Decided e.row e.control e.port port' e.job e.result)
    (h : e.row.ackStatus = some .applied → e.row.ackReceivedAt.isSome = true)
    (ha : e.result.ackStatus = some .applied) : e.result.ackReceivedAt.isSome = true := by
  obtain ⟨job, row, control, port, result, submission⟩ := e
  dsimp only at hd h ha ⊢
  cases hd with
  | acknowledged _ _ _ _ _ _ _ _ hc => cases hc <;> rfl
  | reported _ _ _ _ _ _ hc => cases hc <;> exact h ha
  | refused => rfl
  | _ => exact h ha

end

/-! ### Completed rows -/

/-- Every acknowledged row has the instant of its acknowledgement, and every
`applied` row was made so by a job. -/
structure Completions (db : Ledger) (log : List Event) : Prop where
  acked : ∀ row ∈ db.commands, row.ackStatus = some .applied → row.ackReceivedAt.isSome = true
  applied : ∀ row ∈ db.commands, row.status = .applied →
    ∃ e, .processed e ∈ log ∧ e.result = row ∧ e.row.status.pending = true

theorem Does.completions (hi : Inv a) (h : Completions a.db a.log) (hd : Does cfg s pid a b) :
    Completions b.db b.log := by
  have hlog := hd.log_subset hi
  have hold : ∀ {row}, row ∈ a.db.commands → row.status = .applied →
      ∃ e, .processed e ∈ b.log ∧ e.result = row ∧ e.row.status.pending = true := by
    intro row hr hs
    obtain ⟨e, he, hres⟩ := h.applied row hr hs
    exact ⟨e, hlog he, hres⟩
  refine ⟨fun row hr => ?_, fun row hr hs => ?_⟩
  · cases hd.row_origin hr with
    | old hr => exact h.acked row hr
    | new _ _ ha => rw [ha]; exact fun hn => by cases hn
    | processed e hj _ hres =>
        obtain ⟨port', hdec, -⟩ := hj.decided
        rw [hres]
        exact (Job.decided hdec).acked (h.acked e.row (hj.holds.mem hi.valid))
    | staged row₀ hh _ _ hres => rw [hres]; exact h.acked row₀ (hh.mem hi.valid)
  · cases hd.row_origin hr with
    | old hr => exact hold hr hs
    | new _ hp _ => rw [hs] at hp; cases hp
    | processed e hj hl hres =>
        subst hres
        cases hp : e.row.status.pending with
        | true => exact ⟨e, hl, rfl, hp⟩
        | false =>
            have heq := hj.lifecycle.terminal hp
            rw [heq] at hs ⊢
            exact hold (hj.holds.mem hi.valid) hs
    | staged row₀ _ hp _ hres =>
        rw [hres] at hs
        rw [show row₀.status = .applied from hs] at hp
        cases hp

theorem completions (cfg : Config) (registry : Registry) (labels : List Label) :
    Completions (after cfg registry labels).shared.db (after cfg registry labels).shared.log :=
  after_ledger (P := Completions) ⟨fun _ h => (by cases h), fun _ h => (by cases h)⟩
    (fun hi h hd => hd.completions hi h) labels

/-- **The instant of completion is the last of the evidence**, if the readings never
go back. -/
theorem Judged.latest {e : Processed} (hj : Judged s pid a e)
    (hmono : a.readings.Pairwise (· ≤ ·)) {port' : Port}
    (hd : (e.job.decide e.row e.control).run e.port = (.ok e.result, port'))
    (hf : Finished e port') {t x : Instant} (hc : e.result.completedAt = some t)
    (hx : x ∈ e.result.evidenceTimes) : x ≤ t := by
  obtain ⟨port, hd', -, before, hpre, hbefore⟩ := hj.decided
  obtain rfl : port = port' := by
    rw [hd] at hd'; exact (Prod.mk.inj hd').2.symm
  obtain ⟨p₁, t', hticks, ht, hct, -⟩ := hf.last
  obtain rfl : t' = t := Option.some.inj (hct.symm.trans hc)
  have htimes := (Job.decided hd).times hx
  cases hcon : e.control with
  | none =>
      rw [hcon] at ht htimes
      have hmem : x ∈ before ++ consumed e.port.sources.nows port.sources.nows := by
        rcases htimes with hx | ⟨hst, -⟩
        · exact List.mem_append_left _ (hbefore hcon x hx)
        · exact List.mem_append_right _ (hst.direct rfl)
      obtain ⟨earlier, hlast⟩ := eventTime_last hticks ht
      rw [hlast, ← List.append_assoc] at hpre hmem
      have hsorted := hmono.sublist hpre.sublist
      rcases List.mem_append.mp hmem with hx | hx
      · exact (List.pairwise_append.mp hsorted).2.2 x hx t' (List.mem_singleton.mpr rfl)
      · rw [List.mem_singleton.mp hx]
  | some record =>
      have hown : record.authorityEpoch = e.port.proc.authority.clock.epoch := by
        obtain ⟨-, hover, -⟩ := hf.completes
        cases hr : (overdue e.row e.control).run e.port with
        | mk r p =>
            rw [hr] at hover
            obtain rfl : r = .ok false := hover
            rw [hcon] at hr
            exact epoch_of_overdue hr
      rw [hcon] at ht htimes
      refine eventTime_reached ht ?_
      rcases htimes with hx | ⟨hst, -⟩
      · exact (hj.reached record hcon hown x hx).later
          ((Job.decide_moves e.job e.row e.control).of_run hd).later
      · exact hst.ticked rfl

/-- No success of the ledger is late. -/
def NoLate (db : Ledger) : Prop :=
  ∀ row ∈ db.commands, row.status = .applied →
    ∃ completed acked reported, row.completedAt = some completed ∧
      row.ackReceivedAt = some acked ∧ row.stateReceivedAt = some reported ∧
      completed < row.expiresAt ∧ acked < row.expiresAt ∧ reported < row.expiresAt

theorem readings_grow (cfg : Config) (registry : Registry) (labels more : List Label) :
    (after cfg registry labels).shared.readings <+:
      (after cfg registry (labels ++ more)).shared.readings :=
  after_related (R := fun a b => a.readings <+: b.readings) (fun _ => List.prefix_refl _)
    List.IsPrefix.trans (fun hi hd => (hd.frame hi).readings) (fun _ => List.prefix_refl _)
    (fun _ ha => by simp only [(act_frame ha).2.2.2, List.prefix_refl]) labels more

/-- **When no success is late.** In a run whose clock readings never go back, no state
that was reached has a late success exactly when every job that completed its row
took its last reading before the deadline. -/
theorem no_late_success_iff (cfg : Config) (registry : Registry) (labels : List Label)
    (hmono : (after cfg registry labels).shared.readings.Pairwise (· ≤ ·)) :
    (∀ before rest, labels = before ++ rest → NoLate (after cfg registry before).shared.db) ↔
      ∀ e, .processed e ∈ (after cfg registry labels).shared.log → e.InTime := by
  constructor
  · intro hlate e he hc t ht
    obtain ⟨before, l, rest, s, pid, rfl, -, hj, hmem, -⟩ := noted_at he
    obtain ⟨port', hd, -⟩ := hj.decided
    have hdec := Job.decided hd
    have happ := hdec.completes hc
    obtain ⟨-, t', -, -, hct, hfin⟩ := (hdec.finished hc.1 happ).last
    obtain rfl : t' = t := Option.some.inj (hfin.symm.trans ht)
    obtain ⟨c, -, -, hcc, -, -, hlt, -⟩ := hlate (before ++ [l]) rest (by simp) e.result hmem happ
    obtain rfl : c = t' := Option.some.inj (hcc.symm.trans hct)
    have hexp : e.result.expiresAt = e.row.expiresAt :=
      congrArg (·.2.2.2.2.2.2.2.2) hj.lifecycle.fixed
    rwa [hexp] at hlt
  · rintro htime before rest rfl row hr hs
    obtain ⟨e, he, rfl, hp⟩ := (completions cfg registry before).applied row hr hs
    have hintime := htime e ((log_grows cfg registry before rest).subset he)
    obtain ⟨earlier, l, more, s, pid, rfl, -, hj, -⟩ := noted_at he
    obtain ⟨port', hd, -⟩ := hj.decided
    have hdec := Job.decided hd
    have hf := hdec.finished hp hs
    have hexp : e.result.expiresAt = e.row.expiresAt :=
      congrArg (·.2.2.2.2.2.2.2.2) hj.lifecycle.fixed
    obtain ⟨-, t, -, -, hct, hfin⟩ := hf.last
    have hlt : t < e.result.expiresAt := hexp ▸ hintime hf.completes t hfin
    -- the acknowledgement was there before, or came with this job
    have hack : e.result.ackReceivedAt.isSome = true := by
      rcases hf.ack with ⟨ha, heq⟩ | h
      · rw [heq]
        exact (completions cfg registry earlier).acked e.row
          (hj.holds.mem (after_inv cfg registry earlier).valid) ha
      · exact h
    obtain ⟨x, hx⟩ := Option.isSome_iff_exists.mp hack
    obtain ⟨y, hy⟩ := Option.isSome_iff_exists.mp hf.state
    have hsorted : (after cfg registry earlier).shared.readings.Pairwise (· ≤ ·) := by
      refine hmono.sublist ?_
      rw [List.append_assoc]
      exact (readings_grow cfg registry earlier _).sublist
    have hle : ∀ z ∈ e.result.evidenceTimes, z < e.result.expiresAt := fun z hz =>
      lt_of_le_of_lt (hj.latest hsorted hd hf hct hz) hlt
    exact ⟨t, x, y, hct, hx, hy, hlt, hle x (by simp [DeviceCommand.evidenceTimes, hx]),
      hle y (by simp [DeviceCommand.evidenceTimes, hy])⟩

namespace Household

/-- The lamp's state is reported one microsecond before the deadline, which passes
while the report is processed. -/
def lateReport : List Label :=
  .start 0 (.ack "home" "lamp" ⟨commandId, correlationId, .applied⟩ false) ::
    operate 1 5 7 "" ++
    .start 0 (.state "home" "lamp" ⟨correlationId, [("on", .bool true)]⟩ false) ::
    List.replicate 5
      (.exec 2 ⟨⟨[29999999, 30000000, 30000000, 30000000], [], [], []⟩, "", true⟩)

theorem lateReport_readings :
    (after config tables (submit ++ lateReport)).shared.readings.Pairwise (· ≤ ·) := by
  decide +kernel

theorem lateReport_late : ¬ NoLate (after config tables (submit ++ lateReport)).shared.db := by
  have h : ∃ row ∈ (after config tables (submit ++ lateReport)).shared.db.commands,
      row.status = .applied ∧ row.completedAt = some row.expiresAt := by decide +kernel
  obtain ⟨row, hr, hs, hc⟩ := h
  intro hlate
  obtain ⟨c, -, -, hcc, -, -, hlt, -⟩ := hlate row hr hs
  obtain rfl := Option.some.inj (hc.symm.trans hcc)
  exact lt_irrefl _ hlt

end Household

open Household in
/-- The late report was not in time. -/
theorem no_late_success_iff_lamp :
    ∃ e, .processed e ∈ (after config tables (submit ++ lateReport)).shared.log ∧
      ¬ e.InTime := by
  by_contra hn
  push Not at hn
  exact lateReport_late ((no_late_success_iff config tables _ lateReport_readings).mpr hn _ []
    (List.append_nil _).symm)

open Household in
/-- A run whose readings never go back, with a success at its deadline. -/
theorem late_success_lamp :
    (after config tables (submit ++ lateReport)).shared.readings.Pairwise (· ≤ ·) ∧
      ¬ NoLate (after config tables (submit ++ lateReport)).shared.db :=
  ⟨lateReport_readings, lateReport_late⟩

end KzHome

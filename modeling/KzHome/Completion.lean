import KzHome.Lib.Evidence
import KzHome.Lib.Traces
import KzHome.Submissions

/-!
# KzHome.Completion

A command is `applied` exactly on two-sided evidence.

Each committed job says something about its row, or nothing (`Processed.item`),
judged by what it was given: the message, the row and control record it was
decided on, and the deadline check. The columns of a row are the tally of what
was said about it (`Tallies`); a job moves both together (`Decided.tallies`).
-/

namespace KzHome

open Session Evidence CommandService

/-! ### What a job says about its row -/

/-- What a committed job says about its row: a failed deadline check, a failed
publication and a negative acknowledgement stop it, and the two kinds of evidence
count while the row is pending and, under control, after its permit was bound. -/
def Processed.item (e : Processed) : Option (Item Bool) :=
  if e.row.status.pending = false then none
  else match ((overdue e.row e.control).run e.port).1 with
  | .error _ => none
  | .ok true => some .stop
  | .ok false =>
    match e.job with
    | .read => none
    | .settle published => if published then none else some .stop
    | .ack house device envelope retained =>
      if retained ∨ ¬ (e.row.commandId = envelope.commandId
          ∧ e.row.correlationId = envelope.correlationId ∧ e.row.houseId = house
          ∧ e.row.deviceId = device) then none
      else if envelope.status.negative then
        if eligible e.row retained then some .stop else none
      else if envelope.status = .applied ∧ permitEvidence e.control = true then some .affirm
      else none
    | .state house device envelope retained =>
      if retained ∨ ¬ (e.row.correlationId = envelope.correlationId ∧ e.row.houseId = house
          ∧ e.row.deviceId = device) ∨ permitEvidence e.control = false then none
      else (Json.asBool (Json.member envelope.state "on")).map .report

/-- What an event says about the row of a command. -/
def Event.evidence (id : String) : Event → Option (Item Bool)
  | .processed e => if e.row.commandId = id then e.item else none
  | _ => none

/-- Everything that was said about the row of a command, in order. -/
def evidence (id : String) (log : List Event) : List (Item Bool) :=
  log.filterMap (Event.evidence id)

theorem evidence_append (id : String) (log more : List Event) :
    evidence id (log ++ more) = evidence id log ++ evidence id more :=
  List.filterMap_append

/-! ### The columns are the tally -/

/-- How a status shows in the tally. -/
def CommandStatus.outcome : CommandStatus → Option Outcome
  | .applied => some .complete
  | .failed | .timedOut => some .stopped
  | .queued | .dispatched => none

/-- The two halves of a pending row: what was affirmed and reported so far, and not
enough to complete it. -/
structure Halves (row : DeviceCommand) (t : Tally Bool) : Prop where
  affirmed : t.affirmed = true ↔ row.ackStatus = some .applied
  reported : t.reported = row.reportedOn
  received : row.reportedOn.isSome = true → row.stateReceivedAt.isSome = true
  unsettled : ¬ (row.ackStatus = some .applied ∧ row.reportedOn = some row.requestedOn)

/-- The columns of a row are what the tally of its evidence says. -/
structure Tallies (row : DeviceCommand) (t : Tally Bool) : Prop where
  outcome : t.outcome = row.status.outcome
  halves : row.status.pending = true → Halves row t

theorem CommandStatus.outcome_eq_none {s : CommandStatus} : s.outcome = none ↔ s.pending = true := by
  cases s <;> simp [outcome, pending]

/-- Record what a job said, if anything. -/
def recorded (want : Bool) (t : Tally Bool) : Option (Item Bool) → Tally Bool
  | some item => t.record want item
  | none => t

/-- Recording on an open tally. -/
theorem record_open {want : Bool} {t : Tally Bool} (h : t.outcome = none) (item : Item Bool) :
    t.record want item = match item with
      | .affirm => { t with affirmed := true }.settle want
      | .report b => { t with reported := some b }.settle want
      | .stop => { t with outcome := some .stopped } := by
  cases item <;> simp [Tally.record, h]

/-- Completing a row and settling its tally are the same decision. -/
theorem CommandService.Confirmed.tallies {mid result : DeviceCommand} {control : Option ControlCommand}
    {p p' : Port} {t : Tally Bool} (h : Confirmed mid control p p' result)
    (hperm : permitEvidence control = true) (hmid : mid.status.pending = true)
    (ho : t.outcome = none) (haff : t.affirmed = true ↔ mid.ackStatus = some .applied)
    (hrep : t.reported = mid.reportedOn)
    (hrec : mid.reportedOn.isSome = true → mid.stateReceivedAt.isSome = true) :
    Tallies result (t.settle mid.requestedOn) := by
  have hiff : Confirmable mid control ↔ t.affirmed = true ∧ t.reported = some mid.requestedOn := by
    rw [haff, hrep]
    exact ⟨fun hc => ⟨hc.1, hc.2.2.2⟩, fun hc => ⟨hc.1, hperm, hrec (by rw [hc.2]; rfl), hc.2⟩⟩
  cases h with
  | «open» hn hp =>
      rw [hiff] at hn
      have hs : t.settle mid.requestedOn = t := if_neg hn
      rw [hs]
      refine ⟨ho.trans (CommandStatus.outcome_eq_none.mpr hmid).symm, fun _ =>
        ⟨haff, hrep, hrec, ?_⟩⟩
      rwa [haff, hrep] at hn
  | applied hc ht =>
      have hs : t.settle mid.requestedOn = { t with outcome := some .complete } :=
        if_pos (hiff.mp hc)
      rw [hs]
      exact ⟨rfl, fun hp => by simp [DeviceCommand.closed, CommandStatus.pending] at hp⟩

/-- A row that was closed without success. -/
theorem Tallies.stop {row : DeviceCommand} {t : Tally Bool} {want : Bool} (ho : t.outcome = none)
    (h : row.status.outcome = some .stopped) : Tallies row (t.record want .stop) := by
  rw [record_open ho]
  refine ⟨h.symm, fun hp => ?_⟩
  rw [CommandStatus.outcome_eq_none.mpr hp] at h
  cases h

section

variable {e : Processed} {port' : Port} {t : Tally Bool}

/-- What a pending row's deadline check leaves to look at. -/
theorem Processed.item_late {p₁ : Port} (hp : e.row.status.pending = true)
    (ho : (overdue e.row e.control).run e.port = (.ok true, p₁)) : e.item = some .stop := by
  simp [item, hp, ho]

/-- An own acknowledgement that passed the deadline check. -/
theorem Processed.item_ack {house device : String} {envelope : AckEnvelope} {retained : Bool}
    {p₁ : Port} (hp : e.row.status.pending = true)
    (ho : (overdue e.row e.control).run e.port = (.ok false, p₁))
    (hj : e.job = .ack house device envelope retained) (hr : e.job.Routes e.row) :
    e.item = if retained then none
      else if envelope.status.negative then
        if eligible e.row retained then some .stop else none
      else if envelope.status = .applied ∧ permitEvidence e.control = true then some .affirm
      else none := by
  rw [hj] at hr
  obtain ⟨h₁, h₂, h₃, h₄⟩ := hr
  simp [item, hp, ho, hj, h₁, h₂, h₃, h₄]

/-- An own state report that passed the deadline check. -/
theorem Processed.item_state {house device : String} {envelope : StateEnvelope} {retained : Bool}
    {p₁ : Port} (hp : e.row.status.pending = true)
    (ho : (overdue e.row e.control).run e.port = (.ok false, p₁))
    (hj : e.job = .state house device envelope retained) (hr : e.job.Routes e.row) :
    e.item = if retained ∨ permitEvidence e.control = false then none
      else (Json.asBool (Json.member envelope.state "on")).map .report := by
  rw [hj] at hr
  obtain ⟨h₁, h₂, h₃⟩ := hr
  simp [item, hp, ho, hj, h₁, h₂, h₃]

/-- A message that was not eligible said nothing: a row that was never staged has no
permit. -/
theorem ineligible {row : DeviceCommand} {control : Option ControlCommand} {retained : Bool}
    (hp : row.status.pending = true)
    (hst : row.dispatchStartedAt = none → permitEvidence control = false)
    (h : eligible row retained = false) : retained = true ∨ permitEvidence control = false := by
  cases retained with
  | true => exact Or.inl rfl
  | false =>
      refine Or.inr (hst ?_)
      simpa [eligible, hp] using h

/-- A job that leaves a pending row as it is leaves its tally as it is. -/
theorem Job.Inert.tallies {p₁ : Port} (hp : e.row.status.pending = true)
    (ho : (overdue e.row e.control).run e.port = (.ok false, p₁)) (hi : e.job.Inert e.row e.control)
    (hr : e.job.Routes e.row)
    (hst : e.row.dispatchStartedAt = none → permitEvidence e.control = false)
    (ht : Tallies e.row t) : recorded e.row.requestedOn t e.item = t := by
  have hopen : t.outcome = none := ht.outcome.trans (CommandStatus.outcome_eq_none.mpr hp)
  cases hj : e.job with
  | read =>
      have : e.item = none := by simp [Processed.item, hp, ho, hj]
      rw [this]; rfl
  | settle published => rw [hj] at hi; cases hi
  | ack house device envelope retained =>
      rw [Processed.item_ack hp ho hj hr]
      rw [hj] at hi
      cases retained with
      | true => rfl
      | false =>
          rcases hi with hel | ⟨happ, hperm⟩ | ⟨hneg, hack⟩
          · have hperm := (ineligible hp hst hel).resolve_left (by simp)
            simp [hel, hperm, recorded]
          · simp [happ, hperm, AckStatus.negative, recorded]
          · simp only [Bool.false_eq_true, if_false, hneg]
            split
            · -- affirmed again: it was affirmed before, and that was not enough
              rename_i hc
              have hack' : e.row.ackStatus = some .applied := by
                rcases hack with h | h
                · exact h
                · rw [h, hc.1]
              have hh := ht.halves hp
              have haff : t.affirmed = true := hh.affirmed.mpr hack'
              have hset : ¬ (t.affirmed = true ∧ t.reported = some e.row.requestedOn) := by
                rw [hh.affirmed, hh.reported]
                exact hh.unsettled
              simp only [recorded, record_open hopen]
              have hsame : { t with affirmed := true } = t := by rw [← haff]
              rw [hsame, Tally.settle, if_neg hset]
            · rfl
  | state house device envelope retained =>
      rw [Processed.item_state hp ho hj hr]
      rw [hj] at hi
      rcases hi with hon | hel | hperm
      · rw [hon]; split <;> rfl
      · rw [if_pos (ineligible hp hst hel)]; rfl
      · rw [if_pos (Or.inr hperm)]; rfl

/-- **A decision moves the row and its tally together.** -/
theorem Decided.tallies (hd : Decided e.row e.control e.port port' e.job e.result)
    (hr : e.job.Routes e.row)
    (hst : e.row.dispatchStartedAt = none → permitEvidence e.control = false)
    (ht : Tallies e.row t) : Tallies e.result (recorded e.row.requestedOn t e.item) := by
  have hopen : e.row.status.pending = true → t.outcome = none := fun hp =>
    ht.outcome.trans (CommandStatus.outcome_eq_none.mpr hp)
  generalize hj : e.job = job at hd
  generalize hres : e.result = result at hd
  cases hd with
  | terminal hp =>
      have : e.item = none := by simp [Processed.item, hp]
      rw [this]; exact ht
  | late hp ho =>
      rw [Processed.item_late hp ho, recorded]
      exact .stop (hopen hp) rfl
  | ignored hp ho hi =>
      rw [Job.Inert.tallies hp ho (hj ▸ hi) hr hst ht]
      exact ht
  | published hp ho hd hu =>
      have : e.item = none := by simp [Processed.item, hp, ho, hj]
      rw [this]
      have hh := ht.halves hp
      exact ⟨hopen hp, fun _ => ⟨hh.affirmed, hh.reported, hh.received, hh.unsettled⟩⟩
  | unpublished hp ho =>
      have : e.item = some .stop := by simp [Processed.item, hp, ho, hj]
      rw [this, recorded]
      exact .stop (hopen hp) rfl
  | refused hp ho he hn =>
      have : e.item = some .stop := by
        rw [Processed.item_ack hp ho hj hr, if_neg (by simp [eligible] at he; simp [he.1.1]),
          if_pos hn, if_pos he]
      rw [this, recorded]
      exact .stop (hopen hp) rfl
  | @acknowledged house device envelope retained r u d p₁ p₂ p₃ _ hp ho he hn hperm hnew hrd hdd hc =>
      have hh := ht.halves hp
      have hfresh : retained = false := by simp [eligible] at he; exact he.1.1
      rw [Processed.item_ack hp ho hj hr, hfresh, if_neg (by simp), if_neg (by simp [hn])]
      by_cases happ : envelope.status = .applied
      · rw [if_pos ⟨happ, hperm happ⟩, recorded, record_open (hopen hp)]
        exact hc.tallies (hperm happ) rfl (hopen hp)
          (by simp [DeviceCommand.sent, DeviceCommand.acked, happ]) hh.reported hh.received
      · -- an acceptance is no evidence, and cannot complete the row
        rw [if_neg fun h => happ h.1, recorded]
        cases hc with
        | «open» hno hpp =>
            refine ⟨hopen hp, fun _ => ⟨?_, hh.reported, hh.received, ?_⟩⟩
            · rw [hh.affirmed]
              simp [DeviceCommand.sent, DeviceCommand.acked, happ, hnew.1]
            · simp [DeviceCommand.sent, DeviceCommand.acked, happ]
        | applied hcon => exact absurd (Option.some.inj hcon.1) happ
  | @reported house device envelope retained on r u p₁ p₂ _ hp ho he hperm hon hrd hc =>
      have hh := ht.halves hp
      have hfresh : retained = false := by simp [eligible] at he; exact he.1.1
      rw [Processed.item_state hp ho hj hr, hfresh, if_neg (by simp [hperm]), hon, Option.map_some,
        recorded, record_open (hopen hp)]
      exact hc.tallies hperm hp (hopen hp) hh.affirmed rfl fun _ => rfl

end

/-! ### Over a run -/

/-- A row of the ledger is what its evidence says, and has no permit before it was
staged. -/
structure RowEvident (db : Ledger) (log : List Event) (row : DeviceCommand) : Prop where
  staged : row.dispatchStartedAt = none → permitEvidence (db.control? row.commandId) = false
  tallies : Tallies row (tally row.requestedOn (evidence row.commandId log))

/-- So are all of them, and every job was done on one of them. -/
structure Evident (db : Ledger) (log : List Event) : Prop where
  rows : ∀ row ∈ db.commands, RowEvident db log row
  known : ∀ e, .processed e ∈ log → ∃ row ∈ db.commands, row.commandId = e.row.commandId

section

variable {cfg : Config} {s pid : Nat} {a b : Shared}

/-- A row about which nothing was said. -/
theorem RowEvident.keep {db db' : Ledger} {log es : List Event} {row : DeviceCommand}
    (h : RowEvident db log row) (hes : evidence row.commandId es = [])
    (hc : db'.control? row.commandId = db.control? row.commandId ∨
      row.dispatchStartedAt.isSome = true) : RowEvident db' (log ++ es) row := by
  refine ⟨fun hn => ?_, ?_⟩
  · rcases hc with hc | hc
    · rw [hc]; exact h.staged hn
    · rw [hn] at hc; cases hc
  · rw [evidence_append, hes, List.append_nil]
    exact h.tallies

/-- A new row, about which nothing was said. -/
theorem RowEvident.fresh {db : Ledger} {log : List Event} {row : DeviceCommand}
    (he : evidence row.commandId log = []) (hp : row.status.pending = true)
    (hack : row.ackStatus = none) (hrep : row.reportedOn = none)
    (hst : row.dispatchStartedAt = none → permitEvidence (db.control? row.commandId) = false) :
    RowEvident db log row := by
  refine ⟨hst, ?_⟩
  rw [he]
  exact ⟨(CommandStatus.outcome_eq_none.mpr hp).symm, fun _ =>
    ⟨by simp [Tally.start, hack], by simp [Tally.start, hrep], by simp [hrep], by simp [hack]⟩⟩

/-- Nothing was said about a row that is not in the ledger. -/
theorem Evident.fresh {db : Ledger} {log : List Event} (h : Evident db log) {id : String}
    (hf : ∀ r ∈ db.commands, r.commandId ≠ id) : evidence id log = [] := by
  refine List.filterMap_eq_nil_iff.mpr fun e he => ?_
  cases e with
  | processed p =>
      obtain ⟨row, hr, hid⟩ := h.known p he
      exact if_neg fun heq => hf row hr (hid.trans heq)
  | _ => rfl

theorem Decided.dispatchStarted {row result : DeviceCommand} {control : Option ControlCommand}
    {p p' : Port} {job : Job} (h : Decided row control p p' job result) :
    result.dispatchStartedAt = row.dispatchStartedAt := by
  cases h with
  | acknowledged _ _ _ _ _ _ _ _ hc => cases hc <;> rfl
  | reported _ _ _ _ _ _ hc => cases hc <;> rfl
  | _ => rfl

/-- **A committed job**: its row is still what its evidence says. -/
theorem Judged.evident {e : Processed} (hi : Inv a) (h : Evident a.db a.log)
    (hj : Judged s pid a e) {db : Ledger} {es : List Event}
    (hc : db.control? e.row.commandId = a.db.control? e.row.commandId)
    (hes : evidence e.row.commandId es = []) :
    RowEvident db (a.log ++ .processed e :: es) e.result := by
  obtain ⟨port', hd, -⟩ := hj.decided
  have hdec := Job.decided hd
  have hrow := h.rows e.row (hj.holds.mem hi.valid)
  have hid : e.result.commandId = e.row.commandId := hj.lifecycle.commandId
  have hwant : e.result.requestedOn = e.row.requestedOn :=
    congrArg (·.2.2.2.2.2.2.1) hj.lifecycle.fixed
  have hst : e.row.dispatchStartedAt = none → permitEvidence e.control = false := by
    rw [← hj.control]; exact hrow.staged
  refine ⟨?_, ?_⟩
  · rw [hdec.dispatchStarted, hid, hc]
    exact hrow.staged
  · have hev : evidence e.row.commandId (a.log ++ .processed e :: es) =
        evidence e.row.commandId a.log ++ e.item.toList := by
      have hone : evidence e.row.commandId (.processed e :: es) = e.item.toList := by
        rw [show Event.processed e :: es = [.processed e] ++ es from rfl, evidence_append, hes,
          List.append_nil]
        simp only [evidence, List.filterMap_cons, List.filterMap_nil, Event.evidence, if_true]
        cases e.item <;> rfl
      rw [evidence_append, hone]
    rw [hid, hwant, hev]
    have := hdec.tallies hj.routes hst hrow.tallies
    cases hitem : e.item with
    | none => rw [hitem] at this; simpa [recorded] using this
    | some item =>
        rw [hitem] at this
        simpa [recorded, tally_snoc] using this

/-- Events that are no jobs say nothing. -/
theorem evidence_other {es : List Event} (hes : ∀ e ∈ es, ∀ p, e ≠ .processed p) (id : String) :
    evidence id es = [] := by
  refine List.filterMap_eq_nil_iff.mpr fun e he => ?_
  cases e with
  | processed p => exact absurd rfl (hes _ he p)
  | _ => rfl

theorem Evident.note {db : Ledger} {log es : List Event} (h : Evident db log)
    (hes : ∀ e ∈ es, ∀ p, e ≠ .processed p) : Evident db (log ++ es) := by
  refine ⟨fun row hr => (h.rows row hr).keep (evidence_other hes _) (Or.inl rfl), fun p hp => ?_⟩
  rcases List.mem_append.mp hp with hp | hp
  · exact h.known p hp
  · exact absurd rfl (hes _ hp p)

/-- A commit, row by row: the row it overwrites, the row it inserts, and the rows it
leaves alone. -/
theorem Evident.commit {w : Ledger.Write} {db : Ledger} {es : List Event} (hi : Inv a)
    (h : Evident a.db a.log) (hc : Commit s a w db)
    (hu : ∀ u, w.update = some u → RowEvident db (a.log ++ es) u)
    (hins : ∀ i, w.insert = some i → RowEvident db (a.log ++ es) i)
    (hother : ∀ row ∈ a.db.commands, (∀ u ∈ w.update, row.commandId ≠ u.commandId) →
      evidence row.commandId es = [])
    (hbind : ∀ id b, w.bind = some (id, b) → ∀ row ∈ a.db.commands, row.commandId = id →
      row.dispatchStartedAt.isSome = true)
    (hknown : ∀ p, .processed p ∈ es → ∃ row ∈ a.db.commands, row.commandId = p.row.commandId) :
    Evident db (a.log ++ es) := by
  refine ⟨fun row hr => ?_, fun p hp => ?_⟩
  · rcases (Ledger.mem_commands_apply hc.applied).mp hr with ⟨hup, -⟩ | hin | ⟨hold, hne⟩
    · exact hu row hup
    · exact hins row hin
    · refine (h.rows row hold).keep (hother row hold hne) ?_
      by_cases hb : ∃ b, w.bind = some (row.commandId, b)
      · obtain ⟨b, hb⟩ := hb
        exact Or.inr (hbind _ b hb row hold rfl)
      · refine Or.inl (Ledger.control?_apply hc.applied hi.valid (fun id b hw heq => ?_)
          fun record hw heq => ?_)
        · exact hb ⟨b, heq ▸ hw⟩
        · obtain ⟨⟨i, hwi, hid⟩, -⟩ := hc.control record hw
          exact Ledger.insert_fresh hc.applied hwi row hold (heq.symm.trans hid)
  · obtain ⟨row, hr, hid⟩ : ∃ row ∈ a.db.commands, row.commandId = p.row.commandId :=
      (List.mem_append.mp hp).elim (h.known p) (hknown p)
    obtain ⟨row', hr', hid', -⟩ := hc.lifecycle hi.valid hr
    exact ⟨row', hr', hid'.trans hid⟩

/-- A job says nothing about other rows. -/
theorem Judged.evidence_other {e : Processed} (hj : Judged s pid a e) {id : String}
    (hne : id ≠ e.result.commandId) : evidence id [.processed e] = [] := by
  refine List.filterMap_eq_nil_iff.mpr fun x hx => ?_
  rw [List.mem_singleton.mp hx]
  exact if_neg fun heq => hne (heq.symm.trans hj.lifecycle.commandId.symm)

theorem Does.evident (hi : Inv a) (h : Evident a.db a.log) (hd : Does cfg s pid a b) :
    Evident b.db b.log := by
  cases hd with
  | @processed e db hj hs hdb =>
      show Evident db (a.log ++ [.processed e])
      refine h.commit hi (hj.commits hi hdb) (fun u hu => ?_) (fun _ h => (by cases h))
        (fun row _ hne => hj.evidence_other (hne _ rfl)) (fun _ _ h => (by cases h)) fun p hp => ?_
      · obtain rfl := Option.some.inj hu
        exact hj.evident hi h (Ledger.control?_apply hdb hi.valid (fun _ _ h => (by cases h))
          fun _ h => (by cases h)) rfl
      · obtain rfl : p = e := by simpa using hp
        exact ⟨p.row, hj.holds.mem hi.valid, rfl⟩
  | @created sub id correlation now freed db hid hf hdb =>
      have hfresh : ∀ r ∈ a.db.commands, r.commandId ≠ id := Ledger.insert_fresh hdb rfl
      have hcontrol : ∀ id, db.control? id = a.db.control? id := fun id =>
        Ledger.control?_apply hdb hi.valid (fun _ _ h => (by cases h)) fun _ h => (by cases h)
      have hnew : ∀ {es : List Event}, evidence id (a.log ++ es) = [] →
          RowEvident db (a.log ++ es) (Services.newRow sub id correlation now) := fun he =>
        .fresh he rfl rfl rfl fun hn => by cases hn
      cases freed with
      | none =>
          show Evident db (a.log ++ [.created s sub (Services.newRow sub id correlation now)])
          refine h.commit hi (created_commits hi (fun e he => (hf e he).1) hdb)
            (fun _ h => (by cases h)) (fun i hin => ?_) (fun _ _ _ => rfl)
            (fun _ _ h => (by cases h)) fun p hp => (by simp at hp)
          obtain rfl := Option.some.inj hin
          refine hnew ?_
          rw [evidence_append, h.fresh hfresh]
          rfl
      | some e =>
          obtain ⟨hj, -⟩ := hf e rfl
          show Evident db (a.log ++ [.processed e,
            .created s sub (Services.newRow sub id correlation now)])
          have hmem := hj.holds.mem hi.valid
          have hother : ∀ id', id' ≠ e.result.commandId → evidence id' [.processed e,
              .created s sub (Services.newRow sub id correlation now)] = [] := by
            intro id' hne
            rw [← List.singleton_append, evidence_append, hj.evidence_other hne]
            rfl
          refine h.commit hi (created_commits hi (fun e he => (hf e he).1) hdb)
            (fun u hu => ?_) (fun i hin => ?_) (fun row _ hne => hother _ (hne _ rfl))
            (fun _ _ h => (by cases h)) fun p hp => ?_
          · obtain rfl := Option.some.inj hu
            exact hj.evident hi h (hcontrol _) rfl
          · obtain rfl := Option.some.inj hin
            refine hnew ?_
            rw [evidence_append, h.fresh hfresh, hother]
            · rfl
            · exact fun heq => hfresh e.row hmem (hj.lifecycle.commandId.symm.trans heq.symm)
          · obtain rfl : p = e := by simpa using hp
            exact ⟨p.row, hmem, rfl⟩
  | @prepared row record window now tick db hp hdb =>
      show Evident db (a.log ++ [.prepared pid row record window])
      have hfresh := Ledger.insert_fresh hdb rfl
      refine h.commit (s := s) hi (hp.commits hdb) (fun _ h => (by cases h)) (fun i hin => ?_)
        (fun _ _ _ => rfl) (fun _ _ h => (by cases h)) fun p hp => (by simp at hp)
      obtain rfl := Option.some.inj hin
      obtain ⟨proc, anchor, -, -, -, -, rfl⟩ := hp.process
      obtain ⟨i, rfl⟩ := hp.intent
      refine .fresh ?_ hp.pending rfl rfl fun _ => ?_
      · rw [evidence_append, h.fresh hfresh]
        rfl
      · -- its record is the candidate, which is not bound
        have hmem := (Ledger.mem_controls_apply hdb hi.valid).mpr (Or.inl rfl)
        have hfound := (Ledger.control?_eq_some (Ledger.apply_valid hdb)).mpr
          ⟨hmem, show _ = i.row.commandId from rfl⟩
        rw [hfound]
        rfl
  | @staged row now db hh hp hn hg hdb =>
      show Evident db (a.log ++ [.staged row { row with dispatchStartedAt := some now }])
      refine h.commit hi (hh.staged_commits hi hp hdb) (fun u hu => ?_) (fun _ h => (by cases h))
        (fun _ _ _ => rfl) (fun _ _ h => (by cases h)) fun p hp => (by simp at hp)
      obtain rfl := Option.some.inj hu
      have hrow := (h.rows row (hh.mem hi.valid)).tallies
      refine ⟨fun hn => (by cases hn), ?_⟩
      rw [evidence_append, show evidence _ [Event.staged _ _] = [] from rfl, List.append_nil]
      refine ⟨hrow.outcome, fun hp => ?_⟩
      have hh := hrow.halves hp
      exact ⟨hh.affirmed, hh.reported, hh.received, hh.unsettled⟩
  | @bound g db hg hf hdb =>
      show Evident db (a.log ++ [.bound s pid g])
      refine h.commit hi (hg.commits hdb) (fun _ h => (by cases h)) (fun _ h => (by cases h))
        (fun _ _ _ => rfl) (fun id b hb row hr hid => ?_) fun p hp => (by simp at hp)
      obtain ⟨rfl, -⟩ := Prod.mk.inj (Option.some.inj hb)
      obtain rfl := Table.eq_of_key hi.valid.commandIds hr (hg.holds.mem hi.valid) hid
      exact hg.staged
  | ticked hp ht hs =>
      refine h.note fun e he p => ?_
      cases hs <;> simp at he <;> simp [he]
  | guarded => exact h.note (by simp)
  | snapshot => exact h.note (by simp)
  | cached => exact h.note (by simp)
  | replied => exact h.note (by simp)
  | dispatched => exact h.note (by simp)
  | denied => exact h.note (by simp)
  | delivered => exact h.note (by simp)
  | _ => exact h

end

theorem evident (cfg : Config) (registry : Registry) (labels : List Label) :
    Evident (after cfg registry labels).shared.db (after cfg registry labels).shared.log :=
  after_ledger (P := Evident) ⟨fun _ h => (by cases h), fun _ h => (by cases h)⟩
    (fun hi h hd => hd.evident hi h) labels

/-- A job was decided on the row and the control record that were committed at that
moment, and its message names the row. -/
theorem processed_at {cfg : Config} {registry : Registry} {labels : List Label} {e : Processed}
    (h : .processed e ∈ (after cfg registry labels).shared.log) :
    ∃ before rest, labels = before ++ rest ∧
      e.row ∈ (after cfg registry before).shared.db.commands ∧
      (after cfg registry before).shared.db.control? e.row.commandId = e.control ∧
      e.job.Routes e.row := by
  obtain ⟨before, l, rest, s, pid, rfl, -, hj, -⟩ := noted_at h
  exact ⟨before, l :: rest, rfl, hj.holds.mem (after_inv cfg registry before).valid, hj.control,
    hj.routes⟩

/-! ### Every message is treated -/

/-- The message that a call brings to the ledger. -/
def ServiceCall.message : ServiceCall → Option Job
  | .ack house device envelope retained => some (.ack house device envelope retained)
  | .state house device envelope retained => some (.state house device envelope retained)
  | _ => none

/-- The rows that a message is for. -/
def Job.selector : Job → Selector
  | .ack house device envelope _ =>
    .acked house device envelope.commandId envelope.correlationId
  | .state house device envelope _ => .reported house device envelope.correlationId
  | _ => .byId ""

/-- A call of a message looks for its row, and processes the message on it. -/
theorem ServiceCall.message_program {call : ServiceCall} {job : Job} (h : call.message = some job)
    (s pid : Nat) : call.program cfg s pid = (do
      match ← Program.find job.selector with
      | none => Program.rollback
      | some row =>
        let _ ← Services.process job none row) := by
  cases call <;> cases h <;> rfl

theorem ServiceCall.message_routes {call : ServiceCall} {job : Job} (h : call.message = some job)
    (row : DeviceCommand) : job.selector.matches row = true ↔ job.Routes row := by
  cases call <;> cases h <;>
    simp [Job.selector, Selector.matches, Job.Routes, and_assoc]

/-- What an operation of a call that is over did with its message. -/
inductive Treated (pid : Nat) (job : Job) (a b : Shared) : Except Error Unit → Prop
  /-- No row has the names of the message. -/
  | absent (h : ∀ row ∈ a.db.commands, ¬ job.Routes row) : Treated pid job a b (.ok ())
  /-- The job was committed. -/
  | committed (e : Processed) (hj : e.job = job) (hn : b.log = a.log ++ [.processed e]) :
      Treated pid job a b (.ok ())
  /-- A clock raised while the job was decided. -/
  | raised (row : DeviceCommand) (control : Option ControlCommand) (port : Port) (e : Error)
      (hr : job.Routes row) (hp : a.procs pid = some port.proc)
      (he : ((job.decide row control).run port).1 = .error e) : Treated pid job a b (.error e)
  /-- The database refused the row that was decided. -/
  | refused (row : DeviceCommand) (control : Option ControlCommand) (port : Port)
      (result : DeviceCommand) (e : Error) (hr : job.Routes row)
      (hd : ((job.decide row control).run port).1 = .ok result)
      (hdb : a.db.apply { update := some result } = none) : Treated pid job a b (.error e)

/-- **Every message is treated**: a call that was started for one and is over found no row for
it, or committed its job, or could not decide or commit it. -/
def MessagesTreated (cfg : Config) (registry : Registry) (labels : List Label) : Prop :=
  ∀ before pid call job more r, labels = before ++ .start pid call :: more →
    call.message = some job → ((after cfg registry before).shared.procs pid).isSome = true →
    (after cfg registry labels).sessions (after cfg registry before).started =
      some (pid, Prog.lift r) →
    ∃ mid input rest, labels = mid ++ .exec (after cfg registry before).started input :: rest ∧
      (before ++ [.start pid call]) <+: mid ∧
      Treated pid job (after cfg registry mid).shared
        (after cfg registry (mid ++ [.exec (after cfg registry before).started input])).shared r

section

open Leads

variable {α : Type} {xs : List (Performed sql Shared)}

/-- Code of the process, in a program that is over: it raised, or the program went on. -/
theorem over_compute {β : Type} {c : Call Port Error β} {f : Port × β → Program α}
    {r : Except Error α} (h : Leads (Program.compute c >>= f) xs (.lift r)) :
    ∃ (before : Shared) (g : Port → Port) (note : Port → List Event) (port : Port)
      (after : Shared) (ys : List (Performed sql Shared)),
      xs = ⟨before, Op.atomic g note, port, after⟩ :: ys ∧
      ((∃ e, (c.run port).1 = .error e ∧ r = .error e) ∨
        ∃ b, (c.run port).1 = .ok b ∧ Leads (f (port, b)) ys (.lift r)) := by
  obtain ⟨before, port, after, ys, rfl, hrest⟩ := over_call (I := sql) (o := Op.atomic _ _) h
  refine ⟨before, _, _, port, after, ys, rfl, ?_⟩
  simp only [Prog.bind] at hrest
  cases hrun : (c.run port).1 with
  | error e =>
      simp only [hrun] at hrest
      obtain ⟨-, hr⟩ := over_lift (x := .error e) hrest
      exact .inl ⟨e, rfl, hr.symm⟩
  | ok b =>
      simp only [hrun] at hrest
      exact .inr ⟨b, rfl, hrest⟩

/-- **A message that was processed and is over**: its job was committed, or it could not be. -/
theorem process_over {s pid : Nat} {job : Job} {row : DeviceCommand}
    {r : Except Error DeviceCommand} (hr : job.Routes row)
    (h : Leads (Services.process job none row) xs (.lift r))
    (hx : ∀ x ∈ xs, ∃ input, Shared.handle x.before s pid input x.op = some (x.ans, x.after)) :
    ∃ x ∈ xs, Treated pid job x.before x.after (r.map fun _ => ()) := by
  obtain ⟨_, db, _, ys, rfl, hread⟩ := over_call (I := sql) (o := Op.query _) h
  change Leads (Program.compute (job.decide row (db.control? row.commandId)) >>= _) ys _ at hread
  obtain ⟨a, g, note, port, b, zs, rfl, hdecide⟩ :=
    over_compute hread
  rcases hdecide with ⟨e, he, rfl⟩ | ⟨result, hresult, hdecided⟩
  · refine ⟨_, .tail _ (.head _), .raised row _ port e hr ?_ he⟩
    obtain ⟨input, hh⟩ := hx _ (.tail _ (.head _))
    obtain ⟨proc, hproc, hport⟩ := Option.map_eq_some_iff.mp hh
    obtain rfl : (⟨input.sources, proc⟩ : Port) = port := (Prod.mk.inj hport).1
    exact hproc
  · obtain ⟨a', refused, b', ws, rfl, hcommit⟩ :=
      over_call (I := sql) (o := Op.commit _ _) hdecided
    obtain ⟨input, hh⟩ := hx _ (.tail _ (.tail _ (.head _)))
    simp only [Shared.handle] at hh
    split at hh
    · obtain ⟨rfl, rfl⟩ := Prod.mk.inj (Option.some.inj hh)
      obtain ⟨-, rfl⟩ := over_lift (x := .ok result) hcommit
      exact ⟨_, .tail _ (.tail _ (.head _)), .committed _ rfl rfl⟩
    · rename_i hdb
      obtain ⟨hrefused, -⟩ := Prod.mk.inj (Option.some.inj hh)
      rw [← hrefused] at hcommit
      obtain ⟨-, rfl⟩ := over_lift (x := .error _) hcommit
      exact ⟨_, .tail _ (.tail _ (.head _)), .refused row _ port result _ hr hresult hdb⟩

/-- **A call of a message that is over** has treated it with one of its operations. -/
theorem message_over {s pid : Nat} {call : ServiceCall} {job : Job} {r : Except Error Unit}
    (hmessage : call.message = some job) (h : Leads (call.program cfg s pid) xs (.lift r))
    (hx : ∀ x ∈ xs, ∃ input, Shared.handle x.before s pid input x.op = some (x.ans, x.after)) :
    ∃ x ∈ xs, Treated pid job x.before x.after r := by
  rw [ServiceCall.message_program hmessage] at h
  obtain ⟨a, found, b, ys, rfl, hfound⟩ := over_call (I := sql) (o := Op.find _) h
  obtain ⟨input, hh⟩ := hx _ (.head _)
  simp only [Shared.handle] at hh
  split at hh
  · -- nothing was found, and the transaction is rolled back
    rename_i hnone
    obtain ⟨rfl, -⟩ := Prod.mk.inj (Option.some.inj hh)
    obtain ⟨_, _, _, zs, rfl, hback⟩ := over_call (I := sql) (o := Op.rollback) hfound
    obtain ⟨-, rfl⟩ := over_lift (x := .ok ()) hback
    refine ⟨_, .head _, .absent fun row hrow hroutes => ?_⟩
    have := List.find?_eq_none.mp hnone row hrow
    exact this ((ServiceCall.message_routes hmessage row).mpr hroutes)
  · rename_i row hrow
    obtain ⟨_, -, hr⟩ := Option.map_eq_some_iff.mp hh
    obtain ⟨rfl, -⟩ := Prod.mk.inj hr
    have hroutes := (ServiceCall.message_routes hmessage row).mp (List.find?_some hrow)
    rcases over_bind (m := Services.process job none row) hfound with
      ⟨e, rfl, hraised⟩ | ⟨result, zs, _, rfl, hdone, hend⟩
    · obtain ⟨x, hmem, htreated⟩ := process_over (r := .error e) hroutes hraised fun x hmem =>
        hx x (.tail _ hmem)
      exact ⟨x, .tail _ hmem, htreated⟩
    · obtain ⟨-, rfl⟩ := over_lift (x := .ok ()) hend
      obtain ⟨x, hmem, htreated⟩ := process_over (r := .ok result) hroutes hdone fun x hmem =>
        hx x (.tail _ (List.mem_append_left _ hmem))
      exact ⟨x, .tail _ (List.mem_append_left _ hmem), htreated⟩

end

/-- **Every message is treated**, in every run. -/
theorem messages_treated (cfg : Config) (registry : Registry) (labels : List Label) :
    MessagesTreated cfg registry labels := by
  rintro before pid call job more r rfl hmessage halive hover
  rw [after_append] at hover
  obtain ⟨-, xs, hleads, hplayed⟩ := performed_call (M := core) halive hover
  obtain ⟨x, hx, htreated⟩ := message_over hmessage hleads fun x hx => by
    obtain ⟨_, input, _, -, -, hh, -⟩ := hplayed.mem hx
    exact ⟨input, hh⟩
  obtain ⟨mid, input, rest, rfl, hbefore, -, hafter⟩ := hplayed.mem hx
  refine ⟨before ++ .start pid call :: mid, input, rest, by simp, ⟨mid, by simp⟩, ?_⟩
  have hb : (after cfg registry (before ++ .start pid call :: mid)).shared = x.before := by
    rw [after_append]
    exact hbefore
  have ha : (after cfg registry (before ++ .start pid call :: mid ++
      [.exec (after cfg registry before).started input])).shared = x.after := by
    rw [List.append_assoc, after_append]
    exact hafter
  rw [hb, ha]
  exact htreated

/-- **Completion is exactly two-sided evidence.** In every run, a committed row is
`applied` exactly when its history has a moment at which it had been affirmed, the
latest report was the requested value, and nothing had stopped it; the jobs of the
history were decided on the rows and control records committed at their time; and the
message of every call that is over is in that history, unless no row has its names or
the decision on it raised. -/
theorem applied_iff_completed (cfg : Config) (registry : Registry) (labels : List Label) :
    (∀ row ∈ (after cfg registry labels).shared.db.commands, row.status = .applied ↔
      Completed row.requestedOn
        (evidence row.commandId (after cfg registry labels).shared.log)) ∧
    (∀ e, .processed e ∈ (after cfg registry labels).shared.log →
      ∃ before rest, labels = before ++ rest ∧
        e.row ∈ (after cfg registry before).shared.db.commands ∧
        (after cfg registry before).shared.db.control? e.row.commandId = e.control ∧
        e.job.Routes e.row) ∧
    MessagesTreated cfg registry labels := by
  refine ⟨fun row hr => ?_, fun e he => processed_at he, messages_treated cfg registry labels⟩
  have ht := ((evident cfg registry labels).rows row hr).tallies
  rw [← complete_iff, ht.outcome]
  cases row.status <;> simp [CommandStatus.outcome]

open Household in
/-- The lamp's command is applied, and so it was completed; the call of its
acknowledgement has returned, and so the acknowledgement was treated. -/
theorem applied_iff_completed_lamp :
    (∃ row ∈ (after config tables (submit ++ answers 7 8)).shared.db.commands,
      row.status = .applied ∧ Completed row.requestedOn
        (evidence row.commandId (after config tables (submit ++ answers 7 8)).shared.log)) ∧
    ∃ mid input rest, submit ++ (answers 7 8).take 5 = mid ++ .exec 1 input :: rest ∧
      Treated 0 (.ack "home" "lamp" ⟨commandId, correlationId, .applied⟩ false)
        (after config tables mid).shared
        (after config tables (mid ++ [.exec 1 input])).shared (.ok ()) := by
  have h : ∃ row ∈ (after config tables (submit ++ answers 7 8)).shared.db.commands,
      row.status = .applied := by decide +kernel
  obtain ⟨row, hr, hs⟩ := h
  refine ⟨⟨row, hr, hs, ((applied_iff_completed config tables _).1 row hr).mp hs⟩, ?_⟩
  have hstarted : (after config tables submit).started = 1 := by decide +kernel
  have halive : ((after config tables submit).shared.procs 0).isSome = true := by decide +kernel
  have hsession : ((after config tables (submit ++ (answers 7 8).take 5)).sessions 1).any
      (fun m => m.1 = 0 ∧ m.2.returned = true) = true := by decide +kernel
  obtain ⟨⟨pid, m⟩, hm, hany⟩ := (Option.any_eq_true ..).mp hsession
  obtain ⟨rfl, hreturned⟩ : pid = 0 ∧ m.returned = true := of_decide_eq_true hany
  obtain rfl := Prog.eq_ret hreturned
  have htreated := (applied_iff_completed config tables (submit ++ (answers 7 8).take 5)).2.2
    submit 0 (.ack "home" "lamp" ⟨commandId, correlationId, .applied⟩ false) _ _ (.ok ()) rfl rfl
    halive (by rw [hstarted]; exact hm)
  rw [hstarted] at htreated
  obtain ⟨mid, input, rest, hlabels, -, h⟩ := htreated
  exact ⟨mid, input, rest, hlabels, h⟩

end KzHome

import KzHome.Memory

/-!
# KzHome.Decisions

What a job can do to a row, once and for all.

`Decided` lists the eight ways a decision can end, each with the checks that
were made, the readings that were taken and the row that comes out
(`Job.decided`). Everything later proofs need of `CommandService` is read off
this list: the life cycle of a row is here (`Decided.lifecycle`), its evidence
and its times are in the modules that are about them.
-/

namespace KzHome

namespace DeviceCommand

/-! ### The columns each path writes -/

/-- The columns that `finish` writes. -/
def closed (row : DeviceCommand) (status : CommandStatus) (code : Option FailureCode)
    (t : Instant) : DeviceCommand :=
  { row with status, failureCode := code, updatedAt := t, completedAt := some t }

/-- The columns an acknowledgement writes first. -/
def acked (row : DeviceCommand) (status : AckStatus) (received updated : Instant) :
    DeviceCommand :=
  { row with ackStatus := some status, ackReceivedAt := some received, updatedAt := updated }

/-- The columns of a row that is known to have been dispatched. -/
def sent (row : DeviceCommand) (t : Instant) : DeviceCommand :=
  { row with status := .dispatched, dispatchedAt := some t }

/-- The columns a state report writes. -/
def reported (row : DeviceCommand) (on : Bool) (received updated : Instant) : DeviceCommand :=
  { row with reportedOn := some on, stateReceivedAt := some received, updatedAt := updated }

end DeviceCommand

/-! ### Life cycle -/

/-- What one commit may do to a status. -/
inductive CommandStatus.Moves : CommandStatus → CommandStatus → Prop
  | stay (s : CommandStatus) : Moves s s
  | dispatch : Moves .queued .dispatched
  | finish {s s' : CommandStatus} (h : s.pending = true) (h' : s'.pending = false) : Moves s s'

/-- What one commit may do to a row: nothing once it is terminal, never anything to
its fixed columns, and its status only moves forward. -/
structure DeviceCommand.Lifecycle (row row' : DeviceCommand) : Prop where
  fixed : row'.fixedColumns = row.fixedColumns
  terminal : row.status.pending = false → row' = row
  status : row.status.Moves row'.status

theorem DeviceCommand.Lifecycle.refl (row : DeviceCommand) : row.Lifecycle row :=
  ⟨rfl, fun _ => rfl, .stay _⟩

theorem DeviceCommand.Lifecycle.of_pending {row row' : DeviceCommand}
    (hp : row.status.pending = true) (hf : row'.fixedColumns = row.fixedColumns)
    (hs : row.status.Moves row'.status) : row.Lifecycle row' :=
  ⟨hf, fun h => absurd h (by simp [hp]), hs⟩

/-- A pending row may become dispatched, or stay so. -/
theorem CommandStatus.Moves.to_dispatched {s : CommandStatus} (h : s.pending = true) :
    s.Moves .dispatched := by
  cases s with
  | queued => exact .dispatch
  | dispatched => exact .stay _
  | _ => cases h

/-! ### Decisions -/

namespace CommandService

/-- A chain of readings of one clock. -/
def Reads (c : Call Port Error Instant) : Port → List Instant → Port → Prop
  | p, [], p' => p' = p
  | p, t :: ts, p' => ∃ q, c.run p = (.ok t, q) ∧ Reads c q ts p'

/-- The condition of `confirm`. -/
def Confirmable (row : DeviceCommand) (control : Option ControlCommand) : Prop :=
  row.ackStatus = some .applied ∧ permitEvidence control = true ∧
    row.stateReceivedAt.isSome = true ∧ row.reportedOn = some row.requestedOn

/-- What `confirm` made of a row. -/
inductive Confirmed (row : DeviceCommand) (control : Option ControlCommand) (p p' : Port) :
    DeviceCommand → Prop
  | «open» (h : ¬ Confirmable row control) (hp : p' = p) : Confirmed row control p p' row
  | applied {t : Instant} (h : Confirmable row control)
      (ht : (eventTime control).run p = (.ok t, p')) :
      Confirmed row control p p' (row.closed .applied none t)

end CommandService

open CommandService in
/-- A job that leaves a pending row as it is once the deadline check has passed. -/
def Job.Inert (row : DeviceCommand) (control : Option ControlCommand) : Job → Prop
  | .read => True
  | .settle _ => False
  | .ack _ _ envelope retained =>
    eligible row retained = false ∨ (envelope.status = .applied ∧ permitEvidence control = false) ∨
      (envelope.status.negative = false ∧
        (row.ackStatus = some .applied ∨ row.ackStatus = some envelope.status))
  | .state _ _ envelope retained =>
    Json.asBool (Json.member envelope.state "on") = none ∨ eligible row retained = false ∨
      permitEvidence control = false

open CommandService in
/-- **The ways a decision can end.** -/
inductive Decided (row : DeviceCommand) (control : Option ControlCommand) (p p' : Port) :
    Job → DeviceCommand → Prop
  | terminal {job : Job} (h : row.status.pending = false) (hp : p' = p) :
      Decided row control p p' job row
  | late {job : Job} {t : Instant} {p₁ : Port} (hp : row.status.pending = true)
      (ho : (overdue row control).run p = (.ok true, p₁))
      (ht : (eventTime control).run p₁ = (.ok t, p')) :
      Decided row control p p' job (row.closed .timedOut (some .deadlineExceeded) t)
  | ignored {job : Job} (hp : row.status.pending = true)
      (ho : (overdue row control).run p = (.ok false, p')) (hi : job.Inert row control) :
      Decided row control p p' job row
  | published {d u : Instant} {p₁ p₂ : Port} (hp : row.status.pending = true)
      (ho : (overdue row control).run p = (.ok false, p₁))
      (hd : (orRead row.dispatchedAt now).run p₁ = (.ok d, p₂)) (hu : now.run p₂ = (.ok u, p')) :
      Decided row control p p' (.settle true) { row.sent d with updatedAt := u }
  | unpublished {t : Instant} {p₁ : Port} (hp : row.status.pending = true)
      (ho : (overdue row control).run p = (.ok false, p₁))
      (ht : (eventTime control).run p₁ = (.ok t, p')) :
      Decided row control p p' (.settle false) (row.closed .failed (some .publishUnconfirmed) t)
  | refused {house device : String} {envelope : AckEnvelope} {retained : Bool} {r u t : Instant}
      {p₁ : Port} (hp : row.status.pending = true)
      (ho : (overdue row control).run p = (.ok false, p₁)) (he : eligible row retained = true)
      (hn : envelope.status.negative = true) (hr : Reads (eventTime control) p₁ [r, u, t] p') :
      Decided row control p p' (.ack house device envelope retained)
        ((row.acked envelope.status r u).closed .failed (some (.device envelope.status)) t)
  | acknowledged {house device : String} {envelope : AckEnvelope} {retained : Bool}
      {r u d : Instant} {p₁ p₂ p₃ : Port} {result : DeviceCommand}
      (hp : row.status.pending = true) (ho : (overdue row control).run p = (.ok false, p₁))
      (he : eligible row retained = true) (hn : envelope.status.negative = false)
      (hperm : envelope.status = .applied → permitEvidence control = true)
      (hnew : row.ackStatus ≠ some .applied ∧ row.ackStatus ≠ some envelope.status)
      (hr : Reads (eventTime control) p₁ [r, u] p₂)
      (hd : (orRead row.dispatchedAt (eventTime control)).run p₂ = (.ok d, p₃))
      (hc : Confirmed ((row.acked envelope.status r u).sent d) control p₃ p' result) :
      Decided row control p p' (.ack house device envelope retained) result
  | reported {house device : String} {envelope : StateEnvelope} {retained : Bool} {on : Bool}
      {r u : Instant} {p₁ p₂ : Port} {result : DeviceCommand}
      (hp : row.status.pending = true) (ho : (overdue row control).run p = (.ok false, p₁))
      (he : eligible row retained = true) (hperm : permitEvidence control = true)
      (hon : Json.asBool (Json.member envelope.state "on") = some on)
      (hr : Reads (eventTime control) p₁ [r, u] p₂)
      (hc : Confirmed (row.reported on r u) control p₂ p' result) :
      Decided row control p p' (.state house device envelope retained) result

namespace CommandService

variable {row result : DeviceCommand} {control : Option ControlCommand} {p p' : Port}

theorem finish_ok {status : CommandStatus} {code : Option FailureCode}
    (h : (finish row control status code).run p = (.ok result, p')) :
    ∃ t, (eventTime control).run p = (.ok t, p') ∧ result = row.closed status code t := by
  obtain ⟨t, p₁, ht, h⟩ := Call.run_bind_ok.mp h
  simp only [Call.run_pure, Prod.mk.injEq, Except.ok.injEq] at h
  obtain ⟨rfl, rfl⟩ := h
  exact ⟨t, ht, rfl⟩

theorem confirm_ok (h : (confirm row control).run p = (.ok result, p')) :
    Confirmed row control p p' result := by
  unfold confirm at h
  split at h
  · rename_i hc
    obtain ⟨t, ht, rfl⟩ := finish_ok h
    exact .applied hc ht
  · rename_i hc
    simp only [Call.run_pure, Prod.mk.injEq, Except.ok.injEq] at h
    obtain ⟨rfl, rfl⟩ := h
    exact .«open» hc rfl

/-- The deadline check that begins every job: the row was terminal, or it was
found late and closed, or the check passed. -/
theorem expire_ok (h : (expire row control).run p = (.ok result, p')) :
    (row.status.pending = false ∧ result = row ∧ p' = p) ∨
    (row.status.pending = true ∧ ∃ t p₁, (overdue row control).run p = (.ok true, p₁) ∧
      (eventTime control).run p₁ = (.ok t, p') ∧
      result = row.closed .timedOut (some .deadlineExceeded) t) ∨
    (row.status.pending = true ∧ (overdue row control).run p = (.ok false, p') ∧
      result = row) := by
  unfold expire at h
  split at h
  · rename_i hp
    simp only [Call.run_pure, Prod.mk.injEq, Except.ok.injEq] at h
    obtain ⟨rfl, rfl⟩ := h
    exact Or.inl ⟨by simpa using hp, rfl, rfl⟩
  · rename_i hp
    have hp : row.status.pending = true := by simpa using hp
    obtain ⟨late, p₁, ho, h⟩ := Call.run_bind_ok.mp h
    cases late with
    | true =>
        rw [if_pos rfl] at h
        obtain ⟨t, ht, rfl⟩ := finish_ok h
        exact Or.inr (Or.inl ⟨hp, t, p₁, ho, ht, rfl⟩)
    | false =>
        simp only [Bool.false_eq_true, if_false, Call.run_pure, Prod.mk.injEq,
          Except.ok.injEq] at h
        obtain ⟨rfl, rfl⟩ := h
        exact Or.inr (Or.inr ⟨hp, ho, rfl⟩)

theorem settle_ok {published : Bool} (h : (settle row control published).run p = (.ok result, p')) :
    Decided row control p p' (.settle published) result := by
  obtain ⟨row₁, p₁, hx, hk⟩ := Call.run_bind_ok.mp h
  rcases expire_ok hx with ⟨hp, rfl, rfl⟩ | ⟨hp, t, q, ho, ht, rfl⟩ | ⟨hp, ho, rfl⟩
  · simp only [hp, Bool.not_false, if_true, Call.run_pure, Prod.mk.injEq, Except.ok.injEq] at hk
    obtain ⟨rfl, rfl⟩ := hk
    exact .terminal hp rfl
  · simp only [DeviceCommand.closed, CommandStatus.pending, Bool.not_false, if_true,
      Call.run_pure, Prod.mk.injEq, Except.ok.injEq] at hk
    obtain ⟨rfl, rfl⟩ := hk
    exact .late hp ho ht
  · simp only [hp, Bool.not_true, Bool.false_eq_true, if_false] at hk
    cases published with
    | true =>
        rw [if_pos rfl] at hk
        obtain ⟨d, p₂, hd, hk⟩ := Call.run_bind_ok.mp hk
        obtain ⟨u, p₃, hu, hk⟩ := Call.run_bind_ok.mp hk
        simp only [Call.run_pure, Prod.mk.injEq, Except.ok.injEq] at hk
        obtain ⟨rfl, rfl⟩ := hk
        exact .published hp ho hd hu
    | false =>
        rw [if_neg (by simp)] at hk
        obtain ⟨t, ht, rfl⟩ := finish_ok hk
        exact .unpublished hp ho ht

theorem eligible_closed {code : Option FailureCode} {t : Instant} {retained : Bool} :
    eligible (row.closed .timedOut code t) retained = false := by
  simp [eligible, DeviceCommand.closed, CommandStatus.pending]

theorem eligible_terminal {retained : Bool} (h : row.status.pending = false) :
    eligible row retained = false := by
  simp [eligible, h]

theorem ack_ok {house device : String} {envelope : AckEnvelope} {retained : Bool}
    (h : (ack row control envelope retained).run p = (.ok result, p')) :
    Decided row control p p' (.ack house device envelope retained) result := by
  obtain ⟨row₁, p₁, hx, hk⟩ := Call.run_bind_ok.mp h
  rcases expire_ok hx with ⟨hp, rfl, rfl⟩ | ⟨hp, t, q, ho, ht, rfl⟩ | ⟨hp, ho, rfl⟩
  · simp only [eligible_terminal hp, Bool.not_false, if_true, Call.run_pure, Prod.mk.injEq,
      Except.ok.injEq] at hk
    obtain ⟨rfl, rfl⟩ := hk
    exact .terminal hp rfl
  · simp only [eligible_closed, Bool.not_false, if_true, Call.run_pure,
      Prod.mk.injEq, Except.ok.injEq] at hk
    obtain ⟨rfl, rfl⟩ := hk
    exact .late hp ho ht
  · split at hk
    · rename_i he
      simp only [Call.run_pure, Prod.mk.injEq, Except.ok.injEq] at hk
      obtain ⟨rfl, rfl⟩ := hk
      exact .ignored hp ho (Or.inl (by simpa using he))
    rename_i he
    have he : eligible row₁ retained = true := by simpa using he
    split at hk
    · rename_i hperm
      simp only [Call.run_pure, Prod.mk.injEq, Except.ok.injEq] at hk
      obtain ⟨rfl, rfl⟩ := hk
      exact .ignored hp ho (Or.inr (Or.inl hperm))
    rename_i hperm
    split at hk
    · rename_i hcount
      obtain ⟨r, p₂, hr, hk⟩ := Call.run_bind_ok.mp hk
      obtain ⟨u, p₃, hu, hk⟩ := Call.run_bind_ok.mp hk
      dsimp only at hk
      split at hk
      · rename_i hn
        obtain ⟨t, ht, rfl⟩ := finish_ok hk
        exact .refused hp ho he hn ⟨p₂, hr, p₃, hu, p', ht, rfl⟩
      · rename_i hn
        obtain ⟨d, p₄, hd, hk⟩ := Call.run_bind_ok.mp hk
        refine .acknowledged hp ho he (by simpa using hn) (fun hst => ?_)
          (hcount.resolve_left hn) ⟨p₂, hr, p₃, hu, rfl⟩ hd (confirm_ok hk)
        by_contra hne
        exact hperm ⟨hst, by simpa using hne⟩
    · rename_i hcount
      simp only [Call.run_pure, Prod.mk.injEq, Except.ok.injEq] at hk
      obtain ⟨rfl, rfl⟩ := hk
      rw [not_or] at hcount
      refine .ignored hp ho (Or.inr (Or.inr ⟨by simpa using hcount.1, ?_⟩))
      by_contra hne
      rw [not_or] at hne
      exact hcount.2 hne

theorem state_ok {house device : String} {envelope : StateEnvelope} {retained : Bool}
    (h : (state row control envelope retained).run p = (.ok result, p')) :
    Decided row control p p' (.state house device envelope retained) result := by
  obtain ⟨row₁, p₁, hx, hk⟩ := Call.run_bind_ok.mp h
  cases hon : Json.asBool (Json.member envelope.state "on") with
  | none =>
      rw [hon] at hk
      simp only [Call.run_pure, Prod.mk.injEq, Except.ok.injEq] at hk
      obtain ⟨rfl, rfl⟩ := hk
      rcases expire_ok hx with ⟨hp, rfl, rfl⟩ | ⟨hp, t, q, ho, ht, rfl⟩ | ⟨hp, ho, rfl⟩
      · exact .terminal hp rfl
      · exact .late hp ho ht
      · exact .ignored hp ho (Or.inl hon)
  | some on =>
      rw [hon] at hk
      dsimp only at hk
      rcases expire_ok hx with ⟨hp, rfl, rfl⟩ | ⟨hp, t, q, ho, ht, rfl⟩ | ⟨hp, ho, rfl⟩
      · simp only [eligible_terminal hp, Bool.false_and, Bool.false_eq_true, if_false,
          Call.run_pure, Prod.mk.injEq, Except.ok.injEq] at hk
        obtain ⟨rfl, rfl⟩ := hk
        exact .terminal hp rfl
      · simp only [eligible_closed, Bool.false_and, Bool.false_eq_true,
          if_false, Call.run_pure, Prod.mk.injEq, Except.ok.injEq] at hk
        obtain ⟨rfl, rfl⟩ := hk
        exact .late hp ho ht
      · split at hk
        · rename_i hcount
          rw [Bool.and_eq_true] at hcount
          obtain ⟨r, p₂, hr, hk⟩ := Call.run_bind_ok.mp hk
          obtain ⟨u, p₃, hu, hk⟩ := Call.run_bind_ok.mp hk
          exact .reported hp ho hcount.1 hcount.2 hon ⟨p₂, hr, p₃, hu, rfl⟩ (confirm_ok hk)
        · rename_i hcount
          simp only [Call.run_pure, Prod.mk.injEq, Except.ok.injEq] at hk
          obtain ⟨rfl, rfl⟩ := hk
          rw [Bool.and_eq_true, not_and_or] at hcount
          refine .ignored hp ho (Or.inr ?_)
          simpa using hcount

end CommandService

/-- Every decision that returned is one of the listed ones. -/
theorem Job.decided {job : Job} {row result : DeviceCommand} {control : Option ControlCommand}
    {p p' : Port} (h : (job.decide row control).run p = (.ok result, p')) :
    Decided row control p p' job result := by
  cases job with
  | read =>
      rcases CommandService.expire_ok h with ⟨hp, rfl, rfl⟩ | ⟨hp, t, q, ho, ht, rfl⟩ | ⟨hp, ho, rfl⟩
      · exact .terminal hp rfl
      · exact .late hp ho ht
      · exact .ignored hp ho trivial
  | settle published => exact CommandService.settle_ok h
  | ack house device envelope retained => exact CommandService.ack_ok h
  | state house device envelope retained => exact CommandService.state_ok h

/-! ### The life cycle -/

theorem CommandService.Confirmed.lifecycle {row mid result : DeviceCommand}
    {control : Option ControlCommand} {p p' : Port} (h : Confirmed mid control p p' result)
    (hp : row.status.pending = true) (hf : mid.fixedColumns = row.fixedColumns)
    (hs : row.status.Moves mid.status) : row.Lifecycle result := by
  cases h with
  | «open» => exact .of_pending hp hf hs
  | applied => exact .of_pending hp hf (.finish hp rfl)

/-- **A job keeps to the life cycle** of its row. -/
theorem Decided.lifecycle {row result : DeviceCommand} {control : Option ControlCommand}
    {p p' : Port} {job : Job} (h : Decided row control p p' job result) : row.Lifecycle result := by
  cases h with
  | terminal => exact .refl row
  | late hp => exact .of_pending hp rfl (.finish hp rfl)
  | ignored => exact .refl row
  | published hp => exact .of_pending hp rfl (.to_dispatched hp)
  | unpublished hp => exact .of_pending hp rfl (.finish hp rfl)
  | refused hp => exact .of_pending hp rfl (.finish hp rfl)
  | acknowledged hp ho he hn hperm hnew hr hd hc =>
      exact hc.lifecycle hp rfl (.to_dispatched hp)
  | reported hp ho he hperm hon hr hc => exact hc.lifecycle hp rfl (.stay _)

end KzHome

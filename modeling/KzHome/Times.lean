import KzHome.Decisions
import KzHome.Operations

/-!
# KzHome.Times

Which clock readings end up in the columns of a row.

A row without a control record gets readings of `CommandService.now`, and the
ones a decision takes are exactly those by which it shortens its source
(`consumed`). A row under control gets instants of its own authority's clock,
which are never after the last tick of that clock (`ControlClock.Reached`).
-/

namespace KzHome

open CommandService

/-! ### Readings that were taken -/

theorem consumed_append {before after : List Instant} (h : after <:+ before) :
    consumed before after ++ after = before := by
  obtain ⟨pre, rfl⟩ := h
  simp [consumed]

/-- A reading taken on the way was taken. -/
theorem mem_consumed {p p₁ p₂ p' : List Instant} {t : Instant} (h₁ : p₁ <:+ p)
    (ht : p₁ = t :: p₂) (h₂ : p' <:+ p₂) : t ∈ consumed p p' := by
  obtain ⟨pre, rfl⟩ := h₁
  obtain ⟨mid, rfl⟩ := h₂
  subst ht
  have : consumed (pre ++ t :: (mid ++ p')) p' = pre ++ t :: mid := by
    refine (List.append_left_inj p').mp ?_
    rw [consumed_append ⟨pre ++ t :: mid, by simp⟩]
    simp
  rw [this]
  simp

/-- An instant is not after the last tick of a clock. -/
def ControlClock.Reached (c : ControlClock) (t : Instant) : Prop :=
  ∃ anchor, c.anchor = some anchor ∧ t ≤ c.instantOf anchor c.last

theorem ControlClock.Reached.later {a b : Proc} {t : Instant} (h : a.Later b)
    (hr : a.authority.clock.Reached t) : b.authority.clock.Reached t := by
  obtain ⟨anchor, ha, hle⟩ := hr
  refine ⟨anchor, h.anchor.trans ha, hle.trans ?_⟩
  simp only [ControlClock.instantOf, h.start]
  exact Int.add_le_add_left (Int.sub_le_sub_right h.last _) anchor

/-- The instants at which evidence was received. -/
def DeviceCommand.evidenceTimes (row : DeviceCommand) : List Instant :=
  row.ackReceivedAt.toList ++ row.stateReceivedAt.toList

namespace CommandService

variable {p p₁ p₂ p' : Port} {t : Instant} {control : Option ControlCommand}

theorem now_ok (h : now.run p = (.ok t, p')) : p.sources.nows = t :: p'.sources.nows := by
  obtain ⟨u, hr, rfl⟩ := ControlAuthority.clocked_ok.mp h
  obtain ⟨rest, hrest, rfl⟩ := ControlClock.readNow_ok.mp hr
  exact hrest

theorem nows_suffix (h : p.Ticks p') : p'.sources.nows <:+ p.sources.nows := h.clock.nows

/-- Where a reading of `event_time` between `p` and `p'` came from. -/
structure Stamped (control : Option ControlCommand) (p p' : Port) (t : Instant) : Prop where
  direct : control = none → t ∈ consumed p.sources.nows p'.sources.nows
  ticked : control.isSome = true → p'.proc.authority.clock.Reached t

theorem eventTime_stamped (h₁ : p.Ticks p₁) (h : (eventTime control).run p₁ = (.ok t, p₂))
    (h₂ : p₂.Ticks p') : Stamped control p p' t := by
  cases control with
  | none =>
      exact ⟨fun _ => mem_consumed (nows_suffix h₁) (now_ok h) (nows_suffix h₂),
        fun hs => absurd hs (by simp)⟩
  | some record =>
      refine ⟨fun hn => absurd hn (by simp), fun _ => ?_⟩
      obtain ⟨u, hr, rfl⟩ := ControlAuthority.clocked_ok.mp h
      obtain ⟨v, anchor, htick, ha, rfl⟩ := ControlClock.logicalNow_ok.mp hr
      obtain ⟨-, -, rest, -, -, rfl⟩ := ControlClock.tick_ok.mp htick
      refine ControlClock.Reached.later h₂.later ⟨anchor, ha, ?_⟩
      simp [ControlClock.instantOf, Port.withTiming, Port.timing]

/-- Under control, a deadline check that passed was made by the record's own
authority. -/
theorem epoch_of_overdue {row : DeviceCommand} {record : ControlCommand}
    (h : (overdue row (some record)).run p = (.ok false, p')) :
    record.authorityEpoch = p.proc.authority.clock.epoch := by
  rcases ControlAuthority.expired_ok h with ⟨-, -, -, hb, -⟩ | ⟨he, -⟩
  · cases hb
  · exact he

theorem Reads.ticks {c : Call Port Error Instant} (hc : Call.Moves Port.Ticks c) :
    ∀ {ts : List Instant} {p p' : Port}, Reads c p ts p' → p.Ticks p'
  | [], _, _, h => by rw [show _ = _ from h]; exact .refl _
  | _ :: _, _, _, ⟨_, ht, h⟩ => (hc.of_run ht).trans (Reads.ticks hc h)

theorem Confirmed.ticks {row result : DeviceCommand} (h : Confirmed row control p p' result) :
    p.Ticks p' := by
  cases h with
  | «open» h hp => rw [hp]; exact .refl p
  | applied h ht => exact (eventTime_moves control).of_run ht

theorem Confirmed.evidenceTimes {row result : DeviceCommand}
    (h : Confirmed row control p p' result) : result.evidenceTimes = row.evidenceTimes := by
  cases h <;> rfl

end CommandService

/-- Where the evidence times of a decided row come from: they were there before, or
were read while it was decided, under control by the record's own authority. -/
theorem Decided.times {row result : DeviceCommand} {control : Option ControlCommand}
    {p p' : Port} {job : Job} (h : Decided row control p p' job result) {t : Instant}
    (ht : t ∈ result.evidenceTimes) :
    t ∈ row.evidenceTimes ∨ (Stamped control p p' t ∧ ∀ record, control = some record →
      record.authorityEpoch = p.proc.authority.clock.epoch) := by
  have hown : ∀ {p₁ : Port}, (overdue row control).run p = (.ok false, p₁) →
      ∀ record, control = some record →
        record.authorityEpoch = p.proc.authority.clock.epoch := by
    rintro p₁ ho record rfl
    exact epoch_of_overdue ho
  cases h with
  | refused hp ho he hn hr =>
      obtain ⟨p₂, hr₁, p₃, hr₂, p₄, hr₃, rfl⟩ := hr
      have h₁ := (overdue_moves row control).of_run ho
      have h₃ := (eventTime_moves control).of_run hr₂
      have h₄ := (eventTime_moves control).of_run hr₃
      simp only [DeviceCommand.evidenceTimes, DeviceCommand.closed, DeviceCommand.acked,
        Option.toList_some, List.mem_append, List.mem_singleton] at ht
      rcases ht with rfl | ht
      · exact Or.inr ⟨eventTime_stamped h₁ hr₁ (h₃.trans h₄), hown ho⟩
      · exact Or.inl (List.mem_append_right _ ht)
  | acknowledged hp ho he hn hperm hnew hr hd hc =>
      obtain ⟨p₄, hr₁, p₅, hr₂, rfl⟩ := hr
      have h₁ := (overdue_moves row control).of_run ho
      have h₃ := (eventTime_moves control).of_run hr₂
      have h₄ := (orRead_moves (eventTime_moves control) row.dispatchedAt).of_run hd
      rw [hc.evidenceTimes] at ht
      simp only [DeviceCommand.evidenceTimes, DeviceCommand.sent, DeviceCommand.acked,
        Option.toList_some, List.mem_append, List.mem_singleton] at ht
      rcases ht with rfl | ht
      · exact Or.inr ⟨eventTime_stamped h₁ hr₁ (h₃.trans (h₄.trans hc.ticks)), hown ho⟩
      · exact Or.inl (List.mem_append_right _ ht)
  | reported hp ho he hperm hon hr hc =>
      obtain ⟨p₄, hr₁, p₅, hr₂, rfl⟩ := hr
      have h₁ := (overdue_moves row control).of_run ho
      have h₃ := (eventTime_moves control).of_run hr₂
      rw [hc.evidenceTimes] at ht
      simp only [DeviceCommand.evidenceTimes, DeviceCommand.reported, Option.toList_some,
        List.mem_append, List.mem_singleton] at ht
      rcases ht with ht | rfl
      · exact Or.inl (List.mem_append_left _ ht)
      · exact Or.inr ⟨eventTime_stamped h₁ hr₁ (h₃.trans hc.ticks), hown ho⟩
  | _ => exact Or.inl ht

end KzHome

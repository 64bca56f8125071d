import KzHome.CommandClock
import KzHome.ControlClock
import KzHome.Lib.Latch

/-!
# KzHome.SharedClocks

The clocks of a process, called from its event loop and from its worker threads.

`CommandClock.now` and `ControlClock.tick` first sample their source and then check the sample
against the clock and store it; nothing keeps two calls from overlapping between the two halves.
A call that nothing comes between is its two halves (`ControlClock.tick_eq`).
Both clocks are latches (`CommandClock.lawful`, `ControlClock.lawful`): a check of a sample that
is older than the last one stored latches the fault, also when the source itself never went
back.
-/

namespace KzHome

open Doubles
open Latch

/-! ### `CommandClock` -/

namespace CommandClock

/-- The reading at a tick, of a wall clock that agrees with the ticks. -/
def agreeing (offset : Int) (t : ℚ) : Reading := ⟨some (offset + timedelta t), some t⟩

/-- A call raised the error of the clock. -/
def raisesUnavailable : Except Error Instant → Bool
  | .error e => e = unavailable
  | .ok _ => false

/-- The clock as a shared object, with a wall clock that agrees with the ticks. A call counts as
failed if it raised the error of the clock; an `OverflowError` is the caller's. -/
def object (offset : Int) : Object CommandClock ℚ where
  enters _ := true
  update c t :=
    (!raisesUnavailable (c.now (agreeing offset t)).1, (c.now (agreeing offset t)).2)
  fault c := c.fault

/-- No fault, and the anchor is a pair of readings that agree. -/
structure Anchored (offset : Int) (c : CommandClock) : Prop where
  sound : c.fault = false
  anchor : ∀ base start, c.anchor = some (base, start) →
    base = offset + timedelta start ∧ ∃ l, c.lastTick = some l ∧ start ≤ l

/-- What the ticks tell from the anchor is near what they tell on their own: the difference of two
ticks is a `timedelta`, so it is rounded by less than a hundredth of a second. -/
theorem instantAt_near {offset : Int} {value : Instant} {start t : ℚ} (hle : start ≤ t)
    (h : instantAt (offset + timedelta start) start t = some value) :
    |offset + timedelta t - value| ≤ second := by
  obtain ⟨elapsed, helapsed, rfl, hmax, -⟩ := instantAt_some h
  obtain rfl := nearest_finite helapsed
  have hnonneg : 0 ≤ t - start := sub_nonneg.mpr hle
  have hd := abs_lt.mp (abs_timedelta_sub_lt (fl (t - start)))
  have hbound : t - start < 2 ^ (47 : Int) := by
    by_contra hlarge
    have hfl : (2 : ℚ) ^ (47 : Int) ≤ fl (t - start) := by
      rw [← fl_zpow (by norm_num)]
      exact fl_mono (by norm_num) (not_lt.mp hlarge)
    have hmax' : (timedelta (fl (t - start)) : ℚ) ≤ 86400000000000000000 - 1 := by
      exact_mod_cast hmax.trans_eq (by decide)
    norm_num at hfl
    linarith
  have hrounded : |fl (t - start) - (t - start)| ≤ 1 / 128 := by
    refine (abs_fl_sub_le ?_ (by norm_num)).trans (by norm_num : (2 : ℚ) ^ ((47 : Int) - 54) ≤ _)
    rwa [abs_of_nonneg hnonneg]
  have hr := abs_le.mp hrounded
  have ht := abs_lt.mp (abs_timedelta_sub_lt t)
  have hs := abs_lt.mp (abs_timedelta_sub_lt start)
  have hnear : |(timedelta t - (timedelta start + timedelta (fl (t - start))) : ℚ)| ≤ 1000000 := by
    rw [abs_le]
    constructor <;> linarith
  rw [add_assoc, add_sub_add_left_eq_sub]
  exact_mod_cast hnear

theorem now_passes {offset : Int} {t : ℚ} {c : CommandClock} (h : Anchored offset c)
    (hle : ∀ l, c.lastTick = some l → l ≤ t) :
    raisesUnavailable (c.now (agreeing offset t)).1 = false ∧
      ∃ start, (c.now (agreeing offset t)).2 =
        { c with lastTick := some t, anchor := some (offset + timedelta start, start) } ∧
          start ≤ t := by
  have hlate : c.lastTick.any (t < ·) = false := by
    cases hl : c.lastTick with
    | none => rfl
    | some l => simpa using hle l hl
  have hstart : ∃ start, c.anchor.getD (offset + timedelta t, t) =
      (offset + timedelta start, start) ∧ start ≤ t := by
    cases ha : c.anchor with
    | none => exact ⟨t, rfl, le_refl t⟩
    | some a =>
        obtain ⟨base, start⟩ := a
        obtain ⟨rfl, l, hl, hsl⟩ := h.anchor base start ha
        exact ⟨start, rfl, hsl.trans (hle l hl)⟩
  obtain ⟨start, hget, hst⟩ := hstart
  have hforward : ¬ fl (t - start) < 0 := not_lt.mpr (fl_nonneg (sub_nonneg.mpr hst))
  simp only [now, agreeing, hlate, h.sound, hget, Bool.false_eq_true, if_false]
  cases hvalue : instantAt (offset + timedelta start) start t with
  | none =>
      have hother : raisesUnavailable (.error overflow) = false := by decide
      exact ⟨hother, start, rfl, hst⟩
  | some value =>
      have hnear : ¬ second < |offset + timedelta t - value| :=
        not_lt.mpr (instantAt_near hst hvalue)
      dsimp only
      rw [if_neg (not_or.mpr ⟨hforward, hnear⟩)]
      exact ⟨rfl, start, rfl, hst⟩

theorem lawful (offset : Int) : Lawful (object offset) True (Anchored offset) (·.lastTick) where
  sound _ h := h.sound
  enters _ _ := ⟨fun _ => trivial, fun _ => rfl⟩
  passes c t _ h hle := by
    obtain ⟨hraises, start, hnow, hst⟩ := now_passes h hle
    simp only [object, hraises, hnow]
    refine ⟨rfl, ⟨h.sound, ?_⟩, trivial⟩
    intro base start' ha
    obtain ⟨rfl, rfl⟩ := Prod.mk.inj (Option.some.inj ha)
    exact ⟨rfl, t, rfl, hst⟩
  trips c t l _ hl hlt := by
    have hlate : c.lastTick.any (t < ·) = true := by
      rw [show c.lastTick = some l from hl]
      simpa using hlt
    have hnow : c.now (agreeing offset t) = (.error unavailable, { c with fault := true }) := by
      simp only [now, agreeing, hlate, if_true]
    simp only [object, hnow]
    exact ⟨rfl, trivial⟩

end CommandClock

/-! ### `ControlClock` -/

namespace ControlClock

def unqualified : Error := .unavailable "Control timing is unqualified"

/-- `tick` asks its source. -/
def enters (c : ControlClock) : Bool := c.qualified && !c.timerFault

/-- `tick`, after the reading, on the clock as it is then. -/
def check (c : ControlClock) (value : Option Int) : Except Error Int × ControlClock :=
  match value with
  | some v =>
    let c := if v < c.last then { c with timerFault := true } else c
    if !c.qualified || c.timerFault then (.error unqualified, c) else (.ok v, { c with last := v })
  | none => (.error unqualified, { c with timerFault := true })

theorem check_eq_accept {c : ControlClock} (he : c.enters = true) (v : Option Int) :
    c.check v = c.accept v := by
  have hq : c.qualified = true := (Bool.and_eq_true_iff.mp he).1
  have hf : c.timerFault = false := by simpa using (Bool.and_eq_true_iff.mp he).2
  cases v with
  | none => rfl
  | some v =>
      by_cases hlt : v < c.last
      · simp only [check, accept, if_pos hlt, Bool.or_true, if_true, unqualified]
      · simp only [check, accept, if_neg hlt, hq, hf, Bool.not_true, Bool.or_self,
          Bool.false_eq_true, if_false]

/-- A call that nothing comes between is the two halves one after the other. -/
theorem tick_eq (c : ControlClock) (sources : Sources) (v : Option Int) (rest : List (Option Int))
    (h : sources.ticks = v :: rest) : tick.run ⟨sources, c⟩ =
      if c.enters then ((c.check v).1, ⟨{ sources with ticks := rest }, (c.check v).2⟩)
      else (.error unqualified, ⟨sources, c⟩) := by
  by_cases he : c.enters = true
  · have hq : c.qualified = true := (Bool.and_eq_true_iff.mp he).1
    have hf : c.timerFault = false := by simpa using (Bool.and_eq_true_iff.mp he).2
    have hread : readTick.run ⟨sources, c⟩ = (.ok v, ⟨{ sources with ticks := rest }, c⟩) := by
      simp only [readTick, next, Call.run_bind, Call.run_self, h, Call.run_update, Call.run_pure]
    rw [if_pos he, tick, Call.run_bind, Call.run_self]
    simp only [hq, hf, Bool.not_true, Bool.or_false, Bool.false_eq_true, if_false, Call.run_bind,
      hread, Call.run_update, Call.run_lift]
    rw [check_eq_accept he]
  · have hbar : (!c.qualified || c.timerFault) = true := by
      cases hq : c.qualified <;> cases hf : c.timerFault <;> simp_all [enters]
    rw [if_neg he, tick, Call.run_bind, Call.run_self]
    simp only [hbar, if_true, Call.run_raise]
    rfl

/-- The clock as a shared object. -/
def object : Object ControlClock Int where
  enters := enters
  update c t := ((c.check (some t)).1.isOk, (c.check (some t)).2)
  fault c := c.timerFault

/-- No fault. -/
structure Steady (qualified : Bool) (c : ControlClock) : Prop where
  sound : c.timerFault = false
  qualified : c.qualified = qualified

theorem lawful (qualified : Bool) :
    Lawful object (qualified = true) (Steady qualified) fun c => some c.last where
  sound _ h := h.sound
  enters c h := by
    show (c.qualified && !c.timerFault) = true ↔ _
    rw [h.sound, h.qualified, Bool.not_false, Bool.and_true]
  passes c t hq h hle := by
    have hcheck : c.check (some t) = (.ok t, { c with last := t }) := by
      simp only [check, if_neg (Int.not_lt.mpr (hle _ rfl)), h.sound, h.qualified, hq,
        Bool.not_true, Bool.or_self, Bool.false_eq_true, if_false]
    simp only [object, hcheck]
    exact ⟨rfl, ⟨h.sound, h.qualified⟩, trivial⟩
  trips c t l _ hl hlt := by
    obtain rfl := Option.some.inj hl
    have hcheck : c.check (some t) = (.error unqualified, { c with timerFault := true }) := by
      simp only [check, if_pos hlt, Bool.or_true, if_true]
    simp only [object, hcheck]
    exact ⟨rfl, trivial⟩

end ControlClock

/-! ### Overlapping calls -/

/-- Two calls overlap, and the one that sampled first checks last. -/
def overtaken (T : Type) [OfNat T 1] : List (Latch.Label T) :=
  [.sample 0, .advance 1, .sample 1, .update 1, .update 0]

/-- A control clock as `create` makes it with a valid first tick. -/
def freshControl : ControlClock := ⟨"e", true, 0, 0, 0, some 0, false, false, 30061063⟩

/-- **The source never went back**, and both clocks have latched the fault for good. -/
theorem overtaken_faults :
    ¬ Healthy (CommandClock.object 0)
        ((calls (CommandClock.object 0)).run (State.init .create 0) (overtaken ℚ)) ∧
      ¬ Healthy ControlClock.object
        ((calls ControlClock.object).run (State.init freshControl 0) (overtaken Int)) :=
  ⟨fun h => absurd h.1 (by decide +kernel), fun h => absurd h.1 (by decide)⟩

/-- **A monotone clock stays healthy** exactly as long as no call is overtaken by one that
sampled later, and an unqualified control clock exactly as long as it is not called. -/
theorem clock_healthy_iff (offset : Int) (raw : ℚ) (labels : List (Latch.Label ℚ)) :
    ((∀ before, before <+: labels → Healthy (CommandClock.object offset)
        ((calls (CommandClock.object offset)).run (State.init .create raw) before)) ↔
      (calls (CommandClock.object offset)).Along (Orderly True) (State.init .create raw) labels) ∧
    ∀ (epoch : String) (raw : Int) (anchor : Option Instant) (qualified : Bool)
      (rateErrorPpm recoveryErrorUs : Int) (clock : ControlClock),
      ControlClock.create epoch (some raw) anchor qualified rateErrorPpm recoveryErrorUs =
        .ok clock → ∀ labels : List (Latch.Label Int),
      (∀ before, before <+: labels → Healthy ControlClock.object
        ((calls ControlClock.object).run (State.init clock raw) before)) ↔
      (calls ControlClock.object).Along (Orderly (qualified = true)) (State.init clock raw)
        labels := by
  constructor
  · refine healthy_iff (CommandClock.lawful offset) (Inv.init ⟨rfl, fun _ _ h => ?_⟩ ?_) labels
    · cases h
    · intro l hl
      cases hl
  · intro epoch raw anchor qualified rateErrorPpm recoveryErrorUs clock hcreate labels
    unfold ControlClock.create at hcreate
    split at hcreate
    · cases hcreate
    · obtain rfl := Except.ok.inj hcreate
      refine healthy_iff (ControlClock.lawful qualified) (Inv.init ⟨rfl, rfl⟩ ?_) labels
      intro l hl
      obtain rfl := Option.some.inj hl
      exact Int.le_refl _

/-- Two calls that do not overlap. -/
def apart (T : Type) [OfNat T 1] : List (Latch.Label T) :=
  [.sample 0, .advance 1, .update 0, .sample 1, .update 1]

theorem clock_healthy_apart :
    (∀ before, before <+: apart ℚ → Healthy (CommandClock.object 0)
      ((calls (CommandClock.object 0)).run (State.init .create 0) before)) ∧
    ∀ before, before <+: apart Int → Healthy ControlClock.object
      ((calls ControlClock.object).run (State.init freshControl 0) before) := by
  constructor
  · refine (clock_healthy_iff 0 0 (apart ℚ)).1.mpr
      ⟨fun _ => trivial, trivial, ?_, fun _ => trivial, ?_, trivial⟩
    · intro t _ t' hdone
      cases (show t' ∈ ([] : List ℚ) from hdone)
    · intro t ht t' hdone
      obtain rfl := Option.some.inj (show some (1 : ℚ) = some t from ht)
      obtain rfl := List.mem_singleton.mp (show t' ∈ [(0 : ℚ)] from hdone)
      exact zero_le_one
  · refine ((clock_healthy_iff 0 0 (apart ℚ)).2 "e" 0 (some 0) true 1000 1000 freshControl rfl
      (apart Int)).mpr
      ⟨fun _ => rfl, trivial, ?_, fun _ => rfl, ?_, trivial⟩
    · intro t _ t' hdone
      cases (show t' ∈ ([] : List Int) from hdone)
    · intro t ht t' hdone
      obtain rfl := Option.some.inj (show some (1 : Int) = some t from ht)
      obtain rfl := List.mem_singleton.mp (show t' ∈ [(0 : Int)] from hdone)
      decide

end KzHome

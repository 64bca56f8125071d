import KzHome.Basic
import KzHome.Lib.Doubles
import Mathlib.Data.List.Induction

/-!
# KzHome.CommandClock

`CommandClock`: the clock that commands are dated with.

A call takes a reading of the wall clock and one of a monotonic tick counter, in seconds. The
first reading is the anchor; from then on the clock tells the anchor plus the time that the
ticks have measured, and the wall clock only watches. A reading that is out of order, or that
the wall clock contradicts, latches the fault, and the clock raises from then on
(`now_fail_stop`). An instant that is no datetime any more raises as well, without the latch, but
so does every call after it (`now_overflow`).

Ticks are floats: their difference is rounded, and so is the product that makes microseconds of
it. A `timedelta` has whole microseconds.
-/

namespace KzHome

open Doubles

/-! ### Durations -/

/-- The whole seconds of a float, as `modf` cuts it. -/
def trunc (s : ℚ) : Int := if 0 ≤ s then ⌊s⌋ else ⌈s⌉

/-- `timedelta(seconds=…)` of a float, in microseconds: the whole seconds are exact, the fraction is
multiplied as a float, and the sum is rounded. -/
def timedelta (seconds : ℚ) : Int :=
  roundHalfEven (trunc seconds * 1000000 + fl (1000000 * (seconds - trunc seconds)))

/-- `timedelta.min` and `timedelta.max`, in microseconds. -/
def timedeltaMin : Int := -999999999 * 86400 * second

def timedeltaMax : Int := 1000000000 * 86400 * second - 1

theorem abs_fraction_lt (s : ℚ) : |s - trunc s| < 1 := by
  have hlow : (⌊s⌋ : ℚ) ≤ s := Int.floor_le s
  have hhigh : s < ⌊s⌋ + 1 := Int.lt_floor_add_one s
  have hlow' : (⌈s⌉ : ℚ) < s + 1 := Int.ceil_lt_add_one s
  have hhigh' : s ≤ ⌈s⌉ := Int.le_ceil s
  unfold trunc
  split_ifs <;> rw [abs_lt] <;> constructor <;> linarith

/-- A `timedelta` is less than a microsecond off. -/
theorem abs_timedelta_sub_lt (s : ℚ) : |(timedelta s : ℚ) - s * 1000000| < 2 / 3 := by
  have hfraction : |1000000 * (s - trunc s)| < (2 : ℚ) ^ (20 : Int) := by
    rw [abs_mul, abs_of_pos (by norm_num)]
    calc (1000000 : ℚ) * |s - trunc s| < 1000000 * 1 :=
          mul_lt_mul_of_pos_left (abs_fraction_lt s) (by norm_num)
      _ < 2 ^ (20 : Int) := by norm_num
  have hproduct := abs_fl_sub_le hfraction (by norm_num)
  have hround := abs_roundHalfEven_sub_le
    (trunc s * 1000000 + fl (1000000 * (s - trunc s)))
  calc |(timedelta s : ℚ) - s * 1000000|
      = |(timedelta s - (trunc s * 1000000 + fl (1000000 * (s - trunc s)))) +
          (fl (1000000 * (s - trunc s)) - 1000000 * (s - trunc s))| := by congr 1; ring
    _ ≤ _ := abs_add_le _ _
    _ ≤ 1 / 2 + 2 ^ ((20 : Int) - 54) := add_le_add hround hproduct
    _ < 2 / 3 := by norm_num

/-- A longer time is no smaller `timedelta`. -/
theorem timedelta_mono {s t : ℚ} (hs : 0 ≤ s) (h : s ≤ t) : timedelta s ≤ timedelta t := by
  have ht : 0 ≤ t := hs.trans h
  have hfraction : ∀ x : ℚ, 0 ≤ x → 0 ≤ x - trunc x ∧ x - trunc x ≤ 1 := by
    intro x hx
    rw [trunc, if_pos hx]
    exact ⟨sub_nonneg.mpr (Int.floor_le x), by linarith [Int.lt_floor_add_one x]⟩
  have hfloor : trunc s ≤ trunc t := by
    rw [trunc, trunc, if_pos hs, if_pos ht]
    exact Int.floor_le_floor h
  refine roundHalfEven_mono ?_
  rcases hfloor.eq_or_lt with heq | hlt
  · rw [heq]
    have hrest : 1000000 * (s - trunc t) ≤ 1000000 * (t - trunc t) := by linarith
    have hnonneg : 0 ≤ 1000000 * (s - trunc t) := by
      rw [← heq]
      linarith [(hfraction s hs).1]
    linarith [fl_mono hnonneg hrest]
  · -- the fraction of a second stays below a second
    have hs' := hfraction s hs
    have hcarry : fl (1000000 * (s - trunc s)) ≤ (1000000 : Int) := by
      refine fl_le_intCast (by push_cast; linarith) ?_
      rw [abs_of_nonneg (by linarith)]
      exact lt_of_le_of_lt (by linarith : 1000000 * (s - trunc s) ≤ 1000000) (by norm_num)
    have hnonneg : 0 ≤ fl (1000000 * (t - trunc t)) :=
      fl_nonneg (by linarith [(hfraction t ht).1])
    have hnext : (trunc s : ℚ) + 1 ≤ trunc t := by exact_mod_cast hlt
    push_cast at hcarry
    linarith

@[simp] theorem timedelta_zero : timedelta 0 = 0 := by
  simp [timedelta, trunc, show roundHalfEven 0 = 0 from roundHalfEven_intCast 0]

/-- `base + timedelta(seconds=tick - start)` of two finite ticks; `none` is an `OverflowError`, of
a float, a `timedelta` or a `datetime` that is out of range. -/
def instantAt (base : Instant) (start tick : ℚ) : Option Instant :=
  match nearest (tick - start) with
  | .finite elapsed =>
    let delta := timedelta elapsed
    if timedeltaMin ≤ delta ∧ delta ≤ timedeltaMax ∧
        datetimeMin ≤ base + delta ∧ base + delta ≤ datetimeMax then some (base + delta)
    else none
  | _ => none

theorem instantAt_some {base value : Instant} {start tick : ℚ}
    (h : instantAt base start tick = some value) :
    ∃ elapsed, nearest (tick - start) = .finite elapsed ∧ value = base + timedelta elapsed ∧
      timedelta elapsed ≤ timedeltaMax ∧ timedeltaMin ≤ timedelta elapsed := by
  unfold instantAt at h
  split at h
  · rename_i elapsed helapsed
    dsimp only at h
    split at h
    · rename_i hrange
      exact ⟨elapsed, helapsed, (Option.some.inj h).symm, hrange.2.1, hrange.1⟩
    · cases h
  · cases h

/-- Later ticks tell later instants. -/
theorem instantAt_mono {base value value' : Instant} {start tick tick' : ℚ} (h0 : start ≤ tick)
    (hle : tick ≤ tick') (h : instantAt base start tick = some value)
    (h' : instantAt base start tick' = some value') : value ≤ value' := by
  obtain ⟨elapsed, helapsed, rfl, -⟩ := instantAt_some h
  obtain ⟨elapsed', helapsed', rfl, -⟩ := instantAt_some h'
  obtain rfl := nearest_finite helapsed
  obtain rfl := nearest_finite helapsed'
  have hnonneg : 0 ≤ tick - start := sub_nonneg.mpr h0
  exact Int.add_le_add_left
    (timedelta_mono (fl_nonneg hnonneg) (fl_mono hnonneg (sub_le_sub_right hle start))) base

/-- After an overflow, later ticks overflow as well. -/
theorem instantAt_none {base : Instant} {start tick tick' : ℚ} (hbase : datetimeMin ≤ base)
    (h0 : start ≤ tick) (hle : tick ≤ tick') (h : instantAt base start tick = none) :
    instantAt base start tick' = none := by
  by_contra hsome
  obtain ⟨value', h'⟩ := Option.ne_none_iff_exists'.mp hsome
  have hnonneg : 0 ≤ tick - start := sub_nonneg.mpr h0
  have hfl : fl (tick - start) ≤ fl (tick' - start) := fl_mono hnonneg (sub_le_sub_right hle start)
  have hmin : 0 ≤ timedelta (fl (tick - start)) := by
    rw [← timedelta_zero]
    exact timedelta_mono le_rfl (fl_nonneg hnonneg)
  have hmono : timedelta (fl (tick - start)) ≤ timedelta (fl (tick' - start)) :=
    timedelta_mono (fl_nonneg hnonneg) hfl
  unfold instantAt at h h'
  have hfinite : nearest (tick - start) = .finite (fl (tick - start)) := by
    unfold nearest at h' ⊢
    rw [abs_of_nonneg (fl_nonneg hnonneg)]
    rw [abs_of_nonneg (fl_nonneg (hnonneg.trans (sub_le_sub_right hle start)))] at h'
    refine if_neg fun hbig => ?_
    rw [if_pos (hbig.trans hfl)] at h'
    cases h'
  rw [hfinite] at h
  split at h'
  · rename_i elapsed' helapsed'
    obtain rfl := nearest_finite helapsed'
    dsimp only at h h'
    split at h'
    · rename_i hrange
      have htimedelta : timedeltaMin ≤ 0 := by decide
      rw [if_pos ⟨htimedelta.trans hmin, hmono.trans hrange.2.1,
        hbase.trans (le_add_of_nonneg_right hmin),
        (Int.add_le_add_left hmono base).trans hrange.2.2.2⟩] at h
      cases h
    · cases h'
  · cases h'

/-! ### The clock -/

/-- What the wall clock and the tick counter are read as: a wall reading that is naive or not
UTC and a tick that is not finite are `none`. -/
structure Reading where
  wall : Option Instant
  tick : Option ℚ
  deriving DecidableEq

/-- The attributes of a `CommandClock`. -/
structure CommandClock where
  anchor : Option (Instant × ℚ)
  fault : Bool
  lastTick : Option ℚ
  deriving DecidableEq

namespace CommandClock

/-- `CommandClock.__init__` -/
def create : CommandClock := ⟨none, false, none⟩

def unavailable : Error := .unavailable "Command clock is unavailable"

def overflow : Error := .other "OverflowError"

/-- `now`, on a reading. -/
def now (c : CommandClock) (r : Reading) : Except Error Instant × CommandClock :=
  match r.wall, r.tick with
  | some wall, some tick =>
    if c.lastTick.any (tick < ·) then (.error unavailable, { c with fault := true })
    else if c.fault then (.error unavailable, c)
    else
      let anchor := c.anchor.getD (wall, tick)
      let c := { c with lastTick := some tick, anchor := some anchor }
      match instantAt anchor.1 anchor.2 tick with
      -- nothing has set the fault by then
      | none => (.error overflow, c)
      | some value =>
        if fl (tick - anchor.2) < 0 ∨ second < |wall - value| then
          (.error unavailable, { c with fault := true })
        else (.ok value, c)
  | _, _ => (.error unavailable, { c with fault := true })

/-- The clock after calls that took the readings, one after the other. -/
def after (c : CommandClock) (readings : List Reading) : CommandClock :=
  readings.foldl (fun c r => (c.now r).2) c

@[simp] theorem after_nil (c : CommandClock) : c.after [] = c := rfl

@[simp] theorem after_cons (c : CommandClock) (r : Reading) (readings : List Reading) :
    c.after (r :: readings) = (c.now r).2.after readings := rfl

theorem after_append (c : CommandClock) (before more : List Reading) :
    c.after (before ++ more) = (c.after before).after more := by
  simp [after]

theorem after_snoc (c : CommandClock) (before : List Reading) (r : Reading) :
    c.after (before ++ [r]) = ((c.after before).now r).2 := by
  simp [after_append]

/-! ### The latch -/

/-- A latched fault makes a call raise, and stays. -/
theorem now_of_fault {c : CommandClock} (h : c.fault = true) (r : Reading) :
    (c.now r).1 = .error unavailable ∧ (c.now r).2.fault = true := by
  unfold now
  split
  · split_ifs
    · exact ⟨rfl, rfl⟩
    · exact ⟨rfl, h⟩
  · exact ⟨rfl, rfl⟩

theorem after_fault {c : CommandClock} (h : c.fault = true) (readings : List Reading) :
    (c.after readings).fault = true := by
  induction readings generalizing c with
  | nil => exact h
  | cons r readings ih => exact ih (now_of_fault h r).2

/-- What is wrong with a reading, after the earlier ones: it is no UTC time, no finite tick,
older than a tick before it, or the wall clock is more than a second off. -/
inductive Faulty (before : List Reading) (r : Reading) : Prop
  | wall (h : r.wall = none)
  | tick (h : r.tick = none)
  | older (t tick : ℚ) (p : Reading) (hp : p ∈ before) (ht : p.tick = some t)
      (htick : r.tick = some tick) (hlt : tick < t)
  | diverges (base wall value : Instant) (start tick : ℚ)
      (hfirst : (before ++ [r]).head? = some ⟨some base, some start⟩)
      (hwall : r.wall = some wall) (htick : r.tick = some tick)
      (hvalue : instantAt base start tick = some value) (hfar : second < |wall - value|)

/-- What the clock remembers of readings none of which was faulty. -/
structure Remembers (before : List Reading) (c : CommandClock) : Prop where
  sound : c.fault = false
  anchor : before.head? = c.anchor.map fun a => ⟨some a.1, some a.2⟩
  ordered : ∀ p ∈ before, ∃ t l, p.tick = some t ∧ c.lastTick = some l ∧ t ≤ l

theorem remembers_nil : Remembers [] create := by
  refine ⟨rfl, rfl, ?_⟩
  intro p hp
  cases hp

/-- The anchor that a call uses is the first reading. -/
theorem Remembers.first {before : List Reading} {c : CommandClock} (h : Remembers before c)
    {r : Reading} {wall : Instant} {tick : ℚ} (hwall : r.wall = some wall)
    (htick : r.tick = some tick) :
    (before ++ [r]).head? = some ⟨some (c.anchor.getD (wall, tick)).1,
      some (c.anchor.getD (wall, tick)).2⟩ := by
  have hanchor := h.anchor
  cases hc : c.anchor with
  | none =>
      rw [hc, Option.map_none, List.head?_eq_none_iff] at hanchor
      obtain ⟨w, t⟩ := r
      simp_all
  | some a =>
      rw [hc] at hanchor
      rw [List.head?_append, hanchor]
      rfl

/-- The anchor is no later than the last tick. -/
theorem Remembers.started {before : List Reading} {c : CommandClock} (h : Remembers before c)
    {base : Instant} {start : ℚ} (hanchor : c.anchor = some (base, start)) :
    ∃ l, c.lastTick = some l ∧ start ≤ l := by
  have hhead := h.anchor
  rw [hanchor] at hhead
  obtain ⟨t, l, ht, hl, hle⟩ := h.ordered _ (List.mem_of_head? hhead)
  obtain rfl := Option.some.inj ht
  exact ⟨l, hl, hle⟩

/-- A reading in order, as the clock checks it. -/
structure Orders (before : List Reading) (c : CommandClock) (r : Reading) (base wall : Instant)
    (start tick : ℚ) : Prop where
  reading : r = ⟨some wall, some tick⟩
  first : (before ++ [r]).head? = some ⟨some base, some start⟩
  last : ∀ l, c.lastTick = some l → l ≤ tick
  started : start ≤ tick

/-- **One call** latches the fault, or its reading is in order and the clock remembers it; then the
call returns an instant near the wall reading, unless that is no datetime. -/
theorem Remembers.now_cases {before : List Reading} {c : CommandClock} (h : Remembers before c)
    (r : Reading) :
    ((c.now r).1 = .error unavailable ∧ (c.now r).2.fault = true) ∨
    ∃ base wall start tick, Orders before c r base wall start tick ∧
      Remembers (before ++ [r]) (c.now r).2 ∧
      ((c.now r).1 = .error overflow ∧ instantAt base start tick = none ∨
        ∃ value, (c.now r).1 = .ok value ∧ instantAt base start tick = some value ∧
          |wall - value| ≤ second) := by
  obtain ⟨wall?, tick?⟩ := r
  cases wall? with
  | none => exact .inl ⟨rfl, rfl⟩
  | some wall =>
  cases tick? with
  | none => exact .inl ⟨rfl, rfl⟩
  | some tick =>
  by_cases hlate : c.lastTick.any (tick < ·) = true
  · simp only [now, hlate, if_true]
    exact .inl ⟨trivial, trivial⟩
  have hlast : ∀ l, c.lastTick = some l → l ≤ tick := by
    intro l hl
    rw [hl] at hlate
    simpa using hlate
  have hstarted : (c.anchor.getD (wall, tick)).2 ≤ tick := by
    cases hanchor : c.anchor with
    | none => exact le_refl tick
    | some a =>
        obtain ⟨l, hl, hle⟩ := h.started hanchor
        exact hle.trans (hlast l hl)
  have horders : Orders before c ⟨some wall, some tick⟩ (c.anchor.getD (wall, tick)).1 wall
      (c.anchor.getD (wall, tick)).2 tick :=
    ⟨rfl, h.first rfl rfl, hlast, hstarted⟩
  have hnext : Remembers (before ++ [⟨some wall, some tick⟩])
      ⟨some (c.anchor.getD (wall, tick)), false, some tick⟩ := by
    refine ⟨rfl, horders.first, ?_⟩
    intro p hp
    rcases List.mem_append.mp hp with hp | hp
    · obtain ⟨t, l, ht, hl, hle⟩ := h.ordered p hp
      exact ⟨t, tick, ht, rfl, hle.trans (hlast l hl)⟩
    · obtain rfl := List.mem_singleton.mp hp
      exact ⟨tick, tick, rfl, rfl, le_refl tick⟩
  simp only [now, if_neg hlate, h.sound, Bool.false_eq_true, if_false]
  cases hvalue : instantAt (c.anchor.getD (wall, tick)).1 (c.anchor.getD (wall, tick)).2 tick with
  | none => exact .inr ⟨_, wall, _, tick, horders, hnext, .inl ⟨rfl, hvalue⟩⟩
  | some value =>
      dsimp only
      by_cases hfar : fl (tick - (c.anchor.getD (wall, tick)).2) < 0 ∨ second < |wall - value|
      · rw [if_pos hfar]
        exact .inl ⟨rfl, rfl⟩
      · rw [if_neg hfar]
        rw [not_or, not_lt, not_lt] at hfar
        exact .inr ⟨_, wall, _, tick, horders, hnext, .inr ⟨value, rfl, hvalue, hfar.2⟩⟩

/-- After any readings the clock either remembers them all or has latched the fault. -/
theorem fault_or_remembers (before : List Reading) :
    (create.after before).fault = true ∨ Remembers before (create.after before) := by
  induction before using List.reverseRecOn with
  | nil => exact .inr remembers_nil
  | append_singleton before r ih =>
      rw [after_snoc]
      rcases ih with hfault | hrem
      · exact .inl (now_of_fault hfault r).2
      · rcases hrem.now_cases r with ⟨-, hfault⟩ | ⟨_, _, _, _, -, hnext, -⟩
        · exact .inl hfault
        · exact .inr hnext

/-- A call that did not raise the clock's own error found no fault. -/
theorem remembers_of_ne {before : List Reading} {r : Reading}
    (h : ((create.after before).now r).1 ≠ .error unavailable) :
    Remembers before (create.after before) :=
  (fault_or_remembers before).resolve_left fun hfault => h (now_of_fault hfault r).1

/-- **A call that returned.** -/
theorem now_ok {before : List Reading} {r : Reading} {value : Instant}
    (h : ((create.after before).now r).1 = .ok value) :
    ∃ base wall start tick, Orders before (create.after before) r base wall start tick ∧
      instantAt base start tick = some value ∧ |wall - value| ≤ second := by
  have hrem : Remembers before (create.after before) := remembers_of_ne (r := r) (by rw [h]; simp)
  rcases hrem.now_cases r with ⟨hraised, -⟩ | ⟨base, wall, start, tick, horders, -, hcase⟩
  · rw [h] at hraised
    cases hraised
  · rcases hcase with ⟨hraised, -⟩ | ⟨value', hok, hvalue, hnear⟩
    · rw [h] at hraised
      cases hraised
    · obtain rfl := Except.ok.inj (h.symm.trans hok)
      exact ⟨base, wall, start, tick, horders, hvalue, hnear⟩

/-- **A faulty reading** latches the fault. -/
theorem Remembers.now_faulty {before : List Reading} {c : CommandClock} (h : Remembers before c)
    {r : Reading} (hr : Faulty before r) :
    (c.now r).1 = .error unavailable ∧ (c.now r).2.fault = true := by
  refine (h.now_cases r).resolve_right ?_
  rintro ⟨base, wall, start, tick, ⟨rfl, hfirst, hlast, -⟩, -, hcase⟩
  cases hr with
  | wall h => cases h
  | tick h => cases h
  | older t tick' p hp ht htick hlt =>
      obtain ⟨t', l, ht', hl, hle⟩ := h.ordered p hp
      obtain rfl := Option.some.inj (ht.symm.trans ht')
      obtain rfl := Option.some.inj htick
      exact absurd (hle.trans (hlast l hl)) (not_le.mpr hlt)
  | diverges base' wall' value' start' tick' hfirst' hwall htick hvalue hfar =>
      obtain rfl := Option.some.inj hwall
      obtain rfl := Option.some.inj htick
      cases Option.some.inj (hfirst.symm.trans hfirst')
      rcases hcase with ⟨-, hnone⟩ | ⟨value, -, hvalue', hnear⟩
      · rw [hvalue] at hnone
        cases hnone
      · obtain rfl := Option.some.inj (hvalue.symm.trans hvalue')
        exact absurd hnear (not_le.mpr hfar)

/-! ### Histories -/

/-- What a call returns after the readings before it: the anchor plus the float difference of the
ticks, to the microsecond, and within a second of the wall reading. Below `2 ^ 32` seconds the
rounding of the difference stays within that microsecond. -/
structure Tells (before : List Reading) (r : Reading) (value : Instant) : Prop where
  anchored : ∃ base start wall tick elapsed,
    (before ++ [r]).head? = some ⟨some base, some start⟩ ∧ r = ⟨some wall, some tick⟩ ∧
    nearest (tick - start) = .finite elapsed ∧ value = base + timedelta elapsed ∧
    |(value : ℚ) - (base + elapsed * 1000000)| < 1 ∧
    (tick - start < 2 ^ 32 → |(value : ℚ) - (base + (tick - start) * 1000000)| < 1) ∧
    |wall - value| ≤ second

theorem tells_of_ok {before : List Reading} {r : Reading} {value : Instant}
    (h : ((create.after before).now r).1 = .ok value) : Tells before r value := by
  obtain ⟨base, wall, start, tick, ⟨hr, hfirst, -, hstarted⟩, hvalue, hnear⟩ := now_ok h
  obtain ⟨elapsed, helapsed, rfl, -⟩ := instantAt_some hvalue
  have hround := abs_timedelta_sub_lt elapsed
  refine ⟨base, start, wall, tick, elapsed, hfirst, hr, helapsed, rfl, ?_, ?_, hnear⟩
  · push_cast
    rw [add_sub_add_left_eq_sub]
    exact hround.trans (by norm_num)
  · intro hshort
    obtain rfl := nearest_finite helapsed
    have hdifference : |fl (tick - start) - (tick - start)| ≤ 2 ^ ((32 : Int) - 54) := by
      refine abs_fl_sub_le ?_ (by norm_num)
      rw [abs_of_nonneg (sub_nonneg.mpr hstarted)]
      exact hshort
    have hmicroseconds : |fl (tick - start) * 1000000 - (tick - start) * 1000000| ≤ 1 / 4 := by
      rw [← sub_mul, abs_mul, abs_of_pos (by norm_num : (0 : ℚ) < 1000000)]
      calc _ ≤ (2 : ℚ) ^ ((32 : Int) - 54) * 1000000 :=
            mul_le_mul_of_nonneg_right hdifference (by norm_num)
        _ ≤ 1 / 4 := by norm_num
    push_cast
    rw [add_sub_add_left_eq_sub]
    calc _ ≤ _ := abs_sub_le _ (fl (tick - start) * 1000000) _
      _ < 2 / 3 + 1 / 4 := add_lt_add_of_lt_of_le hround hmicroseconds
      _ < 1 := by norm_num

/-- The anchor of later calls is that of the first one. -/
theorem head?_append_cons (before more : List Reading) (r r' : Reading) :
    (before ++ r :: more ++ [r']).head? = (before ++ [r]).head? := by
  cases before <;> rfl

/-- Ticks that a call accepts are no older than those before it. -/
theorem tick_le {before more : List Reading} {r : Reading} {wall : Instant} {tick tick' : ℚ}
    (h : ((create.after (before ++ ⟨some wall, some tick⟩ :: more)).now r).1 ≠ .error unavailable)
    (hlast : ∀ l, (create.after (before ++ ⟨some wall, some tick⟩ :: more)).lastTick = some l →
      l ≤ tick') : tick ≤ tick' := by
  obtain ⟨t, l, ht, hl, hle⟩ := (remembers_of_ne h).ordered ⟨some wall, some tick⟩ (by simp)
  obtain rfl := Option.some.inj ht
  exact hle.trans (hlast l hl)

/-- **The clock does not go back.** -/
theorem now_mono {before more : List Reading} {r r' : Reading} {value value' : Instant}
    (h : ((create.after before).now r).1 = .ok value)
    (h' : ((create.after (before ++ r :: more)).now r').1 = .ok value') : value ≤ value' := by
  obtain ⟨base, wall, start, tick, ⟨rfl, hfirst, -, hstarted⟩, hvalue, -⟩ := now_ok h
  obtain ⟨base', wall', start', tick', ⟨rfl, hfirst', hlast, -⟩, hvalue', -⟩ := now_ok h'
  rw [head?_append_cons, hfirst] at hfirst'
  cases hfirst'
  exact instantAt_mono hstarted (tick_le (by rw [h']; simp) hlast) hvalue hvalue'

/-- **A faulty reading** is the end: its call and every later one raises. -/
theorem now_fail_stop {before : List Reading} {r : Reading} (hr : Faulty before r) :
    ((create.after before).now r).1 = .error unavailable ∧
      ∀ more r', ((create.after (before ++ r :: more)).now r').1 = .error unavailable := by
  have hfault : ((create.after before).now r).1 = .error unavailable ∧
      ((create.after before).now r).2.fault = true := by
    rcases fault_or_remembers before with hfault | hrem
    · exact now_of_fault hfault r
    · exact hrem.now_faulty hr
  refine ⟨hfault.1, fun more r' => ?_⟩
  rw [after_append, after_cons]
  exact (now_of_fault (after_fault hfault.2 more) r').1

/-- **An overflow** does not latch the fault, but no later call returns either. -/
theorem now_overflow {before : List Reading} {r : Reading}
    (hwalls : ∀ p ∈ before ++ [r], ∀ wall, p.wall = some wall → datetimeMin ≤ wall)
    (h : ((create.after before).now r).1 = .error overflow) :
    ((create.after before).now r).2.fault = false ∧
      ∀ more r' value, ((create.after (before ++ r :: more)).now r').1 ≠ .ok value := by
  have hrem : Remembers before (create.after before) :=
    remembers_of_ne (r := r) (by rw [h]; decide)
  rcases hrem.now_cases r with ⟨hraised, -⟩ | ⟨base, wall, start, tick, horders, hnext, hcase⟩
  · rw [h] at hraised
    exact absurd (Except.error.inj hraised) (by decide)
  obtain ⟨rfl, hfirst, -, hstarted⟩ := horders
  have hnone : instantAt base start tick = none := by
    rcases hcase with ⟨-, hnone⟩ | ⟨value, hok, -⟩
    · exact hnone
    · rw [h] at hok
      cases hok
  refine ⟨hnext.sound, fun more r' value' h' => ?_⟩
  obtain ⟨base', wall', start', tick', ⟨rfl, hfirst', hlast, -⟩, hvalue', -⟩ := now_ok h'
  rw [head?_append_cons, hfirst] at hfirst'
  cases hfirst'
  have hbase : datetimeMin ≤ base := hwalls _ (List.mem_of_head? hfirst) base rfl
  have hlater := instantAt_none hbase hstarted (tick_le (by rw [h']; simp) hlast) hnone
  rw [hvalue'] at hlater
  cases hlater

end CommandClock

/-- **The command clock** does not go back, tells the time that has been measured since the
first reading, and stops for good at the first faulty reading, and at the first overflow. -/
theorem command_clock_monotone :
    (∀ before r value, ((CommandClock.create.after before).now r).1 = .ok value →
      CommandClock.Tells before r value) ∧
    (∀ before r value more r' value', ((CommandClock.create.after before).now r).1 = .ok value →
      ((CommandClock.create.after (before ++ r :: more)).now r').1 = .ok value' →
        value ≤ value') ∧
    (∀ before r, CommandClock.Faulty before r →
      ((CommandClock.create.after before).now r).1 = .error CommandClock.unavailable ∧
      ∀ more r', ((CommandClock.create.after (before ++ r :: more)).now r').1 =
        .error CommandClock.unavailable) ∧
    ∀ before r,
      (∀ p ∈ before ++ [r], ∀ wall, p.wall = some wall → datetimeMin ≤ wall) →
      ((CommandClock.create.after before).now r).1 = .error CommandClock.overflow →
      ((CommandClock.create.after before).now r).2.fault = false ∧
      ∀ more r' value, ((CommandClock.create.after (before ++ r :: more)).now r').1 ≠
        .ok value := by
  refine ⟨?_, ?_, ?_, ?_⟩
  · intro before r value h
    exact CommandClock.tells_of_ok h
  · intro before r value more r' value' h h'
    exact CommandClock.now_mono h h'
  · intro before r hr
    exact CommandClock.now_fail_stop hr
  · intro before r hwalls h
    exact CommandClock.now_overflow hwalls h

/-- Four calls: two that agree, one after the wall clock was set back, and one after it was
set right again. -/
def wallSetBack : List Reading :=
  [⟨some 0, some 0⟩, ⟨some 1000001, some (4194305 / 4194304)⟩, ⟨some 0, some 2⟩,
    ⟨some 3000000, some 3⟩]

/-- Two calls: the second one is ten thousand years later. -/
def tenThousandYears : List Reading :=
  [⟨some 0, some 0⟩, ⟨some 1, some 315576000000⟩]

theorem command_clock_monotone_run :
    CommandClock.Tells [⟨some 0, some 0⟩] ⟨some 1000001, some (4194305 / 4194304)⟩ 1000000 ∧
    (0 : Instant) ≤ 1000000 ∧
    ((CommandClock.create.after (wallSetBack.take 3)).now ⟨some 3000000, some 3⟩).1 =
      .error CommandClock.unavailable ∧
    ((CommandClock.create.after (tenThousandYears.take 1)).now
      ⟨some 1, some 315576000000⟩).2.fault = false := by
  have hfirst : ((CommandClock.create.after []).now ⟨some 0, some 0⟩).1 = .ok 0 := by decide +kernel
  have hsecond : ((CommandClock.create.after [⟨some 0, some 0⟩]).now
      ⟨some 1000001, some (4194305 / 4194304)⟩).1 = .ok 1000000 := by decide +kernel
  refine ⟨command_clock_monotone.1 _ _ _ hsecond,
    command_clock_monotone.2.1 [] _ 0 [] _ 1000000 hfirst hsecond, ?_, ?_⟩
  · refine (command_clock_monotone.2.2.1 (wallSetBack.take 2) ⟨some 0, some 2⟩ ?_).2 [] _
    exact .diverges 0 0 2000000 0 2 rfl rfl rfl (by decide +kernel) (by decide +kernel)
  · exact (command_clock_monotone.2.2.2 (tenThousandYears.take 1) ⟨some 1, some 315576000000⟩
      (by decide) (by decide +kernel)).1

/-- A quarter of a microsecond is rounded away. -/
theorem sub_microsecond_lost :
    ((CommandClock.create.after [⟨some 0, some 0⟩]).now ⟨some 0, some (1 / 4194304)⟩).1 = .ok 0 ∧
      ((0 : Instant) : ℚ) ≠ 0 + (1 / 4194304 - 0) * 1000000 := by
  constructor
  · decide +kernel
  · norm_num

/-- The float product of three and a half microseconds is rounded up. -/
example : timedelta (fl (7 / 2000000)) = 4 := by decide +kernel

end KzHome

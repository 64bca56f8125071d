import KzHome.Basic
import KzHome.Lib.Call

/-!
# KzHome.ControlClock

`ControlClock`: the tick counter a control authority measures deadlines with.

Ticks are raw integer microseconds and never go back: a reading below the last
one, or one that is not an integer, latches `timerFault` and the clock raises
from then on. `logicalNow` turns a tick into an instant by the anchor taken at
construction, so the two time lines differ by the constant `anchor - start`.

What the callables return is read from `Sources`, one list for each of them.
-/

namespace KzHome

/-- What the time sources return when they are called next. A naive or non-UTC
wall reading and a tick that is not an `int` are `none`. -/
structure Sources where
  /-- `CommandService.now` and `command_clock.now` -/
  nows : List Instant
  ticks : List (Option Int)
  walls : List (Option Instant)
  /-- `utc_health` -/
  health : List Bool

/-- `LIFETIME_US` -/
def lifetimeUs : Int := 30000000

/-- `PERMIT_US` -/
def permitUs : Int := 2000000

/-- The attributes of a `ControlClock`. -/
structure ControlClock where
  epoch : String
  qualified : Bool
  start : Int
  last : Int
  fenceStart : Int
  anchor : Option Instant
  timerFault : Bool
  wallFault : Bool
  fenceUs : Int
  deriving DecidableEq, Repr

/-- A clock together with its sources. -/
structure Timing where
  sources : Sources
  clock : ControlClock

namespace ControlClock

/-- `(LIFETIME_US + recovery_error_us) * (1_000_000 + rate_error_ppm)` over
`1_000_000 - rate_error_ppm`, rounded up. -/
def fence (rateErrorPpm recoveryErrorUs : Int) : Int :=
  let numerator := (lifetimeUs + recoveryErrorUs) * (1000000 + rateErrorPpm)
  let denominator := 1000000 - rateErrorPpm
  (numerator + denominator - 1) / denominator

/-- `ControlClock.__init__` -/
def create (epoch : String) (initial : Option Int) (anchor : Option Instant) (qualified : Bool)
    (rateErrorPpm recoveryErrorUs : Int) : Except Error ControlClock :=
  if ¬ (0 ≤ rateErrorPpm ∧ rateErrorPpm < 1000000) ∨ recoveryErrorUs < 0 then
    .error (.other "Invalid conditional clock bounds")
  else
    .ok {
      epoch
      qualified
      start := initial.getD 0
      last := initial.getD 0
      fenceStart := initial.getD 0
      anchor
      timerFault := initial.isNone
      wallFault := false
      fenceUs := fence rateErrorPpm recoveryErrorUs }

/-! ### Sources -/

/-- Take the next value of a source; a source with nothing left raises. -/
def next {α : Type} (get : Sources → List α) (put : Sources → List α → Sources) :
    Call Timing Error α := do
  let t ← Call.self
  match get t.sources with
  | [] => .raise (.other "time source")
  | v :: rest =>
    .update fun t => { t with sources := put t.sources rest }
    return v

def readNow : Call Timing Error Instant := next (·.nows) fun s l => { s with nows := l }

def readTick : Call Timing Error (Option Int) := next (·.ticks) fun s l => { s with ticks := l }

def readWall : Call Timing Error (Option Instant) := next (·.walls) fun s l => { s with walls := l }

def readHealth : Call Timing Error Bool := next (·.health) fun s l => { s with health := l }

/-! ### Methods -/

/-- The second half of `tick`: check a value that was read and store it. -/
def accept (c : ControlClock) (value : Option Int) : Except Error Int × ControlClock :=
  match value with
  | some v =>
    if v < c.last then
      (.error (.unavailable "Control timing is unqualified"), { c with timerFault := true })
    else (.ok v, { c with last := v })
  | none => (.error (.unavailable "Control timing is unqualified"), { c with timerFault := true })

/-- `ControlClock.tick` -/
def tick : Call Timing Error Int := do
  let t ← Call.self
  if !t.clock.qualified || t.clock.timerFault then
    .raise (.unavailable "Control timing is unqualified")
  else
    let value ← readTick
    .update fun u => { u with clock := (accept t.clock value).2 }
    .lift (accept t.clock value).1

/-- `ControlClock.recovered` -/
def recovered : Call Timing Error Bool := do
  let tick ← tick
  let t ← Call.self
  return t.clock.fenceUs ≤ tick - t.clock.fenceStart

/-- `anchor + timedelta(microseconds=tick - start)` -/
def instantOf (c : ControlClock) (anchor : Instant) (tick : Int) : Instant :=
  anchor + (tick - c.start)

/-- `ControlClock.logical_now` -/
def logicalNow : Call Timing Error Instant := do
  let tick ← tick
  let t ← Call.self
  match t.clock.anchor with
  | none => .raise (.unavailable "Control UTC anchor is invalid")
  | some anchor => return t.clock.instantOf anchor tick

/-- A wall reading agrees with the clock to the second. -/
def agrees (value : Instant) : Option Instant → Bool
  | none => false
  | some wall => !(decide (second < |wall - value|))

/-- `ControlClock.sample` -/
def sample : Call Timing Error (Instant × Int) := do
  let tick ← tick
  let wall ← readWall
  let t ← Call.self
  match t.clock.anchor with
  | none =>
    .update fun t => { t with clock := { t.clock with wallFault := true } }
    .raise (.unavailable "Control UTC anchor is invalid")
  | some anchor =>
    let value := t.clock.instantOf anchor tick
    .update fun t =>
      { t with clock := { t.clock with wallFault := t.clock.wallFault || !agrees value wall } }
    let t ← Call.self
    let unhealthy : Error := .unavailable "Control authority is recovering or unhealthy"
    if t.clock.wallFault then .raise unhealthy
    else if !(← readHealth) then .raise unhealthy
    else if !(← recovered) then .raise unhealthy
    else return (value, tick)

/-! ### What every call keeps

Whatever a method returns or raises, the constants of the clock stay, `last`
does not decrease, and a new `last` is a tick that was read. -/

/-- The clock and its sources after some calls. -/
structure Advances (a b : Timing) : Prop where
  epoch : b.clock.epoch = a.clock.epoch
  qualified : b.clock.qualified = a.clock.qualified
  start : b.clock.start = a.clock.start
  anchor : b.clock.anchor = a.clock.anchor
  fenceUs : b.clock.fenceUs = a.clock.fenceUs
  fenceStart : b.clock.fenceStart = a.clock.fenceStart
  last : a.clock.last ≤ b.clock.last
  read : b.clock.last = a.clock.last ∨ some b.clock.last ∈ a.sources.ticks
  ticks : b.sources.ticks <:+ a.sources.ticks
  nows : b.sources.nows <:+ a.sources.nows

namespace Advances

theorem refl (a : Timing) : Advances a a :=
  ⟨rfl, rfl, rfl, rfl, rfl, rfl, Int.le_refl _, Or.inl rfl, List.suffix_refl _,
    List.suffix_refl _⟩

theorem trans {a b c : Timing} (h : Advances a b) (k : Advances b c) : Advances a c where
  epoch := k.epoch.trans h.epoch
  qualified := k.qualified.trans h.qualified
  start := k.start.trans h.start
  anchor := k.anchor.trans h.anchor
  fenceUs := k.fenceUs.trans h.fenceUs
  fenceStart := k.fenceStart.trans h.fenceStart
  last := h.last.trans k.last
  read := by
    rcases k.read with hk | hk
    · rw [hk]; exact h.read
    · exact Or.inr (h.ticks.mem hk)
  ticks := k.ticks.trans h.ticks
  nows := k.nows.trans h.nows

/-- Reading sources and setting fault flags. -/
theorem of_eq {a b : Timing} (hc : b.clock = { a.clock with
      timerFault := b.clock.timerFault, wallFault := b.clock.wallFault })
    (ht : b.sources.ticks <:+ a.sources.ticks) (hn : b.sources.nows <:+ a.sources.nows) :
    Advances a b := by
  have hl : b.clock.last = a.clock.last := by rw [hc]
  refine ⟨by rw [hc], by rw [hc], by rw [hc], by rw [hc], by rw [hc], by rw [hc], ?_, ?_, ht, hn⟩
  · rw [hl]
  · exact Or.inl hl

end Advances

theorem run_next {α : Type} (get : Sources → List α) (put : Sources → List α → Sources)
    (t : Timing) :
    (next get put).run t =
      match get t.sources with
      | [] => (.error (.other "time source"), t)
      | v :: rest => (.ok v, { t with sources := put t.sources rest }) := by
  unfold next
  rw [Call.run_bind_self]
  cases get t.sources <;> rfl

theorem readNow_ok {t t' : Timing} {now : Instant} :
    readNow.run t = (.ok now, t') ↔
      ∃ rest, t.sources.nows = now :: rest ∧
        t' = { t with sources := { t.sources with nows := rest } } := by
  rw [readNow, run_next]
  cases t.sources.nows with
  | nil => simp
  | cons w rest => simp [eq_comm]

theorem readTick_ok {t t' : Timing} {v : Option Int} :
    readTick.run t = (.ok v, t') ↔
      ∃ rest, t.sources.ticks = v :: rest ∧
        t' = { t with sources := { t.sources with ticks := rest } } := by
  rw [readTick, run_next]
  cases t.sources.ticks with
  | nil => simp
  | cons w rest => simp [eq_comm]

theorem next_moves {α : Type} {get : Sources → List α} {put : Sources → List α → Sources}
    (hticks : ∀ s v rest, get s = v :: rest → (put s rest).ticks <:+ s.ticks)
    (hnows : ∀ s v rest, get s = v :: rest → (put s rest).nows <:+ s.nows) :
    Call.Moves Advances (next get put) := by
  intro t
  rw [run_next]
  cases h : get t.sources with
  | nil => exact .refl t
  | cons v rest => exact .of_eq rfl (hticks _ _ _ h) (hnows _ _ _ h)

theorem readNow_moves : Call.Moves Advances readNow :=
  next_moves (fun _ _ _ _ => List.suffix_refl _)
    fun _ v rest h => by rw [h]; exact List.suffix_cons v rest

theorem readTick_moves : Call.Moves Advances readTick :=
  next_moves (fun _ v rest h => by rw [h]; exact List.suffix_cons v rest)
    fun _ _ _ _ => List.suffix_refl _

theorem readWall_moves : Call.Moves Advances readWall :=
  next_moves (fun _ _ _ _ => List.suffix_refl _) fun _ _ _ _ => List.suffix_refl _

theorem readHealth_moves : Call.Moves Advances readHealth :=
  next_moves (fun _ _ _ _ => List.suffix_refl _) fun _ _ _ _ => List.suffix_refl _

theorem tick_moves : Call.Moves Advances tick := by
  intro t
  unfold tick
  rw [Call.run_bind_self]
  split
  · exact .refl t
  · rcases hr : readTick.run t with ⟨e | value, t₁⟩
    · rw [Call.run_bind, hr]
      exact readTick_moves.of_run hr
    · obtain ⟨rest, hrest, rfl⟩ := readTick_ok.mp hr
      rw [Call.run_bind_of_ok hr, Call.run_bind_update]
      have hsuf : rest <:+ t.sources.ticks := by rw [hrest]; exact List.suffix_cons value rest
      cases value with
      | none => exact .of_eq rfl hsuf (List.suffix_refl _)
      | some v =>
          by_cases hv : v < t.clock.last
          · simp only [accept, if_pos hv, Call.run_lift]
            exact .of_eq rfl hsuf (List.suffix_refl _)
          · simp only [accept, if_neg hv, Call.run_lift]
            exact ⟨rfl, rfl, rfl, rfl, rfl, rfl, by dsimp only; omega,
              Or.inr (by rw [hrest]; exact List.mem_cons_self ..), hsuf,
              List.suffix_refl _⟩

theorem recovered_moves : Call.Moves Advances recovered :=
  .bind (fun _ _ _ => .trans) tick_moves fun _ =>
    .bind (fun _ _ _ => .trans) (.self .refl) fun _ => .pure .refl _

theorem logicalNow_moves : Call.Moves Advances logicalNow :=
  .bind (fun _ _ _ => .trans) tick_moves fun _ =>
    .bind (fun _ _ _ => .trans) (.self .refl) fun t => by
      cases t.clock.anchor with
      | none => exact .raise .refl _
      | some anchor => exact .pure .refl _

theorem sample_moves : Call.Moves Advances sample := by
  have hflag : ∀ f : Timing → Bool, Call.Moves Advances
      (.update fun t => { t with clock := { t.clock with wallFault := f t } } :
        Call Timing Error Unit) :=
    fun f => .update fun t => .of_eq rfl (List.suffix_refl _) (List.suffix_refl _)
  refine .bind (fun _ _ _ => .trans) tick_moves fun tick => ?_
  refine .bind (fun _ _ _ => .trans) readWall_moves fun wall => ?_
  refine .bind (fun _ _ _ => .trans) (.self .refl) fun t => ?_
  cases t.clock.anchor with
  | none => exact .bind (fun _ _ _ => .trans) (hflag fun _ => true) fun _ => .raise .refl _
  | some anchor =>
      refine .bind (fun _ _ _ => .trans) (hflag _) fun _ => ?_
      refine .bind (fun _ _ _ => .trans) (.self .refl) fun u => ?_
      dsimp only
      split
      · exact .raise .refl _
      · refine .bind (fun _ _ _ => .trans) readHealth_moves fun healthy => ?_
        split
        · exact .raise .refl _
        · refine .bind (fun _ _ _ => .trans) recovered_moves fun done => ?_
          split
          · exact .raise .refl _
          · exact .pure .refl _

/-! ### Calls that returned -/

/-- A tick that was returned is the next reading of the source, not before the
last one, and is stored. -/
theorem tick_ok {t t' : Timing} {v : Int} :
    tick.run t = (.ok v, t') ↔
      t.clock.qualified = true ∧ t.clock.timerFault = false ∧
      ∃ rest, t.sources.ticks = some v :: rest ∧ t.clock.last ≤ v ∧
        t' = ⟨{ t.sources with ticks := rest }, { t.clock with last := v }⟩ := by
  unfold tick
  rw [Call.run_bind_self]
  split
  · rename_i h
    simp only [Bool.or_eq_true, Bool.not_eq_true', Call.run_raise, Prod.mk.injEq, reduceCtorEq,
      false_and, false_iff] at h ⊢
    rintro ⟨hq, hf, -⟩
    rcases h with h | h
    · rw [hq] at h; cases h
    · rw [hf] at h; cases h
  · rename_i h
    obtain ⟨hq, hf⟩ : t.clock.qualified = true ∧ t.clock.timerFault = false := by simpa using h
    rw [Call.run_bind_ok]
    constructor
    · rintro ⟨value, t₁, hr, h⟩
      obtain ⟨rest, hrest, rfl⟩ := readTick_ok.mp hr
      rw [Call.run_bind_update] at h
      obtain ⟨hacc, rfl⟩ := Call.run_lift_ok.mp h
      cases value with
      | none => simp [accept] at hacc
      | some w =>
          by_cases hw : w < t.clock.last
          · simp [accept, hw] at hacc
          · simp only [accept, if_neg hw, Except.ok.injEq] at hacc
            subst hacc
            exact ⟨hq, hf, rest, hrest, by omega, by simp [accept, hw]⟩
    · rintro ⟨-, -, rest, hrest, hle, rfl⟩
      have hw : ¬ v < t.clock.last := by omega
      refine ⟨some v, _, readTick_ok.mpr ⟨rest, hrest, rfl⟩, ?_⟩
      rw [Call.run_bind_update]
      simp [accept, hw]

/-- `logical_now` at the tick it read. -/
theorem logicalNow_ok {t t' : Timing} {now : Instant} :
    logicalNow.run t = (.ok now, t') ↔
      ∃ v anchor, tick.run t = (.ok v, t') ∧ t.clock.anchor = some anchor ∧
        now = t.clock.instantOf anchor v := by
  unfold logicalNow
  rw [Call.run_bind_ok]
  constructor
  · rintro ⟨v, t₁, ht, h⟩
    have hadv := tick_moves.of_run ht
    rw [Call.run_bind_self] at h
    cases ha : t₁.clock.anchor with
    | none => simp [ha] at h
    | some anchor =>
        rw [ha] at h
        simp only [Call.run_pure, Prod.mk.injEq, Except.ok.injEq] at h
        obtain ⟨rfl, rfl⟩ := h
        refine ⟨v, anchor, ht, by rw [← hadv.anchor]; exact ha, ?_⟩
        simp [instantOf, hadv.start]
  · rintro ⟨v, anchor, ht, ha, rfl⟩
    have hadv := tick_moves.of_run ht
    refine ⟨v, t', ht, ?_⟩
    rw [Call.run_bind_self, hadv.anchor, ha]
    simp [instantOf, hadv.start]

/-- `recovered` compares the time since the fence started with its length. -/
theorem recovered_ok {t t' : Timing} {b : Bool} :
    recovered.run t = (.ok b, t') ↔
      ∃ v, tick.run t = (.ok v, t') ∧
        b = decide (t.clock.fenceUs ≤ v - t.clock.fenceStart) := by
  unfold recovered
  rw [Call.run_bind_ok]
  constructor
  · rintro ⟨v, t₁, ht, h⟩
    have hadv := tick_moves.of_run ht
    rw [Call.run_bind_self] at h
    simp only [Call.run_pure, Prod.mk.injEq, Except.ok.injEq] at h
    obtain ⟨rfl, rfl⟩ := h
    exact ⟨v, ht, by rw [hadv.fenceUs, hadv.fenceStart]⟩
  · rintro ⟨v, ht, rfl⟩
    have hadv := tick_moves.of_run ht
    refine ⟨v, t', ht, ?_⟩
    rw [Call.run_bind_self, hadv.fenceUs, hadv.fenceStart]
    simp

/-- What a sample that was returned says: the tick, the instant of that tick,
and that the fence had passed by then. -/
structure Sampled (t : Timing) (now : Instant) (v : Int) (t' : Timing) : Prop where
  qualified : t.clock.qualified = true
  head : ∃ rest, t.sources.ticks = some v :: rest
  last : t.clock.last ≤ v
  after : v ≤ t'.clock.last
  instant : ∃ anchor, t.clock.anchor = some anchor ∧ now = t.clock.instantOf anchor v
  recovered : t.clock.fenceUs ≤ t'.clock.last - t.clock.fenceStart
  advances : Advances t t'

theorem sample_ok {t t' : Timing} {now : Instant} {v : Int}
    (h : sample.run t = (.ok (now, v), t')) : Sampled t now v t' := by
  have hmoves := sample_moves.of_run h
  unfold sample at h
  obtain ⟨tick, t₁, ht, h⟩ := Call.run_bind_ok.mp h
  obtain ⟨wall, t₂, hw, h⟩ := Call.run_bind_ok.mp h
  have h₁ := tick_moves.of_run ht
  have h₂ := readWall_moves.of_run hw
  rw [Call.run_bind_self] at h
  cases ha : t₂.clock.anchor with
  | none => rw [ha] at h; simp [Call.run_bind_update] at h
  | some anchor =>
      rw [ha] at h
      rw [Call.run_bind_update, Call.run_bind_self] at h
      split at h
      · simp at h
      obtain ⟨healthy, t₃, hh, h⟩ := Call.run_bind_ok.mp h
      have h₃ := readHealth_moves.of_run hh
      split at h
      · simp at h
      obtain ⟨done, t₄, hr, h⟩ := Call.run_bind_ok.mp h
      split at h
      · simp at h
      rename_i hdone
      simp only [Call.run_pure, Prod.mk.injEq, Except.ok.injEq] at h
      obtain ⟨⟨rfl, rfl⟩, rfl⟩ := h
      obtain ⟨w, htick, rfl⟩ := recovered_ok.mp hr
      obtain ⟨hq, -, rest, hrest, hle, rfl⟩ := tick_ok.mp ht
      obtain ⟨-, -, rest', -, hle', rfl⟩ := tick_ok.mp htick
      have hfence : t₃.clock.fenceUs ≤ w - t₃.clock.fenceStart := by simpa using hdone
      have hlast : tick ≤ t₂.clock.last := h₂.last
      have hlast' : t₂.clock.last ≤ t₃.clock.last := h₃.last
      refine ⟨hq, ⟨rest, hrest⟩, hle, ?_, ⟨anchor, ?_, ?_⟩, ?_, hmoves⟩
      · dsimp only; omega
      · rw [← ha, h₂.anchor]
      · simp [instantOf, h₂.start]
      · rw [h₃.fenceUs, h₃.fenceStart] at hfence
        dsimp only at hfence ⊢
        rwa [h₂.fenceUs, h₂.fenceStart] at hfence

end ControlClock

end KzHome

import KzHome.ControlClock

/-!
# KzHome.ClockHistories

The control clock, called again and again.

What the methods make of the clock is what they make of the tick readings, one after the
other (`Hears`), and a flag that only `sample` looks at. So a bad tick is the end of every
method, and a bad wall reading the end of `sample` alone: the other methods answer as if it
had not been (`answer_eq`).
-/

namespace KzHome

namespace ControlClock

/-- The methods of a clock. -/
inductive Method
  | tick
  | recovered
  | logicalNow
  | sample
  deriving DecidableEq

/-- What a method returns. -/
inductive Answer
  | tick (v : Int)
  | recovered (done : Bool)
  | instant (now : Instant)
  | sample (now : Instant) (v : Int)
  deriving DecidableEq

/-- The call of a method. -/
def Method.call : Method → Call Timing Error Answer
  | .tick => do
    let v ← ControlClock.tick
    return .tick v
  | .recovered => do
    let done ← ControlClock.recovered
    return .recovered done
  | .logicalNow => do
    let now ← ControlClock.logicalNow
    return .instant now
  | .sample => do
    let (now, v) ← ControlClock.sample
    return .sample now v

/-- What a method returns or raises. -/
def answer (t : Timing) (m : Method) : Except Error Answer := (m.call.run t).1

/-- The clock and its sources after calls of the methods, one at a time. -/
def after (t : Timing) (methods : List Method) : Timing :=
  methods.foldl (fun t m => (m.call.run t).2) t

@[simp] theorem after_nil (t : Timing) : after t [] = t := rfl

theorem after_append (t : Timing) (ms more : List Method) :
    after t (ms ++ more) = after (after t ms) more := by
  simp [after]

theorem after_snoc (t : Timing) (ms : List Method) (m : Method) :
    after t (ms ++ [m]) = (m.call.run (after t ms)).2 := by
  simp [after]

/-! ### What the readings make of the clock -/

/-- The clock after the readings, all of which it has looked at. -/
def hear (c : ControlClock) (read : List (Option Int)) : ControlClock :=
  read.foldl (fun c v => (c.accept v).2) c

@[simp] theorem hear_nil (c : ControlClock) : c.hear [] = c := rfl

@[simp] theorem hear_cons (c : ControlClock) (v : Option Int) (read : List (Option Int)) :
    c.hear (v :: read) = (c.accept v).2.hear read := rfl

theorem hear_append (c : ControlClock) (read more : List (Option Int)) :
    c.hear (read ++ more) = (c.hear read).hear more := by
  simp [hear]

theorem accept_wallFault (c : ControlClock) (v : Option Int) (b : Bool) :
    ({ c with wallFault := b }.accept v) =
      ((c.accept v).1, { (c.accept v).2 with wallFault := b }) := by
  unfold accept
  split
  · dsimp only
    split <;> rfl
  · rfl

theorem hear_wallFault (c : ControlClock) (read : List (Option Int)) (b : Bool) :
    { c with wallFault := b }.hear read = { c.hear read with wallFault := b } := by
  induction read generalizing c with
  | nil => rfl
  | cons v read ih => rw [hear_cons, hear_cons, accept_wallFault, ih]

theorem accept_keeps_wallFault (c : ControlClock) (v : Option Int) :
    (c.accept v).2.wallFault = c.wallFault := by
  unfold accept
  split
  · split <;> rfl
  · rfl

/-- `a` becomes `b` by the tick readings, but for the wall fault, which is latched as well. -/
structure Hears (read : List (Option Int)) (a b : Timing) : Prop where
  ticks : a.sources.ticks = read ++ b.sources.ticks
  clock : b.clock = { a.clock.hear read with wallFault := b.clock.wallFault }
  wall : a.clock.wallFault = true → b.clock.wallFault = true

theorem Hears.refl (a : Timing) : Hears [] a a := ⟨rfl, rfl, id⟩

theorem Hears.trans {a b c : Timing} {read more : List (Option Int)} (h : Hears read a b)
    (k : Hears more b c) : Hears (read ++ more) a c := by
  refine ⟨?_, ?_, fun hw => k.wall (h.wall hw)⟩
  · rw [h.ticks, k.ticks, List.append_assoc]
  · rw [k.clock, h.clock, hear_wallFault, hear_append]

/-- Whatever a call does, it hears some readings. -/
def Listens (a b : Timing) : Prop := ∃ read, Hears read a b

theorem Listens.refl (a : Timing) : Listens a a := ⟨[], .refl a⟩

theorem Listens.trans (a b c : Timing) (h : Listens a b) (k : Listens b c) : Listens a c := by
  obtain ⟨read, h⟩ := h
  obtain ⟨more, k⟩ := k
  exact ⟨read ++ more, h.trans k⟩

/-- What the clock's `tick` does. -/
theorem run_tick (t : Timing) : tick.run t =
    if !t.clock.qualified || t.clock.timerFault then
      (.error (.unavailable "Control timing is unqualified"), t)
    else match t.sources.ticks with
      | [] => (.error (.other "time source"), t)
      | v :: rest => ((t.clock.accept v).1, ⟨{ t.sources with ticks := rest }, (t.clock.accept v).2⟩)
    := by
  unfold tick
  rw [Call.run_bind_self]
  split
  · rfl
  · rw [Call.run_bind, readTick, run_next]
    cases t.sources.ticks with
    | nil => rfl
    | cons v rest => rfl

theorem tick_listens : Call.Moves Listens tick := by
  intro t
  rw [run_tick]
  split
  · exact .refl t
  · split
    · exact .refl t
    · rename_i v rest hticks
      exact ⟨[v], hticks, rfl, fun h => (accept_keeps_wallFault t.clock v).trans h⟩

theorem recovered_listens : Call.Moves Listens recovered :=
  .bind Listens.trans tick_listens fun _ =>
    .bind Listens.trans (.self .refl) fun _ => .pure .refl _

theorem logicalNow_listens : Call.Moves Listens logicalNow :=
  .bind Listens.trans tick_listens fun _ =>
    .bind Listens.trans (.self .refl) fun t => by
      cases t.clock.anchor with
      | none => exact .raise .refl _
      | some anchor => exact .pure .refl _

theorem readWall_listens : Call.Moves Listens readWall := by
  intro t
  rw [readWall, run_next]
  cases t.sources.walls with
  | nil => exact .refl t
  | cons w rest => exact ⟨[], rfl, rfl, id⟩

theorem readHealth_listens : Call.Moves Listens readHealth := by
  intro t
  rw [readHealth, run_next]
  cases t.sources.health with
  | nil => exact .refl t
  | cons w rest => exact ⟨[], rfl, rfl, id⟩

theorem sample_listens : Call.Moves Listens sample := by
  have hflag : ∀ f : Timing → Bool, (∀ t, t.clock.wallFault = true → f t = true) →
      Call.Moves Listens (.update fun t => { t with clock := { t.clock with wallFault := f t } } :
        Call Timing Error Unit) :=
    fun f hf => .update fun t => ⟨[], rfl, rfl, hf t⟩
  refine .bind Listens.trans tick_listens fun tick => ?_
  refine .bind Listens.trans readWall_listens fun wall => ?_
  refine .bind Listens.trans (.self .refl) fun t => ?_
  cases t.clock.anchor with
  | none =>
      exact .bind Listens.trans (hflag (fun _ => true) fun _ _ => rfl) fun _ => .raise .refl _
  | some anchor =>
      refine .bind Listens.trans (hflag _ fun t ht => by rw [ht, Bool.true_or]) fun _ => ?_
      refine .bind Listens.trans (.self .refl) fun u => ?_
      dsimp only
      split
      · exact .raise .refl _
      · refine .bind Listens.trans readHealth_listens fun healthy => ?_
        split
        · exact .raise .refl _
        · refine .bind Listens.trans recovered_listens fun done => ?_
          split
          · exact .raise .refl _
          · exact .pure .refl _

theorem call_listens (m : Method) : Call.Moves Listens m.call := by
  cases m with
  | tick => exact .bind Listens.trans tick_listens fun _ => .pure .refl _
  | recovered => exact .bind Listens.trans recovered_listens fun _ => .pure .refl _
  | logicalNow => exact .bind Listens.trans logicalNow_listens fun _ => .pure .refl _
  | sample => exact .bind Listens.trans sample_listens fun _ => .pure .refl _

/-- **A history** hears the readings that its calls have made. -/
theorem after_listens (t : Timing) (ms : List Method) : Listens t (after t ms) := by
  induction ms generalizing t with
  | nil => exact .refl t
  | cons m ms ih => exact Listens.trans _ _ _ (call_listens m t) (ih (m.call.run t).2)

/-! ### Bad readings -/

/-- A reading that latches the timer fault, after the good ones: it is no integer, or lower than
one before it. -/
def Bad (c : ControlClock) (good : List (Option Int)) (v : Option Int) : Prop :=
  v = none ∨ ∃ w, v = some w ∧ (w < c.last ∨ ∃ u, some u ∈ good ∧ w < u)

theorem accept_timerFault {c : ControlClock} (h : c.timerFault = true) (v : Option Int) :
    (c.accept v).2.timerFault = true := by
  unfold accept
  split
  · split
    · rfl
    · exact h
  · rfl

theorem hear_timerFault {c : ControlClock} (h : c.timerFault = true) (read : List (Option Int)) :
    (c.hear read).timerFault = true := by
  induction read generalizing c with
  | nil => exact h
  | cons v read ih => exact ih (accept_timerFault h v)

theorem accept_last (c : ControlClock) (v : Option Int) : c.last ≤ (c.accept v).2.last := by
  unfold accept
  split
  · split
    · exact Int.le_refl _
    · dsimp only
      omega
  · exact Int.le_refl _

theorem hear_last (c : ControlClock) (read : List (Option Int)) : c.last ≤ (c.hear read).last := by
  induction read generalizing c with
  | nil => exact Int.le_refl _
  | cons v read ih => exact (accept_last c v).trans (ih (c.accept v).2)

/-- Without a fault, the last tick is the highest that was read. -/
theorem le_hear_last {c : ControlClock} {read : List (Option Int)}
    (h : (c.hear read).timerFault = false) {u : Int} (hu : some u ∈ read) :
    u ≤ (c.hear read).last := by
  induction read generalizing c with
  | nil => cases hu
  | cons v read ih =>
      rcases List.mem_cons.mp hu with rfl | hu
      · refine le_trans ?_ (hear_last _ read)
        rw [hear_cons] at h
        by_cases hlt : u < c.last
        · -- a lower reading would have latched the fault
          have hfault : (c.accept (some u)).2.timerFault = true := by simp [accept, hlt]
          rw [hear_timerFault hfault] at h
          cases h
        · simp [accept, hlt]
      · exact ih h hu

/-- **A bad reading** latches the timer fault. -/
theorem hear_bad {c : ControlClock} {good : List (Option Int)} {v : Option Int}
    (h : Bad c good v) (more : List (Option Int)) :
    (c.hear (good ++ v :: more)).timerFault = true := by
  rw [hear_append, hear_cons]
  refine hear_timerFault ?_ more
  by_cases hgood : (c.hear good).timerFault = true
  · exact accept_timerFault hgood v
  · rw [Bool.not_eq_true] at hgood
    rcases h with rfl | ⟨w, rfl, hw⟩
    · rfl
    · have hlt : w < (c.hear good).last := by
        rcases hw with hw | ⟨u, hu, hw⟩
        · exact lt_of_lt_of_le hw (hear_last c good)
        · exact lt_of_lt_of_le hw (le_hear_last hgood hu)
      simp [accept, hlt]

/-! ### Calls that returned -/

/-- **A sample that returned**: its tick, a wall reading that agrees, no wall fault from before,
a healthy UTC source, and a fence that has passed. -/
theorem sample_inv {t t' : Timing} {now : Instant} {v : Int}
    (h : sample.run t = (.ok (now, v), t')) :
    ∃ t₁ t₂ wall anchor, tick.run t = (.ok v, t₁) ∧ t.sources.walls.head? = some wall ∧
      t.clock.anchor = some anchor ∧ agrees (t.clock.instantOf anchor v) wall = true ∧
      t.clock.wallFault = false ∧ t.sources.health.head? = some true ∧
      t₂.clock = t₁.clock ∧ recovered.run t₂ = (.ok true, t') := by
  unfold sample at h
  obtain ⟨tick, t₁, ht, h⟩ := Call.run_bind_ok.mp h
  obtain ⟨-, -, rest, -, -, heq⟩ := tick_ok.mp ht
  obtain ⟨wall, t₂, hw, h⟩ := Call.run_bind_ok.mp h
  rw [readWall, run_next] at hw
  cases hwalls : t₁.sources.walls with
  | nil => rw [hwalls] at hw; simp at hw
  | cons wall' walls =>
  rw [hwalls] at hw
  obtain ⟨hwall, rfl⟩ := Prod.mk.inj hw
  obtain rfl := Except.ok.inj hwall
  rw [Call.run_bind_self] at h
  cases ha : t₁.clock.anchor with
  | none => simp only [ha, Call.run_bind_update, Call.run_raise] at h; simp at h
  | some anchor =>
  simp only [ha, Call.run_bind_update, Call.run_bind_self] at h
  split at h
  · simp at h
  rename_i hfault
  rw [Bool.or_eq_true, not_or, Bool.not_eq_true, Bool.not_eq_true, Bool.not_eq_false'] at hfault
  obtain ⟨healthy, t₃, hh, h⟩ := Call.run_bind_ok.mp h
  rw [readHealth, run_next] at hh
  cases hhealth : t₁.sources.health with
  | nil => simp only [hhealth] at hh; simp at hh
  | cons healthy' health =>
  simp only [hhealth] at hh
  obtain ⟨hhealthy, rfl⟩ := Prod.mk.inj hh
  obtain rfl := Except.ok.inj hhealthy
  split at h
  · simp at h
  rename_i hok
  obtain ⟨done, t₄, hr, h⟩ := Call.run_bind_ok.mp h
  split at h
  · simp at h
  rename_i hdone
  simp only [Call.run_pure, Prod.mk.injEq, Except.ok.injEq] at h
  obtain ⟨⟨-, rfl⟩, rfl⟩ := h
  rw [Bool.not_eq_true', Bool.not_eq_false] at hok hdone
  subst hok hdone
  obtain ⟨hbefore, hagrees⟩ := hfault
  refine ⟨t₁, _, wall', anchor, ht, ?_, ?_, ?_, ?_, ?_, ?_, hr⟩
  · rw [heq] at hwalls
    exact congrArg List.head? hwalls
  · rw [heq] at ha
    exact ha
  · rw [heq] at hagrees
    exact hagrees
  · rw [heq] at hbefore
    exact hbefore
  · rw [heq] at hhealth
    exact congrArg List.head? hhealth
  · dsimp only
    rw [hagrees, Bool.not_true, Bool.or_false, ← ha]

/-- A tick that was returned leaves no fault behind. -/
theorem tick_sound {t t' : Timing} {v : Int} (h : tick.run t = (.ok v, t')) :
    t'.clock.timerFault = false := by
  obtain ⟨-, hfault, rest, -, -, rfl⟩ := tick_ok.mp h
  exact hfault

/-- **A call that returned** has heard no bad reading, and none before it. -/
theorem call_sound {t t' : Timing} {m : Method} {a : Answer} (h : m.call.run t = (.ok a, t')) :
    t'.clock.timerFault = false := by
  cases m with
  | tick =>
      obtain ⟨v, t₁, ht, h⟩ := Call.run_bind_ok.mp h
      obtain ⟨-, rfl⟩ := Prod.mk.inj h
      exact tick_sound ht
  | recovered =>
      obtain ⟨b, t₁, hr, h⟩ := Call.run_bind_ok.mp h
      obtain ⟨-, rfl⟩ := Prod.mk.inj h
      obtain ⟨v, ht, -⟩ := recovered_ok.mp hr
      exact tick_sound ht
  | logicalNow =>
      obtain ⟨now, t₁, hn, h⟩ := Call.run_bind_ok.mp h
      obtain ⟨-, rfl⟩ := Prod.mk.inj h
      obtain ⟨v, anchor, ht, -, -⟩ := logicalNow_ok.mp hn
      exact tick_sound ht
  | sample =>
      obtain ⟨⟨now, v⟩, t₁, hs, h⟩ := Call.run_bind_ok.mp h
      obtain ⟨-, rfl⟩ := Prod.mk.inj h
      obtain ⟨t₁, t₂, wall, anchor, -, -, -, -, -, -, -, hr⟩ := sample_inv hs
      obtain ⟨w, ht, -⟩ := recovered_ok.mp hr
      exact tick_sound ht

theorem call_of_answer {t : Timing} {m : Method} {a : Answer} (h : answer t m = .ok a) :
    m.call.run t = (.ok a, (m.call.run t).2) := Prod.ext h rfl

/-! ### The constants -/

theorem call_moves (m : Method) : Call.Moves Advances m.call := by
  cases m with
  | tick => exact .bind (fun _ _ _ => .trans) tick_moves fun _ => .pure .refl _
  | recovered => exact .bind (fun _ _ _ => .trans) recovered_moves fun _ => .pure .refl _
  | logicalNow => exact .bind (fun _ _ _ => .trans) logicalNow_moves fun _ => .pure .refl _
  | sample => exact .bind (fun _ _ _ => .trans) sample_moves fun _ => .pure .refl _

theorem after_advances (t : Timing) (ms : List Method) : Advances t (after t ms) := by
  induction ms generalizing t with
  | nil => exact .refl t
  | cons m ms ih => exact (call_moves m t).trans (ih (m.call.run t).2)

/-- What an answer tells, in a history of a clock `t`, when a call has turned `s` into `s'`. -/
def Tells (t s s' : Timing) : Answer → Prop
  | .tick v => s.clock.last ≤ v ∧ v = s'.clock.last
  | .recovered done => done = true ↔ t.clock.fenceUs ≤ s'.clock.last - t.clock.fenceStart
  | .instant now => ∃ anchor, t.clock.anchor = some anchor ∧
      now = anchor + (s'.clock.last - t.clock.start)
  | .sample now v => t.clock.qualified = true ∧ s.sources.health.head? = some true ∧
      t.clock.fenceUs ≤ s'.clock.last - t.clock.fenceStart ∧
      s.clock.last ≤ v ∧ v ≤ s'.clock.last ∧
      ∃ anchor, t.clock.anchor = some anchor ∧ now = anchor + (v - t.clock.start)

theorem tells_of_ok {t s : Timing} (hs : Advances t s) {m : Method} {a : Answer}
    (h : answer s m = .ok a) : Tells t s (m.call.run s).2 a := by
  have hrun := call_of_answer h
  generalize (m.call.run s).2 = s' at hrun ⊢
  cases m with
  | tick =>
      obtain ⟨v, t₁, ht, h⟩ := Call.run_bind_ok.mp hrun
      obtain ⟨ha, rfl⟩ := Prod.mk.inj h
      obtain rfl := Except.ok.inj ha
      obtain ⟨-, -, rest, -, hle, rfl⟩ := tick_ok.mp ht
      exact ⟨hle, rfl⟩
  | recovered =>
      obtain ⟨b, t₁, hr, h⟩ := Call.run_bind_ok.mp hrun
      obtain ⟨ha, rfl⟩ := Prod.mk.inj h
      obtain rfl := Except.ok.inj ha
      obtain ⟨v, ht, rfl⟩ := recovered_ok.mp hr
      obtain ⟨-, -, rest, -, hle, rfl⟩ := tick_ok.mp ht
      rw [Tells, decide_eq_true_iff, hs.fenceUs, hs.fenceStart]
  | logicalNow =>
      obtain ⟨now, t₁, hn, h⟩ := Call.run_bind_ok.mp hrun
      obtain ⟨ha, rfl⟩ := Prod.mk.inj h
      obtain rfl := Except.ok.inj ha
      obtain ⟨v, anchor, ht, hanchor, rfl⟩ := logicalNow_ok.mp hn
      obtain ⟨-, -, rest, -, hle, rfl⟩ := tick_ok.mp ht
      refine ⟨anchor, hs.anchor.symm.trans hanchor, ?_⟩
      rw [instantOf, hs.start]
  | sample =>
      obtain ⟨⟨now, v⟩, t₁, hsample, h⟩ := Call.run_bind_ok.mp hrun
      obtain ⟨ha, rfl⟩ := Prod.mk.inj h
      obtain rfl := Except.ok.inj ha
      have hsampled := sample_ok hsample
      obtain ⟨anchor, hanchor, hnow⟩ := hsampled.instant
      obtain ⟨_, _, _, _, -, -, -, -, -, hhealth, -⟩ := sample_inv hsample
      refine ⟨hs.qualified.symm.trans hsampled.qualified, hhealth, ?_, hsampled.last,
        hsampled.after, anchor, hs.anchor.symm.trans hanchor, ?_⟩
      · rw [← hs.fenceUs, ← hs.fenceStart]
        exact hsampled.recovered
      · rw [hnow, instantOf, hs.start]

/-! ### The wall fault -/

/-- The clock without its wall fault. -/
def forget (c : ControlClock) : ControlClock := { c with wallFault := false }

theorem eq_of_forget {c c' : ControlClock} (h : c.forget = c'.forget) :
    c' = { c with wallFault := c'.wallFault } := by
  have hclear : ∀ d : ControlClock, { d.forget with wallFault := d.wallFault } = d := fun _ => rfl
  rw [← hclear c', ← h]
  rfl

/-- A tick does not look at the wall fault. -/
theorem tick_forget {t t' : Timing} (hc : t.clock.forget = t'.clock.forget)
    (hv : t.sources.ticks.head? = t'.sources.ticks.head?) :
    (tick.run t).1 = (tick.run t').1 ∧
      (tick.run t).2.clock.forget = (tick.run t').2.clock.forget := by
  obtain ⟨s, c⟩ := t
  obtain ⟨s', c'⟩ := t'
  dsimp only at hc hv
  rw [eq_of_forget hc, run_tick, run_tick]
  generalize c'.wallFault = b
  dsimp only
  split
  · exact ⟨rfl, rfl⟩
  · cases hs : s.ticks with
    | nil =>
        rw [hs, List.head?_nil, eq_comm, List.head?_eq_none_iff] at hv
        rw [hv]
        exact ⟨rfl, rfl⟩
    | cons v rest =>
        rw [hs, List.head?_cons, eq_comm, List.head?_eq_some_iff] at hv
        obtain ⟨rest', hv⟩ := hv
        rw [hv]
        dsimp only
        rw [accept_wallFault c v b]
        exact ⟨rfl, rfl⟩

/-- **The methods but `sample`** answer as if the wall fault were not there. -/
theorem answer_forget {t t' : Timing} (hc : t.clock.forget = t'.clock.forget)
    (hv : t.sources.ticks.head? = t'.sources.ticks.head?) {m : Method} (hm : m ≠ .sample) :
    answer t m = answer t' m := by
  obtain ⟨hanswer, hafter⟩ := tick_forget hc hv
  have hsame := eq_of_forget hafter
  rcases ht : tick.run t with ⟨r, t₁⟩
  rcases ht' : tick.run t' with ⟨r', t₁'⟩
  rw [ht, ht'] at hanswer hsame
  obtain rfl : r = r' := hanswer
  dsimp only at hsame
  cases m with
  | tick =>
      rw [answer, answer, Method.call, Call.run_bind, Call.run_bind, ht, ht']
      cases r <;> rfl
  | recovered =>
      simp only [answer, Method.call, recovered, Call.run_bind, ht, ht']
      cases r with
      | error e => rfl
      | ok v =>
          simp only [Call.run_self, Call.run_pure]
          rw [hsame]
  | logicalNow =>
      simp only [answer, Method.call, logicalNow, Call.run_bind, ht, ht']
      cases r with
      | error e => rfl
      | ok v =>
          simp only [Call.run_self]
          rw [hsame]
          cases t₁.clock.anchor <;> rfl
  | sample => exact absurd rfl hm

/-- A sample sees a wall reading that is no UTC time, or more than a second off. -/
def SeesBadWall (s : Timing) : Prop :=
  ∃ v s₁ wall, tick.run s = (.ok v, s₁) ∧ s.sources.walls.head? = some wall ∧
    (wall = none ∨ ∃ anchor w, s.clock.anchor = some anchor ∧ wall = some w ∧
      second < |w - (anchor + (v - s.clock.start))|)

/-- A bad wall reading latches the wall fault. -/
theorem sample_bad_wall {s : Timing} (h : SeesBadWall s) :
    (Method.sample.call.run s).2.clock.wallFault = true := by
  obtain ⟨v, s₁, wall, ht, hwall, hbad⟩ := h
  obtain ⟨-, -, rest, -, -, heq⟩ := tick_ok.mp ht
  obtain ⟨walls, hwalls⟩ := List.head?_eq_some_iff.mp hwall
  have hread : readWall.run s₁ =
      (.ok wall, { s₁ with sources := { s₁.sources with walls := walls } }) := by
    rw [readWall, run_next, heq, hwalls]
  have hsample : (sample.run s).2.clock.wallFault = true := by
    rw [sample, Call.run_bind_of_ok ht, Call.run_bind_of_ok hread, Call.run_bind_self]
    cases ha : s₁.clock.anchor with
    | none => rfl
    | some anchor =>
        have hdisagrees : agrees (s₁.clock.instantOf anchor v) wall = false := by
          rcases hbad with rfl | ⟨anchor', w, hanchor, rfl, hfar⟩
          · rfl
          · have hsame : anchor' = anchor := by
              rw [heq] at ha
              exact Option.some.inj (hanchor.symm.trans ha)
            subst hsame
            simp only [agrees, instantOf, heq, Bool.not_eq_false', decide_eq_true_eq]
            exact hfar
        simp only [Call.run_bind_update, Call.run_bind_self, hdisagrees, Bool.not_false,
          Bool.or_true, if_true, Call.run_raise]
  rw [Method.call, Call.run_bind]
  rcases hrun : sample.run s with ⟨e | ⟨now, w⟩, s'⟩
  · rw [hrun] at hsample
    exact hsample
  · rw [hrun] at hsample
    exact hsample

/-- A sample that returned had no wall fault. -/
theorem sample_of_wallFault {s : Timing} (h : s.clock.wallFault = true) :
    ∃ e, answer s .sample = .error e := by
  cases ha : answer s .sample with
  | error e => exact ⟨e, rfl⟩
  | ok a =>
      exfalso
      obtain ⟨⟨now, v⟩, t₁, hsample, -⟩ := Call.run_bind_ok.mp (call_of_answer ha)
      obtain ⟨_, _, _, _, -, -, -, -, hfault, -⟩ := sample_inv hsample
      rw [h] at hfault
      cases hfault

/-- A latched timer fault makes every method raise. -/
theorem answer_of_timerFault {t : Timing} (h : t.clock.timerFault = true) (m : Method) :
    answer t m = .error (.unavailable "Control timing is unqualified") := by
  have htick : tick.run t = (.error (.unavailable "Control timing is unqualified"), t) := by
    rw [run_tick, h, Bool.or_true, if_pos rfl]
  cases m with
  | tick => simp only [answer, Method.call, Call.run_bind, htick]
  | recovered => simp only [answer, Method.call, recovered, Call.run_bind, htick]
  | logicalNow => simp only [answer, Method.call, logicalNow, Call.run_bind, htick]
  | sample => simp only [answer, Method.call, sample, Call.run_bind, htick]

/-! ### Histories -/

/-- The readings of a history are determined by what is left of the source. -/
theorem hears_of_ticks {t : Timing} {ms : List Method} {read : List (Option Int)}
    (h : t.sources.ticks = read ++ (after t ms).sources.ticks) : Hears read t (after t ms) := by
  obtain ⟨read', h'⟩ := after_listens t ms
  obtain rfl := List.append_cancel_right (h.symm.trans h'.ticks)
  exact h'

theorem forget_of_hears {t s : Timing} {read : List (Option Int)} (h : Hears read t s) :
    s.clock.forget = t.clock.forget.hear read :=
  calc s.clock.forget = (t.clock.hear read).forget := by rw [h.clock]; rfl
    _ = t.clock.forget.hear read := (hear_wallFault t.clock read false).symm

/-- **After the same ticks** the methods but `sample` answer the same, whatever the wall clocks
and the health did, and whichever calls have read the ticks. -/
theorem answer_eq {t t' : Timing} {ms ms' : List Method} {read : List (Option Int)}
    (hclock : t.clock.forget = t'.clock.forget)
    (hread : t.sources.ticks = read ++ (after t ms).sources.ticks)
    (hread' : t'.sources.ticks = read ++ (after t' ms').sources.ticks)
    (hnext : (after t ms).sources.ticks.head? = (after t' ms').sources.ticks.head?) {m : Method}
    (hm : m ≠ .sample) : answer (after t ms) m = answer (after t' ms') m := by
  refine answer_forget ?_ hnext hm
  rw [forget_of_hears (hears_of_ticks hread), forget_of_hears (hears_of_ticks hread'), hclock]

/-- **A bad tick** is the end of every method, of the one that reads it and of all later ones. -/
theorem bad_tick_fails {t : Timing} {ms : List Method} {good more : List (Option Int)}
    {v : Option Int} (hbad : Bad t.clock good v)
    (hread : t.sources.ticks = good ++ v :: more ++ (after t ms).sources.ticks) (m : Method) :
    answer (after t ms) m = .error (.unavailable "Control timing is unqualified") := by
  refine answer_of_timerFault ?_ m
  rw [(hears_of_ticks hread).clock]
  exact hear_bad hbad more

theorem bad_tick_raises {t : Timing} {ms : List Method} {m : Method}
    {good more : List (Option Int)} {v : Option Int} (hbad : Bad t.clock good v)
    (hread : t.sources.ticks = good ++ v :: more ++ (after t (ms ++ [m])).sources.ticks) :
    ∃ e, answer (after t ms) m = .error e := by
  cases ha : answer (after t ms) m with
  | error e => exact ⟨e, rfl⟩
  | ok a =>
      exfalso
      have hsound := call_sound (call_of_answer ha)
      rw [← after_snoc, (hears_of_ticks hread).clock] at hsound
      exact absurd (hear_bad hbad more) (by rw [hsound]; decide)

/-- **A bad wall reading** is the end of `sample`. -/
theorem bad_wall_fails {t : Timing} {ms : List Method} (h : SeesBadWall (after t ms))
    (more : List Method) : ∃ e, answer (after t (ms ++ .sample :: more)) .sample = .error e := by
  refine sample_of_wallFault ?_
  rw [after_append]
  obtain ⟨read, hhears⟩ := after_listens (Method.sample.call.run (after t ms)).2 more
  exact hhears.wall (sample_bad_wall h)

/-- **Logical time does not go back.** -/
theorem logicalNow_mono {t : Timing} {ms more : List Method} {now now' : Instant}
    (h : answer (after t ms) .logicalNow = .ok (.instant now))
    (h' : answer (after t (ms ++ .logicalNow :: more)) .logicalNow = .ok (.instant now')) :
    now ≤ now' := by
  obtain ⟨anchor, hanchor, rfl⟩ := tells_of_ok (after_advances t ms) h
  obtain ⟨anchor', hanchor', rfl⟩ := tells_of_ok (after_advances t _) h'
  obtain rfl := Option.some.inj (hanchor.symm.trans hanchor')
  have hmore := (after_advances (Method.logicalNow.call.run (after t ms)).2 more).last
  have hlast := (call_moves .logicalNow (after t (ms ++ .logicalNow :: more))).last
  have hsame : after t (ms ++ .logicalNow :: more) =
      after (Method.logicalNow.call.run (after t ms)).2 more := after_append t ms _
  rw [← hsame] at hmore
  exact Int.add_le_add_left (Int.sub_le_sub_right (hmore.trans hlast) _) anchor

end ControlClock

open ControlClock in
/-- **The control clock** fails closed and never moves: accepted ticks do not decrease, answers
tell the last one, a bad tick is the end of every method, and a bad wall reading the end of
`sample` while the other methods answer as they would have. -/
theorem control_clock_fails_closed :
    (∀ t ms more, (after t ms).clock.last ≤ (after t (ms ++ more)).clock.last) ∧
    (∀ t ms m a, answer (after t ms) m = .ok a → Tells t (after t ms) (after t (ms ++ [m])) a) ∧
    (∀ t ms more now now', answer (after t ms) .logicalNow = .ok (.instant now) →
      answer (after t (ms ++ .logicalNow :: more)) .logicalNow = .ok (.instant now') →
        now ≤ now') ∧
    (∀ t ms good v more, Bad t.clock good v →
      t.sources.ticks = good ++ v :: more ++ (after t ms).sources.ticks →
        ∀ m, answer (after t ms) m = .error (.unavailable "Control timing is unqualified")) ∧
    (∀ t ms m good v more, Bad t.clock good v →
      t.sources.ticks = good ++ v :: more ++ (after t (ms ++ [m])).sources.ticks →
        ∃ e, answer (after t ms) m = .error e) ∧
    (∀ t ms, SeesBadWall (after t ms) → ∀ more,
      ∃ e, answer (after t (ms ++ .sample :: more)) .sample = .error e) ∧
    ∀ t t' ms ms' read m, t.clock.forget = t'.clock.forget →
      t.sources.ticks = read ++ (after t ms).sources.ticks →
      t'.sources.ticks = read ++ (after t' ms').sources.ticks →
      (after t ms).sources.ticks.head? = (after t' ms').sources.ticks.head? →
        m ≠ .sample → answer (after t ms) m = answer (after t' ms') m := by
  refine ⟨?_, ?_, ?_, ?_, ?_, ?_, ?_⟩
  · intro t ms more
    rw [after_append]
    exact (after_advances (after t ms) more).last
  · intro t ms m a h
    rw [after_snoc]
    exact tells_of_ok (after_advances t ms) h
  · intro t ms more now now' h h'
    exact logicalNow_mono h h'
  · intro t ms good v more hbad hread m
    exact bad_tick_fails hbad hread m
  · intro t ms m good v more hbad hread
    exact bad_tick_raises hbad hread
  · intro t ms h more
    exact bad_wall_fails h more
  · intro t t' ms ms' read m hclock hread hread' hnext hm
    exact answer_eq hclock hread hread' hnext hm

/-- A clock whose fence has no length, with a wall clock that is set forward. -/
def wallSetForward : Timing where
  sources := {
    nows := []
    ticks := [some 1, some 2, some 3, some 4, some 5, some 2, some 7]
    walls := [some 1, some 3000000]
    health := [true] }
  clock := ⟨"e", true, 0, 0, 0, some 0, false, false, 0⟩

/-- Another one, whose wall clock stays. -/
def wallStays : Timing :=
  { wallSetForward with sources := { wallSetForward.sources with walls := [some 1, some 3] } }

open ControlClock in
theorem control_clock_fails_closed_run :
    Tells wallSetForward wallSetForward (after wallSetForward [.sample]) (.sample 1 1) ∧
    (4 : Instant) ≤ 5 ∧
    (∃ e, answer (after wallSetForward ([.sample] ++ .sample :: [.tick])) .sample = .error e) ∧
    answer (after wallSetForward [.sample, .sample]) .tick =
      answer (after wallStays [.sample, .tick]) .tick ∧
    (∃ e, answer (after wallSetForward [.sample, .sample, .tick, .tick]) .recovered = .error e) ∧
    answer (after wallSetForward [.sample, .sample, .tick, .tick, .recovered]) .recovered =
      .error (.unavailable "Control timing is unqualified") := by
  have hbad : Bad wallSetForward.clock [some 1, some 2, some 3, some 4, some 5] (some 2) :=
    .inr ⟨2, rfl, .inr ⟨5, by decide, by decide⟩⟩
  refine ⟨?_, ?_, ?_, ?_, ?_, ?_⟩
  · exact control_clock_fails_closed.2.1 wallSetForward [] .sample _ rfl
  · exact control_clock_fails_closed.2.2.1 wallSetForward [.sample, .sample] [] 4 5 rfl rfl
  · exact control_clock_fails_closed.2.2.2.2.2.1 wallSetForward [.sample]
      ⟨3, _, some 3000000, rfl, rfl, .inr ⟨0, 3000000, rfl, rfl, by decide⟩⟩ [.tick]
  · exact control_clock_fails_closed.2.2.2.2.2.2 wallSetForward wallStays _ _
      [some 1, some 2, some 3] .tick rfl rfl rfl rfl (by decide)
  · exact control_clock_fails_closed.2.2.2.2.1 wallSetForward _ .recovered _ _ [] hbad rfl
  · exact control_clock_fails_closed.2.2.2.1 wallSetForward _ _ _ [] hbad rfl .recovered

end KzHome

import KzHome.ControlAuthority
import KzHome.Lib.RateLimit

/-!
# KzHome.RateLimits

The rate limit on permit requests, `ControlAuthority._limit`, over any sequence of its calls.

`run_limit` is the one place that goes through its statements. Everything else is about the
history of the calls that were let through, which the authority tracks: an allowed call is let
through and enters the history, and a refused one leaves it as it was, so that what comes after
a refused call comes out as if it had not been made.
-/

namespace KzHome.ControlAuthority

open RateLimit

/-- A call of `_limit`: the house and the device, and the tick. -/
abbrev LimitCall : Type := (String × String) × Int

/-- What the call comes to, and the process after it. -/
def limited (c : LimitCall) (p : Port) : Except Error Unit × Port := (limit c.1.1 c.1.2 c.2).run p

/-- The process after calls one after another. -/
def afterCalls (calls : List LimitCall) (p : Port) : Port :=
  calls.foldl (fun p c => (limited c p).2) p

/-- What each of the calls comes to. -/
def outcomes : List LimitCall → Port → List (Except Error Unit)
  | [], _ => []
  | c :: calls, p => (limited c p).1 :: outcomes calls (limited c p).2

/-- The calls that are let through, in their order. -/
def accepted : List LimitCall → Port → List LimitCall
  | [], _ => []
  | c :: calls, p =>
    if (limited c p).1.isOk then c :: accepted calls (limited c p).2
    else accepted calls (limited c p).2

/-- The authority when the bounds are tested. -/
def turned (tick : Int) (a : ControlAuthority) : ControlAuthority :=
  let a := { a with rates := a.rates.filter fun _ value => tick - value < 1000000 }
  if tick / 1000000 ≠ a.globalSecond then
    { a with globalSecond := tick / 1000000, globalCount := 0 }
  else a

/-- **One call.** -/
theorem run_limit (c : LimitCall) (p : Port) :
    limited c p =
      let a := turned c.2 p.proc.authority
      if (a.rates.get? c.1).isSome ∨ 4096 ≤ a.rates.size ∨ 100 ≤ a.globalCount then
        (.error (.unavailable "Control request rate exceeded"),
          { p with proc := { p.proc with authority := a } })
      else
        (.ok (), { p with proc := { p.proc with authority := { a with
          rates := a.rates.set c.1 c.2
          globalCount := a.globalCount + 1 } } }) := by
  have hrun : limited c p =
      (if ((turned c.2 p.proc.authority).rates.get? (c.1.1, c.1.2)).isSome ∨
          4096 ≤ (turned c.2 p.proc.authority).rates.size ∨
          100 ≤ (turned c.2 p.proc.authority).globalCount then
        (.raise (.unavailable "Control request rate exceeded") : Call Port Error Unit)
      else
        modify fun a => { a with
          rates := a.rates.set (c.1.1, c.1.2) c.2
          globalCount := a.globalCount + 1 }).run
        { p with proc := { p.proc with authority := turned c.2 p.proc.authority } } := rfl
  rw [hrun]
  dsimp only
  split
  · rfl
  · rfl

/-- The authority of the process keeps the history. -/
abbrev Tracked (p : Port) (last : Int) (history : List LimitCall) : Prop :=
  Tracks 1000000 100 p.proc.authority.rates p.proc.authority.globalSecond
    p.proc.authority.globalCount last history

section

variable {p q : Port} {last last' : Int} {history : List LimitCall} {c : LimitCall}
  {calls : List LimitCall}

/-- The authority at the test keeps the history, and counts the window of the call. -/
theorem Tracked.turned (h : Tracked p last history) {tick : Int} (htick : last ≤ tick) :
    Tracks 1000000 100 (turned tick p.proc.authority).rates
        (turned tick p.proc.authority).globalSecond (turned tick p.proc.authority).globalCount
        tick history ∧
      (turned tick p.proc.authority).globalSecond = tick / 1000000 := by
  have hturn := h.turn (by decide) htick
  unfold ControlAuthority.turned
  dsimp only
  split
  · rename_i hnew
    rw [if_pos hnew] at hturn
    exact ⟨hturn, rfl⟩
  · rename_i hsame
    rw [if_neg hsame, not_not.mp hsame] at hturn
    exact ⟨hturn, (not_not.mp hsame).symm⟩

/-- **The guard on the size refuses nothing.** -/
theorem Tracked.size_lt (h : Tracked p last history) {tick : Int} (htick : last ≤ tick) :
    (ControlAuthority.turned tick p.proc.authority).rates.size < 4096 := by
  have := (h.turned htick).1.size_le (by decide)
  omega

/-- **A call is let through when it breaks no bound**, and then it is in the history. -/
theorem Tracked.accepts (h : Tracked p last history) (htick : last ≤ c.2)
    (hallows : Allows 1000000 100 history c) :
    (limited c p).1 = .ok () ∧ Tracked (limited c p).2 c.2 (c :: history) := by
  obtain ⟨hturned, hwindow⟩ := h.turned htick
  have hkept := (hturned.allows_iff c.1 hwindow).mp hallows
  have hsize := h.size_lt htick
  rw [run_limit]
  dsimp only
  rw [if_neg]
  · exact ⟨rfl, hturned.accept (by decide) hwindow hallows⟩
  · rw [hkept.1]
    simp only [Option.isSome_none, Bool.false_eq_true, false_or, not_or]
    omega

/-- **A call that breaks a bound is refused**, and the history stays. -/
theorem Tracked.refuses (h : Tracked p last history) (htick : last ≤ c.2)
    (hallows : ¬ Allows 1000000 100 history c) :
    (∃ error, (limited c p).1 = .error error) ∧ Tracked (limited c p).2 c.2 history := by
  obtain ⟨hturned, hwindow⟩ := h.turned htick
  rw [run_limit]
  dsimp only
  rw [if_pos]
  · exact ⟨⟨_, rfl⟩, hturned⟩
  · by_contra hpass
    rw [not_or, not_or, Bool.not_eq_true, Option.isSome_eq_false_iff, Option.isNone_iff_eq_none]
      at hpass
    exact hallows ((hturned.allows_iff c.1 hwindow).mpr ⟨hpass.1, by omega⟩)

/-- **Nothing but the history decides**: two authorities that keep the same one answer alike. -/
theorem Tracked.same (h : Tracked p last history) (k : Tracked q last' history)
    (hlast : last ≤ c.2) (hlast' : last' ≤ c.2) :
    (limited c p).1 = (limited c q).1 ∧
      ∃ history', Tracked (limited c p).2 c.2 history' ∧
        Tracked (limited c q).2 c.2 history' := by
  by_cases hallows : Allows 1000000 100 history c
  · obtain ⟨hp, hp'⟩ := h.accepts hlast hallows
    obtain ⟨hq, hq'⟩ := k.accepts hlast' hallows
    exact ⟨hp.trans hq.symm, _, hp', hq'⟩
  · obtain ⟨⟨e, hp⟩, hp'⟩ := h.refuses hlast hallows
    obtain ⟨⟨e', hq⟩, hq'⟩ := k.refuses hlast' hallows
    refine ⟨?_, _, hp', hq'⟩
    rw [hp, hq]
    have herror : ∀ (r : Port) (error : Error), (limited c r).1 = .error error →
        error = .unavailable "Control request rate exceeded" := by
      intro r error hr
      rw [run_limit] at hr
      dsimp only at hr
      split at hr
      · cases hr
        rfl
      · cases hr
    rw [herror p e hp, herror q e' hq]

theorem Tracked.outcomes_eq (h : Tracked p last history) (k : Tracked q last' history)
    (hlast : ∀ c ∈ calls, last ≤ c.2) (hlast' : ∀ c ∈ calls, last' ≤ c.2)
    (hticks : calls.Pairwise fun c d => c.2 ≤ d.2) : outcomes calls p = outcomes calls q := by
  induction calls generalizing p q last last' history with
  | nil => rfl
  | cons c calls ih =>
      have hcons := List.pairwise_cons.mp hticks
      obtain ⟨hone, history', hp, hq⟩ :=
        h.same k (hlast c List.mem_cons_self) (hlast' c List.mem_cons_self)
      rw [outcomes, outcomes, hone, ih hp hq hcons.1 hcons.1 hcons.2]

/-- **After any calls** the authority keeps what was let through. -/
theorem Tracked.run (h : Tracked p last history) (hlast : ∀ c ∈ calls, last ≤ c.2)
    (hticks : calls.Pairwise fun c d => c.2 ≤ d.2) :
    ∃ now, last ≤ now ∧ (∀ d : LimitCall, (∀ c ∈ calls, c.2 ≤ d.2) → last ≤ d.2 → now ≤ d.2) ∧
      Tracked (afterCalls calls p) now ((accepted calls p).reverse ++ history) := by
  induction calls generalizing p last history with
  | nil => exact ⟨last, Int.le_refl _, fun _ _ hd => hd, h⟩
  | cons c calls ih =>
      have hcons := List.pairwise_cons.mp hticks
      have hc := hlast c List.mem_cons_self
      have hstep : ∃ history', Tracked (limited c p).2 c.2 history' ∧
          (accepted calls (limited c p).2).reverse ++ history' =
            (accepted (c :: calls) p).reverse ++ history := by
        by_cases hallows : Allows 1000000 100 history c
        · obtain ⟨hok, hnext⟩ := h.accepts hc hallows
          refine ⟨c :: history, hnext, ?_⟩
          simp [accepted, hok, Except.isOk, Except.toBool]
        · obtain ⟨⟨e, herror⟩, hnext⟩ := h.refuses hc hallows
          refine ⟨history, hnext, ?_⟩
          simp [accepted, herror, Except.isOk, Except.toBool]
      obtain ⟨history', hnext, heq⟩ := hstep
      obtain ⟨now, hle, hleast, hrun⟩ := ih hnext hcons.1 hcons.2
      refine ⟨now, by omega, fun d hd hlastd => ?_, ?_⟩
      · exact hleast d (fun c' hc' => hd c' (List.mem_cons_of_mem _ hc')) (hd c List.mem_cons_self)
      · rw [← heq]
        exact hrun

end

/-! ### The limit over all calls of an authority -/

/-- A process with an authority that has seen no request yet. -/
def freshPort (sources : Sources) (clock : ControlClock)
    (gate : Registry → String → String → Except Error Unit) (connected subscribed : Bool) : Port :=
  ⟨sources, ⟨create clock gate, connected, subscribed⟩⟩

section

variable {sources : Sources} {clock : ControlClock}
  {gate : Registry → String → String → Except Error Unit} {connected subscribed : Bool}

/-- What the first authority keeps: nothing, at any tick. -/
theorem tracked_fresh (last : Int) :
    Tracked (freshPort sources clock gate connected subscribed) last [] :=
  Tracks.init 1000000 100 (-1) last

/-- Before a call, all that was let through is kept. -/
theorem tracked_before {before after : List LimitCall} {c : LimitCall}
    (hticks : (before ++ c :: after).Pairwise fun c d => c.2 ≤ d.2) :
    ∃ last, last ≤ c.2 ∧
      Tracked (afterCalls before (freshPort sources clock gate connected subscribed)) last
        (accepted before (freshPort sources clock gate connected subscribed)).reverse := by
  obtain ⟨hbefore, -, hcross⟩ := List.pairwise_append.mp hticks
  have hsources : ∃ start : Int, start ≤ c.2 ∧ ∀ d ∈ before, start ≤ d.2 := by
    cases before with
    | nil => exact ⟨c.2, Int.le_refl _, nofun⟩
    | cons d before =>
        refine ⟨d.2, hcross d List.mem_cons_self c List.mem_cons_self, ?_⟩
        exact List.forall_mem_cons.mpr ⟨Int.le_refl _, (List.pairwise_cons.mp hbefore).1⟩
  obtain ⟨start, hstart, hall⟩ := hsources
  obtain ⟨now, -, hleast, hrun⟩ := (tracked_fresh start).run hall hbefore
  rw [List.append_nil] at hrun
  exact ⟨now, hleast c (fun d hd => hcross d hd c List.mem_cons_self) hstart, hrun⟩

/-- **The permit rate limiter is sound and bounded**: accepted calls of one key are a second
apart, no second has more than a hundred, a call is refused only when it would break one of the
two and changes nothing for the calls after it, the guard on the size refuses nothing, and the
map stays small. -/
theorem limit_bounds {calls : List LimitCall} (hticks : calls.Pairwise fun c d => c.2 ≤ d.2) :
    let p := freshPort sources clock gate connected subscribed
    ((accepted calls p).Pairwise fun c d => c.1 = d.1 → 1000000 ≤ d.2 - c.2) ∧
    (∀ w, (accepted calls p).countP (fun c => c.2 / 1000000 = w) ≤ 100) ∧
    (∀ before c after, calls = before ++ c :: after →
      (turned c.2 (afterCalls before p).proc.authority).rates.size < 4096 ∧
      ∀ error, (limited c (afterCalls before p)).1 = .error error →
        ((∃ d ∈ accepted before p, d.1 = c.1 ∧ c.2 - d.2 < 1000000) ∨
          100 ≤ (accepted before p).countP (fun d => d.2 / 1000000 = c.2 / 1000000)) ∧
        ∀ later : List LimitCall, (∀ d ∈ later, c.2 ≤ d.2) →
          later.Pairwise (fun d e => d.2 ≤ e.2) →
          outcomes later (afterCalls (before ++ [c]) p) = outcomes later (afterCalls before p)) ∧
    ∀ before, before <+: calls → (afterCalls before p).proc.authority.rates.size ≤ 200 := by
  intro p
  have hkept : ∀ before, before <+: calls →
      ∃ last, Tracked (afterCalls before p) last (accepted before p).reverse := by
    intro before hbefore
    have hsorted := hticks.sublist hbefore.sublist
    cases before with
    | nil => exact ⟨0, tracked_fresh 0⟩
    | cons d before =>
        obtain ⟨now, -, -, hrun⟩ := (@tracked_fresh sources clock gate connected subscribed d.2).run
          (List.forall_mem_cons.mpr ⟨Int.le_refl _, (List.pairwise_cons.mp hsorted).1⟩) hsorted
        rw [List.append_nil] at hrun
        exact ⟨now, hrun⟩
  obtain ⟨last, hall⟩ := hkept calls (List.prefix_refl calls)
  refine ⟨?_, ?_, ?_, ?_⟩
  · exact List.pairwise_reverse.mp hall.lawful.spaced
  · intro w
    have := hall.lawful.inWindow_le w
    rwa [inWindow, List.countP_reverse] at this
  · intro before c after heq
    subst heq
    obtain ⟨last, hlast, hbefore⟩ := @tracked_before sources clock gate connected subscribed _ _ _ hticks
    refine ⟨hbefore.size_lt hlast, fun error herror => ?_⟩
    have hallows : ¬ Allows 1000000 100 (accepted before p).reverse c := by
      intro hallows
      rw [(hbefore.accepts hlast hallows).1] at herror
      cases herror
    refine ⟨?_, fun later hlater hsorted => ?_⟩
    · by_contra hneither
      obtain ⟨hspaced, hroom⟩ := not_or.mp hneither
      refine hallows ⟨fun d hd hkey => ?_, ?_⟩
      · by_contra hclose
        exact hspaced ⟨d, List.mem_reverse.mp hd, hkey, by omega⟩
      · rw [inWindow, List.countP_reverse]
        exact Nat.lt_of_not_le hroom
    · have hafter := (hbefore.refuses hlast hallows).2
      have hcalls : afterCalls (before ++ [c]) p = (limited c (afterCalls before p)).2 := by
        rw [afterCalls, List.foldl_append]
        rfl
      rw [hcalls]
      exact hafter.outcomes_eq hbefore hlater (fun d hd => hlast.trans (hlater d hd)) hsorted
  · intro before hbefore
    obtain ⟨last, hrun⟩ := hkept before hbefore
    exact hrun.size_le (by decide)

end

/-- Two calls of one device in one second, and one of another device. -/
theorem limit_bounds_two :
    let calls : List LimitCall := [(("h", "d"), 0), (("h", "d"), 999999), (("h", "e"), 1000000)]
    let p := freshPort ⟨[], [], [], []⟩ ⟨"e", true, 0, 0, 0, some 0, false, false, 30061063⟩
      closedGate true true
    calls.Pairwise (fun c d => c.2 ≤ d.2) ∧
      accepted calls p = [(("h", "d"), 0), (("h", "e"), 1000000)] ∧
      (afterCalls calls p).proc.authority.rates.size ≤ 200 :=
  ⟨by decide, by decide, (limit_bounds (by decide)).2.2.2 _ (List.prefix_refl _)⟩

end KzHome.ControlAuthority

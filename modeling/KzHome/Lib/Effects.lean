import KzHome.Lib.SqlRules

/-!
# KzHome.Lib.Effects

Operations that take effect at one statement.

An entry of the trace may mark the moment at which the operation of its session takes
effect; which entries do is given by a predicate on the owner, the database at that moment
and the note. A program is `Marked` when it comes to such a statement once on every path
on which it returns. Then no session has two effects, and every session that has returned
has one (`run_tally`): the effects of a run are its operations, in the order in which
they took effect.
-/

namespace Sql

open Session

variable {Db Row Write φ ν π ε κ α β : Type}

/-- A statement with this note, by an owner on a database, is an effect. -/
def marks (f : π → Db → ν → Bool) (p : π) (db : Db) (note : Option ν) : Bool := note.any (f p db)

/-- The effects that were noted, latest first. -/
def Store.effects (st : Store Db Row ν π) (f : π → Db → ν → Bool) : List (Entry Db ν π) :=
  st.trace.filter fun e => f e.owner e.db e.note

/-- The program has, or will have, one effect when it returns, and never two. -/
def Marked (f : π → Db → ν → Bool) (p : π) : Bool → Query Db Row Write φ ν ε α → Prop
  | marked, .ret _ => marked = true
  | _, .raise _ => True
  | marked, .call (.read note) k =>
    ∀ db, (marks f p db note = true → marked = false) ∧
      Marked f p (marked || marks f p db note) (k db)
  | marked, .call (.lock _) k => ∀ db, Marked f p marked (k db)
  | marked, .call (.commit _ note) k =>
    (∀ db, (marks f p db note = true → marked = false) ∧
      Marked f p (marked || marks f p db note) (k (.ok ()))) ∧
    ∀ e, Marked f p marked (k (.error e))
  | marked, .call .rollback k => Marked f p marked (k ())
  | marked, .call .now k => ∀ t, Marked f p marked (k t)
  | marked, .call .input k => ∀ x, Marked f p marked (k x)

/-- The effects of a run: one for each session at most, and one for each that has returned. -/
structure Tally (f : π → Db → ν → Bool)
    (st : State (interface Db Row Write φ ν) (Store Db Row ν π) π ε) : Prop where
  once : ((st.shared.effects f).map (·.session)).Nodup
  past : ∀ e ∈ st.shared.effects f, e.session < st.started
  unused : ∀ s, st.started ≤ s → st.sessions s = none
  running : ∀ s p m, st.sessions s = some (p, m) →
    Marked f p ((st.shared.effects f).any (·.session = s)) m ∧
      ∀ e ∈ st.shared.effects f, e.session = s → e.owner = p

section

variable {f : π → Db → ν → Bool} {p : π}

theorem effects_record (st : Store Db Row ν π) (s : Nat) (note : Option ν) :
    (st.record s p note).effects f = st.effects f ∧ marks f p st.db note = false ∨
      ∃ e, (st.record s p note).effects f = e :: st.effects f ∧ e.session = s ∧ e.owner = p ∧
        marks f p st.db note = true := by
  cases note with
  | none => exact .inl ⟨rfl, rfl⟩
  | some n =>
      by_cases h : f p st.db n = true
      · exact .inr ⟨⟨s, p, st.db, n⟩, List.filter_cons_of_pos h, rfl, rfl, h⟩
      · exact .inl ⟨List.filter_cons_of_neg h, by simpa [marks] using h⟩

/-! ### Marked programs -/

theorem marked_read {marked : Bool} {note : Option ν} {k : Db → Query Db Row Write φ ν ε α}
    (h : ∀ db, (marks f p db note = true → marked = false) ∧
      Marked f p (marked || marks f p db note) (k db)) :
    Marked f p marked (Sql.read note >>= k) := h

/-- A `SELECT` that is no effect. -/
theorem marked_peek {marked : Bool} {k : Db → Query Db Row Write φ ν ε α}
    (h : ∀ db, Marked f p marked (k db)) : Marked f p marked (Sql.read none >>= k) :=
  marked_read fun db =>
    ⟨nofun, by rw [marks, Option.any_none, Bool.or_false]; exact h db⟩

/-- A commit that is the effect. -/
theorem marked_commit {writes : List Write} {note : ν}
    {k : Except φ Unit → Query Db Row Write φ ν ε α} (hmark : ∀ db, f p db note = true)
    (hok : Marked f p true (k (.ok ()))) (herror : ∀ e, Marked f p false (k (.error e))) :
    Marked f p false (Sql.commit writes (some note) >>= k) :=
  ⟨fun db => ⟨fun _ => rfl, by rw [marks, Option.any_some, hmark db, Bool.or_true]; exact hok⟩,
    herror⟩

theorem marked_lift {marked : Bool} {x : Except ε β} {k : β → Query Db Row Write φ ν ε α}
    (h : ∀ b, x = .ok b → Marked f p marked (k b)) : Marked f p marked (Prog.lift x >>= k) := by
  cases x with
  | error e => trivial
  | ok b => exact h b rfl

theorem marked_lockAll {marked : Bool} {rows : List Row} {k : Unit → Query Db Row Write φ ν ε α}
    (h : Marked f p marked (k ())) : Marked f p marked (Sql.lockAll rows >>= k) := by
  induction rows with
  | nil => exact h
  | cons row rows ih => exact fun _ => ih

/-! ### Runs of marked programs -/

variable [DecidableEq Row]

/-- **One statement** of a marked program: an effect or none, and the rest is marked. -/
theorem Marked.step {S : Schema Db Row Write φ} {st st' : Store Db Row ν π} {s : Nat}
    {input : String} {op : Op Row Write ν} {k : (interface Db Row Write φ ν).Ans op →
      Query Db Row Write φ ν ε α} {marked : Bool} {ans : (interface Db Row Write φ ν).Ans op}
    (h : Marked f p marked (.call op k)) (hh : handle S st s p input op = some (ans, st')) :
    (st'.effects f = st.effects f ∧ Marked f p marked (k ans)) ∨
      ∃ e, st'.effects f = e :: st.effects f ∧ e.session = s ∧ e.owner = p ∧ marked = false ∧
        Marked f p true (k ans) := by
  have hrecord : ∀ {note : Option ν} {m : Query Db Row Write φ ν ε α},
      (marks f p st.db note = true → marked = false) ∧
        Marked f p (marked || marks f p st.db note) m →
      ((st.record s p note).effects f = st.effects f ∧ Marked f p marked m) ∨
        ∃ e, (st.record s p note).effects f = e :: st.effects f ∧ e.session = s ∧
          e.owner = p ∧ marked = false ∧ Marked f p true m := by
    intro note m ⟨hfree, hm⟩
    obtain ⟨heq, hno⟩ | ⟨e, heq, hs, hp, hyes⟩ := effects_record (f := f) (p := p) st s note
    · rw [hno, Bool.or_false] at hm
      exact .inl ⟨heq, hm⟩
    · rw [hyes, Bool.or_true] at hm
      exact .inr ⟨e, heq, hs, hp, hfree hyes, hm⟩
  cases op with
  | read note =>
      obtain ⟨rfl, rfl⟩ := Prod.mk.inj (Option.some.inj hh)
      exact hrecord (h st.db)
  | lock row =>
      simp only [handle] at hh
      split at hh
      · obtain ⟨rfl, rfl⟩ := Prod.mk.inj (Option.some.inj hh)
        refine .inl ⟨?_, h st.db⟩
        unfold Store.take
        split <;> rfl
      · cases hh
  | commit writes note =>
      simp only [handle] at hh
      split at hh
      · split at hh
        · rename_i db hdb
          obtain ⟨rfl, rfl⟩ := Prod.mk.inj (Option.some.inj hh)
          exact hrecord (h.1 st.db)
        · rename_i e he
          obtain ⟨rfl, rfl⟩ := Prod.mk.inj (Option.some.inj hh)
          exact .inl ⟨rfl, h.2 e⟩
      · cases hh
  | rollback =>
      obtain ⟨rfl, rfl⟩ := Prod.mk.inj (Option.some.inj hh)
      exact .inl ⟨rfl, h⟩
  | now =>
      obtain ⟨rfl, rfl⟩ := Prod.mk.inj (Option.some.inj hh)
      exact .inl ⟨rfl, h st.clock⟩
  | input =>
      obtain ⟨rfl, rfl⟩ := Prod.mk.inj (Option.some.inj hh)
      exact .inl ⟨rfl, h input⟩

end

section Runs

variable {f : π → Db → ν → Bool} [DecidableEq Row] {S : Schema Db Row Write φ}
  {allowed : Db → Db → Bool} {program : Nat → π → κ → Query Db Row Write φ ν ε Unit}
  {st st' : State (interface Db Row Write φ ν) (Store Db Row ν π) π ε}

omit [DecidableEq Row] in
/-- Sessions that go on as they are or are over, on a store with the same effects. -/
theorem Tally.shrink (h : Tally f st) (heffects : st'.shared.effects f = st.shared.effects f)
    (hstarted : st'.started = st.started)
    (hsessions : ∀ s m, st'.sessions s = some m → st.sessions s = some m) : Tally f st' where
  once := by rw [heffects]; exact h.once
  past := by rw [heffects, hstarted]; exact h.past
  unused s hs := by
    rw [hstarted] at hs
    cases hm : st'.sessions s with
    | none => rfl
    | some m =>
        have := hsessions s m hm
        rw [h.unused s hs] at this
        cases this
  running s p m hm := by
    rw [heffects]
    exact h.running s p m (hsessions s _ hm)

/-- **One step** keeps the tally. -/
theorem Tally.step (hprog : ∀ s p call, Marked f p false (program s p call)) (h : Tally f st)
    {l : Label π κ String (Outside Db)}
    (hstep : Session.step (machine S allowed) program st l = some st') : Tally f st' := by
  have hfinish : ∀ s, Tally f (st.finish (machine S allowed) s) := fun s =>
    h.shrink rfl rfl fun t m hm => by
      unfold State.finish at hm
      dsimp only at hm
      by_cases hts : t = s
      · subst hts; rw [Function.update_self] at hm; cases hm
      · rwa [Function.update_of_ne hts] at hm
  cases l with
  | start p call =>
      simp only [Session.step] at hstep
      split at hstep
      · obtain rfl := Option.some.inj hstep
        refine ⟨h.once, fun e he => Nat.lt_succ_of_lt (h.past e he), fun t ht => ?_,
          fun t q m hm => ?_⟩
        · dsimp only at ht ⊢
          rw [Function.update_of_ne (by omega)]
          exact h.unused t (by omega)
        · dsimp only at hm ⊢
          by_cases hts : t = st.started
          · subst hts
            rw [Function.update_self] at hm
            obtain ⟨rfl, rfl⟩ : p = q ∧ program st.started p call = m := by simpa using hm
            have hnone : (st.shared.effects f).any (·.session = st.started) = false := by
              rw [List.any_eq_false]
              intro e he
              have := h.past e he
              simp only [decide_eq_true_eq]
              omega
            refine ⟨hnone ▸ hprog _ p call, fun e he hs => ?_⟩
            exact absurd (hs ▸ h.past e he) (Nat.lt_irrefl _)
          · rw [Function.update_of_ne hts] at hm
            exact h.running t q m hm
      · cases hstep
  | exec s input =>
      obtain ⟨p, op, k, ans, sh, hm, hh, rfl⟩ | ⟨-, rfl⟩ := exec_cases hstep
      · obtain ⟨hmarked, howner⟩ := h.running s p _ hm
        have hlt : s < st.started := by
          by_contra hge
          rw [h.unused s (by omega)] at hm
          cases hm
        have hunused : ∀ t, st.started ≤ t →
            Function.update st.sessions s (some (p, k ans)) t = none := fun t ht => by
          rw [Function.update_of_ne (by omega)]
          exact h.unused t ht
        obtain ⟨heq, hk⟩ | ⟨e, heq, hs, hp, hfree, hk⟩ := hmarked.step hh
        · refine ⟨by rw [heq]; exact h.once, by rw [heq]; exact h.past, hunused,
            fun t q m hq => ?_⟩
          dsimp only at hq ⊢
          rw [heq]
          by_cases hts : t = s
          · subst hts
            rw [Function.update_self] at hq
            obtain ⟨rfl, rfl⟩ : p = q ∧ k ans = m := by simpa using hq
            exact ⟨hk, howner⟩
          · rw [Function.update_of_ne hts] at hq
            exact h.running t q m hq
        · have hnot : ∀ e' ∈ st.shared.effects f, e'.session ≠ s := fun e' he' hs' => by
            rw [List.any_eq_false] at hfree
            exact hfree e' he' (by simpa using hs')
          refine ⟨?_, ?_, hunused, fun t q m hq => ?_⟩
          · rw [heq, List.map_cons, List.nodup_cons, hs]
            refine ⟨fun hmem => ?_, h.once⟩
            obtain ⟨e', he', hs'⟩ := List.mem_map.mp hmem
            exact hnot e' he' hs'
          · rw [heq, List.forall_mem_cons, hs]
            exact ⟨hlt, h.past⟩
          · dsimp only at hq ⊢
            rw [heq]
            by_cases hts : t = s
            · subst hts
              rw [Function.update_self] at hq
              obtain ⟨rfl, rfl⟩ : p = q ∧ k ans = m := by simpa using hq
              rw [List.any_cons, hs, decide_eq_true rfl, Bool.true_or]
              refine ⟨hk, List.forall_mem_cons.mpr ⟨fun _ => hp, howner⟩⟩
            · rw [Function.update_of_ne hts] at hq
              obtain ⟨hm', ho'⟩ := h.running t q m hq
              rw [List.any_cons, hs, decide_eq_false (Ne.symm hts), Bool.false_or]
              exact ⟨hm', List.forall_mem_cons.mpr
                ⟨fun h => absurd (hs.symm.trans h).symm hts, ho'⟩⟩
      · exact hfinish s
  | abort s =>
      simp only [Session.step] at hstep
      cases hm : st.sessions s with
      | none => rw [hm] at hstep; cases hstep
      | some pm =>
          rw [hm] at hstep
          obtain rfl := Option.some.inj hstep
          exact hfinish s
  | external x =>
      simp only [Session.step, Option.map_eq_some_iff] at hstep
      obtain ⟨sh, ha, rfl⟩ := hstep
      have htrace : sh.trace = st.shared.trace := Protocol.act_trace ha
      refine h.shrink ?_ rfl fun s m hm => ?_
      · exact congrArg (List.filter _) htrace
      · dsimp only at hm
        split at hm
        · cases hm
        · exact hm

/-- **Every run has its tally.** -/
theorem run_tally (hprog : ∀ s p call, Marked f p false (program s p call))
    {sh : Store Db Row ν π} (h0 : sh.trace = []) (labels : List (Label π κ String (Outside Db))) :
    Tally f ((system (machine S allowed) program).run (State.init sh) labels) := by
  have hnone : sh.effects f = [] := by rw [Store.effects, h0, List.filter_nil]
  refine (system (machine S allowed) program).invariant
    (fun _ _ _ h hstep => h.step hprog hstep) ⟨?_, ?_, fun _ _ => rfl, fun _ _ _ h => nomatch h⟩
    labels
  · rw [State.init, hnone]
    exact List.nodup_nil
  · intro e he
    rw [State.init, hnone] at he
    cases he

omit [DecidableEq Row] in
/-- A session that has returned has had its effect. -/
theorem Tally.returned (h : Tally f st) {s : Nat} {p : π} {u : Unit}
    (hs : st.sessions s = some (p, .ret u)) :
    ∃ e ∈ st.shared.effects f, e.session = s ∧ e.owner = p := by
  obtain ⟨hmarked, howner⟩ := h.running s p _ hs
  obtain ⟨e, he, hes⟩ := List.any_eq_true.mp hmarked
  have hes : e.session = s := by simpa using hes
  exact ⟨e, he, hes, howner e he hes⟩

end Runs

end Sql

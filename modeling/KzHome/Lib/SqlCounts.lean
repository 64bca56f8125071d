import KzHome.Lib.Sql

/-!
# KzHome.Lib.SqlCounts

How often a session makes a note.

`AtMost A n` says that on every path a program makes at most `n` notes of the kind `A`, whatever
its statements are answered with. If every program of a system makes at most `n`, then so does
every session of a run (`run_count`): what a session has noted and what its program can still
note add up to no more (`Spent`).
-/

namespace Sql

open Session

variable {Db Row Write φ ν π ε κ α β : Type}

/-- The note that a statement can leave. -/
def Op.note? : Op Row Write ν → Option ν
  | .read note => note
  | .commit _ note => note
  | _ => none

/-- At most `n` notes of a kind, on every path. -/
def AtMost (A : ν → Bool) : Nat → Query Db Row Write φ ν ε α → Prop
  | _, .ret _ => True
  | _, .raise _ => True
  | n, .call op k =>
    if op.note?.any A then 0 < n ∧ ∀ ans, AtMost A (n - 1) (k ans) else ∀ ans, AtMost A n (k ans)

/-- The entries of a session that are of a kind. -/
def count (A : ν → Bool) (s : Nat) (trace : List (Entry Db ν π)) : Nat :=
  trace.countP fun e => e.session = s && A e.note

variable {A : ν → Bool} {n m : Nat}

theorem AtMost.mono {q : Query Db Row Write φ ν ε α} (h : AtMost A n q) (hnm : n ≤ m) :
    AtMost A m q := by
  induction q generalizing n m with
  | ret a => trivial
  | raise e => trivial
  | call op k ih =>
      unfold AtMost at h ⊢
      split
      · rename_i hA
        rw [if_pos hA] at h
        exact ⟨Nat.lt_of_lt_of_le h.1 hnm, fun ans => ih ans (h.2 ans) (by omega)⟩
      · rename_i hA
        rw [if_neg hA] at h
        exact fun ans => ih ans (h ans) hnm

/-- One program after another. -/
theorem AtMost.bind {q : Query Db Row Write φ ν ε α} {f : α → Query Db Row Write φ ν ε β}
    (h : AtMost A n q) (hf : ∀ a, AtMost A m (f a)) : AtMost A (n + m) (q >>= f) := by
  induction q generalizing n with
  | ret a => exact (hf a).mono (Nat.le_add_left m n)
  | raise e => trivial
  | call op k ih =>
      rw [Prog.bind_call]
      unfold AtMost at h ⊢
      split
      · rename_i hA
        rw [if_pos hA] at h
        refine ⟨by omega, fun ans => ?_⟩
        rw [Nat.sub_add_comm h.1]
        exact ih ans (h.2 ans)
      · rename_i hA
        rw [if_neg hA] at h
        exact fun ans => ih ans (h ans)

/-- A program without such notes, and another. -/
theorem AtMost.seq {q : Query Db Row Write φ ν ε α} {f : α → Query Db Row Write φ ν ε β}
    (h : AtMost A 0 q) (hf : ∀ a, AtMost A m (f a)) : AtMost A m (q >>= f) :=
  Nat.zero_add m ▸ h.bind hf

theorem AtMost.attempt {q : Query Db Row Write φ ν ε α} (h : AtMost A n q) :
    AtMost A n q.attempt := by
  induction q generalizing n with
  | ret a => trivial
  | raise e => trivial
  | call op k ih =>
      rw [Prog.attempt]
      unfold AtMost at h ⊢
      split
      · rename_i hA
        rw [if_pos hA] at h
        exact ⟨h.1, fun ans => ih ans (h.2 ans)⟩
      · rename_i hA
        rw [if_neg hA] at h
        exact fun ans => ih ans (h ans)

/-! ### Statements -/

section

variable {note : Option ν}

/-- A `SELECT` that is not noted as one of the kind. -/
theorem atMost_read {f : Db → Query Db Row Write φ ν ε α} (hnote : note.any A = false)
    (hf : ∀ db, AtMost A n (f db)) : AtMost A n (Sql.read note >>= f) := by
  show AtMost A n (.call (.read note) f)
  unfold AtMost
  rw [if_neg (by rw [Op.note?, hnote]; exact Bool.false_ne_true)]
  exact hf

/-- A `SELECT` that may be. -/
theorem atMost_read_succ {f : Db → Query Db Row Write φ ν ε α} (hf : ∀ db, AtMost A n (f db)) :
    AtMost A (n + 1) (Sql.read note >>= f) := by
  show AtMost A (n + 1) (.call (.read note) f)
  unfold AtMost
  split
  · exact ⟨Nat.succ_pos n, hf⟩
  · exact fun db => (hf db).mono (Nat.le_succ n)

theorem atMost_commit {writes : List Write} {f : Except φ Unit → Query Db Row Write φ ν ε α}
    (hnote : note.any A = false) (hf : ∀ r, AtMost A n (f r)) :
    AtMost A n (Sql.commit writes note >>= f) := by
  show AtMost A n (.call (.commit writes note) f)
  unfold AtMost
  rw [if_neg (by rw [Op.note?, hnote]; exact Bool.false_ne_true)]
  exact hf

theorem atMost_input {f : String → Query Db Row Write φ ν ε α} (hf : ∀ x, AtMost A n (f x)) :
    AtMost A n (Sql.input >>= f) := hf

/-- A pure check. -/
theorem atMost_lift {x : Except ε β} {f : β → Query Db Row Write φ ν ε α}
    (hf : ∀ b, AtMost A n (f b)) : AtMost A n (Prog.lift x >>= f) := by
  cases x with
  | error e => trivial
  | ok b => exact hf b

end

/-! ### Runs -/

variable [DecidableEq Row] {S : Schema Db Row Write φ} {allowed : Db → Db → Bool}
  {program : Nat → π → κ → Query Db Row Write φ ν ε Unit}
  {st st' : State (interface Db Row Write φ ν) (Store Db Row ν π) π ε}

/-- What a statement adds to the trace. -/
theorem handle_trace {a b : Store Db Row ν π} {s : Nat} {p : π} {input : String}
    {op : Op Row Write ν} {ans : (interface Db Row Write φ ν).Ans op}
    (h : handle S a s p input op = some (ans, b)) :
    b.trace = a.trace ∨ ∃ note, op.note? = some note ∧ b.trace = ⟨s, p, a.db, note⟩ :: a.trace := by
  have hrecord : ∀ note : Option ν, (a.record s p note).trace = a.trace ∨
      ∃ n, note = some n ∧ (a.record s p note).trace = ⟨s, p, a.db, n⟩ :: a.trace := by
    intro note
    cases note with
    | none => exact Or.inl rfl
    | some n => exact Or.inr ⟨n, rfl, rfl⟩
  cases op with
  | read note =>
      obtain ⟨-, rfl⟩ := Prod.mk.inj (Option.some.inj h)
      exact hrecord note
  | lock row =>
      simp only [handle] at h
      split at h
      · obtain ⟨-, rfl⟩ := Prod.mk.inj (Option.some.inj h)
        unfold Store.take
        split <;> exact Or.inl rfl
      · cases h
  | commit writes note =>
      simp only [handle] at h
      split at h
      · split at h
        · obtain ⟨-, rfl⟩ := Prod.mk.inj (Option.some.inj h)
          exact hrecord note
        · obtain ⟨-, rfl⟩ := Prod.mk.inj (Option.some.inj h)
          exact Or.inl rfl
      · cases h
  | rollback =>
      obtain ⟨-, rfl⟩ := Prod.mk.inj (Option.some.inj h)
      exact Or.inl rfl
  | now =>
      obtain ⟨-, rfl⟩ := Prod.mk.inj (Option.some.inj h)
      exact Or.inl rfl
  | input =>
      obtain ⟨-, rfl⟩ := Prod.mk.inj (Option.some.inj h)
      exact Or.inl rfl

/-- Every session has made no more notes than its program leaves it. -/
structure Spent (A : ν → Bool) (n : Nat)
    (st : State (interface Db Row Write φ ν) (Store Db Row ν π) π ε) : Prop where
  bound : ∀ s, count A s st.shared.trace ≤ n
  running : ∀ s p m, st.sessions s = some (p, m) → s < st.started ∧
    AtMost A (n - count A s st.shared.trace) m
  unused : ∀ s, st.started ≤ s → count A s st.shared.trace = 0

omit [DecidableEq Row] in
theorem Spent.init (A : ν → Bool) (n : Nat) (db : Db) (clock : Int) :
    Spent A n (State.init (Store.init db clock) :
      State (interface Db Row Write φ ν) (Store Db Row ν π) π ε) where
  bound _ := Nat.zero_le n
  running _ _ _ h := by cases h
  unused _ _ := rfl

/-- A session is over. -/
theorem Spent.finish (h : Spent A n st) (s : Nat) :
    Spent A n (st.finish (machine S allowed) s) where
  bound := h.bound
  running t p m hm := by
    unfold State.finish at hm
    dsimp only at hm
    by_cases hts : t = s
    · subst hts
      rw [Function.update_self] at hm
      cases hm
    · rw [Function.update_of_ne hts] at hm
      exact h.running t p m hm
  unused := h.unused

omit [DecidableEq Row] in
theorem count_cons (s : Nat) (e : Entry Db ν π) (trace : List (Entry Db ν π)) :
    count A s (e :: trace) = count A s trace + if e.session = s ∧ A e.note then 1 else 0 := by
  simp only [count, List.countP_cons, Bool.and_eq_true, decide_eq_true_eq]

/-- **One step** of the sessions. -/
theorem Spent.step (h : Spent A n st) (hprogram : ∀ s p call, AtMost A n (program s p call))
    {l : Label π κ String (Outside Db)}
    (hstep : Session.step (machine S allowed) program st l = some st') : Spent A n st' := by
  cases l with
  | start p call =>
      simp only [Session.step] at hstep
      split at hstep
      · obtain rfl := Option.some.inj hstep
        refine ⟨h.bound, fun t q m hm => ?_, fun t ht => h.unused t (Nat.le_of_succ_le ht)⟩
        dsimp only at hm ⊢
        by_cases hts : t = st.started
        · subst hts
          rw [Function.update_self] at hm
          obtain ⟨rfl, rfl⟩ := Prod.mk.inj (Option.some.inj hm)
          refine ⟨Nat.lt_succ_self _, ?_⟩
          rw [h.unused _ (Nat.le_refl _)]
          exact hprogram _ p call
        · rw [Function.update_of_ne hts] at hm
          exact (h.running t q m hm).imp_left Nat.lt_succ_of_lt
      · cases hstep
  | exec s input =>
      simp only [Session.step] at hstep
      split at hstep
      · rename_i p op k hm
        obtain ⟨⟨ans, sh⟩, hhandle, rfl⟩ := Option.map_eq_some_iff.mp hstep
        obtain ⟨hs, hleft⟩ := h.running s p _ hm
        unfold AtMost at hleft
        rcases handle_trace hhandle with htrace | ⟨note, hnote, htrace⟩
        · -- nothing was noted
          refine ⟨fun t => htrace ▸ h.bound t, fun t q m hq => ?_, fun t ht => htrace ▸ h.unused t ht⟩
          dsimp only at hq ⊢
          rw [htrace]
          by_cases hts : t = s
          · subst hts
            rw [Function.update_self] at hq
            obtain ⟨rfl, rfl⟩ := Prod.mk.inj (Option.some.inj hq)
            refine ⟨hs, ?_⟩
            split at hleft
            · exact (hleft.2 ans).mono (Nat.sub_le _ 1)
            · exact hleft ans
          · rw [Function.update_of_ne hts] at hq
            exact h.running t q m hq
        · have hother : ∀ t, t ≠ s → count A t sh.trace = count A t st.shared.trace := by
            intro t hts
            rw [htrace, count_cons, if_neg fun hc => hts hc.1.symm]
            rfl
          have hself : count A s sh.trace = count A s st.shared.trace + if A note then 1 else 0 := by
            rw [htrace, count_cons]
            simp only [true_and]
          have hbound := h.bound s
          rw [hnote, Option.any_some] at hleft
          refine ⟨fun t => ?_, fun t q m hq => ?_, fun t ht => ?_⟩
          · dsimp only
            by_cases hts : t = s
            · subst hts
              rw [hself]
              split
              · rename_i hA
                rw [if_pos hA] at hleft
                have := hleft.1
                omega
              · exact hbound
            · rw [hother t hts]
              exact h.bound t
          · dsimp only at hq ⊢
            by_cases hts : t = s
            · subst hts
              rw [Function.update_self] at hq
              obtain ⟨rfl, rfl⟩ := Prod.mk.inj (Option.some.inj hq)
              refine ⟨hs, ?_⟩
              rw [hself]
              split at hleft
              · rename_i hA
                rw [if_pos hA, ← Nat.sub_sub]
                exact hleft.2 ans
              · rename_i hA
                rw [if_neg hA, Nat.add_zero]
                exact hleft ans
            · rw [Function.update_of_ne hts] at hq
              rw [hother t hts]
              exact h.running t q m hq
          · dsimp only at ht ⊢
            rw [hother t (by omega)]
            exact h.unused t ht
      · obtain rfl := Option.some.inj hstep
        exact h.finish s
      · obtain rfl := Option.some.inj hstep
        exact h.finish s
      · cases hstep
  | abort s =>
      simp only [Session.step] at hstep
      split at hstep
      · obtain rfl := Option.some.inj hstep
        exact h.finish s
      · cases hstep
  | external x =>
      simp only [Session.step, Option.map_eq_some_iff] at hstep
      obtain ⟨sh, hact, rfl⟩ := hstep
      have htrace : sh.trace = st.shared.trace := by
        cases x with
        | clock u =>
            simp only [machine, act] at hact
            split at hact
            · obtain rfl := Option.some.inj hact
              rfl
            · cases hact
        | change db =>
            simp only [machine, act] at hact
            split at hact
            · obtain rfl := Option.some.inj hact
              rfl
            · cases hact
      have hclose : ((machine S allowed).close sh (st.killed (machine S allowed) x)).trace =
          st.shared.trace := htrace
      refine ⟨fun t => hclose ▸ h.bound t, fun t q m hq => ?_, fun t ht => hclose ▸ h.unused t ht⟩
      dsimp only at hq ⊢
      rw [hclose]
      split at hq
      · cases hq
      · exact h.running t q m hq

/-- **No session makes more than `n` notes of a kind** that its program makes at most `n` of. -/
theorem run_count (A : ν → Bool) {n : Nat} (hprogram : ∀ s p call, AtMost A n (program s p call))
    (db : Db) (clock : Int) (labels : List (Label π κ String (Outside Db))) (s : Nat) :
    count A s ((system (machine S allowed) program).run
      (State.init (Store.init db clock)) labels).shared.trace ≤ n :=
  ((system (machine S allowed) program).invariant (P := Spent A n)
    (fun _ _ _ h hstep => h.step hprogram hstep) (Spent.init A n db clock) labels).bound s

end Sql

import KzHome.Lib.Effects

/-!
# KzHome.Lib.Outcomes

How the sessions of a run end, read off their programs.

A program is `Closing` when nothing follows its effect but the return: then a session that
has had its effect returns or is dropped, and one that raises has had none
(`run_settled`). A program is `Answered` when it ends as it should on every path on which the
database it is shown is one of a kind: then every session started since the database is of
that kind ends so (`run_informed`). Both are folds over the program, and both runs go
through one inversion of a step (`step_moves`).
-/

namespace Session

variable {I : Interface} {ε α : Type}

/-- How a program has ended. -/
def Prog.outcome? : Prog I ε α → Option (Except ε α)
  | .ret a => some (.ok a)
  | .raise e => some (.error e)
  | .call _ _ => none

theorem Prog.eq_lift {m : Prog I ε α} {r : Except ε α} (h : m.outcome? = some r) : m = .lift r := by
  cases m with
  | ret a =>
      obtain rfl := Option.some.inj h
      rfl
  | raise e =>
      obtain rfl := Option.some.inj h
      rfl
  | call op k => cases h

end Session

namespace Sql

open Session

variable {Db Row Write φ ν π ε κ α β : Type}

/-- After an effect the program returns at once. -/
def Closing (f : π → Db → ν → Bool) (p : π) : Query Db Row Write φ ν ε α → Prop
  | .ret _ => True
  | .raise _ => True
  | .call (.read note) k =>
    ∀ db, (marks f p db note = true → ∃ a, k db = .ret a) ∧ Closing f p (k db)
  | .call (.lock _) k => ∀ db, Closing f p (k db)
  | .call (.commit _ note) k =>
    (∀ db, marks f p db note = true → ∃ a, k (.ok ()) = .ret a) ∧ ∀ r, Closing f p (k r)
  | .call .rollback k => Closing f p (k ())
  | .call .now k => ∀ t, Closing f p (k t)
  | .call .input k => ∀ x, Closing f p (k x)

/-- The program makes no notes. -/
def Unnoted : Query Db Row Write φ ν ε α → Prop
  | .ret _ => True
  | .raise _ => True
  | .call (.read note) k => note = none ∧ ∀ db, Unnoted (k db)
  | .call (.lock _) k => ∀ db, Unnoted (k db)
  | .call (.commit _ note) k => note = none ∧ ∀ r, Unnoted (k r)
  | .call .rollback k => Unnoted (k ())
  | .call .now k => ∀ t, Unnoted (k t)
  | .call .input k => ∀ x, Unnoted (k x)

/-- The program ends with an outcome in `Q` on every path on which it is shown databases in
`K`. -/
def Answered (K : Db → Prop) (Q : Except ε α → Prop) : Query Db Row Write φ ν ε α → Prop
  | .ret a => Q (.ok a)
  | .raise e => Q (.error e)
  | .call (.read _) k => ∀ db, K db → Answered K Q (k db)
  | .call (.lock _) k => ∀ db, K db → Answered K Q (k db)
  | .call (.commit _ _) k => ∀ r, Answered K Q (k r)
  | .call .rollback k => Answered K Q (k ())
  | .call .now k => ∀ t, Answered K Q (k t)
  | .call .input k => ∀ x, Answered K Q (k x)

/-! ### Closing programs -/

section

variable {f : π → Db → ν → Bool} {p : π}

theorem closing_lift {x : Except ε β} {k : β → Query Db Row Write φ ν ε α}
    (h : ∀ b, x = .ok b → Closing f p (k b)) : Closing f p (Prog.lift x >>= k) := by
  cases x with
  | error e => trivial
  | ok b => exact h b rfl

/-- What makes no notes may come before. -/
theorem Unnoted.marked {m : Query Db Row Write φ ν ε β} {k : β → Query Db Row Write φ ν ε α}
    {marked : Bool} (hm : Unnoted m) (h : ∀ b, Marked f p marked (k b)) :
    Marked f p marked (m >>= k) := by
  induction m with
  | ret b => exact h b
  | raise e => trivial
  | call op next ih =>
      cases op with
      | read note =>
          obtain ⟨rfl, hnext⟩ := hm
          exact marked_peek fun db => ih db (hnext db)
      | lock row => exact fun db => ih db (hm db)
      | commit writes note =>
          obtain ⟨rfl, hnext⟩ := hm
          refine ⟨fun _ => ⟨nofun, ?_⟩, fun e => ih _ (hnext _)⟩
          rw [marks, Option.any_none, Bool.or_false]
          exact ih _ (hnext _)
      | rollback => exact ih () hm
      | now => exact fun t => ih t (hm t)
      | input => exact fun x => ih x (hm x)

theorem Unnoted.closing {m : Query Db Row Write φ ν ε β} {k : β → Query Db Row Write φ ν ε α}
    (hm : Unnoted m) (h : ∀ b, Closing f p (k b)) : Closing f p (m >>= k) := by
  induction m with
  | ret b => exact h b
  | raise e => trivial
  | call op next ih =>
      cases op with
      | read note =>
          obtain ⟨rfl, hnext⟩ := hm
          exact fun db => ⟨nofun, ih db (hnext db)⟩
      | lock row => exact fun db => ih db (hm db)
      | commit writes note =>
          obtain ⟨rfl, hnext⟩ := hm
          exact ⟨fun _ => nofun, fun r => ih r (hnext r)⟩
      | rollback => exact ih () hm
      | now => exact fun t => ih t (hm t)
      | input => exact fun x => ih x (hm x)

/-- A check at the end of a program. -/
theorem closing_last {x : Except ε α} :
    Closing f p (Prog.lift x : Query Db Row Write φ ν ε α) := by
  cases x <;> trivial

/-- A commit that is followed by nothing. -/
theorem closing_commit {writes : List Write} {note : Option ν}
    {k : Except φ Unit → Query Db Row Write φ ν ε α} (hok : ∃ a, k (.ok ()) = .ret a)
    (h : ∀ r, Closing f p (k r)) : Closing f p (Sql.commit writes note >>= k) :=
  ⟨fun _ _ => hok, h⟩

end

/-! ### Answered programs -/

section

variable {K : Db → Prop} {Q : Except ε α → Prop}

theorem answered_read {note : Option ν} {k : Db → Query Db Row Write φ ν ε α}
    (h : ∀ db, K db → Answered K Q (k db)) : Answered K Q (Sql.read note >>= k) := h

theorem answered_lock {row : Row} {k : Db → Query Db Row Write φ ν ε α}
    (h : ∀ db, K db → Answered K Q (k db)) : Answered K Q (Sql.lock row >>= k) := h

/-- **Sequencing.** -/
theorem Answered.bind {R : Except ε β → Prop} {m : Query Db Row Write φ ν ε β}
    {k : β → Query Db Row Write φ ν ε α} (hm : Answered K R m)
    (herror : ∀ e, R (.error e) → Q (.error e)) (h : ∀ b, R (.ok b) → Answered K Q (k b)) :
    Answered K Q (m >>= k) := by
  induction m with
  | ret b => exact h b hm
  | raise e => exact herror e hm
  | call op next ih =>
      cases op with
      | read note => exact fun db hdb => ih db (hm db hdb)
      | lock row => exact fun db hdb => ih db (hm db hdb)
      | commit writes note => exact fun r => ih r (hm r)
      | rollback => exact ih () hm
      | now => exact fun t => ih t (hm t)
      | input => exact fun x => ih x (hm x)

/-- Nothing is asked of the outcome. -/
theorem answered_true (m : Query Db Row Write φ ν ε α) (hQ : ∀ r, Q r) : Answered K Q m := by
  induction m with
  | ret a => exact hQ _
  | raise e => exact hQ _
  | call op k ih =>
      cases op with
      | read note => exact fun db _ => ih db
      | lock row => exact fun db _ => ih db
      | commit writes note => exact ih
      | rollback => exact ih ()
      | now => exact ih
      | input => exact ih

/-- A weaker outcome. -/
theorem Answered.post {Q' : Except ε α → Prop} {m : Query Db Row Write φ ν ε α}
    (h : Answered K Q m) (hQ : ∀ r, Q r → Q' r) : Answered K Q' m := by
  induction m with
  | ret a => exact hQ _ h
  | raise e => exact hQ _ h
  | call op k ih =>
      cases op with
      | read note => exact fun db hdb => ih db (h db hdb)
      | lock row => exact fun db hdb => ih db (h db hdb)
      | commit writes note => exact fun r => ih r (h r)
      | rollback => exact ih () h
      | now => exact fun t => ih t (h t)
      | input => exact fun x => ih x (h x)

theorem Answered.outcome {m : Query Db Row Write φ ν ε α} (h : Answered K Q m) {r : Except ε α}
    (hr : m.outcome? = some r) : Q r := by
  cases m with
  | ret a =>
      obtain rfl := Option.some.inj hr
      exact h
  | raise e =>
      obtain rfl := Option.some.inj hr
      exact h
  | call op k => cases hr

end

/-! ### Runs -/

section Runs

variable [DecidableEq Row] {S : Schema Db Row Write φ} {allowed : Db → Db → Bool}
  {program : Nat → π → κ → Query Db Row Write φ ν ε Unit}
  {st st' : State (interface Db Row Write φ ν) (Store Db Row ν π) π ε}

/-- How a step moves the sessions on: one performs an operation, or none does, and then the
trace stays and nobody is there who was not before, but for one that starts. -/
inductive Moves (S : Schema Db Row Write φ) (program : Nat → π → κ → Query Db Row Write φ ν ε Unit)
    (st st' : State (interface Db Row Write φ ν) (Store Db Row ν π) π ε) : Prop
  | performs (s : Nat) (p : π) (op : Op Row Write ν)
      (k : (interface Db Row Write φ ν).Ans op → Query Db Row Write φ ν ε Unit) (input : String)
      (ans : (interface Db Row Write φ ν).Ans op) (hm : st.sessions s = some (p, .call op k))
      (hh : handle S st.shared s p input op = some (ans, st'.shared))
      (hsessions : st'.sessions = Function.update st.sessions s (some (p, k ans)))
      (hstarted : st'.started = st.started)
  | rests (htrace : st'.shared.trace = st.shared.trace) (hstarted : st.started ≤ st'.started)
      (hsessions : ∀ s p m, st'.sessions s = some (p, m) →
        st.sessions s = some (p, m) ∨ s = st.started ∧ ∃ call, m = program s p call)

theorem finish_rests (s : Nat) : Moves S program st (st.finish (machine S allowed) s) := by
  refine .rests rfl (Nat.le_refl _) fun t p m hm => .inl ?_
  unfold State.finish at hm
  dsimp only at hm
  by_cases hts : t = s
  · subst hts
    rw [Function.update_self] at hm
    cases hm
  · rwa [Function.update_of_ne hts] at hm

/-- **Inversion** of a step. -/
theorem step_moves {l : Label π κ String (Outside Db)}
    (h : Session.step (machine S allowed) program st l = some st') : Moves S program st st' := by
  cases l with
  | start p call =>
      simp only [Session.step] at h
      split at h
      · obtain rfl := Option.some.inj h
        refine .rests rfl (Nat.le_succ _) fun t q m hm => ?_
        dsimp only at hm
        by_cases hts : t = st.started
        · subst hts
          rw [Function.update_self] at hm
          obtain ⟨rfl, rfl⟩ : p = q ∧ program st.started p call = m := by simpa using hm
          exact .inr ⟨rfl, call, rfl⟩
        · rw [Function.update_of_ne hts] at hm
          exact .inl hm
      · cases h
  | exec s input =>
      obtain ⟨p, op, k, ans, sh, hm, hh, rfl⟩ | ⟨-, rfl⟩ := exec_cases h
      · exact .performs s p op k input ans hm hh rfl rfl
      · exact finish_rests s
  | abort s =>
      simp only [Session.step] at h
      cases hm : st.sessions s with
      | none =>
          rw [hm] at h
          cases h
      | some pm =>
          rw [hm] at h
          obtain rfl := Option.some.inj h
          exact finish_rests s
  | external x =>
      simp only [Session.step, Option.map_eq_some_iff] at h
      obtain ⟨sh, ha, rfl⟩ := h
      have htrace : sh.trace = st.shared.trace := Protocol.act_trace ha
      refine .rests htrace (Nat.le_refl _) fun t q m hm => .inl ?_
      dsimp only at hm
      split at hm
      · cases hm
      · exact hm

/-! #### Sessions with an effect -/

/-- A session that has had its effect has returned, or is not there any more. -/
structure Settled (f : π → Db → ν → Bool)
    (st : State (interface Db Row Write φ ν) (Store Db Row ν π) π ε) : Prop where
  closing : ∀ s p m, st.sessions s = some (p, m) → Closing f p m
  ended : ∀ e ∈ st.shared.effects f, ∀ p m, st.sessions e.session = some (p, m) → m = .ret ()

variable {f : π → Db → ν → Bool} {p : π}

omit [DecidableEq Row] in
/-- An operation that is recorded, in a program that is closing. -/
theorem closing_record {sh : Store Db Row ν π} {s : Nat} {note : Option ν}
    {m : Query Db Row Write φ ν ε Unit}
    (h : marks f p sh.db note = true → ∃ a, m = .ret a) :
    (sh.record s p note).effects f = sh.effects f ∨
      ∃ e, (sh.record s p note).effects f = e :: sh.effects f ∧ e.session = s ∧ m = .ret () := by
  obtain ⟨heq, -⟩ | ⟨e, heq, hs, -, hmark⟩ := effects_record (f := f) (p := p) sh s note
  · exact .inl heq
  · obtain ⟨_, hret⟩ := h hmark
    exact .inr ⟨e, heq, hs, hret⟩

/-- **One operation** of a closing program: after an effect it has returned. -/
theorem Closing.step {sh sh' : Store Db Row ν π} {s : Nat} {input : String}
    {op : Op Row Write ν} {k : (interface Db Row Write φ ν).Ans op →
      Query Db Row Write φ ν ε Unit} {ans : (interface Db Row Write φ ν).Ans op}
    (h : Closing f p (.call op k)) (hh : handle S sh s p input op = some (ans, sh')) :
    Closing f p (k ans) ∧ (sh'.effects f = sh.effects f ∨
      ∃ e, sh'.effects f = e :: sh.effects f ∧ e.session = s ∧ k ans = .ret ()) := by
  cases op with
  | read note =>
      obtain ⟨rfl, rfl⟩ := Prod.mk.inj (Option.some.inj hh)
      exact ⟨(h _).2, closing_record (h _).1⟩
  | lock row =>
      simp only [handle] at hh
      split at hh
      · obtain ⟨rfl, rfl⟩ := Prod.mk.inj (Option.some.inj hh)
        refine ⟨h _, .inl ?_⟩
        unfold Store.take
        split <;> rfl
      · cases hh
  | commit writes note =>
      simp only [handle] at hh
      split at hh
      · split at hh
        · obtain ⟨rfl, rfl⟩ := Prod.mk.inj (Option.some.inj hh)
          exact ⟨h.2 _, closing_record (h.1 sh.db)⟩
        · obtain ⟨rfl, rfl⟩ := Prod.mk.inj (Option.some.inj hh)
          exact ⟨h.2 _, .inl rfl⟩
      · cases hh
  | rollback =>
      obtain ⟨rfl, rfl⟩ := Prod.mk.inj (Option.some.inj hh)
      exact ⟨h, .inl rfl⟩
  | now =>
      obtain ⟨rfl, rfl⟩ := Prod.mk.inj (Option.some.inj hh)
      exact ⟨h _, .inl rfl⟩
  | input =>
      obtain ⟨rfl, rfl⟩ := Prod.mk.inj (Option.some.inj hh)
      exact ⟨h _, .inl rfl⟩

/-- **One step** leaves the sessions settled. -/
theorem Settled.step (hprog : ∀ s p call, Closing f p (program s p call)) (ht : Tally f st)
    (h : Settled f st) (hm : Moves S program st st') : Settled f st' := by
  cases hm with
  | rests htrace hstarted hsessions =>
      have heffects : st'.shared.effects f = st.shared.effects f :=
        congrArg (List.filter _) htrace
      constructor
      · intro s p m hs
        obtain hold | ⟨-, call, rfl⟩ := hsessions s p m hs
        · exact h.closing s p m hold
        · exact hprog s p call
      · intro e he p m hs
        rw [heffects] at he
        obtain hold | ⟨hnew, -⟩ := hsessions e.session p m hs
        · exact h.ended e he p m hold
        · exact absurd (ht.past e he) (by omega)
  | performs s p op k input ans hs hh hsessions hstarted =>
      obtain ⟨hk, heffects⟩ := (h.closing s p _ hs).step hh
      have hfree : ∀ e ∈ st.shared.effects f, e.session ≠ s := by
        intro e he hes
        have := h.ended e he p (.call op k) (hes ▸ hs)
        cases this
      constructor
      · intro t q m hm
        rw [hsessions] at hm
        by_cases hts : t = s
        · subst hts
          rw [Function.update_self] at hm
          obtain ⟨rfl, rfl⟩ : p = q ∧ k ans = m := by simpa using hm
          exact hk
        · rw [Function.update_of_ne hts] at hm
          exact h.closing t q m hm
      · have hothers : ∀ e ∈ st.shared.effects f, ∀ q m,
            st'.sessions e.session = some (q, m) → m = .ret () := by
          intro e he q m hm
          rw [hsessions, Function.update_of_ne (hfree e he)] at hm
          exact h.ended e he q m hm
        obtain heq | ⟨e', heq, hes, hret⟩ := heffects
        · rw [heq]
          exact hothers
        · rw [heq]
          refine List.forall_mem_cons.mpr ⟨fun q m hm => ?_, hothers⟩
          rw [hsessions, hes, Function.update_self] at hm
          obtain ⟨rfl, rfl⟩ : p = q ∧ k ans = m := by simpa using hm
          exact hret

/-- **Every run is settled**, and has its tally. -/
theorem run_settled (hmarked : ∀ s p call, Marked f p false (program s p call))
    (hclosing : ∀ s p call, Closing f p (program s p call))
    {sh : Store Db Row ν π} (h0 : sh.trace = []) (labels : List (Label π κ String (Outside Db))) :
    Tally f ((system (machine S allowed) program).run (State.init sh) labels) ∧
      Settled f ((system (machine S allowed) program).run (State.init sh) labels) := by
  have hfirst : Tally f ((system (machine S allowed) program).run (State.init sh) []) :=
    run_tally hmarked h0 []
  have hsettled : Settled f (State.init sh : State (interface Db Row Write φ ν) _ π ε) :=
    ⟨nofun, nofun⟩
  refine Transition.System.invariant (S := system (machine S allowed) program)
    (P := fun st => Tally f st ∧ Settled f st) (fun st l st' h hstep => ?_)
    ⟨hfirst, hsettled⟩ labels
  exact ⟨h.1.step hmarked hstep, h.2.step hclosing h.1 (step_moves hstep)⟩

omit [DecidableEq Row] in
/-- A session that raises has had no effect. -/
theorem Settled.raised (h : Settled f st) {s : Nat} {p : π} {err : ε}
    (hs : st.sessions s = some (p, .raise err)) : ∀ e ∈ st.shared.effects f, e.session ≠ s := by
  intro e he hes
  have := h.ended e he p (.raise err) (hes ▸ hs)
  cases this

/-! #### Sessions that are shown one kind of database -/

/-- The sessions from the `n`-th on end as they should. -/
def Informed (K : Db → Prop) (Q : π → Except ε Unit → Prop) (n : Nat)
    (st : State (interface Db Row Write φ ν) (Store Db Row ν π) π ε) : Prop :=
  ∀ s p m, n ≤ s → st.sessions s = some (p, m) → Answered K (Q p) m

variable {K : Db → Prop} {Q : π → Except ε Unit → Prop} {n : Nat}

theorem Answered.step {sh sh' : Store Db Row ν π} {s : Nat} {input : String}
    {op : Op Row Write ν} {k : (interface Db Row Write φ ν).Ans op →
      Query Db Row Write φ ν ε Unit} {ans : (interface Db Row Write φ ν).Ans op}
    {R : Except ε Unit → Prop} (h : Answered K R (.call op k)) (hK : K sh.db)
    (hh : handle S sh s p input op = some (ans, sh')) : Answered K R (k ans) := by
  cases op with
  | read note =>
      obtain ⟨rfl, rfl⟩ := Prod.mk.inj (Option.some.inj hh)
      exact h _ hK
  | lock row =>
      simp only [handle] at hh
      split at hh
      · obtain ⟨rfl, rfl⟩ := Prod.mk.inj (Option.some.inj hh)
        exact h _ hK
      · cases hh
  | commit writes note => exact h ans
  | rollback => exact h
  | now => exact h ans
  | input => exact h ans

theorem Informed.step (hprog : ∀ s p call, Answered K (Q p) (program s p call))
    (h : Informed K Q n st) (hK : K st.shared.db) (hm : Moves S program st st') :
    Informed K Q n st' := by
  intro t q m hn hs
  cases hm with
  | rests htrace hstarted hsessions =>
      obtain hold | ⟨-, call, rfl⟩ := hsessions t q m hs
      · exact h t q m hn hold
      · exact hprog t q call
  | performs s p op k input ans hm hh hsessions hstarted =>
      rw [hsessions] at hs
      by_cases hts : t = s
      · subst hts
        rw [Function.update_self] at hs
        obtain ⟨rfl, rfl⟩ : p = q ∧ k ans = m := by simpa using hs
        exact (h t p _ hn hm).step hK hh
      · rw [Function.update_of_ne hts] at hs
        exact h t q m hn hs

/-- **The sessions that a run starts** end as their programs do on the databases of the
run. -/
theorem run_informed (hprog : ∀ s p call, Answered K (Q p) (program s p call))
    (labels : List (Label π κ String (Outside Db)))
    (hK : ∀ before, before <+: labels →
      K ((system (machine S allowed) program).run st before).shared.db)
    (hfresh : ∀ s, st.started ≤ s → st.sessions s = none) :
    Informed K Q st.started ((system (machine S allowed) program).run st labels) := by
  induction labels using List.reverseRecOn with
  | nil =>
      intro s p m hn hs
      rw [Transition.System.run_nil, hfresh s hn] at hs
      cases hs
  | append_singleton labels l ih =>
      have hbefore := ih fun before hb => hK before (hb.trans (List.prefix_append _ _))
      rw [Transition.System.run_snoc]
      obtain heq | hstep := (system (machine S allowed) program).next_cases
        ((system (machine S allowed) program).run st labels) l
      · rw [heq]
        exact hbefore
      · exact hbefore.step hprog (hK labels (List.prefix_append _ _)) (step_moves hstep)

/-! #### A session on its own -/

/-- What a program comes to while nobody else does anything, with the values it draws. -/
def alone (S : Schema Db Row Write φ) (s : Nat) (p : π) : Query Db Row Write φ ν ε α →
    Store Db Row ν π → List String → Option (Except ε α × Store Db Row ν π)
  | .ret a, sh, _ => some (.ok a, sh)
  | .raise e, sh, _ => some (.error e, sh)
  | .call op k, sh, inputs =>
    (handle S sh s p (inputs.headD "") op).bind fun r => alone S s p (k r.1) r.2 inputs.tail

/-- That is a run. -/
theorem run_alone {m : Query Db Row Write φ ν ε Unit} {s : Nat} {p : π} {inputs : List String}
    {r : Except ε Unit} {sh : Store Db Row ν π} (hs : st.sessions s = some (p, m))
    (h : alone S s p m st.shared inputs = some (r, sh)) :
    ∃ labels m', ((system (machine S allowed) program).run st labels).shared = sh ∧
      ((system (machine S allowed) program).run st labels).sessions s = some (p, m') ∧
      m'.outcome? = some r := by
  induction m generalizing st inputs with
  | ret a =>
      obtain ⟨rfl, rfl⟩ := Prod.mk.inj (Option.some.inj h)
      exact ⟨[], .ret a, rfl, hs, rfl⟩
  | raise e =>
      obtain ⟨rfl, rfl⟩ := Prod.mk.inj (Option.some.inj h)
      exact ⟨[], .raise e, rfl, hs, rfl⟩
  | call op k ih =>
      obtain ⟨⟨ans, sh'⟩, hh, hrest⟩ := Option.bind_eq_some_iff.mp h
      have hstep : Session.step (machine S allowed) program st (.exec s (inputs.headD "")) =
          some { st with
            shared := sh'
            sessions := Function.update st.sessions s (some (p, k ans)) } := by
        have hh : (machine S allowed).handle st.shared s p (inputs.headD "") op =
          some (ans, sh') := hh
        simp only [Session.step, hs, hh, Option.map_some]
      obtain ⟨labels, m', hshared, hm', hout⟩ := @ih ans
        { st with
          shared := sh'
          sessions := Function.update st.sessions s (some (p, k ans)) }
        inputs.tail (Function.update_self ..) hrest
      refine ⟨.exec s (inputs.headD "") :: labels, m', ?_⟩
      rw [Transition.System.run_cons, Transition.System.next_of_step hstep]
      exact ⟨hshared, hm', hout⟩

/-- Nobody but session `s` holds a lock. -/
def Free (s : Nat) (sh : Store Db Row ν π) : Prop :=
  ∀ row, sh.locks row = none ∨ sh.locks row = some s

omit [DecidableEq Row] in
theorem Free.available {s : Nat} {sh : Store Db Row ν π} (h : Free s sh) (rows : List Row) :
    RowLocks.available sh.locks s rows = true := by
  rw [RowLocks.available, List.all_eq_true]
  intro row _
  simpa using h row

theorem Free.take {s : Nat} {sh : Store Db Row ν π} (h : Free s sh) (row : Row) :
    Free s (sh.take S s row) := by
  unfold Store.take
  split
  · intro row'
    show RowLocks.take sh.locks s [row] row' = none ∨ RowLocks.take sh.locks s [row] row' = some s
    unfold RowLocks.take
    split
    · exact .inr rfl
    · exact h row'
  · exact h

variable {s : Nat} {sh : Store Db Row ν π} {inputs : List String} {m : Type}

theorem alone_lift {x : Except ε β} {b : β} {k : β → Query Db Row Write φ ν ε α} (h : x = .ok b) :
    alone S s p (Prog.lift x >>= k) sh inputs = alone S s p (k b) sh inputs := by
  subst h
  rfl

theorem alone_lock {row : Row} {k : Db → Query Db Row Write φ ν ε α} (h : Free s sh) :
    alone S s p (Sql.lock row >>= k) sh inputs =
      alone S s p (k sh.db) (sh.take S s row) inputs.tail := by
  show (handle S sh s p _ (.lock row)).bind _ = _
  rw [handle, if_pos (h.available [row])]
  rfl

theorem alone_commit {writes : List Write} {note : Option ν} {db : Db}
    {k : Except φ Unit → Query Db Row Write φ ν ε α} (h : Free s sh)
    (hdb : S.apply sh.db writes = .ok db) :
    alone S s p (Sql.commit writes note >>= k) sh inputs =
      alone S s p (k (.ok ())) (sh.commit s p note db) inputs.tail := by
  show (handle S sh s p _ (.commit writes note)).bind _ = _
  rw [handle, if_pos (h.available _), hdb]
  rfl

end Runs

end Sql

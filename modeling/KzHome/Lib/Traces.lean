import KzHome.Lib.Session

/-!
# KzHome.Lib.Traces

What a session has done.

A program gets to where it is by the operations that it was answered (`Leads`). In a run the
operations of a session take place one after the other, each on the shared state of its moment
(`performed`). So what a program has to do before it returns, which is read off the program alone,
was done by every session that has returned.
-/

namespace Session

open Transition

variable {I : Interface} {σ π ι ξ κ ε α β : Type}

/-- The program has returned. -/
def Prog.returned : Prog I ε α → Bool
  | .ret _ => true
  | _ => false

theorem Prog.eq_ret {m : Prog I ε Unit} (h : m.returned = true) : m = .ret () := by
  cases m with
  | ret u => rfl
  | _ => cases h

/-- An operation with its answer, and the shared states before and after it. -/
structure Performed (I : Interface) (σ : Type) where
  before : σ
  op : I.Op
  ans : I.Ans op
  after : σ

/-- The first program comes to the second by these operations. -/
inductive Leads : Prog I ε α → List (Performed I σ) → Prog I ε α → Prop
  | refl {m : Prog I ε α} : Leads m [] m
  | op {x : Performed I σ} {k : I.Ans x.op → Prog I ε α} {xs : List (Performed I σ)}
      {q : Prog I ε α} (h : Leads (k x.ans) xs q) : Leads (.call x.op k) (x :: xs) q

namespace Leads

variable {m q : Prog I ε α} {xs : List (Performed I σ)}

theorem of_ret {a : α} (h : Leads (.ret a) xs q) : xs = [] ∧ q = .ret a := by
  cases h
  exact ⟨rfl, rfl⟩

theorem of_raise {e : ε} (h : Leads (.raise e) xs q) : xs = [] ∧ q = .raise e := by
  cases h
  exact ⟨rfl, rfl⟩

/-- A program that has got further than an operation has performed it. -/
theorem of_call {op : I.Op} {k : I.Ans op → Prog I ε α} (h : Leads (.call op k) xs q) :
    (xs = [] ∧ q = .call op k) ∨ ∃ before ans after ys,
      xs = ⟨before, op, ans, after⟩ :: ys ∧ Leads (k ans) ys q := by
  generalize hm : Prog.call op k = m at h
  cases h with
  | refl =>
      subst hm
      exact .inl ⟨rfl, rfl⟩
  | @op x k' ys _ h =>
      obtain ⟨before, op', ans, after⟩ := x
      injection hm with hop hk
      subst hop
      obtain rfl := eq_of_heq hk
      exact .inr ⟨before, ans, after, ys, rfl, h⟩

/-- **An operation of a program that is over** was performed. -/
theorem over_call {o : I.Op} {k : I.Ans o → Prog I ε α} {r : Except ε α}
    (h : Leads (.call o k) xs (.lift r)) : ∃ before ans after ys,
      xs = ⟨before, o, ans, after⟩ :: ys ∧ Leads (k ans) ys (.lift r) :=
  h.of_call.resolve_left fun hnone => by cases r <;> cases hnone.2

/-- **A sequence that is over**: its first part raised, or returned and then its second is over. -/
theorem over_bind {m : Prog I ε α} {f : α → Prog I ε β} {r : Except ε β}
    (h : Leads (m >>= f) xs (.lift r)) :
    (∃ e, r = .error e ∧ Leads m xs (.raise e)) ∨
      ∃ a ys zs, xs = ys ++ zs ∧ Leads m ys (.ret a) ∧ Leads (f a) zs (.lift r) := by
  induction m generalizing xs with
  | ret a => exact .inr ⟨a, [], xs, rfl, .refl, h⟩
  | raise e =>
      obtain ⟨rfl, hr⟩ := h.of_raise
      cases r with
      | ok b => cases hr
      | error e' =>
          cases hr
          exact .inl ⟨e, rfl, .refl⟩
  | call op k ih =>
      obtain ⟨before, ans, after, ys, rfl, hrest⟩ := h.over_call
      let x : Performed I σ := ⟨before, op, ans, after⟩
      rcases ih ans hrest with ⟨e, hr, hm⟩ | ⟨a, ys, zs, rfl, hm, hf⟩
      · exact .inl ⟨e, hr, .op (x := x) hm⟩
      · exact .inr ⟨a, x :: ys, zs, rfl, .op (x := x) hm, hf⟩

/-- A check makes no operation. -/
theorem over_lift {x r : Except ε α} (h : Leads (Prog.lift x : Prog I ε α) xs (.lift r)) :
    xs = [] ∧ x = r := by
  cases x with
  | ok b =>
      obtain ⟨hnil, hr⟩ := h.of_ret
      cases r <;> cases hr
      exact ⟨hnil, rfl⟩
  | error e =>
      obtain ⟨hnil, hr⟩ := h.of_raise
      cases r <;> cases hr
      exact ⟨hnil, rfl⟩

theorem ret_call {op : I.Op} {k : I.Ans op → Prog I ε α} {a : α}
    (h : Leads (.call op k) xs (.ret a)) : ∃ before ans after ys,
      xs = ⟨before, op, ans, after⟩ :: ys ∧ Leads (k ans) ys (.ret a) :=
  over_call (r := .ok a) h

theorem ret_bind {m : Prog I ε α} {f : α → Prog I ε β} {b : β}
    (h : Leads (m >>= f) xs (.ret b)) :
    ∃ a ys zs, xs = ys ++ zs ∧ Leads m ys (.ret a) ∧ Leads (f a) zs (.ret b) :=
  (over_bind (r := .ok b) h).resolve_left fun hraised => by
    obtain ⟨e, hr, -⟩ := hraised
    cases hr

end Leads

/-! ### The sessions of a run -/

section

variable {M : Machine I σ π ι ξ} {program : Nat → π → κ → Prog I ε Unit}

/-- From the state `st` on, session `s` has performed these operations, in this order. -/
def Played (M : Machine I σ π ι ξ) (program : Nat → π → κ → Prog I ε Unit) (s : Nat) (p : π) :
    State I σ π ε → List (Label π κ ι ξ) → List (Performed I σ) → Prop
  | _, _, [] => True
  | st, labels, x :: xs => ∃ before input after, labels = before ++ .exec s input :: after ∧
      ((system M program).run st before).shared = x.before ∧
      M.handle x.before s p input x.op = some (x.ans, x.after) ∧
      ((system M program).run st (before ++ [.exec s input])).shared = x.after ∧
      Played M program s p ((system M program).run st (before ++ [.exec s input])) after xs

/-- A label that did not touch the session comes before all of its operations. -/
theorem Played.wait {st : State I σ π ε} {l : Label π κ ι ξ} {labels : List (Label π κ ι ξ)}
    {s : Nat} {p : π} {xs : List (Performed I σ)}
    (h : Played M program s p ((system M program).next st l) labels xs) :
    Played M program s p st (l :: labels) xs := by
  cases xs with
  | nil => trivial
  | cons x xs =>
      obtain ⟨before, input, after, rfl, hx⟩ := h
      exact ⟨l :: before, input, after, rfl, hx⟩

/-- Every operation was performed at some moment. -/
theorem Played.mem {st : State I σ π ε} {labels : List (Label π κ ι ξ)} {s : Nat} {p : π}
    {xs : List (Performed I σ)} (h : Played M program s p st labels xs) {x : Performed I σ}
    (hx : x ∈ xs) : ∃ before input after, labels = before ++ .exec s input :: after ∧
      ((system M program).run st before).shared = x.before ∧
      M.handle x.before s p input x.op = some (x.ans, x.after) ∧
      ((system M program).run st (before ++ [.exec s input])).shared = x.after := by
  induction xs generalizing st labels with
  | nil => cases hx
  | cons y ys ih =>
      obtain ⟨before, input, after, rfl, hbefore, hhandle, hafter, hrest⟩ := h
      rcases List.mem_cons.mp hx with rfl | hx
      · exact ⟨before, input, after, rfl, hbefore, hhandle, hafter⟩
      · obtain ⟨before', input', after', rfl, h⟩ := ih hrest hx
        refine ⟨before ++ .exec s input :: before', input', after', by simp, ?_⟩
        rw [← System.run_append, ← System.run_append] at h
        simpa using h

/-- What a step does to a session: nothing, its next operation, or its end. -/
inductive Touched (M : Machine I σ π ι ξ) (s : Nat) (p : π) (m : Prog I ε Unit)
    (st st' : State I σ π ε) : Label π κ ι ξ → Prop
  | kept {l : Label π κ ι ξ} (h : st'.sessions s = some (p, m)) : Touched M s p m st st' l
  | performed {op : I.Op} {k : I.Ans op → Prog I ε Unit} {input : ι} {ans : I.Ans op}
      (hm : m = .call op k) (hh : M.handle st.shared s p input op = some (ans, st'.shared))
      (h : st'.sessions s = some (p, k ans)) : Touched M s p m st st' (.exec s input)
  | ended {l : Label π κ ι ξ} (h : st'.sessions s = none) : Touched M s p m st st' l

theorem touched {st st' : State I σ π ε} {l : Label π κ ι ξ}
    (h : step M program st l = some st') {s : Nat} {p : π} {m : Prog I ε Unit}
    (hs : s < st.started) (hm : st.sessions s = some (p, m)) : Touched M s p m st st' l := by
  -- what happens to another session does not touch this one
  have hne : ∀ {t : Nat} {x}, t ≠ s → Function.update st.sessions t x s = some (p, m) := by
    intro t x ht
    rw [Function.update_of_ne ht.symm]
    exact hm
  cases l with
  | start q call =>
      simp only [step] at h
      split at h
      · obtain rfl := Option.some.inj h
        exact .kept (hne (Nat.ne_of_gt hs))
      · cases h
  | exec t input =>
      by_cases ht : t = s
      · subst ht
        simp only [step, hm] at h
        cases m with
        | call op k =>
            obtain ⟨⟨ans, sh⟩, hr, rfl⟩ := Option.map_eq_some_iff.mp h
            exact .performed rfl hr (Function.update_self ..)
        | ret a =>
            obtain rfl := Option.some.inj h
            exact .ended (Function.update_self ..)
        | raise e =>
            obtain rfl := Option.some.inj h
            exact .ended (Function.update_self ..)
      · simp only [step] at h
        split at h
        · obtain ⟨r, -, rfl⟩ := Option.map_eq_some_iff.mp h
          exact .kept (hne ht)
        · obtain rfl := Option.some.inj h
          exact .kept (hne ht)
        · obtain rfl := Option.some.inj h
          exact .kept (hne ht)
        · cases h
  | abort t =>
      simp only [step] at h
      split at h
      · obtain rfl := Option.some.inj h
        by_cases ht : t = s
        · subst ht
          exact .ended (Function.update_self ..)
        · exact .kept (hne ht)
      · cases h
  | external x =>
      simp only [step, Option.map_eq_some_iff] at h
      obtain ⟨sh, -, rfl⟩ := h
      by_cases hk : st.killed M x s = true
      · exact .ended (if_pos hk)
      · exact .kept ((if_neg hk).trans hm)

/-- A session that is over does not come back. -/
theorem run_over {st : State I σ π ε} {s : Nat} (hs : s < st.started)
    (ho : st.sessions s = none) (labels : List (Label π κ ι ξ)) :
    ((system M program).run st labels).sessions s = none :=
  (System.invariant (P := fun st : State I σ π ε => s < st.started ∧ st.sessions s = none)
    (fun _ _ _ hP hstep => step_over hstep hP.1 hP.2) ⟨hs, ho⟩ labels).2

/-- **Every session is where its operations have brought it.** -/
theorem performed {st : State I σ π ε} {s : Nat} {p : π} {m : Prog I ε Unit}
    (hs : s < st.started) (hm : st.sessions s = some (p, m)) {labels : List (Label π κ ι ξ)}
    {p' : π} {q : Prog I ε Unit}
    (h : ((system M program).run st labels).sessions s = some (p', q)) :
    p' = p ∧ ∃ xs, Leads m xs q ∧ Played M program s p st labels xs := by
  induction labels generalizing st m with
  | nil =>
      obtain ⟨rfl, rfl⟩ : p = p' ∧ m = q := by simpa [hm] using h
      exact ⟨rfl, [], .refl, trivial⟩
  | cons l labels ih =>
      rw [System.run_cons] at h
      rcases (system M program).next_cases st l with hstay | hstep
      · rw [hstay] at h
        obtain ⟨hp, xs, hxs, hplayed⟩ := ih hs hm h
        exact ⟨hp, xs, hxs, .wait (hstay.symm ▸ hplayed)⟩
      · have hs' := Nat.lt_of_lt_of_le hs (started_le hstep)
        generalize hst' : (system M program).next st l = st' at h hstep hs'
        cases touched hstep hs hm with
        | kept hkept =>
            obtain ⟨hp, xs, hxs, hplayed⟩ := ih hs' hkept h
            exact ⟨hp, xs, hxs, .wait (hst'.symm ▸ hplayed)⟩
        | @performed op k input ans hop hh hnext =>
            subst hop
            obtain ⟨hp, xs, hxs, hplayed⟩ := ih hs' hnext h
            let x : Performed I σ := ⟨st.shared, op, ans, st'.shared⟩
            refine ⟨hp, x :: xs, .op (x := x) hxs, [], input, labels, rfl, rfl, hh, ?_, ?_⟩
            · exact congrArg State.shared hst'
            · rw [List.nil_append, System.run_cons, System.run_nil, hst']
              exact hplayed
        | ended hover => rw [run_over hs' hover] at h; cases h

/-- A session that was just started. -/
theorem next_start {st : State I σ π ε} {p : π} (hadm : M.admits st.shared p = true) (call : κ) :
    (system M program).next st (.start p call) = { st with
      sessions := Function.update st.sessions st.started (some (p, program st.started p call))
      started := st.started + 1 } :=
  System.next_of_step (if_pos hadm)

/-- **What a call has done**: a session that was started for it is where the program of the call
is after the operations that it has performed since. -/
theorem performed_call {st : State I σ π ε} {p : π} (hadm : M.admits st.shared p = true) {call : κ}
    {labels : List (Label π κ ι ξ)} {p' : π} {q : Prog I ε Unit}
    (h : ((system M program).run st (.start p call :: labels)).sessions st.started =
      some (p', q)) :
    p' = p ∧ ∃ xs, Leads (program st.started p call) xs q ∧
      Played M program st.started p ((system M program).next st (.start p call)) labels xs := by
  rw [System.run_cons] at h
  refine performed ?_ ?_ h
  · rw [next_start hadm]
    exact Nat.lt_succ_self _
  · rw [next_start hadm]
    exact Function.update_self ..

end

end Session

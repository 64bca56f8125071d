import KzHome.Lib.Session
import Mathlib.Data.List.Induction

/-!
# KzHome.Lib.Restart

Procedures that are interrupted and run again.

A procedure is a `Session.Prog` whose operations a world performs one after the other
(`Performer`). `cut` stops it before an operation, in the world as it is then; `finish`
lets it come to its end. `Always` says that a property holds at every boundary between two
operations, so at every cut, and what is true at the end; it is computed along the program.
`Only` says which operations a procedure is made of; sessions that run procedures of one kind
stay in that kind (`Sessions.step`).
-/

namespace Restart

open Session

/-- How a world performs operations. -/
abbrev Performer (I : Interface) (σ : Type) := σ → (op : I.Op) → I.Ans op × σ

variable {I : Interface} {σ ε α β : Type} (perform : Performer I σ)

/-- The world after the first `n` operations. -/
def cut : Nat → Prog I ε α → σ → σ
  | 0, _, s => s
  | _ + 1, .ret _, s => s
  | _ + 1, .raise _, s => s
  | n + 1, .call op k, s => cut n (k (perform s op).1) (perform s op).2

/-- The outcome of a procedure, and the world after it. -/
def finish : Prog I ε α → σ → Except ε α × σ
  | .ret a, s => (.ok a, s)
  | .raise e, s => (.error e, s)
  | .call op k, s => finish (k (perform s op).1) (perform s op).2

/-- The world after interrupted runs, each cut where the list says. -/
def attempts (prog : Prog I ε α) (s : σ) (cuts : List Nat) : σ :=
  cuts.foldl (fun s n => cut perform n prog s) s

/-- `P` at every boundary, and `Q` at the end. -/
def Always (P : σ → Prop) : Prog I ε α → (Except ε α → σ → Prop) → σ → Prop
  | .ret a, Q, s => P s ∧ Q (.ok a) s
  | .raise e, Q, s => P s ∧ Q (.error e) s
  | .call op k, Q, s => P s ∧ Always P (k (perform s op).1) Q (perform s op).2

/-- All operations of a procedure are of a kind. -/
def Only (A : I.Op → Prop) : Prog I ε α → Prop
  | .ret _ => True
  | .raise _ => True
  | .call op k => A op ∧ ∀ ans, Only A (k ans)

variable {perform} {P : σ → Prop} {Q R : Except ε α → σ → Prop} {s : σ}

@[simp] theorem attempts_nil (prog : Prog I ε α) (s : σ) : attempts perform prog s [] = s := rfl

theorem attempts_snoc (prog : Prog I ε α) (s : σ) (cuts : List Nat) (n : Nat) :
    attempts perform prog s (cuts ++ [n]) = cut perform n prog (attempts perform prog s cuts) := by
  simp only [attempts, List.foldl_append, List.foldl_cons, List.foldl_nil]

/-- **A property of all boundaries** holds wherever the procedure is cut. -/
theorem Always.cut {m : Prog I ε α} (h : Always perform P m Q s) (n : Nat) :
    P (Restart.cut perform n m s) := by
  induction m generalizing s n with
  | ret a => cases n <;> exact h.1
  | raise e => cases n <;> exact h.1
  | call op k ih =>
      cases n with
      | zero => exact h.1
      | succ n => exact ih _ h.2 n

theorem Always.mono {P' : σ → Prop} {m : Prog I ε α} (h : Always perform P m Q s)
    (hP : ∀ s, P s → P' s) (hQ : ∀ r s, Q r s → R r s) : Always perform P' m R s := by
  induction m generalizing s with
  | ret a => exact ⟨hP _ h.1, hQ _ _ h.2⟩
  | raise e => exact ⟨hP _ h.1, hQ _ _ h.2⟩
  | call op k ih => exact ⟨hP _ h.1, ih _ h.2⟩

/-- One procedure after another. -/
theorem Always.bind {m : Prog I ε α} {f : α → Prog I ε β} {Q : Except ε β → σ → Prop}
    (h : Always perform P m (fun r s => match r with
      | .ok a => Always perform P (f a) Q s
      | .error e => Q (.error e) s) s) : Always perform P (m >>= f) Q s := by
  induction m generalizing s with
  | ret a => exact h.2
  | raise e => exact h
  | call op k ih => exact ⟨h.1, ih _ h.2⟩

/-- A check between two operations. -/
theorem always_lift {x : Except ε α} {f : α → Prog I ε β} {Q : Except ε β → σ → Prop} (hs : P s)
    (herror : ∀ e, Q (.error e) s) (hf : ∀ a, x = .ok a → Always perform P (f a) Q s) :
    Always perform P (Prog.lift x >>= f) Q s := by
  cases x with
  | error e => exact ⟨hs, herror e⟩
  | ok a => exact hf a rfl

/-! ### Procedures of some operations only -/

section Only

variable {A : I.Op → Prop}

theorem only_lift (x : Except ε α) : Only A (Prog.lift x : Prog I ε α) := by
  cases x <;> trivial

theorem Only.bind {m : Prog I ε α} {f : α → Prog I ε β} (h : Only A m)
    (hf : ∀ a, Only A (f a)) : Only A (m >>= f) := by
  induction m with
  | ret a => exact hf a
  | raise e => trivial
  | call op k ih => exact ⟨h.1, fun ans => ih ans (h.2 ans)⟩

theorem Only.mono {B : I.Op → Prop} {m : Prog I ε α} (h : Only A m) (hAB : ∀ op, A op → B op) :
    Only B m := by
  induction m with
  | ret a => trivial
  | raise e => trivial
  | call op k ih => exact ⟨hAB op h.1, fun ans => ih ans (h.2 ans)⟩

theorem Only.attempt {m : Prog I ε α} (h : Only A m) : Only A m.attempt := by
  induction m with
  | ret a => trivial
  | raise e => trivial
  | call op k ih => exact ⟨h.1, fun ans => ih ans (h.2 ans)⟩

/-- **A property that operations of a kind keep** is kept by a procedure of them. -/
theorem Only.always {m : Prog I ε α} (h : Only A m)
    (hP : ∀ s op, A op → P s → P (perform s op).2) (hs : P s) :
    Always perform P m (fun _ => P) s := by
  induction m generalizing s with
  | ret a => exact ⟨hs, hs⟩
  | raise e => exact ⟨hs, hs⟩
  | call op k ih => exact ⟨hs, ih _ (h.2 _) (hP s op h.1 hs)⟩

end Only

/-! ### Concurrent sessions -/

section Sessions

variable {π ι ξ κ : Type} {A : π → I.Op → Prop} {M : Machine I σ π ι ξ}
  {program : Nat → π → κ → Prog I ε Unit} {st st' : State I σ π ε}

/-- What the running sessions have left to do is of their owner's kind. -/
def Sessions (A : π → I.Op → Prop) (st : State I σ π ε) : Prop :=
  ∀ s p m, st.sessions s = some (p, m) → Only (A p) m

theorem Sessions.init (sh : σ) : Sessions A (State.init sh : State I σ π ε) :=
  fun _ _ _ h => by cases h

/-- A session that is replaced. -/
theorem Sessions.update (h : Sessions A st) {s : Nat} {x : Option (π × Prog I ε Unit)} {sh : σ}
    {n : Nat} (hx : ∀ p m, x = some (p, m) → Only (A p) m) :
    Sessions A ⟨sh, Function.update st.sessions s x, n⟩ := by
  intro t p m hm
  dsimp only at hm
  by_cases hts : t = s
  · subst hts
    rw [Function.update_self] at hm
    exact hx p m hm
  · rw [Function.update_of_ne hts] at hm
    exact h t p m hm

/-- **One step** of sessions whose procedures are of their owner's kind. -/
theorem Sessions.step {l : Session.Label π κ ι ξ} (h : Sessions A st)
    (hstart : ∀ p call, l = .start p call → Only (A p) (program st.started p call))
    (hstep : Session.step M program st l = some st') : Sessions A st' := by
  have hend : ∀ s, Sessions A (st.finish M s) := fun s => h.update fun _ _ hx => by cases hx
  cases l with
  | start p call =>
      simp only [Session.step] at hstep
      split at hstep
      · obtain rfl := Option.some.inj hstep
        refine h.update fun q m hx => ?_
        obtain ⟨rfl, rfl⟩ := Prod.mk.inj (Option.some.inj hx)
        exact hstart p call rfl
      · cases hstep
  | exec s input =>
      simp only [Session.step] at hstep
      split at hstep
      · rename_i p op k hm
        obtain ⟨r, -, rfl⟩ := Option.map_eq_some_iff.mp hstep
        refine h.update fun q m hx => ?_
        obtain ⟨rfl, rfl⟩ := Prod.mk.inj (Option.some.inj hx)
        exact (h s p _ hm).2 r.1
      · obtain rfl := Option.some.inj hstep
        exact hend s
      · obtain rfl := Option.some.inj hstep
        exact hend s
      · cases hstep
  | abort s =>
      simp only [Session.step] at hstep
      split at hstep
      · obtain rfl := Option.some.inj hstep
        exact hend s
      · cases hstep
  | external x =>
      simp only [Session.step, Option.map_eq_some_iff] at hstep
      obtain ⟨sh, -, rfl⟩ := hstep
      intro s p m hm
      dsimp only at hm
      split at hm
      · cases hm
      · exact h s p m hm

end Sessions

end Restart

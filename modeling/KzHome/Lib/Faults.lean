import KzHome.Lib.Session

/-!
# KzHome.Lib.Faults

Procedures whose operations can fail.

What an operation answers depends on a draw from outside, and an operation that fails stops
the procedure where it is. `run` takes the draws from a list. `Ends` says that something is
true at the end of a procedure, however it ends and whatever is drawn; it is computed along
the program, so that a procedure is gone through operation by operation. `Within` is the
special case of a preorder that every operation moves along.

A `course` is a run with everything that is left of it: the operations that it performed, each
with the world it was performed in, and the draws that were not used.
-/

namespace Faults

open Session

/-- How a world performs an operation on a draw: the answer, unless the operation failed. -/
abbrev Performer (I : Interface) (σ δ : Type) := σ → δ → (op : I.Op) → Option (I.Ans op) × σ

/-- How a procedure ended: with a value, with an error, or at an operation that failed. -/
abbrev Ending (ε α : Type) := Option (Except ε α)

variable {I : Interface} {σ δ ε α β : Type} (perform : Performer I σ δ)

/-- The ending of a procedure, and the world after it. When the list of draws is used up,
every operation gets `last`. -/
def run (last : δ) : Prog I ε α → List δ → σ → Ending ε α × σ
  | .ret a, _, s => (some (.ok a), s)
  | .raise e, _, s => (some (.error e), s)
  | .call op k, ds, s =>
    match perform s (ds.headD last) op with
    | (none, s') => (none, s')
    | (some ans, s') => run last (k ans) ds.tail s'

/-- `Q` at the end, whatever is drawn. -/
def Ends : Prog I ε α → (Ending ε α → σ → Prop) → σ → Prop
  | .ret a, Q, s => Q (some (.ok a)) s
  | .raise e, Q, s => Q (some (.error e)) s
  | .call op k, Q, s => ∀ d,
    match perform s d op with
    | (none, s') => Q none s'
    | (some ans, s') => Ends (k ans) Q s'

variable {perform} {Q R : Ending ε α → σ → Prop} {s : σ}

/-- **What is true at every end** is true at the end of every run. -/
theorem Ends.run {m : Prog I ε α} (h : Ends perform m Q s) (last : δ) (ds : List δ) :
    Q (Faults.run perform last m ds s).1 (Faults.run perform last m ds s).2 := by
  induction m generalizing s ds with
  | ret a => exact h
  | raise e => exact h
  | call op k ih =>
      have hd := h (ds.headD last)
      rw [Faults.run]
      cases hp : perform s (ds.headD last) op with
      | mk answer s' =>
          rw [hp] at hd
          cases answer with
          | none => exact hd
          | some ans => exact ih ans hd ds.tail

theorem Ends.mono {m : Prog I ε α} (h : Ends perform m Q s) (hQ : ∀ r s, Q r s → R r s) :
    Ends perform m R s := by
  induction m generalizing s with
  | ret a => exact hQ _ _ h
  | raise e => exact hQ _ _ h
  | call op k ih =>
      intro d
      have hd := h d
      cases hp : perform s d op with
      | mk answer s' =>
          rw [hp] at hd
          cases answer with
          | none => exact hQ _ _ hd
          | some ans => exact ih ans hd

variable (perform) in
/-- What is left to show after a part of a procedure has ended. -/
def after (f : α → Prog I ε β) (Q : Ending ε β → σ → Prop) : Ending ε α → σ → Prop
  | some (.ok a), s => Ends perform (f a) Q s
  | some (.error e), s => Q (some (.error e)) s
  | none, s => Q none s

/-- One procedure after another. -/
theorem Ends.bind {m : Prog I ε α} {f : α → Prog I ε β} {Q : Ending ε β → σ → Prop}
    (h : Ends perform m (after perform f Q) s) : Ends perform (m >>= f) Q s := by
  induction m generalizing s with
  | ret a => exact h
  | raise e => exact h
  | call op k ih =>
      intro d
      have hd := h d
      cases hp : perform s d op with
      | mk answer s' =>
          rw [hp] at hd
          dsimp only at hd ⊢
          cases answer with
          | none => exact hd
          | some ans => exact ih ans hd

/-- A check between two operations. -/
theorem ends_lift {x : Except ε α} {f : α → Prog I ε β} {Q : Ending ε β → σ → Prop}
    (herror : ∀ e, x = .error e → Q (some (.error e)) s)
    (hok : ∀ a, x = .ok a → Ends perform (f a) Q s) :
    Ends perform (Prog.lift x >>= f) Q s := by
  cases x with
  | error e => exact herror e rfl
  | ok a => exact hok a rfl

/-- A procedure whose errors are caught. -/
theorem Ends.attempt {m : Prog I ε α} {Q : Ending ε (Except ε α) → σ → Prop}
    (h : Ends perform m (fun r => Q (r.map .ok)) s) : Ends perform m.attempt Q s := by
  induction m generalizing s with
  | ret a => exact h
  | raise e => exact h
  | call op k ih =>
      intro d
      have hd := h d
      cases hp : perform s d op with
      | mk answer s' =>
          rw [hp] at hd
          cases answer with
          | none => exact hd
          | some ans => exact ih ans hd

/-! ### Moving along a preorder -/

variable (perform) in
/-- The procedure moves along `M`, wherever it starts and however it ends. -/
def Within (M : σ → σ → Prop) (m : Prog I ε α) : Prop :=
  ∀ s, Ends perform m (fun _ s' => M s s') s

section Within

variable {M : σ → σ → Prop} (hrefl : ∀ s, M s s) (htrans : ∀ a b c, M a b → M b c → M a c)

include hrefl

theorem Within.ret (a : α) : Within perform M (.ret a : Prog I ε α) := hrefl

theorem Within.raise (e : ε) : Within perform M (.raise e : Prog I ε α) := hrefl

theorem Within.lift (x : Except ε α) : Within perform M (Prog.lift x : Prog I ε α) := by
  intro s
  cases x with
  | error e => exact hrefl s
  | ok a => exact hrefl s

omit hrefl
include htrans

/-- What moves along `M` after a move along `M`. -/
theorem Ends.along {m : Prog I ε α} {s₀ : σ} (h₀ : M s₀ s)
    (h : Ends perform m (fun _ s' => M s s') s) : Ends perform m (fun _ s' => M s₀ s') s :=
  h.mono fun _ _ hm => htrans _ _ _ h₀ hm

theorem Within.bind {m : Prog I ε α} {f : α → Prog I ε β} (h : Within perform M m)
    (hf : ∀ a, Within perform M (f a)) : Within perform M (m >>= f) := by
  intro s
  refine Ends.bind ((h s).mono fun r s' hm => ?_)
  match r with
  | some (.ok a) => exact Ends.along htrans hm (hf a s')
  | some (.error e) => exact hm
  | none => exact hm

omit htrans

theorem Within.attempt {m : Prog I ε α} (h : Within perform M m) : Within perform M m.attempt :=
  fun s => Ends.attempt (h s)

/-- A procedure that moves along `M`, and what follows it. -/
theorem Within.then {m : Prog I ε α} {f : α → Prog I ε β} {Q : Ending ε β → σ → Prop}
    (h : Within perform M m) (hok : ∀ a s', M s s' → Ends perform (f a) Q s')
    (hstop : ∀ s', M s s' → Q none s' ∧ ∀ e, Q (some (.error e)) s') :
    Ends perform (m >>= f) Q s := by
  refine Ends.bind ((h s).mono fun r s' hm => ?_)
  match r with
  | some (.ok a) => exact hok a s' hm
  | some (.error e) => exact (hstop s' hm).2 e
  | none => exact (hstop s' hm).1

end Within

/-! ### What a run performs -/

/-- A run that is over. -/
structure Course (I : Interface) (σ δ ε α : Type) where
  ending : Ending ε α
  /-- The draws that are left. -/
  draws : List δ
  world : σ
  /-- The operations, each with the world before it. -/
  performed : List (σ × I.Op)

/-- Put operations before those of a course. -/
def Course.after (c : Course I σ δ ε α) (performed : List (σ × I.Op)) : Course I σ δ ε α :=
  { c with performed := performed ++ c.performed }

variable (perform) in
/-- The course of a procedure. -/
def course (last : δ) : Prog I ε α → List δ → σ → Course I σ δ ε α
  | .ret a, ds, s => ⟨some (.ok a), ds, s, []⟩
  | .raise e, ds, s => ⟨some (.error e), ds, s, []⟩
  | .call op k, ds, s =>
    match perform s (ds.headD last) op with
    | (none, s') => ⟨none, ds.tail, s', [(s, op)]⟩
    | (some ans, s') => (course last (k ans) ds.tail s').after [(s, op)]

section Course

variable {last : δ} {ds : List δ}

/-- The course of an operation. -/
theorem course_call {op : I.Op} {k : I.Ans op → Prog I ε α} {ans : I.Ans op} {s' : σ}
    (h : perform s (ds.headD last) op = (some ans, s')) :
    course perform last (.call op k) ds s =
      (course perform last (k ans) ds.tail s').after [(s, op)] := by
  rw [course, h]

/-- A course is a run. -/
theorem run_course (m : Prog I ε α) :
    Faults.run perform last m ds s =
      ((course perform last m ds s).ending, (course perform last m ds s).world) := by
  induction m generalizing ds s with
  | ret a => rfl
  | raise e => rfl
  | call op k ih =>
      rw [Faults.run, course]
      cases perform s (ds.headD last) op with
      | mk answer s' =>
          cases answer with
          | none => rfl
          | some ans => exact ih ans

/-- **What is true at every end** is true at the end of a course. -/
theorem Ends.course {m : Prog I ε α} (h : Ends perform m Q s) (last : δ) (ds : List δ) :
    Q (Faults.course perform last m ds s).ending (Faults.course perform last m ds s).world := by
  have hrun := h.run last ds
  rwa [run_course] at hrun

/-- **One procedure after another.** -/
theorem course_bind (m : Prog I ε α) (f : α → Prog I ε β) :
    course perform last (m >>= f) ds s =
      let c := course perform last m ds s
      match c.ending with
      | some (.ok a) => (course perform last (f a) c.draws c.world).after c.performed
      | some (.error e) => ⟨some (.error e), c.draws, c.world, c.performed⟩
      | none => ⟨none, c.draws, c.world, c.performed⟩ := by
  induction m generalizing ds s with
  | ret a => rfl
  | raise e => rfl
  | call op k ih =>
      rw [Prog.bind_call, course, course]
      cases perform s (ds.headD last) op with
      | mk answer s' =>
          cases answer with
          | none => rfl
          | some ans =>
              dsimp only
              rw [ih ans]
              cases hc : (course perform last (k ans) ds.tail s').ending with
              | none => simp only [Course.after, hc]
              | some r =>
                  cases r with
                  | error e => simp only [Course.after, hc]
                  | ok a => simp only [Course.after, hc, List.append_assoc]

/-- A sequence that returned: both parts did, and it ended where the second did. -/
theorem course_bind_ok {m : Prog I ε α} {f : α → Prog I ε β} {b : β}
    (h : (course perform last (m >>= f) ds s).ending = some (.ok b)) :
    ∃ a, (course perform last m ds s).ending = some (.ok a) ∧
      let c := course perform last (f a) (course perform last m ds s).draws
        (course perform last m ds s).world
      c.ending = some (.ok b) ∧ (course perform last (m >>= f) ds s).draws = c.draws ∧
        (course perform last (m >>= f) ds s).world = c.world := by
  rw [course_bind] at h ⊢
  dsimp only at h ⊢
  cases hm : (course perform last m ds s).ending with
  | none =>
      rw [hm] at h
      cases h
  | some r =>
      rw [hm] at h
      cases r with
      | error e => cases h
      | ok a => exact ⟨a, rfl, h, rfl, rfl⟩

/-- A procedure whose errors are caught. -/
theorem course_attempt (m : Prog I ε α) :
    course perform last m.attempt ds s =
      let c := course perform last m ds s
      ⟨c.ending.map .ok, c.draws, c.world, c.performed⟩ := by
  induction m generalizing ds s with
  | ret a => rfl
  | raise e => rfl
  | call op k ih =>
      rw [Prog.attempt, course, course]
      cases perform s (ds.headD last) op with
      | mk answer s' =>
          cases answer with
          | none => rfl
          | some ans =>
              dsimp only
              rw [ih ans]
              rfl

end Course

/-! ### Procedures that come to their end -/

variable (perform) in
/-- On good draws, and from a world of the invariant, no operation of the procedure fails: it
ends in a world of the invariant, with a value of `P` or an error of `E`. -/
def Serves (good : δ → Prop) (inv : σ → Prop) (m : Prog I ε α) (P : α → Prop) (E : ε → Prop) :
    Prop :=
  ∀ last ds s, good last → (∀ d ∈ ds, good d) → inv s →
    let c := course perform last m ds s
    inv c.world ∧ (∀ d ∈ c.draws, good d) ∧
      ((∃ a, c.ending = some (.ok a) ∧ P a) ∨ ∃ e, c.ending = some (.error e) ∧ E e)

section Serves

variable {good : δ → Prop} {inv : σ → Prop} {P : α → Prop} {P' : β → Prop} {E E' : ε → Prop}

theorem serves_ret {a : α} (h : P a) : Serves perform good inv (.ret a : Prog I ε α) P E := by
  intro last ds s _ hds hs
  exact ⟨hs, hds, Or.inl ⟨a, rfl, h⟩⟩

theorem serves_raise {e : ε} (h : E e) : Serves perform good inv (.raise e : Prog I ε α) P E := by
  intro last ds s _ hds hs
  exact ⟨hs, hds, Or.inr ⟨e, rfl, h⟩⟩

/-- One operation that is answered. -/
theorem serves_ask {op : I.Op} {P : I.Ans op → Prop}
    (h : ∀ d s, good d → inv s → ∃ ans s', perform s d op = (some ans, s') ∧ inv s' ∧ P ans) :
    Serves perform good inv (.call op .ret : Prog I ε (I.Ans op)) P E := by
  intro last ds s hlast hds hs
  have hhead : good (ds.headD last) := by
    cases ds with
    | nil => exact hlast
    | cons d ds => exact hds d List.mem_cons_self
  obtain ⟨ans, s', hp, hs', hans⟩ := h _ s hhead hs
  rw [course_call hp]
  exact ⟨hs', fun d hd => hds d (List.mem_of_mem_tail hd), Or.inl ⟨ans, rfl, hans⟩⟩

/-- One procedure after another. -/
theorem Serves.bind {m : Prog I ε α} {f : α → Prog I ε β} (h : Serves perform good inv m P E)
    (hf : ∀ a, P a → Serves perform good inv (f a) P' E) :
    Serves perform good inv (m >>= f) P' E := by
  intro last ds s hlast hds hs
  obtain ⟨hworld, hdraws, hend⟩ := h last ds s hlast hds hs
  rw [course_bind]
  dsimp only
  rcases hend with ⟨a, ha, hpost⟩ | ⟨e, he, hpost⟩
  · rw [ha]
    exact hf a hpost last _ _ hlast hdraws hworld
  · rw [he]
    exact ⟨hworld, hdraws, Or.inr ⟨e, rfl, hpost⟩⟩

theorem serves_lift {x : Except ε α} (hok : ∀ a, x = .ok a → P a)
    (herror : ∀ e, x = .error e → E e) : Serves perform good inv (Prog.lift x : Prog I ε α) P E := by
  cases x with
  | error e => exact serves_raise (herror e rfl)
  | ok a => exact serves_ret (hok a rfl)

end Serves

/-- The procedure never asks for an operation of a kind. -/
def Never (bad : I.Op → Prop) : Prog I ε α → Prop
  | .ret _ => True
  | .raise _ => True
  | .call op k => ¬ bad op ∧ ∀ ans, Never bad (k ans)

section Never

variable {bad : I.Op → Prop}

theorem Never.bind {m : Prog I ε α} {f : α → Prog I ε β} (h : Never bad m)
    (hf : ∀ a, Never bad (f a)) : Never bad (m >>= f) := by
  induction m with
  | ret a => exact hf a
  | raise e => trivial
  | call op k ih => exact ⟨h.1, fun ans => ih ans (h.2 ans)⟩

theorem Never.lift (x : Except ε α) : Never bad (Prog.lift x : Prog I ε α) := by
  cases x with
  | error e => trivial
  | ok a => trivial

theorem Never.attempt {m : Prog I ε α} (h : Never bad m) : Never bad m.attempt := by
  induction m with
  | ret a => trivial
  | raise e => trivial
  | call op k ih => exact ⟨h.1, fun ans => ih ans (h.2 ans)⟩

/-- Then it performs none. -/
theorem Never.course {m : Prog I ε α} (h : Never bad m) (last : δ) (ds : List δ) :
    ∀ x ∈ (Faults.course perform last m ds s).performed, ¬ bad x.2 := by
  induction m generalizing ds s with
  | ret a => simp [Faults.course]
  | raise e => simp [Faults.course]
  | call op k ih =>
      rw [Faults.course]
      cases perform s (ds.headD last) op with
      | mk answer s' =>
          cases answer with
          | none => exact List.forall_mem_singleton.mpr h.1
          | some ans => exact List.forall_mem_cons.mpr ⟨h.1, ih ans (h.2 ans) ds.tail⟩

end Never

end Faults

import KzHome.Lib.Transition
import Mathlib.Logic.Function.Basic

/-!
# KzHome.Lib.Session

Programs that run in concurrent sessions over a shared state.

A `Prog` is a program cut at the operations it asks its surroundings for: it has
returned, it has raised, or it waits for the answer to one operation. `system`
runs any number of sessions, one operation at a time and in any order; a session
can be dropped at every operation, and external actions can happen between any
two. What an operation does to the shared state is the `Machine`'s business.
-/

namespace Session

/-- The operations a program can ask for, and what each is answered with. -/
structure Interface where
  Op : Type
  Ans : Op → Type

/-- A program: it has returned a value, raised an error, or waits for the answer
to an operation. -/
inductive Prog (I : Interface) (ε α : Type)
  | ret (a : α)
  | raise (e : ε)
  | call (op : I.Op) (k : I.Ans op → Prog I ε α)

namespace Prog

variable {I : Interface} {ε α β : Type}

protected def bind : Prog I ε α → (α → Prog I ε β) → Prog I ε β
  | .ret a, f => f a
  | .raise e, _ => .raise e
  | .call op k, f => .call op fun ans => (k ans).bind f

instance : Monad (Prog I ε) where
  pure := .ret
  bind := Prog.bind

/-- `try: … except`: the outcome of a program, as a value. -/
def attempt : Prog I ε α → Prog I ε (Except ε α)
  | .ret a => .ret (.ok a)
  | .raise e => .ret (.error e)
  | .call op k => .call op fun ans => (k ans).attempt

/-- Continue with the value of a pure check, or raise its error. -/
def lift : Except ε α → Prog I ε α
  | .ok a => .ret a
  | .error e => .raise e

@[simp] theorem pure_eq (a : α) : (pure a : Prog I ε α) = .ret a := rfl
@[simp] theorem bind_ret (a : α) (f : α → Prog I ε β) : (Prog.ret a >>= f) = f a := rfl
@[simp] theorem bind_raise (e : ε) (f : α → Prog I ε β) :
    ((.raise e : Prog I ε α) >>= f) = .raise e := rfl
@[simp] theorem bind_call (op : I.Op) (k : I.Ans op → Prog I ε α) (f : α → Prog I ε β) :
    (Prog.call op k >>= f) = .call op fun ans => k ans >>= f := rfl
@[simp] theorem lift_ok (a : α) : (lift (.ok a) : Prog I ε α) = .ret a := rfl
@[simp] theorem lift_error (e : ε) : (lift (.error e) : Prog I ε α) = .raise e := rfl

end Prog

/-- What the operations, the end of sessions and external actions do to the shared
state `σ`. Sessions are numbered; each belongs to an owner in `π`. -/
structure Machine (I : Interface) (σ π ι ξ : Type) where
  /-- The answer to an operation of a session, and the state after it; `none`
  while the session has to wait. -/
  handle : σ → Nat → π → ι → (op : I.Op) → Option (I.Ans op × σ)
  /-- The end of the given sessions. -/
  close : σ → (Nat → Bool) → σ
  /-- An owner may start sessions. -/
  admits : σ → π → Bool
  /-- An external action. -/
  act : σ → ξ → Option σ
  /-- An external action that takes the sessions of an owner with it. -/
  kills : ξ → π → Bool

/-- The shared state, the sessions that are running, and how many were started. -/
structure State (I : Interface) (σ π ε : Type) where
  shared : σ
  sessions : Nat → Option (π × Prog I ε Unit)
  started : Nat

/-- What can happen next. -/
inductive Label (π κ ι ξ : Type)
  /-- An owner starts a session for a call. -/
  | start (p : π) (call : κ)
  /-- A session performs its next operation, or ends. -/
  | exec (s : Nat) (input : ι)
  /-- A session is dropped where it is. -/
  | abort (s : Nat)
  /-- Something outside the sessions happens. -/
  | external (x : ξ)

variable {I : Interface} {σ π ι ξ κ ε : Type}

namespace State

/-- The state before any session. -/
def init (sh : σ) : State I σ π ε := ⟨sh, fun _ => none, 0⟩

/-- End session `s`. -/
def finish (M : Machine I σ π ι ξ) (st : State I σ π ε) (s : Nat) : State I σ π ε :=
  { st with
    shared := M.close st.shared (fun t => t = s)
    sessions := Function.update st.sessions s none }

/-- Is session `s` running for an owner that `x` takes down? -/
def killed (M : Machine I σ π ι ξ) (st : State I σ π ε) (x : ξ) (s : Nat) : Bool :=
  match st.sessions s with
  | some (p, _) => M.kills x p
  | none => false

end State

/-- One step of the sessions. -/
def step (M : Machine I σ π ι ξ) (program : Nat → π → κ → Prog I ε Unit)
    (st : State I σ π ε) : Label π κ ι ξ → Option (State I σ π ε)
  | .start p call =>
    if M.admits st.shared p then
      some { st with
        sessions := Function.update st.sessions st.started
          (some (p, program st.started p call))
        started := st.started + 1 }
    else none
  | .exec s input =>
    match st.sessions s with
    | some (p, .call op k) =>
      (M.handle st.shared s p input op).map fun r =>
        { st with
          shared := r.2
          sessions := Function.update st.sessions s (some (p, k r.1)) }
    | some (_, .ret _) => some (st.finish M s)
    | some (_, .raise _) => some (st.finish M s)
    | none => none
  | .abort s =>
    match st.sessions s with
    | some _ => some (st.finish M s)
    | none => none
  | .external x =>
    (M.act st.shared x).map fun sh =>
      { st with
        shared := M.close sh (st.killed M x)
        sessions := fun s => if st.killed M x s then none else st.sessions s }

/-- The sessions as a transition system. -/
def system (M : Machine I σ π ι ξ) (program : Nat → π → κ → Prog I ε Unit) :
    Transition.System (State I σ π ε) (Label π κ ι ξ) := ⟨step M program⟩

/-- **A session that is over stays over**: session numbers are not used again. -/
theorem step_over {M : Machine I σ π ι ξ} {program : Nat → π → κ → Prog I ε Unit}
    {st st' : State I σ π ε} {l : Label π κ ι ξ} (h : step M program st l = some st') {s : Nat}
    (hs : s < st.started) (ho : st.sessions s = none) :
    s < st'.started ∧ st'.sessions s = none := by
  have hset : ∀ (t : Nat) (m : Option (π × Prog I ε Unit)), t ≠ s →
      Function.update st.sessions t m s = none := fun t m hne => by
    rw [Function.update_of_ne hne.symm]; exact ho
  cases l with
  | start p call =>
      simp only [step] at h
      split at h
      · obtain rfl := Option.some.inj h
        exact ⟨Nat.lt_succ_of_lt hs, hset _ _ (Nat.ne_of_gt hs)⟩
      · cases h
  | exec t input =>
      have hne : st.sessions t ≠ none → t ≠ s := fun ht heq => ht (heq ▸ ho)
      simp only [step] at h
      split at h
      · rename_i p op k hm
        obtain ⟨r, -, rfl⟩ := Option.map_eq_some_iff.mp h
        exact ⟨hs, hset _ _ (hne (by rw [hm]; simp))⟩
      · rename_i hm
        obtain rfl := Option.some.inj h
        exact ⟨hs, hset _ _ (hne (by rw [hm]; simp))⟩
      · rename_i hm
        obtain rfl := Option.some.inj h
        exact ⟨hs, hset _ _ (hne (by rw [hm]; simp))⟩
      · cases h
  | abort t =>
      simp only [step] at h
      split at h
      · rename_i hm
        obtain rfl := Option.some.inj h
        exact ⟨hs, hset _ _ fun heq => by rw [heq, ho] at hm; cases hm⟩
      · cases h
  | external x =>
      simp only [step, Option.map_eq_some_iff] at h
      obtain ⟨sh, -, rfl⟩ := h
      refine ⟨hs, ?_⟩
      dsimp only
      rw [ho, ite_self]

/-- Sessions are only ever added. -/
theorem started_le {M : Machine I σ π ι ξ} {program : Nat → π → κ → Prog I ε Unit}
    {st st' : State I σ π ε} {l : Label π κ ι ξ} (h : step M program st l = some st') :
    st.started ≤ st'.started := by
  cases l with
  | start p call =>
      simp only [step] at h
      split at h
      · obtain rfl := Option.some.inj h; exact Nat.le_succ _
      · cases h
  | exec t input =>
      simp only [step] at h
      split at h
      · obtain ⟨r, -, rfl⟩ := Option.map_eq_some_iff.mp h; exact Nat.le_refl _
      · obtain rfl := Option.some.inj h; exact Nat.le_refl _
      · obtain rfl := Option.some.inj h; exact Nat.le_refl _
      · cases h
  | abort t =>
      simp only [step] at h
      split at h
      · obtain rfl := Option.some.inj h; exact Nat.le_refl _
      · cases h
  | external x =>
      simp only [step, Option.map_eq_some_iff] at h
      obtain ⟨sh, -, rfl⟩ := h
      exact Nat.le_refl _

end Session

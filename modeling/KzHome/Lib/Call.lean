import Mathlib.Logic.Basic

/-!
# KzHome.Lib.Call

Calls of a stateful object that may raise.

`Call σ ε α` is a call that reads and changes the object's state `σ` and either
raises an `ε` or returns an `α`; unlike a state monad stacked *under* an
exception, what the call did to the object before raising stays done, which is
how an attribute assigned before a `raise` behaves.

Proofs never unfold `bind`: they peel a call that returned apart with
`run_bind_ok`, one statement at a time.
-/

/-- A call on an object with state `σ`: it may raise `ε`, and leaves the object
in a new state either way. -/
def Call (σ ε α : Type) : Type := σ → Except ε α × σ

namespace Call

variable {σ ε α β : Type}

/-- Run a call on an object. -/
def run (c : Call σ ε α) (s : σ) : Except ε α × σ := c s

protected def pure (a : α) : Call σ ε α := fun s => (.ok a, s)

protected def bind (c : Call σ ε α) (f : α → Call σ ε β) : Call σ ε β := fun s =>
  match c s with
  | (.ok a, s') => f a s'
  | (.error e, s') => (.error e, s')

instance : Monad (Call σ ε) where
  pure := Call.pure
  bind := Call.bind

/-- Raise `e`; nothing the call did so far is undone. -/
def raise (e : ε) : Call σ ε α := fun s => (.error e, s)

/-- Read the object. -/
def self : Call σ ε σ := fun s => (.ok s, s)

/-- Change the object. -/
def update (f : σ → σ) : Call σ ε Unit := fun s => (.ok (), f s)

/-- Return the value of a pure check, or raise its error. -/
def lift (r : Except ε α) : Call σ ε α := fun s => (r, s)

@[simp] theorem run_pure (a : α) (s : σ) : (pure a : Call σ ε α).run s = (.ok a, s) := rfl
@[simp] theorem run_raise (e : ε) (s : σ) : (raise e : Call σ ε α).run s = (.error e, s) := rfl
@[simp] theorem run_self (s : σ) : (self : Call σ ε σ).run s = (.ok s, s) := rfl
@[simp] theorem run_update (f : σ → σ) (s : σ) :
    (update f : Call σ ε Unit).run s = (.ok (), f s) := rfl
@[simp] theorem run_lift (r : Except ε α) (s : σ) : (lift r : Call σ ε α).run s = (r, s) := rfl

theorem run_bind (c : Call σ ε α) (f : α → Call σ ε β) (s : σ) :
    (c >>= f).run s =
      match c.run s with
      | (.ok a, s') => (f a).run s'
      | (.error e, s') => (.error e, s') := rfl

/-- A sequence of two calls returned exactly when both did. -/
theorem run_bind_ok {c : Call σ ε α} {f : α → Call σ ε β} {s s'' : σ} {b : β} :
    (c >>= f).run s = (.ok b, s'') ↔
      ∃ a s', c.run s = (.ok a, s') ∧ (f a).run s' = (.ok b, s'') := by
  rw [run_bind]
  rcases c.run s with ⟨e | a, s'⟩
  · simp
  · simp [and_assoc]

/-- Running a sequence whose first call is known to return. -/
theorem run_bind_of_ok {c : Call σ ε α} {f : α → Call σ ε β} {s s' : σ} {a : α}
    (h : c.run s = (.ok a, s')) : (c >>= f).run s = (f a).run s' := by
  rw [run_bind, h]

theorem run_bind_self (f : σ → Call σ ε β) (s : σ) :
    (self >>= f).run s = (f s).run s := rfl

theorem run_bind_update (g : σ → σ) (f : Unit → Call σ ε β) (s : σ) :
    (update g >>= f).run s = (f ()).run (g s) := rfl

/-- A lifted check returned exactly when it succeeded, without touching the
object. -/
theorem run_lift_ok {r : Except ε α} {s s' : σ} {a : α} :
    (lift r : Call σ ε α).run s = (.ok a, s') ↔ r = .ok a ∧ s' = s := by
  simp [eq_comm]

/-- Run a call, and handle the exception it raises; nothing it did so far is undone. -/
def rescue (c : Call σ ε α) (handler : ε → Call σ ε α) : Call σ ε α := fun s =>
  match c s with
  | (.ok a, s') => (.ok a, s')
  | (.error e, s') => handler e s'

theorem run_rescue (c : Call σ ε α) (handler : ε → Call σ ε α) (s : σ) :
    (rescue c handler).run s =
      match c.run s with
      | (.ok a, s') => (.ok a, s')
      | (.error e, s') => (handler e).run s' := rfl

/-- A loop over one item is its body. -/
theorem run_forM_one {ι : Type} (i : ι) (f : ι → Call σ ε PUnit) (s : σ) :
    (forM [i] f : Call σ ε PUnit).run s = (f i).run s := by
  rw [List.forM_cons, run_bind]
  rcases (f i).run s with ⟨e | u, s'⟩
  · rfl
  · rfl

/-! ### Where a call ends -/

/-- `P` of what the call returns and of the object then, or `E` of what it raises. -/
def Yields (c : Call σ ε α) (P : α → σ → Prop) (E : ε → Prop) (s : σ) : Prop :=
  match c.run s with
  | (.ok a, s') => P a s'
  | (.error e, _) => E e

namespace Yields

variable {P : α → σ → Prop} {Q : β → σ → Prop} {E : ε → Prop} {s : σ}

theorem bind {c : Call σ ε α} {f : α → Call σ ε β}
    (h : c.Yields (fun a s' => (f a).Yields Q E s') E s) : (c >>= f).Yields Q E s := by
  unfold Yields at h ⊢
  rw [run_bind]
  rcases hr : c.run s with ⟨e | a, s'⟩
  · rw [hr] at h
    exact h
  · rw [hr] at h
    exact h

theorem self {P : σ → σ → Prop} (h : P s s) : (Call.self : Call σ ε σ).Yields P E s := h

theorem update {P : Unit → σ → Prop} {f : σ → σ} (h : P () (f s)) :
    (Call.update f : Call σ ε Unit).Yields P E s := h

theorem mono {c : Call σ ε α} {P' : α → σ → Prop} (h : c.Yields P E s)
    (hP : ∀ a s', P a s' → P' a s') : c.Yields P' E s := by
  unfold Yields at h ⊢
  rcases hr : c.run s with ⟨e | a, s'⟩
  · rw [hr] at h
    exact h
  · rw [hr] at h
    exact hP a s' h

end Yields

/-! ### What every run of a call does to the object -/

/-- However it ends, the call moves the object along `R`. -/
def Moves (R : σ → σ → Prop) (c : Call σ ε α) : Prop := ∀ s, R s (c.run s).2

namespace Moves

variable {R : σ → σ → Prop}

theorem bind (htrans : ∀ a b c, R a b → R b c → R a c) {c : Call σ ε α} {f : α → Call σ ε β}
    (hc : Moves R c) (hf : ∀ a, Moves R (f a)) : Moves R (c >>= f) := by
  intro s
  rw [run_bind]
  have h := hc s
  rcases hr : c.run s with ⟨e | a, s'⟩
  · rw [hr] at h; exact h
  · rw [hr] at h; exact htrans _ _ _ h (hf a s')

theorem pure (hrefl : ∀ a, R a a) (a : α) : Moves R (Pure.pure a : Call σ ε α) := fun s => hrefl s

theorem raise (hrefl : ∀ a, R a a) (e : ε) : Moves R (Call.raise e : Call σ ε α) :=
  fun s => hrefl s

theorem self (hrefl : ∀ a, R a a) : Moves R (Call.self : Call σ ε σ) := fun s => hrefl s

theorem update {f : σ → σ} (h : ∀ s, R s (f s)) : Moves R (Call.update f : Call σ ε Unit) := h

/-- The object after a call that returned or raised. -/
theorem of_run {c : Call σ ε α} (h : Moves R c) {s s' : σ} {r : Except ε α}
    (hr : c.run s = (r, s')) : R s s' := by
  have := h s
  rwa [hr] at this

end Moves

/-! ### Calls on a part of an object -/

variable {τ : Type}

/-- A call on the part of an object that `get` reads and `put` writes back. -/
def zoom (get : σ → τ) (put : σ → τ → σ) (c : Call τ ε α) : Call σ ε α :=
  fun s => let r := c.run (get s); (r.1, put s r.2)

@[simp] theorem run_zoom (get : σ → τ) (put : σ → τ → σ) (c : Call τ ε α) (s : σ) :
    (zoom get put c).run s = ((c.run (get s)).1, put s (c.run (get s)).2) := rfl

/-- A call on a part returned exactly when it does on the part alone. -/
theorem run_zoom_ok {get : σ → τ} {put : σ → τ → σ} {c : Call τ ε α} {s s' : σ} {a : α} :
    (zoom get put c).run s = (.ok a, s') ↔
      ∃ t, c.run (get s) = (.ok a, t) ∧ s' = put s t := by
  rw [run_zoom]
  rcases c.run (get s) with ⟨r, t⟩
  simp only [Prod.mk.injEq]
  constructor
  · rintro ⟨hr, rfl⟩; exact ⟨t, ⟨hr, rfl⟩, rfl⟩
  · rintro ⟨_, ⟨hr, rfl⟩, rfl⟩; exact ⟨hr, rfl⟩

theorem Moves.zoom {R : σ → σ → Prop} {S : τ → τ → Prop} {get : σ → τ} {put : σ → τ → σ}
    {c : Call τ ε α} (hc : Moves S c) (h : ∀ s t, S (get s) t → R s (put s t)) :
    Moves R (Call.zoom get put c) := fun s => h s _ (hc (get s))

theorem Yields.zoom {P : α → σ → Prop} {E : ε → Prop} {get : σ → τ} {put : σ → τ → σ}
    {c : Call τ ε α} {s : σ} (h : c.Yields (fun a t => P a (put s t)) E (get s)) :
    (Call.zoom get put c).Yields P E s := by
  unfold Yields at h ⊢
  rw [run_zoom]
  rcases hr : c.run (get s) with ⟨e | a, t⟩
  · rw [hr] at h
    exact h
  · rw [hr] at h
    exact h

end Call

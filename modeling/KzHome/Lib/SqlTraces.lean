import KzHome.Lib.Sql
import KzHome.Lib.Traces

/-!
# KzHome.Lib.SqlTraces

What a session has noted.

A note says what a program did only if the program makes it. Here the program comes first: a
session that has got through a statement with a note (`Leads`) has left an entry (`call_noted`),
so what a call must note before it returns is in the trace of every run in which it has returned.
-/

namespace Sql

open Session Transition

variable {Db Row Write φ ν π ε κ : Type} [DecidableEq Row] {S : Schema Db Row Write φ}
  {allowed : Db → Db → Bool} {program : Nat → π → κ → Query Db Row Write φ ν ε Unit}

/-- What a statement with this answer has noted. -/
def Op.noted? : (op : Op Row Write ν) → (interface Db Row Write φ ν).Ans op → Option ν
  | .read note, _ => note
  | .commit _ note, (.ok () : Except φ Unit) => note
  | _, _ => none

/-- A statement puts its note in front of the trace. -/
theorem handle_noted {a b : Store Db Row ν π} {s : Nat} {p : π} {input : String}
    {op : Op Row Write ν} {ans : (interface Db Row Write φ ν).Ans op}
    (h : handle S a s p input op = some (ans, b)) :
    b.trace = ((op.noted? ans).map fun note => ⟨s, p, a.db, note⟩).toList ++ a.trace := by
  have hrecord : ∀ note : Option ν, (a.record s p note).trace =
      (note.map fun note => ⟨s, p, a.db, note⟩).toList ++ a.trace := by
    intro note
    cases note with
    | none => rfl
    | some n => rfl
  cases op with
  | read note =>
      obtain ⟨-, rfl⟩ := Prod.mk.inj (Option.some.inj h)
      exact hrecord note
  | lock row =>
      simp only [handle] at h
      split at h
      · obtain ⟨-, rfl⟩ := Prod.mk.inj (Option.some.inj h)
        unfold Store.take
        split <;> rfl
      · cases h
  | commit writes note =>
      simp only [handle] at h
      split at h
      · split at h
        · obtain ⟨rfl, rfl⟩ := Prod.mk.inj (Option.some.inj h)
          exact hrecord note
        · obtain ⟨rfl, rfl⟩ := Prod.mk.inj (Option.some.inj h)
          rfl
      · cases h
  | rollback =>
      obtain ⟨-, rfl⟩ := Prod.mk.inj (Option.some.inj h)
      rfl
  | now =>
      obtain ⟨-, rfl⟩ := Prod.mk.inj (Option.some.inj h)
      rfl
  | input =>
      obtain ⟨-, rfl⟩ := Prod.mk.inj (Option.some.inj h)
      rfl

/-- The statements of a session, each as the database performs it. -/
def Performs (S : Schema Db Row Write φ) (s : Nat) (p : π)
    (xs : List (Performed (interface Db Row Write φ ν) (Store Db Row ν π))) : Prop :=
  ∀ x ∈ xs, ∃ input, handle S x.before s p input x.op = some (x.ans, x.after)

/-! ### Statements of a program that is over -/

section

variable {α : Type} {s : Nat} {p : π} {note : Option ν} {row : Row} {r : Except ε α}
  {xs : List (Performed (interface Db Row Write φ ν) (Store Db Row ν π))}

theorem Performs.left {ys zs : List (Performed (interface Db Row Write φ ν) (Store Db Row ν π))}
    (h : Performs S s p (ys ++ zs)) : Performs S s p ys := fun x hx => h x (List.mem_append_left zs hx)

theorem Performs.right {ys zs : List (Performed (interface Db Row Write φ ν) (Store Db Row ν π))}
    (h : Performs S s p (ys ++ zs)) : Performs S s p zs := fun x hx => h x (List.mem_append_right ys hx)

end

/-! ### Traces -/

/-- No step takes an entry away. -/
theorem step_trace {st st' : State (interface Db Row Write φ ν) (Store Db Row ν π) π ε}
    {l : Label π κ String (Outside Db)}
    (h : Session.step (machine S allowed) program st l = some st') :
    st.shared.trace <:+ st'.shared.trace := by
  cases l with
  | start p call =>
      obtain rfl := Option.some.inj h
      exact List.suffix_refl _
  | exec s input =>
      simp only [Session.step] at h
      split at h
      · obtain ⟨⟨ans, sh⟩, hh, rfl⟩ := Option.map_eq_some_iff.mp h
        exact ⟨_, (handle_noted hh).symm⟩
      · obtain rfl := Option.some.inj h
        exact List.suffix_refl _
      · obtain rfl := Option.some.inj h
        exact List.suffix_refl _
      · cases h
  | abort s =>
      simp only [Session.step] at h
      split at h
      · obtain rfl := Option.some.inj h
        exact List.suffix_refl _
      · cases h
  | external x =>
      simp only [Session.step, Option.map_eq_some_iff] at h
      obtain ⟨sh, hact, rfl⟩ := h
      cases x with
      | clock u =>
          simp only [machine, act] at hact
          split at hact
          · obtain rfl := Option.some.inj hact
            exact List.suffix_refl _
          · cases hact
      | change db =>
          simp only [machine, act] at hact
          split at hact
          · obtain rfl := Option.some.inj hact
            exact List.suffix_refl _
          · cases hact

/-- The trace only grows. -/
theorem run_trace (st : State (interface Db Row Write φ ν) (Store Db Row ν π) π ε)
    (labels : List (Label π κ String (Outside Db))) :
    st.shared.trace <:+ ((system (machine S allowed) program).run st labels).shared.trace :=
  System.related (P := fun _ => True)
    (R := fun a b : State (interface Db Row Write φ ν) (Store Db Row ν π) π ε =>
      a.shared.trace <:+ b.shared.trace)
    (fun _ => List.suffix_refl _) (fun _ _ _ => List.IsSuffix.trans) (fun _ _ _ _ _ => trivial)
    (fun _ _ _ _ => step_trace) trivial labels

/-- **What a call has done and noted**: a session that was started for it is where the program of
the call is after its statements, each on the database of its moment, and their notes are in the
trace. -/
theorem call_noted {st : State (interface Db Row Write φ ν) (Store Db Row ν π) π ε} {p p' : π}
    {call : κ} {labels : List (Label π κ String (Outside Db))} {q : Query Db Row Write φ ν ε Unit}
    (h : ((system (machine S allowed) program).run st (.start p call :: labels)).sessions
      st.started = some (p', q)) :
    p' = p ∧ ∃ xs, Leads (program st.started p call) xs q ∧ Performs S st.started p xs ∧
      ∀ x ∈ xs,
        (∃ before after, labels = before ++ after ∧
          ((system (machine S allowed) program).run st (.start p call :: before)).shared =
            x.before) ∧
        ∀ note, Op.noted? x.op x.ans = some note → ⟨st.started, p, x.before.db, note⟩ ∈
          ((system (machine S allowed) program).run st (.start p call :: labels)).shared.trace := by
  obtain ⟨hp, xs, hleads, hplayed⟩ := performed_call (M := machine S allowed) rfl h
  refine ⟨hp, xs, hleads, fun x hx => ?_, fun x hx => ?_⟩
  · obtain ⟨_, input, _, -, -, hh, -⟩ := hplayed.mem hx
    exact ⟨input, hh⟩
  obtain ⟨before, input, after, rfl, hbefore, hh, hafter⟩ := hplayed.mem hx
  refine ⟨⟨before, .exec st.started input :: after, rfl, hbefore⟩, fun note hnote => ?_⟩
  have hmem : (⟨st.started, p, x.before.db, note⟩ : Entry Db ν π) ∈ x.after.trace := by
    rw [handle_noted hh, hnote]
    exact List.mem_cons_self
  rw [System.run_cons, List.append_cons, System.run_append]
  rw [← hafter] at hmem
  exact (run_trace _ after).subset hmem

end Sql

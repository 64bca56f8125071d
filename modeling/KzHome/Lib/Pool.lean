import KzHome.Lib.Transition
import Mathlib.Algebra.BigOperators.Group.List.Basic
import Mathlib.Algebra.GroupWithZero.Nat

/-!
# KzHome.Lib.Pool

A pool of tasks that spawn tasks.

Any task of the pool can take the next turn. A turn changes the shared state,
leaves the task somewhere else, may spawn further tasks and may emit outputs; the
surroundings can change the shared state between any two turns. Two rules carry
proofs about every schedule: `outputs` for what is true of all tasks and outputs,
and `bounded` for termination: if every turn is paid for, together with what it
spawns and emits, out of the cost of the task that takes it, then the cost of the
first tasks bounds the number of turns and outputs of every schedule.
-/

namespace Pool

variable {σ τ ε ι : Type*}

/-- What a turn leaves behind besides the shared state. -/
structure Turn (τ ε : Type*) where
  next : τ
  spawned : List τ
  emitted : List ε

/-- The shared state, the tasks, everything emitted so far and the number of turns. -/
structure State (σ τ ε : Type*) where
  shared : σ
  tasks : List τ
  emitted : List ε
  turns : Nat

/-- The next thing that happens. -/
inductive Label (σ ι : Type*)
  /-- A task takes its turn. -/
  | turn (task : Nat) (input : ι)
  /-- The surroundings change the shared state. -/
  | outside (shared : σ)

/-- The state before any turn. -/
def State.init (shared : σ) (tasks : List τ) (emitted : List ε) : State σ τ ε :=
  ⟨shared, tasks, emitted, 0⟩

/-- What a turn of a task makes of the pool. -/
def State.after (st : State σ τ ε) (task : Nat) (shared : σ) (r : Turn τ ε) : State σ τ ε where
  shared
  tasks := st.tasks.set task r.next ++ r.spawned
  emitted := st.emitted ++ r.emitted
  turns := st.turns + 1

/-- One step; a task whose `turn` is `none` is over. -/
def step (turn : σ → τ → ι → Option (σ × Turn τ ε)) (st : State σ τ ε) :
    Label σ ι → Option (State σ τ ε)
  | .turn task input =>
    (st.tasks[task]?).bind fun t =>
      (turn st.shared t input).map fun r => st.after task r.1 r.2
  | .outside shared => some { st with shared }

/-- The pool as a transition system. -/
def system (turn : σ → τ → ι → Option (σ × Turn τ ε)) :
    Transition.System (State σ τ ε) (Label σ ι) := ⟨step turn⟩

section

variable {turn : σ → τ → ι → Option (σ × Turn τ ε)} {st st' : State σ τ ε}

/-- A step is a turn of one of the tasks, or changes the shared state only. -/
theorem step_cases {l : Label σ ι} (h : step turn st l = some st') :
    (∃ task t input shared r, st.tasks[task]? = some t ∧
      turn st.shared t input = some (shared, r) ∧ st' = st.after task shared r) ∨
    ∃ shared, st' = { st with shared } := by
  cases l with
  | outside shared => exact Or.inr ⟨shared, (Option.some.inj h).symm⟩
  | turn task input =>
      obtain ⟨t, ht, h⟩ := Option.bind_eq_some_iff.mp h
      obtain ⟨⟨shared, r⟩, hr, rfl⟩ := Option.map_eq_some_iff.mp h
      exact Or.inl ⟨task, t, input, shared, r, ht, hr, rfl⟩

variable (turn) in
/-- **Tasks and outputs.** What every turn hands on from a task to the task it becomes, the
tasks it spawns and the outputs it emits is true of all tasks and outputs of a run. -/
theorem outputs {P : τ → Prop} {Q : ε → Prop}
    (hturn : ∀ s t i s' r, P t → turn s t i = some (s', r) →
      P r.next ∧ (∀ t' ∈ r.spawned, P t') ∧ ∀ e ∈ r.emitted, Q e)
    (ht : ∀ t ∈ st.tasks, P t) (he : ∀ e ∈ st.emitted, Q e) (labels : List (Label σ ι)) :
    (∀ t ∈ ((system turn).run st labels).tasks, P t) ∧
      ∀ e ∈ ((system turn).run st labels).emitted, Q e := by
  refine (system turn).invariant
    (P := fun a => (∀ t ∈ a.tasks, P t) ∧ ∀ e ∈ a.emitted, Q e) ?_ ⟨ht, he⟩ labels
  intro a l b ⟨hta, hea⟩ hstep
  rcases step_cases hstep with ⟨task, t, input, shared, r, hget, hr, rfl⟩ | ⟨shared, rfl⟩
  · obtain ⟨hnext, hspawn, hemit⟩ := hturn _ _ _ _ _ (hta t (List.mem_of_getElem? hget)) hr
    refine ⟨fun t' hmem => ?_, fun e hmem => ?_⟩
    · rcases List.mem_append.mp hmem with hmem | hmem
      · rcases List.mem_or_eq_of_mem_set hmem with hmem | rfl
        · exact hta t' hmem
        · exact hnext
      · exact hspawn t' hmem
    · rcases List.mem_append.mp hmem with hmem | hmem
      · exact hea e hmem
      · exact hemit e hmem
  · exact ⟨hta, hea⟩

/-- Replacing one summand. -/
theorem sum_set (cost : τ → Nat) {tasks : List τ} {i : Nat} {t : τ} (h : tasks[i]? = some t)
    (t' : τ) :
    ((tasks.set i t').map cost).sum + cost t = (tasks.map cost).sum + cost t' := by
  induction tasks generalizing i with
  | nil => cases h
  | cons x tasks ih =>
      cases i with
      | zero =>
          obtain rfl : x = t := Option.some.inj h
          simp only [List.set_cons_zero, List.map_cons, List.sum_cons]
          omega
      | succ i =>
          have := ih (i := i) h
          simp only [List.set_cons_succ, List.map_cons, List.sum_cons]
          omega

variable (turn st) in
/-- **Termination.** When the cost of a task pays for each of its turns, for what it emits
and for the tasks it spawns, the cost of the first tasks bounds every schedule. -/
theorem bounded (cost : τ → Nat)
    (hcost : ∀ s t i s' r, turn s t i = some (s', r) →
      1 + cost r.next + (r.spawned.map cost).sum + r.emitted.length ≤ cost t)
    (labels : List (Label σ ι)) :
    ((system turn).run st labels).turns + ((system turn).run st labels).emitted.length ≤
      st.turns + st.emitted.length + (st.tasks.map cost).sum := by
  have h := (system turn).related (P := fun _ => True)
    (R := fun a b => b.turns + b.emitted.length + (b.tasks.map cost).sum ≤
      a.turns + a.emitted.length + (a.tasks.map cost).sum)
    (fun _ => Nat.le_refl _) (fun _ _ _ hab hbc => Nat.le_trans hbc hab) (fun _ _ _ _ _ => trivial)
    (fun a l b _ hstep => ?_) (s := st) trivial labels
  · omega
  · rcases step_cases hstep with ⟨task, t, input, shared, r, hget, hr, rfl⟩ | ⟨shared, rfl⟩
    · have hpaid := hcost _ _ _ _ _ hr
      have hsum := sum_set cost hget r.next
      simp only [State.after, List.map_append, List.sum_append, List.length_append]
      omega
    · exact Nat.le_refl _

end

end Pool

import KzHome.Lib.Session

/-!
# KzHome.Lib.Outline

Proof outlines for programs in concurrent sessions: rely and guarantee.

A `Contract` fixes an invariant of the shared state, what every operation of a
session does (`does`), and what a session may rely on while it waits (`relies`).
`Outline` is an annotated proof of one program against a contract: before each
operation stands an assertion that survives whatever the contract lets the
others do. If every program has an outline, then in every run the invariant
holds, and each step is one of the things the contract says (`shared_cases`), so
that results about runs are proved from the contract without looking at the
programs again.
-/

namespace Session

variable {I : Interface} {σ π ι ξ κ ε α β : Type}

/-- An invariant, what the operations of session `s` of owner `p` do, and what
that session relies on between them. -/
structure Contract (σ π : Type) where
  inv : σ → Prop
  does : Nat → π → σ → σ → Prop
  relies : Nat → π → σ → σ → Prop

namespace Contract

variable (C : Contract σ π) (M : Machine I σ π ι ξ) (s : Nat) (p : π)

/-- An assertion that session `s` can keep while it waits. -/
def Stable (P : σ → Prop) : Prop := ∀ a b, C.inv a → C.inv b → P a → C.relies s p a b → P b

/-- An assertion that neither the session nor the others ever falsify. -/
structure Persistent (P : σ → Prop) : Prop where
  stable : C.Stable s p P
  own : ∀ a b, C.inv a → P a → C.does s p a b → P b

variable {C s p}

theorem Stable.and {P Q : σ → Prop} (hP : C.Stable s p P) (hQ : C.Stable s p Q) :
    C.Stable s p (fun st => P st ∧ Q st) :=
  fun a b ha hb h hr => ⟨hP a b ha hb h.1 hr, hQ a b ha hb h.2 hr⟩

/-- Facts that do not mention the shared state are stable. -/
theorem Stable.const (P : Prop) : C.Stable s p (fun _ => P) := fun _ _ _ _ h _ => h

theorem Stable.exists {τ : Type*} {P : τ → σ → Prop} (h : ∀ x, C.Stable s p (P x)) :
    C.Stable s p (fun st => ∃ x, P x st) :=
  fun a b ha hb ⟨x, hx⟩ hr => ⟨x, h x a b ha hb hx hr⟩

theorem Stable.forall {τ : Sort*} {P : τ → σ → Prop} (h : ∀ x, C.Stable s p (P x)) :
    C.Stable s p (fun st => ∀ x, P x st) :=
  fun a b ha hb hx hr x => h x a b ha hb (hx x) hr

variable (C s p)

/-- **Proof outline** of a program: from states with `P`, every operation does
what the contract says and leaves a stable assertion for the rest, and the
program ends with outcome `r` only in states with `Q r`. -/
def Outline : Prog I ε α → (σ → Prop) → (Except ε α → σ → Prop) → Prop
  | .ret a, P, Q => ∀ st, C.inv st → P st → Q (.ok a) st
  | .raise e, P, Q => ∀ st, C.inv st → P st → Q (.error e) st
  | .call op k, P, Q => ∀ st input ans st', C.inv st → P st →
      M.handle st s p input op = some (ans, st') →
      C.does s p st st' ∧
        ∃ P', C.Stable s p P' ∧ P' st' ∧ Outline (k ans) P' Q

/-- The postcondition of a program whose errors are let through. -/
def returns (Q : α → σ → Prop) : Except ε α → σ → Prop
  | .ok a => Q a
  | .error _ => fun _ => True

variable {C M s p}

/-- A stronger assertion in front of a program. -/
theorem Outline.pre {m : Prog I ε α} {P P' : σ → Prop} {Q : Except ε α → σ → Prop}
    (h : C.Outline M s p m P Q) (hP : ∀ st, C.inv st → P' st → P st) :
    C.Outline M s p m P' Q := by
  cases m with
  | ret a => exact fun st hi hp => h st hi (hP st hi hp)
  | raise e => exact fun st hi hp => h st hi (hP st hi hp)
  | call op k => exact fun st i a st' hi hp => h st i a st' hi (hP st hi hp)

/-- A fact that does not mention the shared state can be used in the whole program. -/
theorem Outline.given {m : Prog I ε α} {φ : Prop} {P : σ → Prop} {Q : Except ε α → σ → Prop}
    (h : φ → C.Outline M s p m P Q) : C.Outline M s p m (fun st => φ ∧ P st) Q := by
  cases m with
  | ret a => exact fun st hi hp => h hp.1 st hi hp.2
  | raise e => exact fun st hi hp => h hp.1 st hi hp.2
  | call op k => exact fun st i a st' hi hp => h hp.1 st i a st' hi hp.2

theorem Outline.of_exists {ρ : Type} {m : Prog I ε α} {P : ρ → σ → Prop}
    {Q : Except ε α → σ → Prop} (h : ∀ x, C.Outline M s p m (P x) Q) :
    C.Outline M s p m (fun st => ∃ x, P x st) Q := by
  cases m with
  | ret a => exact fun st hi ⟨x, hp⟩ => h x st hi hp
  | raise e => exact fun st hi ⟨x, hp⟩ => h x st hi hp
  | call op k => exact fun st i a st' hi ⟨x, hp⟩ => h x st i a st' hi hp

/-- A weaker assertion after it. -/
theorem Outline.post {m : Prog I ε α} {P : σ → Prop} {Q Q' : Except ε α → σ → Prop}
    (h : C.Outline M s p m P Q) (hQ : ∀ r st, C.inv st → Q r st → Q' r st) :
    C.Outline M s p m P Q' := by
  induction m generalizing P with
  | ret a => exact fun st hi hp => hQ _ st hi (h st hi hp)
  | raise e => exact fun st hi hp => hQ _ st hi (h st hi hp)
  | call op k ih =>
      intro st i a st' hi hp hh
      obtain ⟨hd, P', hs, hp', ho⟩ := h st i a st' hi hp hh
      exact ⟨hd, P', hs, hp', ih a ho⟩

/-- **Sequencing.** -/
theorem Outline.bind {m : Prog I ε α} {f : α → Prog I ε β} {P : σ → Prop}
    {R : Except ε α → σ → Prop} {Q : Except ε β → σ → Prop}
    (hm : C.Outline M s p m P R) (herr : ∀ e st, C.inv st → R (.error e) st → Q (.error e) st)
    (hf : ∀ a, C.Outline M s p (f a) (R (.ok a)) Q) : C.Outline M s p (m >>= f) P Q := by
  induction m generalizing P with
  | ret a => exact (hf a).pre hm
  | raise e => exact fun st hi hp => herr e st hi (hm st hi hp)
  | call op k ih =>
      intro st i a st' hi hp hh
      obtain ⟨hd, P', hs, hp', ho⟩ := hm st i a st' hi hp hh
      exact ⟨hd, P', hs, hp', ih a ho⟩

/-- Sequencing when errors of the first part end the program. -/
theorem Outline.seq {m : Prog I ε α} {f : α → Prog I ε β} {P : σ → Prop} {R : α → σ → Prop}
    {Q : β → σ → Prop} (hm : C.Outline M s p m P (returns R))
    (hf : ∀ a, C.Outline M s p (f a) (R a) (returns Q)) :
    C.Outline M s p (m >>= f) P (returns Q) :=
  hm.bind (fun _ _ _ _ => trivial) hf

/-- The outcome of a program, caught. -/
theorem Outline.attempt {m : Prog I ε α} {P : σ → Prop} {Q : Except ε α → σ → Prop}
    (h : C.Outline M s p m P Q) : C.Outline M s p m.attempt P (returns Q) := by
  induction m generalizing P with
  | ret a => exact h
  | raise e => exact h
  | call op k ih =>
      intro st i a st' hi hp hh
      obtain ⟨hd, P', hs, hp', ho⟩ := h st i a st' hi hp hh
      exact ⟨hd, P', hs, hp', ih a ho⟩

/-- **Frame rule.** What is never falsified stays true across a program. -/
theorem Outline.frame {m : Prog I ε α} {P F : σ → Prop} {Q : Except ε α → σ → Prop}
    (hF : C.Persistent s p F) (h : C.Outline M s p m P Q) :
    C.Outline M s p m (fun st => P st ∧ F st) (fun r st => Q r st ∧ F st) := by
  induction m generalizing P with
  | ret a => exact fun st hi hp => ⟨h st hi hp.1, hp.2⟩
  | raise e => exact fun st hi hp => ⟨h st hi hp.1, hp.2⟩
  | call op k ih =>
      intro st i a st' hi hp hh
      obtain ⟨hd, P', hs, hp', ho⟩ := h st i a st' hi hp.1 hh
      exact ⟨hd, _, hs.and hF.stable, ⟨hp', hF.own st st' hi hp.2 hd⟩, ih a ho⟩

/-- The continuation of an operation, one answer at a time. -/
theorem Outline.ask {op : I.Op} {k : I.Ans op → Prog I ε α} {P : σ → Prop}
    {Q : Except ε α → σ → Prop} {R : I.Ans op → σ → Prop} (hR : ∀ a, C.Stable s p (R a))
    (hop : ∀ st input ans st', C.inv st → P st →
      M.handle st s p input op = some (ans, st') → C.does s p st st' ∧ R ans st')
    (hk : ∀ a, C.Outline M s p (k a) (R a) Q) : C.Outline M s p (.call op k) P Q := by
  intro st i a st' hi hp hh
  obtain ⟨hd, hr⟩ := hop st i a st' hi hp hh
  exact ⟨hd, R a, hR a, hr, hk a⟩

end Contract

/-! ### Soundness -/

/-- What makes a contract true of a machine and the programs its sessions run. -/
structure Obligations (C : Contract σ π) (M : Machine I σ π ι ξ)
    (program : Nat → π → κ → Prog I ε Unit) : Prop where
  does_inv : ∀ {s p a b}, C.inv a → C.does s p a b → C.inv b
  does_relies : ∀ {s p t q a b}, C.inv a → C.does s p a b → t ≠ s → C.relies t q a b
  act_inv : ∀ {a x b}, C.inv a → M.act a x = some b → C.inv b
  act_relies : ∀ {a x b t q}, C.inv a → M.act a x = some b → M.kills x q = false →
    C.relies t q a b
  close_inv : ∀ {a ended}, C.inv a → C.inv (M.close a ended)
  close_relies : ∀ {a ended t q}, C.inv a → ended t = false → C.relies t q a (M.close a ended)
  programs : ∀ s p call, ∃ P, C.Stable s p P ∧
    (∀ a, C.inv a → M.admits a p = true → P a) ∧
      C.Outline M s p (program s p call) P (fun _ _ => True)

variable {C : Contract σ π} {M : Machine I σ π ι ξ} {program : Nat → π → κ → Prog I ε Unit}

/-- The invariant holds, and every running session stands in front of a program
with an outline whose assertion holds. -/
structure Sound (C : Contract σ π) (M : Machine I σ π ι ξ) (st : State I σ π ε) : Prop where
  inv : C.inv st.shared
  unused : ∀ s, st.started ≤ s → st.sessions s = none
  outlines : ∀ s p m, st.sessions s = some (p, m) → ∃ P, C.Stable s p P ∧ P st.shared ∧
    C.Outline M s p m P (fun _ _ => True)

theorem Sound.init {sh : σ} (h : C.inv sh) : Sound C M (State.init sh : State I σ π ε) :=
  ⟨h, fun _ _ => rfl, fun _ _ _ h => by cases h⟩

section

variable {st st' : State I σ π ε}

/-- Ending one session. -/
theorem Sound.finish (hO : Obligations C M program) (hs : Sound C M st) (s : Nat) :
    Sound C M (st.finish M s) where
  inv := hO.close_inv hs.inv
  unused t ht := by
    unfold State.finish
    dsimp only
    by_cases h : t = s
    · subst h; rw [Function.update_self]
    · rw [Function.update_of_ne h]; exact hs.unused t ht
  outlines t q m h := by
    unfold State.finish at h ⊢
    dsimp only at h ⊢
    by_cases hts : t = s
    · subst hts; rw [Function.update_self] at h; cases h
    · rw [Function.update_of_ne hts] at h
      obtain ⟨P, hst, hP, ho⟩ := hs.outlines t q m h
      refine ⟨P, hst, ?_, ho⟩
      exact hst _ _ hs.inv (hO.close_inv hs.inv) hP (hO.close_relies hs.inv (by simpa using hts))

/-- Inverting an operation of a session. -/
theorem exec_cases {s : Nat} {input : ι} (h : step M program st (.exec s input) = some st') :
    (∃ p op k ans sh, st.sessions s = some (p, .call op k) ∧
      M.handle st.shared s p input op = some (ans, sh) ∧
      st' = { st with
        shared := sh
        sessions := Function.update st.sessions s (some (p, k ans)) }) ∨
    ((st.sessions s).isSome = true ∧ st' = st.finish M s) := by
  simp only [step] at h
  cases hs : st.sessions s with
  | none => rw [hs] at h; cases h
  | some pm =>
      obtain ⟨p, m⟩ := pm
      rw [hs] at h
      cases m with
      | ret a => exact Or.inr ⟨rfl, (Option.some.inj h).symm⟩
      | raise e => exact Or.inr ⟨rfl, (Option.some.inj h).symm⟩
      | call op k =>
          dsimp only at h
          rw [Option.map_eq_some_iff] at h
          obtain ⟨⟨ans, sh⟩, hh, rfl⟩ := h
          exact Or.inl ⟨p, op, k, ans, sh, rfl, hh, rfl⟩

/-- **Soundness, one step.** -/
theorem Sound.step (hO : Obligations C M program) (hs : Sound C M st) {l : Label π κ ι ξ}
    (h : step M program st l = some st') : Sound C M st' := by
  cases l with
  | start p call =>
      simp only [Session.step] at h
      split at h
      · rename_i hadm
        obtain rfl := Option.some.inj h
        refine ⟨hs.inv, fun t ht => ?_, fun t q m hm => ?_⟩
        · dsimp only at ht ⊢
          rw [Function.update_of_ne (by omega)]
          exact hs.unused t (by omega)
        · dsimp only at hm ⊢
          by_cases hts : t = st.started
          · subst hts
            rw [Function.update_self] at hm
            obtain ⟨rfl, rfl⟩ : p = q ∧ program st.started p call = m := by simpa using hm
            obtain ⟨P, hst, hP, ho⟩ := hO.programs st.started p call
            exact ⟨P, hst, hP _ hs.inv hadm, ho⟩
          · rw [Function.update_of_ne hts] at hm
            exact hs.outlines t q m hm
      · cases h
  | exec s input =>
      rcases exec_cases h with ⟨p, op, k, ans, sh, hm, hh, rfl⟩ | ⟨-, rfl⟩
      · obtain ⟨P, -, hP, ho⟩ := hs.outlines s p _ hm
        obtain ⟨hd, P', hst', hP', ho'⟩ := ho _ _ _ _ hs.inv hP hh
        have hi := hO.does_inv hs.inv hd
        refine ⟨hi, fun t ht => ?_, fun t q m hq => ?_⟩
        · dsimp only at ht ⊢
          by_cases hts : t = s
          · subst hts; rw [hs.unused t ht] at hm; cases hm
          · rw [Function.update_of_ne hts]; exact hs.unused t ht
        · dsimp only at hq ⊢
          by_cases hts : t = s
          · subst hts
            rw [Function.update_self] at hq
            obtain ⟨rfl, rfl⟩ : p = q ∧ k ans = m := by simpa using hq
            exact ⟨P', hst', hP', ho'⟩
          · rw [Function.update_of_ne hts] at hq
            obtain ⟨R, hstR, hR, hoR⟩ := hs.outlines t q m hq
            exact ⟨R, hstR, hstR _ _ hs.inv hi hR (hO.does_relies hs.inv hd hts), hoR⟩
      · exact hs.finish hO s
  | abort s =>
      simp only [Session.step] at h
      cases hm : st.sessions s with
      | none => rw [hm] at h; cases h
      | some pm =>
          rw [hm] at h
          obtain rfl := Option.some.inj h
          exact hs.finish hO s
  | external x =>
      simp only [Session.step, Option.map_eq_some_iff] at h
      obtain ⟨sh, ha, rfl⟩ := h
      have hi := hO.act_inv hs.inv ha
      refine ⟨hO.close_inv hi, fun t ht => ?_, fun t q m hq => ?_⟩
      · dsimp only at ht ⊢
        rw [hs.unused t ht, ite_self]
      · dsimp only at hq ⊢
        split at hq
        · cases hq
        · rename_i hk
          obtain ⟨P, hst, hP, ho⟩ := hs.outlines t q m hq
          have hkq : M.kills x q = false := by
            have : State.killed M st x t = M.kills x q := by simp [State.killed, hq]
            rw [← this]; simpa using hk
          refine ⟨P, hst, ?_, ho⟩
          have hb := hst _ _ hs.inv hi hP (hO.act_relies hs.inv ha hkq)
          exact hst _ _ hi (hO.close_inv hi) hb (hO.close_relies hi (by simpa using hk))

/-- **Soundness.** In every run from a state with the invariant, every session
keeps to its outline. -/
theorem Sound.run (hO : Obligations C M program) (hs : Sound C M st)
    (labels : List (Label π κ ι ξ)) : Sound C M ((system M program).run st labels) :=
  (system M program).invariant (fun _ _ _ h hst => h.step hO hst) hs labels

/-- **What one step does to the shared state**: nothing, what the contract says
of an operation, the end of sessions, or an external action. -/
theorem shared_cases (hs : Sound C M st) {l : Label π κ ι ξ}
    (h : step M program st l = some st') :
    st'.shared = st.shared ∨
    (∃ s p input m, l = .exec s input ∧ st.sessions s = some (p, m) ∧
      C.does s p st.shared st'.shared) ∨
    (∃ ended, st'.shared = M.close st.shared ended) ∨
    (∃ x b, l = .external x ∧ M.act st.shared x = some b ∧
      st'.shared = M.close b (st.killed M x)) := by
  cases l with
  | start p call =>
      simp only [step] at h
      split at h
      · obtain rfl := Option.some.inj h; exact Or.inl rfl
      · cases h
  | exec s input =>
      rcases exec_cases h with ⟨p, op, k, ans, sh, hm, hh, rfl⟩ | ⟨-, rfl⟩
      · obtain ⟨P, -, hP, ho⟩ := hs.outlines s p _ hm
        exact Or.inr (Or.inl ⟨s, p, input, _, rfl, hm, (ho _ _ _ _ hs.inv hP hh).1⟩)
      · exact Or.inr (Or.inr (Or.inl ⟨_, rfl⟩))
  | abort s =>
      simp only [step] at h
      cases hm : st.sessions s with
      | none => rw [hm] at h; cases h
      | some pm =>
          rw [hm] at h
          obtain rfl := Option.some.inj h
          exact Or.inr (Or.inr (Or.inl ⟨_, rfl⟩))
  | external x =>
      simp only [step, Option.map_eq_some_iff] at h
      obtain ⟨sh, ha, rfl⟩ := h
      exact Or.inr (Or.inr (Or.inr ⟨x, sh, rfl, ha, rfl⟩))

end

end Session

import KzHome.Lib.Transition
import Mathlib

/-!
# KzHome.Lib.Latch

Overlapping calls on a latch.

A call samples a source that never goes back, and later updates a shared object with its sample
in one step; other calls come in between. The object latches a fault when it is given a sample
that is older than the last one it has seen. It stays healthy exactly as long as the calls are
orderly: none updates it after a call with a later sample has (`healthy_iff`).
-/

namespace Latch

variable {C T : Type}

/-- A shared object: which calls it lets in, what an update with a sample does (the call
returned, or it raised), and its latch. -/
structure Object (C T : Type) where
  enters : C → Bool
  update : C → T → Bool × C
  fault : C → Bool

/-- What an object must do on a `Good` state: let calls in if it is usable, take a sample that
is not older than the last one, and latch on any other. -/
structure Lawful [LinearOrder T] (O : Object C T) (usable : Prop) (Good : C → Prop)
    (last : C → Option T) : Prop where
  sound : ∀ c, Good c → O.fault c = false
  enters : ∀ c, Good c → (O.enters c = true ↔ usable)
  passes : ∀ c t, usable → Good c → (∀ l, last c = some l → l ≤ t) →
    (O.update c t).1 = true ∧ Good (O.update c t).2 ∧ last (O.update c t).2 = some t
  trips : ∀ c t l, Good c → last c = some l → t < l →
    (O.update c t).1 = false ∧ O.fault (O.update c t).2 = true

/-! ### The runs -/

/-- The object, the source, the samples of the calls that have not updated yet, those of the
calls that have, and whether a call has raised. -/
structure State (C T : Type) where
  object : C
  raw : T
  sampled : Nat → Option T
  done : List T
  raised : Bool

def State.init (c : C) (raw : T) : State C T := ⟨c, raw, fun _ => none, [], false⟩

/-- What happens next. -/
inductive Label (T : Type)
  /-- The source advances. -/
  | advance (t : T)
  | sample (call : Nat)
  | update (call : Nat)
  deriving DecidableEq

def step [LinearOrder T] (O : Object C T) (st : State C T) : Label T → Option (State C T)
  | .advance t => if st.raw ≤ t then some { st with raw := t } else none
  | .sample i =>
    match st.sampled i with
    | some _ => none
    | none =>
      if O.enters st.object then
        some { st with sampled := Function.update st.sampled i (some st.raw) }
      else some { st with raised := true }
  | .update i =>
    match st.sampled i with
    | none => none
    | some t => some { st with
        object := (O.update st.object t).2
        sampled := Function.update st.sampled i none
        done := t :: st.done
        raised := st.raised || !(O.update st.object t).1 }

/-- Overlapping calls on one object. -/
def calls [LinearOrder T] (O : Object C T) : Transition.System (State C T) (Label T) := ⟨step O⟩

/-- No fault is latched, and no call has raised. -/
def Healthy (O : Object C T) (st : State C T) : Prop := O.fault st.object = false ∧ st.raised = false

/-- The next step is one of a usable object, and does not update it after a later sample. -/
def Orderly [LinearOrder T] (usable : Prop) (st : State C T) : Label T → Prop
  | .advance _ => True
  | .sample i => st.sampled i = none → usable
  | .update i => ∀ t, st.sampled i = some t → ∀ t' ∈ st.done, t' ≤ t

/-! ### Healthy runs -/

section

variable [LinearOrder T] {O : Object C T} {usable : Prop} {Good : C → Prop} {last : C → Option T}

/-- What holds as long as all calls were orderly: the last sample is the latest that has
updated the object, or older than every call. -/
structure Inv (usable : Prop) (Good : C → Prop) (last : C → Option T) (st : State C T) : Prop where
  good : Good st.object
  quiet : st.raised = false
  entered : ∀ i t, st.sampled i = some t → usable
  latest : ∀ t ∈ st.done, ∃ l, last st.object = some l ∧ t ≤ l
  origin : ∀ l, last st.object = some l → l ∈ st.done ∨
    (l ≤ st.raw ∧ ∀ i t, st.sampled i = some t → l ≤ t)

theorem Inv.init {c : C} {raw : T} (hc : Good c) (hraw : ∀ l, last c = some l → l ≤ raw) :
    Inv usable Good last (State.init c raw) := by
  refine ⟨hc, rfl, fun i t h => ?_, fun t h => ?_, fun l hl => ?_⟩
  · cases h
  · cases h
  · exact Or.inr ⟨hraw l hl, fun i t h => by cases h⟩

theorem Inv.healthy (hO : Lawful O usable Good last) {st : State C T}
    (h : Inv usable Good last st) : Healthy O st := ⟨hO.sound _ h.good, h.quiet⟩

/-- The source stays ahead of the last sample. -/
theorem Inv.advance {st : State C T} (h : Inv usable Good last st) {t : T} (ht : st.raw ≤ t) :
    Inv usable Good last { st with raw := t } := by
  refine ⟨h.good, h.quiet, h.entered, h.latest, fun l hl => ?_⟩
  exact (h.origin l hl).imp_right fun hle => ⟨le_trans hle.1 ht, hle.2⟩

theorem Inv.sample {st : State C T} (h : Inv usable Good last st) (hu : usable) (i : Nat) :
    Inv usable Good last { st with sampled := Function.update st.sampled i (some st.raw) } := by
  refine ⟨h.good, h.quiet, fun _ _ _ => hu, h.latest, fun l hl => ?_⟩
  refine (h.origin l hl).imp_right fun hle => ⟨hle.1, fun j t hj => ?_⟩
  dsimp only at hj
  by_cases hji : j = i
  · subst hji
    rw [Function.update_self] at hj
    obtain rfl := Option.some.inj hj
    exact hle.1
  · rw [Function.update_of_ne hji] at hj
    exact hle.2 j t hj

/-- **An orderly update** goes through. -/
theorem Inv.update (hO : Lawful O usable Good last) {st : State C T}
    (h : Inv usable Good last st) {i : Nat} {t : T} (hi : st.sampled i = some t)
    (horder : ∀ t' ∈ st.done, t' ≤ t) :
    Inv usable Good last { st with
      object := (O.update st.object t).2
      sampled := Function.update st.sampled i none
      done := t :: st.done
      raised := st.raised || !(O.update st.object t).1 } := by
  have hle : ∀ l, last st.object = some l → l ≤ t := by
    intro l hl
    rcases h.origin l hl with hdone | ⟨-, hall⟩
    · exact horder l hdone
    · exact hall i t hi
  obtain ⟨hret, hgood, hlast⟩ := hO.passes _ t (h.entered i t hi) h.good hle
  refine ⟨hgood, ?_, fun j t' hj => ?_, fun t' ht' => ⟨t, hlast, ?_⟩, fun l hl => ?_⟩
  · dsimp only
    rw [h.quiet, hret]
    rfl
  · dsimp only at hj
    by_cases hji : j = i
    · subst hji
      rw [Function.update_self] at hj
      cases hj
    · rw [Function.update_of_ne hji] at hj
      exact h.entered j t' hj
  · rcases List.mem_cons.mp ht' with rfl | hold
    · exact le_refl _
    · exact horder t' hold
  · obtain rfl := Option.some.inj (hlast.symm.trans hl)
    exact Or.inl List.mem_cons_self

theorem Inv.step (hO : Lawful O usable Good last) {st st' : State C T}
    (h : Inv usable Good last st) {l : Label T} (hl : Orderly usable st l)
    (hs : (calls O).step st l = some st') : Inv usable Good last st' := by
  cases l with
  | advance t =>
      simp only [calls, Latch.step] at hs
      split at hs
      · rename_i ht
        obtain rfl := Option.some.inj hs
        exact h.advance ht
      · cases hs
  | sample i =>
      simp only [calls, Latch.step] at hs
      split at hs
      · cases hs
      · rename_i hnone
        rw [if_pos ((hO.enters _ h.good).mpr (hl hnone))] at hs
        obtain rfl := Option.some.inj hs
        exact h.sample (hl hnone) i
  | update i =>
      simp only [calls, Latch.step] at hs
      split at hs
      · cases hs
      · rename_i t hi
        obtain rfl := Option.some.inj hs
        exact h.update hO hi (hl t hi)

/-- **A step that is not orderly** ends the health. -/
theorem Inv.ends (hO : Lawful O usable Good last) {st : State C T}
    (h : Inv usable Good last st) {l : Label T} (hl : ¬ Orderly usable st l) :
    ¬ Healthy O ((calls O).next st l) := by
  cases l with
  | advance t => exact absurd trivial hl
  | sample i =>
      obtain ⟨hnone, hunusable⟩ := Classical.not_imp.mp hl
      have henters : O.enters st.object = false :=
        Bool.eq_false_iff.mpr fun he => hunusable ((hO.enters _ h.good).mp he)
      have hs : (calls O).step st (.sample i) = some { st with raised := true } := by
        simp only [calls, Latch.step, hnone, henters, Bool.false_eq_true, if_false]
      rw [Transition.System.next_of_step hs]
      intro hh
      exact absurd hh.2 (by simp)
  | update i =>
      simp only [Orderly, not_forall, not_le] at hl
      obtain ⟨t, hi, t', ht', hlt⟩ := hl
      obtain ⟨l, hlast, hle⟩ := h.latest t' ht'
      have htrip := hO.trips _ t l h.good hlast (lt_of_lt_of_le hlt hle)
      have hs : (calls O).step st (.update i) = some { st with
          object := (O.update st.object t).2
          sampled := Function.update st.sampled i none
          done := t :: st.done
          raised := st.raised || !(O.update st.object t).1 } := by
        simp only [calls, Latch.step, hi]
      rw [Transition.System.next_of_step hs]
      intro hh
      rw [Healthy, htrip.2] at hh
      cases hh.1

/-- **A run stays healthy** exactly when its steps are orderly. -/
theorem healthy_iff (hO : Lawful O usable Good last) {st : State C T}
    (h : Inv usable Good last st) (labels : List (Label T)) :
    (∀ before, before <+: labels → Healthy O ((calls O).run st before)) ↔
      (calls O).Along (Orderly usable) st labels := by
  induction labels generalizing st with
  | nil =>
      refine ⟨fun _ => trivial, fun _ before hb => ?_⟩
      rw [List.prefix_nil.mp hb]
      exact h.healthy hO
  | cons l labels ih =>
      have hnext : Orderly usable st l → Inv usable Good last ((calls O).next st l) := by
        intro hl
        rcases (calls O).next_cases st l with heq | hs
        · rw [heq]; exact h
        · exact h.step hO hl hs
      constructor
      · intro hall
        have hl : Orderly usable st l := by
          by_contra hl
          exact h.ends hO hl (hall [l] ⟨labels, rfl⟩)
        refine ⟨hl, (ih (hnext hl)).mp fun before hb => ?_⟩
        exact hall (l :: before) (List.cons_prefix_cons.mpr ⟨rfl, hb⟩)
      · intro ⟨hl, hrest⟩ before hb
        cases before with
        | nil => exact h.healthy hO
        | cons l' before =>
            obtain ⟨rfl, hbefore⟩ := List.cons_prefix_cons.mp hb
            exact (ih (hnext hl)).mpr hrest before hbefore

end

end Latch

import KzHome.Lib.PyLines
import Mathlib.Data.List.Forall2

/-!
# KzHome.Lib.TopicFilters

Topic filters of a message broker.

A topic has levels between slashes, and a plus in a filter stands for any one level. `covers` says
this for the filters without a hash. What a broker makes of the others is left open by
`Matching`, and so is what it makes of filters that begin with a wildcard, and of topics
that contain one: nobody can publish on such a topic.
-/

namespace TopicFilters

open PyText

/-- The filter covers the topic, level by level. -/
def covers (filter topic : String) : Prop :=
  List.Forall₂ (fun f t => f = "+" ∨ f = t) (split '/' filter) (split '/' topic)

instance (filter topic : String) : Decidable (covers filter topic) :=
  inferInstanceAs (Decidable (List.Forall₂ _ _ _))

/-- A filter that neither has a hash nor begins with a wildcard. -/
def Levelled (filter : String) : Prop :=
  '#' ∉ filter.toList ∧ (split '/' filter).head? ≠ some "+"

instance (filter : String) : Decidable (Levelled filter) := inferInstanceAs (Decidable (_ ∧ _))

/-- A topic that a client can publish on. -/
def Plain (topic : String) : Prop := '+' ∉ topic.toList ∧ '#' ∉ topic.toList

/-- What is documented of how a broker matches topics against filters. -/
structure Matching (matching : String → String → Bool) : Prop where
  sound : ∀ filter topic, Levelled filter → matching filter topic = true → covers filter topic
  complete : ∀ filter topic, Levelled filter → Plain topic → covers filter topic →
    matching filter topic = true

/-- A matching that goes by the levels alone. -/
def byLevels (filter topic : String) : Bool := decide (Levelled filter ∧ covers filter topic)

theorem byLevels_matching : Matching byLevels where
  sound _ _ _ h := (of_decide_eq_true h).2
  complete _ _ hfilter _ h := decide_eq_true ⟨hfilter, h⟩

/-- **A filter without a plus** covers its own topic alone. -/
theorem covers_plain {filter topic : String} (h : "+" ∉ split '/' filter) :
    covers filter topic ↔ filter = topic := by
  constructor
  · intro hcovers
    have hfull : List.Forall₂ (fun f t => f ≠ "+" ∧ (f = "+" ∨ f = t)) (split '/' filter)
        (split '/' topic) :=
      (List.forall₂_and_left _ _).mpr ⟨fun f hf heq => h (heq ▸ hf), hcovers⟩
    have hsame : split '/' filter = split '/' topic :=
      List.forall₂_eq_eq_eq ▸ hfull.imp fun _ _ hft => hft.2.resolve_left hft.1
    rw [← intercalate_split filter, hsame, intercalate_split]
  · rintro rfl
    exact List.forall₂_same.mpr fun _ _ => Or.inr rfl

end TopicFilters

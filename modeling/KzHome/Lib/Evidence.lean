import Mathlib.Data.List.Induction

/-!
# KzHome.Lib.Evidence

Two-sided completion, in its own terms.

A subject is complete once it was *affirmed* and the latest value *reported*
about it is the wanted one, the two in either order and each any number of
times, unless something *stopped* it before. `Tally` is the bookkeeping one
keeps for that, item by item; `complete_iff` says what it amounts to over a
whole history: there was a moment, with no stop up to it, at which both halves
stood.
-/

namespace Evidence

variable {β : Type} [DecidableEq β]

/-- What can be learned about the subject. -/
inductive Item (β : Type)
  | affirm
  | report (b : β)
  | stop

/-- The value an item reports. -/
def Item.value : Item β → Option β
  | .report b => some b
  | _ => none

/-- The latest value reported in a history. -/
def lastReport (items : List (Item β)) : Option β := (items.filterMap Item.value).getLast?

/-- How the subject came to rest. -/
inductive Outcome
  | complete
  | stopped
  deriving DecidableEq

/-- The bookkeeping: the two halves seen so far, and the outcome once there is one. -/
structure Tally (β : Type) where
  affirmed : Bool
  reported : Option β
  outcome : Option Outcome

/-- Nothing known yet. -/
def Tally.start : Tally β := ⟨false, none, none⟩

/-- Complete the tally if both halves stand. -/
def Tally.settle (want : β) (t : Tally β) : Tally β :=
  if t.affirmed = true ∧ t.reported = some want then { t with outcome := some .complete } else t

/-- Record one item; a tally with an outcome no longer changes. -/
def Tally.record (want : β) (t : Tally β) (item : Item β) : Tally β :=
  if t.outcome.isSome then t else
  match item with
  | .affirm => { t with affirmed := true }.settle want
  | .report b => { t with reported := some b }.settle want
  | .stop => { t with outcome := some .stopped }

/-- The tally of a history. -/
def tally (want : β) (items : List (Item β)) : Tally β :=
  items.foldl (Tally.record want) .start

@[simp] theorem tally_nil (want : β) : tally want [] = .start := rfl

theorem tally_snoc (want : β) (items : List (Item β)) (item : Item β) :
    tally want (items ++ [item]) = (tally want items).record want item := by
  simp [tally]

omit [DecidableEq β] in
theorem lastReport_affirm (items : List (Item β)) :
    lastReport (items ++ [.affirm]) = lastReport items := by
  simp [lastReport, Item.value]

omit [DecidableEq β] in
theorem lastReport_report (items : List (Item β)) (b : β) :
    lastReport (items ++ [.report b]) = some b := by
  simp [lastReport, Item.value]

/-- While the tally is open, nothing stopped the subject and the two halves are
what the history says. -/
theorem tally_open {want : β} {items : List (Item β)} (h : (tally want items).outcome = none) :
    .stop ∉ items ∧ ((tally want items).affirmed = true ↔ .affirm ∈ items) ∧
      (tally want items).reported = lastReport items := by
  induction items using List.reverseRecOn with
  | nil => simp [Tally.start, lastReport]
  | append_singleton items item ih =>
      rw [tally_snoc] at h ⊢
      have ho : (tally want items).outcome = none := by
        by_contra hne
        have hs : (tally want items).outcome.isSome = true := by
          rwa [← Option.ne_none_iff_isSome] 
        unfold Tally.record at h
        rw [if_pos hs] at h
        exact hne h
      obtain ⟨hstop, haff, hrep⟩ := ih ho
      have hn : (tally want items).outcome.isSome = false := by rw [ho]; rfl
      simp only [Tally.record, hn, Bool.false_eq_true, if_false] at h ⊢
      cases item with
      | affirm =>
          simp only [Tally.settle] at h ⊢
          split at h
          · simp at h
          · rw [if_neg ‹_›, lastReport_affirm]
            exact ⟨by simpa using hstop, by simp, hrep⟩
      | report b =>
          simp only [Tally.settle] at h ⊢
          split at h
          · simp at h
          · rw [if_neg ‹_›, lastReport_report]
            exact ⟨by simpa using hstop, by simpa using haff, rfl⟩
      | stop => simp at h

/-- There was a moment in the history at which both halves stood and nothing
had stopped the subject. -/
def Completed (want : β) (items : List (Item β)) : Prop :=
  ∃ pre item post, items = pre ++ item :: post ∧ .stop ∉ pre ++ [item] ∧
    .affirm ∈ pre ++ [item] ∧ lastReport (pre ++ [item]) = some want

omit [DecidableEq β] in
theorem Completed.append {want : β} {items : List (Item β)} (h : Completed want items)
    (more : List (Item β)) : Completed want (items ++ more) := by
  obtain ⟨pre, item, post, rfl, hrest⟩ := h
  exact ⟨pre, item, post ++ more, by simp, hrest⟩

/-- A tally with an outcome keeps it. -/
theorem record_of_outcome {want : β} {t : Tally β} {o : Outcome} (h : t.outcome = some o)
    (item : Item β) : t.record want item = t := by
  unfold Tally.record
  rw [if_pos (by rw [h]; rfl)]

/-- An open tally completes exactly when the recorded item is evidence that
makes both halves stand. -/
theorem record_complete_iff {want : β} {items : List (Item β)} {item : Item β}
    (h : (tally want items).outcome = none) :
    ((tally want items).record want item).outcome = some .complete ↔
      .stop ∉ items ++ [item] ∧ .affirm ∈ items ++ [item] ∧
        lastReport (items ++ [item]) = some want := by
  obtain ⟨hstop, haff, hrep⟩ := tally_open h
  have hn : (tally want items).outcome.isSome = false := by rw [h]; rfl
  simp only [Tally.record, hn, Bool.false_eq_true, if_false]
  cases item with
  | affirm =>
      simp only [Tally.settle, lastReport_affirm]
      split
      · rename_i hc
        simpa [hstop, hrep] using hc
      · rename_i hc
        simp only [true_and, hrep] at hc
        simp [h, hc]
  | report b =>
      simp only [Tally.settle, lastReport_report]
      split
      · rename_i hc
        simpa [hstop, haff] using hc
      · rename_i hc
        simp only [haff] at hc
        simpa [h, hstop] using hc
  | stop => simp

/-- A stopped tally has met a stop. -/
theorem stop_mem_of_stopped {want : β} {items : List (Item β)}
    (h : (tally want items).outcome = some .stopped) : .stop ∈ items := by
  induction items using List.reverseRecOn with
  | nil => simp [Tally.start] at h
  | append_singleton items item ih =>
      rw [tally_snoc] at h
      by_cases hs : (tally want items).outcome = some .stopped
      · exact List.mem_append_left _ (ih hs)
      · cases item with
        | stop => simp
        | affirm =>
            simp only [Tally.record, Tally.settle] at h
            split at h
            · exact absurd h hs
            · split at h <;> simp_all
        | report b =>
            simp only [Tally.record, Tally.settle] at h
            split at h
            · exact absurd h hs
            · split at h <;> simp_all

/-- An outcome other than completion rules out completion: the history has a
stop before both halves ever stood. -/
theorem not_completed_of_stopped {want : β} {items : List (Item β)}
    (h : (tally want items).outcome ≠ some .complete) : ¬ Completed want items := by
  induction items using List.reverseRecOn with
  | nil => rintro ⟨pre, item, post, heq, -⟩; simp at heq
  | append_singleton items item ih =>
      rw [tally_snoc] at h
      have hprev : (tally want items).outcome ≠ some .complete := fun hc =>
        h (by rw [record_of_outcome hc]; exact hc)
      rintro ⟨pre, x, post, heq, hx⟩
      rcases List.eq_nil_or_concat post with rfl | ⟨post', y, rfl⟩
      · -- the moment is the last item: the tally before it must be open
        obtain ⟨rfl, hi⟩ := List.append_inj' heq rfl
        obtain rfl : item = x := by simpa using hi
        cases ho : (tally want items).outcome with
        | none => exact h ((record_complete_iff ho).mpr hx)
        | some o =>
            cases o with
            | complete => exact hprev ho
            | stopped => exact hx.1 (List.mem_append_left _ (stop_mem_of_stopped ho))
      · refine ih hprev ⟨pre, x, post', ?_, hx⟩
        simp only [List.concat_eq_append, ← List.cons_append, ← List.append_assoc] at heq
        exact (List.append_inj' heq rfl).1
/-- **Two-sided completion.** The tally of a history is complete exactly when at
some moment of it both halves stood and nothing had stopped the subject. -/
theorem complete_iff {want : β} {items : List (Item β)} :
    (tally want items).outcome = some .complete ↔ Completed want items := by
  constructor
  · intro h
    induction items using List.reverseRecOn with
    | nil => simp [Tally.start] at h
    | append_singleton items item ih =>
        cases ho : (tally want items).outcome with
        | none =>
            rw [tally_snoc, record_complete_iff ho] at h
            exact ⟨items, item, [], rfl, h⟩
        | some o =>
            rw [tally_snoc, record_of_outcome ho] at h
            exact (ih h).append [item]
  · intro h
    by_contra hne
    exact not_completed_of_stopped hne h

end Evidence

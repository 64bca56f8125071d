import Mathlib.Data.List.Nodup

/-!
# KzHome.Lib.Rotation

Credentials that are used once and replaced.

A credential is born, it is rotated into a fresh one, or it is closed. A log of such
events, newest first, gives every credential its origin, the born credential that it goes
back to, and says which credentials are live. In a valid log only live credentials are
rotated and closed: then at most one credential of an origin is live, none is spent
twice, and an origin with a closed credential has no live one any more.
-/

namespace Rotation

variable {α : Type*} [DecidableEq α]

/-- What happens to credentials. -/
inductive Event (α : Type*)
  | born (a : α)
  | rotated (old new : α)
  | closed (a : α)
  deriving DecidableEq, Repr

/-- The born credential that a credential goes back to. -/
def origin : List (Event α) → α → Option α
  | [], _ => none
  | .born b :: log, a => if a = b then some b else origin log a
  | .rotated old new :: log, a => if a = new then origin log old else origin log a
  | .closed _ :: log, a => origin log a

/-- Which credentials can still be used. -/
def live : List (Event α) → α → Bool
  | [], _ => false
  | .born b :: log, a => a = b || live log a
  | .rotated old new :: log, a => a = new || (a ≠ old && live log a)
  | .closed b :: log, a => a ≠ b && live log a

/-- The credential that an event spends. -/
def Event.spends : Event α → Option α
  | .born _ => none
  | .rotated old _ => some old
  | .closed a => some a

/-- New credentials are fresh, and spent ones are live. -/
def Valid : List (Event α) → Prop
  | [] => True
  | .born b :: log => origin log b = none ∧ Valid log
  | .rotated old new :: log => live log old = true ∧ origin log new = none ∧ Valid log
  | .closed a :: log => live log a = true ∧ Valid log

variable {log : List (Event α)} {a b c : α}

/-- Live credentials have an origin. -/
theorem origin_of_live (hv : Valid log) (h : live log a = true) : (origin log a).isSome := by
  induction log generalizing a with
  | nil => cases h
  | cons e log ih =>
      cases e with
      | born b =>
          simp only [live, Bool.or_eq_true, decide_eq_true_eq] at h
          simp only [origin]
          split
          · rfl
          · rename_i hne
            exact ih hv.2 (h.resolve_left hne)
      | rotated old new =>
          simp only [live, Bool.or_eq_true, Bool.and_eq_true, decide_eq_true_eq] at h
          simp only [origin]
          split
          · exact ih hv.2.2 hv.1
          · rename_i hne
            exact ih hv.2.2 (h.resolve_left hne).2
      | closed b =>
          simp only [live, Bool.and_eq_true] at h
          exact ih hv.2 h.2

/-- A credential without origin is neither the origin of another nor live. -/
theorem ne_of_origin (h : origin log a = none) (hb : (origin log b).isSome) : b ≠ a := by
  intro heq
  rw [heq, h] at hb
  cases hb

/-- Origins go back to themselves. -/
theorem origin_origin (hv : Valid log) (h : origin log a = some b) : origin log b = some b := by
  induction log generalizing a with
  | nil => cases h
  | cons e log ih =>
      cases e with
      | born c =>
          simp only [origin] at h ⊢
          split at h
          · obtain rfl := Option.some.inj h
            exact if_pos rfl
          · have hb := ih hv.2 h
            rw [if_neg (ne_of_origin hv.1 (by rw [hb]; rfl)), hb]
      | rotated old new =>
          have hb : origin log b = some b := by
            simp only [origin] at h
            split at h
            · exact ih hv.2.2 h
            · exact ih hv.2.2 h
          simp only [origin]
          rw [if_neg (ne_of_origin hv.2.1 (by rw [hb]; rfl)), hb]
      | closed c => exact ih hv.2 h

/-- **At most one credential of an origin is live.** -/
theorem live_unique (hv : Valid log) (ha : live log a = true) (hb : live log b = true)
    (h : origin log a = origin log b) : a = b := by
  induction log generalizing a b with
  | nil => cases ha
  | cons e log ih =>
      cases e with
      | born c =>
          simp only [live, Bool.or_eq_true, decide_eq_true_eq] at ha hb
          simp only [origin] at h
          -- no older credential goes back to the new one
          have hnew : ∀ x, origin log x ≠ some c := by
            intro x horigin
            have hc := origin_origin hv.2 horigin
            rw [hv.1] at hc
            cases hc
          by_cases hac : a = c <;> by_cases hbc : b = c
          · exact hac.trans hbc.symm
          · rw [if_pos hac, if_neg hbc] at h
            exact absurd h.symm (hnew b)
          · rw [if_neg hac, if_pos hbc] at h
            exact absurd h (hnew a)
          · rw [if_neg hac, if_neg hbc] at h
            exact ih hv.2 (ha.resolve_left hac) (hb.resolve_left hbc) h
      | rotated old new =>
          simp only [live, Bool.or_eq_true, Bool.and_eq_true, decide_eq_true_eq] at ha hb
          simp only [origin] at h
          by_cases han : a = new <;> by_cases hbn : b = new
          · exact han.trans hbn.symm
          · rw [if_pos han, if_neg hbn] at h
            have := hb.resolve_left hbn
            exact absurd (ih hv.2.2 hv.1 this.2 h).symm this.1
          · rw [if_neg han, if_pos hbn] at h
            have := ha.resolve_left han
            exact absurd (ih hv.2.2 this.2 hv.1 h) this.1
          · rw [if_neg han, if_neg hbn] at h
            exact ih hv.2.2 (ha.resolve_left han).2 (hb.resolve_left hbn).2 h
      | closed c =>
          simp only [live, Bool.and_eq_true] at ha hb
          exact ih hv.2 ha.2 hb.2 h

/-- What is spent had an origin, and is not live any more. -/
theorem dead_of_spent (hv : Valid log) {e : Event α} (he : e ∈ log) (h : e.spends = some a) :
    (origin log a).isSome ∧ live log a = false := by
  induction log with
  | nil => cases he
  | cons e' log ih =>
      cases e' with
      | born c =>
          rcases List.mem_cons.mp he with rfl | he
          · cases h
          · obtain ⟨horigin, hdead⟩ := ih hv.2 he
            have hne := ne_of_origin hv.1 horigin
            exact ⟨by simp [origin, hne, horigin], by simp [live, hne, hdead]⟩
      | rotated old new =>
          rcases List.mem_cons.mp he with rfl | he
          · obtain rfl := Option.some.inj h
            have horigin := origin_of_live hv.2.2 hv.1
            have hne := ne_of_origin hv.2.1 horigin
            exact ⟨by simp [origin, hne, horigin], by simp [live, hne]⟩
          · obtain ⟨horigin, hdead⟩ := ih hv.2.2 he
            have hne := ne_of_origin hv.2.1 horigin
            exact ⟨by simp [origin, hne, horigin], by simp [live, hne, hdead]⟩
      | closed c =>
          rcases List.mem_cons.mp he with rfl | he
          · obtain rfl := Option.some.inj h
            exact ⟨by simpa [origin] using origin_of_live hv.2 hv.1, by simp [live]⟩
          · obtain ⟨horigin, hdead⟩ := ih hv.2 he
            exact ⟨horigin, by simp [live, hdead]⟩

/-- **Closing a credential closes everything that goes back to its origin.** -/
theorem dead_of_closed (hv : Valid log) (hc : .closed c ∈ log) (h : origin log a = origin log c) :
    live log a = false := by
  induction log generalizing a with
  | nil => cases hc
  | cons e log ih =>
      cases e with
      | born b =>
          have hc' := (List.mem_cons.mp hc).resolve_left (fun h => by cases h)
          have horigin := (dead_of_spent hv.2 hc' rfl).1
          have hne := ne_of_origin hv.1 horigin
          simp only [origin, if_neg hne] at h
          split at h
          · -- the new credential is its own origin
            obtain ⟨r, hr⟩ := Option.isSome_iff_exists.mp horigin
            have hb := origin_origin hv.2 (h.symm ▸ hr ▸ rfl : origin log c = some b)
            rw [hv.1] at hb
            cases hb
          · rename_i hab
            simp [live, hab, ih hv.2 hc' h]
      | rotated old new =>
          have hc' := (List.mem_cons.mp hc).resolve_left (fun h => by cases h)
          have horigin := (dead_of_spent hv.2.2 hc' rfl).1
          have hne := ne_of_origin hv.2.1 horigin
          simp only [origin, if_neg hne] at h
          split at h
          · -- a closed origin has nothing live to rotate
            have hold := ih hv.2.2 hc' h
            rw [hv.1] at hold
            cases hold
          · rename_i hab
            simp [live, hab, ih hv.2.2 hc' h]
      | closed b =>
          simp only [origin] at h
          rcases List.mem_cons.mp hc with heq | hc'
          · obtain rfl := Event.closed.inj heq
            by_cases hac : a = c
            · simp [live, hac]
            · have hdead : live log a = false := by
                rw [Bool.eq_false_iff]
                intro ha
                exact hac (live_unique hv.2 ha hv.1 h)
              simp [live, hdead]
          · simp [live, ih hv.2 hc' h]

end Rotation

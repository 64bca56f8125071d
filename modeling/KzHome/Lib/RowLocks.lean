import Mathlib.Logic.Basic
import Mathlib.Data.List.Basic

/-!
# KzHome.Lib.RowLocks

Row locks held by database sessions.

`SELECT … FOR UPDATE` takes the lock of the row it returns, waits while another
session holds it, and keeps it until the session's transaction ends; a commit or
a roll back releases everything the session holds. Nothing else changes the
table of locks, so the holder of a lock is the only session that can have
written the row since it took the lock.
-/

namespace RowLocks

variable {κ ς : Type*} [DecidableEq κ] [DecidableEq ς]

/-- Which session holds the lock of a row. -/
abbrev Locks (κ ς : Type*) := κ → Option ς

/-- Session `s` can take all of `ks` now: nobody else holds one of them. -/
def available (l : Locks κ ς) (s : ς) (ks : List κ) : Bool :=
  ks.all fun k => l k = none ∨ l k = some s

/-- The locks after `s` took `ks`. -/
def take (l : Locks κ ς) (s : ς) (ks : List κ) : Locks κ ς :=
  fun k => if k ∈ ks then some s else l k

/-- The locks after the transactions of some sessions ended. -/
def release (l : Locks κ ς) (ended : ς → Bool) : Locks κ ς := fun k =>
  match l k with
  | some s => if ended s then none else some s
  | none => none

variable {l : Locks κ ς} {s t : ς} {ks : List κ} {k : κ}

omit [DecidableEq ς] in
theorem take_of_mem (h : k ∈ ks) : take l s ks k = some s := if_pos h

omit [DecidableEq ς] in
/-- A session that takes locks keeps those it held. -/
theorem take_self (h : l k = some s) : take l s ks k = some s := by
  unfold take
  split
  · rfl
  · exact h

/-- Taking available locks takes nothing away from another session. -/
theorem take_other (hav : available l s ks) (h : l k = some t) (hne : t ≠ s) :
    take l s ks k = some t := by
  unfold take
  split
  · rename_i hk
    have := List.all_eq_true.mp hav k hk
    simp [h, hne] at this
  · exact h

omit [DecidableEq κ] in
/-- A lock that somebody else holds is not available. -/
theorem not_mem_of_held (hav : available l s ks = true) (h : l k = some t) (hne : t ≠ s) :
    k ∉ ks := by
  intro hk
  have := List.all_eq_true.mp hav k hk
  simp [h, hne] at this

omit [DecidableEq κ] [DecidableEq ς] in
/-- The end of transactions releases only the locks of their own sessions. -/
theorem release_other {ended : ς → Bool} (h : l k = some t) (hne : ended t = false) :
    release l ended k = some t := by
  simp [release, h, hne]

end RowLocks

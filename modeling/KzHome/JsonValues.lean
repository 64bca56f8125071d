import KzHome.Basic
import Mathlib.Data.List.Nodup

/-!
# KzHome.JsonValues

Python's `==` and `<` on decoded JSON values.

Device states are compared field by field, so what counts as a change is decided
by Python's equality: booleans are numbers (`True == 1`), integers and floats are
compared by value, objects without regard to the order of their members. An
ordering of values of different kinds raises `TypeError`, here `none`.
-/

namespace KzHome.Json

/-- The number a value is compared as. -/
def number : Json → Option Rat
  | .bool b => some (if b then 1 else 0)
  | .int n => some n
  | .float q => some q
  | _ => none

mutual

/-- `a == b` -/
def pyEq : Json → Json → Bool
  | .arr xs, .arr ys => pyEqItems xs ys
  | .obj xs, .obj ys => xs.length == ys.length && pyEqMembers xs ys
  | .null, .null => true
  | .str s, .str t => s == t
  | .bool a, b => number b == some (if a then 1 else 0)
  | .int a, b => number b == some (a : Rat)
  | .float a, b => number b == some a
  | _, _ => false

/-- `==` of lists -/
def pyEqItems : List Json → List Json → Bool
  | [], [] => true
  | x :: xs, y :: ys => pyEq x y && pyEqItems xs ys
  | _, _ => false

/-- Every member of the first object is in the second one. -/
def pyEqMembers : List (String × Json) → List (String × Json) → Bool
  | [], _ => true
  | (k, x) :: xs, ys =>
    (match member ys k with
      | some y => pyEq x y
      | none => false) && pyEqMembers xs ys

end

mutual

/-- `a < b`, or `TypeError`. -/
def pyLt : Json → Json → Option Bool
  | .arr xs, .arr ys => pyLtItems xs ys
  | .str s, .str t => some (s < t)
  | .bool a, b => (number b).map fun q => decide ((if a then (1 : Rat) else 0) < q)
  | .int a, b => (number b).map fun q => decide ((a : Rat) < q)
  | .float a, b => (number b).map fun q => decide (a < q)
  | _, _ => none

/-- `<` of lists: the first items that differ decide. -/
def pyLtItems : List Json → List Json → Option Bool
  | [], ys => some (!ys.isEmpty)
  | _ :: _, [] => some false
  | x :: xs, y :: ys => if pyEq x y then pyLtItems xs ys else pyLt x y

end

/-- `d.get(key)`, which is `None` for a key that is not there. -/
def getOrNull (members : List (String × Json)) (key : String) : Json :=
  (member members key).getD .null

/-- `{**state, **changed}` -/
def merge (state changed : List (String × Json)) : List (String × Json) :=
  state.map (fun m => (m.1, (member changed m.1).getD m.2)) ++
    changed.filter fun m => (member state m.1).isNone

/-- The fields of a patch whose value the state does not have already. -/
def changes (state patch : List (String × Json)) : List (String × Json) :=
  patch.filter fun m => !pyEq (getOrNull state m.1) m.2

example : pyEq (.bool true) (.float 1) = true := by decide
example : changes [("on", .bool true)] [("on", .bool true), ("brightness", .int 40)] =
    [("brightness", .int 40)] := rfl

/-! ### Members of objects -/

theorem member_append (xs ys : List (String × Json)) (k : String) :
    member (xs ++ ys) k = (member xs k).or (member ys k) := by
  unfold member
  rw [List.find?_append]
  cases xs.find? (fun m => m.1 = k) <;> rfl

theorem member_eq_none {members : List (String × Json)} {k : String} :
    member members k = none ↔ k ∉ members.map Prod.fst := by
  unfold member
  rw [Option.map_eq_none_iff, List.find?_eq_none, List.mem_map]
  constructor
  · intro h ⟨m, hm, hk⟩
    exact h m hm (by simpa using hk)
  · intro h m hm hk
    exact h ⟨m, hm, by simpa using hk⟩

theorem mem_of_member {members : List (String × Json)} {k : String} {v : Json}
    (h : member members k = some v) : (k, v) ∈ members := by
  unfold member at h
  obtain ⟨m, hm, rfl⟩ := Option.map_eq_some_iff.mp h
  have hk : m.1 = k := by simpa using List.find?_some hm
  rw [← hk]
  exact List.mem_of_find?_eq_some hm

/-- The members of a decoded object are found under their keys. -/
theorem member_of_mem {members : List (String × Json)} (hn : (members.map Prod.fst).Nodup)
    {m : String × Json} (h : m ∈ members) : member members m.1 = some m.2 := by
  cases hv : member members m.1 with
  | none => exact absurd (List.mem_map_of_mem h) (member_eq_none.mp hv)
  | some v =>
      have heq := List.inj_on_of_nodup_map hn h (mem_of_member hv) rfl
      rw [heq]

theorem member_map (members : List (String × Json)) (f : String → Json → Json) (k : String) :
    member (members.map fun m => (m.1, f m.1 m.2)) k = (member members k).map (f k) := by
  induction members with
  | nil => rfl
  | cons m rest ih =>
      unfold member at ih ⊢
      by_cases hk : m.1 = k
      · rw [List.map_cons, List.find?_cons_of_pos (by simpa using hk),
          List.find?_cons_of_pos (by simpa using hk), Option.map_some, Option.map_some,
          Option.map_some, hk]
      · rw [List.map_cons, List.find?_cons_of_neg (by simpa using hk),
          List.find?_cons_of_neg (by simpa using hk)]
        exact ih

end KzHome.Json

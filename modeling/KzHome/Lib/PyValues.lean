import KzHome.Lib.Doubles
import KzHome.Lib.JsonGrammar

/-!
# KzHome.Lib.PyValues

What `json.loads` returns, and Python's `==` on it.

An object is a `dict`: of members with one name the last one counts. A float is the double nearest
to what is written, and numbers are compared by value, whatever they are written as. `NaN` is
equal to itself here: the reader returns one object for it, and containers look at the identity of
their items first.

**What is read twice from one text is equal** (`pyEq_refl`).
-/

namespace PyValues

open Doubles
open JsonGrammar

/-! ### Texts -/

/-- The code points of a text. -/
def points (s : String) : List Nat := s.toList.map Char.toNat

/-- A strict `str`: code points that are characters. -/
def text? (s : List Nat) : Option String :=
  if s.all fun n => decide n.isValidChar then some (String.ofList (s.map Char.ofNat)) else none

theorem toNat_ofNat {n : Nat} (h : n.isValidChar) : (Char.ofNat n).toNat = n := by
  rw [Char.ofNat, dif_pos h]
  rfl

theorem text?_eq_some {s : List Nat} {t : String} : text? s = some t ↔ s = points t := by
  unfold text?
  constructor
  · intro h
    split at h
    · rename_i hvalid
      cases h
      rw [List.all_eq_true] at hvalid
      rw [points, String.toList_ofList, List.map_map]
      calc s = s.map id := (List.map_id s).symm
        _ = s.map (Char.toNat ∘ Char.ofNat) := List.map_congr_left fun n hn =>
          (toNat_ofNat (of_decide_eq_true (hvalid n hn))).symm
    · cases h
  · rintro rfl
    have hvalid : (points t).all (fun n => decide n.isValidChar) = true := by
      rw [List.all_eq_true]
      intro n hn
      obtain ⟨c, -, rfl⟩ := List.mem_map.mp hn
      exact decide_eq_true c.valid
    rw [if_pos hvalid, points, List.map_map]
    have hid : Char.ofNat ∘ Char.toNat = id := funext fun c => by simp
    rw [hid, List.map_id, String.ofList_toList]

theorem fromUTF8?_eq_some {payload : ByteArray} {text : String} :
    String.fromUTF8? payload = some text ↔ payload = text.toUTF8 := by
  unfold String.fromUTF8?
  constructor
  · intro h
    split at h
    · cases h
      rfl
    · cases h
  · rintro rfl
    rw [String.toUTF8_eq_toByteArray, dif_pos text.isValidUTF8]
    rfl

/-- A text is at most four bytes for each character. -/
theorem utf8_size (cs : List Char) : (String.ofList cs).toUTF8.size ≤ 4 * cs.length := by
  rw [String.toUTF8_eq_toByteArray, String.toByteArray_ofList]
  induction cs with
  | nil => simp
  | cons c cs ih =>
      have hchar : (String.utf8EncodeChar c).length ≤ 4 := by
        fun_cases String.utf8EncodeChar c with
        | case1 => simp
        | case2 => simp
        | case3 => simp
        | case4 => simp
      rw [List.utf8Encode_cons, ByteArray.size_append, List.utf8Encode_singleton,
        List.size_toByteArray, List.length_cons]
      omega

/-! ### Numbers -/

/-- What the text of a number says. -/
def decimal (text : List Char) : ℚ :=
  let negative := text.head? = some '-'
  let text := if negative then text.tail else text
  let digits := text.takeWhile isDigit
  let (places, rest) := match text.dropWhile isDigit with
    | '.' :: rest => (rest.takeWhile isDigit, rest.dropWhile isDigit)
    | rest => ([], rest)
  let exponent : Int := match rest with
    | _ :: '-' :: ds => -(natOf ds : Int)
    | _ :: '+' :: ds => natOf ds
    | _ :: ds => natOf ds
    | [] => 0
  (if negative then -1 else 1) * natOf (digits ++ places) * 10 ^ (exponent - places.length)

/-- `float(text)` -/
def float (text : List Char) : Double := nearest (decimal text)

/-- The number that a value is compared as. -/
def number : Value → Option Double
  | .bool b => some (.finite (if b then 1 else 0))
  | .int n => some (.finite n)
  | .float text => some (float text)
  | .constant .nan => some .nan
  | .constant .infinity => some (.inf false)
  | .constant .negInfinity => some (.inf true)
  | _ => none

/-! ### Dicts -/

/-- `d[key] = v` of the members of an object. -/
def assign (d : List (List Nat × Value)) (m : List Nat × Value) : List (List Nat × Value) :=
  if m.1 ∈ d.map Prod.fst then d.map fun e => if e.1 = m.1 then m else e else d ++ [m]

mutual

/-- What `json.loads` makes of a value. -/
def loads : Value → Value
  | .arr items => .arr (loadsItems items)
  | .obj members => .obj ((loadsMembers members).foldl assign [])
  | v => v

def loadsItems : List Value → List Value
  | [] => []
  | v :: vs => loads v :: loadsItems vs

def loadsMembers : List (List Nat × Value) → List (List Nat × Value)
  | [] => []
  | (k, v) :: ms => (k, loads v) :: loadsMembers ms

end

mutual

/-- No object names a member twice. -/
def Distinct : Value → Prop
  | .arr items => DistinctItems items
  | .obj members => (members.map Prod.fst).Nodup ∧ DistinctMembers members
  | _ => True

def DistinctItems : List Value → Prop
  | [] => True
  | v :: vs => Distinct v ∧ DistinctItems vs

def DistinctMembers : List (List Nat × Value) → Prop
  | [] => True
  | (_, v) :: ms => Distinct v ∧ DistinctMembers ms

end

/-- `members.get(key)` -/
def lookup (members : List (List Nat × Value)) (key : List Nat) : Option Value :=
  (members.find? fun m => m.1 = key).map Prod.snd

mutual

/-- `a == b` -/
def pyEq : Value → Value → Bool
  | .null, .null => true
  | .str s, .str t => s = t
  | .arr xs, .arr ys => pyEqItems xs ys
  | .obj xs, .obj ys => xs.length = ys.length && pyEqMembers xs ys
  | .bool b, w => number w = number (.bool b)
  | .int n, w => number w = number (.int n)
  | .float text, w => number w = number (.float text)
  | .constant c, w => number w = number (.constant c)
  | _, _ => false

/-- `==` of lists -/
def pyEqItems : List Value → List Value → Bool
  | [], [] => true
  | x :: xs, y :: ys => pyEq x y && pyEqItems xs ys
  | _, _ => false

/-- Every member of the first object is in the second one. -/
def pyEqMembers : List (List Nat × Value) → List (List Nat × Value) → Bool
  | [], _ => true
  | (k, x) :: xs, ys =>
    (match lookup ys k with
      | some y => pyEq x y
      | none => false) && pyEqMembers xs ys

end

/-! ### Equality of what is read twice -/

theorem distinctMembers_iff {ms : List (List Nat × Value)} :
    DistinctMembers ms ↔ ∀ m ∈ ms, Distinct m.2 := by
  induction ms with
  | nil => simp [DistinctMembers]
  | cons m ms ih => simp [DistinctMembers, ih]

theorem assign_keys (d : List (List Nat × Value)) (m : List Nat × Value) :
    (assign d m).map Prod.fst =
      if m.1 ∈ d.map Prod.fst then d.map Prod.fst else d.map Prod.fst ++ [m.1] := by
  unfold assign
  split
  · rw [List.map_map]
    refine List.map_congr_left fun e _ => ?_
    rw [Function.comp]
    split
    · rename_i h
      exact h.symm
    · rfl
  · simp

theorem assign_mem {d : List (List Nat × Value)} {m e : List Nat × Value} (h : e ∈ assign d m) :
    e = m ∨ e ∈ d := by
  unfold assign at h
  split at h
  · obtain ⟨e', he', rfl⟩ := List.mem_map.mp h
    split
    · exact .inl rfl
    · exact .inr he'
  · rcases List.mem_append.mp h with h | h
    · exact .inr h
    · exact .inl (List.mem_singleton.mp h)

/-- Assignments keep the names distinct, and add nothing but what is assigned. -/
theorem foldl_assign {ms d : List (List Nat × Value)} (hd : (d.map Prod.fst).Nodup) :
    ((ms.foldl assign d).map Prod.fst).Nodup ∧ ∀ e ∈ ms.foldl assign d, e ∈ ms ∨ e ∈ d := by
  induction ms generalizing d with
  | nil => exact ⟨hd, fun e he => .inr he⟩
  | cons m ms ih =>
      have hkeys : ((assign d m).map Prod.fst).Nodup := by
        rw [assign_keys]
        split
        · exact hd
        · rename_i hnew
          rw [List.nodup_append]
          refine ⟨hd, by simp, ?_⟩
          intro a ha b hb hab
          rw [List.mem_singleton] at hb
          exact hnew (hb ▸ hab ▸ ha)
      obtain ⟨hnodup, hmem⟩ := ih hkeys
      refine ⟨hnodup, fun e he => ?_⟩
      rcases hmem e he with he | he
      · exact .inl (List.mem_cons_of_mem m he)
      · rcases assign_mem he with rfl | he
        · exact .inl List.mem_cons_self
        · exact .inr he

mutual

theorem loads_distinct : ∀ v : Value, Distinct (loads v)
  | .null => trivial
  | .bool _ => trivial
  | .int _ => trivial
  | .float _ => trivial
  | .constant _ => trivial
  | .str _ => trivial
  | .arr items => by
      rw [loads, Distinct]
      exact loadsItems_distinct items
  | .obj members => by
      rw [loads, Distinct]
      obtain ⟨hnodup, hmem⟩ := @foldl_assign (loadsMembers members) [] List.nodup_nil
      refine ⟨hnodup, distinctMembers_iff.mpr fun m hm => ?_⟩
      rcases hmem m hm with hm | hm
      · exact distinctMembers_iff.mp (loadsMembers_distinct members) m hm
      · cases hm

theorem loadsItems_distinct : ∀ items : List Value, DistinctItems (loadsItems items)
  | [] => trivial
  | v :: vs => ⟨loads_distinct v, loadsItems_distinct vs⟩

theorem loadsMembers_distinct : ∀ ms : List (List Nat × Value), DistinctMembers (loadsMembers ms)
  | [] => trivial
  | (_, v) :: ms => ⟨loads_distinct v, loadsMembers_distinct ms⟩

end

/-- New names are put at the end. -/
theorem foldl_assign_append {ms d : List (List Nat × Value)}
    (h : ((d ++ ms).map Prod.fst).Nodup) : ms.foldl assign d = d ++ ms := by
  induction ms generalizing d with
  | nil => rw [List.foldl_nil, List.append_nil]
  | cons m ms ih =>
      have hnew : m.1 ∉ d.map Prod.fst := by
        rw [List.map_append, List.map_cons] at h
        exact fun hmem => (List.nodup_append.mp h).2.2 _ hmem _ List.mem_cons_self rfl
      have hassign : assign d m = d ++ [m] := if_neg hnew
      rw [List.foldl_cons, hassign, ih (by rwa [List.append_assoc]), List.append_assoc]
      rfl

mutual

/-- **A value whose objects name no member twice is read as it is.** -/
theorem loads_of_distinct : ∀ v : Value, Distinct v → loads v = v
  | .null, _ => rfl
  | .bool _, _ => rfl
  | .int _, _ => rfl
  | .float _, _ => rfl
  | .constant _, _ => rfl
  | .str _, _ => rfl
  | .arr items, h => by rw [loads, loadsItems_of_distinct items h]
  | .obj members, h => by
      rw [loads, loadsMembers_of_distinct members h.2, foldl_assign_append (d := []) h.1,
        List.nil_append]

theorem loadsItems_of_distinct : ∀ items : List Value, DistinctItems items → loadsItems items = items
  | [], _ => rfl
  | v :: vs, h => by rw [loadsItems, loads_of_distinct v h.1, loadsItems_of_distinct vs h.2]

theorem loadsMembers_of_distinct :
    ∀ ms : List (List Nat × Value), DistinctMembers ms → loadsMembers ms = ms
  | [], _ => rfl
  | (_, v) :: ms, h => by
      rw [loadsMembers, loads_of_distinct v h.1, loadsMembers_of_distinct ms h.2]

end

theorem lookup_of_mem {ms : List (List Nat × Value)} (hnodup : (ms.map Prod.fst).Nodup)
    {m : List Nat × Value} (hm : m ∈ ms) : lookup ms m.1 = some m.2 := by
  induction ms with
  | nil => cases hm
  | cons e ms ih =>
      rw [List.map_cons, List.nodup_cons] at hnodup
      rcases List.mem_cons.mp hm with rfl | hm
      · simp [lookup]
      · have hne : e.1 ≠ m.1 := fun heq => hnodup.1 (heq ▸ List.mem_map_of_mem hm)
        have htail := ih hnodup.2 hm
        rw [lookup] at htail ⊢
        rw [List.find?_cons_of_neg (by simpa using hne)]
        exact htail

mutual

/-- **A value is equal to itself.** -/
theorem pyEq_refl : ∀ v : Value, Distinct v → pyEq v v = true
  | .null, _ => rfl
  | .bool _, _ => by simp [pyEq]
  | .int _, _ => by simp [pyEq]
  | .float _, _ => by simp [pyEq]
  | .constant _, _ => by simp [pyEq]
  | .str _, _ => by simp [pyEq]
  | .arr items, h => by
      rw [pyEq]
      exact pyEqItems_refl items h
  | .obj members, h => by
      rw [pyEq, Bool.and_eq_true]
      exact ⟨by simp, pyEqMembers_self members h.2 fun m hm => lookup_of_mem h.1 hm⟩

theorem pyEqItems_refl : ∀ items : List Value, DistinctItems items → pyEqItems items items = true
  | [], _ => rfl
  | v :: vs, h => by
      rw [pyEqItems, Bool.and_eq_true]
      exact ⟨pyEq_refl v h.1, pyEqItems_refl vs h.2⟩

theorem pyEqMembers_self : ∀ (ms : List (List Nat × Value)) {ys : List (List Nat × Value)},
    DistinctMembers ms → (∀ m ∈ ms, lookup ys m.1 = some m.2) → pyEqMembers ms ys = true
  | [], _, _, _ => rfl
  | (k, x) :: ms, ys, h, hys => by
      have hk : lookup ys k = some x := hys (k, x) List.mem_cons_self
      rw [pyEqMembers, hk, Bool.and_eq_true]
      exact ⟨pyEq_refl x h.1, pyEqMembers_self ms h.2 fun m hm => hys m (List.mem_cons_of_mem _ hm)⟩

end

end PyValues

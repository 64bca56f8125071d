import KzHome.Bindings
import Mathlib

/-!
# KzHome.Boundaries

Writes and the house that their user was authorized in.

A route authorizes its user in the house in which it finds the place, and then calls a
service that looks for the place again: the guard compares only its own two readings.
A place that is moved between the authorization and the guard is changed in a house that
nobody has asked about. Once the guard has found the place, its house is held to the
commit; a submission holds the row of the device only, so its room or floor can still be
moved (`inside_iff`).
-/

namespace KzHome

namespace Structure

open Session Sql

/-- At its commit, a change is made in a house in which its user holds the permission of the
route. -/
def Inside (members : Tables) (e : Entry Tables HomeNote String) : Prop :=
  match e.note with
  | .claimed _ _ => True
  | .changed place permission _ => ∃ house, e.db.structureHouse? place = some house ∧
      members.permits e.owner house permission = true
  | .submitted device _ => ∃ house, e.db.structureHouse? (.device device) = some house ∧
      members.permits e.owner house .deviceControl = true

/-- The guard has found the place in a house in which the user holds the permission; a device
with a new command has not been moved since, except to another such house. -/
def Entitled (members : Tables) (e : Entry Tables HomeNote String) : Prop :=
  match e.note with
  | .claimed _ _ => True
  | .changed place permission found => ∃ house, found.structureHouse? place = some house ∧
      members.permits e.owner house permission = true
  | .submitted device home => ∃ house, e.db.structureHouse? (.device device) = some house ∧
      (house ≠ home → members.permits e.owner house .deviceControl = true)

variable {db : Tables}

theorem inside_iff_entitled {t : Tables} {e : Entry Tables HomeNote String}
    (h : Truthful db t e) : Inside db e ↔ Entitled db e := by
  obtain ⟨s, owner, seen, note⟩ := e
  cases note with
  | claimed device house => exact Iff.rfl
  | changed place permission found =>
      -- the guard's house is the house at the commit
      obtain ⟨house, hfound, hseen⟩ := h
      constructor
      · rintro ⟨house', hhouse', hpermits⟩
        obtain rfl := Option.some.inj (hseen.symm.trans hhouse')
        exact ⟨house, hfound, hpermits⟩
      · rintro ⟨house', hhouse', hpermits⟩
        obtain rfl := Option.some.inj (hfound.symm.trans hhouse')
        exact ⟨house, hseen, hpermits⟩
  | submitted device home =>
      constructor
      · rintro ⟨house, hhouse, hpermits⟩
        exact ⟨house, hhouse, fun _ => hpermits⟩
      · rintro ⟨house, hhouse, hpermits⟩
        refine ⟨house, hhouse, ?_⟩
        by_cases hhome : house = home
        · rw [hhome]
          exact h
        · exact hpermits hhome

/-- **Writes stay inside** of houses in which their users hold the permission, throughout a run,
if and only if every guard of the run has found its place in such a house, and no device
has been moved out of them under a submission. -/
theorem inside_iff (h : ForeignKeys db)
    (labels : List (Session.Label String HomeRequest String (Outside Tables))) :
    (∀ e ∈ (after db labels).trace, Inside db e) ↔
      ∀ e ∈ (after db labels).trace, Entitled db e := by
  have htrue := run_truthful h labels
  constructor
  · intro hinside e he
    exact (inside_iff_entitled (htrue e he)).mp (hinside e he)
  · intro hentitled e he
    exact (inside_iff_entitled (htrue e he)).mpr (hentitled e he)

/-- A house with a lamp, and a shop. Ann owns both, Bea is a technician in the house. -/
def twoHouses : Tables where
  houses := .ofList [("home", ⟨"Home"⟩), ("shop", ⟨"Shop"⟩)]
  floors := .ofList [("ground", ⟨"home", "Ground", 0⟩), ("counter", ⟨"shop", "Counter", 0⟩)]
  rooms := .ofList [("kitchen", ⟨"ground", "Kitchen", none⟩), ("store", ⟨"counter", "Store", none⟩)]
  devices := .ofList [("lamp", ⟨"Lamp", "kitchen", "light", [], ["on_off"], [], true⟩)]
  physical := .empty
  memberships := .ofList [("m1", ⟨"ann", "home", .owner⟩), ("m2", ⟨"ann", "shop", .owner⟩),
    ("m3", ⟨"bea", "home", .technician⟩)]
  users := .ofList [("ann", ⟨true⟩), ("bea", ⟨true⟩)]
  scenes := .empty
  automations := .empty
  attempts := .empty
  ledger := ⟨[], []⟩
  issued := ["m1", "m2", "m3"]

/-- Bea is authorized to delete the lamp; Ann moves it to the shop; the deletion goes on. -/
def overtaken : List (Session.Label String HomeRequest String (Outside Tables)) :=
  .start "bea" (.deleteDevice "lamp") :: List.replicate 3 (.exec 0 "") ++
    .start "ann" (.updateDevice "lamp" ⟨none, some "store", none, none, none, none, none⟩
      ["room_id"]) :: List.replicate 17 (.exec 1 "") ++
    List.replicate 6 (.exec 0 "")

theorem twoHouses_keys : ForeignKeys twoHouses where
  bound id row hrow := by cases hrow
  floors id row hrow := by
    rcases List.mem_cons.mp (Dict.get?_eq_some.mp hrow) with h | h
    · obtain rfl : row = _ := (Prod.mk.inj h).2
      rfl
    · obtain rfl : row = _ := (Prod.mk.inj (List.mem_singleton.mp h)).2
      rfl

/-- Bea deletes the lamp in the shop, where she is no member. -/
theorem overtaken_outside :
    ForeignKeys twoHouses ∧ twoHouses.forHouse "bea" "shop" = none ∧
      ¬ ∀ e ∈ (after twoHouses overtaken).trace, Inside twoHouses e := by
  refine ⟨twoHouses_keys, by rfl, fun h => ?_⟩
  have hnote : ∃ e ∈ (after twoHouses overtaken).trace, e.owner = "bea" ∧
      e.db.structureHouse? (.device "lamp") = some "shop" ∧
        ∃ found, e.note = .changed (.device "lamp") .deviceManage found :=
    ⟨_, List.mem_cons_self, rfl, rfl, _, rfl⟩
  obtain ⟨e, he, howner, hhouse, found, hnote⟩ := hnote
  have hinside := h e he
  unfold Inside at hinside
  rw [hnote] at hinside
  obtain ⟨house, hhouse', hpermits⟩ := hinside
  obtain rfl := Option.some.inj (hhouse.symm.trans hhouse')
  rw [howner] at hpermits
  exact absurd hpermits (by decide)

theorem inside_iff_twoHouses :
    (∀ e ∈ (after twoHouses overtaken).trace, Inside twoHouses e) ↔
      ∀ e ∈ (after twoHouses overtaken).trace, Entitled twoHouses e :=
  inside_iff twoHouses_keys overtaken

end Structure

end KzHome

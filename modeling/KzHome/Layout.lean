import KzHome.Lib.Forest

/-!
# KzHome.Layout

The structure of houses, and what may happen to it: an abstract model.

A `Layout` is a forest with houses as its roots and floors, rooms and devices below them,
together with the houses that physical devices are bound to. `Layout.Change` lists what
one transaction may do while it holds the locks of some houses: it moves a place only
between locked houses, and out of its house only if no bound device is in it, it
removes places of locked houses only, and it binds a new device only in a locked house.

Two things follow for any such transaction. A device that is bound where it stands
stays bound there (`Change.anchored`); and what is in a house whose lock it does not
hold stays in it, with no new binding below it (`Change.under`, `Change.vacant`).
-/

namespace KzHome

open Forest

/-- A house, a floor, a room or a device. -/
inductive Place
  | house (id : String)
  | floor (id : String)
  | room (id : String)
  | device (id : String)
  deriving DecidableEq, Repr

/-- The level of a place. -/
def Place.rank : Place → Nat
  | .house _ => 0
  | .floor _ => 1
  | .room _ => 2
  | .device _ => 3

theorem room_rank_lt (room device : String) :
    (Place.room room).rank < (Place.device device).rank := Nat.lt_succ_self 2

/-- What is in what, and which devices are bound to which house. -/
structure Layout where
  up : Place → Option Place
  descends : ∀ x y, up x = some y → y.rank < x.rank
  bound : String → Option String

namespace Layout

variable {L L' : Layout}

theorem ext' (hup : L.up = L'.up) (hbound : L.bound = L'.bound) : L = L' := by
  obtain ⟨up, _, bound⟩ := L
  obtain ⟨up', _, bound'⟩ := L'
  obtain rfl : up = up' := hup
  obtain rfl : bound = bound' := hbound
  rfl

theorem up_house (L : Layout) (h : String) : L.up (.house h) = none := by
  cases hup : L.up (.house h) with
  | none => rfl
  | some y => exact absurd (L.descends _ _ hup) (Nat.not_lt_zero _)

/-- A place is in a house. -/
def In (L : Layout) (x : Place) (house : String) : Prop := Under L.up x (.house house)

theorem In.unique {x : Place} {h h' : String} (hx : L.In x h) (hx' : L.In x h') : h = h' :=
  Place.house.inj (Under.root_unique hx hx' (L.up_house h) (L.up_house h'))

/-- What is below a place is in no other house. -/
theorem In.of_under {x y : Place} {h h' : String} (hx : L.In x h) (hxy : Under L.up x y)
    (hy : L.In y h') : h = h' :=
  hx.unique (hxy.trans hy)

/-- No bound device is at or below a place. -/
def Vacant (L : Layout) (x : Place) : Prop :=
  ∀ device house, L.bound device = some house → ¬ Under L.up (.device device) x

/-- A device is bound to the house that it is in. -/
def Anchored (L : Layout) (device house : String) : Prop :=
  L.bound device = some house ∧ L.In (.device device) house

/-- What is bound is there. -/
def Attached (L : Layout) : Prop :=
  ∀ device house, L.bound device = some house → L.up (.device device) ≠ none

/-- **What one transaction may do** while it holds the houses that satisfy `holds`. -/
inductive Change (holds : String → Prop) (L L' : Layout) : Prop
  /-- Nothing in the structure. -/
  | none (h : L' = L)
  /-- A place is moved. -/
  | move (n p : Place) (source target : String) (hrank : p.rank < n.rank) (hn : L.up n ≠ none)
      (hsource : L.In n source) (hs : holds source) (htarget : L.In p target) (ht : holds target)
      (hout : source = target ∨ L.Vacant n)
      (hup : L'.up = Function.update L.up n (some p)) (hbound : L'.bound = L.bound)
  /-- Places are removed with all that is below them. -/
  | remove (removed : Place → Bool)
      (hclosed : ∀ a b, L.up a = some b → removed b = true → removed a = true)
      (hheld : ∀ x, removed x = true → ∀ house, L.In x house → holds house)
      (hvacant : ∀ device house, L.bound device = some house → removed (.device device) = false)
      (hup : L'.up = prune L.up removed) (hbound : L'.bound = L.bound)
  /-- A device is added. -/
  | add (device room : String) (hnew : L.up (.device device) = Option.none)
      (hup : L'.up = Function.update L.up (.device device) (some (.room room)))
      (hbound : L'.bound = L.bound)
  /-- A device is added and bound to the house of its room. -/
  | bind (device room house : String) (hnew : L.up (.device device) = Option.none)
      (hfree : L.bound device = Option.none) (hroom : L.In (.room room) house) (hh : holds house)
      (hup : L'.up = Function.update L.up (.device device) (some (.room room)))
      (hbound : L'.bound = Function.update L.bound device (some house))

namespace Change

variable {holds : String → Prop}

/-! ### What is in a house -/

/-- A place that is not there is above nothing else. -/
theorem not_under_absent {x n : Place} {h : String} (hx : L.In x h) (hn : L.up n = Option.none)
    (hne : n ≠ .house h) : ¬ Under L.up x n := fun hxn =>
  hne (Under.root_unique hxn hx hn (L.up_house h))

theorem device_ne_house (device house : String) : Place.device device ≠ Place.house house :=
  fun h => by cases h

/-- Nothing new is below a place of lower rank. -/
theorem not_under_of_rank {p n : Place} (h : p.rank < n.rank) : ¬ Under L.up p n := fun hpn =>
  absurd (hpn.rank_le L.descends) (Nat.not_le_of_lt h)

/-- **What is in a house that is not held stays in it.** -/
theorem under (hc : Change holds L L') {x : Place} {h : String} (hx : L.In x h)
    (hfree : ¬ holds h) : L'.In x h := by
  cases hc with
  | none heq => exact heq ▸ hx
  | move n p source target hrank hn hsource hs htarget ht hout hup hbound =>
      rw [In, hup]
      refine under_update_of_not _ (fun hxn => hfree ?_) hx
      rwa [hx.of_under hxn hsource]
  | remove removed hclosed hheld hvacant hup hbound =>
      rw [In, hup]
      refine under_prune (fun z hz => ?_) hx
      cases hr : removed z with
      | false => rfl
      | true =>
          rcases hx.linear hz with hhz | hzh
          · -- above the house is nothing
            rw [hhz.eq_of_root (L.up_house h)] at hr
            exact absurd (hheld _ hr h (Under.refl _ _)) hfree
          · exact absurd (hheld z hr h hzh) hfree
  | add device room hnew hup hbound =>
      rw [In, hup]
      exact under_update_of_not _ (not_under_absent hx hnew (device_ne_house _ _)) hx
  | bind device room house hnew hfresh hroom hh hup hbound =>
      rw [In, hup]
      exact under_update_of_not _ (not_under_absent hx hnew (device_ne_house _ _)) hx

/-- **Below what is in a house that is not held, nothing is bound.** -/
theorem vacant (hc : Change holds L L') (hL : L.Attached) {x : Place} {h : String} (hx : L.In x h)
    (hfree : ¬ holds h) (hv : L.Vacant x) : L'.Vacant x := by
  -- a device that is added is not yet below anything
  have hadd : ∀ d room, L.up (.device d) = Option.none → ∀ device house,
      L.bound device = some house →
        ¬ Under (Function.update L.up (.device d) (some (.room room))) (.device device) x := by
    intro d room hnew device house hd hunder
    rcases under_of_update (not_under_of_rank (room_rank_lt _ _)) hunder with
      hunder | ⟨hunder, -⟩
    · exact hv device house hd hunder
    · have hsame := hunder.eq_of_rank L.descends rfl
      exact hL device house hd (hsame ▸ hnew)
  intro device house hd hunder
  cases hc with
  | none heq => exact hv device house (heq ▸ hd) (heq ▸ hunder)
  | move n p source target hrank hn hsource hs htarget ht hout hup hbound =>
      rw [hbound] at hd
      rw [hup] at hunder
      rcases under_of_update (not_under_of_rank hrank) hunder with hunder | ⟨-, hpx⟩
      · exact hv device house hd hunder
      · -- then the target house is the one of the place
        exact hfree (by rwa [← htarget.of_under hpx hx])
  | remove removed hclosed hheld hvacant hup hbound =>
      rw [hbound] at hd
      rw [hup] at hunder
      exact hv device house hd (under_of_prune hunder)
  | add d room hnew hup hbound =>
      rw [hbound] at hd
      rw [hup] at hunder
      exact hadd d room hnew device house hd hunder
  | bind d room house' hnew hfresh hroom hh hup hbound =>
      rw [hup] at hunder
      rw [hbound] at hd
      by_cases hdd : device = d
      · subst hdd
        rcases under_of_update (not_under_of_rank (room_rank_lt _ _)) hunder
          with hself | ⟨-, hroomx⟩
        · rw [hself.eq_of_root hnew] at hx
          exact device_ne_house _ _ (hx.eq_of_root hnew).symm
        · exact hfree (by rwa [← hroom.of_under hroomx hx])
      · rw [Function.update_of_ne hdd] at hd
        exact hadd d room hnew device house hd hunder

/-! ### Bindings -/

/-- What is bound is there, also afterwards. -/
theorem attached (hc : Change holds L L') (hL : L.Attached) : L'.Attached := by
  intro device house hd
  cases hc with
  | none heq => exact heq ▸ hL device house (heq ▸ hd)
  | move n p source target hrank hn hsource hs htarget ht hout hup hbound =>
      rw [hbound] at hd
      rw [hup]
      by_cases hdn : Place.device device = n
      · rw [hdn, Function.update_self]
        exact Option.some_ne_none p
      · rw [Function.update_of_ne hdn]
        exact hL device house hd
  | remove removed hclosed hheld hvacant hup hbound =>
      rw [hbound] at hd
      rw [hup, prune, if_neg (by simp [hvacant device house hd])]
      exact hL device house hd
  | add d room hnew hup hbound =>
      rw [hbound] at hd
      rw [hup]
      by_cases hdd : Place.device device = .device d
      · exact absurd (hdd ▸ hnew) (hL device house hd)
      · rw [Function.update_of_ne hdd]
        exact hL device house hd
  | bind d room house' hnew hfresh hroom hh hup hbound =>
      rw [hbound] at hd
      rw [hup]
      by_cases hdd : device = d
      · rw [hdd, Function.update_self]
        exact Option.some_ne_none _
      · rw [Function.update_of_ne hdd] at hd
        rw [Function.update_of_ne (fun heq => hdd (Place.device.inj heq))]
        exact hL device house hd

/-- **A device that is bound where it stands stays bound there.** -/
theorem anchored (hc : Change holds L L') {device house : String} (ha : L.Anchored device house) :
    L'.Anchored device house := by
  obtain ⟨hd, hin⟩ := ha
  cases hc with
  | none heq => exact heq ▸ ⟨hd, hin⟩
  | move n p source target hrank hn hsource hs htarget ht hout hup hbound =>
      refine ⟨hbound ▸ hd, ?_⟩
      rw [In, hup]
      by_cases hunder : Under L.up (.device device) n
      · -- it is bound, so the place it is in has stayed in its house
        have hsame : source = target := hout.resolve_right fun hv => hv device house hd hunder
        obtain rfl : house = target := (hin.of_under hunder hsource).trans hsame
        exact under_update hunder (not_under_of_rank hrank) htarget
      · exact under_update_of_not _ hunder hin
  | remove removed hclosed hheld hvacant hup hbound =>
      refine ⟨hbound ▸ hd, ?_⟩
      rw [In, hup]
      exact under_prune (fun z hz => not_removed_above hclosed (hvacant device house hd) hz) hin
  | add d room hnew hup hbound =>
      refine ⟨hbound ▸ hd, ?_⟩
      rw [In, hup]
      exact under_update_of_not _ (not_under_absent hin hnew (device_ne_house _ _)) hin
  | bind d room house' hnew hfresh hroom hh hup hbound =>
      refine ⟨?_, ?_⟩
      · rw [hbound, Function.update_of_ne (fun heq => ?_)]
        · exact hd
        · rw [heq, hfresh] at hd
          cases hd
      · rw [In, hup]
        exact under_update_of_not _ (not_under_absent hin hnew (device_ne_house _ _)) hin

/-- A device that is bound by a change is bound where it stands. -/
theorem anchored_bind {device room house : String}
    (hroom : L.In (.room room) house)
    (hup : L'.up = Function.update L.up (.device device) (some (.room room)))
    (hbound : L'.bound = Function.update L.bound device (some house)) :
    L'.Anchored device house := by
  refine ⟨by rw [hbound, Function.update_self], ?_⟩
  rw [In, hup]
  exact under_update (Under.refl _ _) (not_under_of_rank (room_rank_lt _ _))
    hroom

end Change

end Layout

end KzHome

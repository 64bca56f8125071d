import KzHome.Lib.SqlRules
import KzHome.Locations

/-!
# KzHome.Guarding

Proof outlines of the requests on the structure.

The protocol: every commit is a `Layout.Change` under the house locks of its session,
and every note is `Truthful`. `structure_mutation` leaves a session with `Settled`
knowledge: it holds the house that the place is in, so no other session can move or
remove the place; and if the place is to leave its house, nothing bound is in it, and
nothing can be bound in it without the lock.
-/

namespace KzHome

namespace Structure

open Session Sql Layout

abbrev Shared := Store Tables TableRow HomeNote String

/-- Session `s` has the row of a house. -/
def Holds (s : Nat) (st : Shared) (house : String) : Prop := st.locks (.house house) = some s

/-- What a note says: a claimed device is bound where it stands, a changed place was where its
guard has found it, and a command was authorized. `members` has the memberships. -/
def Truthful (members db : Tables) (e : Entry Tables HomeNote String) : Prop :=
  match e.note with
  | .claimed device house => db.layout.Anchored device house
  | .changed place _ found => ∃ house, found.structureHouse? place = some house ∧
      e.db.structureHouse? place = some house
  | .submitted _ home => members.permits e.owner home .deviceControl = true

variable (members : Tables)

/-- The rules of the requests. -/
def protocol : Protocol Tables TableRow Statement HomeNote String where
  inv st := st.db.layout.Attached ∧ st.db.Keyed ∧
    (∀ user house m, st.db.forHouse user house = some m → members.forHouse user house = some m) ∧
      ∀ e ∈ st.trace, Truthful members st.db e
  commits s p st writes note := ∀ db, schema.apply st.db writes = .ok db →
    Tables.Step (Holds s st) st.db db ∧
      ∀ n, note = some n → Truthful members db ⟨s, p, st.db, n⟩
  notes _ _ _ _ := False

abbrev contract : Contract Shared String := (protocol members).contract schema undisturbed

abbrev database : Machine (interface Tables TableRow Statement Violation HomeNote) Shared String
    String (Outside Tables) :=
  machine schema undisturbed

variable {members} {s : Nat} {p : String}

/-- A commit leaves the notes of others true. -/
theorem Truthful.step {db db' : Tables} {e : Entry Tables HomeNote String}
    {holds : String → Prop} (h : Truthful members db e) (hs : Tables.Step holds db db') :
    Truthful members db' e := by
  obtain ⟨t, owner, seen, note⟩ := e
  cases note with
  | claimed device house => exact hs.change.anchored h
  | changed place permission found => exact h
  | submitted device home => exact h

theorem keeps (members : Tables) : (protocol members).Keeps schema undisturbed where
  locks _ _ hi := hi
  clock _ _ hi _ := hi
  reading _ hi := hi
  noted _ _ _ _ _ h := h.elim
  committed a s p w n db hi hc hfree hdb := by
    obtain ⟨hattached, hkeyed, hmembers, htrace⟩ := hi
    obtain ⟨hstep, hnote⟩ := hc db hdb
    refine ⟨hstep.change.attached hattached, hstep.keyed hkeyed, ?_, ?_⟩
    · intro user house m hm
      exact hmembers user house m (hstep.members user house m hm)
    · have hold : ∀ e ∈ a.trace, Truthful members db e :=
        fun e he => (htrace e he).step hstep
      cases n with
      | none => exact hold
      | some n =>
          intro e he
          rcases List.mem_cons.mp he with rfl | he
          · exact hnote n rfl
          · exact hold e he
  changed _ _ _ h := by cases h

/-! ### Knowledge -/

/-- The session holds the house that a place is in. -/
def Settled (s : Nat) (place : Place) (house : String) : Shared → Prop :=
  Protocol.Knows s (fun row => row = .house house) fun db => db.layout.In place house

/-- It holds the house, and nothing bound is at or below the place. -/
def Cleared (s : Nat) (place : Place) (house : String) : Shared → Prop :=
  Protocol.Knows s (fun row => row = .house house) fun db =>
    db.layout.In place house ∧ db.layout.Vacant place

theorem Settled.holds {place : Place} {house : String} {st : Shared}
    (h : Settled s place house st) : Holds s st house := h.1 _ rfl

/-- A house that a session holds is held by no other. -/
theorem not_holds {a : Shared} {house : String} {t : Nat} (hne : t ≠ s)
    (hheld : ∀ row, row = TableRow.house house → a.locks row = some s) : ¬ Holds t a house := by
  intro h
  exact hne (Option.some.inj (h.symm.trans (hheld _ rfl)))

theorem stable_settled {place : Place} {house : String} :
    (contract members).Stable s p (Settled s place house) := by
  refine Protocol.stable_knows ?_ fun _ _ _ h => by cases h
  intro a t q w n db hne hi hc _ hdb hheld hin
  exact (hc db hdb).1.change.under hin (not_holds hne hheld)

theorem stable_cleared {place : Place} {house : String} :
    (contract members).Stable s p (Cleared s place house) := by
  refine Protocol.stable_knows ?_ fun _ _ _ h => by cases h
  intro a t q w n db hne hi hc _ hdb hheld hk
  have hchange := (hc db hdb).1.change
  have hfree := not_holds hne hheld
  exact ⟨hchange.under hk.1 hfree, hchange.vacant hi.1 hk.1 hfree hk.2⟩

/-- A house row that was locked, if it is there. -/
theorem stable_house {house : String} :
    (contract members).Stable s p (Protocol.Locked schema s (.house house)) := by
  refine Protocol.stable_locked ?_ fun _ _ _ h => by cases h
  intro a t q w n db hi hc hdb hhas
  exact (hc db hdb).1.houses house hhas

/-- The house of a place is there. -/
theorem house_of_structureHouse? {t : Tables} {place : Place} {house : String} (hkeyed : t.Keyed)
    (h : t.structureHouse? place = some house) : (t.houses.get? house).isSome := by
  have hfloor : ∀ floor, t.floorHouse? floor = some house → (t.houses.get? house).isSome := by
    intro floor hfloor
    obtain ⟨row, hrow, rfl⟩ := Option.map_eq_some_iff.mp hfloor
    exact hkeyed floor row hrow
  have hroom : ∀ room, t.roomHouse? room = some house → (t.houses.get? house).isSome := by
    intro room hroom
    obtain ⟨row, -, hrow⟩ := Option.bind_eq_some_iff.mp hroom
    exact hfloor _ hrow
  cases place with
  | house id =>
      obtain ⟨row, hrow, rfl⟩ := Option.map_eq_some_iff.mp h
      rw [hrow]
      rfl
  | floor id => exact hfloor id h
  | room id => exact hroom id h
  | device id =>
      obtain ⟨row, -, hrow⟩ := Option.bind_eq_some_iff.mp h
      exact hroom _ hrow

/-- A place that is found in a locked house is settled. -/
theorem settled_of_locked {st : Shared} {place : Place} {house : String}
    (hi : (protocol members).inv st) (h : st.db.structureHouse? place = some house)
    (hlocked : Protocol.Locked schema s (.house house) st) : Settled s place house st := by
  refine ⟨fun row hrow => ?_, Tables.in_of_structureHouse? h⟩
  subst hrow
  exact hlocked (house_of_structureHouse? hi.2.1 h)

/-! ### Authorization -/

section

variable {α : Type} {A : Shared → Prop}

theorem outline_deviceHouse (hA : (contract members).Stable s p A) (device : String) :
    (contract members).Outline database s p (deviceHouse device) A
      (Contract.returns fun _ st => A st) := by
  refine Protocol.outline_peek hA fun t => ?_
  split
  · exact fun _ _ h => h
  · refine Protocol.outline_peek hA fun t => ?_
    cases found _ (Tables.deviceHouse? t device) with
    | error e => exact fun _ _ _ => trivial
    | ok house => exact fun _ _ h => h

theorem outline_houseFor (kind : Kind) (id : String) :
    (contract members).Outline database s p (houseFor kind id) (fun _ => True)
      (Contract.returns fun _ _ => True) := by
  cases kind with
  | device => exact outline_deviceHouse (Contract.Stable.const True) id
  | _ =>
      refine Protocol.outline_peek (Contract.Stable.const True) fun t => ?_
      cases Tables.houseFor t _ id <;> exact fun _ _ _ => trivial

/-- `require` makes sure of a membership that carries the permission. -/
theorem outline_require (user house : String) (permission : Permission) :
    (contract members).Outline database s p (require user house permission) (fun _ => True)
      (Contract.returns fun _ _ => members.permits user house permission = true) := by
  refine Protocol.outline_read
    (R := fun t _ => ∀ m, t.forHouse user house = some m → members.forHouse user house = some m)
    (fun _ => Contract.Stable.const _) (fun _ _ _ _ h => by cases h)
    (fun st hi _ => hi.2.2.1 user house) fun t => ?_
  cases hrequire : Tables.require t user house permission with
  | error e => exact fun _ _ _ => trivial
  | ok m =>
      intro st hi hmembers
      obtain ⟨hm, hpermits⟩ := Tables.require_ok hrequire
      show (members.forHouse user house).any _ = true
      rw [hmembers m hm]
      exact hpermits

theorem outline_authorize (user : String) (kind : Kind) (id : String) (permission : Permission) :
    (contract members).Outline database s p (authorize user kind id permission) (fun _ => True)
      (Contract.returns fun house _ => members.permits user house permission = true) := by
  refine (outline_houseFor kind id).seq fun house => ?_
  refine (outline_require user house permission).seq fun _ => ?_
  exact fun _ _ h => h

/-! ### The guard -/

theorem mem_lockOrder {source target house : String} :
    TableRow.house house ∈ lockOrder source target ↔ house = source ∨ house = target := by
  unfold lockOrder
  split
  · rename_i h
    simp [h]
  · split
    · simp
    · simp [or_comm]

theorem lockOrder_houses {source target : String} {row : TableRow}
    (h : row ∈ lockOrder source target) : ∃ house, row = .house house := by
  unfold lockOrder at h
  split at h
  · exact ⟨source, by simpa using h⟩
  · split at h <;> rcases List.mem_cons.mp h with rfl | h
    · exact ⟨_, rfl⟩
    · exact ⟨_, List.mem_singleton.mp h⟩
    · exact ⟨_, rfl⟩
    · exact ⟨_, List.mem_singleton.mp h⟩

/-- What a session knows of a place after the guard: it is settled in the house where it was
found, the target house is locked, and the place is cleared if it is to leave. -/
def Guarded (s : Nat) (place : Place) (target : Option String) (deleting : Bool) (found : Tables)
    (source : String) (st : Shared) : Prop :=
  found.structureHouse? place = some source ∧ Settled s place source st ∧
    Protocol.Locked schema s (.house (target.getD source)) st ∧
      (0 < place.rank → deleting = false → target ≠ none → target ≠ some source →
        Cleared s place source st)

theorem stable_guarded {place : Place} {target : Option String} {deleting : Bool} {found : Tables}
    {source : String} :
    (contract members).Stable s p (Guarded s place target deleting found source) := by
  refine (Contract.Stable.const _).and (stable_settled.and (stable_house.and ?_))
  exact Contract.Stable.forall fun _ => Contract.Stable.forall fun _ =>
    Contract.Stable.forall fun _ => Contract.Stable.forall fun _ => stable_cleared

/-- Another lock keeps what the guard has made sure of. -/
theorem Guarded.take {place : Place} {target : Option String} {deleting : Bool} {found : Tables}
    {source : String} {st : Shared} (h : Guarded s place target deleting found source st)
    (row : TableRow) : Guarded s place target deleting found source (st.take schema s row) := by
  obtain ⟨hfound, hsettled, hlocked, hcleared⟩ := h
  refine ⟨hfound, Protocol.Knows.take hsettled schema row, hlocked.take row, ?_⟩
  intro hrank hdeleting hnone hsource
  exact Protocol.Knows.take (hcleared hrank hdeleting hnone hsource) schema row

/-- **`structure_mutation`** -/
theorem outline_structureMutation (place : Place) (target : Option String) (deleting : Bool) :
    (contract members).Outline database s p (structureMutation place target deleting)
      (fun _ => True)
      (Contract.returns fun found st => ∃ source, Guarded s place target deleting found source st) := by
  refine Protocol.outline_peek (Contract.Stable.const True) fun t => ?_
  refine Protocol.outline_lift fun source hsource => ?_
  refine Protocol.outline_lockAll (A := fun _ => True) ?_ (Contract.Stable.const True)
    (fun _ _ _ => trivial) ?_
  · intro row hrow
    obtain ⟨house, rfl⟩ := lockOrder_houses hrow
    exact stable_house
  -- the second look settles the place
  refine Protocol.outline_read
    (R := fun t' st => Protocol.Locked schema s (.house (target.getD source)) st ∧
      ∀ _ : t'.structureHouse? place = some source, Settled s place source st)
    (fun _ => stable_house.and (Contract.Stable.forall fun _ => stable_settled))
    (fun _ _ _ _ h => by cases h) ?_ fun t' => ?_
  · intro st hi h
    refine ⟨h.2 _ (mem_lockOrder.mpr (Or.inr rfl)), fun hplace => ?_⟩
    exact settled_of_locked hi hplace (h.2 _ (mem_lockOrder.mpr (Or.inl rfl)))
  refine Protocol.outline_lift fun again hagain => ?_
  refine Protocol.outline_lift fun _ hsame => ?_
  obtain rfl := of_decide_eq_true (ensure_ok hsame)
  have hplace := structureHouse_ok hagain
  split
  · -- the third look clears it
    refine Protocol.outline_read
      (R := fun t'' st => Protocol.Locked schema s (.house (target.getD again)) st ∧
        Settled s place again st ∧
          ∀ _ : 0 < place.rank ∧ t''.boundInStructure place = false, Cleared s place again st)
      (fun _ => stable_house.and (stable_settled.and
        (Contract.Stable.forall fun _ => stable_cleared)))
      (fun _ _ _ _ h => by cases h) ?_ fun t'' => ?_
    · intro st hi h
      have hsettled := h.2 hplace
      refine ⟨h.1, hsettled, fun hvacant => ⟨hsettled.1, hsettled.2, ?_⟩⟩
      exact Tables.vacant_of_boundInStructure hvacant.1 hi.1 hvacant.2
    · refine Protocol.outline_lift fun _ hbound => ?_
      have hfree : t''.boundInStructure place = false := by simpa using ensure_ok hbound
      intro st _ h
      exact ⟨again, structureHouse_ok hsource, h.2.1, h.1,
        fun hrank _ _ _ => h.2.2 ⟨hrank, hfree⟩⟩
  · rename_i hstays
    intro st _ h
    refine ⟨again, structureHouse_ok hsource, h.2 hplace, h.1, fun _ hdeleting hnone hsome => ?_⟩
    simp only [Bool.or_eq_true, Bool.and_eq_true, bne_iff_ne, not_or, not_and] at hstays
    exact absurd hsome (by simpa using hstays.2 hnone)

/-! ### Commits -/

/-- A commit, and what is raised if it fails. -/
theorem outline_save {writes : List Statement} {note : Option HomeNote}
    {result : Except Violation Unit → Except RouteError Unit}
    (h : ∀ st db, (protocol members).inv st → A st → schema.apply st.db writes = .ok db →
      Tables.Step (Holds s st) st.db db ∧
        ∀ n, note = some n → Truthful members db ⟨s, p, st.db, n⟩) :
    (contract members).Outline database s p
      (Sql.commit writes note >>= fun r => Prog.lift (result r)) A
      (Contract.returns fun _ _ => True) := by
  refine Protocol.outline_commit (R := fun _ _ => True) (fun _ => Contract.Stable.const True)
    (fun st hi hA db hdb => h st db hi hA hdb) (fun _ _ _ _ _ => trivial)
    (fun _ _ _ _ => trivial) fun r => ?_
  cases result r <;> exact fun _ _ _ => trivial

theorem outline_flush {unchanged : Bool} {statement : Statement} {note : HomeNote}
    (h : ∀ st db, (protocol members).inv st → A st → st.db.write statement = .ok db →
      Tables.Step (Holds s st) st.db db ∧ Truthful members db ⟨s, p, st.db, note⟩) :
    (contract members).Outline database s p (flush unchanged statement note) A
      (Contract.returns fun _ _ => True) := by
  unfold flush
  split
  · refine outline_save fun st db _ _ hdb => ⟨Tables.step_nil hdb, fun n hn => ?_⟩
    cases hn
  · refine outline_save fun st db hi hA hdb => ?_
    obtain ⟨hstep, hnote⟩ := h st db hi hA (by rwa [schema_apply_singleton] at hdb)
    exact ⟨hstep, fun n hn => Option.some.inj hn ▸ hnote⟩

/-- A place is where its guard has found it. -/
theorem truthful_changed {place : Place} {permission : Permission} {found db : Tables}
    {target : Option String} {deleting : Bool} {source : String} {st : Shared}
    (hrank : 0 < place.rank) (h : Guarded s place target deleting found source st) :
    Truthful members db ⟨s, p, st.db, .changed place permission found⟩ :=
  ⟨source, h.1, Tables.structureHouse?_of_in hrank h.2.1.2⟩

/-- A target that a patch still has after the unchanged columns are left out. -/
theorem of_filter {α : Type} {o : Option α} {q : α → Bool} {a : α} (h : o.filter q = some a) :
    o = some a := (Option.filter_eq_some_iff.mp h).1

/-! ### Floors, rooms and devices -/

theorem outline_newHouse (user : String) (house : Option String) :
    (contract members).Outline database s p (newHouse user house) (fun _ => True)
      (Contract.returns fun _ _ => True) := by
  cases house with
  | none => exact fun _ _ _ => trivial
  | some house =>
      refine (outline_require user house .houseManage).seq fun _ => ?_
      refine (Protocol.outline_peek (A := fun _ => True) (Contract.Stable.const True)
        fun t => ?_).pre fun _ _ _ => trivial
      cases ensure _ _ <;> exact fun _ _ _ => trivial

theorem outline_updateFloor (user id : String) (patch : FloorPatch) :
    (contract members).Outline database s p (updateFloor user id patch) (fun _ => True)
      (Contract.returns fun _ _ => True) := by
  refine (outline_authorize user .floor id .houseManage).seq fun _ => ?_
  refine ((outline_newHouse user patch.houseId).seq fun _ => ?_).pre fun _ _ _ => trivial
  refine (outline_structureMutation (.floor id) patch.houseId false).seq fun found => ?_
  refine Contract.Outline.of_exists fun source => ?_
  refine Protocol.outline_peek stable_guarded fun t => ?_
  refine Protocol.outline_lift fun row _ => ?_
  refine outline_flush fun st db hi hguard hdb => ⟨?_, truthful_changed Nat.zero_lt_one hguard⟩
  obtain ⟨-, hsettled, hlocked, hcleared⟩ := hguard
  refine Tables.step_updateFloor hdb hsettled.2 hsettled.holds fun house hhouse hhas => ?_
  rw [of_filter hhouse] at hlocked hcleared
  refine ⟨hlocked hhas, ?_⟩
  by_cases hsame : source = house
  · exact Or.inl hsame
  · refine Or.inr (hcleared Nat.zero_lt_one rfl (by simp) ?_).2.2
    simpa using Ne.symm hsame

/-- What is known of a place and of the new parent it is to get. -/
def Targeted (s : Nat) (place : Place) (target : Option String) (found : Tables) (source : String)
    (parentPlace : String → Place) (parent : Option String) (st : Shared) : Prop :=
  Guarded s place target false found source st ∧
    ∀ x, parent = some x → ∃ house, target = some house ∧ Settled s (parentPlace x) house st

theorem stable_targeted {place : Place} {target : Option String} {found : Tables} {source : String}
    {parentPlace : String → Place} {parent : Option String} :
    (contract members).Stable s p (Targeted s place target found source parentPlace parent) :=
  stable_guarded.and (Contract.Stable.forall fun _ => Contract.Stable.forall fun _ =>
    Contract.Stable.exists fun _ => (Contract.Stable.const _).and stable_settled)

theorem Targeted.take {place : Place} {target : Option String} {found : Tables} {source : String}
    {parentPlace : String → Place} {parent : Option String} {st : Shared}
    (h : Targeted s place target found source parentPlace parent st) (row : TableRow) :
    Targeted s place target found source parentPlace parent (st.take schema s row) := by
  refine ⟨h.1.take row, fun x hx => ?_⟩
  obtain ⟨house, htarget, hsettled⟩ := h.2 x hx
  exact ⟨house, htarget, Protocol.Knows.take hsettled schema row⟩

/-- A move to a targeted parent is a change of the layout. -/
theorem Targeted.change {place : Place} {target : Option String} {found : Tables} {source : String}
    {parentPlace : String → Place} {parent : Option String} {st : Shared}
    (h : Targeted s place target found source parentPlace parent st) (hrank : 0 < place.rank)
    {x : String} (hx : parent = some x) :
    ∃ house, st.db.layout.In (parentPlace x) house ∧ Holds s st house ∧
      (source = house ∨ st.db.layout.Vacant place) := by
  obtain ⟨⟨-, -, -, hcleared⟩, htarget⟩ := h
  obtain ⟨house, rfl, hsettled⟩ := htarget x hx
  refine ⟨house, hsettled.2, hsettled.holds, ?_⟩
  by_cases hsame : source = house
  · exact Or.inl hsame
  · refine Or.inr (hcleared hrank rfl (by simp) ?_).2.2
    simpa using Ne.symm hsame

/-- **The second look at the target** settles the new parent. -/
theorem outline_sameTarget {error : Error} {house? : Tables → String → Option String}
    (parentPlace : String → Place)
    (hhouse : ∀ t x house, house? t x = some house →
      t.structureHouse? (parentPlace x) = some house)
    {place : Place} {target : Option String} {found : Tables} {source : String}
    (parent : Option String) :
    (contract members).Outline database s p (sameTarget error house? target parent)
      (Guarded s place target false found source)
      (Contract.returns fun _ => Targeted s place target found source parentPlace parent) := by
  cases parent with
  | none => exact fun _ _ h => ⟨h, fun x hx => by cases hx⟩
  | some x =>
      refine Protocol.outline_read
        (R := fun t st => Guarded s place target false found source st ∧
          ∀ house, ∀ _ : target = some house ∧ house? t x = some house,
            Settled s (parentPlace x) house st)
        (fun _ => stable_guarded.and (Contract.Stable.forall fun _ =>
          Contract.Stable.forall fun _ => stable_settled))
        (fun _ _ _ _ h => by cases h) ?_ fun t => ?_
      · rintro st hi hguard
        refine ⟨hguard, fun house ⟨htarget, hx⟩ => ?_⟩
        subst htarget
        exact settled_of_locked hi (hhouse _ _ _ hx) hguard.2.2.1
      · refine Protocol.outline_lift fun again hagain => ?_
        have hx := found_ok hagain
        cases hsame : ensure (some again = target) _ with
        | error e => exact fun _ _ _ => trivial
        | ok u =>
            have htarget : some again = target := of_decide_eq_true (ensure_ok hsame)
            intro st _ h
            refine ⟨h.1, fun y hy => ⟨again, htarget.symm, ?_⟩⟩
            obtain rfl := Option.some.inj hy
            exact h.2 again ⟨htarget.symm, hx⟩

theorem outline_newFloor (user : String) (floor : Option String) :
    (contract members).Outline database s p (newFloor user floor) (fun _ => True)
      (Contract.returns fun _ _ => True) := by
  cases floor with
  | none => exact fun _ _ _ => trivial
  | some floor =>
      refine (outline_authorize user .floor floor .houseManage).seq fun _ => ?_
      refine (Protocol.outline_peek (A := fun _ => True) (Contract.Stable.const True)
        fun t => ?_).pre fun _ _ _ => trivial
      refine Protocol.outline_lift fun _ _ => ?_
      refine Protocol.outline_peek (Contract.Stable.const True) fun t => ?_
      exact Protocol.outline_lift fun _ _ => fun _ _ _ => trivial

theorem outline_updateRoom (user id : String) (patch : RoomPatch) :
    (contract members).Outline database s p (updateRoom user id patch) (fun _ => True)
      (Contract.returns fun _ _ => True) := by
  refine (outline_authorize user .room id .houseManage).seq fun _ => ?_
  refine ((outline_newFloor user patch.floorId).seq fun target => ?_).pre fun _ _ _ => trivial
  refine (outline_structureMutation (.room id) target false).seq fun found => ?_
  refine Contract.Outline.of_exists fun source => ?_
  refine (outline_sameTarget Place.floor (fun _ _ _ h => h) patch.floorId).seq
    fun _ => ?_
  refine Protocol.outline_peek stable_targeted fun t => ?_
  refine Protocol.outline_lift fun row _ => ?_
  refine outline_flush fun st db hi h hdb => ⟨?_, truthful_changed (Nat.succ_pos _) h.1⟩
  have hsettled := h.1.2.1
  refine Tables.step_updateRoom hdb hsettled.2 hsettled.holds fun floor hfloor => ?_
  exact h.change (Nat.succ_pos _) (of_filter hfloor)

theorem outline_newRoom (user : String) (room : Option String) :
    (contract members).Outline database s p (newRoom user room) (fun _ => True)
      (Contract.returns fun _ _ => True) := by
  cases room with
  | none => exact fun _ _ _ => trivial
  | some room =>
      refine (outline_authorize user .room room .deviceManage).seq fun _ => ?_
      refine (Protocol.outline_peek (A := fun _ => True) (Contract.Stable.const True)
        fun t => ?_).pre fun _ _ _ => trivial
      exact Protocol.outline_lift fun _ _ => fun _ _ _ => trivial

theorem outline_checkRoom (hA : (contract members).Stable s p A) (room : Option String) :
    (contract members).Outline database s p (checkRoom room) A (Contract.returns fun _ => A) := by
  cases room with
  | none => exact fun _ _ h => h
  | some room =>
      refine Protocol.outline_peek hA fun t => ?_
      cases ensure _ _ with
      | error e => exact fun _ _ _ => trivial
      | ok u => exact fun _ _ h => h

theorem outline_checkState (hA : (contract members).Stable s p A) (id : String)
    (patch : DevicePatch) :
    (contract members).Outline database s p (checkState id patch) A
      (Contract.returns fun _ => A) := by
  unfold checkState
  split
  · exact fun _ _ h => h
  · refine Protocol.outline_peek hA fun t => ?_
    refine Protocol.outline_lift fun current _ => ?_
    cases raised _ with
    | error e => exact fun _ _ _ => trivial
    | ok u => exact fun _ _ h => h

theorem outline_updateDevice (user id : String) (patch : DevicePatch) (fields : List String) :
    (contract members).Outline database s p (updateDevice user id patch fields) (fun _ => True)
      (Contract.returns fun _ _ => True) := by
  refine (outline_authorize user .device id .deviceManage).seq fun _ => ?_
  refine ((outline_newRoom user patch.roomId).seq fun target => ?_).pre fun _ _ _ => trivial
  refine (outline_structureMutation (.device id) target false).seq fun found => ?_
  refine Contract.Outline.of_exists fun source => ?_
  refine (outline_sameTarget Place.room (fun _ _ _ h => h) patch.roomId).seq
    fun _ => ?_
  refine Protocol.outline_grab stable_targeted (fun st h => h.take _) fun t => ?_
  refine Protocol.outline_lift fun _ _ => ?_
  refine (outline_checkRoom stable_targeted patch.roomId).seq fun _ => ?_
  refine (outline_checkState stable_targeted id patch).seq fun _ => ?_
  refine Protocol.outline_peek stable_targeted fun t => ?_
  refine Protocol.outline_lift fun row _ => ?_
  refine outline_flush fun st db hi h hdb => ⟨?_, truthful_changed (Nat.succ_pos _) h.1⟩
  have hsettled := h.1.2.1
  refine Tables.step_updateDevice hdb hsettled.2 hsettled.holds fun room hroom => ?_
  exact h.change (Nat.succ_pos _) (of_filter hroom)

/-- The three `DELETE` routes: what is deleted is settled in a held house. -/
theorem outline_delete (user : String) (place : Place) (hrank : 0 < place.rank)
    (permission : Permission) {statement : Statement}
    (hstep : ∀ (t t' : Tables) (holds : String → Prop) source, t.write statement = .ok t' →
      t.layout.In place source → holds source → Tables.Step holds t t') :
    (contract members).Outline database s p (delete user place permission statement)
      (fun _ => True) (Contract.returns fun _ _ => True) := by
  refine (outline_authorize user place.kind place.id permission).seq fun _ => ?_
  refine ((outline_structureMutation place none true).seq fun found => ?_).pre
    fun _ _ _ => trivial
  refine Contract.Outline.of_exists fun source => ?_
  refine Protocol.outline_peek stable_guarded fun t => ?_
  refine Protocol.outline_lift fun _ _ => ?_
  refine outline_save fun st db hi hguard hdb => ?_
  rw [schema_apply_singleton] at hdb
  have hsettled := hguard.2.1
  refine ⟨hstep _ _ _ source hdb hsettled.2 hsettled.holds, fun n hn => ?_⟩
  exact Option.some.inj hn ▸ truthful_changed hrank hguard

theorem outline_deleteHouse (user id : String) :
    (contract members).Outline database s p (deleteHouse user id) (fun _ => True)
      (Contract.returns fun _ _ => True) := by
  refine (outline_require user id .houseManage).seq fun _ => ?_
  refine ((outline_structureMutation (.house id) none true).seq fun found => ?_).pre
    fun _ _ _ => trivial
  refine Contract.Outline.of_exists fun source => ?_
  refine Protocol.outline_peek stable_guarded fun t => ?_
  refine Protocol.outline_lift fun _ _ => ?_
  refine outline_save fun st db hi hguard hdb => ⟨?_, fun n hn => by cases hn⟩
  rw [schema_apply_singleton] at hdb
  have hsettled := hguard.2.1
  obtain rfl : id = source := Layout.In.unique (Forest.Under.refl _ _) hsettled.2
  exact Tables.step_deleteHouse hdb hsettled.holds

theorem outline_createDevice (user id : String) (row : DeviceRow) :
    (contract members).Outline database s p (createDevice user id row) (fun _ => True)
      (Contract.returns fun _ _ => True) := by
  refine (outline_authorize user .room row.roomId .deviceManage).seq fun _ => ?_
  refine (Protocol.outline_grab (A := fun _ => True) (Contract.Stable.const True)
    (fun _ _ => trivial) fun t => ?_).pre fun _ _ _ => trivial
  refine Protocol.outline_lift fun _ _ => ?_
  refine Protocol.outline_peek (Contract.Stable.const True) fun t => ?_
  refine Protocol.outline_lift fun _ _ => ?_
  refine Protocol.outline_lift fun _ _ => ?_
  refine outline_save fun st db _ _ hdb => ⟨?_, fun n hn => by cases hn⟩
  rw [schema_apply_singleton] at hdb
  exact Tables.step_insertDevice hdb

/-! ### Physical devices -/

theorem outline_byHardware (hA : (contract members).Stable s p A)
    (htake : ∀ st row, A st → A (st.take schema s row)) (hardware : String) :
    (contract members).Outline database s p (byHardware hardware) A
      (Contract.returns fun _ => A) := by
  refine Protocol.outline_peek hA fun t => ?_
  refine Protocol.outline_lift fun e _ => ?_
  refine Protocol.outline_grab hA (fun st h => htake st _ h) fun t => ?_
  refine Protocol.outline_lift fun item _ => ?_
  exact fun _ _ h => h

/-- **A claim** binds its device in a room that is settled in the house. -/
theorem outline_claim (user house hardware : String) (digest : Except Error String)
    (room name : String) :
    (contract members).Outline database s p (claim user house hardware digest room name)
      (fun _ => True) (Contract.returns fun _ _ => True) := by
  refine (outline_require user house .deviceOnboard).seq fun _ => ?_
  refine (Protocol.outline_lockAll (A := fun _ => True) ?_ (Contract.Stable.const True)
    (fun _ _ _ => trivial) ?_).pre fun _ _ _ => trivial
  · intro row hrow
    obtain rfl := List.mem_singleton.mp hrow
    exact stable_house
  refine Contract.Outline.pre (P := Protocol.Locked schema s (.house house)) ?_
    fun st _ h => h.2 _ (List.mem_singleton.mpr rfl)
  refine (outline_byHardware stable_house (fun st row h => h.take row) hardware).seq fun e => ?_
  obtain ⟨device, item⟩ := e
  refine Protocol.outline_lift fun _ _ => ?_
  refine Protocol.outline_lift fun _ _ => ?_
  refine Protocol.outline_lift fun digest _ => ?_
  refine Protocol.outline_lift fun _ _ => ?_
  refine Protocol.outline_read
    (R := fun t st => ∀ _ : t.structureHouse? (.room room) = some house,
      Settled s (.room room) house st)
    (fun _ => Contract.Stable.forall fun _ => stable_settled) (fun _ _ _ _ h => by cases h)
    (fun st hi h hroom => settled_of_locked hi hroom h) fun t => ?_
  refine Protocol.outline_lift fun actual hactual => ?_
  refine Protocol.outline_lift fun _ hsame => ?_
  obtain rfl := of_decide_eq_true (ensure_ok hsame)
  refine Protocol.outline_lift fun profile _ => ?_
  refine outline_save fun st db hi h hdb => ?_
  have hsettled := h (structureHouse_ok hactual)
  obtain ⟨hstep, hanchored⟩ := Tables.step_claim hdb hsettled.2 hsettled.holds
  exact ⟨hstep, fun n hn => Option.some.inj hn ▸ hanchored⟩

theorem outline_transition (user house device : String) (target : PhysicalStatus) :
    (contract members).Outline database s p (transition user house device target)
      (fun _ => True) (Contract.returns fun _ _ => True) := by
  refine (outline_require user house .deviceOnboard).seq fun _ => ?_
  refine (Protocol.outline_lockAll (A := fun _ => True) ?_ (Contract.Stable.const True)
    (fun _ _ _ => trivial) ?_).pre fun _ _ _ => trivial
  · intro row hrow
    obtain rfl := List.mem_singleton.mp hrow
    exact stable_house
  refine (Protocol.outline_grab (A := fun _ => True) (Contract.Stable.const True)
    (fun _ _ => trivial) fun t => ?_).pre fun _ _ _ => trivial
  refine Protocol.outline_lift fun item _ => ?_
  split
  · refine outline_save fun st db _ _ hdb => ⟨Tables.step_nil hdb, fun n hn => by cases hn⟩
  · refine Protocol.outline_lift fun _ _ => ?_
    refine Protocol.outline_peek (Contract.Stable.const True) fun t => ?_
    refine Protocol.outline_lift fun actual _ => ?_
    refine Protocol.outline_lift fun _ _ => ?_
    refine outline_save fun st db _ _ hdb => ⟨?_, fun n hn => by cases hn⟩
    rw [schema_apply_singleton] at hdb
    exact Tables.step_setStatus hdb

/-! ### Commands -/

/-- A commit of the ledger. -/
theorem outline_saveLedger {w : Ledger.Write} {note : Option HomeNote}
    {result : Except Violation Unit → Except RouteError Unit}
    (h : ∀ st db n, A st → note = some n → Truthful members db ⟨s, p, st.db, n⟩) :
    (contract members).Outline database s p
      (Sql.commit [.ledger w] note >>= fun r => Prog.lift (result r)) A
      (Contract.returns fun _ _ => True) := by
  refine outline_save fun st db _ hA hdb => ⟨?_, fun n hn => h st db n hA hn⟩
  rw [schema_apply_singleton] at hdb
  exact Tables.step_ledger hdb

theorem outline_process (job : Job) (port : Port) (id : String) :
    (contract members).Outline database s p (process job port id) (fun _ => True)
      (Contract.returns fun _ _ => True) := by
  refine Protocol.outline_grab (Contract.Stable.const True) (fun _ _ => trivial) fun t => ?_
  refine Protocol.outline_lift fun row _ => ?_
  refine Protocol.outline_lift fun result _ => ?_
  split
  · exact outline_save fun st db _ _ hdb => ⟨Tables.step_nil hdb, fun n hn => by cases hn⟩
  · exact outline_saveLedger fun _ _ n _ hn => by cases hn

theorem outline_create {sub : Submission} {env : Surroundings} {freed : Option DeviceCommand}
    (hpermits : members.permits p sub.house .deviceControl = true) :
    (contract members).Outline database s p (create sub env freed) (fun _ => True)
      (Contract.returns fun _ _ => True) := by
  refine Protocol.outline_lift fun _ _ => ?_
  refine Protocol.outline_lift fun _ _ => ?_
  refine Protocol.outline_lift fun now _ => ?_
  refine Protocol.outline_input (Contract.Stable.const True) fun commandId => ?_
  refine Protocol.outline_input (Contract.Stable.const True) fun correlationId => ?_
  refine Protocol.outline_commit (R := fun _ _ => True) (fun _ => Contract.Stable.const True)
    (fun st _ _ db hdb => ⟨?_, fun n hn => ?_⟩) (fun _ _ _ _ _ => trivial)
    (fun _ _ _ _ => trivial) fun r => ?_
  · rw [schema_apply_singleton] at hdb
    exact Tables.step_ledger hdb
  · obtain rfl := Option.some.inj hn
    exact hpermits
  · refine Protocol.outline_lift fun _ _ => ?_
    refine (outline_process _ _ commandId).seq fun _ => ?_
    exact outline_process _ _ commandId

theorem outline_submitNew {sub : Submission} {env : Surroundings} {device : DeviceRow}
    (hpermits : members.permits p sub.house .deviceControl = true) :
    (contract members).Outline database s p (submitNew sub env device) (fun _ => True)
      (Contract.returns fun _ _ => True) := by
  refine Protocol.outline_peek (Contract.Stable.const True) fun t => ?_
  refine Protocol.outline_lift fun _ _ => ?_
  refine Protocol.outline_lift fun _ _ => ?_
  refine Protocol.outline_lift fun _ _ => ?_
  refine Protocol.outline_peek (Contract.Stable.const True) fun t => ?_
  split
  · exact Protocol.outline_lift fun _ _ => outline_create hpermits
  · refine Protocol.outline_grab (Contract.Stable.const True) (fun _ _ => trivial) fun t => ?_
    refine Protocol.outline_lift fun row _ => ?_
    refine Protocol.outline_lift fun result _ => ?_
    refine Protocol.outline_lift fun _ _ => ?_
    exact Protocol.outline_lift fun _ _ => outline_create hpermits

theorem outline_requireActive (device : String) :
    (contract members).Outline database s p (requireActive device) (fun _ => True)
      (Contract.returns fun _ _ => True) := by
  refine Protocol.outline_grab (Contract.Stable.const True) (fun _ _ => trivial) fun t => ?_
  split
  · exact fun _ _ _ => trivial
  · refine Protocol.outline_lift fun _ _ => ?_
    refine Protocol.outline_peek (Contract.Stable.const True) fun t => ?_
    refine Protocol.outline_lift fun house _ => ?_
    cases ensure _ _ <;> exact fun _ _ _ => trivial

/-- A submission notes the house that its user was entitled in. -/
theorem outline_submit (device hash : String) (on : Bool) (env : Surroundings) :
    (contract members).Outline database s p (submit p device hash on env) (fun _ => True)
      (Contract.returns fun _ _ => True) := by
  refine (outline_authorize p .device device .deviceControl).seq fun home => ?_
  refine (Contract.Outline.given (P := fun _ => True) fun hpermits => ?_).pre
    fun _ _ h => ⟨h, trivial⟩
  refine (outline_requireActive device).seq fun _ => ?_
  refine Protocol.outline_grab (Contract.Stable.const True) (fun _ _ => trivial) fun t => ?_
  refine Protocol.outline_lift fun row _ => ?_
  refine (outline_deviceHouse (Contract.Stable.const True) device).seq fun actual => ?_
  refine Protocol.outline_lift fun _ _ => ?_
  refine Protocol.outline_peek (Contract.Stable.const True) fun t => ?_
  split
  · exact Protocol.outline_lift fun _ _ => outline_process _ _ _
  · exact outline_submitNew hpermits

/-- **Every request keeps to the rules.** -/
theorem outline_program (members : Tables) (s : Nat) (p : String) (call : HomeRequest) :
    (contract members).Outline database s p (program s p call) (fun _ => True)
      (fun _ _ => True) := by
  refine Contract.Outline.post ?_ (fun _ _ _ _ => trivial)
    (Q := Contract.returns fun _ _ => True)
  cases call with
  | updateFloor id patch => exact outline_updateFloor p id patch
  | deleteFloor id =>
      exact outline_delete p (.floor id) (Nat.succ_pos _) .houseManage
        fun _ _ _ _ h hin hs => Tables.step_deleteFloor h hin hs
  | updateRoom id patch => exact outline_updateRoom p id patch
  | deleteRoom id =>
      exact outline_delete p (.room id) (Nat.succ_pos _) .houseManage
        fun _ _ _ _ h hin hs => Tables.step_deleteRoom h hin hs
  | updateDevice id patch fields => exact outline_updateDevice p id patch fields
  | deleteDevice id =>
      exact outline_delete p (.device id) (Nat.succ_pos _) .deviceManage
        fun _ _ _ _ h hin hs => Tables.step_deleteDevice h hin hs
  | deleteHouse id => exact outline_deleteHouse p id
  | createDevice id row => exact outline_createDevice p id row
  | claim house hardware digest room name => exact outline_claim p house hardware digest room name
  | transition house device target => exact outline_transition p house device target
  | submit device hash on env => exact outline_submit device hash on env

end

end Structure

end KzHome

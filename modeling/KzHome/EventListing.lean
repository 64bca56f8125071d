import KzHome.Listings

/-!
# KzHome.EventListing

`GET /events`: the journal as one user may read it.

The permission is chosen by the type that is asked for, and the query chooses by the types that
the journal records: what a user sees of a house depends on both. Security events are shown where
the user may read the audit, everything else where the user may read events.

**A listing depends on nothing else** (`events_do_not_leak`): two journals that agree on what the
user may read are answered for alike.
-/

namespace KzHome

/-- `event_logs` -/
structure EventRow where
  houseId : Option String
  eventType : String
  entityId : Option String
  payload : List (String × Json)
  correlationId : String
  createdAt : Instant

/-- `security_types` -/
def securityTypes : List String :=
  ["auth_login_succeeded", "auth_login_failed", "auth_refresh_succeeded", "auth_refresh_failed",
   "auth_logout", "authorization_denied"]

namespace EventLog

abbrev Journal := Dict String EventRow

/-- `EventLogORM.house_id.in_(houses)`: a row without a house is in none. -/
def inHouses (houses : List String) (row : EventRow) : Bool :=
  row.houseId.any fun house => houses.contains house

/-- The conditions on the type of a row. -/
def typeSelected (eventType : Option String) (audit : List String) (row : EventRow) : Bool :=
  match eventType with
  | none => !securityTypes.contains row.eventType || inHouses audit row
  | some type => row.eventType = type

/-- `order_by(created_at.desc())` -/
def newestFirst (a b : String × EventRow) : Bool := b.2.createdAt ≤ a.2.createdAt

/-- `EventLogRepository.filtered_for_houses` -/
def filteredForHouses (journal : Journal) (houses : List String) (eventType : Option String)
    (limit : Nat) (audit : List String) : List (String × EventRow) :=
  if houses.isEmpty then []
  else
    let rows := journal.entries.filter fun e =>
      inHouses houses e.2 && typeSelected eventType audit e.2
    (rows.mergeSort newestFirst).take limit

/-- Whether the type that is asked for is one of the audit. -/
def audited : Option String → Bool
  | none => false
  | some type => "auth_".toList.isPrefixOf type.toList || "authorization_".toList.isPrefixOf type.toList

def eventPermission (eventType : Option String) : Permission :=
  if audited eventType then .securityAuditRead else .eventRead

/-- The houses that are searched: all of the user's, or the one that is asked for. -/
def listedHouses (t : Tables) (user : String) (permission : Permission) :
    Option String → Except RouteError (List String)
  | none => .ok (t.accessibleHouseIds user permission)
  | some house => (t.require user house permission).map fun _ => [house]

/-- `list_events`; a limit outside 1 to 500 is refused before. -/
def listEvents (t : Tables) (journal : Journal) (user : String) (houseId eventType : Option String)
    (limit : Int) : Except RouteError (List (String × EventRow)) :=
  if limit < 1 ∨ 500 < limit then .error (.http 422 "limit")
  else (listedHouses t user (eventPermission eventType) houseId).map fun houses =>
    filteredForHouses journal houses eventType limit.toNat
      (t.accessibleHouseIds user .securityAuditRead)

/-! ### What a user may read -/

/-- A row that a user may read, if the types that `security` tells are security events. -/
def Readable (security : String → Bool) (t : Tables) (user : String) (row : EventRow) : Prop :=
  ∃ house, row.houseId = some house ∧
    house ∈ t.accessibleHouseIds user
      (if security row.eventType then .securityAuditRead else .eventRead)

/-- Two journals with the same rows among those that a user may read. -/
def Agree (security : String → Bool) (t : Tables) (user : String) (j j' : Journal) : Prop :=
  ∀ id row, Readable security t user row → (j.get? id = some row ↔ j'.get? id = some row)

/-- No two events have one timestamp. -/
def Distinct (j : Journal) : Prop :=
  ∀ e ∈ j.entries, ∀ e' ∈ j.entries, e.2.createdAt = e'.2.createdAt → e = e'

/-- The types that the journal records as security events. -/
def recorded (type : String) : Bool := securityTypes.contains type

/-- Who may read the audit of a house may read its events. -/
theorem eventRead_of_audit {t : Tables} {user house : String}
    (h : house ∈ t.accessibleHouseIds user .securityAuditRead) :
    house ∈ t.accessibleHouseIds user .eventRead := by
  simp only [Tables.accessibleHouseIds, List.mem_map, List.mem_filter, Bool.and_eq_true] at h ⊢
  obtain ⟨m, ⟨hm, huser, hrole⟩, rfl⟩ := h
  refine ⟨m, ⟨hm, huser, ?_⟩, rfl⟩
  cases hr : m.2.role with
  | owner => rfl
  | installer => rw [hr] at hrole; cases hrole
  | technician => rw [hr] at hrole; cases hrole
  | resident => rw [hr] at hrole; cases hrole

/-- A house in which `require` passes is one of those that a list is taken over. -/
theorem mem_of_require {t : Tables} {user house : String} {permission : Permission}
    {m : String × MembershipRow} (h : t.require user house permission = .ok m) :
    house ∈ t.accessibleHouseIds user permission := by
  unfold Tables.require at h
  cases hfound : t.forHouse user house with
  | none =>
      rw [hfound] at h
      cases h
  | some m' =>
      rw [hfound] at h
      simp only at h
      split at h
      · rename_i hrole
        obtain ⟨hget, huser, hhouse⟩ := Tables.forHouse_some hfound
        simp only [Tables.accessibleHouseIds, List.mem_map, List.mem_filter, Bool.and_eq_true,
          decide_eq_true_eq]
        exact ⟨m', ⟨Dict.get?_eq_some.mp hget, huser, hrole⟩, hhouse⟩
      · cases h

/-- Every type that is recorded as a security event is asked for with the permission of the
audit. -/
theorem audited_of_recorded {type : String} (h : recorded type = true) :
    audited (some type) = true := by
  have hall : securityTypes.all (fun s => audited (some s)) = true := by decide
  exact List.all_eq_true.mp hall type (List.contains_iff_mem.mp h)

theorem inHouses_iff {houses : List String} {row : EventRow} :
    inHouses houses row = true ↔ ∃ house, row.houseId = some house ∧ house ∈ houses := by
  simp [inHouses, Option.any_eq_true]

/-- **What is selected may be read.** -/
theorem readable_of_selected {t : Tables} {user : String} {houses : List String}
    {eventType : Option String} {row : EventRow}
    (hhouses : ∀ house ∈ houses, house ∈ t.accessibleHouseIds user (eventPermission eventType))
    (hin : inHouses houses row = true)
    (htype : typeSelected eventType (t.accessibleHouseIds user .securityAuditRead) row = true) :
    Readable recorded t user row := by
  obtain ⟨house, hhouse, hmem⟩ := inHouses_iff.mp hin
  have hallowed := hhouses house hmem
  refine ⟨house, hhouse, ?_⟩
  cases eventType with
  | none =>
      -- without a type the query itself keeps the security events of other houses out
      rw [typeSelected, Bool.or_eq_true] at htype
      split
      · rename_i hsecurity
        rcases htype with hother | haudit
        · rw [recorded] at hsecurity
          rw [hsecurity] at hother
          cases hother
        · obtain ⟨house', hhouse', hmem'⟩ := inHouses_iff.mp haudit
          obtain rfl := Option.some.inj (hhouse.symm.trans hhouse')
          exact hmem'
      · exact hallowed
  | some type =>
      have heq : row.eventType = type := of_decide_eq_true htype
      split
      · rename_i hsecurity
        rw [heq] at hsecurity
        rwa [eventPermission, audited_of_recorded hsecurity] at hallowed
      · rw [eventPermission] at hallowed
        split at hallowed
        · exact eventRead_of_audit hallowed
        · exact hallowed

/-- The query tells apart nothing but rows that may be read. -/
theorem filteredForHouses_agree {t : Tables} {user : String} {j j' : Journal}
    (hagree : Agree recorded t user j j') (hj : Distinct j)
    {houses : List String} {eventType : Option String}
    (hhouses : ∀ house ∈ houses, house ∈ t.accessibleHouseIds user (eventPermission eventType))
    (limit : Nat) :
    filteredForHouses j houses eventType limit (t.accessibleHouseIds user .securityAuditRead) =
      filteredForHouses j' houses eventType limit
        (t.accessibleHouseIds user .securityAuditRead) := by
  unfold filteredForHouses
  split
  · rfl
  let keep := fun e : String × EventRow => inHouses houses e.2 &&
    typeSelected eventType (t.accessibleHouseIds user .securityAuditRead) e.2
  have hmem : ∀ e, e ∈ j.entries.filter keep ↔ e ∈ j'.entries.filter keep := by
    intro e
    rw [List.mem_filter, List.mem_filter]
    refine and_congr_left fun hkeep => ?_
    obtain ⟨hin, htype⟩ := Bool.and_eq_true_iff.mp hkeep
    have hrow := hagree e.1 e.2 (readable_of_selected hhouses hin htype)
    rw [Dict.get?_eq_some, Dict.get?_eq_some] at hrow
    exact hrow
  have hperm : (j.entries.filter keep).Perm (j'.entries.filter keep) :=
    (List.perm_ext_iff_of_nodup ((List.Nodup.of_map _ j.nodup).filter _)
      ((List.Nodup.of_map _ j'.nodup).filter _)).mpr hmem
  have htrans : ∀ a b c, newestFirst a b = true → newestFirst b c = true →
      newestFirst a c = true := by
    intro a b c hab hbc
    exact decide_eq_true ((of_decide_eq_true hbc).trans (of_decide_eq_true hab))
  have htotal : ∀ a b, (newestFirst a b || newestFirst b a) = true := by
    intro a b
    rw [Bool.or_eq_true]
    exact (le_total b.2.createdAt a.2.createdAt).imp decide_eq_true decide_eq_true
  have hsorted : (j.entries.filter keep).mergeSort newestFirst =
      (j'.entries.filter keep).mergeSort newestFirst := by
    refine List.Perm.eq_of_pairwise ?_ (List.pairwise_mergeSort htrans htotal _)
      (List.pairwise_mergeSort htrans htotal _)
      ((List.mergeSort_perm _ _).trans (hperm.trans (List.mergeSort_perm _ _).symm))
    intro a b ha hb hab hba
    have ha' := (List.mem_filter.mp (List.mem_mergeSort.mp ha)).1
    have hb' := (List.mem_filter.mp ((hmem b).mpr (List.mem_mergeSort.mp hb))).1
    exact hj a ha' b hb' (le_antisymm (of_decide_eq_true hba) (of_decide_eq_true hab))
  exact congrArg (List.take limit) hsorted

theorem accessibleHouseIds_congr {t t' : Tables} (h : t.memberships = t'.memberships)
    (user : String) (permission : Permission) :
    t.accessibleHouseIds user permission = t'.accessibleHouseIds user permission := by
  rw [Tables.accessibleHouseIds, Tables.accessibleHouseIds, h]

theorem listedHouses_congr {t t' : Tables} (h : t.memberships = t'.memberships)
    (user : String) (permission : Permission) (houseId : Option String) :
    listedHouses t user permission houseId = listedHouses t' user permission houseId := by
  cases houseId with
  | none => exact congrArg Except.ok (accessibleHouseIds_congr h user permission)
  | some house =>
      simp only [listedHouses, Tables.require, Tables.forHouse, h]

theorem mem_of_listed {t : Tables} {user : String} {permission : Permission}
    {houseId : Option String} {houses : List String}
    (h : listedHouses t user permission houseId = .ok houses) :
    ∀ house ∈ houses, house ∈ t.accessibleHouseIds user permission := by
  intro house hhouse
  cases houseId with
  | none =>
      obtain rfl := Except.ok.inj h
      exact hhouse
  | some asked =>
      rw [listedHouses] at h
      cases hrequire : t.require user asked permission with
      | error e =>
          rw [hrequire] at h
          cases h
      | ok m =>
          rw [hrequire] at h
          obtain rfl := Except.ok.inj h
          rw [List.mem_singleton.mp hhouse]
          exact mem_of_require hrequire

/-- **The listing of events does not leak.** Two databases with the same memberships, whose
journals agree on the events that are no security events of the houses in which the user may read
events, and on the security events of the houses in which the user may read the audit, are
answered for alike. -/
theorem events_do_not_leak (t t' : Tables) (j j' : Journal) (user : String)
    (houseId eventType : Option String) (limit : Int)
    (hmemberships : t.memberships = t'.memberships) (hj : Distinct j)
    (hagree : Agree recorded t user j j') :
    listEvents t j user houseId eventType limit = listEvents t' j' user houseId eventType limit := by
  have haccess := accessibleHouseIds_congr hmemberships user
  unfold listEvents
  split
  · rfl
  · rw [listedHouses_congr hmemberships user _ houseId, haccess]
    cases hlisted : listedHouses t' user (eventPermission eventType) houseId with
    | error e => rfl
    | ok houses =>
        rw [← listedHouses_congr hmemberships user _ houseId] at hlisted
        rw [← haccess]
        exact congrArg Except.ok (filteredForHouses_agree hagree hj (mem_of_listed hlisted) _)

/-- The journal of the shop: a state change, and a failed login that is not for Bea's eyes. -/
def shopJournal (address : String) : Journal :=
  ⟨[("e1", ⟨some "shop", "device_state_changed", some "relay", [], "c1", 1⟩),
    ("e2", ⟨some "shop", "auth_login_failed", none, [("ip", .str address)], "c2", 2⟩)],
    by simp⟩

/-- Bea reads the state change only. -/
theorem readable_shop {address : String} {id : String} {row : EventRow}
    (hrow : Readable recorded astray "bea" row) :
    (shopJournal address).get? id = some row ↔
      id = "e1" ∧ row = ⟨some "shop", "device_state_changed", some "relay", [], "c1", 1⟩ := by
  rw [Dict.get?_eq_some]
  simp only [shopJournal, List.mem_cons, List.not_mem_nil, or_false, Prod.mk.injEq]
  constructor
  · rintro (h | ⟨-, rfl⟩)
    · exact h
    · obtain ⟨house, hhouse, hmem⟩ := hrow
      obtain rfl := Option.some.inj hhouse
      have hnot : "shop" ∉ astray.accessibleHouseIds "bea"
          (if recorded "auth_login_failed" then .securityAuditRead else .eventRead) := by decide
      exact absurd hmem hnot
  · exact .inl

theorem events_do_not_leak_shop :
    listEvents astray (shopJournal "10.0.0.1") "bea" none none 100 =
      listEvents astray (shopJournal "10.0.0.2") "bea" none none 100 := by
  refine events_do_not_leak astray astray _ _ "bea" none none 100 rfl ?_ ?_
  · intro e he e' he' h
    simp only [shopJournal, List.mem_cons, List.not_mem_nil, or_false] at he he'
    rcases he with rfl | rfl
    · rcases he' with rfl | rfl
      · rfl
      · cases h
    · rcases he' with rfl | rfl
      · cases h
      · rfl
  · intro id row hrow
    rw [readable_shop hrow, readable_shop hrow]

/-- One event in the shop. -/
def probedJournal : Journal :=
  ⟨[("e", ⟨some "shop", "auth_probe", none, [], "c", 1⟩)], by simp⟩

/-- **A type that begins like a security event but is not recorded as one is listed** to those who
may read events, but not the audit. -/
theorem unrecorded_type_listed :
    Agree (fun type => "auth_".toList.isPrefixOf type.toList || type = "authorization_denied")
        astray "bea" probedJournal .empty ∧
      listEvents astray probedJournal "bea" none none 100 ≠
        listEvents astray .empty "bea" none none 100 := by
  constructor
  · rintro id row ⟨house, hhouse, hmem⟩
    rw [Dict.get?_eq_some]
    simp only [probedJournal, List.mem_singleton, Prod.mk.injEq, Dict.get?_empty, reduceCtorEq,
      iff_false]
    rintro ⟨-, rfl⟩
    obtain rfl := Option.some.inj hhouse
    exact absurd hmem (by decide)
  · intro h
    have hlength := congrArg (fun r => (r.toOption.getD []).length) h
    exact absurd hlength (by decide +kernel)

end EventLog

end KzHome

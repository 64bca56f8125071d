import KzHome.Guarding
import Mathlib

/-!
# KzHome.Bindings

Bindings of physical devices are permanent.

From the commit of a claim on, the inventory row names the house and the device, the
device is there, and its room and floor are in that house, whatever requests of
whatever users are carried out beside each other (`bindings_permanent`).
-/

namespace KzHome

namespace Structure

open Session Sql

/-- After the requests of a run on a database. -/
def after (db : Tables) (labels : List (Session.Label String HomeRequest String (Outside Tables))) :
    Shared :=
  (requests.run (State.init (Store.init db 0)) labels).shared

/-- The foreign keys of a database that these requests rely on. -/
structure ForeignKeys (db : Tables) : Prop where
  /-- `physical_devices.bound_device_id` -/
  bound : ∀ id row, db.physical.get? id = some row → ∀ device, row.boundDeviceId = some device →
    (db.devices.get? device).isSome
  /-- `floors.house_id` -/
  floors : ∀ id row, db.floors.get? id = some row → (db.houses.get? row.houseId).isSome

variable {db : Tables}

theorem ForeignKeys.attached (h : ForeignKeys db) : db.layout.Attached := by
  intro device house hbound
  obtain ⟨row, hrow, hself, -⟩ := Tables.bound_eq_some.mp hbound
  obtain ⟨d, hd⟩ := Option.isSome_iff_exists.mp (h.bound device row hrow device hself)
  show db.up (.device device) ≠ none
  rw [Tables.up_device hd]
  exact Option.some_ne_none _

theorem ForeignKeys.inv (h : ForeignKeys db) : (protocol db).inv (Store.init db 0) :=
  ⟨h.attached, h.floors, fun _ _ _ hm => hm, fun _ he => by cases he⟩

/-- In every state of a run, every note is true. -/
theorem run_truthful (h : ForeignKeys db)
    (labels : List (Session.Label String HomeRequest String (Outside Tables))) :
    ∀ e ∈ (after db labels).trace, Truthful db (after db labels).db e :=
  (Protocol.run_inv (keeps db) (outline_program db) h.inv labels).2.2.2

/-- The inventory row of a device, the device and its place, bound to a house. -/
structure BoundTo (t : Tables) (device house : String) : Prop where
  inventory : ∃ row, t.physical.get? device = some row ∧ row.houseId = some house ∧
    row.boundDeviceId = some device
  present : (t.devices.get? device).isSome
  located : t.deviceHouse? device = some house

theorem boundTo_of_anchored {t : Tables} {device house : String}
    (h : t.layout.Anchored device house) : BoundTo t device house := by
  obtain ⟨row, hrow, hself, hhouse⟩ := Tables.bound_eq_some.mp h.1
  have hlocated := Tables.deviceHouse?_of_in h.2
  obtain ⟨d, hd, -⟩ := Option.bind_eq_some_iff.mp hlocated
  exact ⟨⟨row, hrow, hhouse, hself⟩, by rw [hd]; rfl, hlocated⟩

/-- **Bindings are permanent**: after a claim has been committed, every later state has the
device bound to the house, and in it. -/
theorem bindings_permanent (h : ForeignKeys db)
    (labels more : List (Session.Label String HomeRequest String (Outside Tables)))
    {e : Entry Tables HomeNote String} (he : e ∈ (after db labels).trace) {device house : String}
    (hclaim : e.note = .claimed device house) :
    BoundTo (after db (labels ++ more)).db device house := by
  have hlater : e ∈ (after db (labels ++ more)).trace :=
    Protocol.run_trace_mono (keeps db) (outline_program db) h.inv labels more he
  have htrue := run_truthful h (labels ++ more) e hlater
  unfold Truthful at htrue
  rw [hclaim] at htrue
  exact boundTo_of_anchored htrue

/-- A house with a kitchen, a shop, and a relay that waits to be claimed. -/
def unclaimed : Tables where
  houses := .ofList [("home", ⟨"Home"⟩), ("shop", ⟨"Shop"⟩)]
  floors := .ofList [("ground", ⟨"home", "Ground", 0⟩)]
  rooms := .ofList [("kitchen", ⟨"ground", "Kitchen", none⟩)]
  devices := .empty
  physical := .ofList [("relay", ⟨"hw", "esp32-relay-v1", .unprovisioned, some "digest", none, none⟩)]
  memberships := .ofList [("m1", ⟨"ann", "home", .owner⟩), ("m2", ⟨"ann", "shop", .owner⟩)]
  users := .ofList [("ann", ⟨true⟩)]
  scenes := .empty
  automations := .empty
  attempts := .empty
  ledger := ⟨[], []⟩
  issued := ["m1", "m2"]

theorem unclaimed_keys : ForeignKeys unclaimed where
  bound id row hrow device hdevice := by
    have hmem := Dict.get?_eq_some.mp hrow
    obtain rfl : row = _ := (Prod.mk.inj (List.mem_singleton.mp hmem)).2
    cases hdevice
  floors id row hrow := by
    have hmem := Dict.get?_eq_some.mp hrow
    obtain rfl : row = _ := (Prod.mk.inj (List.mem_singleton.mp hmem)).2
    rfl

/-- Ann claims the relay for her house, while she moves its floor to the shop. -/
def claiming : List (Session.Label String HomeRequest String (Outside Tables)) :=
  [.start "ann" (.updateFloor "ground" ⟨some "shop", none, none⟩),
    .exec 0 "", .exec 0 "", .exec 0 "", .exec 0 "", .exec 0 "",
    .start "ann" (.claim "home" "hw" (.ok "digest") "kitchen" "Relay"),
    .exec 1 "", .exec 1 "", .exec 1 "", .exec 1 "", .exec 1 "", .exec 1 ""]

theorem bindings_permanent_relay :
    BoundTo (after unclaimed (claiming ++
      [.exec 0 "", .exec 0 "", .exec 0 "", .exec 0 "", .exec 0 "", .exec 0 ""])).db
        "relay" "home" := by
  have hnotes : (after unclaimed claiming).trace.map (·.note) = [.claimed "relay" "home"] := by rfl
  obtain ⟨e, he, hnote⟩ := List.mem_map.mp (hnotes ▸ List.mem_singleton_self _)
  exact bindings_permanent unclaimed_keys claiming _ he hnote

end Structure

end KzHome

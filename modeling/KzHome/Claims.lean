import KzHome.Inventory
import KzHome.Lib.Outcomes
import KzHome.Lib.Traces
import KzHome.Provisioning

/-!
# KzHome.Claims

Claims of physical devices, side by side.

`OnboardingService.claim` locks its house and the row of the hardware, checks the row, the
code and the room against what it has locked, and then adds the device, binds the row,
consumes the code and adds the audit event in one commit. Nobody else can write the row
meanwhile, so what was checked still holds at the commit.

**Claims** (`claim_once`): whatever claims run, at most one of each hardware succeeds, and
each step either changes nothing or is one that was `Granted`; and a hardware that is bound
to another house answers as one that is not there.
-/

namespace KzHome

open Session Sql

/-- `DeviceClaim`, with the house and the actor of the request. -/
structure Claim where
  actor : String
  house : String
  hardware : String
  code : String
  room : String
  name : String
  deriving DecidableEq, Repr

/-- `ck_physical_binding` -/
def PhysicalRow.Bound (device : String) (item : PhysicalRow) : Prop :=
  (item.status = .unprovisioned ∧ item.houseId = none ∧ item.boundDeviceId = none ∧
      item.claimCodeHash ≠ none) ∨
    (item.status ≠ .unprovisioned ∧ item.houseId ≠ none ∧ item.boundDeviceId = some device ∧
      item.claimCodeHash = none)

/-- Tables with an inventory that meets its constraints. -/
structure Stock extends Estate where
  /-- `hardware_id` is unique. -/
  unique : ∀ d d' item item', tables.physical.get? d = some item →
    tables.physical.get? d' = some item' → item.hardwareId = item'.hardwareId → d = d'
  bound : ∀ d item, tables.physical.get? d = some item → item.Bound d

namespace Claims

variable (sha : Sha256)

/-- `OnboardingService.claim` -/
def claim (c : Claim) : Inventory.Request Unit :=
  Inventory.claim c.actor c.house c.hardware (Provisioning.claimDigest sha c.code) c.room c.name

/-- The owner of a session is the claim that it makes. -/
def program (_ : Nat) (c : Claim) (_ : Unit) : Inventory.Request Unit := claim sha c

/-- States of claims side by side. -/
abbrev Claiming := Session.State (interface Estate TableRow EstateStatement Violation EstateNote)
  (Store Estate TableRow EstateNote Claim) Claim RouteError

/-- What happens to them. -/
abbrev Event := Session.Label Claim Unit String (Outside Estate)

/-- Claims side by side. -/
def claims : Transition.System Claiming Event :=
  system (machine estateSchema fun _ _ => false) (program sha)

/-! ### The claim as an edit of the structure -/

/-- The second program goes statement by statement through what the first does to the tables: it
draws nothing, and leaves the audit events out. -/
inductive Mirrors {α : Type} : Inventory.Request α → Structure.Request α → Prop
  | ret (a : α) : Mirrors (.ret a) (.ret a)
  | raise (e : RouteError) : Mirrors (.raise e) (.raise e)
  | read {k : Estate → Inventory.Request α} {k' : Tables → Structure.Request α}
      (h : ∀ est, Mirrors (k est) (k' (Estate.tables est))) :
      Mirrors (.call (.read none) k) (.call (.read none) k')
  | lock {k : Estate → Inventory.Request α} {k' : Tables → Structure.Request α} (row : TableRow)
      (h : ∀ est, Mirrors (k est) (k' (Estate.tables est))) :
      Mirrors (.call (.lock row) k) (.call (.lock row) k')
  | draw {k : String → Inventory.Request α} {m' : Structure.Request α} (h : ∀ x, Mirrors (k x) m') :
      Mirrors (.call .input k) m'
  | commit {w : List EstateStatement} {w' : List Statement} {note : Option EstateNote}
      {note' : Option HomeNote} {k : Except Violation Unit → Inventory.Request α}
      {k' : Except Violation Unit → Structure.Request α}
      (hw : ∃ audit, w = w'.map .table ++ [audit]) (h : ∀ r, Mirrors (k r) (k' r)) :
      Mirrors (.call (.commit w note) k) (.call (.commit w' note') k')

theorem mirrors_lift {α β : Type} {x : Except RouteError β} {f : β → Inventory.Request α}
    {f' : β → Structure.Request α} (h : ∀ b, x = .ok b → Mirrors (f b) (f' b)) :
    Mirrors (Prog.lift x >>= f) (Prog.lift x >>= f') := by
  cases x with
  | ok b => exact h b rfl
  | error e => exact .raise e

theorem mirrors_last {x : Except RouteError Unit} : Mirrors (Prog.lift x) (Prog.lift x) := by
  cases x with
  | ok u => exact .ret u
  | error e => exact .raise e

/-- **The claim of the structure** is this one, after the check of the route. -/
theorem claim_mirrors {actor house hardware room name : String} {digest : Except Error String}
    (htopic : topicId house = true) :
    ∃ rest, Structure.claim actor house hardware digest room name =
        (Structure.require actor house .deviceOnboard >>= fun _ => rest) ∧
      Mirrors (Inventory.claim actor house hardware digest room name) rest := by
  refine ⟨_, rfl, ?_⟩
  unfold Inventory.claim
  rw [htopic]
  refine .lock (.house house) fun est => .read fun est => ?_
  change Mirrors _ (Prog.bind (Prog.lift (found _ (est.tables.physical.find? _)) >>= _) _)
  simp only [Prog.bind]
  cases hfind : est.tables.physical.find? fun _ item => item.hardwareId = hardware with
  | none => exact .raise _
  | some e =>
      refine .lock (.physical e.1) fun est => ?_
      change Mirrors _ (Prog.bind (Prog.lift (found _ (est.tables.physical.get? e.1)) >>= _) _)
      simp only [Prog.bind]
      cases hget : est.tables.physical.get? e.1 with
      | none => exact .raise _
      | some item =>
          refine mirrors_lift fun _ _ => mirrors_lift fun _ _ => mirrors_lift fun _ _ =>
            mirrors_lift fun _ _ => mirrors_lift fun _ _ => .read fun est => ?_
          refine mirrors_lift fun _ _ => mirrors_lift fun _ _ => mirrors_lift fun profile _ => ?_
          refine .draw fun id => .draw fun correlationId => ?_
          exact .commit ⟨_, rfl⟩ fun r => mirrors_last

/-! ### What a claim does -/

/-- A row of the inventory that is claimed. -/
def claimedRow (device house : String) (item : PhysicalRow) : PhysicalRow :=
  { item with
    houseId := some house
    boundDeviceId := some device
    claimCodeHash := none
    status := .provisioning }

/-- The device that a claim adds. -/
def deviceRow (c : Claim) (profile : String × String × List String) : DeviceRow :=
  ⟨c.name, c.room, profile.2.1, [], profile.2.2, [], false⟩

/-- The audit event of a claim. -/
def auditRow (c : Claim) (device correlationId : String) : AuditRow :=
  ⟨c.house, "device_onboarding_changed", device, device, c.actor, .provisioning, correlationId⟩

/-- What a claim has to find: a free row with its code, a room in the house, and an identity
that no device has. -/
structure Grounds (c : Claim) (device : String) (item : PhysicalRow)
    (profile : String × String × List String) (est : Estate) : Prop where
  stocked : est.tables.physical.get? device = some item
  hardware : item.hardwareId = c.hardware
  free : item.status = .unprovisioned ∧ item.houseId = none
  code : ∃ digest, Provisioning.claimDigest sha c.code = .ok digest ∧
    item.claimCodeHash = some digest
  room : est.tables.structureHouse? (.room c.room) = some c.house
  model : Structure.profiles.find? (fun profile => profile.1 = item.hardwareModel) = some profile
  fresh : est.tables.devices.get? device = none

/-- The tables after a claim: the device, the binding, the consumed code, the status and the
audit event are there. -/
def claimed (c : Claim) (device : String) (item : PhysicalRow)
    (profile : String × String × List String) (id correlationId : String) (est : Estate) :
    Estate where
  tables := { est.tables with
    devices := est.tables.devices.set device (deviceRow c profile)
    physical := est.tables.physical.set device (claimedRow device c.house item) }
  audits := est.audits.set id (auditRow c device correlationId)

/-- A claim that was granted on its grounds. -/
inductive Granted (c : Claim) (device : String) (before after : Estate) : Prop
  | intro (item : PhysicalRow) (profile : String × String × List String)
      (id correlationId : String) (grounds : Grounds sha c device item profile before)
      (hid : before.audits.get? id = none)
      (hafter : after = claimed c device item profile id correlationId before)

section

variable {sha} {c : Claim} {device : String} {before after : Estate}

/-- The statements of a claim, on a database in which its checks hold. -/
theorem Granted.of_writes {item : PhysicalRow} {profile : String × String × List String}
    {id correlationId : String} (hitem : before.tables.physical.get? device = some item)
    (hbound : item.Bound device) (hhardware : item.hardwareId = c.hardware)
    (hcode : Provisioning.claimDigest sha c.code = .ok (item.claimCodeHash.getD ""))
    (hroom : before.tables.structureHouse? (.room c.room) = some c.house)
    (hprofile : Structure.profiles.find? (fun profile => profile.1 = item.hardwareModel) =
      some profile)
    (h : before.writes [.table (.insertDevice device (deviceRow c profile)),
      .table (.bind device c.house), .insertAudit id (auditRow c device correlationId)] =
        .ok after) :
    Granted sha c device before after := by
  obtain ⟨est₁, h₁, h⟩ := Estate.writes_cons.mp h
  obtain ⟨est₂, h₂, h⟩ := Estate.writes_cons.mp h
  rw [Estate.writes_singleton] at h
  obtain ⟨tables, htables, rfl⟩ := Estate.write_table.mp h₁
  obtain ⟨hnew, rfl⟩ := Tables.write_insertDevice htables
  obtain ⟨tables, htables, rfl⟩ := Estate.write_table.mp h₂
  obtain ⟨item', hitem', hstatus, hhouse, rfl⟩ := Tables.write_bind htables
  obtain ⟨hid, rfl⟩ := Estate.write_insertAudit h
  obtain rfl : item = item' := Option.some.inj (hitem.symm.trans hitem')
  obtain ⟨-, -, -, hhash⟩ | ⟨hother, -⟩ := hbound
  · obtain ⟨digest, hdigest⟩ := Option.ne_none_iff_exists'.mp hhash
    rw [hdigest] at hcode
    exact ⟨item, profile, id, correlationId, ⟨hitem, hhardware, ⟨hstatus, hhouse⟩,
      ⟨digest, hcode, hdigest⟩, hroom, hprofile, hnew⟩, hid, rfl⟩
  · exact absurd hstatus hother

/-- What is claimed is there. -/
theorem Granted.item (h : Granted sha c device before after) :
    ∃ item, before.tables.physical.get? device = some item ∧ item.hardwareId = c.hardware ∧
      item.status = .unprovisioned ∧
      after.tables.physical =
        before.tables.physical.set device (claimedRow device c.house item) := by
  obtain ⟨item, profile, id, correlationId, hgrounds, -, rfl⟩ := h
  exact ⟨item, hgrounds.stocked, hgrounds.hardware, hgrounds.free.1, rfl⟩

/-- Nothing is claimed but the device. -/
theorem Granted.others (h : Granted sha c device before after) :
    after.tables.houses = before.tables.houses ∧ after.tables.floors = before.tables.floors ∧
      after.tables.rooms = before.tables.rooms ∧
      ∀ d, d ≠ device → after.tables.physical.get? d = before.tables.physical.get? d ∧
        after.tables.devices.get? d = before.tables.devices.get? d := by
  obtain ⟨item, profile, id, correlationId, -, -, rfl⟩ := h
  refine ⟨rfl, rfl, rfl, fun d hd => ?_⟩
  constructor
  · show (before.tables.physical.set device _).get? d = _
    rw [Dict.get?_set_eq, if_neg hd]
  · show (before.tables.devices.set device _).get? d = _
    rw [Dict.get?_set_eq, if_neg hd]

end

/-! ### What claims leave as it is -/

/-- What claims have made of the tables `est`. -/
structure Since (est now : Estate) : Prop where
  houses : now.tables.houses = est.tables.houses
  floors : now.tables.floors = est.tables.floors
  rooms : now.tables.rooms = est.tables.rooms
  hardware : ∀ d, (now.tables.physical.get? d).map (·.hardwareId) =
    (est.tables.physical.get? d).map (·.hardwareId)
  bound : ∀ d item, est.tables.physical.get? d = some item → item.status ≠ .unprovisioned →
    now.tables.physical.get? d = some item
  constrained : ∀ d item, now.tables.physical.get? d = some item → item.Bound d

section

variable {sha}

theorem Since.refl {est : Estate}
    (h : ∀ d item, est.tables.physical.get? d = some item → item.Bound d) : Since est est :=
  ⟨rfl, rfl, rfl, fun _ => rfl, fun _ _ hitem _ => hitem, h⟩

/-- **A claim** leaves everything as it is that is not free. -/
theorem Since.claim {est now after : Estate} {c : Claim} {device : String}
    (h : Since est now) (hg : Granted sha c device now after) : Since est after := by
  obtain ⟨item, hitem, hhardware, hfree, hset⟩ := hg.item
  obtain ⟨hhouses, hfloors, hrooms, hothers⟩ := hg.others
  refine ⟨hhouses.trans h.houses, hfloors.trans h.floors, hrooms.trans h.rooms, fun d => ?_,
    fun d row hrow hstatus => ?_, fun d row hrow => ?_⟩
  · by_cases hd : d = device
    · subst hd
      rw [hset, Dict.get?_set_self, ← h.hardware, hitem]
      rfl
    · rw [(hothers d hd).1, h.hardware]
  · have hnow := h.bound d row hrow hstatus
    by_cases hd : d = device
    · subst hd
      obtain rfl := Option.some.inj (hnow.symm.trans hitem)
      exact absurd hfree hstatus
    · rw [(hothers d hd).1, hnow]
  · by_cases hd : d = device
    · subst hd
      rw [hset, Dict.get?_set_self] at hrow
      obtain rfl := Option.some.inj hrow
      exact .inr ⟨by simp [claimedRow], by simp [claimedRow], rfl, rfl⟩
    · rw [(hothers d hd).1] at hrow
      exact h.constrained d row hrow

/-- A device is where its hardware was. -/
theorem Since.origin {est now : Estate} (h : Since est now) {d : String} {item : PhysicalRow}
    (hitem : now.tables.physical.get? d = some item) :
    ∃ row, est.tables.physical.get? d = some row ∧ row.hardwareId = item.hardwareId := by
  have := h.hardware d
  rw [hitem, Option.map_some] at this
  exact Option.map_eq_some_iff.mp this.symm

theorem Since.room {est now : Estate} (h : Since est now) (room : String) :
    now.tables.structureHouse? (.room room) = est.tables.structureHouse? (.room room) := by
  simp only [Tables.structureHouse?, Tables.roomHouse?, Tables.floorHouse?, h.rooms, h.floors]

end

/-! ### The account of the claims -/

/-- The store of claims side by side. -/
abbrev Claimed := Store Estate TableRow EstateNote Claim

/-- The hardware of the claims that have been granted. -/
def granted (st : Claimed) : List String := st.trace.map (·.owner.hardware)

/-- What the granted claims tell of the tables. -/
structure Account (est : Estate) (st : Claimed) : Prop where
  since : Since est st.db
  /-- What was granted is not free any more. -/
  taken : ∀ e ∈ st.trace, ∃ d item, e.note = .claimed d ∧
    st.db.tables.physical.get? d = some item ∧ item.hardwareId = e.owner.hardware ∧
      item.status ≠ .unprovisioned
  once : (granted st).Nodup
  /-- What was not granted is as it was. -/
  untouched : ∀ d item, est.tables.physical.get? d = some item → item.hardwareId ∉ granted st →
    st.db.tables.physical.get? d = some item ∧
      st.db.tables.devices.get? d = est.tables.devices.get? d
  idle : st.trace = [] → st.db = est

variable {sha}

/-- **A claim that is granted** is entered in the account. -/
theorem Account.grant {stock : Stock} {st : Claimed} (h : Account stock.toEstate st)
    {s : Nat} {c : Claim} {device : String} {after : Estate}
    (hg : Granted sha c device st.db after) :
    Account stock.toEstate { st.record s c (some (.claimed device)) with db := after } := by
  obtain ⟨item, hitem, hhardware, hfree, hset⟩ := hg.item
  obtain ⟨-, -, -, hothers⟩ := hg.others
  have hnot : c.hardware ∉ granted st := by
    intro hmem
    obtain ⟨e, he, heq⟩ := List.mem_map.mp hmem
    obtain ⟨d, item', -, hitem', hhardware', hstatus⟩ := h.taken e he
    -- the same hardware is the same device, and that is taken
    obtain ⟨row, hrow, hid⟩ := h.since.origin hitem
    obtain ⟨row', hrow', hid'⟩ := h.since.origin hitem'
    have hsame : d = device := by
      refine stock.unique d device row' row hrow' hrow ?_
      rw [hid', hid, hhardware', hhardware, heq]
    subst hsame
    obtain rfl := Option.some.inj (hitem.symm.trans hitem')
    exact hstatus hfree
  constructor
  · exact h.since.claim hg
  · intro e he
    obtain rfl | he := List.mem_cons.mp he
    · refine ⟨device, claimedRow device c.house item, rfl, ?_, hhardware, by simp [claimedRow]⟩
      show after.tables.physical.get? device = _
      rw [hset, Dict.get?_set_self]
    · obtain ⟨d, item', hnote, hitem', hhardware', hstatus⟩ := h.taken e he
      refine ⟨d, item', hnote, ?_, hhardware', hstatus⟩
      have hd : d ≠ device := by
        intro hd
        subst hd
        obtain rfl := Option.some.inj (hitem.symm.trans hitem')
        exact hstatus hfree
      exact (hothers d hd).1.trans hitem'
  · exact List.nodup_cons.mpr ⟨hnot, h.once⟩
  · intro d row hrow hfresh
    obtain ⟨hne, hbefore⟩ : row.hardwareId ≠ c.hardware ∧ row.hardwareId ∉ granted st := by
      simpa [granted, Store.record] using hfresh
    obtain ⟨hphysical, hdevice⟩ := h.untouched d row hrow hbefore
    have hd : d ≠ device := by
      intro hd
      subst hd
      rw [Option.some.inj (hphysical.symm.trans hitem)] at hne
      exact hne hhardware
    exact ⟨(hothers d hd).1.trans hphysical, (hothers d hd).2.trans hdevice⟩
  · intro hnil
    cases hnil

/-! ### Programs keep to it -/

variable (sha)

/-- What a session knows when it commits its claim. -/
inductive Commits (c : Claim) (st : Claimed) : List EstateStatement → Option EstateNote → Prop
  | claim (device id correlationId : String) (item : PhysicalRow)
      (profile : String × String × List String)
      (hitem : st.db.tables.physical.get? device = some item)
      (hhardware : item.hardwareId = c.hardware)
      (hcode : Provisioning.claimDigest sha c.code = .ok (item.claimCodeHash.getD ""))
      (hroom : st.db.tables.structureHouse? (.room c.room) = some c.house)
      (hprofile : Structure.profiles.find? (fun profile => profile.1 = item.hardwareModel) =
        some profile) :
      Commits c st [.table (.insertDevice device (deviceRow c profile)),
        .table (.bind device c.house), .insertAudit id (auditRow c device correlationId)]
        (some (.claimed device))

/-- The protocol of claims on a stock. -/
def protocol (stock : Stock) : Protocol Estate TableRow EstateStatement EstateNote Claim where
  inv := Account stock.toEstate
  commits _ := Commits sha
  notes _ _ _ _ := False

variable {sha} {stock : Stock}

theorem Commits.granted {c : Claim} {st : Claimed} {w : List EstateStatement}
    {n : Option EstateNote} (hc : Commits sha c st w n) (h : Account stock.toEstate st)
    {est : Estate} (hdb : st.db.writes w = .ok est) :
    ∃ device, n = some (.claimed device) ∧ Granted sha c device st.db est := by
  obtain ⟨device, id, correlationId, item, profile, hitem, hhardware, hcode, hroom, hprofile⟩ := hc
  exact ⟨device, rfl, Granted.of_writes hitem (h.since.constrained device item hitem) hhardware
    hcode hroom hprofile hdb⟩

theorem keeps : (protocol sha stock).Keeps estateSchema (fun _ _ => false) where
  locks _ _ h := ⟨h.since, h.taken, h.once, h.untouched, h.idle⟩
  clock _ _ h _ := ⟨h.since, h.taken, h.once, h.untouched, h.idle⟩
  reading _ h := ⟨h.since, h.taken, h.once, h.untouched, h.idle⟩
  noted _ _ _ _ _ h := h.elim
  committed a s c w n db hi hc _ hdb := by
    obtain ⟨device, rfl, hg⟩ := Commits.granted hc hi hdb
    exact Account.grant hi hg
  changed _ _ _ h := nomatch h

abbrev contract (sha : Sha256) (stock : Stock) :=
  Protocol.contract (protocol sha stock) estateSchema fun _ _ => false

section Outlines

variable {s : Nat} {c : Claim}

/-- A session has locked a row of the inventory. -/
abbrev Holds (s : Nat) (e : String × PhysicalRow) : Claimed → Prop :=
  Protocol.Knows s (fun row => row = .physical e.1) fun est : Estate =>
    est.tables.physical.get? e.1 = some e.2

/-- Nobody else claims a row that is locked. -/
theorem stable_holds (e : String × PhysicalRow) :
    (contract sha stock).Stable s c (Holds s e) := by
  refine Protocol.stable_knows ?_ ?_
  · intro a t q w n est hne hi hc hfree hdb hlocks hrow
    obtain ⟨device, rfl, hg⟩ := Commits.granted hc hi hdb
    have hother : e.1 ≠ device := by
      rintro rfl
      obtain ⟨-, id, correlationId, item, profile, -⟩ := hc
      refine RowLocks.not_mem_of_held hfree (hlocks (.physical e.1) rfl) hne.symm ?_
      simp [estateSchema, Statement.targets]
    show est.tables.physical.get? e.1 = some e.2
    rw [(hg.others.2.2.2 e.1 hother).1]
    exact hrow
  · intro _ _ _ h
    cases h

/-- A row of the inventory keeps its hardware. -/
theorem stable_hardware (d hardware : String) :
    (contract sha stock).Stable s c fun st =>
      ∀ item, st.db.tables.physical.get? d = some item → item.hardwareId = hardware := by
  refine Protocol.stable_db (K := fun est : Estate =>
    ∀ item, est.tables.physical.get? d = some item → item.hardwareId = hardware) ?_ ?_
  · intro a t q w n est hi hc hdb hd item hitem
    obtain ⟨device, rfl, hg⟩ := Commits.granted hc hi hdb
    obtain ⟨row, hrow, hid⟩ := (hi.since.claim hg).origin hitem
    have hmap := hi.since.hardware d
    rw [hrow, Option.map_some] at hmap
    obtain ⟨before, hbefore, heq⟩ := Option.map_eq_some_iff.mp hmap
    rw [← hid, ← heq]
    exact hd before hbefore
  · intro _ _ _ h
    cases h

/-- The rooms stay where they are. -/
theorem stable_room (room house : String) :
    (contract sha stock).Stable s c fun st =>
      st.db.tables.structureHouse? (.room room) = some house := by
  refine Protocol.stable_db (K := fun est : Estate =>
    est.tables.structureHouse? (.room room) = some house) ?_ ?_
  · intro a t q w n est hi hc hdb hd
    obtain ⟨device, rfl, hg⟩ := Commits.granted hc hi hdb
    rw [(hi.since.claim hg).room, ← hi.since.room, hd]
  · intro _ _ _ h
    cases h

theorem outline_byHardware (hardware : String) :
    (contract sha stock).Outline (machine estateSchema fun _ _ => false) s c
      (Inventory.byHardware hardware) (fun _ => True)
      (Contract.returns fun found? st => ∀ e, found? = some e →
        e.2.hardwareId = hardware ∧ Holds s e st) := by
  refine Protocol.outline_read
    (R := fun est st => ∀ d item₀, est.tables.physical.find?
        (fun _ item => item.hardwareId = hardware) = some (d, item₀) →
      ∀ item, st.db.tables.physical.get? d = some item → item.hardwareId = hardware)
    (fun est => Contract.Stable.forall fun d => Contract.Stable.forall fun item₀ =>
      Contract.Stable.forall fun _ => stable_hardware d hardware)
    (fun _ _ _ _ hn => nomatch hn) ?_ fun est => ?_
  · intro st _ _ d item₀ hfind item hitem
    obtain ⟨hget, hhardware⟩ := Dict.find?_eq_some hfind
    obtain rfl := Option.some.inj (hitem.symm.trans hget)
    exact of_decide_eq_true hhardware
  · cases hfind : est.tables.physical.find? fun _ item => item.hardwareId = hardware with
    | none => exact fun _ _ _ _ he => nomatch he
    | some e =>
        obtain ⟨d, item₀⟩ := e
        refine Protocol.outline_lock
          (R := fun est st => ∀ item, est.tables.physical.get? d = some item →
            item.hardwareId = hardware ∧ Holds s (d, item) st)
          (fun est => Contract.Stable.forall fun item => Contract.Stable.forall fun _ =>
            (Contract.Stable.const _).and (stable_holds (d, item))) ?_ fun est' => ?_
        · intro st _ h item hitem
          refine ⟨h d item₀ rfl item hitem, ?_, ?_⟩
          · rintro row rfl
            refine Protocol.locked_take st _ ?_
            rw [Protocol.take_db]
            show (st.db.tables.physical.get? d).isSome = true
            rw [hitem, Option.isSome_some]
          · rw [Protocol.take_db]
            exact hitem
        · intro st _ h e he
          obtain ⟨item, hitem, rfl⟩ := Option.map_eq_some_iff.mp he
          exact h item hitem

theorem outline_program (call : Unit) :
    (contract sha stock).Outline (machine estateSchema fun _ _ => false) s c
      (program sha s c call) (fun _ => True) (fun _ _ => True) := by
  suffices h : (contract sha stock).Outline (machine estateSchema fun _ _ => false) s c
      (claim sha c) (fun _ => True) (Contract.returns fun _ _ => True) from
    h.post fun _ _ _ _ => trivial
  refine Protocol.outline_lift fun _ _ => ?_
  refine Protocol.outline_grab (Contract.Stable.const True) (fun _ _ => trivial) fun _ => ?_
  refine (outline_byHardware c.hardware).seq fun found? => ?_
  refine Protocol.outline_lift fun e he => ?_
  obtain ⟨device, item⟩ := e
  refine Contract.Outline.pre (P := fun st => item.hardwareId = c.hardware ∧
    Holds s (device, item) st) (Contract.Outline.given fun hhardware => ?_)
    fun st _ h => h _ (found_ok he)
  refine Protocol.outline_lift fun _ _ => ?_
  refine Protocol.outline_lift fun _ _ => ?_
  refine Protocol.outline_lift fun digest hdigest => ?_
  refine Protocol.outline_lift fun _ hcode => ?_
  refine Protocol.outline_read
    (R := fun est st => Holds s (device, item) st ∧
      ∀ house, est.tables.structureHouse? (.room c.room) = some house →
        st.db.tables.structureHouse? (.room c.room) = some house)
    (fun est => (stable_holds _).and (Contract.Stable.forall fun house =>
      Contract.Stable.forall fun _ => stable_room c.room house))
    (fun _ _ _ _ hn => nomatch hn) (fun st _ h => ⟨h, fun _ hroom => hroom⟩) fun est => ?_
  refine Protocol.outline_lift fun actual hactual => ?_
  refine Protocol.outline_lift fun _ hsame => ?_
  obtain rfl : actual = c.house := of_decide_eq_true (ensure_ok hsame)
  have hknown : (contract sha stock).Stable s c fun st => Holds s (device, item) st ∧
      st.db.tables.structureHouse? (.room c.room) = some c.house :=
    (stable_holds _).and (stable_room c.room c.house)
  refine Protocol.outline_lift fun profile hprofile => ?_
  refine Contract.Outline.pre (P := fun st => Holds s (device, item) st ∧
      st.db.tables.structureHouse? (.room c.room) = some c.house) ?_
    fun st _ h => ⟨h.1, h.2 _ (structureHouse_ok hactual)⟩
  refine Protocol.outline_input hknown fun id => ?_
  refine Protocol.outline_input hknown fun correlationId => ?_
  refine Protocol.outline_commit (R := fun _ _ => True) (fun _ => Contract.Stable.const True)
    (fun st _ h => ?_) (fun _ _ _ _ _ => trivial) (fun _ _ _ _ => trivial) fun r => ?_
  · have hsame : item.claimCodeHash.getD "" = digest := of_decide_eq_true (ensure_ok hcode)
    refine .claim device id correlationId item profile h.1.2 hhardware ?_ h.2 (found_ok hprofile)
    rw [hsame]
    exact raised_ok hdigest
  · exact Protocol.outline_last

end Outlines

/-! ### How claims end -/

/-- Every note is a claim. -/
def mark (_ : Claim) (_ : Estate) (_ : EstateNote) : Bool := true

theorem effects_mark (st : Claimed) : st.effects mark = st.trace :=
  List.filter_eq_self.mpr fun _ _ => rfl

theorem unnoted_byHardware (hardware : String) : Unnoted (Inventory.byHardware hardware) := by
  refine ⟨rfl, fun est => ?_⟩
  simp only [Prog.bind]
  split
  · trivial
  · exact fun _ => trivial

theorem unnoted_structureHouse (place : Place) : Unnoted (Inventory.structureHouse place) := by
  refine ⟨rfl, fun est => ?_⟩
  show Unnoted (Prog.lift (Tables.structureHouse _ _))
  cases Tables.structureHouse _ place <;> trivial

theorem unnoted_audit (device house actor : String) (status : PhysicalStatus) :
    Unnoted (Inventory.audit device house actor status) := fun _ _ => trivial

/-- A claim takes effect once before it returns. -/
theorem marked_program (s : Nat) (c : Claim) (call : Unit) :
    Marked mark c false (program sha s c call) := by
  refine marked_lift fun _ _ => fun _ => ?_
  refine (unnoted_byHardware c.hardware).marked fun found? => ?_
  refine marked_lift fun e _ => ?_
  obtain ⟨device, item⟩ := e
  refine marked_lift fun _ _ => marked_lift fun _ _ => marked_lift fun _ _ =>
    marked_lift fun _ _ => ?_
  refine (unnoted_structureHouse (.room c.room)).marked fun actual => ?_
  refine marked_lift fun _ _ => marked_lift fun profile _ => ?_
  refine (unnoted_audit device c.house c.actor .provisioning).marked fun event => ?_
  refine marked_commit (fun _ => rfl) rfl fun e => ?_
  cases e <;> trivial

/-- Nothing comes after the effect of a claim. -/
theorem closing_program (s : Nat) (c : Claim) (call : Unit) :
    Closing mark c (program sha s c call) := by
  refine closing_lift fun _ _ => fun _ => ?_
  refine (unnoted_byHardware c.hardware).closing fun found? => ?_
  refine closing_lift fun e _ => ?_
  obtain ⟨device, item⟩ := e
  refine closing_lift fun _ _ => closing_lift fun _ _ => closing_lift fun _ _ =>
    closing_lift fun _ _ => ?_
  refine (unnoted_structureHouse (.room c.room)).closing fun actual => ?_
  refine closing_lift fun _ _ => closing_lift fun profile _ => ?_
  refine (unnoted_audit device c.house c.actor .provisioning).closing fun event => ?_
  exact closing_commit ⟨(), rfl⟩ fun r => closing_last

/-- The hardware is not there, or bound to another house. -/
def Foreign (c : Claim) (est : Estate) : Prop :=
  ∀ d item, est.tables.physical.get? d = some item → item.hardwareId = c.hardware →
    ∃ house, item.houseId = some house ∧ house ≠ c.house

variable (sha) in
/-- The answer to a claim of such a hardware. -/
def refusal (c : Claim) : Except RouteError Unit :=
  .error (.service (if topicId c.house then .notFound "Resource not found"
    else .other "ValidationError"))

/-- What is foreign stays foreign. -/
theorem Foreign.since {c : Claim} {est now : Estate} (h : Foreign c est)
    (hbound : ∀ d item, est.tables.physical.get? d = some item → item.Bound d)
    (hs : Since est now) : Foreign c now := by
  intro d item hitem hhardware
  obtain ⟨row, hrow, hid⟩ := hs.origin hitem
  obtain ⟨house, hhouse, hne⟩ := h d row hrow (hid.trans hhardware)
  have hstatus : row.status ≠ .unprovisioned := by
    obtain ⟨-, hnone, -⟩ | ⟨hstatus, -⟩ := hbound d row hrow
    · rw [hhouse] at hnone
      cases hnone
    · exact hstatus
  obtain rfl := Option.some.inj ((hs.bound d row hrow hstatus).symm.trans hitem)
  exact ⟨house, hhouse, hne⟩

/-- What `by_hardware` finds of a foreign hardware. -/
theorem answered_byHardware {c : Claim} {est : Estate} (h : Foreign c est)
    (hbound : ∀ d item, est.tables.physical.get? d = some item → item.Bound d) :
    Answered (Since est) (fun r => ∃ found?, r = .ok found? ∧ ∀ e, found? = some e →
      ∃ house, e.2.houseId = some house ∧ house ≠ c.house) (Inventory.byHardware c.hardware) := by
  unfold Inventory.byHardware
  refine answered_read fun first hfirst => ?_
  split
  · exact ⟨none, rfl, nofun⟩
  · rename_i device item₀ hfind
    obtain ⟨hget, hhardware⟩ := Dict.find?_eq_some hfind
    refine answered_lock fun now hnow => ⟨_, rfl, fun e he => ?_⟩
    obtain ⟨item, hitem, rfl⟩ := Option.map_eq_some_iff.mp he
    refine h.since hbound hnow device item hitem ?_
    -- the row is the one that was looked up
    obtain ⟨row, hrow, hid⟩ := hnow.origin hitem
    obtain ⟨row', hrow', hid'⟩ := hfirst.origin hget
    obtain rfl := Option.some.inj (hrow.symm.trans hrow')
    rw [← hid, hid']
    exact of_decide_eq_true hhardware

/-- On tables on which the hardware is foreign, that is what a claim learns. -/
theorem answered_claim {c : Claim} {est : Estate} (h : Foreign c est)
    (hbound : ∀ d item, est.tables.physical.get? d = some item → item.Bound d) :
    Answered (Since est) (· = refusal c) (claim sha c) := by
  unfold claim Inventory.claim
  cases htopic : topicId c.house with
  | false => exact show Except.error _ = refusal c by rw [refusal, htopic]; rfl
  | true =>
      have hrefusal : refusal c = .error (.service (.notFound "Resource not found")) := by
        rw [refusal, htopic]
        rfl
      refine answered_lock fun _ _ => (answered_byHardware h hbound).bind ?_ ?_
      · rintro e ⟨_, hnone, -⟩
        cases hnone
      · rintro found? ⟨_, heq, hforeign⟩
        obtain rfl := Except.ok.inj heq
        cases found? with
        | none => exact hrefusal.symm
        | some e =>
            obtain ⟨device, item⟩ := e
            obtain ⟨house, hhouse, hne⟩ := hforeign _ rfl
            have hfail : (item.houseId = none || item.houseId = some c.house : Bool) = false := by
              rw [show item.houseId = some house from hhouse]
              simpa using hne
            show Answered _ _ (Prog.lift (ensure _ _) >>= _)
            rw [hfail]
            exact hrefusal.symm

/-! ### Runs -/

section Runs

variable {st : Claiming}

theorem obligations :
    Obligations (contract sha stock) (machine estateSchema fun _ _ => false) (program sha) :=
  keeps.obligations fun _ _ call => outline_program call

/-- **One step** of claims side by side changes nothing, or grants one. -/
theorem next_cases (hs : Sound (contract sha stock) (machine estateSchema fun _ _ => false) st)
    (l : Event) :
    (((claims sha).next st l).shared.db = st.shared.db ∧
      ((claims sha).next st l).shared.trace = st.shared.trace) ∨
    ∃ s c device, ((claims sha).next st l).shared.trace =
        ⟨s, c, st.shared.db, .claimed device⟩ :: st.shared.trace ∧
      Granted sha c device st.shared.db ((claims sha).next st l).shared.db := by
  have hturns : Protocol.Turns (protocol sha stock) estateSchema (fun _ _ => false) st.shared
      ((claims sha).next st l).shared := Protocol.next_turns hs l
  generalize ((claims sha).next st l).shared = after at hturns ⊢
  cases hturns with
  | quiet hdb htrace => exact .inl ⟨hdb, htrace⟩
  | noted s p n h => exact h.elim
  | committed s c w n hc hdb htrace =>
      obtain ⟨device, rfl, hg⟩ := Commits.granted hc hs.inv hdb
      exact .inr ⟨s, c, device, htrace, hg⟩
  | changed h => cases h

/-- **A run** goes on from the tables that it starts with. -/
theorem run_since (hs : Sound (contract sha stock) (machine estateSchema fun _ _ => false) st)
    (labels : List Event) : Since st.shared.db ((claims sha).run st labels).shared.db := by
  induction labels using List.reverseRecOn with
  | nil => exact Since.refl hs.inv.since.constrained
  | append_singleton labels l ih =>
      rw [Transition.System.run_snoc]
      obtain ⟨hdb, -⟩ | ⟨s, c, device, -, hg⟩ := next_cases (hs.run obligations labels) l
      · exact hdb ▸ ih
      · exact ih.claim hg

end Runs

/-! ### A claim on its own -/

/-- The hardware of a row finds it. -/
theorem find?_hardware {est : Estate} (hunique : ∀ d d' item item',
      est.tables.physical.get? d = some item → est.tables.physical.get? d' = some item' →
        item.hardwareId = item'.hardwareId → d = d') {device : String} {item : PhysicalRow}
    (h : est.tables.physical.get? device = some item) :
    est.tables.physical.find? (fun _ row => row.hardwareId = item.hardwareId) =
      some (device, item) := by
  cases hfind : est.tables.physical.find? fun _ row => row.hardwareId = item.hardwareId with
  | none =>
      have := Dict.find?_eq_none.mp hfind (device, item) (Dict.get?_eq_some.mp h)
      simp at this
  | some e =>
      obtain ⟨hget, hhardware⟩ := Dict.find?_eq_some hfind
      have hkey : e.1 = device := hunique _ _ _ _ hget h (of_decide_eq_true hhardware)
      rw [hkey, h] at hget
      rw [← hkey, Option.some.inj hget]

/-- Hardware stays unique. -/
theorem Since.unique {stock : Stock} {now : Estate} (h : Since stock.toEstate now)
    (d d' : String) (item item' : PhysicalRow) (hitem : now.tables.physical.get? d = some item)
    (hitem' : now.tables.physical.get? d' = some item')
    (hsame : item.hardwareId = item'.hardwareId) : d = d' := by
  obtain ⟨row, hrow, hid⟩ := h.origin hitem
  obtain ⟨row', hrow', hid'⟩ := h.origin hitem'
  exact stock.unique d d' row row' hrow hrow' (by rw [hid, hid', hsame])

theorem writes_claimed {c : Claim} {device : String} {item : PhysicalRow}
    {profile : String × String × List String} {est : Estate}
    (h : Grounds sha c device item profile est)
    (hhouse : (est.tables.houses.get? c.house).isSome = true) (id correlationId : String)
    (hid : est.audits.get? id = none) :
    est.writes [.table (.insertDevice device (deviceRow c profile)),
      .table (.bind device c.house), .insertAudit id (auditRow c device correlationId)] =
        .ok (claimed c device item profile id correlationId est) := by
  have hroom : (est.tables.rooms.get? c.room).isSome = true := by
    obtain ⟨row, hrow, -⟩ := Option.bind_eq_some_iff.mp h.room
    rw [hrow, Option.isSome_some]
  simp [Estate.writes, Estate.write, Tables.write, Except.bind, Except.map, h.fresh, h.stocked,
    h.free.1, h.free.2, hroom, hhouse, hid, deviceRow, claimed, claimedRow]

/-- `by_hardware`, with what comes after it. -/
theorem byHardware_bind (hardware : String)
    (k : Option (String × PhysicalRow) → Inventory.Request Unit) :
    (Inventory.byHardware hardware >>= k) = Sql.read none >>= fun est : Estate =>
      match est.tables.physical.find? fun _ item => item.hardwareId = hardware with
      | none => k none
      | some (device, _) => Sql.lock (.physical device) >>= fun est : Estate =>
        k ((est.tables.physical.get? device).map fun item => (device, item)) := by
  refine congrArg (Prog.call _) (funext fun est => ?_)
  simp only [Prog.bind]
  cases est.tables.physical.find? fun _ item => item.hardwareId = hardware with
  | none => rfl
  | some e => rfl

/-- **A claim on good grounds** succeeds when nobody else does anything. -/
theorem Grounds.suffice {st : Claimed} {s : Nat} {c : Claim} {device : String} {item : PhysicalRow}
    {profile : String × String × List String} (h : Grounds sha c device item profile st.db)
    (hunique : ∀ d d' item item', st.db.tables.physical.get? d = some item →
      st.db.tables.physical.get? d' = some item' → item.hardwareId = item'.hardwareId → d = d')
    (htopic : topicId c.house = true)
    (hhouse : (st.db.tables.houses.get? c.house).isSome = true) (id correlationId : String)
    (hid : st.db.audits.get? id = none) (hfree : Free s st) :
    ∃ inputs st', alone estateSchema s c (claim sha c) st inputs = some (.ok (), st') ∧
      st'.db = claimed c device item profile id correlationId st.db := by
  obtain ⟨digest, hcode, hdigest⟩ := h.code
  have hfind := find?_hardware hunique h.stocked
  rw [h.hardware] at hfind
  let first : Claimed := st.take estateSchema s (.house c.house)
  let second : Claimed := first.take estateSchema s (.physical device)
  have hfirst : Free s first := hfree.take _
  have hsecond : Free s second := hfirst.take _
  have hdb : second.db = st.db := by rw [Protocol.take_db, Protocol.take_db]
  have hby : ∀ (k : Option (String × PhysicalRow) → Inventory.Request Unit) inputs,
      alone estateSchema s c (Inventory.byHardware c.hardware >>= k) first inputs =
        alone estateSchema s c (k (some (device, item))) second inputs.tail.tail := by
    intro k inputs
    rw [byHardware_bind]
    show alone estateSchema s c (match first.db.tables.physical.find? _ with
      | none => _ | some (device, _) => _) first inputs.tail = _
    rw [Protocol.take_db, hfind]
    refine (alone_lock hfirst).trans ?_
    rw [Protocol.take_db, h.stocked]
    rfl
  have hhidden : ensure (item.claimCodeHash.getD "" = digest : Bool)
      (.notFound "Resource not found") = .ok () := by
    rw [hdigest, Option.getD_some, decide_eq_true rfl]
    rfl
  have hroom : Tables.structureHouse (Estate.tables second.db) (.room c.room) = .ok c.house := by
    rw [hdb, Tables.structureHouse, h.room]
  have hwrites := writes_claimed h hhouse id correlationId hid
  rw [← hdb] at hwrites
  refine ⟨["", "", "", "", id, correlationId, ""], second.commit s c (some (.claimed device))
    (claimed c device item profile id correlationId second.db), ?_, by rw [← hdb]; rfl⟩
  · refine (alone_lift (by rw [ensure, if_pos htopic])).trans ((alone_lock hfree).trans
      ((hby _ _).trans ?_))
    refine (alone_lift rfl).trans ?_
    refine (alone_lift (b := ()) (by rw [h.free.2]; rfl)).trans ?_
    refine (alone_lift (b := ()) (by rw [h.free.1]; rfl)).trans ?_
    refine (alone_lift (b := digest) (by rw [hcode]; rfl)).trans ?_
    refine (alone_lift hhidden).trans ((alone_lift hroom).trans ?_)
    refine (alone_lift (b := ()) (by rw [ensure, decide_eq_true rfl]; rfl)).trans ?_
    refine (alone_lift (b := profile) (by rw [h.model]; rfl)).trans ?_
    exact alone_commit hsecond hwrites

variable (sha) in
/-- What is true of claims side by side, whenever one looks. -/
structure Exclusive (stock : Stock) (st : Claiming) : Prop where
  /-- At most one claim of each hardware has succeeded. -/
  once : (granted st.shared).Nodup
  /-- The next step changes nothing, or commits all of a claim that was granted. -/
  step : ∀ l, (((claims sha).next st l).shared.db = st.shared.db ∧
      ((claims sha).next st l).shared.trace = st.shared.trace) ∨
    ∃ s c device, ((claims sha).next st l).shared.trace =
        ⟨s, c, st.shared.db, .claimed device⟩ :: st.shared.trace ∧
      Granted sha c device st.shared.db ((claims sha).next st l).shared.db
  /-- A claim that has returned was granted. -/
  returned : ∀ s c, st.sessions s = some (c, .ret ()) →
    ∃ e ∈ st.shared.trace, e.session = s ∧ e.owner = c
  /-- A claim that has failed was not. -/
  raised : ∀ s c err, st.sessions s = some (c, .raise err) →
    ∀ e ∈ st.shared.trace, e.session ≠ s
  /-- As long as no claim has succeeded, the tables are as they were. -/
  idle : st.shared.trace = [] → st.shared.db = stock.toEstate
  /-- As long as no claim of a hardware has succeeded, its code is good for what it was. -/
  usable : ∀ c device item profile, c.hardware ∉ granted st.shared →
    Grounds sha c device item profile stock.toEstate →
      Grounds sha c device item profile st.shared.db
  /-- A claim on good grounds succeeds, if from now on it runs on its own. -/
  granted : ∀ c device item profile id correlationId, topicId c.house = true →
    Grounds sha c device item profile st.shared.db →
      (st.shared.db.tables.houses.get? c.house).isSome = true →
        st.shared.db.audits.get? id = none → Free st.started st.shared →
          ∃ more, ((claims sha).run st (.start c () :: more)).sessions st.started =
              some (c, .ret ()) ∧
            ((claims sha).run st (.start c () :: more)).shared.db =
              claimed c device item profile id correlationId st.shared.db
  /-- A claim of a hardware that is not there and one of a hardware that is bound to another
  house end alike. -/
  hidden : ∀ labels s c m r, Foreign c st.shared.db → st.started ≤ s →
    ((claims sha).run st labels).sessions s = some (c, m) → m.outcome? = some r → r = refusal c

/-- **Claims.** Whatever claims run on a stock, in any order of their statements. -/
theorem claim_once (stock : Stock) (labels : List Event) :
    Exclusive sha stock ((claims sha).run (State.init (Store.init stock.toEstate 0)) labels) := by
  have hfirst : Account stock.toEstate (Store.init stock.toEstate 0) :=
    ⟨Since.refl stock.bound, nofun, List.nodup_nil, fun _ _ hitem _ => ⟨hitem, rfl⟩, fun _ => rfl⟩
  have hsound : Sound (contract sha stock) (machine estateSchema fun _ _ => false)
      ((claims sha).run (State.init (Store.init stock.toEstate 0)) labels) :=
    (Sound.init hfirst).run obligations labels
  obtain ⟨htally, hsettled⟩ : Tally mark
      ((claims sha).run (State.init (Store.init stock.toEstate 0)) labels) ∧ Settled mark
      ((claims sha).run (State.init (Store.init stock.toEstate 0)) labels) :=
    run_settled marked_program closing_program rfl labels
  generalize (claims sha).run (State.init (Store.init stock.toEstate 0)) labels = st at *
  have haccount : Account stock.toEstate st.shared := hsound.inv
  constructor
  · exact haccount.once
  · exact next_cases hsound
  · intro s c hs
    rw [← effects_mark]
    exact htally.returned hs
  · intro s c err hs
    rw [← effects_mark]
    exact hsettled.raised hs
  · exact haccount.idle
  · intro c device item profile hnot h
    obtain ⟨hitem, hdevice⟩ := haccount.untouched device item h.stocked
      (h.hardware.symm ▸ hnot)
    refine ⟨hitem, h.hardware, h.free, h.code, ?_, h.model, hdevice.trans h.fresh⟩
    rw [haccount.since.room, h.room]
  · intro c device item profile id correlationId htopic h hhouse hid hfree
    obtain ⟨inputs, after, halone, hafter⟩ :=
      h.suffice haccount.since.unique htopic hhouse id correlationId hid hfree
    have hstarted : (claims sha).next st (.start c ()) = _ := next_start rfl ()
    have hsession : ((claims sha).next st (.start c ())).sessions st.started =
        some (c, claim sha c) := by
      rw [hstarted]
      exact Function.update_self ..
    obtain ⟨more, m, hshared, hm, hout⟩ := run_alone hsession (by rw [hstarted]; exact halone)
    obtain rfl := Prog.eq_lift hout
    refine ⟨more, hm, ?_⟩
    rw [Transition.System.run_cons]
    exact (congrArg Store.db hshared).trans hafter
  · intro more s c m r hforeign hnew hm hr
    have hprog : ∀ s c' call, Answered (Since st.shared.db)
        (fun r => c' = c → r = refusal c) (program sha s c' call) := by
      intro s c' call
      by_cases hc : c' = c
      · subst hc
        exact (answered_claim hforeign haccount.since.constrained).post fun _ hr _ => hr
      · exact answered_true _ fun r h => absurd h hc
    have hinformed := run_informed hprog more (fun before _ => run_since hsound before)
      htally.unused
    exact (hinformed s c m hnew hm).outcome hr rfl

/-! ### A lamp that two houses claim -/

/-- What is printed on the lamp. -/
def printed : String := "kzhome-claim-code-kzhome-claim-code-kzhome1"

/-- The digests of this example. -/
def plain : Sha256 := ⟨id, fun _ _ h => h⟩

/-- A lamp that nobody has claimed, and a heater of the villa. -/
def warehouse : Stock where
  tables := {
    houses := .ofList [("home", ⟨"Home"⟩), ("villa", ⟨"Villa"⟩)]
    floors := .ofList [("ground", ⟨"home", "Ground", 0⟩), ("upper", ⟨"villa", "Upper", 1⟩)]
    rooms := .ofList [("hall", ⟨"ground", "Hall", none⟩), ("study", ⟨"upper", "Study", none⟩)]
    devices := .ofList [("heater", ⟨"Heater", "study", "relay", [], ["on_off"], [], true⟩)]
    physical := .ofList [
      ("lamp", ⟨"esp-1", "esp32-relay-v1", .unprovisioned, some printed, none, none⟩),
      ("heater", ⟨"esp-2", "esp32-relay-v1", .active, none, some "villa", some "heater"⟩)]
    memberships := .empty
    users := .empty
    scenes := .empty
    automations := .empty
    attempts := .empty
    ledger := ⟨[], []⟩
    issued := [] }
  audits := .empty
  unique d d' item item' h h' hsame := by
    rcases List.mem_cons.mp (Dict.get?_eq_some.mp h) with h | h <;>
    rcases List.mem_cons.mp (Dict.get?_eq_some.mp h') with h' | h'
    · exact (Prod.mk.inj h).1.trans (Prod.mk.inj h').1.symm
    · obtain ⟨rfl, rfl⟩ := Prod.mk.inj h
      obtain ⟨rfl, rfl⟩ := Prod.mk.inj (List.mem_singleton.mp h')
      exact absurd hsame (by decide)
    · obtain ⟨rfl, rfl⟩ := Prod.mk.inj h'
      obtain ⟨rfl, rfl⟩ := Prod.mk.inj (List.mem_singleton.mp h)
      exact absurd hsame (by decide)
    · exact (Prod.mk.inj (List.mem_singleton.mp h)).1.trans
        (Prod.mk.inj (List.mem_singleton.mp h')).1.symm
  bound d item h := by
    rcases List.mem_cons.mp (Dict.get?_eq_some.mp h) with h | h
    · obtain ⟨rfl, rfl⟩ := Prod.mk.inj h
      exact .inl ⟨rfl, rfl, rfl, by decide⟩
    · obtain ⟨rfl, rfl⟩ := Prod.mk.inj (List.mem_singleton.mp h)
      exact .inr ⟨by decide, by decide, rfl, rfl⟩

/-- Ann claims the lamp for her hall. -/
def annsClaim : Claim := ⟨"ann", "home", "esp-1", printed, "hall", "Lamp"⟩

/-- Vic claims it for the villa. -/
def vicsClaim : Claim := ⟨"vic", "villa", "esp-1", printed, "study", "Lamp"⟩

/-- Vic has found the lamp when Ann's claim has it; in the end Ann claims the heater, too. -/
def contest : List Event :=
  [.start annsClaim (), .start vicsClaim (), .exec 0 "", .exec 1 "", .exec 0 "", .exec 1 "",
    .exec 0 "", .exec 1 "", .exec 0 "", .exec 0 "audit", .exec 0 "correlation", .exec 0 "",
    .exec 1 "", .start { annsClaim with hardware := "esp-2" } (), .exec 2 "", .exec 2 "",
    .exec 2 ""]

/-- The claims after the contest. -/
def contested : Claiming :=
  (claims plain).run (State.init (Store.init warehouse.toEstate 0)) contest

/-- Ann's claim has good grounds. -/
theorem annsGrounds : Grounds plain annsClaim "lamp"
    ⟨"esp-1", "esp32-relay-v1", .unprovisioned, some printed, none, none⟩
    ("esp32-relay-v1", "relay", ["on_off"]) warehouse.toEstate where
  stocked := rfl
  hardware := rfl
  free := ⟨rfl, rfl⟩
  code := ⟨printed, by decide +kernel, rfl⟩
  room := rfl
  model := by decide
  fresh := rfl

/-- Ann gets the lamp, and Vic and she hear the same of what they cannot have. On its own, her
claim would have succeeded as well. -/
theorem claim_once_warehouse :
    [0, 1, 2].map (fun s => (contested.sessions s).bind fun m => m.2.outcome?) =
      [some (.ok ()), some (.error (.service (.notFound "Resource not found"))),
        some (.error (.service (.notFound "Resource not found")))] ∧
    granted contested.shared = ["esp-1"] ∧ Exclusive plain warehouse contested ∧
    ∃ more, ((claims plain).run (State.init (Store.init warehouse.toEstate 0))
      (.start annsClaim () :: more)).sessions 0 = some (annsClaim, .ret ()) := by
  refine ⟨by decide +kernel, by decide +kernel, claim_once warehouse contest, ?_⟩
  obtain ⟨more, hreturned, -⟩ := (claim_once warehouse []).granted annsClaim "lamp" _ _ "audit" ""
    (by decide +kernel) annsGrounds rfl rfl fun row => .inl rfl
  exact ⟨more, hreturned⟩

end Claims

end KzHome

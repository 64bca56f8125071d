import KzHome.Inventory
import KzHome.Lib.SqlRules
import Mathlib

/-!
# KzHome.Reservations

Ordinary and reserved identities.

`register_inventory` looks for a device with the identity before it adds it to the
inventory, and `DeviceService.create` looks for it in the inventory before it adds a
device. Neither look leaves a lock behind when it finds nothing, and no constraint spans
the two tables, so each can overtake the other between its look and its commit.

**Reservations** (`apart_iff`): in a run, no identity is ever both ordinary and reserved
exactly when no registration and no creation of the same identity overtake each other.
-/

namespace KzHome

open Session Sql StateValidator

namespace Estate

variable (est : Estate)

/-- There is a device with the identity. -/
def hasDevice (device : String) : Bool := (est.tables.devices.get? device).isSome

/-- No identity is both ordinary and reserved. -/
def Apart : Prop :=
  ∀ device, ¬ (est.status? device = some .unprovisioned ∧ est.hasDevice device = true)

end Estate

namespace Reservations

/-- The calls that bring identities into the tables. -/
inductive Call
  | register (device hardware model : String) (digest : Except Error String)
  | create (device : String) (row : DeviceRow)
  | claim (house hardware : String) (digest : Except Error String) (room name : String)

/-- The program of a call. -/
def program (_ : Nat) (actor : String) : Call → Inventory.Request Unit
  | .register device hardware model digest =>
    Inventory.registerInventory device hardware model digest
  | .create device row => Inventory.createDevice device row
  | .claim house hardware digest room name =>
    Inventory.claim actor house hardware digest room name

/-- Calls side by side. -/
def calls : Transition.System
    (Session.State (interface Estate TableRow EstateStatement Violation EstateNote)
      (Store Estate TableRow EstateNote String) String RouteError)
    (Session.Label String Call String (Outside Estate)) :=
  system (machine estateSchema fun _ _ => false) program

/-- A commit that was not overtaken: no creation of the identity was committed since the
registration looked for a device, no registration since the creation looked in the
inventory. -/
structure InOrder (trace : List (Entry Estate EstateNote String))
    (e : Entry Estate EstateNote String) : Prop where
  registration : ∀ device, e.note = .registered device →
    ∀ newer look older, trace = newer ++ look :: older → look.session = e.session →
      look.note = .unused device → ∀ c ∈ newer, c.note ≠ .created device
  creation : ∀ device, e.note = .created device →
    ∀ newer look older, trace = newer ++ look :: older → look.session = e.session →
      look.note = .unreserved device → ∀ c ∈ newer, c.note ≠ .registered device

/-- A step that does not commit what was overtaken. -/
def Orderly
    (st : Session.State (interface Estate TableRow EstateStatement Violation EstateNote)
      (Store Estate TableRow EstateNote String) String RouteError)
    (l : Session.Label String Call String (Outside Estate)) : Prop :=
  ∀ e, (calls.next st l).shared.trace = e :: st.shared.trace → InOrder st.shared.trace e

/-! ### What the statements do to identities -/

/-- What comes with a note: nothing with a look, the row of the identity with a commit. -/
structure Effect (est est' : Estate) (note : EstateNote) : Prop where
  devices : ∀ d, est'.hasDevice d = true ↔
    est.hasDevice d = true ∨ note = .created d ∨ note = .claimed d
  physical : ∀ d, est'.status? d =
    if note = .registered d then some .unprovisioned
    else if note = .claimed d then some .provisioning else est.status? d
  added : ∀ d, note = .created d ∨ note = .claimed d → est.hasDevice d = false
  registered : ∀ d, note = .registered d → est.status? d = none
  claimed : ∀ d, note = .claimed d → est.status? d = some .unprovisioned

theorem Effect.look (est : Estate) {note : EstateNote}
    (h : (∃ d, note = .unused d) ∨ ∃ d, note = .unreserved d) : Effect est est note := by
  obtain ⟨d, rfl⟩ | ⟨d, rfl⟩ := h
  · constructor <;> simp
  · constructor <;> simp

theorem hasDevice_eq_false {est : Estate} {d : String} :
    est.hasDevice d = false ↔ est.tables.devices.get? d = none := by
  rw [Estate.hasDevice, Option.isSome_eq_false_iff, Option.isNone_iff_eq_none]

theorem hasDevice_set {est est' : Estate} {device : String} {row : DeviceRow}
    (h : est'.tables.devices = est.tables.devices.set device row) (d : String) :
    est'.hasDevice d = true ↔ est.hasDevice d = true ∨ d = device := by
  rw [Estate.hasDevice, h, Dict.get?_set_eq]
  by_cases hd : d = device
  · rw [if_pos hd]
    exact iff_of_true rfl (.inr hd)
  · rw [if_neg hd]
    exact (or_iff_left hd).symm

theorem Effect.of_register {est est' : Estate} {device : String} {row : PhysicalRow}
    (h : est.writes [.insertPhysical device row] = .ok est') (hrow : row.status = .unprovisioned) :
    Effect est est' (.registered device) := by
  rw [Estate.writes_singleton] at h
  obtain ⟨hnew, rfl⟩ := Estate.write_insertPhysical h
  constructor
  · simp [Estate.hasDevice]
  · intro d
    rw [Estate.status?_set rfl, hrow]
    simp only [EstateNote.registered.injEq, reduceCtorEq, if_false, eq_comm]
  · simp
  · intro d hd
    cases hd
    rw [Estate.status?, hnew, Option.map_none]
  · simp

theorem Effect.of_create {est est' : Estate} {device : String} {row : DeviceRow}
    (h : est.writes [.table (.insertDevice device row)] = .ok est') :
    Effect est est' (.created device) := by
  rw [Estate.writes_singleton] at h
  obtain ⟨tables, htables, rfl⟩ := Estate.write_table.mp h
  obtain ⟨hnew, rfl⟩ := Tables.write_insertDevice htables
  constructor
  · intro d
    rw [hasDevice_set rfl]
    refine or_congr_right ⟨fun h => .inl (h ▸ rfl), fun h => ?_⟩
    obtain h | h := h
    · cases h
      rfl
    · cases h
  · intro d
    simp [Estate.status?]
  · intro d hd
    obtain rfl : device = d := by simpa using hd
    exact hasDevice_eq_false.mpr hnew
  · simp
  · simp

theorem Effect.of_claim {est est' : Estate} {device house id : String} {row : DeviceRow}
    {event : AuditRow}
    (h : est.writes [.table (.insertDevice device row), .table (.bind device house),
      .insertAudit id event] = .ok est') :
    Effect est est' (.claimed device) := by
  obtain ⟨hnew, hbefore, -, hdevices, hafter, -⟩ := Estate.writes_claim h
  constructor
  · intro d
    rw [hasDevice_set hdevices]
    refine or_congr_right ⟨fun h => .inr (h ▸ rfl), fun h => ?_⟩
    obtain h | h := h
    · cases h
    · cases h
      rfl
  · intro d
    rw [hafter]
    simp only [EstateNote.claimed.injEq, reduceCtorEq, if_false, eq_comm]
  · intro d hd
    obtain rfl : device = d := by simpa using hd
    exact hasDevice_eq_false.mpr hnew
  · simp
  · intro d hd
    cases hd
    exact hbefore

/-! ### What the trace tells of the tables -/

/-- What a session goes by when it commits. -/
inductive Commits (s : Nat) (p : String) (st : Store Estate TableRow EstateNote String) :
    List EstateStatement → Option EstateNote → Prop
  | register (device : String) (row : PhysicalRow) (est : Estate)
      (hrow : row.status = .unprovisioned) (hlook : ⟨s, p, est, .unused device⟩ ∈ st.trace)
      (hnone : est.hasDevice device = false) :
      Commits s p st [.insertPhysical device row] (some (.registered device))
  | create (device : String) (row : DeviceRow) (est : Estate)
      (hlook : ⟨s, p, est, .unreserved device⟩ ∈ st.trace) (hnone : est.status? device = none) :
      Commits s p st [.table (.insertDevice device row)] (some (.created device))
  | claim (device house id : String) (row : DeviceRow) (event : AuditRow) :
      Commits s p st [.table (.insertDevice device row), .table (.bind device house),
        .insertAudit id event] (some (.claimed device))

/-- A commit has the effect that it notes. -/
theorem Commits.effect {s : Nat} {p : String} {st : Store Estate TableRow EstateNote String}
    {w : List EstateStatement} {n : Option EstateNote} {est : Estate} (h : Commits s p st w n)
    (hdb : st.db.writes w = .ok est) : ∃ note, n = some note ∧ Effect st.db est note := by
  cases h with
  | register device row look hrow hlook hnone => exact ⟨_, rfl, Effect.of_register hdb hrow⟩
  | create device row look hlook hnone => exact ⟨_, rfl, Effect.of_create hdb⟩
  | claim device house id row event => exact ⟨_, rfl, Effect.of_claim hdb⟩

/-- What has been looked for and not found is not there as long as it was not added since;
what has been added is there. -/
structure Chronicle (st : Store Estate TableRow EstateNote String) : Prop where
  unused : ∀ newer look older d, st.trace = newer ++ look :: older → look.note = .unused d →
    look.db.hasDevice d = false → (∀ c ∈ newer, c.note ≠ .created d ∧ c.note ≠ .claimed d) →
      st.db.hasDevice d = false
  unreserved : ∀ newer look older d, st.trace = newer ++ look :: older →
    look.note = .unreserved d → look.db.status? d = none →
      (∀ c ∈ newer, c.note ≠ .registered d) → st.db.status? d = none
  claimed : ∀ e ∈ st.trace, ∀ d, e.note = .claimed d → st.db.status? d ≠ none
  created : ∀ e ∈ st.trace, ∀ d, e.note = .created d → st.db.hasDevice d = true
  registered : ∀ e ∈ st.trace, ∀ d, e.note = .registered d →
    st.db.status? d = some .unprovisioned ∨ st.db.hasDevice d = true

/-- **One entry** keeps the chronicle. -/
theorem Chronicle.record {st : Store Estate TableRow EstateNote String} (h : Chronicle st)
    {s : Nat} {p : String} {note : EstateNote} {est : Estate} (he : Effect st.db est note) :
    Chronicle { st.record s p (some note) with db := est } := by
  have hstatus : ∀ d, st.db.status? d ≠ none → est.status? d ≠ none := by
    intro d hd
    rw [he.physical]
    split
    · simp
    · split
      · simp
      · exact hd
  constructor
  · intro newer look older d hsplit hlook hnone hquiet
    cases newer with
    | nil =>
        -- the look is the entry itself, and changes nothing
        obtain ⟨rfl, -⟩ := List.cons.inj hsplit
        have hlook : note = .unused d := hlook
        rw [← Bool.not_eq_true, he.devices, hlook]
        simpa using hnone
    | cons c newer =>
        obtain ⟨rfl, hrest⟩ := List.cons.inj hsplit
        have hc : note ≠ .created d ∧ note ≠ .claimed d := hquiet _ List.mem_cons_self
        have hbefore := h.unused newer look older d hrest hlook hnone fun c hc =>
          hquiet c (List.mem_cons_of_mem _ hc)
        rw [← Bool.not_eq_true, he.devices]
        simp [hbefore, hc]
  · intro newer look older d hsplit hlook hnone hquiet
    cases newer with
    | nil =>
        obtain ⟨rfl, -⟩ := List.cons.inj hsplit
        have hlook : note = .unreserved d := hlook
        show est.status? d = none
        rw [he.physical, hlook]
        simpa using hnone
    | cons c newer =>
        obtain ⟨rfl, hrest⟩ := List.cons.inj hsplit
        have hc : note ≠ .registered d := hquiet _ List.mem_cons_self
        have hbefore := h.unreserved newer look older d hrest hlook hnone fun c hc =>
          hquiet c (List.mem_cons_of_mem _ hc)
        have hclaimed : note ≠ .claimed d := fun hn => by
          have := he.claimed d hn
          rw [hbefore] at this
          cases this
        show est.status? d = none
        rw [he.physical, if_neg hc, if_neg hclaimed]
        exact hbefore
  · intro e hmem d hd
    obtain rfl | hmem := List.mem_cons.mp hmem
    · show est.status? d ≠ none
      have hd : note = .claimed d := hd
      rw [he.physical, hd]
      simp
    · exact hstatus d (h.claimed e hmem d hd)
  · intro e hmem d hd
    show est.hasDevice d = true
    rw [he.devices]
    obtain rfl | hmem := List.mem_cons.mp hmem
    · exact .inr (.inl hd)
    · exact .inl (h.created e hmem d hd)
  · intro e hmem d hd
    show est.status? d = some .unprovisioned ∨ est.hasDevice d = true
    rw [he.devices, he.physical]
    by_cases hreg : note = .registered d
    · exact .inl (if_pos hreg)
    · by_cases hclaimed : note = .claimed d
      · exact .inr (.inr (.inr hclaimed))
      · rw [if_neg hreg, if_neg hclaimed]
        obtain rfl | hmem := List.mem_cons.mp hmem
        · exact absurd hd hreg
        · exact (h.registered e hmem d hd).imp_right Or.inl

/-! ### The calls keep to it -/

def protocol : Protocol Estate TableRow EstateStatement EstateNote String where
  inv := Chronicle
  commits := Commits
  notes _ _ _ note := (∃ d, note = .unused d) ∨ ∃ d, note = .unreserved d

theorem keeps : protocol.Keeps estateSchema (fun _ _ => false) where
  locks _ _ h := ⟨h.unused, h.unreserved, h.claimed, h.created, h.registered⟩
  clock _ _ h _ := ⟨h.unused, h.unreserved, h.claimed, h.created, h.registered⟩
  reading _ h := ⟨h.unused, h.unreserved, h.claimed, h.created, h.registered⟩
  noted a s p n hi h := Chronicle.record hi (Effect.look a.db h)
  committed a s p w n db hi hc _ hdb := by
    obtain ⟨note, rfl, heffect⟩ := Commits.effect hc hdb
    exact Chronicle.record hi heffect
  changed _ _ _ h := nomatch h

abbrev contract := Protocol.contract protocol estateSchema fun _ _ => false

section Outlines

variable {s : Nat} {p : String}

/-- A physical identity stays in the inventory. -/
theorem Effect.status?_ne_none {est est' : Estate} {note : EstateNote}
    (h : Effect est est' note) {d : String} (hd : est.status? d ≠ none) :
    est'.status? d ≠ none := by
  rw [h.physical]
  split
  · simp
  · split
    · simp
    · exact hd

theorem stable_present (d : String) :
    contract.Stable s p fun st => st.db.status? d ≠ none := by
  refine Protocol.stable_db (K := fun est : Estate => est.status? d ≠ none) ?_ ?_
  · intro a t q w n db _ hc hdb hd
    obtain ⟨note, -, heffect⟩ := Commits.effect hc hdb
    exact heffect.status?_ne_none hd
  · intro _ _ _ h
    cases h

theorem status?_eq_none {est : Estate} {d : String} :
    est.status? d = none ↔ est.tables.physical.get? d = none := by
  rw [Estate.status?, Option.map_eq_none_iff]

/-- The look of `create`: what it does not find, it has looked for. -/
theorem outline_byDevice (d : String) :
    contract.Outline (machine estateSchema fun _ _ => false) s p
      (Inventory.byDevice d (some (.unreserved d))) (fun _ => True)
      (Contract.returns fun item st => item = none →
        ∃ est, ⟨s, p, est, .unreserved d⟩ ∈ st.trace ∧ est.status? d = none) := by
  refine Protocol.outline_read
    (R := fun est st => ⟨s, p, est, .unreserved d⟩ ∈ st.trace ∧
      (est.status? d ≠ none → st.db.status? d ≠ none))
    (fun est => Protocol.stable_traced.and (Contract.Stable.forall fun _ => stable_present d))
    (fun _ _ _ _ hn => .inr ⟨d, (Option.some.inj hn).symm⟩)
    (fun st _ _ => ⟨List.mem_cons_self, fun h => h⟩) fun est => ?_
  cases hitem : est.tables.physical.get? d with
  | none => exact fun st _ h _ => ⟨est, h.1, status?_eq_none.mpr hitem⟩
  | some item =>
      have hthere : est.status? d ≠ none := by rw [Ne, status?_eq_none, hitem]; simp
      refine Protocol.outline_lock
        (R := fun est _ => est.tables.physical.get? d ≠ none) (fun _ => Contract.Stable.const _)
        (fun st _ h => by rw [Ne, ← status?_eq_none]; exact h.2 hthere) fun est => ?_
      exact fun st _ hsome hnone => absurd hnone hsome

theorem outline_registerInventory (device hardware model : String)
    (digest : Except Error String) :
    contract.Outline (machine estateSchema fun _ _ => false) s p
      (Inventory.registerInventory device hardware model digest) (fun _ => True)
      (Contract.returns fun _ _ => True) := by
  refine Protocol.outline_lift fun digest _ => ?_
  refine Protocol.outline_read (R := fun est st => ⟨s, p, est, .unused device⟩ ∈ st.trace)
    (fun est => Protocol.stable_traced)
    (fun _ _ _ _ hn => .inl ⟨device, (Option.some.inj hn).symm⟩)
    (fun st _ _ => List.mem_cons_self) fun est => ?_
  refine Protocol.outline_lift fun _ hnone => ?_
  refine Protocol.outline_commit (R := fun _ _ => True) (fun _ => Contract.Stable.const True)
    (fun st _ h => .register device _ est rfl h ?_) (fun _ _ _ _ _ => trivial)
    (fun _ _ _ _ => trivial) fun r => ?_
  · exact hasDevice_eq_false.mpr (Option.isNone_iff_eq_none.mp (ensure_ok hnone))
  · exact Protocol.outline_last

theorem outline_createDevice (device : String) (row : DeviceRow) :
    contract.Outline (machine estateSchema fun _ _ => false) s p
      (Inventory.createDevice device row) (fun _ => True)
      (Contract.returns fun _ _ => True) := by
  refine (outline_byDevice device).seq fun item => ?_
  refine Protocol.outline_lift fun _ hnone => ?_
  obtain rfl := Option.isNone_iff_eq_none.mp (ensure_ok hnone)
  refine Contract.Outline.pre (Contract.Outline.of_exists fun est => ?_) fun st _ h => h rfl
  refine Contract.Outline.pre (Contract.Outline.given fun hnone => ?_) fun st _ h => h.symm
  refine Protocol.outline_peek Protocol.stable_traced fun est' => ?_
  refine Protocol.outline_lift fun _ _ => ?_
  refine Protocol.outline_lift fun _ _ => ?_
  refine Protocol.outline_commit (R := fun _ _ => True) (fun _ => Contract.Stable.const True)
    (fun st _ h => .create device row est h hnone) (fun _ _ _ _ _ => trivial)
    (fun _ _ _ _ => trivial) fun r => ?_
  exact Protocol.outline_last

theorem outline_claim (actor house hardware : String) (digest : Except Error String)
    (room name : String) :
    contract.Outline (machine estateSchema fun _ _ => false) s p
      (Inventory.claim actor house hardware digest room name) (fun _ => True)
      (Contract.returns fun _ _ => True) := by
  have htrue : contract.Stable s p fun _ => True := Contract.Stable.const True
  refine Protocol.outline_lift fun _ _ => ?_
  refine Protocol.outline_grab htrue (fun _ _ => trivial) fun _ => ?_
  refine Contract.Outline.seq (R := fun _ _ => True) ?_ fun found? => ?_
  · refine Protocol.outline_peek htrue fun est => ?_
    split
    · exact fun _ _ _ => trivial
    · exact Protocol.outline_grab htrue (fun _ _ => trivial) fun _ _ _ _ => trivial
  refine Protocol.outline_lift fun e _ => ?_
  obtain ⟨device, item⟩ := e
  refine Protocol.outline_lift fun _ _ => ?_
  refine Protocol.outline_lift fun _ _ => ?_
  refine Protocol.outline_lift fun digest _ => ?_
  refine Protocol.outline_lift fun _ _ => ?_
  refine Protocol.outline_peek htrue fun est => ?_
  refine Protocol.outline_lift fun actual _ => ?_
  refine Protocol.outline_lift fun _ _ => ?_
  refine Protocol.outline_lift fun profile _ => ?_
  refine Protocol.outline_input htrue fun id => ?_
  refine Protocol.outline_input htrue fun correlationId => ?_
  refine Protocol.outline_commit (R := fun _ _ => True) (fun _ => htrue)
    (fun st _ h => .claim device house id _ _) (fun _ _ _ _ _ => trivial)
    (fun _ _ _ _ => trivial) fun r => ?_
  exact Protocol.outline_last

theorem outline_program (call : Call) :
    contract.Outline (machine estateSchema fun _ _ => false) s p (program s p call)
      (fun _ => True) (fun _ _ => True) := by
  suffices h : contract.Outline (machine estateSchema fun _ _ => false) s p (program s p call)
      (fun _ => True) (Contract.returns fun _ _ => True) from h.post fun _ _ _ _ => trivial
  cases call with
  | register device hardware model digest =>
      exact outline_registerInventory device hardware model digest
  | create device row => exact outline_createDevice device row
  | claim house hardware digest room name => exact outline_claim p house hardware digest room name

end Outlines

/-! ### Runs -/

/-- **A commit keeps the identities apart** exactly when it was not overtaken. -/
theorem Commits.apart_inOrder {s : Nat} {p : String} {st : Store Estate TableRow EstateNote String}
    {w : List EstateStatement} {note : EstateNote} {est : Estate}
    (hc : Commits s p st w (some note)) (hdb : st.db.writes w = .ok est) (h : Chronicle st) (hapart : st.db.Apart) :
    est.Apart ↔ InOrder st.trace ⟨s, p, st.db, note⟩ := by
  obtain ⟨_, heq, he⟩ := hc.effect hdb
  obtain rfl := Option.some.inj heq
  have hother : ∀ d, note ≠ .registered d → note ≠ .created d →
      ¬ (est.status? d = some .unprovisioned ∧ est.hasDevice d = true) := by
    intro d hreg hcre ⟨hstatus, hdevice⟩
    rw [he.physical, if_neg hreg] at hstatus
    by_cases hclaimed : note = .claimed d
    · rw [if_pos hclaimed] at hstatus
      cases hstatus
    · rw [if_neg hclaimed] at hstatus
      rw [he.devices] at hdevice
      exact hapart d ⟨hstatus, hdevice.resolve_right fun h => h.elim hcre hclaimed⟩
  cases hc with
  | claim device house id row event =>
      refine iff_of_true (fun d => hother d (by simp) (by simp)) ⟨?_, ?_⟩
      · intro d hd
        cases hd
      · intro d hd
        cases hd
  | register device row look hrow hlook hnone =>
      constructor
      · intro hest
        refine ⟨fun d hd newer look' older hsplit hs hl c hmem hcreated => ?_,
          (fun d hd => by cases hd)⟩
        obtain rfl : device = d := by simpa using hd
        refine hest device ⟨?_, ?_⟩
        · rw [he.physical, if_pos rfl]
        · rw [he.devices]
          exact .inl (h.created c (hsplit ▸ List.mem_append_left _ hmem) device hcreated)
      · intro horder d
        by_cases hd : d = device
        · subst hd
          obtain ⟨newer, older, hsplit⟩ := List.append_of_mem hlook
          have hquiet := horder.registration d rfl newer _ older hsplit rfl rfl
          have hfree : st.db.hasDevice d = false :=
            h.unused newer _ older d hsplit rfl hnone fun c hmem => ⟨hquiet c hmem, fun hcl =>
              h.claimed c (hsplit ▸ List.mem_append_left _ hmem) d hcl (he.registered d rfl)⟩
          intro ⟨_, hdevice⟩
          rw [he.devices, hfree] at hdevice
          simp at hdevice
        · exact hother d (by simpa using Ne.symm hd) (by simp)
  | create device row look hlook hnone =>
      constructor
      · intro hest
        refine ⟨(fun d hd => by cases hd),
          fun d hd newer look' older hsplit hs hl c hmem hreg => ?_⟩
        obtain rfl : device = d := by simpa using hd
        obtain hstatus | hdevice :=
          h.registered c (hsplit ▸ List.mem_append_left _ hmem) device hreg
        · refine hest device ⟨?_, ?_⟩
          · rw [he.physical, if_neg (by simp), if_neg (by simp)]
            exact hstatus
          · rw [he.devices]
            exact .inr (.inl rfl)
        · rw [he.added device (.inl rfl)] at hdevice
          cases hdevice
      · intro horder d
        by_cases hd : d = device
        · subst hd
          obtain ⟨newer, older, hsplit⟩ := List.append_of_mem hlook
          have hquiet := horder.creation d rfl newer _ older hsplit rfl rfl
          have hfree := h.unreserved newer _ older d hsplit rfl hnone hquiet
          intro ⟨hstatus, _⟩
          rw [he.physical, if_neg (by simp), if_neg (by simp), hfree] at hstatus
          cases hstatus
        · exact hother d (by simp) (by simpa using Ne.symm hd)

section Runs

variable {st : Session.State (interface Estate TableRow EstateStatement Violation EstateNote)
  (Store Estate TableRow EstateNote String) String RouteError}

theorem obligations : Obligations contract (machine estateSchema fun _ _ => false) program :=
  keeps.obligations fun _ _ call => outline_program call

/-- **One step** keeps the identities apart exactly when it is orderly. -/
theorem next_apart_iff (hs : Sound contract (machine estateSchema fun _ _ => false) st)
    (hapart : st.shared.db.Apart) (l : Session.Label String Call String (Outside Estate)) :
    (calls.next st l).shared.db.Apart ↔ Orderly st l := by
  have hturns : Protocol.Turns protocol estateSchema (fun _ _ => false) st.shared
      (calls.next st l).shared := Protocol.next_turns hs l
  unfold Orderly
  generalize (calls.next st l).shared = after at hturns ⊢
  cases hturns with
  | quiet hdb htrace =>
      refine iff_of_true (by rw [hdb]; exact hapart) fun e he => ?_
      rw [htrace] at he
      exact absurd he.symm (List.cons_ne_self _ _)
  | noted s p note hnote hdb htrace =>
      refine iff_of_true (by rw [hdb]; exact hapart) fun e he => ?_
      rw [htrace] at he
      obtain ⟨rfl, -⟩ := List.cons.inj he
      obtain ⟨d, rfl⟩ | ⟨d, rfl⟩ := hnote
      · exact ⟨(fun _ hd => by cases hd), (fun _ hd => by cases hd)⟩
      · exact ⟨(fun _ hd => by cases hd), (fun _ hd => by cases hd)⟩
  | committed s p w note hc hdb htrace =>
      have hc : Commits s p st.shared w note := hc
      obtain ⟨note, rfl, -⟩ := hc.effect hdb
      rw [hc.apart_inOrder hdb hs.inv hapart]
      constructor
      · intro h e he
        rw [htrace] at he
        obtain ⟨rfl, -⟩ := List.cons.inj he
        exact h
      · exact fun h => h _ htrace
  | changed h htrace => cases h

/-- A run keeps the identities apart in every state exactly when all its steps are orderly. -/
theorem run_apart_iff (hs : Sound contract (machine estateSchema fun _ _ => false) st)
    (hapart : st.shared.db.Apart)
    (labels : List (Session.Label String Call String (Outside Estate))) :
    (∀ before, before <+: labels → (calls.run st before).shared.db.Apart) ↔
      calls.Along Orderly st labels := by
  induction labels generalizing st with
  | nil =>
      refine iff_of_true (fun before hb => ?_) trivial
      obtain rfl := List.prefix_nil.mp hb
      exact hapart
  | cons l labels ih =>
      have hnext : Sound contract (machine estateSchema fun _ _ => false) (calls.next st l) :=
        hs.run obligations [l]
      constructor
      · intro h
        have hfirst : (calls.next st l).shared.db.Apart := h [l] ⟨labels, rfl⟩
        refine ⟨(next_apart_iff hs hapart l).mp hfirst, (ih hnext hfirst).mp fun before hb => ?_⟩
        exact h (l :: before) (List.cons_prefix_cons.mpr ⟨rfl, hb⟩)
      · intro ⟨horder, hrest⟩ before hb
        have hfirst := (next_apart_iff hs hapart l).mpr horder
        cases before with
        | nil => exact hapart
        | cons l' before =>
            obtain ⟨rfl, hbefore⟩ := List.cons_prefix_cons.mp hb
            exact (ih hnext hfirst).mpr hrest before hbefore

end Runs

/-- **Reservations.** From tables in which no identity is both ordinary and reserved, a run
never commits one that is, exactly when it commits no registration and no creation that
the other has overtaken. -/
theorem apart_iff (est : Estate) (hapart : est.Apart)
    (labels : List (Session.Label String Call String (Outside Estate))) :
    (∀ before, before <+: labels →
        (calls.run (State.init (Store.init est 0)) before).shared.db.Apart) ↔
      calls.Along Orderly (State.init (Store.init est 0)) labels := by
  have hchronicle : Chronicle (Store.init est 0) := by
    refine ⟨fun newer look older d h => ?_, fun newer look older d h => ?_, ?_, ?_, ?_⟩
    · exact absurd h.symm (by simp [Store.init])
    · exact absurd h.symm (by simp [Store.init])
    · exact fun e he => nomatch he
    · exact fun e he => nomatch he
    · exact fun e he => nomatch he
  exact run_apart_iff (Sound.init hchronicle) hapart labels

/-! ### A lamp of two makers -/

namespace Household

/-- A house with a hall, and no device yet. -/
def unfurnished : Estate where
  tables := {
    houses := .ofList [("home", ⟨"Home"⟩)]
    floors := .ofList [("ground", ⟨"home", "Ground", 0⟩)]
    rooms := .ofList [("hall", ⟨"ground", "Hall", none⟩)]
    devices := .empty
    physical := .empty
    memberships := .empty
    users := .empty
    scenes := .empty
    automations := .empty
    attempts := .empty
    ledger := ⟨[], []⟩
    issued := [] }
  audits := .empty

/-- The factory registers the lamp. -/
def registration : Call := .register "lamp" "esp-1" "esp32" (.ok "digest")

/-- Somebody creates a device with its identity. -/
def creation : Call := .create "lamp" ⟨"Lamp", "hall", "switch", [], [], [], false⟩

/-- An ordinary device. -/
def desk : Call := .create "desk" ⟨"Desk lamp", "hall", "switch", [], [], [], false⟩

/-- The lamp is registered while a desk lamp is created. -/
def separated : List (Session.Label String Call String (Outside Estate)) :=
  [.start "factory" registration, .exec 0 "", .start "admin" desk, .exec 1 "", .exec 0 "",
    .exec 1 "", .exec 1 "", .exec 0 "", .exec 1 ""]

/-- The lamp is created between the look and the commit of the registration. -/
def between : List (Session.Label String Call String (Outside Estate)) :=
  [.start "factory" registration, .exec 0 "", .start "admin" creation, .exec 1 "", .exec 1 "",
    .exec 1 "", .exec 1 "", .exec 0 "", .exec 0 ""]

theorem unfurnished_apart : unfurnished.Apart := by
  intro device ⟨hstatus, _⟩
  cases hstatus

/-- Nothing was committed that would be in the way of the entry. -/
theorem unopposed {trace : List (Entry Estate EstateNote String)}
    {e : Entry Estate EstateNote String}
    (hcreated : ∀ c ∈ trace, ∀ device, e.note = .registered device → c.note ≠ .created device)
    (hregistered : ∀ c ∈ trace, ∀ device, e.note = .created device →
      c.note ≠ .registered device) : InOrder trace e where
  registration device he _ _ _ hsplit _ _ c hc :=
    hcreated c (hsplit ▸ List.mem_append_left _ hc) device he
  creation device he _ _ _ hsplit _ _ c hc :=
    hregistered c (hsplit ▸ List.mem_append_left _ hc) device he

theorem apart_orderly :
    calls.Along Orderly (State.init (Store.init unfurnished 0)) separated := by
  refine ⟨?_, ?_, ?_, ?_, ?_, ?_, ?_, ?_, ?_, trivial⟩
  on_goal 5 =>
    -- the registration
    intro e he
    cases he
    refine unopposed (fun c hc device _ hcreated => ?_) fun _ _ _ h => by cases h
    have hnote : c.note ∈ [.unreserved "desk", .unused "lamp"] := List.mem_map_of_mem hc
    simp [hcreated] at hnote
  on_goal 6 =>
    -- the creation
    intro e he
    cases he
    refine unopposed (fun _ _ _ h => by cases h) fun c hc device h hregistered => ?_
    obtain rfl := EstateNote.created.inj h
    have hnote : c.note ∈ [.registered "lamp", .unreserved "desk", .unused "lamp"] :=
      List.mem_map_of_mem hc
    simp [hregistered] at hnote
  all_goals
    -- nothing is committed
    intro e he
    cases he
    try exact unopposed (fun _ _ _ h => by cases h) fun _ _ _ h => by cases h

end Household

open Reservations.Household in
/-- Both commits are in order: a registered lamp, and a desk lamp that nobody has registered. -/
theorem apart_iff_lamp : unfurnished.Apart ∧
    (calls.run (State.init (Store.init unfurnished 0)) separated).shared.trace.map (·.note) =
      [.created "desk", .registered "lamp", .unreserved "desk", .unused "lamp"] ∧
    (calls.run (State.init (Store.init unfurnished 0)) separated).shared.db.Apart :=
  ⟨unfurnished_apart, rfl, (apart_iff unfurnished unfurnished_apart separated).mpr apart_orderly
    separated List.prefix_rfl⟩

open Reservations.Household in
/-- Both looks find nothing: the lamp is ordinary and reserved. -/
theorem overtaken_lamp : unfurnished.Apart ∧
    ¬ (calls.run (State.init (Store.init unfurnished 0)) between).shared.db.Apart :=
  ⟨unfurnished_apart, fun h => h "lamp" ⟨rfl, rfl⟩⟩

end Reservations

end KzHome

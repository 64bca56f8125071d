import KzHome.Inventory
import KzHome.Lib.SqlRules
import Mathlib

/-!
# KzHome.Lifecycle

Lifecycle and availability of physical devices.

A claim and the transitions of `OnboardingService` run beside the state and status reports
of the devices and beside whatever else changes the tables, as long as it leaves the
inventory and the audit events alone and brings no physical device online (`bystander`).
A report holds the row of the inventory from its check to its commit, so the status that
it was admitted with is the status that it commits under; a transition writes its row only
if the status is still the one that it read.

**Lifecycle** (`lifecycle_agrees`): in every state that is reached, only active devices are
online, and every step is `Lawful`.
-/

namespace KzHome

open Session Sql StateValidator

namespace Estate

/-- Of the physical devices, only active ones are online. -/
def Available (est : Estate) : Prop :=
  ∀ device row status, est.tables.devices.get? device = some row → row.online = true →
    est.status? device = some status → status = .active

/-- The audit events tell what became of the statuses: nothing happened to either, or one
identity changed its status and one event was added that names both. -/
inductive Audited (est est' : Estate) : Prop
  | unchanged (hstatus : ∀ d, est'.status? d = est.status? d) (haudits : est'.audits = est.audits)
  | changed (device id : String) (status : PhysicalStatus) (event : AuditRow)
      (hchange : est.status? device ≠ some status)
      (hstatus : ∀ d, est'.status? d = if d = device then some status else est.status? d)
      (hnew : est.audits.get? id = none) (haudits : est'.audits = est.audits.set id event)
      (hevent : event.deviceId = device ∧ event.status = status)

end Estate

namespace Lifecycle

/-- The calls that concern a physical device. -/
inductive Call
  | claim (house hardware : String) (digest : Except Error String) (room name : String)
  | activate (house device : String)
  | deactivate (house device : String)
  | revoke (house device : String)
  | reportState (house device : String) (patch : DeviceState)
  | updateStatus (house device : String) (online : Bool) (lastSeen : String)

/-- The program of a call. -/
def program (_ : Nat) (actor : String) : Call → Inventory.Request Unit
  | .claim house hardware digest room name =>
    Inventory.claim actor house hardware digest room name
  | .activate house device => Inventory.transition actor house device .active
  | .deactivate house device => Inventory.transition actor house device .inactive
  | .revoke house device => Inventory.transition actor house device .revoked
  | .reportState house device patch => Inventory.reportState house device patch
  | .updateStatus house device online lastSeen =>
    Inventory.updateStatus house device online lastSeen

/-- What everybody else may do to the tables meanwhile. -/
def bystander (est est' : Estate) : Bool :=
  est'.tables.physical.entries = est.tables.physical.entries &&
    est'.audits.entries = est.audits.entries &&
    est'.tables.devices.entries.all fun e =>
      !e.2.online || (est.status? e.1).isNone || (est.tables.devices.get? e.1).any (·.online)

/-- Calls side by side. -/
def calls : Transition.System
    (Session.State (interface Estate TableRow EstateStatement Violation EstateNote)
      (Store Estate TableRow EstateNote String) String RouteError)
    (Session.Label String Call String (Outside Estate)) :=
  system (machine estateSchema bystander) program

/-- The state after a run. -/
def after (est : Estate) (labels : List (Session.Label String Call String (Outside Estate))) :
    Session.State (interface Estate TableRow EstateStatement Violation EstateNote)
      (Store Estate TableRow EstateNote String) String RouteError :=
  calls.run (State.init (Store.init est 0)) labels

/-- A step that agrees with the lifecycle. -/
structure Lawful (a b : Store Estate TableRow EstateNote String) : Prop where
  /-- `revoked` is absorbing. -/
  revoked : ∀ device, a.db.status? device = some .revoked → b.db.status? device = some .revoked
  /-- A change of a status comes with its audit event, and the other way round. -/
  audited : a.db.Audited b.db
  /-- A report is committed only while the identity is active. -/
  reported : ∀ e, b.trace = e :: a.trace → ∀ device, e.note = .reported device →
    ∀ status, a.db.status? device = some status → status = .active
  /-- A transition to the status that the identity has changes nothing. -/
  unmoved : ∀ e, b.trace = e :: a.trace → ∀ device status, e.note = .moved device status →
    a.db.status? device = some status → b.db = a.db

/-! ### What the statements do -/

/-- The lifecycle leads on, and not on from `revoked`. -/
theorem ne_of_lifecycle {previous target : PhysicalStatus}
    (h : target ∈ Structure.lifecycle previous) : previous ≠ target ∧ previous ≠ .revoked := by
  cases previous <;> cases target <;> revert h <;> decide

/-- What a session goes by when it commits. -/
inductive Commits (s : Nat) (p : String) (st : Store Estate TableRow EstateNote String) :
    List EstateStatement → Option EstateNote → Prop
  | claim (device house id : String) (row : DeviceRow) (event : AuditRow)
      (hoffline : row.online = false)
      (hevent : event.deviceId = device ∧ event.status = .provisioning) :
      Commits s p st [.table (.insertDevice device row), .table (.bind device house),
        .insertAudit id event] (some (.claimed device))
  | stay (device : String) (target : PhysicalStatus) :
      Commits s p st [] (some (.moved device target))
  | move (device id : String) (previous target : PhysicalStatus) (event : AuditRow)
      (hnext : target ∈ Structure.lifecycle previous)
      (hevent : event.deviceId = device ∧ event.status = target) :
      Commits s p st [.table (.setStatus device previous target), .insertAudit id event]
        (some (.moved device target))
  | report (device : String) (w : List EstateStatement)
      (hw : w = [] ∨ ∃ patch, w = [.table (.updateDevice device patch)])
      (hactive : ∀ status, st.db.status? device = some status → status = .active) :
      Commits s p st w (some (.reported device))

/-- What a commit makes of statuses, audit events and availability. -/
structure Effect (est est' : Estate) (w : List EstateStatement) (note : EstateNote) : Prop where
  revoked : ∀ d, est.status? d = some .revoked → est'.status? d = some .revoked
  audited : est.Audited est'
  unmoved : ∀ d status, note = .moved d status → est.status? d = some status → est' = est
  available : est.Available → est'.Available
  /-- The row of a status that changes is there, and is written. -/
  touched : ∀ d, est'.status? d ≠ est.status? d →
    est.status? d ≠ none ∧ TableRow.physical d ∈ w.flatMap (estateSchema.targets est)

/-- A commit that writes nothing. -/
theorem Effect.nothing (est : Estate) (note : EstateNote) : Effect est est [] note where
  revoked _ h := h
  audited := .unchanged (fun _ => rfl) rfl
  unmoved _ _ _ _ := rfl
  available h := h
  touched _ h := absurd rfl h

theorem Effect.of_claim {est est' : Estate} {device house id : String} {row : DeviceRow}
    {event : AuditRow} (hoffline : row.online = false)
    (hevent : event.deviceId = device ∧ event.status = .provisioning)
    (h : est.writes [.table (.insertDevice device row), .table (.bind device house),
      .insertAudit id event] = .ok est') :
    Effect est est' [.table (.insertDevice device row), .table (.bind device house),
      .insertAudit id event] (.claimed device) := by
  obtain ⟨-, hbefore, hid, hdevices, hafter, haudits⟩ := Estate.writes_claim h
  constructor
  · intro d hd
    rw [hafter, if_neg ?_]
    · exact hd
    · rintro rfl
      rw [hbefore] at hd
      cases hd
  · refine .changed device id .provisioning event ?_ hafter hid haudits hevent
    rw [hbefore]
    decide
  · intro d status hnote
    cases hnote
  · intro havailable d r status hr honline hstatus
    rw [hdevices, Dict.get?_set_eq] at hr
    by_cases hd : d = device
    · rw [if_pos hd] at hr
      obtain rfl := Option.some.inj hr
      rw [hoffline] at honline
      cases honline
    · rw [if_neg hd] at hr
      rw [hafter, if_neg hd] at hstatus
      exact havailable d r status hr honline hstatus
  · intro d hd
    rw [hafter] at hd
    by_cases hdevice : d = device
    · subst hdevice
      refine ⟨by rw [hbefore]; simp, ?_⟩
      simp [estateSchema, Statement.targets]
    · rw [if_neg hdevice] at hd
      exact absurd rfl hd

theorem Effect.of_move {est est' : Estate} {device id : String} {previous target : PhysicalStatus}
    {event : AuditRow} (hnext : target ∈ Structure.lifecycle previous)
    (hevent : event.deviceId = device ∧ event.status = target)
    (h : est.writes [.table (.setStatus device previous target), .insertAudit id event] =
      .ok est') :
    Effect est est' [.table (.setStatus device previous target), .insertAudit id event]
      (.moved device target) := by
  obtain ⟨hbefore, hid, hdevices, hafter, haudits⟩ := Estate.writes_transition h
  obtain ⟨hne, hrevoked⟩ := ne_of_lifecycle hnext
  constructor
  · intro d hd
    rw [hafter, if_neg ?_]
    · exact hd
    · rintro rfl
      rw [hbefore] at hd
      exact hrevoked (Option.some.inj hd)
  · refine .changed device id target event ?_ hafter hid haudits hevent
    rw [hbefore]
    exact fun heq => hne (Option.some.inj heq)
  · intro d status hnote hd
    obtain ⟨rfl, rfl⟩ := EstateNote.moved.inj hnote
    rw [hbefore] at hd
    exact absurd (Option.some.inj hd) hne
  · intro havailable d r status hr honline hstatus
    rw [hdevices, Dict.get?_modify] at hr
    by_cases hd : d = device
    · rw [if_pos hd] at hr
      obtain ⟨r', -, rfl⟩ := Option.map_eq_some_iff.mp hr
      cases honline
    · rw [if_neg hd] at hr
      rw [hafter, if_neg hd] at hstatus
      exact havailable d r status hr honline hstatus
  · intro d hd
    rw [hafter] at hd
    by_cases hdevice : d = device
    · subst hdevice
      refine ⟨by rw [hbefore]; simp, ?_⟩
      simp [estateSchema, Statement.targets]
    · rw [if_neg hdevice] at hd
      exact absurd rfl hd

theorem Effect.of_report {est est' : Estate} {device : String} {patch : DevicePatch}
    (hactive : ∀ status, est.status? device = some status → status = .active)
    (h : est.writes [.table (.updateDevice device patch)] = .ok est') :
    Effect est est' [.table (.updateDevice device patch)] (.reported device) := by
  rw [Estate.writes_singleton] at h
  obtain ⟨tables, htables, rfl⟩ := Estate.write_table.mp h
  obtain ⟨-, rfl⟩ := Tables.write_updateDevice htables
  refine ⟨fun _ h => h, .unchanged (fun _ => rfl) rfl, (fun _ _ hnote => by cases hnote), ?_,
    fun _ h => absurd rfl h⟩
  intro havailable d r status hr honline hstatus
  have hr : (est.tables.devices.modify device _).get? d = some r := hr
  rw [Dict.get?_modify] at hr
  by_cases hd : d = device
  · exact hactive status (hd ▸ hstatus)
  · rw [if_neg hd] at hr
    exact havailable d r status hr honline hstatus

/-- A commit has the effect of its statements. -/
theorem Commits.effect {s : Nat} {p : String} {st : Store Estate TableRow EstateNote String}
    {w : List EstateStatement} {n : Option EstateNote} {est : Estate} (h : Commits s p st w n)
    (hdb : st.db.writes w = .ok est) : ∃ note, n = some note ∧ Effect st.db est w note := by
  cases h with
  | claim device house id row event hoffline hevent =>
      exact ⟨_, rfl, Effect.of_claim hoffline hevent hdb⟩
  | stay device target =>
      obtain rfl := Except.ok.inj hdb
      exact ⟨_, rfl, Effect.nothing _ _⟩
  | move device id previous target event hnext hevent =>
      exact ⟨_, rfl, Effect.of_move hnext hevent hdb⟩
  | report device w hw hactive =>
      refine ⟨_, rfl, ?_⟩
      obtain rfl | ⟨patch, rfl⟩ := hw
      · obtain rfl := Except.ok.inj hdb
        exact Effect.nothing _ _
      · exact Effect.of_report hactive hdb

/-- What the others do leaves the statuses, the audit events and the availability. -/
theorem effect_bystander {est est' : Estate} (h : bystander est est' = true) :
    (∀ d, est'.status? d = est.status? d) ∧ est'.audits = est.audits ∧
      (est.Available → est'.Available) := by
  simp only [bystander, Bool.and_eq_true, decide_eq_true_eq, List.all_eq_true, Bool.or_eq_true,
    Bool.not_eq_true', Option.isNone_iff_eq_none] at h
  obtain ⟨⟨hphysical, haudits⟩, honline⟩ := h
  have hstatus : ∀ d, est'.status? d = est.status? d := fun d => by
    rw [Estate.status?, Estate.status?, Dict.ext hphysical]
  refine ⟨hstatus, Dict.ext haudits, fun havailable d row status hrow hon hd => ?_⟩
  rw [hstatus] at hd
  obtain (hoff | hnone) | hwas := honline (d, row) (Dict.get?_eq_some.mp hrow)
  · rw [hon] at hoff
    cases hoff
  · rw [hnone] at hd
    cases hd
  · obtain ⟨before, hbefore, hwas⟩ := (Option.any_eq_true _ _).mp hwas
    exact havailable d before status hbefore hwas hd

/-! ### The calls keep to it -/

def protocol : Protocol Estate TableRow EstateStatement EstateNote String where
  inv st := st.db.Available
  commits := Commits
  notes _ _ _ _ := False

theorem keeps : protocol.Keeps estateSchema bystander where
  locks _ _ h := h
  clock _ _ h _ := h
  reading _ h := h
  noted _ _ _ _ _ h := h.elim
  committed a s p w n db hi hc _ hdb := by
    obtain ⟨note, rfl, heffect⟩ := Commits.effect hc hdb
    exact heffect.available hi
  changed a db hi h := (effect_bystander h).2.2 hi

abbrev contract := Protocol.contract protocol estateSchema bystander

section Outlines

variable {s : Nat} {p : String}

/-- The session has looked at the status of an identity, and holds its row if it is there. -/
def Looked (s : Nat) (device : String) (status? : Option PhysicalStatus)
    (st : Store Estate TableRow EstateNote String) : Prop :=
  st.db.status? device = status? ∧ (status? ≠ none → st.locks (.physical device) = some s)

theorem stable_looked {device : String} {status? : Option PhysicalStatus} :
    contract.Stable s p (Looked s device status?) := by
  cases status? with
  | none =>
      -- nobody adds an identity
      have habsent : contract.Stable s p fun st => st.db.status? device = none := by
        refine Protocol.stable_db (K := fun est : Estate => est.status? device = none) ?_ ?_
        · intro a t q w n db _ hc hdb hnone
          obtain ⟨note, -, heffect⟩ := Commits.effect hc hdb
          by_contra hne
          exact (heffect.touched device fun h => hne (h.trans hnone)).1 hnone
        · intro a db _ h hnone
          exact ((effect_bystander h).1 device).trans hnone
      exact fun a b ha hb h hr => ⟨habsent a b ha hb h.1 hr, fun h => absurd rfl h⟩
  | some status =>
      -- nobody else writes a row that is held
      have hheld : contract.Stable s p (Protocol.Knows s (fun row => row = .physical device)
          fun est => est.status? device = some status) := by
        refine Protocol.stable_knows ?_ ?_
        · intro a t q w n db hne _ hc hfree hdb hheld hstatus
          obtain ⟨note, -, heffect⟩ := Commits.effect hc hdb
          by_contra hchange
          have hmem := (heffect.touched device fun h => hchange (h.trans hstatus)).2
          exact RowLocks.not_mem_of_held hfree (hheld _ rfl) hne.symm hmem
        · intro a db _ h hstatus
          exact ((effect_bystander h).1 device).trans hstatus
      intro a b ha hb h hr
      have hb := hheld a b ha hb ⟨fun row hrow => hrow ▸ h.2 (by simp), h.1⟩ hr
      exact ⟨hb.2, fun _ => hb.1 _ rfl⟩

/-- `by_device` with its lock. -/
theorem outline_byDevice (device : String) :
    contract.Outline (machine estateSchema bystander) s p (Inventory.byDevice device none)
      (fun _ => True)
      (Contract.returns fun item? st => Looked s device (item?.map (·.status)) st) := by
  refine Protocol.outline_read
    (R := fun est st => est.status? device = none → Looked s device none st)
    (fun est => Contract.Stable.forall fun _ => stable_looked) (fun _ _ _ _ hn => by cases hn)
    (fun st _ _ h => ⟨h, fun hne => absurd rfl hne⟩) fun est => ?_
  have hstatus : est.status? device = (est.tables.physical.get? device).map (·.status) := rfl
  cases hitem : est.tables.physical.get? device with
  | none => exact fun st _ h => h (by rw [hstatus, hitem, Option.map_none])
  | some item =>
      refine Protocol.outline_lock (R := fun est st => Looked s device (est.status? device) st)
        (fun _ => stable_looked) (fun st _ _ => ?_) fun est => ?_
      · refine ⟨by rw [Protocol.take_db], fun hne => Protocol.locked_take st _ ?_⟩
        rw [Protocol.take_db]
        exact Option.isSome_iff_ne_none.mpr fun h => hne (by rw [Estate.status?, h]; rfl)
      · exact fun st _ h => h

/-- A report may be committed: the row of an identity is held, and it is active. -/
def Ready (s : Nat) (device : String) (st : Store Estate TableRow EstateNote String) : Prop :=
  ∃ status?, (∀ status, status? = some status → status = .active) ∧ Looked s device status? st

theorem stable_ready {device : String} : contract.Stable s p (Ready s device) :=
  Contract.Stable.exists fun _ => (Contract.Stable.const _).and stable_looked

theorem Ready.active {device : String} {st : Store Estate TableRow EstateNote String}
    (h : Ready s device st) (status : PhysicalStatus)
    (hd : st.db.status? device = some status) : status = .active := by
  obtain ⟨status?, hactive, hlooked⟩ := h
  exact hactive status (hlooked.1.symm.trans hd)

/-- `require_active` with its lock. -/
theorem outline_requireActive (device : String) :
    contract.Outline (machine estateSchema bystander) s p (Inventory.requireActive device)
      (fun _ => True) (Contract.returns fun _ st => Ready s device st) := by
  refine (outline_byDevice device).seq fun item? => ?_
  cases item? with
  | none => exact fun st _ h => ⟨none, (fun _ hs => by cases hs), h⟩
  | some item =>
      refine Protocol.outline_lift fun _ hactive => ?_
      have hactive : item.status = .active := by simpa using ensure_ok hactive
      refine Protocol.outline_peek stable_looked fun est => ?_
      refine Protocol.outline_lift fun house _ => ?_
      refine Protocol.outline_check.pre fun st _ h => ⟨_, fun status hs => ?_, h⟩
      exact (Option.some.inj hs).symm.trans hactive

theorem outline_get (device : String) :
    contract.Outline (machine estateSchema bystander) s p (Inventory.get device)
      (Ready s device) (Contract.returns fun _ st => Ready s device st) :=
  Protocol.outline_peek stable_ready fun _ => Protocol.outline_check

/-- `require_house` with its lock. -/
theorem outline_requireHouse (house device : String) :
    contract.Outline (machine estateSchema bystander) s p (Inventory.requireHouse house device)
      (fun _ => True) (Contract.returns fun _ st => Ready s device st) := by
  refine (outline_requireActive device).seq fun _ => (outline_get device).seq fun row => ?_
  refine Contract.Outline.seq (R := fun _ => Ready s device) ?_ fun actual => ?_
  · refine Protocol.outline_peek stable_ready fun est => ?_
    split
    · exact fun _ _ h => h
    · refine Protocol.outline_peek stable_ready fun est => ?_
      exact Protocol.outline_check
  refine Protocol.outline_lift fun _ _ => ?_
  exact fun _ _ h => h

/-- The commit of a report. -/
theorem outline_update (device : String) (row : DeviceRow) (patch : DevicePatch) :
    contract.Outline (machine estateSchema bystander) s p (Inventory.update device row patch)
      (Ready s device) (Contract.returns fun _ _ => True) := by
  have htrue : contract.Stable s p fun _ => True := Contract.Stable.const True
  refine Protocol.outline_commit (R := fun _ _ => True) (fun _ => htrue) (fun st _ h => ?_)
    (fun _ _ _ _ _ => trivial) (fun _ _ _ _ => trivial) fun r => Protocol.outline_last
  refine .report device _ ?_ h.active
  split
  · exact .inl rfl
  · exact .inr ⟨_, rfl⟩

theorem outline_reportState (house device : String) (patch : DeviceState) :
    contract.Outline (machine estateSchema bystander) s p
      (Inventory.reportState house device patch) (fun _ => True)
      (Contract.returns fun _ _ => True) := by
  refine (outline_requireHouse house device).seq fun _ => (outline_get device).seq fun row => ?_
  refine Protocol.outline_lift fun _ _ => ?_
  dsimp only
  split
  · exact fun _ _ _ => trivial
  · exact outline_update device row _

theorem outline_updateStatus (house device : String) (online : Bool) (lastSeen : String) :
    contract.Outline (machine estateSchema bystander) s p
      (Inventory.updateStatus house device online lastSeen) (fun _ => True)
      (Contract.returns fun _ _ => True) :=
  (outline_requireHouse house device).seq fun _ => (outline_get device).seq fun row =>
    outline_update device row _

/-- `transition`: its commit goes by what it writes. -/
theorem outline_transition (actor house device : String) (target : PhysicalStatus) :
    contract.Outline (machine estateSchema bystander) s p
      (Inventory.transition actor house device target) (fun _ => True)
      (Contract.returns fun _ _ => True) := by
  have htrue : contract.Stable s p fun _ => True := Contract.Stable.const True
  refine Protocol.outline_grab htrue (fun _ _ => trivial) fun _ => ?_
  refine ((outline_byDevice device).post fun _ _ _ h => h).seq fun item? => ?_
  refine Contract.Outline.pre (P := fun _ => True) ?_ fun _ _ _ => trivial
  refine Protocol.outline_lift fun item _ => ?_
  split
  · exact Protocol.outline_commit (R := fun _ _ => True) (fun _ => htrue)
      (fun st _ h => .stay device target) (fun _ _ _ _ _ => trivial)
      (fun _ _ _ _ => trivial) fun r => Protocol.outline_last
  · refine Protocol.outline_lift fun _ hnext => ?_
    have hnext : target ∈ Structure.lifecycle item.status := by simpa using ensure_ok hnext
    refine Protocol.outline_peek htrue fun est => ?_
    refine Protocol.outline_lift fun actual _ => ?_
    refine Protocol.outline_lift fun _ _ => ?_
    refine Protocol.outline_input htrue fun id => ?_
    refine Protocol.outline_input htrue fun correlationId => ?_
    exact Protocol.outline_commit (R := fun _ _ => True) (fun _ => htrue)
      (fun st _ h => .move device id _ target _ hnext ⟨rfl, rfl⟩) (fun _ _ _ _ _ => trivial)
      (fun _ _ _ _ => trivial) fun r => Protocol.outline_last

theorem outline_claim (actor house hardware : String) (digest : Except Error String)
    (room name : String) :
    contract.Outline (machine estateSchema bystander) s p
      (Inventory.claim actor house hardware digest room name) (fun _ => True)
      (Contract.returns fun _ _ => True) := by
  have htrue : contract.Stable s p fun _ => True := Contract.Stable.const True
  refine Protocol.outline_lift fun _ _ => ?_
  refine Protocol.outline_grab htrue (fun _ _ => trivial) fun _ => ?_
  refine Contract.Outline.seq (R := fun _ _ => True) ?_ fun found? => ?_
  · refine Protocol.outline_peek htrue fun est => ?_
    split
    · exact fun _ _ _ => trivial
    · exact Protocol.outline_grab htrue (fun _ _ => trivial) fun _ _ _ _ => trivial
  refine Protocol.outline_lift fun e _ => ?_
  obtain ⟨device, item⟩ := e
  refine Protocol.outline_lift fun _ _ => ?_
  refine Protocol.outline_lift fun _ _ => ?_
  refine Protocol.outline_lift fun digest _ => ?_
  refine Protocol.outline_lift fun _ _ => ?_
  refine Protocol.outline_peek htrue fun est => ?_
  refine Protocol.outline_lift fun actual _ => ?_
  refine Protocol.outline_lift fun _ _ => ?_
  refine Protocol.outline_lift fun profile _ => ?_
  refine Protocol.outline_input htrue fun id => ?_
  refine Protocol.outline_input htrue fun correlationId => ?_
  exact Protocol.outline_commit (R := fun _ _ => True) (fun _ => htrue)
    (fun st _ h => .claim device house id _ _ rfl ⟨rfl, rfl⟩) (fun _ _ _ _ _ => trivial)
    (fun _ _ _ _ => trivial) fun r => Protocol.outline_last

theorem outline_program (call : Call) :
    contract.Outline (machine estateSchema bystander) s p (program s p call)
      (fun _ => True) (fun _ _ => True) := by
  suffices h : contract.Outline (machine estateSchema bystander) s p (program s p call)
      (fun _ => True) (Contract.returns fun _ _ => True) from h.post fun _ _ _ _ => trivial
  cases call with
  | claim house hardware digest room name => exact outline_claim p house hardware digest room name
  | activate house device => exact outline_transition p house device .active
  | deactivate house device => exact outline_transition p house device .inactive
  | revoke house device => exact outline_transition p house device .revoked
  | reportState house device patch => exact outline_reportState house device patch
  | updateStatus house device online lastSeen =>
      exact outline_updateStatus house device online lastSeen

end Outlines

/-! ### Runs -/

section Runs

variable {st : Session.State (interface Estate TableRow EstateStatement Violation EstateNote)
  (Store Estate TableRow EstateNote String) String RouteError}

theorem obligations : Obligations contract (machine estateSchema bystander) program :=
  keeps.obligations fun _ _ call => outline_program call

/-- **Every step** is lawful. -/
theorem next_lawful (hs : Sound contract (machine estateSchema bystander) st)
    (l : Session.Label String Call String (Outside Estate)) :
    Lawful st.shared (calls.next st l).shared := by
  have hturns : Protocol.Turns protocol estateSchema bystander st.shared
      (calls.next st l).shared := Protocol.next_turns hs l
  generalize (calls.next st l).shared = after at hturns ⊢
  have hsilent : ∀ e, after.trace = st.shared.trace → after.trace ≠ e :: st.shared.trace :=
    fun e htrace he => List.cons_ne_self _ _ (he.symm.trans htrace)
  cases hturns with
  | quiet hdb htrace =>
      refine ⟨fun d h => hdb ▸ h, ?_, fun e he => absurd he (hsilent e htrace),
        fun e he => absurd he (hsilent e htrace)⟩
      rw [hdb]
      exact .unchanged (fun _ => rfl) rfl
  | noted s p n h hdb htrace => exact h.elim
  | committed s p w n hc hdb htrace =>
      have hc : Commits s p st.shared w n := hc
      obtain ⟨note, rfl, heffect⟩ := hc.effect hdb
      refine ⟨heffect.revoked, heffect.audited, ?_, ?_⟩
      · intro e he device hnote
        rw [htrace] at he
        obtain ⟨rfl, -⟩ := List.cons.inj he
        obtain rfl : note = .reported device := hnote
        cases hc with
        | report device w hw hactive => exact hactive
      · intro e he device status hnote
        rw [htrace] at he
        obtain ⟨rfl, -⟩ := List.cons.inj he
        exact heffect.unmoved device status hnote
  | changed h htrace =>
      obtain ⟨hstatus, haudits, -⟩ := effect_bystander h
      exact ⟨fun d hd => (hstatus d).trans hd, .unchanged hstatus haudits,
        fun e he => absurd he (hsilent e htrace), fun e he => absurd he (hsilent e htrace)⟩

end Runs

/-- **Lifecycle.** From tables in which only active devices are online, this is so in every
state of a run, and every step is lawful. -/
theorem lifecycle_agrees (est : Estate) (havailable : est.Available)
    (labels : List (Session.Label String Call String (Outside Estate))) :
    (after est labels).shared.db.Available ∧
      (∀ l, Lawful (after est labels).shared (after est (labels ++ [l])).shared) ∧
      ∀ more device, (after est labels).shared.db.status? device = some .revoked →
        (after est (labels ++ more)).shared.db.status? device = some .revoked := by
  have hsound : ∀ labels, Sound contract (machine estateSchema bystander) (after est labels) :=
    fun labels => (Sound.init havailable).run obligations labels
  have hstep : ∀ labels l, Lawful (after est labels).shared (after est (labels ++ [l])).shared := by
    intro labels l
    rw [show after est (labels ++ [l]) = calls.next (after est labels) l from
      calls.run_snoc _ labels l]
    exact next_lawful (hsound labels) l
  refine ⟨(hsound labels).inv, hstep labels, fun more device hrevoked => ?_⟩
  induction more using List.reverseRecOn with
  | nil => rwa [List.append_nil]
  | append_singleton more l ih =>
      rw [← List.append_assoc]
      exact (hstep (labels ++ more) l).revoked device ih

/-! ### A lamp that is revoked -/

namespace Household

/-- A lamp in the hall, active and online. -/
def lit : Estate where
  tables := {
    houses := .ofList [("home", ⟨"Home"⟩)]
    floors := .ofList [("ground", ⟨"home", "Ground", 0⟩)]
    rooms := .ofList [("hall", ⟨"ground", "Hall", none⟩)]
    devices := .ofList [("lamp", ⟨"Lamp", "hall", "relay", [], ["on_off"], [], true⟩)]
    physical := .ofList [("lamp", ⟨"esp-1", "esp32-relay-v1", .active, none, some "home", some "lamp"⟩)]
    memberships := .empty
    users := .empty
    scenes := .empty
    automations := .empty
    attempts := .empty
    ledger := ⟨[], []⟩
    issued := [] }
  audits := .empty

theorem lit_available : lit.Available := by
  intro device row status hrow _ hstatus
  obtain ⟨item, hitem, rfl⟩ := Option.map_eq_some_iff.mp hstatus
  obtain rfl : item = _ :=
    (Prod.mk.inj (List.mem_singleton.mp (Dict.get?_eq_some.mp hitem))).2
  rfl

/-- The lamp is revoked before its report has the row: the report is refused. -/
def revocation : List (Session.Label String Call String (Outside Estate)) :=
  [.start "mqtt" (.updateStatus "home" "lamp" true "12:00"), .exec 0 "",
    .start "ann" (.revoke "home" "lamp"), .exec 1 "", .exec 1 "", .exec 1 "",
    .exec 0 "", .exec 1 "", .exec 1 "audit", .exec 1 "correlation", .exec 1 "",
    .exec 0 "", .exec 0 "", .exec 0 ""]

end Household

open Lifecycle.Household in
theorem lifecycle_agrees_lit :
    (after lit revocation).shared.db.Available ∧
      (∀ l, Lawful (after lit revocation).shared (after lit (revocation ++ [l])).shared) ∧
      ∀ more device, (after lit revocation).shared.db.status? device = some .revoked →
        (after lit (revocation ++ more)).shared.db.status? device = some .revoked :=
  lifecycle_agrees lit lit_available revocation

end Lifecycle

end KzHome

import KzHome.Provisioning

/-!
# KzHome.Attempts

The rows of provisioning attempts, and what the decisions of the service come to on them.

`AttemptRow.Sound` is what is true of every row that the service has written. On such a row no
check of the state machine fails, so that each decision is an equation: an attempt is `aged` when
the clock has passed its expiry, and shown as it is then.
-/

namespace KzHome

open Sql

/-! ### Rows -/

namespace AttemptRow

/-- The columns that are never written again. -/
def identity (row : AttemptRow) : AttemptRow :=
  { row with
    status := .discovered
    revision := 0
    cancelKeyHash := none
    cancelActorId := none
    cancelRevision := none }

/-- The columns of a cancellation. -/
def cancellation (row : AttemptRow) : Option String × Option String × Option Nat :=
  (row.cancelKeyHash, row.cancelActorId, row.cancelRevision)

/-- A row as the service writes it. -/
structure Sound (row : AttemptRow) : Prop where
  expiry : row.createdAt < row.expiresAt
  challenge : digestFormat row.challengeHash = true
  ids : (topicId row.houseId && topicId row.deviceId && topicId row.roomId) = true
  revision : row.revision = if row.status = .discovered then 0 else 1
  cancelled : row.status = .cancelled → ∃ key actor, row.cancellation = (some key, some actor, some 0)
  uncancelled : row.status ≠ .cancelled → row.cancellation = (none, none, none)

/-- The attempt has expired, and nobody has noticed. -/
def Overdue (row : AttemptRow) (now : Instant) : Prop :=
  row.status = .discovered ∧ row.expiresAt ≤ now

instance (row : AttemptRow) (now : Instant) : Decidable (row.Overdue now) :=
  inferInstanceAs (Decidable (_ ∧ _))

/-- The row once the clock has been looked at. -/
def aged (row : AttemptRow) (now : Instant) : AttemptRow :=
  if row.Overdue now then row.settled .expired none else row

/-- What is shown of a row. -/
def shown (id : String) (row : AttemptRow) : PublicStatus :=
  ⟨id, row.houseId, row.deviceId, row.roomId, row.status.status, row.revision, row.expiresAt, none⟩

variable {row row' : AttemptRow} {now : Instant} {id : String}

@[simp] theorem identity_settled (target : AttemptStatus) (cancellation : Option Cancellation) :
    (row.settled target cancellation).identity = row.identity := rfl

@[simp] theorem identity_aged : (row.aged now).identity = row.identity := by
  unfold aged
  split
  · rfl
  · rfl

/-- A row that is discovered has its first revision, and no cancellation. -/
theorem Sound.fresh (h : row.Sound) (hdiscovered : row.status = .discovered) :
    row.revision = 0 ∧ row.cancellation = (none, none, none) := by
  refine ⟨?_, h.uncancelled ?_⟩
  · rw [h.revision, if_pos hdiscovered]
  · rw [hdiscovered]
    exact fun heq => by cases heq

theorem Sound.settle_expired (h : row.Sound) (hdiscovered : row.status = .discovered) :
    (row.settled .expired none).Sound where
  expiry := h.expiry
  challenge := h.challenge
  ids := h.ids
  revision := by
    have := (h.fresh hdiscovered).1
    simp [settled, this]
  cancelled heq := by cases heq
  uncancelled _ := (h.fresh hdiscovered).2

theorem Sound.settle_cancelled (h : row.Sound) (hdiscovered : row.status = .discovered)
    (key actor : String) : (row.settled .cancelled (some ⟨key, actor, 0⟩)).Sound where
  expiry := h.expiry
  challenge := h.challenge
  ids := h.ids
  revision := by
    have := (h.fresh hdiscovered).1
    simp [settled, this]
  cancelled _ := ⟨key, actor, rfl⟩
  uncancelled hne := absurd rfl hne

theorem Sound.aged (h : row.Sound) : (row.aged now).Sound := by
  unfold AttemptRow.aged
  split
  · rename_i hover
    exact h.settle_expired hover.1
  · exact h

end AttemptRow

namespace Provisioning

variable {row : AttemptRow} {now : Instant} {id : String}

/-! ### The state machine on sound rows -/

/-- The arguments of `_state`. -/
def stateOf (id : String) (row : AttemptRow) : ProvisioningState where
  sessionId := id
  houseId := row.houseId
  deviceId := row.deviceId
  roomId := row.roomId
  createdAt := row.createdAt
  expiresAt := row.expiresAt
  challengeHash := row.challengeHash
  status := row.status.status
  revision := row.revision

theorem publicStatus_stateOf (h : row.Sound) :
    (stateOf id row).publicStatus = .ok (row.shown id) := if_pos h.ids

theorem postInit_stateOf (h : row.Sound) : (stateOf id row).postInit = .ok (stateOf id row) := by
  have hproven : ProvisioningState.proven row.status.status = false := by
    cases row.status with
    | _ => rfl
  have herror : row.status.status ≠ .error := by
    cases row.status with
    | _ => exact fun heq => by cases heq
  unfold ProvisioningState.postInit
  rw [publicStatus_stateOf h]
  simp [stateOf, h.expiry, h.challenge, hproven, herror, Except.map]

theorem state_eq (h : row.Sound) : state id row = .ok (stateOf id row) := by
  change faulted (stateOf id row).postInit = _
  rw [postInit_stateOf h]
  rfl

theorem publicStatus_eq (h : row.Sound) : publicStatus id row = .ok (row.shown id) := by
  unfold publicStatus
  rw [state_eq h]
  change faulted (stateOf id row).publicStatus = _
  rw [publicStatus_stateOf h]
  rfl

/-- The statement that settles an attempt. -/
def settling (id : String) (target : AttemptStatus) (cancellation : Option Cancellation) :
    Statement :=
  .settle id 0 .discovered target cancellation

section

variable (sha : Sha256)

theorem apply_expire (h : row.Sound) (hover : row.Overdue now) :
    apply sha id row .expire now none =
      .ok (row.settled .expired none, settling id .expired none) := by
  obtain ⟨hdiscovered, hexpired⟩ := hover
  have hcreated : row.createdAt ≤ now := Int.le_trans (Int.le_of_lt h.expiry) hexpired
  have hrevision := (h.fresh hdiscovered).1
  have htransition : (stateOf id row).transition sha (some .expire) (some row.revision) (some now) =
      .ok (stateOf id (row.settled .expired none)) := by
    rw [← postInit_stateOf (h.settle_expired hdiscovered)]
    simp [ProvisioningState.transition, ProvisioningState.proposal, ProvisioningState.target, stateOf,
      hdiscovered, hexpired, Int.not_lt.mpr hcreated, Except.bind, AttemptStatus.status, ProvisioningStatus.terminal,
      AttemptRow.settled]
  unfold apply
  rw [state_eq h]
  change (faulted ((stateOf id row).transition sha (some .expire) (some row.revision) (some now)) >>= _) = _
  rw [htransition, settling, hrevision, hdiscovered]
  rfl

theorem apply_cancel (h : row.Sound) (hdiscovered : row.status = .discovered)
    (hcreated : row.createdAt ≤ now) (hopen : now < row.expiresAt) (key actor : String) :
    apply sha id row .cancel now (some ⟨key, actor, 0⟩) =
      .ok (row.settled .cancelled (some ⟨key, actor, 0⟩),
        settling id .cancelled (some ⟨key, actor, 0⟩)) := by
  have hrevision := (h.fresh hdiscovered).1
  have htransition : (stateOf id row).transition sha (some .cancel) (some row.revision) (some now) =
      .ok (stateOf id (row.settled .cancelled (some ⟨key, actor, 0⟩))) := by
    rw [← postInit_stateOf (h.settle_cancelled hdiscovered key actor)]
    simp [ProvisioningState.transition, ProvisioningState.proposal, ProvisioningState.target, stateOf,
      hdiscovered, Except.bind, Int.not_le.mpr hopen, Int.not_lt.mpr hcreated, AttemptStatus.status,
      ProvisioningStatus.terminal, AttemptRow.settled]
  unfold apply
  rw [state_eq h]
  change (faulted ((stateOf id row).transition sha (some .cancel) (some row.revision) (some now)) >>= _) = _
  rw [htransition, settling, hrevision, hdiscovered]
  rfl

/-- The statements that note an expiry. -/
def ages (id : String) (row : AttemptRow) (now : Instant) : List Statement :=
  if row.Overdue now then [settling id .expired none] else []

theorem expire_eq (h : row.Sound) :
    expire sha id row now = .ok (row.aged now, ages id row now) := by
  unfold expire AttemptRow.aged ages
  by_cases hover : row.Overdue now
  · have hcondition : row.status = .discovered ∧ row.expiresAt ≤ now := hover
    rw [if_pos hcondition, if_pos hover, if_pos hover, apply_expire sha h hover]
    rfl
  · have hcondition : ¬ (row.status = .discovered ∧ row.expiresAt ≤ now) := hover
    rw [if_neg hcondition, if_neg hover, if_neg hover]
    rfl

/-! ### Decisions -/

theorem decideGet_eq (h : row.Sound) :
    decideGet sha id row now = .ok ⟨.ok ((row.aged now).shown id), ages id row now⟩ := by
  unfold decideGet
  rw [expire_eq sha h]
  change (publicStatus id (row.aged now) >>= _) = _
  rw [publicStatus_eq h.aged]
  rfl

theorem decideCreate_previous {actor house key : String} {data : ProvisioningStart} {draw : Draw}
    (h : row.Sound) :
    decideCreate sha actor house data key (.previous id row) now draw =
      .ok ⟨.ok ((row.aged now).shown id), ages id row now⟩ := by
  unfold decideCreate
  dsimp only
  rw [expire_eq sha h]
  change (publicStatus id (row.aged now) >>= _) = _
  rw [publicStatus_eq h.aged]
  rfl

/-- A key that was used for another revision. -/
def keyConflict : RouteError := .service (.conflict "Idempotency key conflicts with request")

/-- A cancellation that came too late. -/
def statusConflict : RouteError :=
  .service (.conflict "Provisioning revision or status conflict")

/-- The row was cancelled by the actor with the key. -/
def CancelledBy (row : AttemptRow) (actor key : String) : Prop :=
  row.cancelKeyHash = some (sha.hex key) ∧ row.cancelActorId = some actor

instance (actor key : String) : Decidable (CancelledBy sha row actor key) :=
  inferInstanceAs (Decidable (_ ∧ _))

/-- What `cancel` comes to on a row. -/
def cancels (actor id : String) (row : AttemptRow) (revision : Nat) (key : String)
    (now : Instant) : Except RouteError Decision :=
  if row.Overdue now then .ok ⟨.error statusConflict, [settling id .expired none]⟩
  else if CancelledBy sha row actor key then
    if row.cancelRevision = some revision then .ok ⟨.ok (row.shown id), []⟩
    else .error keyConflict
  else if row.status = .discovered ∧ row.revision = revision then
    .ok ⟨.ok ((row.settled .cancelled (some ⟨sha.hex key, actor, 0⟩)).shown id),
      [settling id .cancelled (some ⟨sha.hex key, actor, 0⟩)]⟩
  else .ok ⟨.error statusConflict, []⟩

theorem decideCancel_eq {actor key : String} {revision : Nat} (h : row.Sound)
    (hcreated : row.createdAt ≤ now) :
    decideCancel sha actor id row revision key now = cancels sha actor id row revision key now := by
  have hstart : decideCancel sha actor id row revision key now =
      (if CancelledBy sha (row.aged now) actor key then do
        ensure ((row.aged now).cancelRevision = some revision)
          (.conflict "Idempotency key conflicts with request")
        let status ← publicStatus id (row.aged now)
        return ⟨.ok status, ages id row now⟩
      else if (row.aged now).revision ≠ revision ∨ (row.aged now).status ≠ .discovered then do
        let _ ← publicStatus id (row.aged now)
        return ⟨.error statusConflict, ages id row now⟩
      else do
        let applied ← apply sha id (row.aged now) .cancel now (some ⟨sha.hex key, actor, revision⟩)
        let status ← publicStatus id applied.1
        return ⟨.ok status, ages id row now ++ [applied.2]⟩) := by
    unfold decideCancel
    rw [expire_eq sha h]
    rfl
  rw [hstart, publicStatus_eq h.aged]
  unfold cancels
  by_cases hover : row.Overdue now
  · -- an attempt that expires was not cancelled
    have haged : row.aged now = row.settled .expired none := if_pos hover
    have hnone := (h.fresh hover.1).2
    rw [AttemptRow.cancellation, Prod.mk.injEq] at hnone
    have hnot : ¬ CancelledBy sha (row.aged now) actor key := by
      intro hby
      rw [haged] at hby
      have := hby.1
      simp [AttemptRow.settled, hnone.1] at this
    rw [if_neg hnot, if_pos (Or.inr (by rw [haged]; exact fun heq => by cases heq)), if_pos hover,
      ages, if_pos hover]
    rfl
  · have haged : row.aged now = row := if_neg hover
    rw [haged, if_neg hover, ages, if_neg hover]
    by_cases hby : CancelledBy sha row actor key
    · rw [if_pos hby, if_pos hby]
      by_cases hrevision : row.cancelRevision = some revision
      · simp [hrevision, ensure]
        rfl
      · simp [hrevision, ensure]
        rfl
    · rw [if_neg hby, if_neg hby]
      by_cases hmatch : row.status = .discovered ∧ row.revision = revision
      · obtain ⟨hdiscovered, hrevision⟩ := hmatch
        have hopen : now < row.expiresAt :=
          Int.not_le.mp fun hexpired => hover ⟨hdiscovered, hexpired⟩
        obtain rfl := hrevision.symm.trans (h.fresh hdiscovered).1
        rw [if_neg (by simp [hdiscovered, hrevision]), if_pos ⟨hdiscovered, hrevision⟩,
          apply_cancel sha h hdiscovered hcreated hopen]
        change (publicStatus id (row.settled .cancelled _) >>= _) = _
        rw [publicStatus_eq (h.settle_cancelled hdiscovered (sha.hex key) actor)]
        rfl
      · have hconflict : row.revision ≠ revision ∨ row.status ≠ .discovered := by
          by_contra hboth
          rw [not_or, not_not, not_not] at hboth
          exact hmatch hboth.symm
        rw [if_pos hconflict, if_neg hmatch]
        rfl

/-- A new row whose status can be told is sound. -/
theorem sound_newRow {actor house key device : String} {data : ProvisioningStart} {draw : Draw}
    {status : PublicStatus}
    (h : publicStatus id (newRow sha actor house data key device now draw) = .ok status) :
    (newRow sha actor house data key device now draw).Sound := by
  have hinit : ∃ state, (stateOf id (newRow sha actor house data key device now draw)).postInit =
      .ok state := by
    cases hs : (stateOf id (newRow sha actor house data key device now draw)).postInit with
    | ok state => exact ⟨state, rfl⟩
    | error e =>
        have hstate : state id (newRow sha actor house data key device now draw) =
            faulted (.error e) := congrArg faulted hs
        unfold publicStatus at h
        rw [hstate] at h
        cases e with
        | _ => cases h
  obtain ⟨state, hinit⟩ := hinit
  unfold ProvisioningState.postInit at hinit
  split at hinit
  · cases hinit
  rename_i hexpiry
  split at hinit
  · cases hinit
  rename_i hchallenge
  have hids : (topicId (newRow sha actor house data key device now draw).houseId &&
      topicId (newRow sha actor house data key device now draw).deviceId &&
      topicId (newRow sha actor house data key device now draw).roomId) = true := by
    by_contra hids
    have hpublic : (stateOf id (newRow sha actor house data key device now draw)).publicStatus =
        .error (.value "ProvisioningPublicStatus") := if_neg hids
    rw [hpublic] at hinit
    split at hinit
    · cases hinit
    split at hinit
    · cases hinit
    split at hinit
    · cases hinit
    · cases hinit
  have hdigest : digestFormat (newRow sha actor house data key device now draw).challengeHash =
      true := Bool.of_not_eq_false fun hfalse => hchallenge (Bool.not_eq_true' _ ▸ hfalse)
  have hdiscovered : (newRow sha actor house data key device now draw).status ≠ .cancelled := by
    intro heq
    cases heq
  exact ⟨Int.not_le.mp hexpiry, hdigest, hids, rfl, fun heq => absurd heq hdiscovered, fun _ => rfl⟩

/-- The attempts that stand in the way of a new one. -/
def clears (active : Option (String × AttemptRow)) (now : Instant) : List Statement :=
  active.toList.flatMap fun e => ages e.1 e.2 now

/-- A new attempt is decided on only when the active one has expired. -/
theorem decideCreate_fresh {actor house key device : String} {data : ProvisioningStart}
    {active : Option (String × AttemptRow)} {draw : Draw} {decision : Decision}
    (hactive : ∀ e, active = some e → e.2.Sound)
    (h : decideCreate sha actor house data key (.fresh device active) now draw = .ok decision) :
    (newRow sha actor house data key device now draw).Sound ∧
      decision = ⟨.ok ((newRow sha actor house data key device now draw).shown draw.id),
        clears active now ++
          [.insertAttempt draw.id (newRow sha actor house data key device now draw)]⟩ := by
  have hwrites : ∀ w, expireActive sha active now = .ok w → w = clears active now := by
    intro w hw
    cases active with
    | none => exact (Except.ok.inj hw).symm
    | some e =>
        unfold expireActive at hw
        dsimp only at hw
        rw [expire_eq sha (hactive e rfl)] at hw
        change (ensure _ _ >>= fun _ => pure (ages e.1 e.2 now)) = _ at hw
        unfold ensure at hw
        split at hw
        · rw [← Except.ok.inj hw]
          simp [clears]
        · cases hw
  unfold decideCreate at h
  dsimp only at h
  cases hexpire : expireActive sha active now with
  | error e =>
      rw [hexpire] at h
      cases h
  | ok w =>
      rw [hexpire] at h
      obtain rfl := hwrites w hexpire
      change (publicStatus draw.id (newRow sha actor house data key device now draw) >>= _) = _ at h
      cases hpublic : publicStatus draw.id (newRow sha actor house data key device now draw) with
      | error e =>
          rw [hpublic] at h
          cases h
      | ok status =>
          have hsound := sound_newRow sha hpublic
          rw [publicStatus_eq hsound] at h
          exact ⟨hsound, (Except.ok.inj h).symm⟩

end

end Provisioning

/-! ### Statements -/

namespace Tables

variable {t t' : Tables} {id : String}

/-- Of the attempts, only one row is written. -/
structure Becomes (t : Tables) (id : String) (row : AttemptRow) (t' : Tables) : Prop where
  attempts : ∀ k, t'.attempts.get? k = if k = id then some row else t.attempts.get? k
  issued : t'.issued = t.issued
  users : t'.users = t.users

theorem Becomes.self {row : AttemptRow} (h : t.Becomes id row t') :
    t'.attempts.get? id = some row := by
  rw [h.attempts, if_pos rfl]

theorem Becomes.others {row : AttemptRow} (h : t.Becomes id row t') {k : String} (hk : k ≠ id) :
    t'.attempts.get? k = t.attempts.get? k := by
  rw [h.attempts, if_neg hk]

/-- A row that is written as it is. -/
theorem Becomes.refl {row : AttemptRow} (h : t.attempts.get? id = some row) :
    t.Becomes id row t := by
  refine ⟨fun k => ?_, rfl, rfl⟩
  split
  · rename_i hk
    rw [hk, h]
  · rfl

/-- A settled attempt was discovered, and is written as it is settled. -/
theorem settling_ok {target : AttemptStatus} {cancellation : Option Cancellation}
    (h : t.write (Provisioning.settling id target cancellation) = .ok t') :
    ∃ row, t.attempts.get? id = some row ∧ row.status = .discovered ∧
      t.Becomes id (row.settled target cancellation) t' := by
  unfold Provisioning.settling at h
  simp only [write] at h
  cases hget : t.attempts.get? id with
  | none =>
      rw [hget] at h
      cases h
  | some row =>
      rw [hget] at h
      dsimp only at h
      split at h
      · cases h
      rename_i hmatch
      rw [not_or, not_not, not_not] at hmatch
      split at h
      · obtain rfl := Except.ok.inj h
        refine ⟨row, rfl, hmatch.2, fun k => ?_, rfl, rfl⟩
        rw [Dict.get?_modify]
        split
        · rename_i heq
          rw [heq, hget]
          simp [AttemptRow.settled, hmatch.1]
        · rfl
      · cases h

/-- A discovered attempt can be settled. -/
theorem settling_total {row : AttemptRow} {target : AttemptStatus}
    {cancellation : Option Cancellation} (hget : t.attempts.get? id = some row)
    (hdiscovered : row.status = .discovered) (hrevision : row.revision = 0)
    (huser : ∀ c, cancellation = some c → (t.users.get? c.actorId).isSome = true) :
    ∃ t', t.write (Provisioning.settling id target cancellation) = .ok t' := by
  have hall : (cancellation.all fun c => (t.users.get? c.actorId).isSome) = true := by
    cases cancellation with
    | none => rfl
    | some c => exact huser c rfl
  unfold Provisioning.settling
  simp only [write, hget]
  rw [if_neg (by simp [hdiscovered, hrevision]), if_pos hall]
  exact ⟨_, rfl⟩

/-- A new attempt is the only one of its key, and the only active one of its device. -/
theorem insertAttempt_ok {row : AttemptRow} (h : t.write (.insertAttempt id row) = .ok t') :
    id ∉ t.issued ∧
      (∀ k r, t.attempts.get? k = some r → r.houseId = row.houseId → r.actorId = row.actorId →
        r.createKeyHash ≠ row.createKeyHash) ∧
      (row.status = .discovered → ∀ k r, t.attempts.get? k = some r → r.deviceId = row.deviceId →
        r.status ≠ .discovered) ∧
      t'.issued = id :: t.issued ∧ t'.users = t.users ∧
      ∀ k, t'.attempts.get? k = if k = id then some row else t.attempts.get? k := by
  simp only [write] at h
  split at h
  · cases h
  rename_i hid
  split at h
  · rename_i hchecks
    obtain rfl := Except.ok.inj h
    simp only [Bool.and_eq_true, Bool.or_eq_true, decide_eq_true_eq, Option.isNone_iff_eq_none,
      Dict.find?_eq_none] at hchecks
    obtain ⟨⟨⟨⟨⟨⟨hkey, hactive⟩, -⟩, -⟩, -⟩, -⟩, -⟩ := hchecks
    refine ⟨hid, fun k r hr hhouse hactor hhash => ?_, fun hdiscovered k r hr hdevice hstatus => ?_,
      rfl, rfl, fun k => Dict.get?_set_eq _ _ _ _⟩
    · have := hkey (k, r) (Dict.get?_eq_some.mp hr)
      simp [hhouse, hactor, hhash] at this
    · have := hactive.resolve_left (not_not.mpr hdiscovered) (k, r) (Dict.get?_eq_some.mp hr)
      simp [hdevice, hstatus] at this
  · cases h

end Tables

end KzHome

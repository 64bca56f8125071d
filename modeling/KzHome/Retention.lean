import KzHome.Preparations

/-!
# KzHome.Retention

Runs of one control authority, call after call, and what becomes of its windows.

A window is the only evidence of a command's deadline in ticks, and it is never built again.
`Kept` is what every call keeps: a pending command of the authority's epoch has its window, a
window belongs to a row of the ledger, and the two maps are within their bounds. `Origin` says
where a window comes from: from the call that prepared its command, unchanged.

Between two calls other processes and the software path may write to the ledger
(`Ledger.Onward`), and the registry and the broker connection may change.
-/

namespace KzHome

namespace Ledger

instance (l : Ledger) : Decidable l.Valid := decidable_of_iff (l.check = true) check_iff

instance (l : Ledger) (epoch id : String) : Decidable (l.Unresolved epoch id) :=
  inferInstanceAs (Decidable (_ ∧ _))

instance (epoch : String) (l l' : Ledger) : Decidable (l.Onward epoch l') :=
  decidable_of_iff
    (l'.Valid ∧ (∀ row ∈ l.commands, ∃ row' ∈ l'.commands, row'.commandId = row.commandId ∧
      (row.status.pending = false → row'.status.pending = false)) ∧
      ∀ row ∈ l'.commands, l'.Unresolved epoch row.commandId → l.Unresolved epoch row.commandId)
    ⟨fun ⟨h, k, m⟩ => ⟨h, k, m⟩, fun h => ⟨h.valid, h.rows, h.unresolved⟩⟩

/-- A pending command has no terminal row. -/
theorem Unresolved.pending {l : Ledger} {epoch id : String} (hu : l.Unresolved epoch id)
    (hv : l.Valid) : ∀ row ∈ l.commands, row.commandId = id → row.status.pending = true := by
  obtain ⟨⟨row₀, hrow₀, hid₀, hp⟩, -⟩ := hu
  intro row hrow hid
  obtain rfl := Table.eq_of_key hv.commandIds hrow hrow₀ (hid.trans hid₀.symm)
  exact hp

end Ledger

namespace Solo

open Faults Services Program

/-! ### The runs -/

/-- A call on the authority, or of a service that works with it. -/
inductive SoloCall
  | prepare (transient : Bool) (row : DeviceCommand)
  | stage (house device commandId : String)
  | request (house device : String) (request : PermitRequest)
  | validateDelivery (delivery : ControlDelivery)
  | service (call : ServiceCall)

/-- The program of a call. There is one process, and no two sessions of it overlap. -/
def SoloCall.program (cfg : Config) : SoloCall → Program Unit
  | .prepare transient row => prepareObject cfg 0 transient row
  | .stage house device id => do
    let _ ← Services.stage cfg house device id
  | .request house device req => do
    let _ ← Services.request cfg 0 0 house device req
  | .validateDelivery delivery => Services.validateDelivery delivery
  | .service call => call.program cfg 0 0

/-- The row that a call prepares. -/
def SoloCall.prepares : SoloCall → Option DeviceCommand
  | .prepare _ row => some row
  | .service (.prepare intent) => some intent.row
  | _ => none

/-- What happens next. -/
inductive Step
  | call (c : SoloCall) (draws : List Draw)
  /-- The ledger changes elsewhere. -/
  | elsewhere (db : Ledger)
  | registry (r : Registry)
  | link (connected controlSubscribed : Bool)

def Host.step (cfg : Config) (h : Host) : Step → Option Host
  | .call c draws => some (h.call (c.program cfg) draws).2
  | .elsewhere db => if h.db.Onward h.epoch db then some { h with db } else none
  | .registry r => some { h with registry := r }
  | .link connected controlSubscribed =>
    some { h with proc := { h.proc with connected, controlSubscribed } }

/-- The runs of one authority. -/
def solo (cfg : Config) : Transition.System Host Step := ⟨Host.step cfg⟩

/-- The authority has just been constructed, over a ledger that does not know its epoch. -/
structure Constructed (h : Host) : Prop where
  created : ∃ clock gate, h.authority = ControlAuthority.create clock gate
  valid : h.db.Valid
  unknown : ∀ record ∈ h.db.controls, record.authorityEpoch ≠ h.epoch

/-! ### What every call keeps -/

/-- Evidence is kept, within the bounds. -/
structure Kept (h : Host) : Prop where
  valid : h.db.Valid
  windows : h.windows.size ≤ ControlAuthority.maxWindows
  replies : h.replies.size ≤ ControlAuthority.maxReplies
  evidence : ∀ id, h.db.Unresolved h.epoch id → ∃ window, h.windows.get? id = some window
  rows : ∀ id window, h.windows.get? id = some window → ∃ row ∈ h.db.commands, row.commandId = id

theorem Constructed.kept {h : Host} (hf : Constructed h) : Kept h := by
  obtain ⟨clock, gate, ha⟩ := hf.created
  have hw : h.windows = .empty := congrArg ControlAuthority.windows ha
  have hr : h.replies = .empty := congrArg ControlAuthority.replies ha
  refine ⟨hf.valid, ?_, ?_, fun id hu => ?_, fun id window hget => ?_⟩
  · rw [hw]; exact Nat.zero_le _
  · rw [hr]; exact Nat.zero_le _
  · obtain ⟨-, record, hrecord, -, hepoch⟩ := hu
    exact absurd hepoch (hf.unknown record hrecord)
  · rw [hw] at hget; cases hget

theorem Calm.kept {h h' : Host} (hc : Calm h h') (hk : Kept h) : Kept h' := by
  have hon := hc.ledger hk.valid
  refine ⟨hon.valid, ?_, hc.replies hk.replies, fun id hu => ?_, fun id window hget => ?_⟩
  · rw [hc.windows]; exact hk.windows
  · rw [hc.epoch] at hu
    rw [hc.windows]
    exact hk.evidence id (hon.waits hu)
  · rw [hc.windows] at hget
    obtain ⟨row, hrow, rfl⟩ := hk.rows id window hget
    obtain ⟨row', hrow', hid, -⟩ := hon.rows row hrow
    exact ⟨row', hrow', hid⟩

theorem Unprepared.kept {h h' : Host} (hu : Unprepared h h') (hk : Kept h) : Kept h' := by
  refine ⟨by rw [hu.db]; exact hk.valid, ?_, hu.replies.trans hk.replies, fun id hun => ?_,
    fun id window hget => ?_⟩
  · exact (Dict.size_le hu.windows.old).trans hk.windows
  · rw [hu.db, hu.epoch] at hun
    rw [hu.windows.get? (hun.pending hk.valid)]
    exact hk.evidence id hun
  · rw [hu.db]
    exact hk.rows id window (hu.windows.old id window hget)

theorem Prepared.kept {cfg : Config} {row : DeviceCommand} {h h' : Host}
    (hp : Prepared cfg row h h') (hk : Kept h) : Kept h' := by
  obtain ⟨now, tick, window, windows, -, -, -, hthin, hroom, hw⟩ := hp.window
  have hothers := hp.others
  obtain ⟨record, window', hin⟩ := hp.inStep
  have hv := Ledger.apply_valid hp.commit
  refine ⟨hv, ?_, hp.replies.trans hk.replies, fun id hun => ?_, fun id window hget => ?_⟩
  · rw [hw]
    exact (Dict.size_set_le _ _ _).trans hroom
  · by_cases hid : id = row.commandId
    · rw [hid]
      exact ⟨window', hin.remembered⟩
    · obtain ⟨⟨r, hr, rfl, hpending⟩, c, hc, hcid, hepoch⟩ := hun
      have hcne : c.commandId ≠ row.commandId := by rw [hcid]; exact hid
      have hold : h.db.Unresolved h.epoch r.commandId :=
        ⟨⟨r, (hothers.commands r hid).mp hr, rfl, hpending⟩, c, (hothers.controls c hcne).mp hc,
          hcid, hepoch.trans hp.epoch⟩
      rw [hothers.windows r.commandId hid (hold.pending hk.valid)]
      exact hk.evidence _ hold
  · by_cases hid : id = row.commandId
    · have hrow := (Ledger.command?_eq_some hv).mp hin.ledger
      exact ⟨row, hrow.1, hid.symm⟩
    · rw [hw, Dict.get?_set_eq, if_neg hid] at hget
      obtain ⟨r, hr, rfl⟩ := hk.rows id window (hthin.old id window hget)
      exact ⟨r, (hothers.commands r hid).mpr hr, rfl⟩

/-- How a call ends. -/
def CallEnd (cfg : Config) (c : SoloCall) (h : Host) (r : Ending Error Unit) (h' : Host) : Prop :=
  (c.prepares = none ∧ Calm h h') ∨ ∃ row, c.prepares = some row ∧ PrepareEnd cfg row h r h'

theorem Calms.callEnd {cfg : Config} {c : SoloCall} {h : Host} {m : Program Unit}
    (hm : Calms m h) (hc : c.prepares = none) : Ends Host.perform m (CallEnd cfg c h) h :=
  hm.mono fun _ _ hcalm => Or.inl ⟨hc, hcalm⟩

/-- **Only a preparation changes the windows.** -/
theorem ends_call (cfg : Config) (c : SoloCall) (h : Host) :
    Ends Host.perform (c.program cfg) (CallEnd cfg c h) h := by
  cases c with
  | prepare transient row =>
      exact (ends_prepareObject cfg 0 transient row h).mono fun r h' hp => Or.inr ⟨row, rfl, hp⟩
  | stage house device id =>
      exact ((calms_stage _ _ _ _).seq fun _ _ _ => calms_ret _).callEnd rfl
  | request house device req =>
      exact ((calms_request _ _ _ _ _ _).seq fun _ _ _ => calms_ret _).callEnd rfl
  | validateDelivery delivery => exact ((quiet_validateDelivery _).calms h).callEnd rfl
  | service call =>
      cases call with
      | submit house device user key on => exact (calms_submit _ _ _ _ _ _ _).callEnd rfl
      | get house id => exact ((calms_get _ _ _).seq fun _ _ _ => calms_ret _).callEnd rfl
      | ack house device envelope retained => exact (calms_ack _ _ _ _).callEnd rfl
      | state house device envelope retained => exact (calms_state _ _ _ _).callEnd rfl
      | updateState device patch correlationId =>
          exact ((quiet_updateState _ _ _ _).calms h).callEnd rfl
      | initializeAuthority => exact ((quiet_initializeAuthority _).calms h).callEnd rfl
      | prepare intent =>
          exact (ends_prepareObject cfg 0 true intent.row h).mono fun r h' hp =>
            Or.inr ⟨intent.row, rfl, hp⟩
      | sendControlCommand house device id => exact (calms_sendControlCommand _ _ _ _).callEnd rfl
      | controlRequest house device req => exact (calms_controlRequest _ _ _ _ _ _).callEnd rfl

theorem callEnd (cfg : Config) (c : SoloCall) (h : Host) (draws : List Draw) :
    CallEnd cfg c h (h.call (c.program cfg) draws).1 (h.call (c.program cfg) draws).2 :=
  (ends_call cfg c h).run .last draws

theorem CallEnd.kept {cfg : Config} {c : SoloCall} {h h' : Host} {r : Ending Error Unit}
    (he : CallEnd cfg c h r h') (hk : Kept h) : Kept h' := by
  rcases he with ⟨-, hcalm⟩ | ⟨row, -, ⟨-, hp⟩ | ⟨-, hu⟩⟩
  · exact hcalm.kept hk
  · exact hp.kept hk
  · exact hu.kept hk

/-- What happens between calls leaves the maps alone. -/
theorem step_calm {cfg : Config} {h h' : Host} {l : Step} (hs : (solo cfg).step h l = some h')
    (hl : ∀ c draws, l ≠ .call c draws) : Calm h h' := by
  cases l with
  | call c draws => exact absurd rfl (hl c draws)
  | elsewhere db =>
      simp only [solo, Host.step] at hs
      split at hs
      · rename_i hon
        obtain rfl := Option.some.inj hs
        exact ⟨rfl, rfl, id, fun _ => hon⟩
      · cases hs
  | registry r =>
      obtain rfl := Option.some.inj hs
      exact ⟨rfl, rfl, id, .refl⟩
  | link connected controlSubscribed =>
      obtain rfl := Option.some.inj hs
      exact ⟨rfl, rfl, id, .refl⟩

theorem Kept.step {cfg : Config} {h h' : Host} {l : Step} (hk : Kept h)
    (hs : (solo cfg).step h l = some h') : Kept h' := by
  cases l with
  | call c draws =>
      obtain rfl := Option.some.inj hs
      exact (callEnd cfg c h draws).kept hk
  | elsewhere db => exact (step_calm hs fun _ _ => by simp).kept hk
  | registry r => exact (step_calm hs fun _ _ => by simp).kept hk
  | link connected controlSubscribed => exact (step_calm hs fun _ _ => by simp).kept hk

theorem kept {cfg : Config} {h : Host} (hf : Constructed h) (labels : List Step) :
    Kept ((solo cfg).run h labels) :=
  Transition.System.invariant (fun _ _ _ hk hs => hk.step hs) hf.kept labels

/-! ### Where a window comes from -/

/-- A window comes from the call that prepared its command. -/
def Origin (cfg : Config) (h : Host) (labels : List Step) (id : String) (window : Window) : Prop :=
  ∃ before c draws rest row, labels = before ++ .call c draws :: rest ∧ c.prepares = some row ∧
    row.commandId = id ∧
    Prepared cfg row ((solo cfg).run h before) ((solo cfg).run h (before ++ [.call c draws])) ∧
    ((solo cfg).run h (before ++ [.call c draws])).windows.get? id = some window

theorem Origin.snoc {cfg : Config} {h : Host} {labels : List Step} {id : String} {window : Window}
    (ho : Origin cfg h labels id window) (l : Step) : Origin cfg h (labels ++ [l]) id window := by
  obtain ⟨before, c, draws, rest, row, rfl, hrest⟩ := ho
  refine ⟨before, c, draws, rest ++ [l], row, ?_, hrest⟩
  rw [List.append_assoc, List.cons_append]

theorem run_call (cfg : Config) (h : Host) (before : List Step) (c : SoloCall)
    (draws : List Draw) : (solo cfg).run h (before ++ [.call c draws]) =
      (((solo cfg).run h before).call (c.program cfg) draws).2 := by
  rw [Transition.System.run_snoc]
  exact Transition.System.next_of_step rfl

/-- **Every window is as the call that prepared its command left it.** -/
theorem origin (cfg : Config) {h : Host} (hf : Constructed h) (labels : List Step) {id : String}
    {window : Window} (hw : ((solo cfg).run h labels).windows.get? id = some window) :
    Origin cfg h labels id window := by
  induction labels using List.reverseRecOn with
  | nil =>
      obtain ⟨clock, gate, ha⟩ := hf.created
      have hempty : h.windows = .empty := congrArg ControlAuthority.windows ha
      rw [Transition.System.run_nil, hempty] at hw
      cases hw
  | append_singleton labels l ih =>
      by_cases hl : ∃ c draws, l = .call c draws
      · obtain ⟨c, draws, rfl⟩ := hl
        have he := callEnd cfg c ((solo cfg).run h labels) draws
        rw [← run_call] at he
        rcases he with ⟨-, hcalm⟩ | ⟨row, hrow, ⟨-, hp⟩ | ⟨-, hu⟩⟩
        · rw [hcalm.windows] at hw
          exact (ih hw).snoc _
        · by_cases hid : id = row.commandId
          · exact ⟨labels, c, draws, [], row, rfl, hrow, hid.symm, hp, hw⟩
          · obtain ⟨now, tick, window', windows, -, -, -, hthin, -, hset⟩ := hp.window
            rw [hset, Dict.get?_set_eq, if_neg hid] at hw
            exact (ih (hthin.old id window hw)).snoc _
        · exact (ih (hu.windows.old id window hw)).snoc _
      · rw [Transition.System.run_snoc] at hw
        rcases (solo cfg).next_cases ((solo cfg).run h labels) l with hn | hn
        · rw [hn] at hw
          exact (ih hw).snoc _
        · rw [(step_calm hn fun c draws heq => hl ⟨c, draws, heq⟩).windows] at hw
          exact (ih hw).snoc _

/-! ### Capacity -/

/-- A call forgets windows of terminal commands only. -/
theorem CallEnd.freed {cfg : Config} {c : SoloCall} {h h' : Host} {r : Ending Error Unit}
    (he : CallEnd cfg c h r h') (hk : Kept h) {id : String} {window : Window}
    (hw : h.windows.get? id = some window) : h'.windows.get? id = some window ∨
      ∃ row ∈ h.db.commands, row.commandId = id ∧ row.status.pending = false := by
  rcases he with ⟨-, hcalm⟩ | ⟨row, -, ⟨-, hp⟩ | ⟨-, hu⟩⟩
  · rw [hcalm.windows]
    exact Or.inl hw
  · obtain ⟨now, tick, window', windows, -, -, -, hthin, -, hset⟩ := hp.window
    obtain ⟨r, hr, rfl⟩ := hk.rows id window hw
    have hne : r.commandId ≠ row.commandId := Ledger.insert_fresh hp.commit rfl r hr
    rw [hset, Dict.get?_set_eq, if_neg hne]
    exact hthin.terminal _ window hw
  · exact hu.windows.terminal id window hw

/-- A preparation that returns when there is no room has forgotten a window. -/
theorem CallEnd.full {cfg : Config} {c : SoloCall} {h h' : Host} {r : Ending Error Unit}
    (he : CallEnd cfg c h r h') (hk : Kept h) (hc : c.prepares ≠ none) (hr : r = some (.ok ()))
    (hfull : ControlAuthority.maxWindows ≤ h.windows.size) :
    ∃ id window, h.windows.get? id = some window ∧ h'.windows.get? id = none := by
  rcases he with ⟨hnone, -⟩ | ⟨row, -, ⟨-, hp⟩ | ⟨hne, -⟩⟩
  · exact absurd hnone hc
  · obtain ⟨now, tick, window', windows, -, -, -, hthin, hroom, hset⟩ := hp.window
    by_contra hall
    have hsame : ∀ id window, h.windows.get? id = some window →
        windows.get? id = some window := by
      intro id window hw
      obtain ⟨r, hr, rfl⟩ := hk.rows id window hw
      have hfresh : r.commandId ≠ row.commandId := Ledger.insert_fresh hp.commit rfl r hr
      cases hget : windows.get? r.commandId with
      | none =>
          refine absurd ⟨r.commandId, window, hw, ?_⟩ hall
          rw [hset, Dict.get?_set_eq, if_neg hfresh, hget]
      | some w =>
          have hold := hthin.old _ w hget
          rw [hw] at hold
          exact hold.symm
    exact absurd (Dict.size_le hsame) (by omega)
  · exact absurd hr hne

/-- **Unresolved timing evidence is never evicted**, in every run of one authority. -/
theorem evidence_retained (cfg : Config) {h : Host} (hf : Constructed h) (labels : List Step) :
    let now := (solo cfg).run h labels
    (∀ id, now.db.Unresolved now.epoch id → ∃ window, now.windows.get? id = some window ∧
      Origin cfg h labels id window) ∧
    now.windows.size ≤ ControlAuthority.maxWindows ∧
    now.replies.size ≤ ControlAuthority.maxReplies ∧
    ∀ (c : SoloCall) (draws : List Draw), let next := now.call (c.program cfg) draws
      (∀ id window, now.windows.get? id = some window →
        next.2.windows.get? id = some window ∨
          ∃ row ∈ now.db.commands, row.commandId = id ∧ row.status.pending = false) ∧
      (c.prepares ≠ none → ControlAuthority.maxWindows ≤ now.windows.size →
        next.1 = some (.ok ()) →
          ∃ id window, now.windows.get? id = some window ∧ next.2.windows.get? id = none) := by
  intro now
  have hk : Kept now := kept hf labels
  refine ⟨fun id hu => ?_, hk.windows, hk.replies, fun c draws => ?_⟩
  · obtain ⟨window, hw⟩ := hk.evidence id hu
    exact ⟨window, hw, origin cfg hf labels hw⟩
  · have he := callEnd cfg c now draws
    exact ⟨fun id window hw => he.freed hk hw, fun hc hfull hr => he.full hk hc hr hfull⟩

end Solo

namespace Household

open Solo

/-- What every operation gets at time `t`. -/
def drawAt (t : Instant) : Draw :=
  ⟨⟨⟨[t], List.replicate 2 (some t), [some t], [true]⟩, commandId, true⟩, true, false⟩

/-- The bytes of the candidate. -/
def payload : String :=
  "\x7b\"protocol_version\":\"v1\",\"execution_profile\":\"deadline-permit-v1\"," ++
  "\"core_epoch\":\"6512bd43-d9ca-4e02-a1b7-0c990ab2d703\"," ++
  "\"command_id\":\"8f14e45f-ceea-467f-a0e6-4a1c3b2d5e01\"," ++
  "\"correlation_id\":\"c9f0f895-fb98-4b1b-9d3c-7e5a2f4b6d02\"," ++
  "\"timestamp\":\"1970-01-01T00:00:40+00:00\",\"expires_at\":\"1970-01-01T00:01:10+00:00\"," ++
  "\"state\":\x7b\"on\":true\x7d\x7d"

def controlConfig : Config where
  sha := .recorded [(payload, "29a07dbf38c8ccef5999f5bfb4fdd992af6acb8e41c012480896554014caf327")]
    (by decide) (by decide)
  softwareDevices := []

def freshHost : Host where
  db := ⟨[], []⟩
  registry := controlled
  proc := ⟨ControlAuthority.create ⟨epoch, true, 0, 0, 0, some 0, false, false, 30000000⟩
    fun _ _ _ => .ok (), true, true⟩

/-- The recovery snapshot is taken, and the intent is prepared. -/
def prepareLamp : List Step :=
  [.call (.service .initializeAuthority) (List.replicate 4 (drawAt 0)),
    .call (.service (.prepare intent)) (List.replicate 14 (drawAt 40000000))]

theorem freshHost_constructed : Constructed freshHost := by
  refine ⟨⟨_, _, rfl⟩, by decide, fun record hr => ?_⟩
  cases hr

/-- The lamp's command waits, and its window is there. -/
theorem evidence_retained_lamp :
    ∃ window, ((solo controlConfig).run freshHost prepareLamp).windows.get? commandId =
      some window := by
  have hu : ((solo controlConfig).run freshHost prepareLamp).db.Unresolved
      ((solo controlConfig).run freshHost prepareLamp).epoch commandId := by decide +kernel
  obtain ⟨window, hw, -⟩ :=
    (evidence_retained controlConfig freshHost_constructed prepareLamp).1 commandId hu
  exact ⟨window, hw⟩

end Household

end KzHome

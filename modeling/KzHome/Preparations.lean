import KzHome.Runs
import KzHome.Solo

/-!
# KzHome.Preparations

`ControlAuthority.prepare`, from its call to its end.

A preparation writes a ledger row and a control record in one commit and then remembers a
window. `ends_prepareObject` follows the program through every way it can end: either all three
are there, in step with the row that was asked for (`Prepared`), or nothing was added
(`Unprepared`). In both cases the only windows that are gone are those of terminal rows, which
are forgotten when there is no room left (`Thins`).
-/

namespace KzHome

namespace Solo

open Faults Services

/-! ### Making room -/

/-- Windows are forgotten, of terminal rows only. -/
structure Thins (l : Ledger) (d d' : Dict String Window) : Prop where
  old : ∀ id window, d'.get? id = some window → d.get? id = some window
  terminal : ∀ id window, d.get? id = some window → d'.get? id = some window ∨
    ∃ row ∈ l.commands, row.commandId = id ∧ row.status.pending = false

theorem Thins.refl (l : Ledger) (d : Dict String Window) : Thins l d d :=
  ⟨fun _ _ h => h, fun _ _ h => Or.inl h⟩

theorem Thins.trans {l : Ledger} {d d' d'' : Dict String Window} (h : Thins l d d')
    (k : Thins l d' d'') : Thins l d d'' where
  old id window hw := h.old id window (k.old id window hw)
  terminal id window hw := (h.terminal id window hw).elim (k.terminal id window) Or.inr

/-- The window of a command without a terminal row stays. -/
theorem Thins.get? {l : Ledger} {d d' : Dict String Window} (h : Thins l d d') {id : String}
    (hid : ∀ row ∈ l.commands, row.commandId = id → row.status.pending = true) :
    d'.get? id = d.get? id := by
  refine Option.ext fun window => ⟨h.old id window, fun hw => ?_⟩
  rcases h.terminal id window hw with hkept | ⟨row, hrow, hrid, hp⟩
  · exact hkept
  · rw [hid row hrow hrid] at hp; cases hp

theorem thins_popWindows (l : Ledger) (a : ControlAuthority) :
    Thins l a.windows
      (ControlAuthority.popWindows (ControlAuthority.terminalIds l a) a).windows := by
  refine ⟨fun id window hw => ControlAuthority.get?_popWindows hw, fun id window hw => ?_⟩
  rw [ControlAuthority.popWindows, Dict.get?_foldl_pop]
  split
  · rename_i hid
    obtain ⟨row, hrow, rfl⟩ := List.mem_map.mp hid
    obtain ⟨hrow, hp⟩ := List.mem_filter.mp hrow
    rw [Bool.and_eq_true, Bool.not_eq_true'] at hp
    exact Or.inr ⟨row, hrow, rfl, hp.2⟩
  · exact Or.inl hw

/-- What a preparation may have done before it writes. -/
structure Unprepared (h h' : Host) : Prop where
  db : h'.db = h.db
  epoch : h'.epoch = h.epoch
  replies : h'.replies.size ≤ h.replies.size
  windows : Thins h.db h.windows h'.windows

theorem Unprepared.trans {a b c : Host} (h : Unprepared a b) (k : Unprepared b c) :
    Unprepared a c where
  db := k.db.trans h.db
  epoch := k.epoch.trans h.epoch
  replies := k.replies.trans h.replies
  windows := h.windows.trans (h.db ▸ k.windows)

theorem Silent.unprepared {h h' : Host} (hs : Silent h h') : Unprepared h h' := by
  refine ⟨hs.db, hs.epoch, hs.replies, ?_⟩
  rw [hs.windows]
  exact .refl _ _

section Room

variable {β : Type} {Q : Ending Error β → Host → Prop} {h : Host}

/-- Room is made, or there is none. -/
theorem ends_makeRoom {f : Unit → Program β}
    (hstop : ∀ h', Unprepared h h' → Q none h' ∧ ∀ e, Q (some (.error e)) h')
    (hok : ∀ h', Unprepared h h' → h'.windows.size < ControlAuthority.maxWindows →
      Ends Host.perform (f ()) Q h') : Ends Host.perform (makeRoom >>= f) Q h := by
  have hself : Unprepared h h := (Silent.refl h).unprepared
  refine Ends.bind (ends_compute (fun d e p' hr => by cases hr) fun d a p' hr => ?_)
  obtain ⟨ha, rfl⟩ := Prod.mk.inj hr
  obtain rfl := Except.ok.inj ha
  dsimp only
  split
  · rename_i hroom
    exact hok h hself hroom
  refine ends_query (hstop h hself).1 ?_
  refine ends_compute (fun d e p' hr => by cases hr) fun d u p' hr => ?_
  obtain ⟨-, rfl⟩ := Prod.mk.inj hr
  have hthin := thins_popWindows h.db h.authority
  refine ends_compute (fun d e p' hr => by cases hr) fun d a p' hr => ?_
  obtain ⟨ha, rfl⟩ := Prod.mk.inj hr
  obtain rfl := Except.ok.inj ha
  have hun : Unprepared h { h with proc := { h.proc with
      authority := ControlAuthority.popWindows (ControlAuthority.terminalIds h.db h.authority)
        h.authority } } := ⟨rfl, rfl, Nat.le_refl _, hthin⟩
  dsimp only
  split
  · rename_i hroom
    exact hok _ hun hroom
  · exact (hstop _ hun).2 _

end Room

/-! ### The way through `prepare` -/

/-- `prepare`, on an object that the session may know already (`inspect(row).transient`). -/
def prepareObject (cfg : Config) (pid : Nat) (transient : Bool) (row : DeviceCommand) :
    Program Unit :=
  if transient then prepare cfg pid row
  else do
    physical row.houseId row.deviceId
    let _ ← Program.compute ControlAuthority.prepareSample
    .raise (.conflict "Only a new control intent can be prepared")

/-- What a preparation has written when it returns. -/
structure Prepared (cfg : Config) (row : DeviceCommand) (h h' : Host) : Prop where
  pending : row.status.pending = true
  commit : h.db.apply
    { insert := some row, control := some (ControlAuthority.candidate cfg.sha h.epoch row) } =
      some h'.db
  epoch : h'.epoch = h.epoch
  replies : h'.replies.size ≤ h.replies.size
  window : ∃ now tick window windows, row.createdAt ≤ now ∧ now < row.expiresAt ∧
    window = ControlAuthority.windowOf row (ControlAuthority.candidate cfg.sha h.epoch row) now
      tick ∧
    Thins h.db h.windows windows ∧ windows.size < ControlAuthority.maxWindows ∧
    h'.windows = windows.set row.commandId window

/-- How a preparation ends. -/
def PrepareEnd (cfg : Config) (row : DeviceCommand) (h : Host) (r : Ending Error Unit)
    (h' : Host) : Prop :=
  r = some (.ok ()) ∧ Prepared cfg row h h' ∨ r ≠ some (.ok ()) ∧ Unprepared h h'

theorem Unprepared.stop {cfg : Config} {row : DeviceCommand} {h h' : Host} (hu : Unprepared h h') :
    PrepareEnd cfg row h none h' ∧ ∀ e, PrepareEnd cfg row h (some (.error e)) h' := by
  refine ⟨Or.inr ⟨?_, hu⟩, fun e => Or.inr ⟨?_, hu⟩⟩
  · intro heq; cases heq
  · intro heq; cases heq

theorem still_prepareSample : Call.Moves Still ControlAuthority.prepareSample :=
  still_ticks ControlAuthority.prepareSample_moves

/-- **Every way through `prepare`.** -/
theorem ends_prepareObject (cfg : Config) (pid : Nat) (transient : Bool) (row : DeviceCommand)
    (h : Host) :
    Ends Host.perform (prepareObject cfg pid transient row) (PrepareEnd cfg row h) h := by
  unfold prepareObject
  cases transient with
  | false =>
      refine Within.then (quiet_physical _ _) (fun _ h₁ hs₁ => ?_) fun _ hs => hs.unprepared.stop
      refine Within.then (quiet_compute still_prepareSample) (fun _ h₂ hs₂ => ?_) fun _ hs => ?_
      · exact (hs₁.unprepared.trans hs₂.unprepared).stop.2 _
      · exact (hs₁.unprepared.trans hs.unprepared).stop
  | true =>
      refine Within.then (quiet_physical _ _) (fun _ h₁ hs₁ => ?_) fun _ hs => hs.unprepared.stop
      refine ends_compute (fun d e p' hr => ?_) fun d₁ ⟨now, tick⟩ p' hr => ?_
      · exact (hs₁.unprepared.trans (Silent.computed still_prepareSample hr).unprepared).stop.2 e
      have hu₂ := hs₁.unprepared.trans (Silent.computed still_prepareSample hr).unprepared
      refine ends_find hu₂.stop.1 (ends_lift (fun e _ => hu₂.stop.2 e) fun _ hcheck => ?_)
      obtain ⟨hpending, -, hcreated, hexpires, -⟩ := ControlAuthority.prepareCheck_ok hcheck
      refine ends_makeRoom (fun h₃ hu₃ => (hu₂.trans hu₃).stop) fun h₃ hu₃ hroom => ?_
      have hu := hu₂.trans hu₃
      refine ends_flush hu.stop.1 (hu.stop.2 _) fun _ => ?_
      refine ends_commit hu.stop.1 (fun _ => hu.stop.2 _) fun db hdb => ?_
      refine ends_compute (fun d e p' hr => by cases hr) fun d u p' hr => ?_
      obtain ⟨-, rfl⟩ := Prod.mk.inj hr
      have hepoch : (h₁.port d₁).proc.authority.clock.epoch = h.epoch := hs₁.epoch
      rw [hu.db, hepoch] at hdb
      refine Or.inl ⟨rfl, hpending, hdb, hu.epoch, hu.replies, now, tick, _, h₃.windows, hcreated,
        hexpires, rfl, hu.windows, hroom, ?_⟩
      rw [← hepoch]
      rfl

/-! ### All or nothing -/

/-- The ledger row, the control record and the window of a command, in step with the row that
was prepared. -/
structure InStep (sha : Sha256) (epoch : String) (row : DeviceCommand) (h : Host)
    (record : ControlCommand) (window : Window) : Prop where
  ledger : h.db.command? row.commandId = some row
  control : h.db.control? row.commandId = some record
  remembered : h.windows.get? row.commandId = some window
  digest : record.wireSha256 = sha.hex record.wirePayload
  payload : record.wirePayload = JsonText.dumps
    [("protocol_version", .text "v1"), ("execution_profile", .text controlProfile),
      ("core_epoch", .text epoch), ("command_id", .text row.commandId),
      ("correlation_id", .text row.correlationId),
      ("timestamp", .text (JsonText.isoformat row.createdAt)),
      ("expires_at", .text (JsonText.isoformat row.expiresAt)), ("state", .switch row.requestedOn)]
  identity : window.identity = row.identity

/-- None of the three exists. -/
structure Absent (id : String) (h : Host) : Prop where
  ledger : h.db.command? id = none
  control : h.db.control? id = none
  forgotten : h.windows.get? id = none

/-- Every other row, and every window of another command without a terminal row, is as before. -/
structure OthersKept (id : String) (h h' : Host) : Prop where
  commands : ∀ row, row.commandId ≠ id → (row ∈ h'.db.commands ↔ row ∈ h.db.commands)
  controls : ∀ record, record.commandId ≠ id → (record ∈ h'.db.controls ↔ record ∈ h.db.controls)
  windows : ∀ other, other ≠ id →
    (∀ row ∈ h.db.commands, row.commandId = other → row.status.pending = true) →
      h'.windows.get? other = h.windows.get? other

theorem Prepared.inStep {cfg : Config} {row : DeviceCommand} {h h' : Host}
    (hp : Prepared cfg row h h') :
    ∃ record window, InStep cfg.sha h.epoch row h' record window := by
  obtain ⟨now, tick, window, windows, -, -, rfl, -, -, hw⟩ := hp.window
  have hv := Ledger.apply_valid hp.commit
  obtain ⟨-, hcommands, hcontrols⟩ := Ledger.apply_inv hp.commit
  have hcontrols := (Option.some.inj hcontrols).symm
  refine ⟨ControlAuthority.candidate cfg.sha h.epoch row, ControlAuthority.windowOf row
    (ControlAuthority.candidate cfg.sha h.epoch row) now tick, ?_, ?_, ?_, rfl, rfl, rfl⟩
  · refine (Ledger.command?_eq_some hv).mpr ⟨?_, rfl⟩
    rw [hcommands]
    exact List.mem_append_right _ List.mem_cons_self
  · refine (Ledger.control?_eq_some hv).mpr ⟨?_, rfl⟩
    rw [hcontrols]
    exact List.mem_append_right _ List.mem_cons_self
  · rw [hw, Dict.get?_set_self]

theorem Prepared.others {cfg : Config} {row : DeviceCommand} {h h' : Host}
    (hp : Prepared cfg row h h') : OthersKept row.commandId h h' := by
  obtain ⟨now, tick, window, windows, -, -, -, hthin, -, hw⟩ := hp.window
  obtain ⟨-, hcommands, hcontrols⟩ := Ledger.apply_inv hp.commit
  have hcontrols := (Option.some.inj hcontrols).symm
  refine ⟨fun other hne => ?_, fun other hne => ?_, fun other hne hother => ?_⟩
  · rw [hcommands]
    refine ⟨fun hmem => (List.mem_append.mp hmem).elim id fun hnew => ?_, List.mem_append_left _⟩
    rw [List.mem_singleton.mp hnew] at hne
    exact absurd rfl hne
  · rw [hcontrols]
    refine ⟨fun hmem => (List.mem_append.mp hmem).elim id fun hnew => ?_, List.mem_append_left _⟩
    rw [List.mem_singleton.mp hnew] at hne
    exact absurd rfl hne
  · rw [hw, Dict.get?_set_eq, if_neg hne]
    exact hthin.get? hother

/-- What is as before when nothing is prepared. -/
structure NothingAdded (id : String) (h h' : Host) : Prop where
  db : h'.db = h.db
  windows : ∀ other, (∀ row ∈ h.db.commands, row.commandId = other → row.status.pending = true) →
    h'.windows.get? other = h.windows.get? other
  remembered : ∀ other window, h'.windows.get? other = some window →
    h.windows.get? other = some window
  absent : Absent id h → Absent id h'

theorem Unprepared.nothingAdded {h h' : Host} (hu : Unprepared h h') (id : String) :
    NothingAdded id h h' := by
  refine ⟨hu.db, fun other hother => hu.windows.get? hother, hu.windows.old, fun ha => ?_⟩
  refine ⟨by rw [hu.db]; exact ha.ledger, by rw [hu.db]; exact ha.control, ?_⟩
  cases hw : h'.windows.get? id with
  | none => rfl
  | some window =>
      have hold := hu.windows.old id window hw
      rw [ha.forgotten] at hold
      cases hold

/-- **Preparation is all or nothing**, on every host, for every row and however it ends. -/
theorem prepare_all_or_nothing (cfg : Config) (pid : Nat) (h : Host) (transient : Bool)
    (row : DeviceCommand) (draws : List Draw) :
    let result := h.call (prepareObject cfg pid transient row) draws
    (result.1 = some (.ok ()) ∧
      (∃ record window, InStep cfg.sha h.epoch row result.2 record window) ∧
      OthersKept row.commandId h result.2) ∨
    (result.1 ≠ some (.ok ()) ∧ NothingAdded row.commandId h result.2) := by
  rcases (ends_prepareObject cfg pid transient row h).run .last draws with ⟨hr, hp⟩ | ⟨hr, hu⟩
  · exact Or.inl ⟨hr, hp.inStep, hp.others⟩
  · exact Or.inr ⟨hr, hu.nothingAdded _⟩

end Solo

namespace Household

open Solo

def epoch : String := "6512bd43-d9ca-4e02-a1b7-0c990ab2d703"

/-- The lamp is a physical device, and its gate is open. -/
def controlled : Registry :=
  { tables with physical := [⟨"lamp", some "home", some "lamp", .active⟩] }

def controlledProc : Proc where
  authority :=
    { ControlAuthority.create ⟨epoch, true, 0, 0, 0, some 0, false, false, 30000000⟩
        (fun _ _ _ => .ok ()) with recoveryInitialized := true }
  connected := true
  controlSubscribed := true

/-- What every operation gets, 40 seconds after the start. -/
def draw : Draw :=
  ⟨⟨⟨[40000000], List.replicate 2 (some 40000000), [some 40000000], [true]⟩, commandId, true⟩,
    true, false⟩

/-- An intent to switch the lamp on. -/
def intent : Services.Intent :=
  ⟨commandId, correlationId, "home", "lamp", "alice", "hash", true, .queued, 40000000, 70000000,
    none⟩

/-- A row that the software path has left. -/
def historical : DeviceCommand :=
  Services.newRow ⟨"home", "lamp", "alice", "key", true⟩ commandId "c" 0

def historicalHost : Host := ⟨⟨[historical], []⟩, controlled, controlledProc⟩

/-- The host after the intent was prepared under the id of the historical row. -/
def reprepared : Host :=
  (historicalHost.call (prepareObject config 0 true intent.row) (List.replicate 12 draw)).2

/-- A command that is in the ledger without a control record stays there alone. -/
theorem historical_lamp :
    ¬ ((∃ record window, InStep config.sha historicalHost.epoch intent.row reprepared record
          window) ∨
        Absent commandId reprepared ∧ OthersKept commandId historicalHost reprepared) := by
  have hcontrol : (reprepared.db.control? commandId).isNone = true := by decide +kernel
  have hledger : (reprepared.db.command? commandId).isSome = true := by decide +kernel
  intro hclaim
  rcases hclaim with ⟨record, window, hin⟩ | ⟨habsent, -⟩
  · rw [show reprepared.db.control? commandId = some record from hin.control] at hcontrol
    cases hcontrol
  · rw [habsent.ledger] at hledger
    cases hledger

end Household

end KzHome

import KzHome.CallNotes
import KzHome.Completion

/-!
# KzHome.Requests

Nothing is done that nobody has asked for.

What is in the log was noted by a call that was started before (`called_for`), and what is in the
ledger was put there by what is in the log: a row has a submission or a preparation at its root
(`Rooted`), and one that is applied has both halves of its evidence (`acknowledged`, `reported`).
-/

namespace KzHome

open Session Services CommandService

variable {cfg : Config} {registry : Registry} {labels : List Label} {row : DeviceCommand}

/-! ### The evidence of an applied row -/

/-- What affirms a row is an acknowledgement in its name. -/
theorem ack_of_affirm {p : Processed} (h : p.item = some .affirm) :
    ∃ envelope, p.job = .ack p.row.houseId p.row.deviceId envelope false ∧
      p.row.commandId = envelope.commandId ∧ p.row.correlationId = envelope.correlationId ∧
      envelope.status = .applied := by
  unfold Processed.item at h
  split at h
  · cases h
  split at h
  · cases h
  · cases h
  split at h
  · cases h
  · split at h <;> cases h
  · rename_i house device envelope retained hjob
    split at h
    · cases h
    rename_i hroutes
    rw [not_or, not_not, Bool.not_eq_true] at hroutes
    obtain ⟨rfl, hid, hcorrelation, rfl, rfl⟩ := hroutes
    split at h
    · split at h <;> cases h
    split at h
    · rename_i happlied
      exact ⟨envelope, hjob, hid, hcorrelation, happlied.1⟩
    · cases h
  · split at h
    · cases h
    · obtain ⟨_, -, hreport⟩ := Option.map_eq_some_iff.mp h
      cases hreport

/-- What reports a value of a row is a state in its name. -/
theorem state_of_report {p : Processed} {on : Bool} (h : p.item = some (.report on)) :
    ∃ envelope, p.job = .state p.row.houseId p.row.deviceId envelope false ∧
      p.row.correlationId = envelope.correlationId ∧
      Json.asBool (Json.member envelope.state "on") = some on := by
  unfold Processed.item at h
  split at h
  · cases h
  split at h
  · cases h
  · cases h
  split at h
  · cases h
  · split at h <;> cases h
  · split at h
    · cases h
    split at h
    · split at h <;> cases h
    · split at h <;> cases h
  · rename_i house device envelope retained hjob
    split at h
    · cases h
    rename_i hroutes
    rw [not_or, not_or, not_not, Bool.not_eq_true] at hroutes
    obtain ⟨rfl, ⟨hcorrelation, rfl, rfl⟩, -⟩ := hroutes
    obtain ⟨b, hb, hreport⟩ := Option.map_eq_some_iff.mp h
    obtain rfl := Evidence.Item.report.inj hreport
    exact ⟨envelope, hjob, hcorrelation, hb⟩

/-- What was said about a row was said by a job on an earlier version of it. -/
theorem said_of_evidence {item : Evidence.Item Bool}
    (hrow : row ∈ (after cfg registry labels).shared.db.commands)
    (h : item ∈ evidence row.commandId (after cfg registry labels).shared.log) :
    ∃ p, .processed p ∈ (after cfg registry labels).shared.log ∧ p.item = some item ∧
      p.row.fixedColumns = row.fixedColumns := by
  obtain ⟨e, he, hevidence⟩ := List.mem_filterMap.mp h
  cases e with
  | processed p =>
      simp only [Event.evidence] at hevidence
      split at hevidence
      · rename_i hid
        obtain ⟨before, rest, rfl, hrow', -⟩ := processed_at he
        obtain ⟨row', hmem', hid', hlife⟩ := row_lifecycle cfg registry before rest hrow'
        obtain rfl := Table.eq_of_key (after_inv cfg registry (before ++ rest)).valid.commandIds
          hmem' hrow (hid'.trans hid)
        exact ⟨p, he, hevidence, hlife.fixed.symm⟩
      · cases hevidence
  | _ => cases hevidence

/-- The two halves of the evidence of an applied row. -/
theorem halves_of_applied (hrow : row ∈ (after cfg registry labels).shared.db.commands)
    (happlied : row.status = .applied) :
    .affirm ∈ evidence row.commandId (after cfg registry labels).shared.log ∧
      .report row.requestedOn ∈ evidence row.commandId (after cfg registry labels).shared.log := by
  have htally := ((evident cfg registry labels).rows row hrow).tallies
  have hcomplete : Evidence.Completed row.requestedOn
      (evidence row.commandId (after cfg registry labels).shared.log) := by
    rw [← Evidence.complete_iff, htally.outcome, happlied]
    rfl
  obtain ⟨pre, item, post, heq, -, haffirm, hreport⟩ := hcomplete
  have hsplit : evidence row.commandId (after cfg registry labels).shared.log =
      (pre ++ [item]) ++ post := by
    rw [heq, List.append_assoc, List.singleton_append]
  rw [hsplit]
  refine ⟨List.mem_append_left _ haffirm, List.mem_append_left _ ?_⟩
  obtain ⟨x, hx, hvalue⟩ := List.mem_filterMap.mp (List.mem_of_getLast? hreport)
  cases x with
  | report b =>
      obtain rfl := Option.some.inj hvalue
      exact hx
  | affirm => cases hvalue
  | stop => cases hvalue

/-- A row that is applied was acknowledged by its device. -/
theorem acknowledged (hrow : row ∈ (after cfg registry labels).shared.db.commands)
    (happlied : row.status = .applied) :
    ∃ p envelope, .processed p ∈ (after cfg registry labels).shared.log ∧
      p.job = .ack row.houseId row.deviceId envelope false ∧
      envelope.commandId = row.commandId ∧ envelope.correlationId = row.correlationId ∧
      envelope.status = .applied := by
  obtain ⟨p, hp, hitem, hfixed⟩ := said_of_evidence hrow (halves_of_applied hrow happlied).1
  obtain ⟨envelope, hjob, hid, hcorrelation, hstatus⟩ := ack_of_affirm hitem
  simp only [DeviceCommand.fixedColumns, Prod.mk.injEq] at hfixed
  obtain ⟨hid', hcorrelation', hhouse, hdevice, -⟩ := hfixed
  rw [hhouse, hdevice] at hjob
  exact ⟨p, envelope, hp, hjob, hid.symm.trans hid', hcorrelation.symm.trans hcorrelation', hstatus⟩

/-- A row that is applied was reported by its device. -/
theorem reported (hrow : row ∈ (after cfg registry labels).shared.db.commands)
    (happlied : row.status = .applied) :
    ∃ p envelope, .processed p ∈ (after cfg registry labels).shared.log ∧
      p.job = .state row.houseId row.deviceId envelope false ∧
      envelope.correlationId = row.correlationId ∧
      Json.asBool (Json.member envelope.state "on") = some row.requestedOn := by
  obtain ⟨p, hp, hitem, hfixed⟩ := said_of_evidence hrow (halves_of_applied hrow happlied).2
  obtain ⟨envelope, hjob, hcorrelation, hon⟩ := state_of_report hitem
  simp only [DeviceCommand.fixedColumns, Prod.mk.injEq] at hfixed
  obtain ⟨-, hcorrelation', hhouse, hdevice, -⟩ := hfixed
  rw [hhouse, hdevice] at hjob
  exact ⟨p, envelope, hp, hjob, hcorrelation.symm.trans hcorrelation', hon⟩

/-! ### The roots of the rows -/

/-- Every row has a submission or a preparation at its root. -/
def Rooted (db : Ledger) (log : List Event) : Prop :=
  ∀ row ∈ db.commands, ∃ root : DeviceCommand, root.fixedColumns = row.fixedColumns ∧
    ((∃ s sub, .created s sub root ∈ log ∧ sub.Agrees root) ∨
      ∃ pid record window, .prepared pid root record window ∈ log)

theorem Rooted.keep {db : Ledger} {log log' : List Event} (h : Rooted db log)
    (hrow : row ∈ db.commands) (hlog : log ⊆ log') {row' : DeviceCommand}
    (hfixed : row'.fixedColumns = row.fixedColumns) :
    ∃ root : DeviceCommand, root.fixedColumns = row'.fixedColumns ∧
      ((∃ s sub, .created s sub root ∈ log' ∧ sub.Agrees root) ∨
        ∃ pid record window, .prepared pid root record window ∈ log') := by
  obtain ⟨root, hroot, horigin⟩ := h row hrow
  refine ⟨root, hroot.trans hfixed.symm, horigin.imp ?_ ?_⟩
  · rintro ⟨s, sub, hl, ha⟩
    exact ⟨s, sub, hlog hl, ha⟩
  · rintro ⟨pid, record, window, hl⟩
    exact ⟨pid, record, window, hlog hl⟩

theorem Does.rooted {s pid : Nat} {a b : Shared} (hi : Inv a) (h : Rooted a.db a.log)
    (hd : Does cfg s pid a b) : Rooted b.db b.log := by
  have hlog := hd.log_subset hi
  cases hd with
  | @processed e db hj hs hdb =>
      intro row hrow
      rcases (Ledger.mem_commands_apply hdb).mp hrow with ⟨hu, -⟩ | hins | ⟨hold, -⟩
      · obtain rfl := Option.some.inj hu
        exact h.keep (hj.holds.mem hi.valid) hlog hj.lifecycle.fixed
      · cases hins
      · exact h.keep hold hlog rfl
  | @created sub id correlation now freed db hid hf hdb =>
      intro row hrow
      rcases (Ledger.mem_commands_apply hdb).mp hrow with ⟨hu, -⟩ | hins | ⟨hold, -⟩
      · obtain ⟨e, rfl, rfl⟩ := Option.map_eq_some_iff.mp hu
        have hj := (hf e rfl).1
        exact h.keep (hj.holds.mem hi.valid) hlog hj.lifecycle.fixed
      · obtain rfl := Option.some.inj hins
        refine ⟨_, rfl, Or.inl ⟨s, sub, ?_, .newRow sub id correlation now⟩⟩
        exact List.mem_append_right _ (List.mem_append_right _ (List.mem_singleton.mpr rfl))
      · exact h.keep hold hlog rfl
  | @prepared row' record window now tick db hp hdb =>
      intro row hrow
      rcases (Ledger.mem_commands_apply hdb).mp hrow with ⟨hu, -⟩ | hins | ⟨hold, -⟩
      · cases hu
      · obtain rfl := Option.some.inj hins
        exact ⟨_, rfl, Or.inr ⟨pid, record, window,
          List.mem_append_right _ (List.mem_singleton.mpr rfl)⟩⟩
      · exact h.keep hold hlog rfl
  | @staged row' now db hh hp hn hg hdb =>
      intro row hrow
      rcases (Ledger.mem_commands_apply hdb).mp hrow with ⟨hu, -⟩ | hins | ⟨hold, -⟩
      · obtain rfl := Option.some.inj hu
        exact h.keep (hh.mem hi.valid) hlog rfl
      · cases hins
      · exact h.keep hold hlog rfl
  | @bound g db hg hf hdb =>
      intro row hrow
      rcases (Ledger.mem_commands_apply hdb).mp hrow with ⟨hu, -⟩ | hins | ⟨hold, -⟩
      · cases hu
      · cases hins
      · exact h.keep hold hlog rfl
  | _ => exact fun row hrow => h.keep hrow hlog rfl

theorem rooted (cfg : Config) (registry : Registry) (labels : List Label) :
    Rooted (after cfg registry labels).shared.db (after cfg registry labels).shared.log :=
  after_ledger (P := Rooted) (fun _ h => by cases h) (fun hi h hd => hd.rooted hi h) labels

/-! ### The calls -/

/-- The call was started in the run, on a process that was running. -/
def CallMade (cfg : Config) (registry : Registry) (labels : List Label) (pid : Nat)
    (call : ServiceCall) : Prop :=
  ∃ before rest, labels = before ++ .start pid call :: rest ∧
    ((after cfg registry before).shared.procs pid).isSome = true

theorem call_of_logged {e : Event} (h : e ∈ (after cfg registry labels).shared.log) :
    ∃ s pid call, CallMade cfg registry labels pid call ∧ call.Notes cfg s pid e := by
  obtain ⟨before, pid, call, rest, hlabels, halive, hnotes⟩ := (called_for cfg registry labels).2 e h
  exact ⟨_, pid, call, ⟨before, rest, hlabels, halive⟩, hnotes⟩

/-- A row is what its submission or its preparation has asked for. -/
theorem row_asked (hrow : row ∈ (after cfg registry labels).shared.db.commands) :
    (∃ pid key, CallMade cfg registry labels pid
        (.submit row.houseId row.deviceId row.requestedBy key row.requestedOn) ∧
      row.idempotencyHash = cfg.sha.hex key) ∨
    ∃ pid intent, CallMade cfg registry labels pid (.prepare intent) ∧
      row.fixedColumns = intent.row.fixedColumns := by
  obtain ⟨root, hfixed, ⟨s, sub, hl, hagrees⟩ | ⟨p, record, window, hl⟩⟩ :=
    rooted cfg registry labels row hrow
  · left
    obtain ⟨t, pid, call, hmade, hnotes⟩ := call_of_logged hl
    obtain ⟨hkey, hdevice, hon⟩ := hagrees
    simp only [DeviceCommand.key, Submission.key, Prod.mk.injEq] at hkey
    simp only [DeviceCommand.fixedColumns, Prod.mk.injEq] at hfixed
    obtain ⟨-, -, h₃, h₄, h₅, h₆, h₇, -⟩ := hfixed
    cases call with
    | submit house device user key on =>
        obtain ⟨-, rfl⟩ := hnotes
        refine ⟨pid, key, ?_, h₆.symm.trans hkey.2.2⟩
        rw [← h₃, ← h₄, ← h₅, ← h₇, hkey.1, hdevice, hkey.2.1, hon]
        exact hmade
    | _ => cases hnotes
  · right
    obtain ⟨t, pid, call, hmade, hnotes⟩ := call_of_logged hl
    cases call with
    | prepare intent =>
        obtain ⟨-, rfl⟩ := hnotes
        exact ⟨pid, intent, hmade, hfixed.symm⟩
    | _ => cases hnotes

/-- **Nothing is done unasked.** In every run, whatever the sessions do to each other: a row of the
ledger is what a submission or a preparation has asked for; a row that is applied was acknowledged
and reported by its device; a `set` message was asked for by a submission, or by an update of the
device to exactly that state; a grant answers exactly its own request; and a message on a control
topic was asked for on its topic. -/
theorem nothing_unasked (cfg : Config) (registry : Registry) (labels : List Label) :
    (∀ row ∈ (after cfg registry labels).shared.db.commands,
      ((∃ pid key, CallMade cfg registry labels pid
          (.submit row.houseId row.deviceId row.requestedBy key row.requestedOn) ∧
        row.idempotencyHash = cfg.sha.hex key) ∨
      ∃ pid intent, CallMade cfg registry labels pid (.prepare intent) ∧
        row.fixedColumns = intent.row.fixedColumns) ∧
      (row.status = .applied →
        (∃ pid envelope, CallMade cfg registry labels pid
            (.ack row.houseId row.deviceId envelope false) ∧
          envelope.commandId = row.commandId ∧ envelope.correlationId = row.correlationId ∧
          envelope.status = .applied) ∧
        ∃ pid envelope, CallMade cfg registry labels pid
            (.state row.houseId row.deviceId envelope false) ∧
          envelope.correlationId = row.correlationId ∧
          Json.asBool (Json.member envelope.state "on") = some row.requestedOn)) ∧
    (∀ d, .dispatched d ∈ (after cfg registry labels).shared.log →
      (d.row.isSome = true ∧ ∃ pid user key on, d.frame.state = [("on", .bool on)] ∧
        CallMade cfg registry labels pid (.submit d.frame.house d.frame.device user key on)) ∨
      (d.row = none ∧ ∃ pid correlationId,
        CallMade cfg registry labels pid (.updateState d.frame.device d.frame.state correlationId))) ∧
    (∀ p, .granted p ∈ (after cfg registry labels).shared.log →
      CallMade cfg registry labels p.pid (.controlRequest p.house p.device p.request)) ∧
    ∀ topic house device payload,
      .published topic house device payload ∈ (after cfg registry labels).shared.log →
      (topic = .controlCommand ∧ ∃ pid id,
        CallMade cfg registry labels pid (.sendControlCommand house device id)) ∨
      (topic = .controlReply ∧ ∃ pid request,
        CallMade cfg registry labels pid (.controlRequest house device request)) := by
  refine ⟨fun row hrow => ⟨row_asked hrow, fun happlied => ⟨?ack, ?state⟩⟩, fun d hd => ?set,
    fun p hp => ?grant, fun topic house device payload hpub => ?control⟩
  case ack =>
    obtain ⟨p, envelope, hp, hjob, hrest⟩ := acknowledged hrow happlied
    obtain ⟨s, pid, call, hmade, hnotes⟩ := call_of_logged hp
    cases call with
    | ack house device envelope' retained =>
        obtain ⟨rfl, rfl, rfl, rfl⟩ := Job.ack.inj (hnotes.1.symm.trans hjob)
        exact ⟨pid, _, hmade, hrest⟩
    | submit house device user key on =>
        rcases hnotes.2 with hj | ⟨published, hj⟩
        · cases hj.symm.trans hjob
        · cases hj.symm.trans hjob
    | get house id => cases hnotes.1.symm.trans hjob
    | state house device envelope' retained => cases hnotes.1.symm.trans hjob
    | _ => cases hnotes
  case state =>
    obtain ⟨p, envelope, hp, hjob, hrest⟩ := reported hrow happlied
    obtain ⟨s, pid, call, hmade, hnotes⟩ := call_of_logged hp
    cases call with
    | state house device envelope' retained =>
        obtain ⟨rfl, rfl, rfl, rfl⟩ := Job.state.inj (hnotes.1.symm.trans hjob)
        exact ⟨pid, _, hmade, hrest⟩
    | submit house device user key on =>
        rcases hnotes.2 with hj | ⟨published, hj⟩
        · cases hj.symm.trans hjob
        · cases hj.symm.trans hjob
    | get house id => cases hnotes.1.symm.trans hjob
    | ack house device envelope' retained => cases hnotes.1.symm.trans hjob
    | _ => cases hnotes
  case set =>
    obtain ⟨s, pid, call, hmade, hnotes⟩ := call_of_logged hd
    cases call with
    | submit house device user key on =>
        obtain ⟨hsome, rfl, rfl, hstate⟩ := hnotes
        exact Or.inl ⟨hsome, pid, user, key, on, hstate, hmade⟩
    | updateState device patch correlationId =>
        obtain ⟨hnone, rfl, rfl⟩ := hnotes
        exact Or.inr ⟨hnone, pid, correlationId, hmade⟩
    | _ => cases hnotes
  case grant =>
    obtain ⟨s, pid, call, hmade, hnotes⟩ := call_of_logged hp
    cases call with
    | controlRequest house device request =>
        obtain ⟨-, rfl, rfl, rfl, rfl⟩ := hnotes
        exact hmade
    | _ => cases hnotes
  case control =>
    obtain ⟨s, pid, call, hmade, hnotes⟩ := call_of_logged hpub
    cases call with
    | sendControlCommand house' device' id =>
        obtain ⟨rfl, rfl, rfl⟩ := hnotes
        exact Or.inl ⟨rfl, pid, id, hmade⟩
    | controlRequest house' device' request =>
        obtain ⟨rfl, rfl, rfl⟩ := hnotes
        exact Or.inr ⟨rfl, pid, request, hmade⟩
    | _ => cases hnotes

end KzHome

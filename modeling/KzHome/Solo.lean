import KzHome.Decisions
import KzHome.Lib.Faults
import KzHome.Services

/-!
# KzHome.Solo

One control authority whose calls come one after the other.

A `Host` is a process with the database it works on. A call is a program over the same
operations as everywhere, and each of its operations gets a `Draw`: the readings and the
identifier it is answered with, whether the database takes a write, and whether the connection
is lost, in which case the call ends there. A commit takes full effect or none.

`Silent` says what a call without commits may change of its host, and `Calm` what any call
that prepares nothing may change; every service call but `prepare` is calm.
-/

namespace KzHome

/-! ### What a ledger keeps -/

/-- A pending command with a control record of the epoch. -/
def Ledger.Unresolved (l : Ledger) (epoch id : String) : Prop :=
  (∃ row ∈ l.commands, row.commandId = id ∧ row.status.pending = true) ∧
    ∃ record ∈ l.controls, record.commandId = id ∧ record.authorityEpoch = epoch

/-- A row of the ledger, as it is written again: a terminal row stays terminal. -/
def Ledger.Follows (l : Ledger) (row : DeviceCommand) : Prop :=
  ∃ row₀ ∈ l.commands, row₀.commandId = row.commandId ∧
    (row₀.status.pending = false → row.status.pending = false)

/-- What may become of a ledger while no command of the epoch is prepared: rows stay, terminal
rows stay terminal, and no command of the epoch starts to wait. -/
structure Ledger.Onward (epoch : String) (l l' : Ledger) : Prop where
  valid : l'.Valid
  rows : ∀ row ∈ l.commands, ∃ row' ∈ l'.commands, row'.commandId = row.commandId ∧
    (row.status.pending = false → row'.status.pending = false)
  unresolved : ∀ row ∈ l'.commands, l'.Unresolved epoch row.commandId →
    l.Unresolved epoch row.commandId

namespace Ledger

variable {epoch : String} {l l' : Ledger}

theorem Onward.refl (hv : l.Valid) : l.Onward epoch l :=
  ⟨hv, fun row hrow => ⟨row, hrow, rfl, id⟩, fun _ _ h => h⟩

theorem Onward.waits (h : l.Onward epoch l') {id : String} (hu : l'.Unresolved epoch id) :
    l.Unresolved epoch id := by
  obtain ⟨row, hrow, rfl, -⟩ := hu.1
  exact h.unresolved row hrow hu

theorem Onward.trans {l'' : Ledger} (h : l.Onward epoch l') (k : l'.Onward epoch l'') :
    l.Onward epoch l'' where
  valid := k.valid
  rows row hrow := by
    obtain ⟨row', hrow', hid, hp⟩ := h.rows row hrow
    obtain ⟨row'', hrow'', hid', hp'⟩ := k.rows row' hrow'
    exact ⟨row'', hrow'', hid'.trans hid, fun ht => hp' (hp ht)⟩
  unresolved row _ hu := h.waits (k.waits hu)

/-- **A commit without a control record** lets no command of the epoch start to wait. -/
theorem onward_apply {w : Write} (h : l.apply w = some l') (hv : l.Valid)
    (hcontrol : w.control = none) (hupdate : ∀ row, w.update = some row → l.Follows row) :
    l.Onward epoch l' where
  valid := apply_valid h
  rows row hrow := by
    by_cases hu : ∃ u, w.update = some u ∧ row.commandId = u.commandId
    · obtain ⟨u, hw, hid⟩ := hu
      obtain ⟨row₀, hrow₀, hid₀, hp⟩ := hupdate u hw
      obtain rfl := Table.eq_of_key hv.commandIds hrow₀ hrow (hid₀.trans hid.symm)
      exact ⟨u, (mem_commands_apply h).mpr (Or.inl ⟨hw, row₀, hrow₀, hid₀⟩), hid₀.symm, hp⟩
    · refine ⟨row, (mem_commands_apply h).mpr (Or.inr (Or.inr ⟨hrow, ?_⟩)), rfl, id⟩
      intro u hw hid
      exact hu ⟨u, hw, hid⟩
  unresolved row hrow hu := by
    obtain ⟨⟨r, hr, hid, hp⟩, record, hrecord, hrid, hepoch⟩ := hu
    have hold : ∃ record₀ ∈ l.controls, record₀.commandId = row.commandId ∧
        record₀.authorityEpoch = epoch := by
      rcases (mem_controls_apply h hv).mp hrecord with hc | ⟨_, _, r₀, _, hr₀, _, _, rfl⟩ | ⟨hr₀, _⟩
      · rw [hcontrol] at hc; cases hc
      · exact ⟨r₀, hr₀, hrid, hepoch⟩
      · exact ⟨record, hr₀, hrid, hepoch⟩
    refine ⟨?_, hold⟩
    rcases (mem_commands_apply h).mp hr with ⟨hw, -⟩ | hw | ⟨hr₀, -⟩
    · obtain ⟨row₀, hrow₀, hid₀, ht⟩ := hupdate r hw
      refine ⟨row₀, hrow₀, hid₀.trans hid, ?_⟩
      cases hp₀ : row₀.status.pending with
      | true => rfl
      | false => rw [ht hp₀] at hp; cases hp
    · -- a new row has no control record yet
      obtain ⟨record₀, hrecord₀, hrid₀, -⟩ := hold
      obtain ⟨row₀, hrow₀, hid₀⟩ := List.mem_map.mp (hv.controlCommands record₀ hrecord₀)
      exact absurd (hid₀.trans (hrid₀.trans hid.symm)) (insert_fresh h hw row₀ hrow₀)
    · exact ⟨r, hr₀, hid, hp⟩

end Ledger

theorem DeviceCommand.Lifecycle.follows {l : Ledger} {row result : DeviceCommand}
    (h : row.Lifecycle result) (hrow : row ∈ l.commands) : l.Follows result := by
  refine ⟨row, hrow, (congrArg Prod.fst h.fixed).symm, fun hp => ?_⟩
  rw [h.terminal hp]
  exact hp

namespace Solo

open Faults

/-! ### The host -/

/-- What one operation gets from outside. -/
structure Draw where
  input : Input
  /-- The database takes a write that meets its constraints. -/
  accepted : Bool
  /-- The connection to the database is lost. -/
  lost : Bool

/-- What an operation gets when nothing is left to draw. -/
def Draw.last : Draw := ⟨⟨⟨[], [], [], []⟩, "", false⟩, false, true⟩

/-- What a statement is answered with. -/
def Draw.answer {α : Type} (d : Draw) (a : α) : Option α := if d.lost then none else some a

/-- A process and the database it works on. -/
structure Host where
  db : Ledger
  registry : Registry
  proc : Proc

namespace Host

abbrev authority (h : Host) : ControlAuthority := h.proc.authority

abbrev windows (h : Host) : Dict String Window := h.authority.windows

abbrev replies (h : Host) : Dict String (String × ControlDelivery) := h.authority.replies

abbrev epoch (h : Host) : String := h.authority.clock.epoch

/-- The port of the process on a draw. -/
def port (h : Host) (d : Draw) : Port := ⟨d.input.sources, h.proc⟩

/-- What an operation does. -/
def perform (h : Host) (d : Draw) : (op : Op) → Option op.Ans × Host
  | .registry _ _ => (d.answer h.registry, h)
  | .query _ => (d.answer h.db, h)
  | .find sel => (d.answer (h.db.commands.find? sel.matches), h)
  | .lockControl id => (d.answer (h.db.control? id), h)
  | .atomic f _ => (some (h.port d), { h with proc := (f (h.port d)).proc })
  | .flush w => (d.answer (d.accepted && (h.db.apply w).isSome), h)
  | .commit w _ =>
    if d.lost then (none, h)
    else
      match h.db.apply w with
      | some db =>
        if d.accepted then (some (none : Option Refusal), { h with db })
        else (some (some .integrity), h)
      | none =>
        (some (some (if (h.db.controlsAfter w).isSome then .integrity else .missed)), h)
  | .rollback => (some (), h)
  | .uuid => (some d.input.uuid, h)
  | .publish _ => (some d.input.sent, h)

/-- The ending of a call, and the host after it. -/
def call {α : Type} (h : Host) (m : Program α) (draws : List Draw) : Ending Error α × Host :=
  Faults.run perform .last m draws h

end Host

/-! ### What the operations do -/

section Rules

variable {α β : Type} {Q : Ending Error β → Host → Prop} {h : Host}

/-- A statement that reads. -/
theorem ends_statement {op : sql.Op} {k : sql.Ans op → Program β} {x : sql.Ans op}
    (hop : ∀ d, Host.perform h d op = (Draw.answer d x, h)) (hlost : Q none h)
    (hf : Ends Host.perform (k x) Q h) :
    Ends Host.perform (.call op k : Program β) Q h := by
  intro d
  rw [hop]
  cases hd : d.lost with
  | true => rw [Draw.answer, hd]; exact hlost
  | false => rw [Draw.answer, hd]; exact hf

theorem ends_query {note : Ledger → List Event} {f : Ledger → Program β} (hlost : Q none h)
    (hf : Ends Host.perform (f h.db) Q h) :
    Ends Host.perform (Program.query note >>= f) Q h :=
  ends_statement (fun _ => rfl) hlost hf

theorem ends_find {sel : Selector} {f : Option DeviceCommand → Program β} (hlost : Q none h)
    (hf : Ends Host.perform (f (h.db.commands.find? sel.matches)) Q h) :
    Ends Host.perform (Program.find sel >>= f) Q h :=
  ends_statement (fun _ => rfl) hlost hf

theorem ends_lockControl {id : String} {f : Option ControlCommand → Program β} (hlost : Q none h)
    (hf : Ends Host.perform (f (h.db.control? id)) Q h) :
    Ends Host.perform (Program.lockControl id >>= f) Q h :=
  ends_statement (fun _ => rfl) hlost hf

theorem ends_getControl {id : String} {f : Option ControlCommand → Program β} (hlost : Q none h)
    (hf : Ends Host.perform (f (h.db.control? id)) Q h) :
    Ends Host.perform (Services.getControl id >>= f) Q h :=
  ends_query hlost hf

theorem ends_flush {w : Ledger.Write} {f : Bool → Program β} (hlost : Q none h)
    (hrefused : Ends Host.perform (f false) Q h)
    (htaken : (h.db.apply w).isSome = true → Ends Host.perform (f true) Q h) :
    Ends Host.perform (Program.flush w >>= f) Q h := by
  intro d
  rw [show Host.perform h d (.flush w) =
    (d.answer (d.accepted && (h.db.apply w).isSome), h) from rfl]
  cases hd : d.lost with
  | true => rw [Draw.answer, hd]; exact hlost
  | false =>
      rw [Draw.answer, hd]
      cases hw : d.accepted && (h.db.apply w).isSome with
      | false => exact hrefused
      | true => exact htaken (Bool.and_eq_true_iff.mp hw).2

/-- **A commit takes full effect or none.** -/
theorem perform_commit (h : Host) (d : Draw) (w : Ledger.Write) (note : List Event) :
    Host.perform h d (.commit w note) = (none, h) ∨
      (∃ r, Host.perform h d (.commit w note) = (some (some r), h)) ∨
      ∃ db, h.db.apply w = some db ∧
        Host.perform h d (.commit w note) = (some (none : Option Refusal), { h with db }) := by
  unfold Host.perform
  dsimp only
  split
  · exact Or.inl rfl
  · split
    · rename_i db hdb
      split
      · exact Or.inr (Or.inr ⟨db, hdb, rfl⟩)
      · exact Or.inr (Or.inl ⟨_, rfl⟩)
    · exact Or.inr (Or.inl ⟨_, rfl⟩)

theorem ends_commit {w : Ledger.Write} {note : List Event} {f : Option Refusal → Program β}
    (hlost : Q none h) (hrefused : ∀ r, Ends Host.perform (f (some r)) Q h)
    (hdone : ∀ db, h.db.apply w = some db → Ends Host.perform (f none) Q { h with db }) :
    Ends Host.perform (Program.commit w note >>= f) Q h := by
  intro d
  rcases perform_commit h d w note with hp | ⟨r, hp⟩ | ⟨db, hdb, hp⟩
  · rw [hp]; exact hlost
  · rw [hp]; exact hrefused r
  · rw [hp]; exact hdone db hdb

/-- What code of the process has returned, with the port that it was run on. -/
def returned (port : Port) : Except Error α → Program (Port × α)
  | .ok a => .ret (port, a)
  | .error e => .raise e

/-- Code of the process. -/
theorem ends_compute {c : Call Port Error α} {note : Port → α → List Event}
    {f : Port × α → Program β}
    (herror : ∀ d e p', c.run (h.port d) = (.error e, p') →
      Q (some (.error e)) { h with proc := p'.proc })
    (hok : ∀ d a p', c.run (h.port d) = (.ok a, p') →
      Ends Host.perform (f (h.port d, a)) Q { h with proc := p'.proc }) :
    Ends Host.perform (Program.computeNote c note >>= f) Q h := by
  intro d
  change Ends Host.perform (returned (h.port d) (c.run (h.port d)).1 >>= f) Q
    { h with proc := (c.run (h.port d)).2.proc }
  cases hc : c.run (h.port d) with
  | mk r p' =>
      cases r with
      | error e => exact herror d e p' hc
      | ok a => exact hok d a p' hc

end Rules

/-! ### Code that keeps the windows -/

/-- Code of the process that keeps the epoch and every window, and adds no reply. -/
structure Still (a b : Port) : Prop where
  epoch : b.proc.authority.clock.epoch = a.proc.authority.clock.epoch
  windows : b.proc.authority.windows = a.proc.authority.windows
  replies : b.proc.authority.replies.size ≤ a.proc.authority.replies.size

theorem still_of_ticks {a b : Port} (h : a.Ticks b) : Still a b := by
  refine ⟨h.clock.epoch, ?_, ?_⟩
  · rw [h.authority_eq]
  · rw [h.authority_eq]

theorem still_of_trims {a b : Port} (h : a.Trims b) : Still a b := by
  refine ⟨by rw [h.clock_eq], by rw [h.proc], ?_⟩
  exact Dict.size_le h.replies

theorem still_of_fences {ids : List String} {a b : Port} (h : a.Fences ids b) : Still a b := by
  obtain ⟨tick, -, -, hp⟩ := h.proc
  exact ⟨by rw [hp], by rw [hp], by rw [hp]⟩

/-- What a call without commits may change of its host: memory other than the windows. -/
structure Silent (h h' : Host) : Prop where
  host : h' = { h with proc := h'.proc }
  epoch : h'.epoch = h.epoch
  windows : h'.windows = h.windows
  replies : h'.replies.size ≤ h.replies.size

namespace Silent

theorem refl (h : Host) : Silent h h := ⟨rfl, rfl, rfl, Nat.le_refl _⟩

theorem trans (a b c : Host) (h : Silent a b) (k : Silent b c) : Silent a c where
  host := by rw [k.host, h.host]
  epoch := k.epoch.trans h.epoch
  windows := k.windows.trans h.windows
  replies := k.replies.trans h.replies

theorem db {h h' : Host} (hs : Silent h h') : h'.db = h.db := by rw [hs.host]

theorem computed {α : Type} {c : Call Port Error α} (hc : Call.Moves Still c) {h : Host} {d : Draw}
    {r : Except Error α} {p' : Port} (hr : c.run (h.port d) = (r, p')) :
    Silent h { h with proc := p'.proc } := by
  have hs := hc.of_run hr
  exact ⟨rfl, hs.epoch, hs.windows, hs.replies⟩

end Silent

/-- A program that commits nothing and keeps the windows. -/
abbrev Quiet {α : Type} (m : Program α) : Prop := Within Host.perform Silent m

section Quiet

open Program Services

variable {α β : Type}

theorem Quiet.bind {m : Program α} {f : α → Program β} (h : Quiet m) (hf : ∀ a, Quiet (f a)) :
    Quiet (m >>= f) := Within.bind Silent.trans h hf

theorem quiet_ret (a : α) : Quiet (.ret a : Program α) := Within.ret Silent.refl a

theorem quiet_raise (e : Error) : Quiet (.raise e : Program α) := Within.raise Silent.refl e

theorem quiet_lift (x : Except Error α) : Quiet (Session.Prog.lift x : Program α) :=
  Within.lift Silent.refl x

/-- An operation that is not a commit and runs no code of the process. -/
theorem quiet_ask {op : Op} (hop : ∀ h d, Silent h (Host.perform h d op).2) : Quiet (ask op) := by
  intro h d
  have hs := hop h d
  cases hp : Host.perform h d op with
  | mk answer h' =>
      rw [hp] at hs
      cases answer with
      | none => exact hs
      | some ans => exact hs

theorem quiet_registry (locks : Registry → List Lock) (note : Registry → List Event) :
    Quiet (registry locks note) := quiet_ask fun h _ => .refl h

theorem quiet_query (note : Ledger → List Event) : Quiet (query note) :=
  quiet_ask fun h _ => .refl h

theorem quiet_uuid : Quiet uuid := quiet_ask fun h _ => .refl h

theorem quiet_rollback : Quiet rollback := quiet_ask fun h _ => .refl h

theorem quiet_publish (e : Event) : Quiet (publish e) := quiet_ask fun h _ => .refl h

theorem quiet_compute {c : Call Port Error α} {note : Port → α → List Event}
    (hc : Call.Moves Still c) : Quiet (computeNote c note) := by
  intro h d
  change Ends Host.perform (returned (h.port d) (c.run (h.port d)).1) _
    { h with proc := (c.run (h.port d)).2.proc }
  cases hr : c.run (h.port d) with
  | mk r p' =>
      have hs := Silent.computed hc hr
      cases r with
      | error e => exact hs
      | ok a => exact hs

theorem still_ticks {c : Call Port Error α} (hc : Call.Moves Port.Ticks c) : Call.Moves Still c :=
  fun p => still_of_ticks (hc p)

/-! ### The programs without commits -/

theorem quiet_physical (house device : String) : Quiet (physical house device) := by
  refine (quiet_registry _ _).bind fun r => (quiet_lift _).bind fun item => ?_
  split
  · exact quiet_raise _
  · refine (quiet_registry _ _).bind fun r => (quiet_lift _).bind fun actual => ?_
    split
    · exact quiet_raise _
    · refine (quiet_registry _ _).bind fun r => ?_
      exact (quiet_compute (still_ticks ControlAuthority.authority_moves)).bind fun _ =>
        quiet_lift _

theorem quiet_requireHouse (house device : String) : Quiet (requireHouse house device) := by
  refine (quiet_registry _ _).bind fun r => (quiet_lift _).bind fun _ => ?_
  refine (quiet_registry _ _).bind fun r => (quiet_lift _).bind fun _ => ?_
  refine (quiet_registry _ _).bind fun r => ?_
  split
  · exact quiet_raise _
  · split
    · exact quiet_raise _
    · exact quiet_ret _

theorem quiet_authorizeCommand (cfg : Config) (house device : String) :
    Quiet (authorizeCommand cfg house device) := by
  refine (quiet_requireHouse house device).bind fun housed => (quiet_registry _ _).bind fun r => ?_
  split
  · exact quiet_raise _
  · split
    · exact quiet_raise _
    · exact quiet_ret _

theorem quiet_orUuid (value : String) : Quiet (orUuid value) := by
  unfold orUuid
  split
  · exact quiet_uuid
  · exact quiet_ret _

theorem quiet_now : Quiet (compute CommandService.now) :=
  quiet_compute (still_ticks CommandService.now_moves)

theorem quiet_sendCommand (cfg : Config) (row : Option String) (frame : SetFrame) :
    Quiet (sendCommand cfg row frame) := by
  refine (quiet_authorizeCommand cfg _ _).bind fun ⟨housed, unbound⟩ => ?_
  dsimp only
  split
  · exact quiet_raise _
  · refine (quiet_orUuid _).bind fun correlationId => (quiet_orUuid _).bind fun commandId => ?_
    split
    · exact quiet_raise _
    · refine quiet_now.bind fun ⟨_, now⟩ => ?_
      dsimp only
      split
      · exact quiet_raise _
      · refine (quiet_publish _).bind fun sent => ?_
        split
        · exact quiet_ret _
        · exact quiet_raise _

theorem quiet_updateState (cfg : Config) (device : String) (patch : List (String × Json))
    (correlationId : String) : Quiet (updateState cfg device patch correlationId) := by
  refine (quiet_registry _ _).bind fun r => (quiet_lift _).bind fun _ => ?_
  refine (quiet_registry _ _).bind fun r => (quiet_lift _).bind fun _ => ?_
  refine (quiet_registry _ _).bind fun r => (quiet_lift _).bind fun entity => ?_
  refine (quiet_lift _).bind fun _ => quiet_now.bind fun now => ?_
  refine (quiet_registry _ _).bind fun r => (quiet_lift _).bind fun house => ?_
  split
  · exact quiet_raise _
  · exact (quiet_sendCommand cfg none _).bind fun _ => quiet_ret _

theorem quiet_initializeAuthority (pid : Nat) : Quiet (initializeAuthority pid) := by
  refine (quiet_compute (still_ticks ControlAuthority.authority_moves)).bind fun a => ?_
  dsimp only
  split
  · exact quiet_ret _
  · refine (quiet_query _).bind fun db => (quiet_compute fun p => ?_).bind fun _ => quiet_ret _
    rcases ControlAuthority.startFence_moves _ p with h | h
    · exact still_of_ticks h
    · exact still_of_fences h

theorem quiet_validateDelivery (delivery : ControlDelivery) :
    Quiet (validateDelivery delivery) := by
  refine Quiet.bind (quiet_compute ?_) fun up => ?_
  · exact fun p => still_of_ticks (.refl p)
  dsimp only
  split
  · exact quiet_raise _
  · exact (quiet_compute (still_ticks (ControlAuthority.validateDelivery_moves _))).bind
      fun _ => quiet_ret _

theorem quiet_note (e : Event) : Quiet (note e) := by
  refine Quiet.bind (quiet_compute ?_) fun _ => quiet_ret _
  exact fun p => still_of_ticks (.refl p)

end Quiet

/-! ### Commits that prepare nothing -/

/-- What a call that prepares nothing may change of its host. -/
structure Calm (h h' : Host) : Prop where
  epoch : h'.epoch = h.epoch
  windows : h'.windows = h.windows
  replies : h.replies.size ≤ ControlAuthority.maxReplies →
    h'.replies.size ≤ ControlAuthority.maxReplies
  ledger : h.db.Valid → h.db.Onward h.epoch h'.db

theorem Calm.refl (h : Host) : Calm h h := ⟨rfl, rfl, id, .refl⟩

theorem Calm.trans (a b c : Host) (h : Calm a b) (k : Calm b c) : Calm a c where
  epoch := k.epoch.trans h.epoch
  windows := k.windows.trans h.windows
  replies hr := k.replies (h.replies hr)
  ledger hv := by
    have hon := h.ledger hv
    refine hon.trans ?_
    rw [← h.epoch]
    exact k.ledger hon.valid

theorem Silent.calm {h h' : Host} (hs : Silent h h') : Calm h h' := by
  refine ⟨hs.epoch, hs.windows, hs.replies.trans, fun hv => ?_⟩
  rw [hs.db]
  exact .refl hv

/-- A commit that prepares nothing. -/
theorem calm_committed {h : Host} {w : Ledger.Write} {db : Ledger} (hdb : h.db.apply w = some db)
    (hcontrol : w.control = none) (hupdate : ∀ row, w.update = some row → h.db.Follows row) :
    Calm h { h with db } :=
  ⟨rfl, rfl, id, fun hv => Ledger.onward_apply hdb hv hcontrol hupdate⟩

/-- A program that prepares nothing, started on this host. -/
abbrev Calms {α : Type} (m : Program α) (h : Host) : Prop :=
  Ends Host.perform m (fun _ h' => Calm h h') h

section Calms

open Program Services

variable {α β : Type} {h : Host}

theorem Calms.seq {m : Program α} {f : α → Program β} (hm : Calms m h)
    (hf : ∀ a h', Calm h h' → Calms (f a) h') : Calms (m >>= f) h := by
  refine Ends.bind (hm.mono fun r h' hc => ?_)
  match r with
  | some (.ok a) => exact Ends.along Calm.trans hc (hf a h' hc)
  | some (.error e) => exact hc
  | none => exact hc

theorem Quiet.calms {m : Program α} (hm : Quiet m) (h : Host) : Calms m h :=
  (hm h).mono fun _ _ => Silent.calm

/-- A quiet program, and what follows it. -/
theorem Quiet.seq {m : Program α} {f : α → Program β} (hm : Quiet m)
    (hf : ∀ a h', Silent h h' → Calms (f a) h') : Calms (m >>= f) h := by
  refine Within.then hm (fun a h' hs => ?_) fun h' hs => ?_
  · exact Ends.along Calm.trans hs.calm (hf a h' hs)
  · exact ⟨hs.calm, fun _ => hs.calm⟩

theorem calms_ret (a : α) : Calms (.ret a : Program α) h := Calm.refl h

theorem calms_raise (e : Error) : Calms (.raise e : Program α) h := Calm.refl h

theorem calms_commit {w : Ledger.Write} {note : List Event} {f : Option Refusal → Program β}
    (hcontrol : w.control = none) (hupdate : ∀ row, w.update = some row → h.db.Follows row)
    (hf : ∀ r h', Calms (f r) h') :
    Calms (commit w note >>= f) h := by
  refine ends_commit (Calm.refl h) (fun r => hf _ h) fun db hdb => ?_
  exact Ends.along Calm.trans (calm_committed hdb hcontrol hupdate) (hf none _)

theorem calms_find {sel : Selector} {f : Option DeviceCommand → Program β}
    (hnone : Calms (f none) h) (hsome : ∀ row ∈ h.db.commands, Calms (f (some row)) h) :
    Calms (find sel >>= f) h := by
  refine ends_find (Calm.refl h) ?_
  cases hfind : h.db.commands.find? sel.matches with
  | none => exact hnone
  | some row => exact hsome row (List.mem_of_find?_eq_some hfind)

/-! ### The calls -/

/-- A job on a row of the ledger. -/
theorem calms_process (job : Job) (sub : Option Submission) {row : DeviceCommand}
    (hrow : row ∈ h.db.commands) : Calms (process job sub row) h := by
  refine ends_getControl (Calm.refl h) ?_
  have hstill := still_ticks (job.decide_moves row (h.db.control? row.commandId))
  refine ends_compute (fun d e p' hr => (Silent.computed hstill hr).calm) fun d result p' hr => ?_
  have hs := Silent.computed hstill hr
  refine Ends.along Calm.trans hs.calm (calms_commit rfl ?_ fun r h' => ?_)
  · intro row' hw
    obtain rfl := Option.some.inj hw
    rw [hs.db]
    exact (Job.decided hr).lifecycle.follows hrow
  · cases r with
    | none => exact calms_ret _
    | some refusal => exact calms_raise _

theorem calms_get (sub : Option Submission) (house id : String) : Calms (get sub house id) h :=
  calms_find (calms_raise _) fun _ hrow => calms_process _ _ hrow

theorem calms_ack (house device : String) (envelope : AckEnvelope) (retained : Bool) :
    Calms (ack house device envelope retained) h :=
  calms_find (quiet_rollback.calms h) fun _ hrow =>
    (calms_process _ _ hrow).seq fun _ _ _ => calms_ret _

theorem calms_state (house device : String) (envelope : StateEnvelope) (retained : Bool) :
    Calms (state house device envelope retained) h :=
  calms_find (quiet_rollback.calms h) fun _ hrow =>
    (calms_process _ _ hrow).seq fun _ _ _ => calms_ret _

theorem calms_settle (sub : Submission) (id : String) (published : Bool) :
    Calms (settle sub id published) h :=
  calms_find (calms_raise _) fun _ hrow => (calms_process _ _ hrow).seq fun _ _ _ =>
    (calms_get _ _ _).seq fun _ _ _ => (quiet_note _).calms _

theorem calms_dispatch (cfg : Config) (sub : Submission) (row : DeviceCommand) :
    Calms (dispatch cfg sub row) h :=
  (quiet_note _).seq fun _ _ _ =>
    Quiet.seq (Within.attempt (quiet_sendCommand cfg _ _)) fun _ _ _ => calms_settle _ _ _

/-- What is flushed but not committed yet of the previous attempt. -/
def Frees (l : Ledger) (freed : Option Processed) : Prop :=
  ∀ e, freed = some e → l.Follows e.result

theorem calms_create (cfg : Config) (session : Nat) (sub : Submission) {freed : Option Processed}
    (hfreed : Frees h.db freed) : Calms (create cfg session sub freed) h := by
  refine Quiet.seq (quiet_compute ?_) fun ⟨_, connected⟩ h₁ hs₁ => ?_
  · exact fun p => still_of_ticks (.refl p)
  dsimp only
  split
  · exact calms_raise _
  refine (quiet_authorizeCommand cfg _ _).seq fun _ h₂ hs₂ => ?_
  refine quiet_now.seq fun ⟨_, now⟩ h₃ hs₃ => quiet_uuid.seq fun commandId h₄ hs₄ => ?_
  refine quiet_uuid.seq fun correlationId h₅ hs₅ => calms_commit rfl ?_ fun r h' => ?_
  · intro row hw
    obtain ⟨e, he, rfl⟩ := Option.map_eq_some_iff.mp hw
    rw [hs₅.db, hs₄.db, hs₃.db, hs₂.db, hs₁.db]
    exact hfreed e he
  · cases r with
    | none => exact calms_dispatch _ _ _
    | some refusal => exact calms_raise _

theorem calms_submitFree (cfg : Config) (session : Nat) (sub : Submission) (device : Device)
    {freed : Option Processed} (hfreed : Frees h.db freed) :
    Calms (submitFree cfg session sub device freed) h := by
  unfold submitFree
  split
  · exact calms_raise _
  · exact calms_create cfg session sub hfreed

theorem calms_submitNew (cfg : Config) (session : Nat) (sub : Submission) (device : Device) :
    Calms (submitNew cfg session sub device) h := by
  refine (quiet_registry _ _).seq fun r _ _ => (quiet_lift _).seq fun _ _ _ => ?_
  split
  · exact calms_raise _
  refine (quiet_lift _).seq fun _ h₁ _ => calms_find ?_ fun row hrow => ?_
  · exact calms_submitFree _ _ _ _ fun e he => by cases he
  refine ends_getControl (Calm.refl h₁) ?_
  have hstill := still_ticks (Job.read.decide_moves row (h₁.db.control? row.commandId))
  refine ends_compute (fun d e p' hr => (Silent.computed hstill hr).calm) fun d result p' hr => ?_
  have hs := Silent.computed hstill hr
  refine Ends.along Calm.trans hs.calm ?_
  dsimp only
  split
  · exact calms_raise _
  refine ends_flush (Calm.refl _) (calms_raise _) fun _ => calms_submitFree _ _ _ _ fun e he => ?_
  obtain rfl := Option.some.inj he
  rw [hs.db]
  exact (Job.decided hr).lifecycle.follows hrow

theorem calms_submitReplay (sub : Submission) {previous : DeviceCommand}
    (hrow : previous ∈ h.db.commands) : Calms (submitReplay sub previous) h := by
  unfold submitReplay
  split
  · exact calms_raise _
  · exact (calms_process _ _ hrow).seq fun _ _ _ => (quiet_note _).calms _

theorem calms_submit (cfg : Config) (session : Nat) (house device user key : String) (on : Bool) :
    Calms (submit cfg session house device user key on) h := by
  refine (quiet_registry _ _).seq fun _ _ _ => (quiet_lift _).seq fun _ _ _ => ?_
  refine (quiet_registry _ _).seq fun r _ _ => ?_
  split
  · exact calms_raise _
  refine (quiet_registry _ _).seq fun _ _ _ => (quiet_lift _).seq fun actual _ _ => ?_
  split
  · exact calms_raise _
  · exact calms_find (calms_submitNew _ _ _ _) fun _ hrow => calms_submitReplay _ hrow

theorem quiet_sample : Quiet (compute (ControlAuthority.clocked ControlClock.sample)) :=
  quiet_compute (still_ticks (.clocked ControlClock.sample_moves))

theorem mem_of_find? {l : Ledger} {sel : Selector} {row : DeviceCommand}
    (h : l.commands.find? sel.matches = some row) : row ∈ l.commands := List.mem_of_find?_eq_some h

theorem calms_stage (cfg : Config) (house device id : String) :
    Calms (stage cfg house device id) h := by
  refine (quiet_physical _ _).seq fun _ _ _ => quiet_sample.seq fun ⟨_, now, tick⟩ h₁ _ => ?_
  refine ends_find (Calm.refl h₁) (ends_getControl (Calm.refl h₁) ?_)
  have hstill := still_ticks (ControlAuthority.stageDecide_moves cfg.sha id
    (h₁.db.commands.find? (Selector.routed house device id).matches) (h₁.db.control? id) now tick)
  refine ends_compute (fun d e p' hr => (Silent.computed hstill hr).calm)
    fun d ⟨result, delivery⟩ p' hr => ?_
  have hs := Silent.computed hstill hr
  obtain ⟨row, record, window, hrow, -, -, rfl, -⟩ := ControlAuthority.stageDecide_ok hr
  refine Ends.along Calm.trans hs.calm (calms_commit rfl ?_ fun r h' => ?_)
  · intro row' hw
    obtain rfl := Option.some.inj hw
    rw [hs.db]
    exact ⟨row, mem_of_find? hrow, rfl, fun hp => hp⟩
  · cases r with
    | none => exact calms_ret _
    | some refusal => exact calms_raise _

/-- Binding a grant whose reply has room. -/
theorem calms_bindGrant (session pid : Nat) (grant : ControlAuthority.Grant)
    (hroom : h.replies.size < ControlAuthority.maxReplies) :
    Calms (bindGrant session pid grant) h := by
  refine ends_commit (Calm.refl h) (fun r => ?_) fun db hdb => ?_
  · cases r with
    | integrity => exact calms_raise _
    | missed => exact calms_raise _
  · have hc : Calm h { h with db } := calm_committed hdb rfl fun _ hw => by cases hw
    refine ends_compute (fun d e p' hr => by cases hr) fun d u p' hr => ?_
    obtain ⟨-, rfl⟩ := Prod.mk.inj hr
    refine ⟨hc.epoch, hc.windows, fun _ => ?_, hc.ledger⟩
    exact (Dict.size_set_le _ _ _).trans hroom

theorem calms_request (cfg : Config) (session pid : Nat) (house device : String)
    (req : PermitRequest) : Calms (request cfg session pid house device req) h := by
  refine (quiet_physical _ _).seq fun _ _ _ => quiet_sample.seq fun ⟨_, now, tick⟩ h₁ _ => ?_
  refine ends_find (Calm.refl h₁) (ends_lockControl (Calm.refl h₁) ?_)
  have hstill : Call.Moves Still (ControlAuthority.requestDecide cfg.sha house device req
      (h₁.db.commands.find? (Selector.routed house device req.commandId).matches)
      (h₁.db.control? req.commandId) now tick) := fun p =>
    still_of_trims (ControlAuthority.requestDecide_moves _ _ _ _ _ _ _ _ p)
  refine ends_compute (fun d e p' hr => (Silent.computed hstill hr).calm)
    fun d decision p' hr => ?_
  have hs := Silent.computed hstill hr
  refine Ends.along Calm.trans hs.calm ?_
  cases decision with
  | cached row record delivery => exact calms_ret _
  | fresh grant => exact calms_bindGrant _ _ _ (ControlAuthority.requestDecide_room hr)

theorem calms_sendControlCommand (cfg : Config) (house device id : String) :
    Calms (sendControlCommand cfg house device id) h :=
  (calms_stage _ _ _ _).seq fun _ _ _ => quiet_rollback.seq fun _ _ _ =>
    (quiet_validateDelivery _).seq fun _ _ _ => (quiet_publish _).seq fun _ _ _ => calms_ret _

theorem calms_controlRequest (cfg : Config) (session pid : Nat) (house device : String)
    (req : PermitRequest) : Calms (controlRequest cfg session pid house device req) h := by
  refine (quiet_requireHouse _ _).seq fun _ _ _ => Calms.seq (Ends.attempt ?_) fun outcome _ _ => ?_
  · exact (calms_request _ _ _ _ _ _).seq fun _ _ _ => quiet_rollback.seq fun _ _ _ =>
      (quiet_validateDelivery _).seq fun _ _ _ => calms_ret _
  refine quiet_rollback.seq fun _ _ _ => ?_
  cases outcome with
  | ok payload => exact (quiet_publish _).seq fun _ _ _ => calms_ret _
  | error e =>
      dsimp only
      split
      · exact (quiet_publish _).seq fun _ _ _ => calms_ret _
      · exact calms_raise _

end Calms

end Solo

end KzHome

import KzHome.RelayRuns
import KzHome.Requests

/-!
# KzHome.EndToEnd

Core and the relay, over a network that may delay, lose, duplicate and reorder their messages.

A `set` message is delivered to the relay whenever the broker likes, as often as it likes, once
Core has published it; an acknowledgement that Core gets for the relay's device is one that the
relay has published. Each of the two reads its own clock; that of the relay does not go back. The
relay is not restarted: what it remembers of the commands it has answered is lost with its process.

For every command the relay is in one of three phases (`Phase`): it has not switched for it and
has not said so; it has switched once, in time, and will not again; or the date until which it
would have to remember the command is no datetime, and then it never answers. A command that is
`applied` in the ledger was acknowledged, so it is in the second. A relay whose clock is behind can
switch at a reading before the command's creation; with one clock for both it cannot (`Later`).
-/

namespace KzHome

open Session Restart JsonGrammar PyValues

/-! ### What the two say -/

namespace Simulator

/-- What Core reads of an ACK. -/
def Ack.envelope (a : Ack) : AckEnvelope where
  commandId := a.commandId
  correlationId := a.correlationId
  status := match a.status with
    | .applied => .applied
    | .rejected => .rejected

/-- The envelope is that of an ACK. -/
def Published.answers (envelope : AckEnvelope) : Published → Bool
  | .ack a => a.envelope = envelope
  | .state _ _ _ => false

/-- The state of a command is that of a message; what becomes of anything but a switch is left
open. -/
def carriesState (state : List (List Nat × Value)) : List (String × Json) → Bool
  | [(name, .bool b)] =>
    match state with
    | [(key, .bool b')] => key = points name && b' = b
    | _ => false
  | _ => true

/-- The command is what a `set` message says: its times are written with the offset zero. -/
def Command.carries (c : Command) (f : SetFrame) : Bool :=
  c.commandId = f.commandId && c.correlationId = f.correlationId &&
    c.timestamp = ⟨f.timestamp, some 0⟩ && c.expiresAt = some ⟨f.expiresAt, some 0⟩ &&
    carriesState c.state f.state

/-- There is one command that a message which switches to `on` carries. -/
theorem Command.eq_of_carries {c : Command} {f : SetFrame} {on : Bool} (h : c.carries f = true)
    (hon : f.state = [("on", .bool on)]) :
    c = ⟨f.commandId, f.correlationId, ⟨f.timestamp, some 0⟩, some ⟨f.expiresAt, some 0⟩,
      [(points "on", .bool on)]⟩ := by
  simp only [Command.carries, Bool.and_eq_true, decide_eq_true_eq, hon] at h
  obtain ⟨⟨⟨⟨hid, hcorrelation⟩, htimestamp⟩, hexpires⟩, hstate⟩ := h
  have hstate : c.state = [(points "on", .bool on)] := by
    unfold carriesState at hstate
    split at hstate
    · rename_i name b heq
      obtain ⟨rfl, rfl⟩ : name = "on" ∧ b = on := by simpa using heq.symm
      split at hstate
      · simp_all
      · cases hstate
    · rename_i hother
      exact absurd rfl (hother "on" on)
  obtain ⟨commandId, correlationId, timestamp, expiresAt, state⟩ := c
  simp only [Command.mk.injEq]
  exact ⟨hid, hcorrelation, htimestamp, hexpires, hstate⟩

/-- The value that a verdict switches to. -/
def Verdict.switch : Verdict → Option Bool
  | .applied on => some on
  | .rejected _ => none

/-- What a command assigns to `self.on`. -/
def Relay.switches (s : Relay) (now : Int) (c : Command) : Option Bool :=
  match (s.purge now).seen.get? c.commandId, verdict now c with
  | none, .ok v => if 4096 ≤ (s.purge now).seen.size then none else v.switch
  | _, _ => none

/-- What `handle` assigns to `self.on`, and for which command. -/
def Relay.assigns (cfg : Config) (s : Relay) (d : Delivery) : Option (Command × Bool) :=
  match decode cfg d.message with
  | .error _ => none
  | .ok c => (s.switches d.now c).map fun on => (c, on)

/-- What the relay has published when `handle` is over. -/
def output : Except RelayError (List Published) → List Published
  | .ok out => out
  | .error _ => []

end Simulator

/-- The command of a ledger row, as the relay gets it. -/
def DeviceCommand.command (row : DeviceCommand) : Simulator.Command where
  commandId := row.commandId
  correlationId := row.correlationId
  timestamp := ⟨row.createdAt, some 0⟩
  expiresAt := some ⟨row.expiresAt, some 0⟩
  state := [(points "on", .bool row.requestedOn)]

/-! ### The two together -/

/-- An assignment of `self.on`: for which command, and the reading of the clock before it. -/
structure Assignment where
  commandId : String
  on : Bool
  reading : Instant

/-- Core, the relay, the time that the relay can read, what it has published, and the assignments
that it has made. -/
structure Joint.State where
  world : World
  relay : Simulator.Relay
  now : Instant
  published : List Simulator.Published
  assigned : List Assignment

/-- A step of the two. -/
inductive Joint.Move
  /-- Something happens in Core. -/
  | core (l : Label)
  /-- The broker delivers a message to the relay. -/
  | relay (d : Simulator.Delivery)

namespace Joint

variable (cfg : Config) (rcfg : Simulator.Config)

/-- The ACKs that Core gets from the relay's device are the relay's. -/
def admits (s : State) : Label → Bool
  | .start _ (.ack house device envelope _) =>
    house ≠ rcfg.houseId || device ≠ rcfg.deviceId ||
      s.published.any (Simulator.Published.answers envelope)
  | _ => true

/-- The command is that of a message which Core has published on the relay's topic. -/
def sentBy (c : Simulator.Command) : Event → Bool
  | .dispatched d =>
    d.frame.house = rcfg.houseId && d.frame.device = rcfg.deviceId && c.carries d.frame
  | _ => false

/-- What the broker delivers to the relay, if it is a command, was published by Core. -/
def delivers (s : State) (d : Simulator.Delivery) : Bool :=
  match Simulator.decode rcfg d.message with
  | .error _ => true
  | .ok c => s.world.shared.log.any (sentBy rcfg c)

/-- The state after the relay has handled a message. -/
def handled (s : State) (d : Simulator.Delivery) : State where
  world := s.world
  relay := (s.relay.handle rcfg d).1
  now := d.later
  published := s.published ++ Simulator.output (s.relay.handle rcfg d).2
  assigned := s.assigned ++
    ((s.relay.assigns rcfg d).map fun x => ⟨x.1.commandId, x.2, d.now⟩).toList

/-- Core and the relay, one step of either after the other. -/
def system : Transition.System State Move where
  step s
    | .core l =>
      if admits rcfg s l = true then
        ((coreSystem cfg).step s.world l).map fun w => { s with world := w }
      else none
    | .relay d =>
      if s.now ≤ d.now ∧ d.now ≤ d.later ∧ delivers rcfg s d = true then some (handled rcfg s d)
      else none

/-- Empty ledger tables, and a relay that was just started, at instant `now` of its clock. -/
def start (registry : Registry) (now : Instant) : State :=
  ⟨State.init (Shared.empty registry), .start, now, [], []⟩

end Joint

/-! ### The relay's half -/

namespace Simulator

variable {cfg : Config} {s : Relay} {d : Delivery} {c : Command}

/-- What a command does to the switch, and what is published for it. -/
inductive Course (cfg : Config) (s : Relay) (d : Delivery) (c : Command) : Prop
  /-- It raises, and nothing was assigned. -/
  | refused (hassigns : s.assigns cfg d = none) (hout : output (s.handle cfg d).2 = [])
      (hseen : (s.handle cfg d).1.seen = (s.purge d.now).seen)
  /-- It is cached, with this ACK. -/
  | repeated {e : Entry} (hget : s.seen.get? c.commandId = some e)
      (hassigns : s.assigns cfg d = none) (hout : output (s.handle cfg d).2 = [.ack e.ack])
      (hseen : (s.handle cfg d).1.seen = (s.purge d.now).seen)
  /-- It switches, and the date until which it had to be remembered is no datetime. -/
  | overflowed {on : Bool} (hassigns : s.assigns cfg d = some (c, on))
      (hout : output (s.handle cfg d).2 = [])
      (hseen : (s.handle cfg d).1.seen = (s.purge d.now).seen)
      (hretention : ∀ expires, retention d.now c ≠ .ok expires)
  /-- It is judged, answered and cached. -/
  | answered {v : Verdict} {expires : Int} (hget : (s.purge d.now).seen.get? c.commandId = none)
      (hverdict : verdict d.now c = .ok v) (hroom : (s.purge d.now).seen.size < 4096)
      (hassigns : s.assigns cfg d = v.switch.map fun on => (c, on))
      (hout : output (s.handle cfg d).2 = .ack (acknowledge d.now c v) :: announce d.later c v)
      (hretention : retention d.now c = .ok expires)
      (hseen : (s.handle cfg d).1.seen =
        (s.purge d.now).seen.set c.commandId ⟨expires, c, acknowledge d.now c v⟩)

theorem assigns_of_decode (hdecode : decode cfg d.message = .ok c) :
    s.assigns cfg d = (s.switches d.now c).map fun on => (c, on) := by
  rw [Relay.assigns, hdecode]

theorem switches_of_cached {now : Int} {e : Entry}
    (hget : (s.purge now).seen.get? c.commandId = some e) : s.switches now c = none := by
  rw [Relay.switches, hget]

theorem switches_of_unjudged {now : Int} {e : RelayError} (hverdict : verdict now c = .error e) :
    s.switches now c = none := by
  rw [Relay.switches, hverdict]
  split
  · rename_i h
    cases h
  · rfl

theorem switches_of_verdict {now : Int} {v : Verdict}
    (hget : (s.purge now).seen.get? c.commandId = none) (hverdict : verdict now c = .ok v) :
    s.switches now c = if 4096 ≤ (s.purge now).seen.size then none else v.switch := by
  rw [Relay.switches, hget, hverdict]

/-- **What a command does.** -/
theorem course (s : Relay) (hdecode : decode cfg d.message = .ok c) : Course cfg s d c := by
  have hassigns := assigns_of_decode (s := s) hdecode
  have hturn := accept_turn s d.now d.later c
  have hhandle := handle_of_decode (s := s) hdecode
  generalize hs' : (s.accept d.now d.later c).1 = s' at hturn
  generalize hr : (s.accept d.now d.later c).2 = r at hturn
  have hout : output (s.handle cfg d).2 = output r := by rw [hhandle, hr]
  have hseen : (s.handle cfg d).1.seen = s'.seen := by rw [hhandle, hs']
  cases hturn with
  | repeated hget _ =>
      rw [switches_of_cached hget] at hassigns
      exact .repeated (purge_get?.mp hget).1 hassigns hout hseen
  | reused hget _ =>
      rw [switches_of_cached hget] at hassigns
      exact .refused hassigns hout hseen
  | unjudged hget hverdict =>
      rw [switches_of_unjudged hverdict] at hassigns
      exact .refused hassigns hout hseen
  | full hget hverdict hfull =>
      rw [switches_of_verdict hget hverdict, if_pos hfull] at hassigns
      exact .refused hassigns hout hseen
  | @overflowed v e hget hverdict hroom hretention =>
      rw [switches_of_verdict hget hverdict, if_neg (not_le.mpr hroom)] at hassigns
      cases v with
      | rejected code => exact .refused hassigns hout hseen
      | applied on =>
          exact .overflowed hassigns hout hseen fun expires h => by
            rw [hretention] at h
            cases h
  | @answered v expires hget hverdict hroom hretention =>
      rw [switches_of_verdict hget hverdict, if_neg (not_le.mpr hroom)] at hassigns
      exact .answered hget hverdict hroom hassigns hout hretention hseen

/-- The assignment is what becomes of the switch. -/
theorem handle_on (cfg : Config) (s : Relay) (d : Delivery) :
    (s.handle cfg d).1.on = ((s.assigns cfg d).map Prod.snd).getD s.on := by
  cases hdecode : decode cfg d.message with
  | error e => rw [Relay.assigns, hdecode, handle_of_error hdecode]; rfl
  | ok c =>
      rw [assigns_of_decode hdecode, handle_of_decode hdecode]
      have hturn := accept_turn s d.now d.later c
      generalize (s.accept d.now d.later c).1 = s' at hturn ⊢
      generalize (s.accept d.now d.later c).2 = r at hturn
      cases hturn with
      | repeated hget _ => rw [switches_of_cached hget]; rfl
      | reused hget _ => rw [switches_of_cached hget]; rfl
      | unjudged hget hverdict => rw [switches_of_unjudged hverdict]; rfl
      | full hget hverdict hfull => rw [switches_of_verdict hget hverdict, if_pos hfull]; rfl
      | @overflowed v e hget hverdict hroom _ =>
          rw [switches_of_verdict hget hverdict, if_neg (not_le.mpr hroom)]
          cases v <;> rfl
      | @answered v expires hget hverdict hroom _ =>
          rw [switches_of_verdict hget hverdict, if_neg (not_le.mpr hroom)]
          cases v <;> rfl

/-- What is assigned is assigned for the command of the message. -/
theorem decode_of_assigns {x : Command × Bool} (h : s.assigns cfg d = some x) :
    decode cfg d.message = .ok x.1 := by
  unfold Relay.assigns at h
  split at h
  · cases h
  · rename_i c hdecode
    obtain ⟨on, -, rfl⟩ := Option.map_eq_some_iff.mp h
    exact hdecode

/-- A message that is no command does nothing. -/
theorem idle_of_error {e : RelayError} (h : decode cfg d.message = .error e) :
    s.assigns cfg d = none ∧ s.handle cfg d = (s, .error e) :=
  ⟨by rw [Relay.assigns, h], handle_of_error h⟩

/-- A remembered command is not assigned again. -/
theorem Remembered.unassigned {c : Command} {s : Relay} {d : Delivery} (h : Remembered c s d.now)
    (hdecode : decode cfg d.message = .ok c) : s.assigns cfg d = none := by
  have hkept : (s.purge d.now).seen.get? c.commandId = none →
      c.timestamp.instant + commandWindow < d.now := by
    intro hget
    rcases h with ⟨e, he, hcovers⟩ | hpast
    · by_contra hlive
      rw [purge_get?.mpr ⟨he, (not_lt.mp hlive).trans hcovers⟩] at hget
      cases hget
    · exact hpast
  have hswitches : s.switches d.now c = none := by
    unfold Relay.switches
    split
    · rename_i v hget hverdict
      split
      · rfl
      · cases v with
        | rejected code => rfl
        | applied on =>
            have hrecent := (timely_of_applied hverdict).recent
            have hpast := hkept hget
            unfold commandWindow at hpast
            omega
    · rfl
  rw [assigns_of_decode hdecode, hswitches]
  rfl

/-- What the relay keeps and what it has said: an entry is about its own command, and if its ACK
says that the command was applied, it was published. -/
def Said (s : Relay) (published : List Published) : Prop :=
  ∀ id e, s.seen.get? id = some e →
    e.ack.commandId = id ∧ (e.ack.status = .applied → .ack e.ack ∈ published)

theorem acknowledge_commandId (now : Int) (c : Command) (v : Verdict) :
    (acknowledge now c v).commandId = c.commandId := by
  cases v <;> rfl

theorem Said.handle {published : List Published} (h : Said s published) (cfg : Config)
    (d : Delivery) : Said (s.handle cfg d).1 (published ++ output (s.handle cfg d).2) := by
  have hpurge : ∀ {out : List Published} {s' : Relay}, s'.seen = (s.purge d.now).seen →
      Said s' (published ++ out) := by
    intro out s' hseen id e he
    rw [hseen] at he
    obtain ⟨hid, happlied⟩ := h id e (purge_get?.mp he).1
    exact ⟨hid, fun ha => List.mem_append_left _ (happlied ha)⟩
  cases hdecode : decode cfg d.message with
  | error e =>
      rw [(idle_of_error hdecode).2]
      intro id e he
      exact ⟨(h id e he).1, fun ha => List.mem_append_left _ ((h id e he).2 ha)⟩
  | ok c =>
      cases course s hdecode with
      | refused _ _ hseen => exact hpurge hseen
      | repeated _ _ _ hseen => exact hpurge hseen
      | overflowed _ _ hseen _ => exact hpurge hseen
      | @answered v expires _ _ _ _ hout _ hseen =>
          intro id e he
          rw [hseen, Dict.get?_set_eq] at he
          split at he
          · rename_i hid
            obtain rfl := Option.some.inj he
            refine ⟨(acknowledge_commandId _ _ _).trans hid.symm, fun _ => ?_⟩
            rw [hout]
            exact List.mem_append_right _ List.mem_cons_self
          · obtain ⟨hid, happlied⟩ := h id e (purge_get?.mp he).1
            exact ⟨hid, fun ha => List.mem_append_left _ (happlied ha)⟩

end Simulator

/-! ### The phases of a command -/

/-- The assignment is that of a row: its value, not much before its creation, and before its
deadline. -/
structure Assignment.Serves (a : Assignment) (row : DeviceCommand) : Prop where
  on : a.on = row.requestedOn
  ahead : row.createdAt ≤ a.reading + 30 * second
  early : a.reading < row.expiresAt

/-- No message without a row bears the identifier: those that Core makes up for such messages
are not the identifier of a row. -/
def Shared.Unmixed (st : Shared) (id : String) : Prop :=
  ∀ d, .dispatched d ∈ st.log → d.frame.commandId = id → d.row.isSome = true

namespace Joint

variable {cfg : Config} {rcfg : Simulator.Config} {s s' : State} {id : String} {row : DeviceCommand}

/-- The relay has not said that the command was applied. -/
def Unsaid (s : State) (id : String) : Prop :=
  ∀ a, .ack a ∈ s.published → a.commandId = id → a.status ≠ .applied

/-- The assignments for a command. -/
def State.assignedFor (s : State) (id : String) : List Assignment :=
  s.assigned.filter fun a => a.commandId = id

/-- Where the relay is with a command. -/
inductive Phase (s : State) (id : String) : Prop
  /-- It has neither switched for it nor said so. -/
  | waiting (hassigned : s.assignedFor id = []) (hunsaid : Unsaid s id)
  /-- It has switched once, and will not again. -/
  | served {row : DeviceCommand} {a : Assignment} (hrow : row ∈ s.world.shared.db.commands)
      (hid : row.commandId = id) (hassigned : s.assignedFor id = [a])
      (hserves : a.Serves row)
      (hremembered : Simulator.Remembered row.command s.relay s.now)
  /-- It may have switched, and will never say so. -/
  | overflowed {row : DeviceCommand} (hrow : row ∈ s.world.shared.db.commands)
      (hid : row.commandId = id) (hunsaid : Unsaid s id)
      (hdate : datetimeMax < max s.now row.createdAt + Simulator.commandWindow)

/-- What Core hears from the relay's device, the relay has said. -/
def Heard (rcfg : Simulator.Config) (published : List Simulator.Published) : Event → Prop
  | .processed p =>
    ∀ envelope retained, p.job = .ack rcfg.houseId rcfg.deviceId envelope retained →
      published.any (Simulator.Published.answers envelope) = true
  | _ => True

theorem Heard.mono {published more : List Simulator.Published} {e : Event}
    (h : Heard rcfg published e) : Heard rcfg (published ++ more) e := by
  cases e with
  | processed p =>
      intro envelope retained hj
      rw [List.any_append, h envelope retained hj, Bool.true_or]
  | _ => trivial

/-- What holds between any two steps of the two. -/
structure Agrees (cfg : Config) (rcfg : Simulator.Config) (registry : Registry) (s : State) :
    Prop where
  world : ∃ labels, s.world = after cfg registry labels
  hears : Sessions (fun _ => Op.Within (Heard rcfg s.published)) s.world
  heard : ∀ e ∈ s.world.shared.log, Heard rcfg s.published e
  said : Simulator.Said s.relay s.published
  phases : ∀ id, s.world.shared.Unmixed id → Phase s id

/-! ### Steps of Core -/

/-- A call that is let in notes only what the relay has said. -/
theorem heard_of_notes {pid n : Nat} {call : ServiceCall} {e : Event}
    (hadmits : admits rcfg s (.start pid call) = true) (h : call.Notes cfg n pid e) :
    Heard rcfg s.published e := by
  cases e with
  | processed p =>
      intro envelope retained hj
      cases call with
      | ack house device envelope' retained' =>
          obtain ⟨rfl, rfl, rfl, -⟩ := Job.ack.inj (h.1.symm.trans hj)
          simpa [admits] using hadmits
      | submit house device user key on =>
          rcases h.2 with hr | ⟨published, hr⟩
          · cases hr.symm.trans hj
          · cases hr.symm.trans hj
      | get house id => cases h.1.symm.trans hj
      | state house device envelope' retained' => cases h.1.symm.trans hj
      | _ => cases h
  | _ => trivial

theorem remembered_later {c : Simulator.Command} {r : Simulator.Relay} {now later : Int}
    (h : Simulator.Remembered c r now) (hle : now ≤ later) : Simulator.Remembered c r later :=
  h.imp_right fun hpast => hpast.trans_le hle

/-- A row keeps what the relay gets of it. -/
theorem row_kept {labels : List Label} {w : World} {l : Label}
    (hworld : s.world = after cfg registry labels) (hw : w = after cfg registry (labels ++ [l]))
    (hrow : row ∈ s.world.shared.db.commands) : ∃ row' ∈ w.shared.db.commands,
      row'.commandId = row.commandId ∧ row'.command = row.command ∧
        row'.requestedOn = row.requestedOn ∧ row'.createdAt = row.createdAt ∧
          row'.expiresAt = row.expiresAt := by
  rw [hworld] at hrow
  obtain ⟨row', hrow', hid', hlife⟩ := row_lifecycle cfg registry labels [l] hrow
  have hf := hlife.fixed
  simp only [DeviceCommand.fixedColumns, Prod.mk.injEq] at hf
  obtain ⟨h₁, h₂, -, -, -, -, h₇, h₈, h₉⟩ := hf
  refine ⟨row', hw ▸ hrow', hid', ?_, h₇, h₈, h₉⟩
  simp only [DeviceCommand.command, h₁, h₂, h₇, h₈, h₉]

/-- Nothing that a command has come to is undone by Core. -/
theorem Phase.core {labels : List Label} {w : World} {l : Label} (h : Phase s id)
    (hworld : s.world = after cfg registry labels) (hw : w = after cfg registry (labels ++ [l])) :
    Phase { s with world := w } id := by
  cases h with
  | waiting hassigned hunsaid => exact .waiting hassigned hunsaid
  | @served row a hrow hid hassigned hserves hremembered =>
      obtain ⟨row', hrow', hid', hcommand, hon, hcreated, hexpires⟩ := row_kept hworld hw hrow
      have hkept : Simulator.Remembered row'.command s.relay s.now := by
        rw [hcommand]
        exact hremembered
      exact .served (a := a) hrow' (hid'.trans hid) hassigned
        ⟨hon ▸ hserves.on, hcreated ▸ hserves.ahead, hexpires ▸ hserves.early⟩ hkept
  | @overflowed row hrow hid hunsaid hdate =>
      obtain ⟨row', hrow', hid', -, -, hcreated, -⟩ := row_kept hworld hw hrow
      exact .overflowed hrow' (hid'.trans hid) hunsaid (by rw [hcreated]; exact hdate)

/-- What only rows bear after a step of Core, only rows bore before it. -/
theorem unmixed_core {labels : List Label} {w : World} {l : Label}
    (hworld : s.world = after cfg registry labels) (hw : w = after cfg registry (labels ++ [l]))
    (hun : w.shared.Unmixed id) : s.world.shared.Unmixed id := by
  intro d hd hid
  refine hun d ?_ hid
  rw [hworld] at hd
  exact hw ▸ (log_grows cfg registry labels [l]).subset hd

theorem Agrees.core {registry : Registry} {l : Label} {w : World}
    (h : Agrees cfg rcfg registry s) (hadmits : admits rcfg s l = true)
    (hstep : (coreSystem cfg).step s.world l = some w) :
    Agrees cfg rcfg registry { s with world := w } := by
  obtain ⟨labels, hworld⟩ := h.world
  have hw : w = after cfg registry (labels ++ [l]) := by
    rw [after_snoc, ← hworld]
    exact (Transition.System.next_of_step hstep).symm
  refine ⟨⟨_, hw⟩, ?_, fun e he => ?_, h.said, fun id hun => ?_⟩
  · refine h.hears.step (fun p call hl => ?_) hstep
    subst hl
    exact (program_within call).mono fun _ => Op.Within.mono fun e => heard_of_notes hadmits
  · exact (step_noted h.hears hstep he).elim (h.heard e) id
  · exact (h.phases id (unmixed_core hworld hw hun)).core hworld hw

/-! ### Steps of the relay -/

/-- A command has one row. -/
theorem Agrees.same {registry : Registry} {row row' : DeviceCommand}
    (h : Agrees cfg rcfg registry s) (hrow : row ∈ s.world.shared.db.commands)
    (hrow' : row' ∈ s.world.shared.db.commands) (hid : row.commandId = row'.commandId) :
    row = row' := by
  obtain ⟨labels, hworld⟩ := h.world
  rw [hworld] at hrow hrow'
  exact Table.eq_of_key (after_inv cfg registry labels).valid.commandIds hrow hrow' hid

/-- The command that the relay gets, when only rows bear its identifier. -/
theorem Agrees.known {registry : Registry} {d : Simulator.Delivery} {c : Simulator.Command}
    (h : Agrees cfg rcfg registry s) (hdelivers : delivers rcfg s d = true)
    (hdecode : Simulator.decode rcfg d.message = .ok c)
    (hun : s.world.shared.Unmixed c.commandId) :
    ∃ row ∈ s.world.shared.db.commands, c = row.command ∧
      ∃ t ∈ s.world.shared.readings, row.createdAt ≤ t := by
  rw [delivers, hdecode] at hdelivers
  obtain ⟨e, he, hsent⟩ := List.any_eq_true.mp hdelivers
  cases e with
  | dispatched x =>
      simp only [sentBy, Bool.and_eq_true, decide_eq_true_eq] at hsent
      obtain ⟨-, hcarried⟩ := hsent
      have hid : c.commandId = x.frame.commandId := by
        simp only [Simulator.Command.carries, Bool.and_eq_true, decide_eq_true_eq] at hcarried
        exact hcarried.1.1.1.1
      obtain ⟨id, hid'⟩ := Option.isSome_iff_exists.mp (hun x he hid.symm)
      obtain ⟨labels, hworld⟩ := h.world
      have hfaithful := faithful cfg registry labels
      rw [← hworld] at hfaithful
      obtain ⟨row, hrow, -, hcarries, hcreated, -, hread⟩ := hfaithful x id he hid'
      rw [show x.frame = _ from hcarries] at hcarried
      exact ⟨row, hrow, Simulator.Command.eq_of_carries hcarried rfl, _, hread, hcreated⟩
  | _ => cases hsent

/-- What is decided about the command of a row is what the row asks for. -/
theorem switch_of_row {now : Int} {on : Bool}
    (h : Simulator.verdict now row.command = .ok (.applied on)) :
    on = row.requestedOn ∧ row.createdAt ≤ now + 30 * second ∧ now < row.expiresAt := by
  have htimely := Simulator.timely_of_applied h
  refine ⟨?_, ?_, ?_⟩
  · unfold Simulator.verdict at h
    split at h
    · cases h
    · split at h
      · cases h
      · cases h
      · have hstate : Simulator.stateVerdict row.command = .applied row.requestedOn := by
          simp [Simulator.stateVerdict, DeviceCommand.command, lookup]
        rw [hstate] at h
        exact (Simulator.Verdict.applied.inj (Except.ok.inj h)).symm
  · simpa [Simulator.Stamp.instant, DeviceCommand.command] using htimely.ahead
  · simpa [Simulator.Stamp.instant] using (htimely.lifetime _ rfl).2.2.2

/-- The date until which a row's command is remembered. -/
theorem retention_of_row (now : Int) (row : DeviceCommand) :
    Simulator.retention now row.command =
      if datetimeMax < max now row.createdAt + Simulator.commandWindow then .error .overflow
      else .ok (max now row.createdAt + Simulator.commandWindow) := by
  have hinstant : row.command.timestamp.instant = row.createdAt := by
    simp [DeviceCommand.command, Simulator.Stamp.instant]
  have hwall : row.command.timestamp.wall = row.createdAt := rfl
  rw [Simulator.retention, hinstant, hwall]
  by_cases hlt : now < row.createdAt
  · rw [if_pos hlt, max_eq_right hlt.le]
  · rw [if_neg hlt, max_eq_left (not_lt.mp hlt)]

/-- A date that has left the range stays out of it. -/
theorem dated_later {now later : Int} (hle : now ≤ later)
    (hdate : datetimeMax < max now row.createdAt + Simulator.commandWindow) :
    datetimeMax < max later row.createdAt + Simulator.commandWindow :=
  hdate.trans_le (Int.add_le_add_right (max_le_max_right _ hle) _)

/-- What a handled message adds for a command that it is not about. -/
theorem Phase.other {d : Simulator.Delivery} (h : Phase s id) (hnow : s.now ≤ d.now)
    (hlater : d.now ≤ d.later)
    (hassigned : (handled rcfg s d).assignedFor id = s.assignedFor id)
    (hunsaid : Unsaid s id → Unsaid (handled rcfg s d) id) : Phase (handled rcfg s d) id := by
  cases h with
  | waiting hnone hsilent => exact .waiting (hassigned.trans hnone) (hunsaid hsilent)
  | served hrow hid hone hserves hremembered =>
      exact .served hrow hid (hassigned.trans hone) hserves
        (remembered_later (hremembered.handle hnow) hlater)
  | overflowed hrow hid hsilent hdate =>
      exact .overflowed hrow hid (hunsaid hsilent) (dated_later (hnow.trans hlater) hdate)

theorem assignedFor_handled (rcfg : Simulator.Config) (s : State) (d : Simulator.Delivery)
    (id : String) :
    (handled rcfg s d).assignedFor id = s.assignedFor id ++
      ((s.relay.assigns rcfg d).map fun x => (⟨x.1.commandId, x.2, d.now⟩ : Assignment)).toList.filter
        fun a => a.commandId = id :=
  List.filter_append _ _

/-- What is published next says that no further command was applied. -/
theorem Unsaid.append {out : List Simulator.Published} (h : Unsaid s id)
    (hout : ∀ a, .ack a ∈ out → a.commandId = id → a.status ≠ .applied)
    (hpublished : s'.published = s.published ++ out) : Unsaid s' id := by
  intro a ha
  rw [hpublished] at ha
  exact (List.mem_append.mp ha).elim (h a) (hout a)

/-- The ACKs among what is published for a command. -/
theorem mem_answered {now later : Int} {c : Simulator.Command} {v : Simulator.Verdict}
    {a : Simulator.Ack}
    (h : .ack a ∈ (.ack (Simulator.acknowledge now c v) :: Simulator.announce later c v :
      List Simulator.Published)) : a = Simulator.acknowledge now c v := by
  rcases List.mem_cons.mp h with h | h
  · exact Simulator.Published.ack.inj h
  · cases v with
    | applied on => cases List.mem_singleton.mp h
    | rejected code => cases h

/-- The ACKs that are published while a command is handled are about it, and one that says for the
first time that it was applied comes with a verdict and a date. -/
theorem Agrees.acks {registry : Registry} {d : Simulator.Delivery} {c : Simulator.Command}
    {a : Simulator.Ack} (h : Agrees cfg rcfg registry s)
    (hdecode : Simulator.decode rcfg d.message = .ok c)
    (ha : .ack a ∈ Simulator.output (s.relay.handle rcfg d).2) :
    a.commandId = c.commandId ∧ (a.status = .applied → Unsaid s c.commandId →
      ∃ on expires, Simulator.verdict d.now c = .ok (.applied on) ∧
        Simulator.retention d.now c = .ok expires) := by
  cases Simulator.course s.relay hdecode with
  | refused _ hout _ => rw [hout] at ha; cases ha
  | overflowed _ hout _ _ => rw [hout] at ha; cases ha
  | @repeated e hget _ hout _ =>
      rw [hout] at ha
      obtain rfl := Simulator.Published.ack.inj (List.mem_singleton.mp ha)
      obtain ⟨hid, hsaid⟩ := h.said _ _ hget
      exact ⟨hid, fun happlied hunsaid => absurd happlied (hunsaid _ (hsaid happlied) hid)⟩
  | @answered v expires _ hverdict _ _ hout hretention _ =>
      rw [hout] at ha
      obtain rfl := mem_answered ha
      refine ⟨Simulator.acknowledge_commandId _ _ _, fun happlied _ => ?_⟩
      cases v with
      | applied on => exact ⟨on, expires, hverdict, hretention⟩
      | rejected code => cases happlied

/-- Without an assignment the list of them stays. -/
theorem assignedFor_idle {d : Simulator.Delivery} (h : s.relay.assigns rcfg d = none) :
    (handled rcfg s d).assignedFor id = s.assignedFor id := by
  rw [assignedFor_handled, h]
  exact List.append_nil _

/-- An assignment for one command is none for another. -/
theorem assignedFor_other {d : Simulator.Delivery} {c : Simulator.Command}
    (hdecode : Simulator.decode rcfg d.message = .ok c) (hid : c.commandId ≠ id) :
    (handled rcfg s d).assignedFor id = s.assignedFor id := by
  have hnew : ∀ on, s.relay.assigns rcfg d = some (c, on) →
      (handled rcfg s d).assignedFor id = s.assignedFor id := by
    intro on hassigns
    rw [assignedFor_handled, hassigns]
    simp [hid]
  cases Simulator.course s.relay hdecode with
  | refused hassigns _ _ => exact assignedFor_idle hassigns
  | repeated _ hassigns _ _ => exact assignedFor_idle hassigns
  | overflowed hassigns _ _ _ => exact hnew _ hassigns
  | @answered v _ _ _ _ hassigns _ _ _ =>
      cases v with
      | rejected code => exact assignedFor_idle hassigns
      | applied on => exact hnew on hassigns

/-- **A command that the relay has not switched for**, when it gets it. -/
theorem Phase.handled_waiting {registry : Registry} {d : Simulator.Delivery}
    (hagrees : Agrees cfg rcfg registry s) (hlater : d.now ≤ d.later)
    (hdecode : Simulator.decode rcfg d.message = .ok row.command)
    (hrow : row ∈ s.world.shared.db.commands) (hempty : s.assignedFor row.commandId = [])
    (hunsaid : Unsaid s row.commandId) :
    Phase (handled rcfg s d) row.commandId := by
  have hretention := retention_of_row d.now row
  have hsilent : Simulator.output (s.relay.handle rcfg d).2 = [] →
      Unsaid (handled rcfg s d) row.commandId := fun hout =>
    hunsaid.append (fun a ha => by rw [hout] at ha; cases ha) rfl
  cases Simulator.course s.relay hdecode with
  | refused hassigns hout _ =>
      exact .waiting ((assignedFor_idle hassigns).trans hempty) (hsilent hout)
  | @repeated e hget hassigns hout _ =>
      refine .waiting ((assignedFor_idle hassigns).trans hempty)
        (hunsaid.append (fun a ha hida happlied => ?_) rfl)
      rw [hout] at ha
      obtain rfl := Simulator.Published.ack.inj (List.mem_singleton.mp ha)
      obtain ⟨hid, hsaid⟩ := hagrees.said _ _ hget
      exact hunsaid _ (hsaid happlied) hid happlied
  | overflowed _ hout _ hover =>
      refine .overflowed hrow rfl (hsilent hout) ?_
      by_contra hdate
      rw [if_neg fun hlt => hdate (dated_later hlater hlt)] at hretention
      exact hover _ hretention
  | @answered v expires hget hverdict hroom hassigns hout hkept hseen =>
      cases v with
      | rejected code =>
          refine .waiting ((assignedFor_idle hassigns).trans hempty)
            (hunsaid.append (fun a ha _ happlied => ?_) rfl)
          rw [hout] at ha
          obtain rfl := mem_answered ha
          cases happlied
      | applied on =>
          obtain ⟨hon, hahead, hearly⟩ := switch_of_row hverdict
          have hnew := Simulator.remembered_of_executed hdecode hget hverdict hroom hkept
          refine .served (a := ⟨row.commandId, on, d.now⟩) hrow rfl ?_
            ⟨hon, hahead, hearly⟩ (remembered_later hnew hlater)
          rw [assignedFor_handled, hassigns, hempty]
          simp [Simulator.Verdict.switch, DeviceCommand.command]

/-- **A handled message**, and any command. -/
theorem Phase.handled {registry : Registry} {d : Simulator.Delivery}
    (hagrees : Agrees cfg rcfg registry s) (hnow : s.now ≤ d.now) (hlater : d.now ≤ d.later)
    (hdelivers : delivers rcfg s d = true) (hun : s.world.shared.Unmixed id) (h : Phase s id) :
    Phase (Joint.handled rcfg s d) id := by
  cases hdecode : Simulator.decode rcfg d.message with
  | error e =>
      obtain ⟨hassigns, hhandle⟩ := Simulator.idle_of_error (s := s.relay) hdecode
      refine h.other hnow hlater (assignedFor_idle hassigns) fun hunsaid =>
        hunsaid.append (fun a ha => ?_) rfl
      rw [hhandle] at ha
      cases ha
  | ok c =>
      by_cases hid : c.commandId = id
      case neg =>
        exact h.other hnow hlater (assignedFor_other hdecode hid) fun hunsaid => hunsaid.append
          (fun a ha hida => absurd ((hagrees.acks hdecode ha).1.symm.trans hida) hid) rfl
      subst hid
      obtain ⟨row, hrow, rfl, -⟩ := hagrees.known hdelivers hdecode hun
      cases h with
      | @served row' a hrow' hid' hone hserves hremembered =>
          obtain rfl := hagrees.same hrow' hrow hid'
          have hdone := (remembered_later hremembered hnow).unassigned hdecode
          exact .served hrow' hid' ((assignedFor_idle hdone).trans hone) hserves
            (remembered_later (hremembered.handle hnow) hlater)
      | @overflowed row' hrow' hid' hunsaid hdate =>
          obtain rfl := hagrees.same hrow' hrow hid'
          refine .overflowed hrow' hid' (hunsaid.append (fun a ha hida happlied => ?_) rfl)
            (dated_later (hnow.trans hlater) hdate)
          obtain ⟨on, expires, -, hr⟩ := (hagrees.acks hdecode ha).2 happlied hunsaid
          rw [retention_of_row, if_pos (dated_later hnow hdate)] at hr
          cases hr
      | waiting hempty hunsaid =>
          exact .handled_waiting hagrees hlater hdecode hrow hempty hunsaid

theorem Agrees.handled {registry : Registry} {d : Simulator.Delivery}
    (h : Agrees cfg rcfg registry s) (hnow : s.now ≤ d.now) (hlater : d.now ≤ d.later)
    (hdelivers : delivers rcfg s d = true) : Agrees cfg rcfg registry (Joint.handled rcfg s d) where
  world := h.world
  hears := sessions_mono (fun _ he => he.mono) h.hears
  heard e he := (h.heard e he).mono
  said := h.said.handle rcfg d
  phases id hun := (h.phases id hun).handled h hnow hlater hdelivers hun

/-- What a command does to the two when its message is delivered. -/
theorem next_of_decode {d : Simulator.Delivery} {c : Simulator.Command}
    (hdecode : Simulator.decode rcfg d.message = .ok c) :
    (system cfg rcfg).next s (.relay d) =
      if s.now ≤ d.now ∧ d.now ≤ d.later ∧ s.world.shared.log.any (sentBy rcfg c) = true then
        ⟨s.world, (s.relay.accept d.now d.later c).1, d.later,
          s.published ++ Simulator.output (s.relay.accept d.now d.later c).2,
          s.assigned ++ ((s.relay.switches d.now c).map fun on => ⟨c.commandId, on, d.now⟩).toList⟩
      else s := by
  rw [Transition.System.next]
  simp only [system, delivers, hdecode, Joint.handled, Simulator.handle_of_decode hdecode,
    Simulator.assigns_of_decode hdecode, Option.map_map]
  split
  · rfl
  · rfl

/-- **One step** of the two. -/
theorem Agrees.step {registry : Registry} {m : Move} (h : Agrees cfg rcfg registry s)
    (hstep : (system cfg rcfg).step s m = some s') : Agrees cfg rcfg registry s' := by
  cases m with
  | core l =>
      simp only [system] at hstep
      split at hstep
      · rename_i hguard
        obtain ⟨w, hw, rfl⟩ := Option.map_eq_some_iff.mp hstep
        exact h.core hguard hw
      · cases hstep
  | relay d =>
      simp only [system] at hstep
      split at hstep
      · rename_i hguard
        obtain rfl := Option.some.inj hstep
        exact h.handled hguard.1 hguard.2.1 hguard.2.2
      · cases hstep

theorem Agrees.start (cfg : Config) (rcfg : Simulator.Config) (registry : Registry)
    (now : Instant) : Agrees cfg rcfg registry (start registry now) where
  world := ⟨[], rfl⟩
  hears := Sessions.init _
  heard _ h := by cases h
  said id e he := by cases he
  phases id _ := .waiting rfl fun _ h => by cases h

/-- **Every state that the two can come to.** -/
theorem agrees (cfg : Config) (rcfg : Simulator.Config) (registry : Registry) (now : Instant)
    (run : List Move) : Agrees cfg rcfg registry ((system cfg rcfg).run (start registry now) run) :=
  Transition.System.invariant (fun _ _ _ h hstep => h.step hstep) (.start cfg rcfg registry now) run

/-! ### Applied commands -/

/-- A command that is applied in the ledger was switched for, and is remembered. -/
theorem Agrees.switched {registry : Registry} (h : Agrees cfg rcfg registry s)
    (hrow : row ∈ s.world.shared.db.commands) (hhouse : row.houseId = rcfg.houseId)
    (hdevice : row.deviceId = rcfg.deviceId) (happlied : row.status = .applied)
    (hun : s.world.shared.Unmixed row.commandId) :
    ∃ a, s.assignedFor row.commandId = [a] ∧ a.Serves row ∧
      Simulator.Remembered row.command s.relay s.now := by
  obtain ⟨labels, hworld⟩ := h.world
  obtain ⟨p, envelope, hlogged, hjob, hid, -, hstatus⟩ := acknowledged (hworld ▸ hrow) happlied
  -- the relay has published that acknowledgement
  have hheard : ∀ envelope retained, p.job = .ack rcfg.houseId rcfg.deviceId envelope retained →
      s.published.any (Simulator.Published.answers envelope) = true :=
    h.heard (.processed p) (hworld ▸ hlogged)
  rw [hhouse, hdevice] at hjob
  obtain ⟨x, hx, hanswers⟩ := List.any_eq_true.mp (hheard envelope false hjob)
  have hsaid : ¬ Unsaid s row.commandId := by
    intro hunsaid
    cases x with
    | ack a =>
        have henvelope : a.envelope = envelope := of_decide_eq_true hanswers
        subst henvelope
        refine hunsaid a hx hid ?_
        cases hs : a.status with
        | applied => rfl
        | rejected => simp [Simulator.Ack.envelope, hs] at hstatus
    | state t c on => cases hanswers
  cases h.phases row.commandId hun with
  | waiting _ hunsaid => exact absurd hunsaid hsaid
  | overflowed _ _ hunsaid _ => exact absurd hunsaid hsaid
  | @served row' a hrow' hid' hone hserves hremembered =>
      obtain rfl := h.same hrow' hrow hid'
      exact ⟨a, hone, hserves, hremembered⟩

/-- No message of a remembered command switches. -/
theorem Agrees.unswitched {registry : Registry} {d : Simulator.Delivery} {c : Simulator.Command}
    (h : Agrees cfg rcfg registry s) (hrow : row ∈ s.world.shared.db.commands)
    (hun : s.world.shared.Unmixed row.commandId)
    (hremembered : Simulator.Remembered row.command s.relay s.now)
    (hdelivers : delivers rcfg s d = true) (hnow : s.now ≤ d.now)
    (hdecode : Simulator.decode rcfg d.message = .ok c) (hid : c.commandId = row.commandId) :
    (s.relay.handle rcfg d).1.on = s.relay.on := by
  obtain ⟨row', hrow', rfl, -⟩ := h.known hdelivers hdecode (hid ▸ hun)
  obtain rfl := h.same hrow' hrow hid
  rw [Simulator.handle_on, (remembered_later hremembered hnow).unassigned hdecode]
  rfl

/-- **Core and the relay agree**, each by its own clock. When a command of the relay's device is
applied in the ledger, the relay has switched for it exactly once, to the value that was asked for,
not more than half a minute before the command's creation and before its deadline; and no message
that Core has sent for it switches again, whenever it arrives. -/
theorem core_and_relay_agree (cfg : Config) (rcfg : Simulator.Config) (registry : Registry)
    (now : Instant) (run : List Move) (row : DeviceCommand)
    (hrow : row ∈ ((system cfg rcfg).run (start registry now) run).world.shared.db.commands)
    (hhouse : row.houseId = rcfg.houseId) (hdevice : row.deviceId = rcfg.deviceId)
    (happlied : row.status = .applied)
    (hun : ((system cfg rcfg).run (start registry now) run).world.shared.Unmixed row.commandId) :
    (∃ a, ((system cfg rcfg).run (start registry now) run).assignedFor row.commandId = [a] ∧
      a.Serves row) ∧
    ∀ d c, delivers rcfg ((system cfg rcfg).run (start registry now) run) d = true →
      ((system cfg rcfg).run (start registry now) run).now ≤ d.now →
      Simulator.decode rcfg d.message = .ok c → c.commandId = row.commandId →
      (((system cfg rcfg).run (start registry now) run).relay.handle rcfg d).1.on =
        ((system cfg rcfg).run (start registry now) run).relay.on := by
  have h := agrees cfg rcfg registry now run
  obtain ⟨a, hone, hserves, hremembered⟩ := h.switched hrow hhouse hdevice happlied hun
  exact ⟨⟨a, hone, hserves⟩, fun d c hdelivers hnow hdecode hid =>
    h.unswitched hrow hun hremembered hdelivers hnow hdecode hid⟩

/-! ### One clock for both -/

/-- The relay reads the clock of Core: what Core has read of it is not later. -/
def OneClock (s : State) : Move → Prop
  | .core _ => True
  | .relay d => ∀ t ∈ s.world.shared.readings, t ≤ d.now

instance (s : State) : (m : Move) → Decidable (OneClock s m)
  | .core _ => .isTrue trivial
  | .relay d => inferInstanceAs (Decidable (∀ t ∈ s.world.shared.readings, t ≤ d.now))

/-- The steps of Core are no reading of the relay. -/
theorem along_core (s : State) (labels : List Label) :
    (system cfg rcfg).Along OneClock s (labels.map .core) := by
  induction labels generalizing s with
  | nil => trivial
  | cons l labels ih => exact ⟨trivial, ih _⟩

/-- The assignments for a row are made when it is there. -/
def Later (s : State) : Prop :=
  ∀ a ∈ s.assigned, s.world.shared.Unmixed a.commandId →
    ∃ row ∈ s.world.shared.db.commands, row.commandId = a.commandId ∧ row.createdAt ≤ a.reading

/-- Core assigns nothing, and keeps the rows. -/
theorem Later.core {registry : Registry} {l : Label} {w : World} (h : Later s)
    (hagrees : Agrees cfg rcfg registry s)
    (hstep : (coreSystem cfg).step s.world l = some w) : Later { s with world := w } := by
  obtain ⟨labels, hworld⟩ := hagrees.world
  have hw : w = after cfg registry (labels ++ [l]) := by
    rw [after_snoc, ← hworld]
    exact (Transition.System.next_of_step hstep).symm
  intro a ha hun
  obtain ⟨row, hrow, hid, hcreated⟩ := h a ha (unmixed_core hworld hw hun)
  obtain ⟨row', hrow', hid', -, -, hkept, -⟩ := row_kept hworld hw hrow
  exact ⟨row', hrow', hid'.trans hid, hkept ▸ hcreated⟩

/-- The relay assigns for a row that was created at a reading of the same clock. -/
theorem Later.handled {registry : Registry} {d : Simulator.Delivery} (h : Later s)
    (hagrees : Agrees cfg rcfg registry s) (hclock : ∀ t ∈ s.world.shared.readings, t ≤ d.now)
    (hdelivers : delivers rcfg s d = true) : Later (Joint.handled rcfg s d) := by
  intro a ha hun
  rcases List.mem_append.mp ha with ha | ha
  · exact h a ha hun
  · obtain ⟨x, hassigns, rfl⟩ := Option.map_eq_some_iff.mp (Option.mem_toList.mp ha)
    obtain ⟨row, hrow, hcommand, t, ht, hcreated⟩ :=
      hagrees.known hdelivers (Simulator.decode_of_assigns hassigns) hun
    exact ⟨row, hrow, (congrArg Simulator.Command.commandId hcommand).symm,
      hcreated.trans (hclock t ht)⟩

/-- **The assignments of a run with one clock.** -/
theorem later {registry : Registry} {now : Instant} {run : List Move}
    (h : (system cfg rcfg).Along OneClock (start registry now) run) :
    Later ((system cfg rcfg).run (start registry now) run) := by
  refine (Transition.System.Along.invariant
    (P := fun s => Agrees cfg rcfg registry s ∧ Later s)
    (fun s m s' hs hclock hstep => ⟨hs.1.step hstep, ?_⟩)
    ⟨.start cfg rcfg registry now, fun a ha => by cases ha⟩ h).2
  cases m with
  | core l =>
      simp only [system] at hstep
      split at hstep
      · obtain ⟨w, hw, rfl⟩ := Option.map_eq_some_iff.mp hstep
        exact hs.2.core hs.1 hw
      · cases hstep
  | relay d =>
      simp only [system] at hstep
      split at hstep
      · rename_i hguard
        obtain rfl := Option.some.inj hstep
        exact hs.2.handled hs.1 hclock hguard.2.2
      · cases hstep

/-- **With one clock**, the relay has switched for an applied command exactly once, to the value
that was asked for, at a reading from the command's creation on and before its deadline; and no
message that Core has sent for it switches again, whenever it arrives. -/
theorem applied_switched_once (cfg : Config) (rcfg : Simulator.Config) (registry : Registry)
    (now : Instant) (run : List Move)
    (hclock : (system cfg rcfg).Along OneClock (start registry now) run) (row : DeviceCommand)
    (hrow : row ∈ ((system cfg rcfg).run (start registry now) run).world.shared.db.commands)
    (hhouse : row.houseId = rcfg.houseId) (hdevice : row.deviceId = rcfg.deviceId)
    (happlied : row.status = .applied)
    (hun : ((system cfg rcfg).run (start registry now) run).world.shared.Unmixed row.commandId) :
    (∃ a, ((system cfg rcfg).run (start registry now) run).assignedFor row.commandId = [a] ∧
      a.on = row.requestedOn ∧ row.createdAt ≤ a.reading ∧ a.reading < row.expiresAt) ∧
    ∀ d c, delivers rcfg ((system cfg rcfg).run (start registry now) run) d = true →
      ((system cfg rcfg).run (start registry now) run).now ≤ d.now →
      Simulator.decode rcfg d.message = .ok c → c.commandId = row.commandId →
      (((system cfg rcfg).run (start registry now) run).relay.handle rcfg d).1.on =
        ((system cfg rcfg).run (start registry now) run).relay.on := by
  have h := agrees cfg rcfg registry now run
  obtain ⟨a, hone, hserves, hremembered⟩ := h.switched hrow hhouse hdevice happlied hun
  -- the only assignment is one of the run
  have hmem : a ∈ State.assignedFor _ row.commandId := hone ▸ List.mem_singleton_self a
  obtain ⟨ha, hid⟩ := List.mem_filter.mp hmem
  have hid := of_decide_eq_true hid
  obtain ⟨row', hrow', hid', hcreated⟩ := later hclock a ha (hid.symm ▸ hun)
  obtain rfl := h.same hrow' hrow (hid'.trans hid)
  exact ⟨⟨a, hone, hserves.on, hcreated, hserves.early⟩, fun d c hdelivers hnow hdecode hid =>
    h.unswitched hrow hun hremembered hdelivers hnow hdecode hid⟩

/-- Whether all messages of a log have rows. -/
def rowsOnly (log : List Event) : Bool :=
  log.all fun
    | .dispatched d => d.row.isSome
    | _ => true

theorem unmixed_of_rowsOnly {st : Shared} (h : rowsOnly st.log = true) (id : String) :
    st.Unmixed id :=
  fun d hd _ => List.all_eq_true.mp h (.dispatched d) hd

end Joint

namespace Household

open Joint

/-- The lamp's relay, whose parser knows the times of the lamp's command. -/
def lampRelay : Simulator.Config where
  houseId := "home"
  deviceId := "lamp"
  levels := 8
  datetime
    | .str s =>
      if s = points "1970-01-01T00:00:00Z" then some ⟨0, some 0⟩
      else if s = points "1970-01-01T00:00:30Z" then some ⟨30000000, some 0⟩
      else none
    | _ => none

/-- The lamp's command on the wire. -/
def lampMessage : Simulator.Message :=
  ⟨lampRelay.topic, ("\x7b\"protocol_version\":\"v1\",\"command_id\":\"" ++ commandId ++
    "\",\"correlation_id\":\"" ++ correlationId ++
    "\",\"timestamp\":\"1970-01-01T00:00:00Z\",\"expires_at\":\"1970-01-01T00:00:30Z\"" ++
    ",\"state\":\x7b\"on\":true\x7d\x7d").toUTF8, false⟩

/-- The lamp's command, as the relay gets it. -/
def lampCommand : Simulator.Command where
  commandId := commandId
  correlationId := correlationId
  timestamp := ⟨0, some 0⟩
  expiresAt := some ⟨30000000, some 0⟩
  state := [(points "on", .bool true)]

/-- The lamp's command on the wire: the relay is asked to decode it once, here. -/
theorem lampMessage_decode : Simulator.decode lampRelay lampMessage = .ok lampCommand := by
  have h : (Simulator.decode lampRelay lampMessage).toOption.any (Simulator.Command.carries ·
      ⟨"home", "lamp", commandId, correlationId, 0, 30000000, [("on", .bool true)]⟩) = true := by
    decide +kernel
  cases hdecode : Simulator.decode lampRelay lampMessage with
  | error e => rw [hdecode] at h; cases h
  | ok c =>
      rw [hdecode] at h
      rw [Simulator.Command.eq_of_carries (c := c) h rfl]
      rfl

/-- The lamp's command is submitted and gets to the relay twice; then its answers get to Core. -/
def delivered : List Move :=
  submit.map .core ++ [.relay ⟨lampMessage, 5, 6⟩, .relay ⟨lampMessage, 6, 7⟩] ++
    (answers 8 8).map .core

/-- The same message comes a third time. -/
def late : Simulator.Delivery := ⟨lampMessage, 9, 9⟩

/-- What the run comes to, evaluated once. -/
theorem delivered_facts :
    (∃ row ∈
      ((system config lampRelay).run (Joint.start tables 0) delivered).world.shared.db.commands,
      row.status = .applied ∧ row.houseId = "home" ∧ row.deviceId = "lamp" ∧
        row.commandId = lampCommand.commandId) ∧
    rowsOnly ((system config lampRelay).run (Joint.start tables 0) delivered).world.shared.log =
      true ∧
    ((system config lampRelay).run (Joint.start tables 0) delivered).world.shared.log.any
      (sentBy lampRelay lampCommand) = true ∧
    ((system config lampRelay).run (Joint.start tables 0) delivered).now ≤ late.now := by
  rw [delivered, Transition.System.run_append, Transition.System.run_append,
    Transition.System.run_cons, Transition.System.run_cons, Transition.System.run_nil,
    next_of_decode (d := ⟨lampMessage, 5, 6⟩) lampMessage_decode,
    next_of_decode (d := ⟨lampMessage, 6, 7⟩) lampMessage_decode]
  decide +kernel

theorem delivered_oneClock : (system config lampRelay).Along OneClock (Joint.start tables 0)
    delivered := by
  have hrelay : (system config lampRelay).Along OneClock
      ((system config lampRelay).run (Joint.start tables 0) (submit.map .core))
      [.relay ⟨lampMessage, 5, 6⟩, .relay ⟨lampMessage, 6, 7⟩] := by
    refine ⟨by decide +kernel, ?_, trivial⟩
    rw [next_of_decode (d := ⟨lampMessage, 5, 6⟩) lampMessage_decode]
    decide +kernel
  exact ((along_core _ _).append hrelay).append (along_core _ _)

theorem core_and_relay_agree_lamp :
    ∃ row ∈ ((system config lampRelay).run (Joint.start tables 0) delivered).world.shared.db.commands,
      row.status = .applied ∧ ∃ a,
        ((system config lampRelay).run (Joint.start tables 0) delivered).assignedFor row.commandId =
          [a] ∧ a.Serves row := by
  obtain ⟨⟨row, hrow, happlied, hhouse, hdevice, -⟩, hrows, -⟩ := delivered_facts
  have hun : ((system config lampRelay).run (Joint.start tables 0) delivered).world.shared.Unmixed
      row.commandId := unmixed_of_rowsOnly hrows _
  exact ⟨row, hrow, happlied,
    (core_and_relay_agree config lampRelay tables 0 delivered row hrow hhouse hdevice happlied hun).1⟩

theorem applied_switched_once_lamp :
    ∃ row ∈ ((system config lampRelay).run (Joint.start tables 0) delivered).world.shared.db.commands,
      row.status = .applied ∧ (∃ a,
        ((system config lampRelay).run (Joint.start tables 0) delivered).assignedFor row.commandId =
          [a] ∧ a.on = row.requestedOn ∧ row.createdAt ≤ a.reading ∧ a.reading < row.expiresAt) ∧
      (((system config lampRelay).run (Joint.start tables 0) delivered).relay.handle lampRelay
        late).1.on = ((system config lampRelay).run (Joint.start tables 0) delivered).relay.on := by
  obtain ⟨⟨row, hrow, happlied, hhouse, hdevice, hid⟩, hrows, hsent, hnow⟩ := delivered_facts
  have hun : ((system config lampRelay).run (Joint.start tables 0) delivered).world.shared.Unmixed
      row.commandId := unmixed_of_rowsOnly hrows _
  have h := applied_switched_once config lampRelay tables 0 delivered delivered_oneClock row hrow
    hhouse hdevice happlied hun
  have hdelivers : delivers lampRelay
      ((system config lampRelay).run (Joint.start tables 0) delivered) late = true := by
    rw [delivers, show late.message = lampMessage from rfl, lampMessage_decode]
    exact hsent
  exact ⟨row, hrow, happlied, h.1, h.2 late lampCommand hdelivers hnow lampMessage_decode hid.symm⟩

end Household

end KzHome

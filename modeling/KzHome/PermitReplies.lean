import KzHome.PermitRequests
import KzHome.RateLimits
import KzHome.Retention
import KzHome.Topics

/-!
# KzHome.PermitReplies

What a device learns from the reply to its permit request.

A request that Core refuses is refused for one of some twenty reasons, in the guards, in
`ControlAuthority.request`, in the limit of its rate, in the commit of the binding, at the
subscription or in `validate_delivery`. The reasons are of two kinds of errors
(`ends_reply`), both are caught, and the frame that is sent instead is made of the request alone.

A `Turn` is what an operation is answered with, after what the rest of the system has done in the
meantime. A `Setting` is a world with the turns of its operations: it is left open but for the
place of the device, a gate that raises conflicts, and that the database and the time sources
answer. `Granted` says of a frame that `request` returned it in this very call, and that
`validate_delivery` let it through right before it is published.
-/

namespace KzHome.PermitReplies

open Session Faults Solo Program Services

/-! ### Messages -/

/-- A message as the broker delivers it. -/
structure ControlMessage where
  topic : String
  retained : Bool
  payload : ByteArray

/-- `_control_request` of a message whose topic was parsed; `limited` is what the limit of the
transport says, and the interpreter has `spare` levels of recursion left. -/
def handleControl (cfg : Config) (session pid spare : Nat) (limited : Bool)
    (parsed : Topics.ParsedTopic) (message : ControlMessage) : Program Unit :=
  if message.retained then .raise (.other "Retained control requests are forbidden")
  else
    match decodeRequest spare message.payload with
    | .error _ => .raise (.other "decode_request")
    | .ok request =>
      if limited then .ret ()
      else controlRequest cfg session pid parsed.houseId parsed.deviceId request

/-- The message is a control request that is read. -/
structure Passes (spare : Nat) (message : ControlMessage) (parsed : Topics.ParsedTopic)
    (request : PermitRequest) : Prop where
  topic : Topics.parseTopic message.topic = .ok parsed
  kind : parsed.kind = .controlRequest
  live : message.retained = false
  decoded : decodeRequest spare message.payload = .ok request

/-! ### Worlds -/

/-- What an operation gets, and what threads and other processes do before it. The flags of the
gateway are changed by its own task alone, which is in the middle of the message. -/
structure Turn where
  draw : Draw
  meanwhile : Host → Host
  flags : ∀ h, (meanwhile h).proc.connected = h.proc.connected ∧
    (meanwhile h).proc.controlSubscribed = h.proc.controlSubscribed

/-- What an operation does then. -/
def Turn.perform : Performer sql Host Turn := fun h t op => (t.meanwhile h).perform t.draw op

/-- The device is a physical one of the house, and its identity is admitted. -/
structure Admitted (r : Registry) (house device : String) : Prop where
  identity : ∃ entity, r.requireHouse house device = .ok entity
  physical : ∃ item, r.byDevice device = some item ∧ item.houseId = some house

/-- A gate that raises nothing but conflicts. -/
def Conflicting (gate : Registry → String → String → Except Error Unit) : Prop :=
  ∀ r house device e, gate r house device = .error e → ∃ message, e = .conflict message

/-- A host with the device in its place, behind such a gate. -/
structure Placed (house device : String) (h : Host) : Prop where
  admitted : Admitted h.registry house device
  gate : Conflicting h.authority.gate

/-- So many readings are left. -/
structure Supplied (ticks walls health : Nat) (s : Sources) : Prop where
  ticks : ticks ≤ s.ticks.length
  walls : walls ≤ s.walls.length
  health : health ≤ s.health.length

/-- The database and the time sources answer, and the device stays in its place. -/
structure Turn.Answers (house device : String) (t : Turn) : Prop where
  found : t.draw.lost = false
  supplied : Supplied 2 1 1 t.draw.input.sources
  placed : ∀ h, Placed house device h → Placed house device (t.meanwhile h)

/-- A world in which the device is in its place, and the turns of a call. -/
structure Setting (house device : String) where
  host : Host
  session : Nat
  pid : Nat
  turns : List Turn
  last : Turn
  placed : Placed house device host
  answers : ∀ t ∈ last :: turns, t.Answers house device

/-! ### Frames -/

/-- What is tried in `_control_request`. -/
def reply (cfg : Config) (session pid : Nat) (house device : String) (request : PermitRequest) :
    Program String := do
  let delivery ← Services.request cfg session pid house device request
  rollback
  validateDelivery delivery
  return delivery.payload

/-- The frame that an operation hands to the broker, with the host at that moment. -/
def publication (x : Host × sql.Op) : Option (Host × Event) :=
  match x.2 with
  | .publish e => some (x.1, e)
  | _ => none

section

variable {α : Type}

/-- The frames that a call hands to the broker. -/
def publications (c : Course sql Host Turn Error α) : List (Host × Event) :=
  c.performed.filterMap publication

/-- The course of a program. -/
abbrev play (last : Turn) (m : Program α) (turns : List Turn) (h : Host) :
    Course sql Host Turn Error α :=
  course Turn.perform last m turns h

end

/-- **A grant.** `request` has returned a delivery in this call, `validate_delivery` has let it
through, nothing but the end of the transaction lies between that and the host `there`, and on
that host the subscription is up. -/
def Granted (last : Turn) (cfg : Config) (session pid : Nat) (house device : String)
    (request : PermitRequest) (turns : List Turn) (h there : Host) (payload : String) : Prop :=
  let admitted := play last (requireHouse house device) turns h
  let asked := play last (Services.request cfg session pid house device request) admitted.draws
    admitted.world
  ∃ delivery, asked.ending = some (.ok delivery) ∧ payload = delivery.payload ∧
    let closed := play last rollback asked.draws asked.world
    let checked := play last (validateDelivery delivery) closed.draws closed.world
    checked.ending = some (.ok ()) ∧
      there = (play last rollback checked.draws checked.world).world ∧
      there.proc.connected = true ∧ there.proc.controlSubscribed = true

namespace Setting

variable {house device : String}

/-- The frames of a message in the world. -/
def frames (w : Setting house device) (cfg : Config) (spare : Nat) (parsed : Topics.ParsedTopic)
    (message : ControlMessage) : List Event :=
  (publications (play w.last (handleControl cfg w.session w.pid spare false parsed message)
    w.turns w.host)).map Prod.snd

/-- The world grants the request. -/
def Grants (w : Setting house device) (cfg : Config) (request : PermitRequest) : Prop :=
  ∃ there payload,
    Granted w.last cfg w.session w.pid house device request w.turns w.host there payload

end Setting

/-! ### Calls that publish nothing -/

/-- The operation is a publication. -/
def Publishes : sql.Op → Prop
  | .publish _ => True
  | _ => False

theorem publication_none {x : Host × sql.Op} (h : ¬ Publishes x.2) : publication x = none := by
  obtain ⟨h, op⟩ := x
  cases op with
  | publish e => exact absurd trivial h
  | _ => rfl

section

variable {α β : Type}

/-- A program that publishes nothing. -/
abbrev Unpublished (m : Program α) : Prop := @Never sql Error α Publishes m

theorem unpublished_ask {op : Op} (h : ¬ Publishes op) : Unpublished (ask op) :=
  ⟨h, fun _ => trivial⟩

theorem unpublished_registry (locks : Registry → List Lock) (note : Registry → List Event) :
    Unpublished (registry locks note) := unpublished_ask id

theorem unpublished_find (sel : Selector) : Unpublished (find sel) := unpublished_ask id

theorem unpublished_lockControl (id : String) : Unpublished (lockControl id) :=
  unpublished_ask fun h => h

theorem unpublished_rollback : Unpublished rollback := unpublished_ask id

theorem unpublished_commit (w : Ledger.Write) (note : List Event) : Unpublished (commit w note) :=
  unpublished_ask id

theorem unpublished_compute (c : Call Port Error α) (note : Port → α → List Event) :
    Unpublished (computeNote c note) := by
  refine (unpublished_ask id).bind fun port => ?_
  split
  · trivial
  · trivial

theorem unpublished_requireHouse (house device : String) :
    Unpublished (requireHouse house device) := by
  refine (unpublished_registry _ _).bind fun r => (Never.lift _).bind fun _ => ?_
  refine (unpublished_registry _ _).bind fun r => (Never.lift _).bind fun _ => ?_
  refine (unpublished_registry _ _).bind fun r => ?_
  split
  · trivial
  · split
    · trivial
    · trivial

theorem unpublished_physical (house device : String) : Unpublished (physical house device) := by
  refine (unpublished_registry _ _).bind fun r => (Never.lift _).bind fun item => ?_
  split
  · trivial
  refine (unpublished_registry _ _).bind fun r => (Never.lift _).bind fun actual => ?_
  split
  · trivial
  refine (unpublished_registry _ _).bind fun r => ?_
  exact (unpublished_compute _ _).bind fun _ => Never.lift _

theorem unpublished_request (cfg : Config) (session pid : Nat) (house device : String)
    (request : PermitRequest) :
    Unpublished (Services.request cfg session pid house device request) := by
  refine (unpublished_physical house device).bind fun _ => ?_
  refine (unpublished_compute _ _).bind fun ⟨_, now, tick⟩ => ?_
  refine (unpublished_find _).bind fun row => (unpublished_lockControl _).bind fun record => ?_
  refine (unpublished_compute _ _).bind fun ⟨_, decision⟩ => ?_
  cases decision with
  | cached row record delivery => trivial
  | fresh grant =>
      refine (unpublished_commit _ _).bind fun refused => ?_
      match refused with
      | some .integrity => trivial
      | some .missed => trivial
      | none => exact (unpublished_compute _ _).bind fun _ => trivial

theorem unpublished_validateDelivery (delivery : ControlDelivery) :
    Unpublished (validateDelivery delivery) := by
  refine (unpublished_compute _ _).bind fun ⟨_, up⟩ => ?_
  dsimp only
  split
  · trivial
  · exact (unpublished_compute _ _).bind fun _ => trivial

theorem unpublished_reply (cfg : Config) (session pid : Nat) (house device : String)
    (request : PermitRequest) : Unpublished (reply cfg session pid house device request) := by
  refine (unpublished_request cfg session pid house device request).bind fun delivery => ?_
  refine unpublished_rollback.bind fun _ => ?_
  exact (unpublished_validateDelivery delivery).bind fun _ => trivial

end

/-! ### What is published -/

section

variable {α β : Type} {last : Turn} {turns : List Turn} {h : Host}

theorem publications_none {m : Program α} (hm : Unpublished m) :
    publications (play last m turns h) = [] := by
  rw [publications, List.filterMap_eq_nil_iff]
  intro x hx
  exact publication_none (hm.course last turns x hx)

theorem publications_after (c : Course sql Host Turn Error α) (performed : List (Host × sql.Op)) :
    publications (c.after performed) = performed.filterMap publication ++ publications c :=
  List.filterMap_append

/-- A program that publishes nothing, and what follows it. -/
theorem publications_bind {m : Program α} (f : α → Program β) (hm : Unpublished m) :
    publications (play last (m >>= f) turns h) =
      match (play last m turns h).ending with
      | some (.ok a) =>
        publications (play last (f a) (play last m turns h).draws (play last m turns h).world)
      | _ => [] := by
  have hnone : (play last m turns h).performed.filterMap publication = [] := publications_none hm
  rw [play, course_bind]
  dsimp only
  cases hend : (play last m turns h).ending with
  | none => exact hnone
  | some r =>
      cases r with
      | error e => exact hnone
      | ok a =>
          dsimp only
          rw [publications_after, hnone, List.nil_append]

/-- The end of a transaction is answered. -/
theorem play_rollback : (play last rollback turns h).ending = some (.ok ()) := rfl

/-- **The frame of a request that was admitted and answered**: the payload of the reply, or the
denial. -/
theorem publications_controlRequest (cfg : Config) (session pid : Nat) (house device : String)
    (request : PermitRequest) :
    let admitted := play last (requireHouse house device) turns h
    let replied := play last (reply cfg session pid house device request) admitted.draws
      admitted.world
    let there := (play last rollback replied.draws replied.world).world
    publications (play last (controlRequest cfg session pid house device request) turns h) =
      match admitted.ending, replied.ending with
      | some (.ok _), some (.ok payload) => [(there, .published .controlReply house device payload)]
      | some (.ok _), some (.error e) =>
        if denies e then [(there, .published .controlReply house device (deniedPayload request))]
        else []
      | _, _ => [] := by
  dsimp only
  refine (publications_bind _ (unpublished_requireHouse house device)).trans ?_
  cases hadmitted : (play last (requireHouse house device) turns h).ending with
  | none => rfl
  | some r =>
      cases r with
      | error e => rfl
      | ok housed =>
          dsimp only
          refine (publications_bind _
            (unpublished_reply cfg session pid house device request).attempt).trans ?_
          rw [play, course_attempt]
          dsimp only
          cases hreplied : (play last (reply cfg session pid house device request)
            (play last (requireHouse house device) turns h).draws
            (play last (requireHouse house device) turns h).world).ending with
          | none => rfl
          | some outcome =>
              dsimp only [Option.map_some]
              refine (publications_bind _ unpublished_rollback).trans ?_
              rw [play_rollback]
              cases outcome with
              | ok payload => rfl
              | error e =>
                  dsimp only
                  split
                  · rfl
                  · rfl

end

/-! ### Grants -/

section

variable {α β : Type} {Q : Ending Error β → Host → Prop} {last : Turn} {turns : List Turn} {h : Host}

/-- Code of the process. -/
theorem ends_compute {c : Call Port Error α} {f : Port × α → Program β}
    (herror : ∀ (t : Turn) e p', c.run ((t.meanwhile h).port t.draw) = (.error e, p') →
      Q (some (.error e)) { t.meanwhile h with proc := p'.proc })
    (hok : ∀ (t : Turn) a p', c.run ((t.meanwhile h).port t.draw) = (.ok a, p') →
      Ends Turn.perform (f ((t.meanwhile h).port t.draw, a)) Q
        { t.meanwhile h with proc := p'.proc }) :
    Ends Turn.perform (compute c >>= f) Q h := by
  intro t
  change Ends Turn.perform (returned ((t.meanwhile h).port t.draw)
    (c.run ((t.meanwhile h).port t.draw)).1 >>= f) Q
      { t.meanwhile h with proc := (c.run ((t.meanwhile h).port t.draw)).2.proc }
  cases hc : c.run ((t.meanwhile h).port t.draw) with
  | mk r p' =>
      cases r with
      | error e => exact herror t e p' hc
      | ok a => exact hok t a p' hc

/-- The subscription is up. -/
def Up (h : Host) : Prop := h.proc.connected = true ∧ h.proc.controlSubscribed = true

theorem Turn.up (t : Turn) (hup : Up h) : Up (t.meanwhile h) :=
  ⟨(t.flags h).1.trans hup.1, (t.flags h).2.trans hup.2⟩

/-- **A delivery that is let through** is let through while the subscription is up. -/
theorem up_of_validate (delivery : ControlDelivery) :
    Ends Turn.perform (validateDelivery delivery) (fun r h' => r = some (.ok ()) → Up h') h := by
  refine ends_compute (fun _ _ _ _ hr => by cases hr) fun t up p' hflags => ?_
  rw [Call.run_bind_self, Call.run_pure, Prod.mk.injEq, Except.ok.injEq] at hflags
  obtain ⟨rfl, rfl⟩ := hflags
  dsimp only
  split
  · intro hr
    cases hr
  rename_i hup
  rw [Bool.not_eq_true, Bool.not_eq_false', Bool.and_eq_true] at hup
  refine ends_compute (fun _ _ _ _ hr => by cases hr) fun u a p'' hvalid _ => ?_
  -- the check moves the clock, and the flags are as they were read
  have hticks := (ControlAuthority.validateDelivery_moves delivery).of_run hvalid
  have hthere : Up (u.meanwhile (t.meanwhile h)) := u.up hup
  rw [Up, hticks.proc]
  exact hthere

theorem up_rollback (hup : Up h) : Up (play last rollback turns h).world :=
  (turns.headD last).up hup

/-- **What is replied is granted.** -/
theorem granted_of_replied {cfg : Config} {session pid : Nat} {house device : String}
    {request : PermitRequest} {payload : String}
    (hreplied : (play last (reply cfg session pid house device request)
      (play last (requireHouse house device) turns h).draws
      (play last (requireHouse house device) turns h).world).ending = some (.ok payload)) :
    Granted last cfg session pid house device request turns h
      (play last rollback
        (play last (reply cfg session pid house device request)
          (play last (requireHouse house device) turns h).draws
          (play last (requireHouse house device) turns h).world).draws
        (play last (reply cfg session pid house device request)
          (play last (requireHouse house device) turns h).draws
          (play last (requireHouse house device) turns h).world).world).world payload := by
  unfold reply at hreplied ⊢
  obtain ⟨delivery, hasked, hreplied, hdraws, hworld⟩ := course_bind_ok hreplied
  obtain ⟨_, -, hreplied, hdraws', hworld'⟩ := course_bind_ok hreplied
  obtain ⟨_, hchecked, hreturned, hdraws'', hworld''⟩ := course_bind_ok hreplied
  have hpayload : delivery.payload = payload := Except.ok.inj (Option.some.inj hreturned)
  rw [hdraws.trans (hdraws'.trans hdraws''), hworld.trans (hworld'.trans hworld'')]
  refine ⟨delivery, hasked, hpayload.symm, hchecked, rfl, ?_⟩
  exact up_rollback ((up_of_validate delivery).course last _ hchecked)

end

/-! ### Errors -/

/-- A refusal that is turned into a denial. -/
abbrev Denied (e : Error) : Prop := denies e = true

section

variable {ticks walls health : Nat} {t : Timing}

theorem next_yields {α : Type} {get : Sources → List α} {put : Sources → List α → Sources}
    {E : Error → Prop} (hne : get t.sources ≠ []) :
    (ControlClock.next get put).Yields (fun v t' => ∃ rest, get t.sources = v :: rest ∧
      t' = { t with sources := put t.sources rest }) E t := by
  rw [Call.Yields, ControlClock.run_next]
  cases hget : get t.sources with
  | nil => exact absurd hget hne
  | cons v rest => exact ⟨rest, rfl, rfl⟩

/-- A tick of a clock that has readings is denied at worst, and takes one of them. -/
theorem tick_yields (h : Supplied (ticks + 1) walls health t.sources) :
    ControlClock.tick.Yields (fun _ t' => Supplied ticks walls health t'.sources) Denied t := by
  refine .bind (.self ?_)
  split
  · exact rfl
  have hne : t.sources.ticks ≠ [] := List.ne_nil_of_length_pos (by have := h.ticks; omega)
  refine .bind ((next_yields hne).mono fun v t' ht' => ?_)
  obtain ⟨rest, hrest, rfl⟩ := ht'
  have hlen : ticks ≤ rest.length := by
    have := h.ticks
    rw [hrest, List.length_cons] at this
    omega
  -- the reading is stored before it is checked
  refine .bind (.update ?_)
  cases v with
  | none => exact rfl
  | some v =>
      by_cases hv : v < t.clock.last
      · simp only [ControlClock.accept, if_pos hv]
        exact rfl
      · simp only [ControlClock.accept, if_neg hv]
        exact ⟨hlen, h.walls, h.health⟩

theorem recovered_yields (h : 1 ≤ t.sources.ticks.length) :
    ControlClock.recovered.Yields (fun _ _ => True) Denied t := by
  have hleft : Supplied (0 + 1) 0 0 t.sources := ⟨h, Nat.zero_le _, Nat.zero_le _⟩
  exact .bind ((tick_yields hleft).mono fun _ _ _ => trivial)

/-- **A sample of a clock that has readings** is denied at worst. -/
theorem sample_yields (h : Supplied 2 1 1 t.sources) :
    ControlClock.sample.Yields (fun _ _ => True) Denied t := by
  refine .bind ((tick_yields h).mono fun tick t₁ h₁ => ?_)
  have hwalls : t₁.sources.walls ≠ [] := List.ne_nil_of_length_pos h₁.walls
  refine .bind ((next_yields hwalls).mono fun wall t₂ h₂ => ?_)
  obtain ⟨rest, -, rfl⟩ := h₂
  refine .bind (.self ?_)
  dsimp only
  cases t₁.clock.anchor with
  | none => exact rfl
  | some anchor =>
      refine .bind (.update ?_)
      refine .bind (.self ?_)
      dsimp only
      split
      · exact rfl
      refine .bind ((next_yields ?_).mono fun healthy t₃ h₃ => ?_)
      · exact List.ne_nil_of_length_pos h₁.health
      obtain ⟨rest, -, rfl⟩ := h₃
      cases healthy with
      | false => exact rfl
      | true =>
          refine .bind ((recovered_yields ?_).mono fun done _ _ => ?_)
          · exact h₁.ticks
          cases done with
          | false => exact rfl
          | true => exact trivial

end

/-! ### Decisions -/

section

variable {sha : Sha256} {house device : String} {request : PermitRequest} {p : Port}

theorem authority_yields {P : ControlAuthority → Port → Prop} {E : Error → Prop}
    (h : P p.proc.authority p) : ControlAuthority.authority.Yields P E p := h

theorem limit_yields (tick : Int) :
    (ControlAuthority.limit house device tick).Yields (fun _ _ => True) Denied p := by
  have hrun := ControlAuthority.run_limit ((house, device), tick) p
  unfold ControlAuthority.limited at hrun
  unfold Call.Yields
  rw [hrun]
  dsimp only
  split
  · rename_i heq
    split at heq
    · cases heq
    · trivial
  · rename_i heq
    split at heq
    · cases heq
      rfl
    · cases heq

/-- **Every refusal of `request` is a conflict or an unavailability.** -/
theorem requestDecide_yields (row : Option DeviceCommand) (record : Option ControlCommand)
    (now : Instant) (tick : Int) :
    (ControlAuthority.requestDecide sha house device request row record now tick).Yields
      (fun _ _ => True) Denied p := by
  refine .bind (authority_yields ?_)
  split
  · split
    · exact rfl
    split
    · exact rfl
    dsimp only
    split
    · split
      · split
        · trivial
        · exact rfl
      · exact rfl
    · refine .bind ((limit_yields tick).mono fun _ p₁ _ => ?_)
      refine .bind (.update ?_)
      refine .bind (authority_yields ?_)
      split
      · exact rfl
      · dsimp only
        split
        · exact rfl
        · trivial
  · exact rfl

theorem validateDelivery_yields {delivery : ControlDelivery} (h : Supplied 2 1 1 p.sources) :
    (ControlAuthority.validateDelivery delivery).Yields (fun _ _ => True) Denied p := by
  refine .bind (.zoom ((sample_yields h).mono fun x _ _ => ?_))
  refine .bind (authority_yields ?_)
  split
  · exact rfl
  · trivial

end

/-! ### Answered calls -/

namespace Admitted

variable {r : Registry} {house device : String}

theorem checks (h : Admitted r house device) :
    r.requireActive device = .ok () ∧ (∃ entity, r.getDevice device = .ok entity) ∧
      r.houseId device = .ok (some house) := by
  obtain ⟨entity, hentity⟩ := h.identity
  obtain ⟨hrow, hhouse⟩ := Registry.requireHouse_ok hentity
  refine ⟨?_, ⟨entity, by rw [Registry.getDevice, hrow]⟩, hhouse⟩
  cases hactive : r.requireActive device with
  | ok u => rfl
  | error e =>
      rw [Registry.requireHouse, hactive] at hentity
      cases hentity

/-- The physical device is found, and it is active. -/
theorem forHouse (h : Admitted r house device) :
    ∃ item, r.forHouse house device = .ok item ∧ item.status = .active := by
  obtain ⟨item, hitem, hhouse⟩ := h.physical
  refine ⟨item, by rw [Registry.forHouse, hitem]; exact if_pos hhouse, ?_⟩
  by_contra hinactive
  have hactive := h.checks.1
  rw [Registry.requireActive, hitem] at hactive
  dsimp only at hactive
  rw [if_pos hinactive] at hactive
  cases hactive

end Admitted

section

variable {α β : Type} {house device : String} {E : Error → Prop}

/-- A program that is answered while the device stays in its place. -/
abbrev Served (house device : String) (m : Program α) (P : α → Prop) (E : Error → Prop) : Prop :=
  Serves Turn.perform (Turn.Answers house device) (Placed house device) m P E

/-- A statement that reads. -/
theorem served_statement {op : sql.Op} {P : sql.Ans op → Prop} (x : Host → sql.Ans op)
    (hop : ∀ h d, Host.perform h d op = (Draw.answer d (x h), h))
    (hx : ∀ h, Placed house device h → P (x h)) : Served house device (.call op .ret) P E := by
  refine serves_ask fun t h ht hh => ?_
  have hplaced := ht.placed h hh
  refine ⟨x (t.meanwhile h), t.meanwhile h, ?_, hplaced, hx _ hplaced⟩
  rw [Turn.perform, hop, Draw.answer, ht.found]
  rfl

theorem served_registry (locks : Registry → List Lock) (note : Registry → List Event) :
    Served house device (registry locks note) (fun r => Admitted r house device) E :=
  served_statement Host.registry (fun _ _ => rfl) fun _ h => h.admitted

theorem served_find (sel : Selector) : Served house device (find sel) (fun _ => True) E :=
  served_statement (fun h => h.db.commands.find? sel.matches) (fun _ _ => rfl) fun _ _ => trivial

theorem served_lockControl (id : String) :
    Served house device (lockControl id) (fun _ => True) E :=
  served_statement (fun h => h.db.control? id) (fun _ _ => rfl) fun _ _ => trivial

theorem served_rollback : Served house device rollback (fun _ => True) E :=
  serves_ask fun t h ht hh => ⟨(), t.meanwhile h, rfl, ht.placed h hh, trivial⟩

/-- A commit is answered, whether it is refused or not. -/
theorem served_commit (w : Ledger.Write) (note : List Event) :
    Served house device (commit w note) (fun _ => True) E := by
  refine serves_ask fun t h ht hh => ?_
  have hplaced := ht.placed h hh
  rcases perform_commit (t.meanwhile h) t.draw w note with hp | ⟨r, hp⟩ | ⟨db, -, hp⟩
  · -- the connection is not lost
    unfold Host.perform at hp
    dsimp only at hp
    rw [ht.found, if_neg Bool.false_ne_true] at hp
    split at hp
    · split at hp
      · cases hp
      · cases hp
    · cases hp
  · exact ⟨_, _, hp, hplaced, trivial⟩
  · exact ⟨_, _, hp, ⟨hplaced.admitted, hplaced.gate⟩, trivial⟩

/-- A port that code of the process gets. -/
structure Ready (p : Port) : Prop where
  supplied : Supplied 2 1 1 p.sources
  gate : Conflicting p.proc.authority.gate

/-- Code of the process that keeps the gate. -/
theorem served_compute {c : Call Port Error α} {note : Port → α → List Event} {P : α → Prop}
    (hgate : ∀ p, (c.run p).2.proc.authority.gate = p.proc.authority.gate)
    (hc : ∀ p, Ready p → c.Yields (fun a _ => P a) E p) :
    Served house device (computeNote c note) (fun x => P x.2) E := by
  have hport : Served house device (ask (.atomic (fun p => (c.run p).2) (noteOk c note)))
      Ready E := by
    refine serves_ask fun t h ht hh => ?_
    have hplaced := ht.placed h hh
    refine ⟨_, _, rfl, ⟨hplaced.admitted, ?_⟩, ⟨ht.supplied, hplaced.gate⟩⟩
    exact (hgate _).symm ▸ hplaced.gate
  refine hport.bind fun port hready => ?_
  have hyields := hc port hready
  unfold Call.Yields at hyields
  rcases hrun : c.run port with ⟨e | a, p'⟩
  · rw [hrun] at hyields
    exact serves_raise hyields
  · rw [hrun] at hyields
    exact serves_ret hyields

/-- **The admission of the identity** passes. -/
theorem served_requireHouse :
    Served house device (requireHouse house device) (fun _ => True) fun _ => False := by
  refine (served_registry _ _).bind fun r hr => ?_
  refine (serves_lift (fun _ _ => trivial) fun e he => ?_).bind fun _ _ => ?_
  · rw [hr.checks.1] at he
    cases he
  refine (served_registry _ _).bind fun r hr => ?_
  refine (serves_lift (fun _ _ => trivial) fun e he => ?_).bind fun _ _ => ?_
  · obtain ⟨entity, hentity⟩ := hr.checks.2.1
    rw [hentity] at he
    cases he
  refine (served_registry _ _).bind fun r hr => ?_
  rw [hr.checks.2.2]
  dsimp only
  rw [if_neg (by simp)]
  exact serves_ret trivial

theorem served_physical :
    Served house device (physical house device) (fun _ => True) Denied := by
  refine (served_registry _ _).bind fun r hr => ?_
  obtain ⟨item, hitem, hactive⟩ := hr.forHouse
  have hfound : Served house device (Prog.lift (r.forHouse house device) : Program PhysicalDevice)
      (fun item => item.status = .active) Denied := by
    rw [hitem]
    exact serves_ret hactive
  refine hfound.bind fun item hactive => ?_
  rw [if_neg (not_not.mpr hactive)]
  refine (served_registry _ _).bind fun r hr => ?_
  have hhouse : Served house device (Prog.lift (r.houseId device) : Program (Option String))
      (fun actual => actual = some house) Denied := by
    rw [hr.checks.2.2]
    exact serves_ret rfl
  refine hhouse.bind fun actual hactual => ?_
  rw [if_neg (not_not.mpr hactual)]
  refine (served_registry _ _).bind fun r _ => ?_
  have hauthority : Served house device (compute ControlAuthority.authority)
      (fun x => Conflicting x.2.gate) Denied :=
    served_compute (P := fun a => Conflicting a.gate) (fun _ => rfl)
      fun p hp => authority_yields hp.gate
  refine hauthority.bind fun ⟨_, a⟩ hgate => serves_lift (fun _ _ => trivial) fun e he => ?_
  obtain ⟨message, rfl⟩ := hgate _ _ _ _ he
  rfl

theorem served_bindGrant (session pid : Nat) (grant : ControlAuthority.Grant) :
    Served house device (bindGrant session pid grant) (fun _ => True) Denied := by
  refine (served_commit _ _).bind fun refused _ => ?_
  match refused with
  | some .integrity => exact serves_raise rfl
  | some .missed => exact serves_raise rfl
  | none =>
      have hstore : Served house device
          (computeNote (ControlAuthority.modify (ControlAuthority.storeReply grant)) fun _ _ =>
            [.granted (grant.permit session pid)]) (fun _ => True) Denied :=
        served_compute (P := fun _ => True) (fun _ => rfl) fun _ _ => .update trivial
      exact hstore.bind fun _ _ => serves_ret trivial

theorem served_request (cfg : Config) (session pid : Nat) (request : PermitRequest) :
    Served house device (Services.request cfg session pid house device request)
      (fun _ => True) Denied := by
  refine served_physical.bind fun _ _ => ?_
  have hsample : Served house device (compute (ControlAuthority.clocked ControlClock.sample))
      (fun _ => True) Denied :=
    served_compute (fun p => (Port.Ticks.clocked ControlClock.sample_moves p).later.gate)
      fun p hp => .zoom (sample_yields hp.supplied)
  refine hsample.bind fun ⟨_, now, tick⟩ _ => ?_
  refine (served_find _).bind fun row _ => (served_lockControl _).bind fun record _ => ?_
  have hdecide : Served house device
      (computeNote (ControlAuthority.requestDecide cfg.sha house device request row record now tick)
        (cachedNote session pid house device request)) (fun _ => True) Denied :=
    served_compute
      (fun p => (ControlAuthority.requestDecide_moves cfg.sha house device request row record now
        tick p).later.gate)
      fun p _ => requestDecide_yields row record now tick
  refine hdecide.bind fun ⟨_, decision⟩ _ => ?_
  cases decision with
  | cached row record delivery => exact serves_ret trivial
  | fresh grant => exact served_bindGrant session pid grant

theorem served_validateDelivery (delivery : ControlDelivery) :
    Served house device (validateDelivery delivery) (fun _ => True) Denied := by
  refine (served_compute (P := fun _ => True) ?_ ?_).bind fun ⟨_, up⟩ _ => ?_
  · exact fun _ => rfl
  · exact fun _ _ => .bind (.self trivial)
  dsimp only
  split
  · exact serves_raise rfl
  have hvalid : Served house device (compute (ControlAuthority.validateDelivery delivery))
      (fun _ => True) Denied :=
    served_compute (fun p => (ControlAuthority.validateDelivery_moves delivery p).later.gate)
      fun p hp => validateDelivery_yields hp.supplied
  exact hvalid.bind fun _ _ => serves_ret trivial

/-- **A request is answered or denied**: nothing else is raised, and nothing is lost. -/
theorem served_reply (cfg : Config) (session pid : Nat) (request : PermitRequest) :
    Served house device (reply cfg session pid house device request) (fun _ => True) Denied := by
  refine (served_request cfg session pid request).bind fun delivery _ => ?_
  refine served_rollback.bind fun _ _ => ?_
  exact (served_validateDelivery delivery).bind fun _ _ => serves_ret trivial

end

/-! ### The reply -/

section

variable {cfg : Config} {spare : Nat} {message : ControlMessage} {parsed : Topics.ParsedTopic}
  {request : PermitRequest}

/-- A message that is read and not limited is a request. -/
theorem Passes.handled (h : Passes spare message parsed request) (session pid : Nat) :
    handleControl cfg session pid spare false parsed message =
      controlRequest cfg session pid parsed.houseId parsed.deviceId request := by
  rw [handleControl, h.live, h.decoded]
  rfl

/-- **A world that does not grant** denies. -/
theorem Setting.frames_denied (w : Setting parsed.houseId parsed.deviceId)
    (h : Passes spare message parsed request) (hno : ¬ w.Grants cfg request) :
    w.frames cfg spare parsed message =
      [.published .controlReply parsed.houseId parsed.deviceId (deniedPayload request)] := by
  have hlast := w.answers w.last List.mem_cons_self
  have hturns : ∀ t ∈ w.turns, t.Answers parsed.houseId parsed.deviceId :=
    fun t ht => w.answers t (List.mem_cons_of_mem _ ht)
  obtain ⟨hworld, hdraws, hadmitted⟩ := served_requireHouse w.last w.turns w.host hlast hturns
    w.placed
  obtain ⟨-, -, hreplied⟩ := served_reply cfg w.session w.pid request w.last _ _ hlast hdraws
    hworld
  rw [Setting.frames, h.handled, publications_controlRequest]
  rcases hadmitted with ⟨housed, hhoused, -⟩ | ⟨_, _, hfalse⟩
  · rcases hreplied with ⟨payload, hpayload, -⟩ | ⟨e, he, hdenied⟩
    · exact absurd ⟨_, payload, granted_of_replied hpayload⟩ hno
    · rw [hhoused, he]
      dsimp only
      rw [if_pos hdenied]
      rfl
  · exact hfalse.elim

/-- **Every frame of every run** is the denial or a grant. -/
theorem published_denied_or_granted (h : Passes spare message parsed request) (limited : Bool)
    (session pid : Nat) (last : Turn) (turns : List Turn) (host there : Host) (e : Event)
    (he : (there, e) ∈ publications
      (play last (handleControl cfg session pid spare limited parsed message) turns host)) :
    ∃ payload, e = .published .controlReply parsed.houseId parsed.deviceId payload ∧
      (payload = deniedPayload request ∨
        Granted last cfg session pid parsed.houseId parsed.deviceId request turns host there
          payload) := by
  cases limited with
  | true =>
      rw [handleControl, h.live, h.decoded] at he
      cases he
  | false =>
      rw [h.handled, publications_controlRequest] at he
      split at he
      · rename_i payload _ hpayload
        obtain ⟨rfl, rfl⟩ := Prod.mk.inj (List.mem_singleton.mp he)
        exact ⟨payload, rfl, Or.inr (granted_of_replied hpayload)⟩
      · split at he
        · obtain ⟨rfl, rfl⟩ := Prod.mk.inj (List.mem_singleton.mp he)
          exact ⟨_, rfl, Or.inl rfl⟩
        · cases he
      · cases he

/-- **Denied permit requests reveal nothing**: any two worlds that do not grant a request send
the same frame, which is made of the request alone; and in every run, what is sent is this frame
or a delivery that `request` returned in the call and `validate_delivery` let through right
before, with the subscription up. A `permit_grant` is not the denial. -/
theorem permit_denials_alike (cfg : Config) (h : Passes spare message parsed request) :
    (∀ w w' : Setting parsed.houseId parsed.deviceId,
      ¬ w.Grants cfg request → ¬ w'.Grants cfg request →
        w.frames cfg spare parsed message =
            [.published .controlReply parsed.houseId parsed.deviceId (deniedPayload request)] ∧
          w'.frames cfg spare parsed message = w.frames cfg spare parsed message) ∧
      (∀ (limited : Bool) (session pid : Nat) (last : Turn) (turns : List Turn) (host : Host),
        ∀ x ∈ publications
            (play last (handleControl cfg session pid spare limited parsed message) turns host),
          ∃ payload, x.2 = .published .controlReply parsed.houseId parsed.deviceId payload ∧
            (payload = deniedPayload request ∨
              Granted last cfg session pid parsed.houseId parsed.deviceId request turns host x.1
                payload)) ∧
      ∀ request' now expires remaining,
        deniedPayload request ≠ ControlAuthority.grantPayload request' now expires remaining := by
  refine ⟨fun w w' hno hno' => ?_, fun limited session pid last turns host x hx => ?_, ?_⟩
  · have hw := w.frames_denied h hno
    exact ⟨hw, (w'.frames_denied h hno').trans hw.symm⟩
  · exact published_denied_or_granted h limited session pid last turns host x.1 x.2 hx
  · exact denied_ne_grant request

end

namespace Lamp

open Household

/-- A request for a permit to switch the lamp. -/
def request : PermitRequest :=
  ⟨epoch, commandId, "000102030405060708090a0b0c0d0e0f", "101112131415161718191a1b1c1d1e1f",
    "202122232425262728292a2b2c2d2e2f",
    "29a07dbf38c8ccef5999f5bfb4fdd992af6acb8e41c012480896554014caf327"⟩

theorem request_valid : request.Valid where
  coreEpoch := canonicalUuid_iff.mp (by decide)
  commandId := canonicalUuid_iff.mp (by decide)
  bootId := hexPattern_iff.mp (by decide)
  sessionId := hexPattern_iff.mp (by decide)
  nonce := hexPattern_iff.mp (by decide)
  intentSha256 := hexPattern_iff.mp (by decide)

def message : ControlMessage :=
  ⟨"kzhome/v1/home/lamp/control/request", false, request.encode.toUTF8⟩

theorem message_passes : Passes 0 message ⟨"home", "lamp", .controlRequest⟩ request := by
  have htopic : Topics.parseTopic "kzhome/v1/home/lamp/control/request" =
      .ok ⟨"home", "lamp", .controlRequest⟩ := by
    decide +kernel
  have hpayload : message.payload = request.encode.toUTF8 := by rw [message]
  refine ⟨htopic, rfl, rfl, ?_⟩
  rw [hpayload]
  exact decodeRequest_encode request_valid 0

/-- A turn on which nothing else happens. -/
def turn : Turn := ⟨draw, id, fun _ => ⟨rfl, rfl⟩⟩

theorem turn_answers : turn.Answers "home" "lamp" where
  found := rfl
  supplied := ⟨by decide, by decide, by decide⟩
  placed _ h := h

theorem lamp_admitted : Admitted controlled "home" "lamp" :=
  ⟨⟨_, rfl⟩, ⟨_, rfl, rfl⟩⟩

/-- No command, behind an open gate. -/
def empty : Setting "home" "lamp" where
  host := ⟨⟨[], []⟩, controlled, controlledProc⟩
  session := 0
  pid := 0
  turns := []
  last := turn
  placed := ⟨lamp_admitted, fun _ _ _ _ h => by cases h⟩
  answers := List.forall_mem_singleton.mpr turn_answers

/-- A historical row, behind a closed gate. -/
def closed : Setting "home" "lamp" where
  host := ⟨⟨[historical], []⟩, controlled, { controlledProc with authority :=
    { controlledProc.authority with gate := ControlAuthority.closedGate } }⟩
  session := 3
  pid := 1
  turns := [turn, turn]
  last := turn
  placed := ⟨lamp_admitted, fun _ _ _ _ h => by cases h; exact ⟨_, rfl⟩⟩
  answers := by simp [turn_answers]

/-- The row of the lamp's command, which was dispatched. -/
def dispatched : DeviceCommand :=
  { intent.row with status := .dispatched, dispatchStartedAt := some 40000000 }

/-- Its control record, after a permit for other hardware. -/
def bound : ControlCommand :=
  { ControlAuthority.candidate controlConfig.sha epoch intent.row with
    permitBindingSha256 := some "505152535455565758595a5b5c5d5e5f606162636465666768696a6b6c6d6e6f" }

/-- The authority that prepared and dispatched it. -/
def authority : ControlAuthority :=
  { controlledProc.authority with
    windows := Dict.empty.set commandId
      (ControlAuthority.windowOf dispatched bound 40000000 40000000) }

/-- The command is current and all that the request names is right, but its permit was consumed. -/
def consumed : Setting "home" "lamp" where
  host := ⟨⟨[dispatched], [bound]⟩, controlled, { controlledProc with authority := authority }⟩
  session := 2
  pid := 0
  turns := []
  last := turn
  placed := ⟨lamp_admitted, fun _ _ _ _ h => by cases h⟩
  answers := List.forall_mem_singleton.mpr turn_answers

/-- How `request` ends in a setting. -/
def refusal (w : Setting "home" "lamp") : Option Error :=
  let admitted := play w.last (requireHouse "home" "lamp") w.turns w.host
  match (play w.last (Services.request controlConfig w.session w.pid "home" "lamp" request)
    admitted.draws admitted.world).ending with
  | some (.error e) => some e
  | _ => none

theorem not_grants_of_refusal {w : Setting "home" "lamp"} {e : Error} (h : refusal w = some e) :
    ¬ w.Grants controlConfig request := by
  rintro ⟨there, payload, delivery, hasked, -⟩
  simp only [refusal, hasked] at h
  cases h

/-- What stops each of them. -/
theorem refusals :
    refusal empty =
        some (.conflict "Control request does not match a current candidate") ∧
      refusal closed = some (.conflict "Physical control remains closed pending joint acceptance") ∧
      refusal consumed = some (.conflict "A permit attempt was already consumed") := by
  decide +kernel

end Lamp

/-- The lamp's permit is denied alike without a command, behind a closed gate, and after a permit
for other hardware. -/
theorem permit_denials_alike_lamp :
    Lamp.empty.frames Household.controlConfig 0 ⟨"home", "lamp", .controlRequest⟩ Lamp.message =
        [.published .controlReply "home" "lamp" (deniedPayload Lamp.request)] ∧
      Lamp.closed.frames Household.controlConfig 0 ⟨"home", "lamp", .controlRequest⟩ Lamp.message =
        Lamp.empty.frames Household.controlConfig 0 ⟨"home", "lamp", .controlRequest⟩ Lamp.message ∧
      Lamp.refusal Lamp.consumed = some (.conflict "A permit attempt was already consumed") ∧
      Lamp.consumed.frames Household.controlConfig 0 ⟨"home", "lamp", .controlRequest⟩ Lamp.message =
        Lamp.empty.frames Household.controlConfig 0 ⟨"home", "lamp", .controlRequest⟩
          Lamp.message := by
  obtain ⟨hempty, hclosed, hconsumed⟩ := Lamp.refusals
  obtain ⟨hdenied, hsame⟩ := (permit_denials_alike Household.controlConfig Lamp.message_passes).1
    Lamp.empty Lamp.closed (Lamp.not_grants_of_refusal hempty) (Lamp.not_grants_of_refusal hclosed)
  obtain ⟨-, hsame'⟩ := (permit_denials_alike Household.controlConfig Lamp.message_passes).1
    Lamp.empty Lamp.consumed (Lamp.not_grants_of_refusal hempty)
    (Lamp.not_grants_of_refusal hconsumed)
  exact ⟨hdenied, hsame, hconsumed, hsame'⟩

end KzHome.PermitReplies

import KzHome.CommandService

/-!
# KzHome.Memory

What the code between two database statements does to the memory of its process.

Almost all of it only reads clocks (`Port.Ticks`). `request` may also drop rate
records and cached replies (`Port.Trims`), and `initialize` starts the fence
(`Port.Fences`). Whatever it does, the clock's constants and the gate stay and
the last tick does not go back (`Proc.Later`), which is what a session may rely
on about its own process while other sessions of that process run.

The inversion lemmas at the end say what was checked when a call returned.
-/

namespace KzHome

/-- The memory of one process, at two moments. -/
structure Proc.Later (a b : Proc) : Prop where
  epoch : b.authority.clock.epoch = a.authority.clock.epoch
  qualified : b.authority.clock.qualified = a.authority.clock.qualified
  start : b.authority.clock.start = a.authority.clock.start
  anchor : b.authority.clock.anchor = a.authority.clock.anchor
  fenceUs : b.authority.clock.fenceUs = a.authority.clock.fenceUs
  gate : b.authority.gate = a.authority.gate
  last : a.authority.clock.last ≤ b.authority.clock.last

namespace Proc.Later

theorem refl (a : Proc) : Proc.Later a a := ⟨rfl, rfl, rfl, rfl, rfl, rfl, Int.le_refl _⟩

theorem trans {a b c : Proc} (h : Proc.Later a b) (k : Proc.Later b c) : Proc.Later a c where
  epoch := k.epoch.trans h.epoch
  qualified := k.qualified.trans h.qualified
  start := k.start.trans h.start
  anchor := k.anchor.trans h.anchor
  fenceUs := k.fenceUs.trans h.fenceUs
  gate := k.gate.trans h.gate
  last := h.last.trans k.last

end Proc.Later

namespace Port

/-- Code that read clocks and did nothing else. -/
structure Ticks (a b : Port) : Prop where
  proc : b.proc = { a.proc with
    authority := { a.proc.authority with clock := b.proc.authority.clock } }
  clock : ControlClock.Advances a.timing b.timing

namespace Ticks

theorem refl (a : Port) : Ticks a a := ⟨rfl, .refl _⟩

theorem trans {a b c : Port} (h : Ticks a b) (k : Ticks b c) : Ticks a c :=
  ⟨by rw [k.proc, h.proc], h.clock.trans k.clock⟩

/-- A call on the clock. -/
theorem clocked {α : Type} {c : Call Timing Error α} (h : Call.Moves ControlClock.Advances c) :
    Call.Moves Ticks (ControlAuthority.clocked c) :=
  h.zoom fun _ _ hadv => ⟨rfl, hadv⟩

theorem authority_eq {a b : Port} (h : Ticks a b) :
    b.proc.authority = { a.proc.authority with clock := b.proc.authority.clock } := by
  rw [h.proc]

theorem later {a b : Port} (h : Ticks a b) : Proc.Later a.proc b.proc where
  epoch := h.clock.epoch
  qualified := h.clock.qualified
  start := h.clock.start
  anchor := h.clock.anchor
  fenceUs := h.clock.fenceUs
  gate := by rw [h.authority_eq]
  last := h.clock.last

end Ticks

/-- `request` dropped rate records and replies that are out of date. -/
structure Trims (a b : Port) : Prop where
  sources : b.sources = a.sources
  proc : b.proc = { a.proc with authority := { a.proc.authority with
    rates := b.proc.authority.rates
    globalSecond := b.proc.authority.globalSecond
    globalCount := b.proc.authority.globalCount
    replies := b.proc.authority.replies } }
  replies : ∀ id v, b.proc.authority.replies.get? id = some v →
    a.proc.authority.replies.get? id = some v

namespace Trims

theorem refl (a : Port) : Trims a a := ⟨rfl, rfl, fun _ _ h => h⟩

theorem trans {a b c : Port} (h : Trims a b) (k : Trims b c) : Trims a c where
  sources := k.sources.trans h.sources
  proc := by rw [k.proc, h.proc]
  replies id v hv := h.replies id v (k.replies id v hv)

theorem clock_eq {a b : Port} (h : Trims a b) : b.proc.authority.clock = a.proc.authority.clock := by
  rw [h.proc]

theorem later {a b : Port} (h : Trims a b) : Proc.Later a.proc b.proc := by
  have hc := h.clock_eq
  refine ⟨by rw [hc], by rw [hc], by rw [hc], by rw [hc], by rw [hc], by rw [h.proc], ?_⟩
  rw [hc]

end Trims

/-- `initialize` started the fence at a tick it read. -/
structure Fences (ids : List String) (a b : Port) : Prop where
  fewIds : ids.length ≤ ControlAuthority.maxWindows
  proc : ∃ tick, some tick ∈ a.sources.ticks ∧ a.proc.authority.clock.last ≤ tick ∧
    b.proc = { a.proc with authority := { a.proc.authority with
      clock := { a.proc.authority.clock with last := tick, fenceStart := tick }
      recoveryIds := ids
      recoveryInitialized := true } }
  nows : b.sources.nows = a.sources.nows

theorem Fences.later {ids : List String} {a b : Port} (h : Fences ids a b) :
    Proc.Later a.proc b.proc := by
  obtain ⟨tick, -, hle, hp⟩ := h.proc
  rw [hp]
  exact ⟨rfl, rfl, rfl, rfl, rfl, rfl, hle⟩

end Port

namespace ControlAuthority

variable {p p' : Port}

theorem run_authority (p : Port) : authority.run p = (.ok p.proc.authority, p) := rfl

theorem run_bind_authority {α : Type} (f : ControlAuthority → Call Port Error α) (p : Port) :
    (authority >>= f).run p = (f p.proc.authority).run p := rfl

theorem run_bind_modify {α : Type} (g : ControlAuthority → ControlAuthority)
    (f : Unit → Call Port Error α) (p : Port) :
    (modify g >>= f).run p =
      (f ()).run { p with proc := { p.proc with authority := g p.proc.authority } } := rfl

theorem authority_moves : Call.Moves Port.Ticks authority := fun p => .refl p

theorem clocked_ok {α : Type} {c : Call Timing Error α} {a : α} :
    (clocked c).run p = (.ok a, p') ↔
      ∃ t, c.run p.timing = (.ok a, t) ∧ p' = p.withTiming t :=
  Call.run_zoom_ok

/-! ### Calls that only read clocks -/

theorem expired_moves (record : ControlCommand) : Call.Moves Port.Ticks (expired record) := by
  intro p
  unfold expired
  rw [run_bind_authority]
  split
  · split
    · exact .refl p
    · refine Call.Moves.bind (fun _ _ _ => .trans) (.clocked ControlClock.recovered_moves) ?_ p
      intro done
      split
      · exact .raise .refl _
      · exact .pure .refl _
  · split
    · exact .refl p
    · exact Call.Moves.bind (fun _ _ _ => .trans) (.clocked ControlClock.tick_moves)
        (fun _ => .pure .refl _) p

theorem validateDelivery_moves (delivery : ControlDelivery) :
    Call.Moves Port.Ticks (validateDelivery delivery) := by
  refine .bind (fun _ _ _ => .trans) (.clocked ControlClock.sample_moves) fun s => ?_
  refine .bind (fun _ _ _ => .trans) authority_moves fun a => ?_
  split
  · exact .raise .refl _
  · exact .pure .refl _

theorem prepareSample_moves : Call.Moves Port.Ticks prepareSample := by
  refine .bind (fun _ _ _ => .trans) authority_moves fun a => ?_
  split
  · exact .raise .refl _
  · exact .clocked ControlClock.sample_moves

theorem stageDecide_moves (sha : Sha256) (id : String) (row : Option DeviceCommand)
    (record : Option ControlCommand) (now : Instant) (tick : Int) :
    Call.Moves Port.Ticks (stageDecide sha id row record now tick) := by
  refine .bind (fun _ _ _ => .trans) authority_moves fun a => ?_
  split
  · split
    · exact .raise .refl _
    · exact .pure .refl _
  · exact .raise .refl _

/-! ### `request` -/

theorem modify_trims {f : ControlAuthority → ControlAuthority}
    (h : ∀ a, (f a).clock = a.clock ∧ (f a).gate = a.gate ∧ (f a).windows = a.windows ∧
      (f a).recoveryInitialized = a.recoveryInitialized ∧ (f a).recoveryIds = a.recoveryIds ∧
      ∀ id v, (f a).replies.get? id = some v → a.replies.get? id = some v) :
    Call.Moves Port.Trims (modify f) := by
  intro p
  obtain ⟨h1, h2, h3, h4, h5, h6⟩ := h p.proc.authority
  refine ⟨rfl, ?_, h6⟩
  simp only [modify, Call.run_update, ← h1, ← h2, ← h3, ← h4, ← h5]

theorem limit_moves (house device : String) (tick : Int) :
    Call.Moves Port.Trims (limit house device tick) := by
  refine .bind (fun _ _ _ => .trans) (modify_trims fun a => ?_) fun _ => ?_
  · exact ⟨rfl, rfl, rfl, rfl, rfl, fun _ _ h => h⟩
  refine .bind (fun _ _ _ => .trans) (modify_trims fun a => ?_) fun _ => ?_
  · split <;> exact ⟨rfl, rfl, rfl, rfl, rfl, fun _ _ h => h⟩
  refine .bind (fun _ _ _ => .trans) (fun p => .refl p) fun a => ?_
  split
  · exact .raise .refl _
  · exact modify_trims fun a => ⟨rfl, rfl, rfl, rfl, rfl, fun _ _ h => h⟩

theorem requestDecide_moves (sha : Sha256) (house device : String) (request : PermitRequest)
    (row : Option DeviceCommand) (record : Option ControlCommand) (now : Instant) (tick : Int) :
    Call.Moves Port.Trims (requestDecide sha house device request row record now tick) := by
  refine .bind (fun _ _ _ => .trans) (fun p => .refl p) fun a => ?_
  split
  · split
    · exact .raise .refl _
    split
    · exact .raise .refl _
    dsimp only
    split
    · split
      · split
        · exact .pure .refl _
        · exact .raise .refl _
      · exact .raise .refl _
    · refine .bind (fun _ _ _ => .trans) (limit_moves house device tick) fun _ => ?_
      refine .bind (fun _ _ _ => .trans) (modify_trims fun a => ?_) fun _ => ?_
      · exact ⟨rfl, rfl, rfl, rfl, rfl, fun id v h => (Dict.get?_filter.mp h).1⟩
      refine .bind (fun _ _ _ => .trans) (fun p => .refl p) fun a => ?_
      split
      · exact .raise .refl _
      · split
        · exact .raise .refl _
        · exact .pure .refl _
  · exact .raise .refl _

/-! ### `initialize` -/

theorem startFence_moves (ids : List String) :
    Call.Moves (fun a b => Port.Ticks a b ∨ Port.Fences ids a b) (startFence ids) := by
  intro p
  unfold startFence
  split
  · exact Or.inl (.refl p)
  · rename_i hlen
    rcases hr : (clocked ControlClock.readTick).run p with ⟨e | value, p₁⟩
    · rw [Call.run_bind, hr]
      exact Or.inl ((Port.Ticks.clocked ControlClock.readTick_moves).of_run hr)
    · have ht := (Port.Ticks.clocked ControlClock.readTick_moves).of_run hr
      obtain ⟨t, htick, rfl⟩ := clocked_ok.mp hr
      obtain ⟨rest, hrest, rfl⟩ := ControlClock.readTick_ok.mp htick
      have hflag : Port.Ticks p
          ((modify fun a => { a with clock := { a.clock with timerFault := true } }).run
            (p.withTiming ⟨{ p.sources with ticks := rest }, p.proc.authority.clock⟩)).2 :=
        ⟨rfl, .of_eq rfl ht.clock.ticks (List.suffix_refl _)⟩
      rw [Call.run_bind_of_ok hr, run_bind_authority]
      cases value with
      | none => exact Or.inl hflag
      | some tick =>
          dsimp only
          split
          · exact Or.inl hflag
          · rename_i hok
            rw [not_or, not_lt] at hok
            refine Or.inr ⟨by omega, ⟨tick, ?_, hok.2, rfl⟩, rfl⟩
            have : some tick ∈ p.sources.ticks := by
              have : p.sources.ticks = some tick :: rest := hrest
              rw [this]; exact List.mem_cons_self ..
            exact this

/-! ### What was checked when a call returned -/

/-- A foreign record is overdue when the fence has passed and never otherwise; an
own one when the tick has reached its window's deadline. -/
theorem expired_ok {record : ControlCommand} {b : Bool}
    (h : (expired record).run p = (.ok b, p')) :
    (record.authorityEpoch ≠ p.proc.authority.clock.epoch ∧
        p.proc.authority.recoveryInitialized = true ∧
        record.commandId ∈ p.proc.authority.recoveryIds ∧ b = true ∧
        ∃ v t, ControlClock.tick.run p.timing = (.ok v, t) ∧ p' = p.withTiming t ∧
          p.proc.authority.clock.fenceUs ≤ v - p.proc.authority.clock.fenceStart) ∨
      (record.authorityEpoch = p.proc.authority.clock.epoch ∧
        ∃ window v t, p.proc.authority.windows.get? record.commandId = some window ∧
          ControlClock.tick.run p.timing = (.ok v, t) ∧ p' = p.withTiming t ∧
          b = decide (window.deadline ≤ v)) := by
  unfold expired at h
  rw [run_bind_authority] at h
  split at h
  · rename_i hne
    split at h
    · simp at h
    · rename_i hrec
      simp only [Bool.or_eq_true, Bool.not_eq_true', not_or, Bool.not_eq_false,
        List.contains_iff_mem] at hrec
      obtain ⟨done, p₁, hr, h⟩ := Call.run_bind_ok.mp h
      split at h
      · simp at h
      · rename_i hdone
        simp only [Call.run_pure, Prod.mk.injEq, Except.ok.injEq] at h
        obtain ⟨rfl, rfl⟩ := h
        obtain ⟨t, hrun, rfl⟩ := clocked_ok.mp hr
        obtain ⟨v, htick, rfl⟩ := ControlClock.recovered_ok.mp hrun
        simp only [Bool.not_eq_true', decide_eq_false_iff_not, not_not] at hdone
        exact Or.inl ⟨hne, hrec.1, hrec.2, rfl, v, t, htick, rfl, hdone⟩
  · rename_i heq
    split at h
    · simp at h
    · rename_i window hw
      obtain ⟨v, p₁, hr, h⟩ := Call.run_bind_ok.mp h
      simp only [Call.run_pure, Prod.mk.injEq, Except.ok.injEq] at h
      obtain ⟨rfl, rfl⟩ := h
      obtain ⟨t, htick, rfl⟩ := clocked_ok.mp hr
      exact Or.inr ⟨not_not.mp heq, window, v, t, hw, htick, rfl, rfl⟩

/-- The sample a preparation started with. -/
theorem prepareSample_ok {now : Instant} {tick : Int}
    (h : prepareSample.run p = (.ok (now, tick), p')) :
    p.proc.authority.recoveryInitialized = true ∧
      ∃ t, ControlClock.Sampled p.timing now tick t ∧ p' = p.withTiming t := by
  unfold prepareSample at h
  rw [run_bind_authority] at h
  split at h
  · simp at h
  · rename_i hrec
    obtain ⟨t, hrun, rfl⟩ := clocked_ok.mp h
    exact ⟨by simpa using hrec, t, ControlClock.sample_ok hrun, rfl⟩

/-- What `prepare` has checked about the columns of a new intent. -/
theorem prepareCheck_ok {row : DeviceCommand} {found : Bool} {now : Instant} {u : Unit}
    (h : prepareCheck row found now = .ok u) :
    row.status.pending = true ∧ row.dispatchStartedAt = none ∧ row.createdAt ≤ now ∧
      now < row.expiresAt ∧ row.expiresAt - row.createdAt ≤ lifetimeUs := by
  unfold prepareCheck at h
  split at h
  · cases h
  · rename_i hnew
    dsimp only at h
    split at h
    · cases h
    · rename_i hdl
      simp only [Bool.or_eq_true, Bool.not_eq_true', not_or, Bool.not_eq_false,
        Bool.not_eq_true, Option.isSome_eq_false_iff, Option.isNone_iff_eq_none] at hnew
      rw [not_or, not_not, not_not] at hdl
      exact ⟨hnew.1.1, hnew.2, hdl.1.1, hdl.1.2, hdl.2.2⟩

/-- What `stage` has checked. -/
structure Stageable (id : String) (p : Port) (row : DeviceCommand) (record : ControlCommand)
    (window : Window) (tick : Int) : Prop where
  found : p.proc.authority.windows.get? id = some window
  epoch : record.authorityEpoch = p.proc.authority.clock.epoch
  pending : row.status.pending = true
  unstaged : row.dispatchStartedAt = none
  identity : window.identity = row.identity
  early : tick < window.deadline

theorem stageDecide_ok {sha : Sha256} {id : String} {row : Option DeviceCommand}
    {record : Option ControlCommand} {now : Instant} {tick : Int} {result : DeviceCommand}
    {delivery : ControlDelivery}
    (h : (stageDecide sha id row record now tick).run p = (.ok (result, delivery), p')) :
    ∃ row' record' window, row = some row' ∧ record = some record' ∧
      Stageable id p row' record' window tick ∧
      result = { row' with dispatchStartedAt := some now } ∧
      delivery = ⟨record'.wirePayload, id, p.proc.authority.clock.epoch, window.deadline,
        window.deadline, false⟩ ∧ p' = p := by
  unfold stageDecide at h
  rw [run_bind_authority] at h
  split at h
  · rename_i row' record' window hw
    split at h
    · simp at h
    · rename_i hok
      simp only [not_or, not_not, Bool.not_eq_false, Bool.not_eq_true, not_le,
        Option.isSome_eq_false_iff, Option.isNone_iff_eq_none, ne_eq] at hok
      simp only [Call.run_pure, Prod.mk.injEq, Except.ok.injEq] at h
      obtain ⟨⟨rfl, rfl⟩, rfl⟩ := h
      obtain ⟨he, hp, hs, hi, -, -, hd⟩ := hok
      exact ⟨row', record', window, rfl, rfl, ⟨hw, he, hp, hs, hi, hd⟩, rfl, rfl, rfl⟩
  · simp at h

/-- What `request` has checked before it grants anything. -/
structure Grantable (sha : Sha256) (p : Port) (request : PermitRequest) (row : DeviceCommand)
    (record : ControlCommand) (window : Window) (tick : Int) : Prop where
  found : p.proc.authority.windows.get? request.commandId = some window
  requestEpoch : request.coreEpoch = p.proc.authority.clock.epoch
  epoch : record.authorityEpoch = p.proc.authority.clock.epoch
  intent : request.intentSha256 = record.wireSha256
  pending : row.status.pending = true
  staged : row.dispatchStartedAt.isSome = true
  identity : window.identity = row.identity
  early : tick < window.deadline

/-- What a decision of `request` says. -/
def Decides (sha : Sha256) (house device : String) (request : PermitRequest) (p : Port)
    (now : Instant) (tick : Int) (row : DeviceCommand) (record : ControlCommand)
    (window : Window) : Decision → Prop
  | .cached row' record' delivery =>
    row' = row ∧ record' = record ∧
      record.permitBindingSha256 = some (sha.hex (contextText house device request)) ∧
      p.proc.authority.replies.get? row.commandId =
        some (sha.hex (contextText house device request), delivery)
  | .fresh g =>
    record.permitBindingSha256 = none ∧ 0 < g.remaining ∧
      g.remaining = min permitUs (window.deadline - tick) - 1 ∧
      g = { house, device, request, row, record, window, now, tick
            remaining := g.remaining
            binding := sha.hex (contextText house device request)
            delivery := {
              payload := grantPayload request now row.expiresAt g.remaining
              commandId := row.commandId
              epoch := p.proc.authority.clock.epoch
              deadlineTick := window.deadline
              validUntilTick := tick + g.remaining
              grant := true } }

theorem requestDecide_ok {sha : Sha256} {house device : String} {request : PermitRequest}
    {row : Option DeviceCommand} {record : Option ControlCommand} {now : Instant} {tick : Int}
    {d : Decision}
    (h : (requestDecide sha house device request row record now tick).run p = (.ok d, p')) :
    ∃ row' record' window, row = some row' ∧ record = some record' ∧
      Grantable sha p request row' record' window tick ∧
      Decides sha house device request p now tick row' record' window d := by
  unfold requestDecide at h
  rw [run_bind_authority] at h
  split at h
  · rename_i row' record' window hw
    split at h
    · simp at h
    rename_i hok
    simp only [not_or, not_not, Bool.not_eq_false, ne_eq] at hok
    obtain ⟨-, hre, he, hi, -, -, hp, hs, hid⟩ := hok
    split at h
    · simp at h
    rename_i hearly
    have hg : Grantable sha p request row' record' window tick :=
      ⟨hw, hre, he, hi, hp, Option.isSome_iff_ne_none.mpr hs, hid, by omega⟩
    refine ⟨row', record', window, rfl, rfl, hg, ?_⟩
    dsimp only at h
    split at h
    · rename_i bound hb
      split at h
      · rename_i context delivery hrep
        split at h
        · rename_i hsame
          obtain ⟨rfl, rfl, -⟩ := hsame
          simp only [Call.run_pure, Prod.mk.injEq, Except.ok.injEq] at h
          obtain ⟨rfl, -⟩ := h
          exact ⟨rfl, rfl, hb, hrep⟩
        · simp at h
      · simp at h
    · rename_i hnone
      obtain ⟨_, p₁, hlim, h⟩ := Call.run_bind_ok.mp h
      have hc := (limit_moves house device tick).of_run hlim |>.clock_eq
      rw [run_bind_modify, run_bind_authority] at h
      split at h
      · simp at h
      split at h
      · simp at h
      rename_i hrem
      simp only [Call.run_pure, Prod.mk.injEq, Except.ok.injEq] at h
      obtain ⟨rfl, -⟩ := h
      refine ⟨hnone, by dsimp only; omega, rfl, ?_⟩
      dsimp only
      rw [hc]
  · simp at h

/-- A fresh grant leaves room for its reply. -/
theorem requestDecide_room {sha : Sha256} {house device : String} {request : PermitRequest}
    {row : Option DeviceCommand} {record : Option ControlCommand} {now : Instant} {tick : Int}
    {g : Grant}
    (h : (requestDecide sha house device request row record now tick).run p =
      (.ok (.fresh g), p')) : p'.proc.authority.replies.size < maxReplies := by
  unfold requestDecide at h
  rw [run_bind_authority] at h
  split at h
  · split at h
    · simp at h
    split at h
    · simp at h
    dsimp only at h
    split at h
    · split at h
      · split at h
        · simp at h
        · simp at h
      · simp at h
    · obtain ⟨_, p₁, -, h⟩ := Call.run_bind_ok.mp h
      rw [run_bind_modify, run_bind_authority] at h
      split at h
      · simp at h
      rename_i hroom
      split at h
      · simp at h
      simp only [Call.run_pure, Prod.mk.injEq] at h
      rw [← h.2]
      exact Nat.lt_of_not_le hroom
  · simp at h

end ControlAuthority

namespace CommandService

variable {p p' : Port}

theorem now_moves : Call.Moves Port.Ticks now := .clocked ControlClock.readNow_moves

theorem eventTime_moves (control : Option ControlCommand) :
    Call.Moves Port.Ticks (eventTime control) := by
  cases control with
  | none => exact now_moves
  | some _ => exact .clocked ControlClock.logicalNow_moves

theorem finish_moves (row : DeviceCommand) (control : Option ControlCommand)
    (status : CommandStatus) (code : Option FailureCode) :
    Call.Moves Port.Ticks (finish row control status code) :=
  .bind (fun _ _ _ => .trans) (eventTime_moves control) fun _ => .pure .refl _

theorem overdue_moves (row : DeviceCommand) (control : Option ControlCommand) :
    Call.Moves Port.Ticks (overdue row control) := by
  cases control with
  | none => exact .bind (fun _ _ _ => .trans) now_moves fun _ => .pure .refl _
  | some record => exact ControlAuthority.expired_moves record

theorem expire_moves (row : DeviceCommand) (control : Option ControlCommand) :
    Call.Moves Port.Ticks (expire row control) := by
  unfold expire
  split
  · exact .pure .refl _
  · refine .bind (fun _ _ _ => .trans) (overdue_moves row control) fun late => ?_
    split
    · exact finish_moves _ _ _ _
    · exact .pure .refl _

theorem confirm_moves (row : DeviceCommand) (control : Option ControlCommand) :
    Call.Moves Port.Ticks (confirm row control) := by
  unfold confirm
  split
  · exact finish_moves _ _ _ _
  · exact .pure .refl _

theorem orRead_moves {c : Call Port Error Instant} (h : Call.Moves Port.Ticks c)
    (column : Option Instant) : Call.Moves Port.Ticks (orRead column c) := by
  cases column with
  | none => exact h
  | some t => exact .pure .refl t

theorem ack_moves (row : DeviceCommand) (control : Option ControlCommand) (envelope : AckEnvelope)
    (retained : Bool) : Call.Moves Port.Ticks (ack row control envelope retained) := by
  refine .bind (fun _ _ _ => .trans) (expire_moves row control) fun row => ?_
  split
  · exact .pure .refl _
  split
  · exact .pure .refl _
  split
  · refine .bind (fun _ _ _ => .trans) (eventTime_moves control) fun received => ?_
    refine .bind (fun _ _ _ => .trans) (eventTime_moves control) fun updated => ?_
    dsimp only
    split
    · exact finish_moves _ _ _ _
    · exact .bind (fun _ _ _ => .trans) (orRead_moves (eventTime_moves control) _)
        fun _ => confirm_moves _ _
  · exact .pure .refl _

theorem state_moves (row : DeviceCommand) (control : Option ControlCommand)
    (envelope : StateEnvelope) (retained : Bool) :
    Call.Moves Port.Ticks (state row control envelope retained) := by
  refine .bind (fun _ _ _ => .trans) (expire_moves row control) fun row => ?_
  split
  · split
    · refine .bind (fun _ _ _ => .trans) (eventTime_moves control) fun received => ?_
      exact .bind (fun _ _ _ => .trans) (eventTime_moves control) fun updated =>
        confirm_moves _ _
    · exact .pure .refl _
  · exact .pure .refl _

theorem settle_moves (row : DeviceCommand) (control : Option ControlCommand) (published : Bool) :
    Call.Moves Port.Ticks (settle row control published) := by
  refine .bind (fun _ _ _ => .trans) (expire_moves row control) fun row => ?_
  split
  · exact .pure .refl _
  split
  · refine .bind (fun _ _ _ => .trans) (orRead_moves now_moves _) fun _ => ?_
    exact .bind (fun _ _ _ => .trans) now_moves fun _ => .pure .refl _
  · exact finish_moves _ _ _ _

end CommandService

/-- Deciding a job only reads clocks. -/
theorem Job.decide_moves (job : Job) (row : DeviceCommand) (control : Option ControlCommand) :
    Call.Moves Port.Ticks (job.decide row control) := by
  cases job with
  | read => exact CommandService.expire_moves row control
  | settle published => exact CommandService.settle_moves row control published
  | ack _ _ envelope retained => exact CommandService.ack_moves row control envelope retained
  | state _ _ envelope retained => exact CommandService.state_moves row control envelope retained

end KzHome

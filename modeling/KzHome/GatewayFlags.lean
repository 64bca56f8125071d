import KzHome.GatewayLoop
import Mathlib

/-!
# KzHome.GatewayFlags

The flags and the events of the MQTT gateway.

`run` is the loop of `KzHome.GatewayLoop`, and calls of `stop` run beside it, as many as are
made: the first of them cancels the task and waits for its end, if there is one, and each
disconnects on its own account when it finds the gateway connected. What there is to be
truthful about are ghosts: the connection with the subscriptions that succeeded on it, the
events that were published, and what the loop slept and received.

**Flags** (`flags_truthful`): a flag that is set is true of the connection there is, the
events alternate, and the back-off doubles until a message resets it.
-/

namespace KzHome

open GatewayLoop

namespace GatewayLoop

/-- What the gateway publishes about its connection. -/
inductive Notice
  /-- `mqtt_connected` -/
  | connected
  /-- `mqtt_disconnected` -/
  | disconnected
  deriving DecidableEq, Repr

/-- What the back-off depends on. -/
inductive Beat
  | attempt
  | message
  | slept (seconds : Rat)
  deriving DecidableEq, Repr

/-- Where a call of `stop` is. -/
inductive Caller
  /-- `await asyncio.gather(task, return_exceptions=True)` -/
  | gathering
  /-- `await self.client.disconnect()`, of a gateway that was connected -/
  | disconnecting
  /-- Subscribers of `mqtt_disconnected`, from the one that is awaited on. -/
  | farewell (left : Nat)
  | over
  deriving DecidableEq, Repr

end GatewayLoop

/-- The gateway while `run` runs: `task` tells whether there is a task to be cancelled. The
last three members are ghosts; there is a connection from the return of `client.connect` to
the call of `client.disconnect`. -/
structure Gateway where
  loop : GatewayLoop
  task : Bool
  callers : List Caller
  connection : Option (List Inbound)
  notices : List Notice
  beats : List Beat

namespace Gateway

/-- What can happen next. -/
inductive Event
  /-- Something comes of the await of `run`. -/
  | run (outcome : Outcome)
  /-- `stop` is called. -/
  | stop
  /-- Something comes of the await of a call of `stop`. -/
  | caller (index : Nat) (outcome : Outcome)
  deriving DecidableEq, Repr

variable (cfg : Settings) (gw : Gateway)

/-! ### What a step of the loop means -/

/-- The connection after an outcome. -/
def connectionAfter (g g' : GatewayLoop) (o : Outcome) (c : Option (List Inbound)) :
    Option (List Inbound) :=
  match g'.await, g.await, o with
  | .disconnect _ _, _, _ => none
  | _, .connect, .ok => some []
  | _, .subscribe kind _, .ok => c.map (kind :: ·)
  | _, _, _ => c

/-- The events that are published after an outcome. -/
def noticesAfter (g g' : GatewayLoop) (o : Outcome) : List Notice :=
  if !g.connected && g'.connected then [.connected]
  else
    match g.await, o with
    | .disconnect true _, .ok => [.disconnected]
    | .disconnect true _, .raised => [.disconnected]
    | _, _ => []

/-- What the back-off sees of an outcome. -/
def beatsAfter (g g' : GatewayLoop) (o : Outcome) : List Beat :=
  match g.await, o, g'.await with
  | .messages, .ok, _ => [.message]
  | _, _, .sleep => [.slept g'.backoff]
  | _, _, .connect => [.attempt]
  | _, _, _ => []

/-! ### Steps -/

/-- Something comes of the await of `run`. -/
def proceed (o : Outcome) : Option Gateway :=
  if o = .stop then none
  else (GatewayLoop.step cfg gw.loop o).map fun g' =>
    { gw with
      loop := g'
      connection := connectionAfter gw.loop g' o gw.connection
      notices := gw.notices ++ noticesAfter gw.loop g' o
      beats := gw.beats ++ beatsAfter gw.loop g' o }

/-- `if self.connected: await self._disconnect()`: what it makes of the gateway, and where
the caller is then. -/
def release : Gateway × Caller :=
  if gw.loop.connected then
    ({ gw with
      loop := { gw.loop with controlSubscribed := false, connected := false }
      connection := none }, .disconnecting)
  else (gw, .over)

/-- A call of `stop`, up to its first await. -/
def stop : Gateway :=
  let stopping := { gw with loop := { gw.loop with stopping := true }, task := false }
  if gw.task then { stopping with callers := gw.callers ++ [.gathering] }
  else { stopping.release.1 with callers := gw.callers ++ [stopping.release.2] }

/-- `publish(mqtt_disconnected)` of a caller, with this many subscribers left. -/
def parting : Nat → Caller
  | 0 => .over
  | left => .farewell left

/-- Something comes of the await of a call of `stop`. -/
def resume (index : Nat) (o : Outcome) : Option Gateway :=
  match gw.callers[index]?, o with
  | some .gathering, .ok =>
    if gw.loop.await = .gone then
      some { gw.release.1 with callers := gw.callers.set index gw.release.2 }
    else none
  | some .disconnecting, .ok =>
    some { gw with
      callers := gw.callers.set index (parting cfg.subscribers)
      notices := gw.notices ++ [.disconnected] }
  -- MQTT disconnect failed
  | some .disconnecting, .raised =>
    some { gw with
      callers := gw.callers.set index (parting cfg.subscribers)
      notices := gw.notices ++ [.disconnected] }
  | some (.farewell left), .ok =>
    some { gw with callers := gw.callers.set index (parting (left - 1)) }
  | some (.farewell _), .raised => some { gw with callers := gw.callers.set index .over }
  | some .over, _ => none
  | some _, .cancelled => some { gw with callers := gw.callers.set index .over }
  | _, _ => none

/-- The gateway as a transition system. -/
def system : Transition.System Gateway Event where
  step gw
    | .run o => gw.proceed cfg o
    | .stop => some gw.stop
    | .caller index o => gw.resume cfg index o

/-- The gateway when `run` starts, as a task or not. -/
def start (task : Bool) : Gateway := ⟨GatewayLoop.start cfg, task, [], none, [], [.attempt]⟩

/-! ### What is to be shown -/

/-- The events alternate, from `mqtt_connected` on; the flag tells whether the last one is
`mqtt_connected`. -/
inductive Alternating : List Notice → Bool → Prop
  | nil : Alternating [] false
  | connected {l : List Notice} (h : Alternating l false) : Alternating (l ++ [.connected]) true
  | disconnected {l : List Notice} (h : Alternating l true) :
      Alternating (l ++ [.disconnected]) false

/-- The pace of the attempts: `next` is the back-off that comes next, and the flag tells
whether an attempt is going on. After each attempt the loop sleeps the back-off and doubles
it up to the maximum, and a message puts it back. -/
inductive Paced : List Beat → Rat → Bool → Prop
  | nil : Paced [] cfg.initialBackoff false
  | attempt {l : List Beat} {next : Rat} (h : Paced l next false) :
      Paced (l ++ [.attempt]) next true
  | message {l : List Beat} {next : Rat} (h : Paced l next true) :
      Paced (l ++ [.message]) cfg.initialBackoff true
  | slept {l : List Beat} {next : Rat} (h : Paced l next true) :
      Paced (l ++ [.slept next]) (min (next * 2) cfg.maximumBackoff) false

end Gateway

namespace GatewayLoop

variable (cfg : Settings)

/-- Connecting. -/
def Await.reaching : Await → Bool
  | .connect | .subscribe _ _ => true
  | _ => false

/-- Connected. -/
def Await.up : Await → Bool
  | .announce _ | .messages | .handle => true
  | _ => false

/-- What an outcome of an await of `run` makes of the loop. -/
inductive Moves (g : GatewayLoop) (o : Outcome) (g' : GatewayLoop) : Prop
  | connects (ha : g.await = .connect) (ho : o = .ok)
      (h : g' = { g with controlSubscribed := false }.subscribing cfg subscriptionTopics)
  | subscribes (kind : Inbound) (rest : List Inbound) (ha : g.await = .subscribe kind rest)
      (ho : o = .ok) (h : g' = { g with
        controlSubscribed := g.controlSubscribed || kind = Inbound.controlRequest }.subscribing
          cfg rest)
  | continues (rest : List Inbound) (ha : g.await = .subscribe .controlRequest rest)
      (ho : o = .raised) (h : g' = g.subscribing cfg rest)
  | greets (left : Nat) (ha : g.await = .announce left) (ho : o = .ok)
      (h : g' = g.greet (left - 1))
  | receives (ha : g.await = .messages) (ho : o = .ok)
      (h : g' = { g with backoff := cfg.initialBackoff, await := .handle })
  | handles (ha : g.await = .handle) (h : g' = { g with await := .messages })
  | fails (unwinding cancelled : Bool) (ha : g.await.reaching = true ∨ g.await.up = true)
      (ho : o ≠ .ok) (h : g' = { g with cancelled := cancelled }.cleanUp unwinding)
  | parts (was unwinding : Bool) (ha : g.await = .disconnect was unwinding)
      (ho : o = .ok ∨ o = .raised)
      (h : g' = g.dismiss (if was then cfg.subscribers else 0) unwinding)
  | dismisses (left : Nat) (unwinding : Bool) (ha : g.await = .farewell left unwinding)
      (ho : o = .ok) (h : g' = g.dismiss (left - 1) unwinding)
  | wakes (ha : g.await = .sleep) (ho : o = .ok)
      (h : g' = { g with backoff := min (g.backoff * 2) cfg.maximumBackoff }.loop)
  | ends (cancelled : Bool) (ha : (∃ was unwinding, g.await = .disconnect was unwinding) ∨
        (∃ left unwinding, g.await = .farewell left unwinding) ∨ g.await = .sleep)
      (ho : o = .cancelled ∨ o = .raised ∧ ∃ left unwinding, g.await = .farewell left unwinding)
      (h : g' = { g with cancelled := cancelled, await := .gone })

variable {cfg}

/-- **Inversion** of a step of the loop. -/
theorem moves_of_step {g g' : GatewayLoop} {o : Outcome} (h : step cfg g o = some g')
    (ho : o ≠ .stop) : Moves cfg g o g' := by
  unfold step at h
  split at h
  · exact absurd rfl ho
  · exact .connects ‹_› rfl (Option.some.inj h).symm
  · exact .subscribes _ _ ‹_› rfl (Option.some.inj h).symm
  · rename_i kind rest ha
    split at h
    · rename_i hkind
      exact .continues rest (hkind ▸ ha) rfl (Option.some.inj h).symm
    · exact .fails false g.cancelled (.inl (by rw [ha]; rfl)) nofun (Option.some.inj h).symm
  · exact .greets _ ‹_› rfl (Option.some.inj h).symm
  · exact .receives ‹_› rfl (Option.some.inj h).symm
  · rename_i ha
    exact .fails false g.cancelled (.inr (by rw [ha]; rfl)) nofun (Option.some.inj h).symm
  · exact .handles ‹_› (Option.some.inj h).symm
  · exact .handles ‹_› (Option.some.inj h).symm
  · rename_i ha
    exact .fails false g.cancelled (.inl (by rw [ha]; rfl)) nofun (Option.some.inj h).symm
  · rename_i ha
    exact .fails false g.cancelled (.inr (by rw [ha]; rfl)) nofun (Option.some.inj h).symm
  · rename_i ha
    exact .fails false g.cancelled (.inr (by rw [ha]; rfl)) nofun (Option.some.inj h).symm
  · rename_i ha
    exact .fails true true (.inl (by rw [ha]; rfl)) nofun (Option.some.inj h).symm
  · rename_i ha
    exact .fails true true (.inl (by rw [ha]; rfl)) nofun (Option.some.inj h).symm
  · rename_i ha
    exact .fails true true (.inr (by rw [ha]; rfl)) nofun (Option.some.inj h).symm
  · rename_i ha
    exact .fails true true (.inr (by rw [ha]; rfl)) nofun (Option.some.inj h).symm
  · rename_i ha
    exact .fails true true (.inr (by rw [ha]; rfl)) nofun (Option.some.inj h).symm
  · exact .parts _ _ ‹_› (.inl rfl) (Option.some.inj h).symm
  · exact .parts _ _ ‹_› (.inr rfl) (Option.some.inj h).symm
  · rename_i was unwinding ha
    exact .ends true (.inl ⟨was, unwinding, ha⟩) (.inl rfl) (Option.some.inj h).symm
  · exact .dismisses _ _ ‹_› rfl (Option.some.inj h).symm
  · rename_i left unwinding ha
    exact .ends g.cancelled (.inr (.inl ⟨left, unwinding, ha⟩)) (.inr ⟨rfl, left, unwinding, ha⟩)
      (Option.some.inj h).symm
  · rename_i left unwinding ha
    exact .ends true (.inr (.inl ⟨left, unwinding, ha⟩)) (.inl rfl) (Option.some.inj h).symm
  · exact .wakes ‹_› rfl (Option.some.inj h).symm
  · exact .ends true (.inr (.inr ‹_›)) (.inl rfl) (Option.some.inj h).symm
  · cases h

/-! ### Where the loop goes -/

theorem greet_eq (g : GatewayLoop) (left : Nat) :
    ∃ a, a.up = true ∧ g.greet left = { g with await := a } := by
  cases left with
  | zero => exact ⟨.messages, rfl, rfl⟩
  | succ left => exact ⟨.announce (left + 1), rfl, rfl⟩

theorem subscribing_eq (cfg : Settings) (g : GatewayLoop) (kinds : List Inbound) :
    (kinds = [] ∧ ∃ a, a.up = true ∧
        g.subscribing cfg kinds = { g with connected := true, await := a }) ∨
      ∃ kind rest, kinds = kind :: rest ∧
        g.subscribing cfg kinds = { g with await := .subscribe kind rest } := by
  cases kinds with
  | nil =>
      obtain ⟨a, ha, heq⟩ := greet_eq { g with connected := true } cfg.subscribers
      exact .inl ⟨rfl, a, ha, heq⟩
  | cons kind rest => exact .inr ⟨kind, rest, rfl, rfl⟩

theorem loop_eq (g : GatewayLoop) :
    g.stopping = true ∧ g.loop = { g with await := .gone } ∨
      g.stopping = false ∧ g.loop = { g with await := .connect, acts := g.acts ++ [.attempt] } := by
  unfold loop
  cases hs : g.stopping with
  | true => exact .inl ⟨rfl, rfl⟩
  | false => exact .inr ⟨rfl, rfl⟩

/-- What comes after the disconnection. -/
inductive After (g : GatewayLoop) (unwinding : Bool) : Await → Prop
  | farewell (left : Nat) : After g unwinding (.farewell left unwinding)
  | sleep (h : g.stopping = false) : After g unwinding .sleep
  | gone : After g unwinding .gone

theorem dismiss_eq (g : GatewayLoop) (left : Nat) (unwinding : Bool) :
    ∃ a acts, After g unwinding a ∧ g.dismiss left unwinding = { g with await := a, acts } := by
  cases left with
  | succ left => exact ⟨_, g.acts, .farewell (left + 1), rfl⟩
  | zero =>
      simp only [GatewayLoop.dismiss, cleaned]
      cases unwinding with
      | true => exact ⟨_, g.acts, .gone, rfl⟩
      | false =>
          obtain ⟨hs, heq⟩ | ⟨hs, heq⟩ := loop_eq g
          · exact ⟨_, g.acts, .gone, by simp [hs, heq]⟩
          · exact ⟨_, _, .sleep hs, by simp [hs]; rfl⟩

end GatewayLoop

namespace Gateway

variable {cfg : Settings} {gw gw' : Gateway} {o : Outcome}

/-! ### The flags -/

/-- The flags are true of the connection, and the subscriptions go on in their order. -/
structure Truthful (gw : Gateway) : Prop where
  connected : gw.loop.connected = true → gw.loop.await.up = true ∧
    ∃ subs, gw.connection = some subs ∧
      ∀ kind ∈ subscriptionTopics, kind ≠ .controlRequest → kind ∈ subs
  control : gw.loop.controlSubscribed = true →
    (gw.loop.await.up = true ∨ ∃ kind rest, gw.loop.await = .subscribe kind rest) ∧
      ∃ subs, gw.connection = some subs ∧ .controlRequest ∈ subs
  subscribing : ∀ kind rest, gw.loop.await = .subscribe kind rest →
    gw.loop.connected = false ∧ ∃ subs done, gw.connection = some subs ∧
      subscriptionTopics = done ++ kind :: rest ∧ ∀ k ∈ done, k ≠ .controlRequest → k ∈ subs

/-- The loop goes on to the next subscription, or has made them all. -/
theorem truthful_subscribing (g : GatewayLoop) (subs done : List Inbound) {rest : List Inbound}
    (hdown : g.connected = false)
    (hcontrol : g.controlSubscribed = true → .controlRequest ∈ subs)
    (hsplit : subscriptionTopics = done ++ rest)
    (hdone : ∀ k ∈ done, k ≠ .controlRequest → k ∈ subs)
    (hloop : gw.loop = g.subscribing cfg rest) (hconnection : gw.connection = some subs) :
    Truthful gw := by
  obtain ⟨rfl, a, ha, heq⟩ | ⟨kind, rest, rfl, heq⟩ := subscribing_eq cfg g rest
  · rw [heq] at hloop
    rw [List.append_nil] at hsplit
    have hup : gw.loop.await.up = true := by rw [hloop]; exact ha
    refine ⟨fun _ => ⟨hup, subs, hconnection, hsplit ▸ hdone⟩,
      fun h => ⟨.inl hup, subs, hconnection, hcontrol (by rw [hloop] at h; exact h)⟩,
      fun kind rest h => ?_⟩
    rw [h] at hup
    cases hup
  · rw [heq] at hloop
    refine ⟨fun h => ?_, fun h => ⟨.inr ⟨kind, rest, by rw [hloop]⟩, subs, hconnection,
      hcontrol (by rw [hloop] at h; exact h)⟩, fun kind' rest' h => ?_⟩
    · rw [hloop] at h
      rw [show g.connected = true from h] at hdown
      cases hdown
    · rw [hloop] at h
      obtain ⟨rfl, rfl⟩ := Await.subscribe.inj h
      exact ⟨by rw [hloop]; exact hdown, subs, done, hconnection, hsplit, hdone⟩

/-- No connection, no flags. -/
theorem truthful_down (hconnected : gw.loop.connected = false)
    (hcontrol : gw.loop.controlSubscribed = false)
    (hawait : ∀ kind rest, gw.loop.await ≠ .subscribe kind rest) : Truthful gw := by
  refine ⟨fun h => ?_, fun h => ?_, fun kind rest h => absurd h (hawait kind rest)⟩
  · rw [hconnected] at h
    cases h
  · rw [hcontrol] at h
    cases h

/-- Everything about the connection is as it was. -/
theorem Truthful.same (h : Truthful gw) (hup' : gw'.loop.await.up = true)
    (hconnected : gw'.loop.connected = gw.loop.connected)
    (hcontrol : gw'.loop.controlSubscribed = gw.loop.controlSubscribed)
    (hconnection : gw'.connection = gw.connection) : Truthful gw' := by
  refine ⟨fun h' => ⟨hup', ?_⟩, fun h' => ⟨.inl hup', ?_⟩, fun kind rest ha => ?_⟩
  · rw [hconnection]
    exact (h.connected (hconnected ▸ h')).2
  · rw [hconnection]
    exact (h.control (hcontrol ▸ h')).2
  · rw [ha] at hup'
    cases hup'

/-- Outside of an attempt the flags are down. -/
theorem Truthful.down (h : Truthful gw) (hup : gw.loop.await.up = false)
    (hsubscribe : ∀ kind rest, gw.loop.await ≠ .subscribe kind rest) :
    gw.loop.connected = false ∧ gw.loop.controlSubscribed = false := by
  constructor
  · rw [← Bool.not_eq_true]
    intro hc
    rw [(h.connected hc).1] at hup
    cases hup
  · rw [← Bool.not_eq_true]
    intro hc
    obtain ⟨hup' | ⟨kind, rest, ha⟩, -⟩ := h.control hc
    · rw [hup'] at hup
      cases hup
    · exact hsubscribe kind rest ha

/-- What `proceed` makes of a gateway. -/
theorem proceed_eq (h : gw.proceed cfg o = some gw') :
    Moves cfg gw.loop o gw'.loop ∧ gw' = { gw with
      loop := gw'.loop
      connection := connectionAfter gw.loop gw'.loop o gw.connection
      notices := gw.notices ++ noticesAfter gw.loop gw'.loop o
      beats := gw.beats ++ beatsAfter gw.loop gw'.loop o } := by
  unfold proceed at h
  split at h
  · cases h
  · rename_i ho
    obtain ⟨g', hstep, rfl⟩ := Option.map_eq_some_iff.mp h
    exact ⟨moves_of_step hstep ho, rfl⟩

/-- A connection stays as it is while the loop neither connects nor disconnects and no
subscription succeeds. -/
theorem connectionAfter_same {g g' : GatewayLoop} {c : Option (List Inbound)}
    (hclose : ∀ was unwinding, g'.await ≠ .disconnect was unwinding)
    (hok : o = .ok → g.await ≠ .connect ∧ ∀ kind rest, g.await ≠ .subscribe kind rest) :
    connectionAfter g g' o c = c := by
  unfold connectionAfter
  split
  · exact absurd ‹_› (hclose _ _)
  · exact absurd ‹_› (hok rfl).1
  · exact absurd ‹_› ((hok rfl).2 _ _)
  · rfl

theorem connectionAfter_connect {g g' : GatewayLoop} {c : Option (List Inbound)}
    (hclose : ∀ was unwinding, g'.await ≠ .disconnect was unwinding) (ha : g.await = .connect) :
    connectionAfter g g' .ok c = some [] := by
  unfold connectionAfter
  rw [ha]
  cases hg : g'.await with
  | disconnect was unwinding => exact absurd hg (hclose was unwinding)
  | _ => rfl

theorem connectionAfter_subscribe {g g' : GatewayLoop} {c : Option (List Inbound)} {kind : Inbound}
    {rest : List Inbound} (hclose : ∀ was unwinding, g'.await ≠ .disconnect was unwinding)
    (ha : g.await = .subscribe kind rest) :
    connectionAfter g g' .ok c = c.map (kind :: ·) := by
  unfold connectionAfter
  rw [ha]
  cases hg : g'.await with
  | disconnect was unwinding => exact absurd hg (hclose was unwinding)
  | _ => rfl

/-- The loop over the subscriptions does not disconnect. -/
theorem subscribing_await {g : GatewayLoop} {kinds : List Inbound} (was unwinding : Bool) :
    (g.subscribing cfg kinds).await ≠ .disconnect was unwinding := by
  obtain ⟨-, a, hup, heq⟩ | ⟨kind, rest, -, heq⟩ := subscribing_eq cfg g kinds
  · rw [heq]
    intro h
    have h : a = .disconnect was unwinding := h
    subst h
    cases hup
  · rw [heq]
    nofun

/-- **One outcome of `run`** keeps the flags truthful. -/
theorem Truthful.proceed (h : Truthful gw) (hp : gw.proceed cfg o = some gw') : Truthful gw' := by
  obtain ⟨hmoves, heq⟩ := proceed_eq hp
  have hconnection : gw'.connection = connectionAfter gw.loop gw'.loop o gw.connection := by
    rw [heq]
  have hdown : ∀ g : GatewayLoop, gw.loop.await.up = false →
      (∀ kind rest, gw.loop.await ≠ .subscribe kind rest) → gw'.loop = g →
      g.connected = gw.loop.connected → g.controlSubscribed = gw.loop.controlSubscribed →
      (∀ kind rest, g.await ≠ .subscribe kind rest) → Truthful gw' := by
    intro g hup hsubscribe hg hconnected hcontrol hawait
    obtain ⟨hc, hs⟩ := h.down hup hsubscribe
    subst hg
    exact truthful_down (hconnected.trans hc) (hcontrol.trans hs) hawait
  cases hmoves with
  | connects ha ho hg =>
      have hc := (h.down (by rw [ha]; rfl) (by rw [ha]; nofun)).1
      refine truthful_subscribing { gw.loop with controlSubscribed := false } [] [] hc nofun rfl
        (fun _ hk => nomatch hk) hg ?_
      rw [hconnection, hg, ho, connectionAfter_connect subscribing_await ha]
  | subscribes kind rest ha ho hg =>
      obtain ⟨hc, subs, done, hsubs, hsplit, hdone⟩ := h.subscribing kind rest ha
      refine truthful_subscribing { gw.loop with
        controlSubscribed := gw.loop.controlSubscribed || kind = Inbound.controlRequest }
        (kind :: subs) (done ++ [kind]) hc ?_ ?_ ?_ hg ?_
      · intro hcontrol
        obtain hold | hkind := Bool.or_eq_true_iff.mp hcontrol
        · obtain ⟨-, subs', hsubs', hmem⟩ := h.control hold
          obtain rfl := Option.some.inj (hsubs.symm.trans hsubs')
          exact List.mem_cons_of_mem _ hmem
        · exact of_decide_eq_true hkind ▸ List.mem_cons_self
      · rw [List.append_assoc]
        exact hsplit
      · intro k hk hne
        obtain hk | hk := List.mem_append.mp hk
        · exact List.mem_cons_of_mem _ (hdone k hk hne)
        · exact List.mem_singleton.mp hk ▸ List.mem_cons_self
      · rw [hconnection, hg, ho, connectionAfter_subscribe subscribing_await ha, hsubs,
          Option.map_some]
  | continues rest ha ho hg =>
      obtain ⟨hc, subs, done, hsubs, hsplit, hdone⟩ := h.subscribing .controlRequest rest ha
      refine truthful_subscribing gw.loop subs (done ++ [.controlRequest]) hc ?_ ?_ ?_ hg ?_
      · intro hcontrol
        obtain ⟨-, subs', hsubs', hmem⟩ := h.control hcontrol
        obtain rfl := Option.some.inj (hsubs.symm.trans hsubs')
        exact hmem
      · rw [List.append_assoc]
        exact hsplit
      · intro k hk hne
        obtain hk | hk := List.mem_append.mp hk
        · exact hdone k hk hne
        · exact absurd (List.mem_singleton.mp hk) hne
      · rw [hconnection, hg, ho, connectionAfter_same (o := .raised) subscribing_await nofun, hsubs]
  | greets left ha ho hg =>
      obtain ⟨a, hup, heq⟩ := greet_eq gw.loop (left - 1)
      rw [heq] at hg
      refine h.same (by rw [hg]; exact hup) (by rw [hg]) (by rw [hg]) ?_
      rw [hconnection, hg]
      refine connectionAfter_same (fun was unwinding hw => ?_)
        fun _ => by rw [ha]; exact ⟨nofun, nofun⟩
      have hw : a = .disconnect was unwinding := hw
      subst hw
      cases hup
  | receives ha ho hg =>
      refine h.same (by rw [hg]; rfl) (by rw [hg]) (by rw [hg]) ?_
      rw [hconnection, hg]
      exact connectionAfter_same nofun fun _ => by rw [ha]; exact ⟨nofun, nofun⟩
  | handles ha hg =>
      refine h.same (by rw [hg]; rfl) (by rw [hg]) (by rw [hg]) ?_
      rw [hconnection, hg]
      exact connectionAfter_same nofun fun _ => by rw [ha]; exact ⟨nofun, nofun⟩
  | fails unwinding cancelled ha ho hg =>
      exact truthful_down (by rw [hg]; rfl) (by rw [hg]; rfl) (by rw [hg]; nofun)
  | parts was unwinding ha ho hg =>
      obtain ⟨a, acts, hafter, heq⟩ :=
        dismiss_eq gw.loop (if was then cfg.subscribers else 0) unwinding
      refine hdown _ (by rw [ha]; rfl) (by rw [ha]; nofun) (hg.trans heq) rfl rfl ?_
      cases hafter <;> nofun
  | dismisses left unwinding ha ho hg =>
      obtain ⟨a, acts, hafter, heq⟩ := dismiss_eq gw.loop (left - 1) unwinding
      refine hdown _ (by rw [ha]; rfl) (by rw [ha]; nofun) (hg.trans heq) rfl rfl ?_
      cases hafter <;> nofun
  | wakes ha ho hg =>
      obtain ⟨-, heq⟩ | ⟨-, heq⟩ :=
        loop_eq { gw.loop with backoff := min (gw.loop.backoff * 2) cfg.maximumBackoff }
      · exact hdown _ (by rw [ha]; rfl) (by rw [ha]; nofun) (hg.trans heq) rfl rfl nofun
      · exact hdown _ (by rw [ha]; rfl) (by rw [ha]; nofun) (hg.trans heq) rfl rfl nofun
  | ends cancelled ha ho hg =>
      obtain ⟨was, unwinding, ha⟩ | ⟨left, unwinding, ha⟩ | ha := ha
      · exact hdown _ (by rw [ha]; rfl) (by rw [ha]; nofun) hg rfl rfl nofun
      · exact hdown _ (by rw [ha]; rfl) (by rw [ha]; nofun) hg rfl rfl nofun
      · exact hdown _ (by rw [ha]; rfl) (by rw [ha]; nofun) hg rfl rfl nofun

/-- What the loop reads of `stop`. -/
theorem Truthful.stopping (h : Truthful gw) : Truthful { gw with
    loop := { gw.loop with stopping := true }, task := false } :=
  ⟨h.connected, h.control, h.subscribing⟩

/-- A caller that disconnects takes the flags down with the connection. -/
theorem Truthful.release (h : Truthful gw) : Truthful gw.release.1 := by
  unfold Gateway.release
  split
  · rename_i hc
    have hup := (h.connected hc).1
    refine truthful_down rfl rfl fun kind rest ha => ?_
    have ha : gw.loop.await = .subscribe kind rest := ha
    rw [ha] at hup
    cases hup
  · exact h

theorem Truthful.stop (h : Truthful gw) : Truthful gw.stop := by
  unfold Gateway.stop
  split
  · exact ⟨h.connected, h.control, h.subscribing⟩
  · have hr := h.stopping.release
    exact ⟨hr.connected, hr.control, hr.subscribing⟩

/-- What an await of a caller makes of the gateway. -/
inductive Resumes (cfg : Settings) (gw : Gateway) (index : Nat) (gw' : Gateway) : Prop
  /-- The task is over. -/
  | gathered (hc : gw.callers[index]? = some .gathering) (ha : gw.loop.await = .gone)
      (h : gw' = { gw.release.1 with callers := gw.callers.set index gw.release.2 })
  | disconnected (hc : gw.callers[index]? = some .disconnecting)
      (h : gw' = { gw with
        callers := gw.callers.set index (parting cfg.subscribers)
        notices := gw.notices ++ [.disconnected] })
  /-- Nothing happens that the gateway or anybody else sees. -/
  | goes (c c' : Caller) (hc : gw.callers[index]? = some c) (hne : c' ≠ .disconnecting)
      (h : gw' = { gw with callers := gw.callers.set index c' })

theorem parting_ne (left : Nat) : parting left ≠ .disconnecting := by
  cases left <;> nofun

theorem resumes_of_resume {index : Nat} (h : gw.resume cfg index o = some gw') :
    Resumes cfg gw index gw' := by
  unfold resume at h
  split at h
  · split at h
    · exact .gathered ‹_› ‹_› (Option.some.inj h).symm
    · cases h
  · exact .disconnected ‹_› (Option.some.inj h).symm
  · exact .disconnected ‹_› (Option.some.inj h).symm
  · exact .goes _ _ ‹_› (parting_ne _) (Option.some.inj h).symm
  · exact .goes _ .over ‹_› nofun (Option.some.inj h).symm
  · cases h
  · exact .goes _ .over ‹_› nofun (Option.some.inj h).symm
  · cases h

theorem Truthful.resume (h : Truthful gw) {index : Nat} (hr : gw.resume cfg index o = some gw') :
    Truthful gw' := by
  obtain ⟨-, -, rfl⟩ | ⟨-, rfl⟩ | ⟨c, c', -, -, rfl⟩ := resumes_of_resume hr
  · have hr := h.release
    exact ⟨hr.connected, hr.control, hr.subscribing⟩
  · exact ⟨h.connected, h.control, h.subscribing⟩
  · exact ⟨h.connected, h.control, h.subscribing⟩

/-! ### The events -/

/-- An event `mqtt_disconnected` that is still to come of an await. -/
def owing : Await → Nat
  | .disconnect true _ => 1
  | _ => 0

/-- The events `mqtt_disconnected` that are still to come. -/
def debts (gw : Gateway) : Nat :=
  gw.loop.connected.toNat + owing gw.loop.await + gw.callers.countP (· = .disconnecting)

/-- The events alternate, and who owes one owes it for the last one. -/
structure Told (gw : Gateway) (last : Bool) : Prop where
  alternating : Alternating gw.notices last
  debts : gw.debts ≤ last.toNat
  /-- Whoever connects owes nothing. -/
  reaching : gw.loop.await.reaching = true ∨ gw.loop.await = .sleep → last = false
  /-- Nor does a loop that will connect again. -/
  closing : gw.loop.stopping = false → (∃ unwinding, gw.loop.await = .disconnect false unwinding) ∨
    (∃ left unwinding, gw.loop.await = .farewell left unwinding) → last = false
  /-- Only a caller disconnects a loop that is up. -/
  up : gw.loop.stopping = false → gw.loop.await.up = true → gw.loop.connected = true

/-- Where a loop that is up is not. -/
theorem up_facts {a : Await} (h : a.up = true) :
    owing a = 0 ∧ ¬ (a.reaching = true ∨ a = .sleep) ∧
      ¬ ((∃ unwinding, a = .disconnect false unwinding) ∨
        ∃ left unwinding, a = .farewell left unwinding) := by
  cases a with
  | announce left => simp [owing, Await.reaching]
  | messages => simp [owing, Await.reaching]
  | handle => simp [owing, Await.reaching]
  | _ => cases h

/-- Most outcomes publish nothing. -/
theorem noticesAfter_nil {g g' : GatewayLoop}
    (hconnected : g'.connected = true → g.connected = true)
    (hparts : ∀ unwinding, g.await = .disconnect true unwinding → o ≠ .ok ∧ o ≠ .raised) :
    noticesAfter g g' o = [] := by
  have hold : (!g.connected && g'.connected) = false := by
    cases hc : g'.connected with
    | false => rw [Bool.and_false]
    | true => rw [hconnected hc]; rfl
  unfold noticesAfter
  rw [if_neg (by rw [hold]; nofun)]
  split
  · exact absurd rfl (hparts _ ‹_›).1
  · exact absurd rfl (hparts _ ‹_›).2
  · rfl

/-- The loop over the subscriptions, from a gateway that owes nothing. -/
theorem Told.subscribing {last : Bool} (h : Told gw last) {g : GatewayLoop} {kinds : List Inbound}
    (hreach : gw.loop.await.reaching = true) (hdown : gw.loop.connected = false)
    (hg : g.connected = gw.loop.connected)
    (hloop : gw'.loop = g.subscribing cfg kinds) (hcallers : gw'.callers = gw.callers)
    (hnotices : gw'.notices = gw.notices ++ noticesAfter gw.loop gw'.loop o) :
    ∃ last', Told gw' last' := by
  obtain rfl := h.reaching (.inl hreach)
  have hnone : gw.callers.countP (· = .disconnecting) = 0 := by
    have := h.debts
    rw [Gateway.debts, Bool.toNat_false] at this
    omega
  have hparts : ∀ unwinding, gw.loop.await ≠ .disconnect true unwinding := by
    intro unwinding ha
    rw [ha] at hreach
    cases hreach
  obtain ⟨-, a, hup, heq⟩ | ⟨kind, rest, -, heq⟩ := subscribing_eq cfg g kinds
  · rw [heq] at hloop
    have hnew : noticesAfter gw.loop gw'.loop o = [.connected] := by
      unfold noticesAfter
      rw [if_pos (by rw [hdown, hloop]; rfl)]
    have ha : gw'.loop.await = a := by rw [hloop]
    obtain ⟨howing, hreaching, hclosing⟩ := up_facts hup
    rw [← ha] at howing hreaching hclosing
    refine ⟨true, ?_, ?_, fun h => absurd h hreaching, fun _ h => absurd h hclosing,
      fun _ _ => by rw [hloop]⟩
    · rw [hnotices, hnew]
      exact .connected h.alternating
    · rw [Gateway.debts, howing, hcallers, hnone, hloop]
      exact Nat.le_refl _
  · rw [heq] at hloop
    have hc : gw'.loop.connected = false := by rw [hloop]; exact hg.trans hdown
    have hnew : noticesAfter gw.loop gw'.loop o = [] :=
      noticesAfter_nil (fun h => by rw [hc] at h; cases h) fun u ha => absurd ha (hparts u)
    refine ⟨false, ?_, ?_, fun _ => rfl, fun _ _ => rfl, fun _ hup => ?_⟩
    · rw [hnotices, hnew, List.append_nil]
      exact h.alternating
    · rw [Gateway.debts, hc, hcallers, hnone, hloop]
      exact Nat.le_refl _
    · rw [hloop] at hup
      cases hup

/-- Nothing is published, and nobody owes more than before. -/
theorem Told.quiet {last : Bool} (h : Told gw last)
    (hnotices : gw'.notices = gw.notices) (hdebts : gw'.debts ≤ gw.debts)
    (hreaching : gw'.loop.await.reaching = true ∨ gw'.loop.await = .sleep → last = false)
    (hclosing : gw'.loop.stopping = false →
      (∃ unwinding, gw'.loop.await = .disconnect false unwinding) ∨
        (∃ left unwinding, gw'.loop.await = .farewell left unwinding) → last = false)
    (hup : gw'.loop.stopping = false → gw'.loop.await.up = true → gw'.loop.connected = true) :
    Told gw' last :=
  ⟨by rw [hnotices]; exact h.alternating, Nat.le_trans hdebts h.debts, hreaching, hclosing, hup⟩

/-- An outcome that keeps the loop up. -/
theorem Told.stays {last : Bool} (h : Told gw last) {a : Await} {backoff : Rat}
    (hup : gw.loop.await.up = true) (hup' : a.up = true)
    (hloop : gw'.loop = { gw.loop with await := a, backoff }) (hcallers : gw'.callers = gw.callers)
    (hnotices : gw'.notices = gw.notices ++ noticesAfter gw.loop gw'.loop o) : Told gw' last := by
  have hnew : noticesAfter gw.loop gw'.loop o = [] := by
    refine noticesAfter_nil (fun hc => by rw [hloop] at hc; exact hc) fun u ha => ?_
    rw [ha] at hup
    cases hup
  have ha : gw'.loop.await = a := by rw [hloop]
  obtain ⟨howing, hreaching, hclosing⟩ := up_facts hup'
  rw [← ha] at howing hreaching hclosing
  refine h.quiet (by rw [hnotices, hnew, List.append_nil]) ?_ (fun h => absurd h hreaching)
    (fun _ h => absurd h hclosing) ?_
  · rw [Gateway.debts, Gateway.debts, hcallers, howing, (up_facts hup).1, hloop]
  · rw [hloop]
    exact fun hs _ => h.up hs hup

theorem owing_after {g : GatewayLoop} {unwinding : Bool} {a : Await} (h : After g unwinding a) :
    owing a = 0 := by
  cases h <;> rfl

theorem noticesAfter_parts {g g' : GatewayLoop} {unwinding : Bool}
    (ha : g.await = .disconnect true unwinding) (ho : o = .ok ∨ o = .raised)
    (hdown : g'.connected = false) : noticesAfter g g' o = [.disconnected] := by
  unfold noticesAfter
  rw [hdown, Bool.and_false, ha]
  obtain rfl | rfl := ho <;> rfl

/-- The rest of a clean-up, for which `last` is settled if the loop goes on. -/
theorem told_dismissed {last' : Bool} {unwinding : Bool} {a : Await} {acts : List Act}
    (hafter : After gw.loop unwinding a)
    (hloop : gw'.loop = { gw.loop with await := a, acts })
    (halternating : Alternating gw'.notices last') (hdebts : gw'.debts ≤ last'.toNat)
    (hlast : gw.loop.stopping = false → last' = false) : Told gw' last' := by
  have ha : gw'.loop.await = a := by rw [hloop]
  have hs : gw'.loop.stopping = gw.loop.stopping := by rw [hloop]
  refine ⟨halternating, hdebts, ?_, fun hrun _ => hlast (hs ▸ hrun), ?_⟩
  · rw [ha]
    cases hafter with
    | sleep hrun => exact fun _ => hlast hrun
    | farewell left => rintro (h | h) <;> cases h
    | gone => rintro (h | h) <;> cases h
  · rw [ha]
    cases hafter <;> nofun

/-- **One outcome of `run`** keeps the events alternating. -/
theorem Told.proceed {last : Bool} (h : Told gw last) (ht : Truthful gw)
    (hp : gw.proceed cfg o = some gw') : ∃ last', Told gw' last' := by
  obtain ⟨hmoves, heq⟩ := proceed_eq hp
  have hnotices : gw'.notices = gw.notices ++ noticesAfter gw.loop gw'.loop o := by rw [heq]
  have hcallers : gw'.callers = gw.callers := by rw [heq]
  cases hmoves with
  | connects ha ho hg =>
      have hc := (ht.down (by rw [ha]; rfl) (by rw [ha]; intro kind rest h; cases h)).1
      exact h.subscribing (g := { gw.loop with controlSubscribed := false }) (by rw [ha]; rfl) hc
        rfl hg hcallers hnotices
  | subscribes kind rest ha ho hg =>
      have hc := (ht.subscribing kind rest ha).1
      exact h.subscribing (g := { gw.loop with
        controlSubscribed := gw.loop.controlSubscribed || kind = Inbound.controlRequest })
        (by rw [ha]; rfl) hc rfl hg hcallers hnotices
  | continues rest ha ho hg =>
      exact h.subscribing (by rw [ha]; rfl) (ht.subscribing _ rest ha).1 rfl hg hcallers hnotices
  | greets left ha ho hg =>
      obtain ⟨a, hup, heq⟩ := greet_eq gw.loop (left - 1)
      exact ⟨last, h.stays (by rw [ha]; rfl) hup (hg.trans heq) hcallers hnotices⟩
  | receives ha ho hg =>
      exact ⟨last, h.stays (a := .handle) (by rw [ha]; rfl) rfl hg hcallers hnotices⟩
  | handles ha hg =>
      exact ⟨last, h.stays (a := .messages) (by rw [ha]; rfl) rfl hg hcallers hnotices⟩
  | fails unwinding cancelled ha ho hg =>
      have howing : owing gw.loop.await = 0 := by
        cases hawait : gw.loop.await with
        | disconnect was u => rw [hawait] at ha; simp [Await.reaching, Await.up] at ha
        | _ => rfl
      have hnew : noticesAfter gw.loop gw'.loop o = [] := by
        refine noticesAfter_nil (fun hc => by rw [hg] at hc; cases hc) fun u hawait => ?_
        rw [hawait] at ha
        simp [Await.reaching, Await.up] at ha
      refine ⟨last, h.quiet (by rw [hnotices, hnew, List.append_nil]) ?_ ?_ ?_ ?_⟩
      · rw [Gateway.debts, Gateway.debts, hcallers, howing, hg]
        cases gw.loop.connected <;> simp [GatewayLoop.cleanUp, owing]
      · rw [hg]
        rintro (hr | hr) <;> cases hr
      · rw [hg]
        rintro hs (⟨u, hu⟩ | ⟨l, u, hu⟩)
        · have hc : gw.loop.connected = false := (Await.disconnect.inj hu).1
          obtain hr | hup := ha
          · exact h.reaching (.inl hr)
          · rw [h.up hs hup] at hc
            cases hc
        · cases hu
      · rw [hg]
        intro _ hup
        cases hup
  | parts was unwinding ha ho hg =>
      obtain ⟨hc, -⟩ := ht.down (by rw [ha]; rfl) (by rw [ha]; intro kind rest h; cases h)
      obtain ⟨a, acts, hafter, heq⟩ :=
        dismiss_eq gw.loop (if was then cfg.subscribers else 0) unwinding
      have hloop := hg.trans heq
      have hc' : gw'.loop.connected = false := by rw [hloop]; exact hc
      have hdebts := h.debts
      rw [Gateway.debts, hc, ha] at hdebts
      have hdebts' : gw'.debts = gw.callers.countP (· = .disconnecting) := by
        rw [Gateway.debts, hc', hcallers, show gw'.loop.await = a by rw [hloop], owing_after hafter]
        simp
      cases was with
      | true =>
          -- the gateway was connected, so the last event says so
          obtain rfl : last = true := by
            cases last with
            | true => rfl
            | false => simp [owing] at hdebts
          refine ⟨false, told_dismissed hafter hloop ?_ ?_ fun _ => rfl⟩
          · rw [hnotices, noticesAfter_parts ha ho hc']
            exact .disconnected h.alternating
          · simp only [owing, Bool.toNat_true, Bool.toNat_false] at hdebts ⊢
            omega
      | false =>
          refine ⟨last, told_dismissed hafter hloop ?_ ?_ fun hs => h.closing hs (.inl ⟨_, ha⟩)⟩
          · rw [hnotices, noticesAfter_nil (fun h => by rw [hc'] at h; cases h)
              (fun u hu => by rw [ha] at hu; cases hu), List.append_nil]
            exact h.alternating
          · simp only [owing, Bool.toNat_false] at hdebts
            omega
  | dismisses left unwinding ha ho hg =>
      obtain ⟨hc, -⟩ := ht.down (by rw [ha]; rfl) (by rw [ha]; intro kind rest h; cases h)
      obtain ⟨a, acts, hafter, heq⟩ := dismiss_eq gw.loop (left - 1) unwinding
      have hloop := hg.trans heq
      have hc' : gw'.loop.connected = false := by rw [hloop]; exact hc
      refine ⟨last, told_dismissed hafter hloop ?_ ?_ fun hs => h.closing hs (.inr ⟨_, _, ha⟩)⟩
      · rw [hnotices, noticesAfter_nil (fun h => by rw [hc'] at h; cases h)
          (fun u hu => by rw [ha] at hu; cases hu), List.append_nil]
        exact h.alternating
      · have hdebts := h.debts
        rw [Gateway.debts, hc, ha] at hdebts
        rw [Gateway.debts, hc', hcallers, show gw'.loop.await = a by rw [hloop], owing_after hafter]
        exact hdebts
  | wakes ha ho hg =>
      obtain ⟨hc, -⟩ := ht.down (by rw [ha]; rfl) (by rw [ha]; intro kind rest h; cases h)
      have hnew : ∀ g, gw'.loop = g → g.connected = gw.loop.connected →
          gw'.notices = gw.notices := by
        intro g hg' hsame
        rw [hnotices, noticesAfter_nil (fun h => by rw [hg', hsame, hc] at h; cases h)
          (fun u hu => by rw [ha] at hu; cases hu), List.append_nil]
      obtain ⟨-, heq⟩ | ⟨-, heq⟩ :=
        loop_eq { gw.loop with backoff := min (gw.loop.backoff * 2) cfg.maximumBackoff }
      · have hloop := hg.trans heq
        refine ⟨last, h.quiet (hnew _ hloop rfl) ?_ (fun _ => h.reaching (.inr ha)) ?_ ?_⟩
        · rw [Gateway.debts, Gateway.debts, hcallers, hloop, ha]
          exact Nat.le_refl _
        · exact fun _ _ => h.reaching (.inr ha)
        · rw [hloop]
          intro _ hup
          cases hup
      · have hloop := hg.trans heq
        refine ⟨last, h.quiet (hnew _ hloop rfl) ?_ (fun _ => h.reaching (.inr ha)) ?_ ?_⟩
        · rw [Gateway.debts, Gateway.debts, hcallers, hloop, ha]
          exact Nat.le_refl _
        · exact fun _ _ => h.reaching (.inr ha)
        · rw [hloop]
          intro _ hup
          cases hup
  | ends cancelled ha ho hg =>
      have hnew : noticesAfter gw.loop gw'.loop o = [] := by
        refine noticesAfter_nil (fun hc => by rw [hg] at hc; exact hc) fun u hu => ?_
        obtain rfl | ⟨-, left, unwinding, hf⟩ := ho
        · exact ⟨fun h => (by cases h), fun h => (by cases h)⟩
        · rw [hf] at hu
          cases hu
      refine ⟨last, h.quiet (by rw [hnotices, hnew, List.append_nil]) ?_ ?_ ?_ ?_⟩
      · rw [Gateway.debts, Gateway.debts, hcallers, hg]
        show gw.loop.connected.toNat + 0 + _ ≤ _
        omega
      · rw [hg]
        rintro (hr | hr) <;> cases hr
      · rw [hg]
        rintro - (⟨u, hu⟩ | ⟨l, u, hu⟩)
        · cases hu
        · cases hu
      · rw [hg]
        intro _ hup
        cases hup

/-- `if self.connected: await self._disconnect()`: the caller owes what the gateway owed. -/
theorem release_debts (gw : Gateway) :
    gw.release.1.loop.connected.toNat + (if gw.release.2 = .disconnecting then 1 else 0) =
        gw.loop.connected.toNat ∧ gw.release.1.loop.await = gw.loop.await ∧
      gw.release.1.loop.stopping = gw.loop.stopping ∧ gw.release.1.callers = gw.callers ∧
      gw.release.1.notices = gw.notices ∧ gw.release.1.beats = gw.beats ∧
      gw.release.1.loop.backoff = gw.loop.backoff := by
  unfold Gateway.release
  split
  · rename_i hc
    simp [hc]
  · rename_i hc
    simp [hc]

/-- **A call of `stop`** keeps the events alternating. -/
theorem Told.stop {last : Bool} (h : Told gw last) : Told gw.stop last := by
  unfold Gateway.stop
  split
  · refine ⟨h.alternating, ?_, h.reaching, nofun, nofun⟩
    have := h.debts
    simpa [Gateway.debts] using this
  · obtain ⟨hdebts, hawait, hstopping, -, hnotices, -, -⟩ := release_debts
      { gw with loop := { gw.loop with stopping := true }, task := false }
    dsimp only
    refine ⟨by rw [hnotices]; exact h.alternating, ?_, ?_, fun hs => ?_, fun hs => ?_⟩
    · have hle := h.debts
      rw [Gateway.debts] at hle ⊢
      rw [List.countP_append, hawait]
      simp only [List.countP_singleton, decide_eq_true_eq] at hdebts ⊢
      omega
    · rw [hawait]
      exact h.reaching
    · rw [hstopping] at hs
      cases hs
    · rw [hstopping] at hs
      cases hs

/-- A caller that goes on. -/
theorem countP_goes {callers : List Caller} {index : Nat} {c : Caller} (c' : Caller)
    (hc : callers[index]? = some c) :
    (callers.set index c').countP (· = .disconnecting) + (if c = .disconnecting then 1 else 0) =
      callers.countP (· = .disconnecting) + if c' = .disconnecting then 1 else 0 := by
  obtain ⟨hlt, rfl⟩ := List.getElem?_eq_some_iff.mp hc
  have hpos : (if callers[index] = .disconnecting then 1 else 0) ≤
      callers.countP (· = .disconnecting) := by
    split
    · exact List.countP_pos_iff.mpr ⟨_, List.getElem_mem hlt, by simpa⟩
    · exact Nat.zero_le _
  rw [List.countP_set hlt]
  simp only [decide_eq_true_eq]
  omega

/-- **An await of a caller** keeps the events alternating. -/
theorem Told.resume {last : Bool} (h : Told gw last) {index : Nat}
    (hr : gw.resume cfg index o = some gw') : ∃ last', Told gw' last' := by
  obtain ⟨hc, ha, rfl⟩ | ⟨hc, rfl⟩ | ⟨c, c', hc, hne, rfl⟩ := resumes_of_resume hr
  · obtain ⟨hdebts, hawait, hstopping, -, hnotices, -, -⟩ := release_debts gw
    refine ⟨last, by rw [hnotices]; exact h.alternating, ?_, ?_, ?_, ?_⟩
    · have hle := h.debts
      have hcount := countP_goes gw.release.2 hc
      rw [Gateway.debts] at hle ⊢
      rw [hawait]
      simp only [reduceCtorEq, if_false] at hcount
      dsimp only
      omega
    · rw [hawait]
      exact h.reaching
    · rw [hawait, hstopping]
      exact h.closing
    · rw [hawait, ha]
      nofun
  · have hle := h.debts
    have hcount := countP_goes (parting cfg.subscribers) hc
    rw [if_pos rfl, if_neg (parting_ne _)] at hcount
    rw [Gateway.debts] at hle
    obtain rfl : last = true := by
      cases last with
      | true => rfl
      | false =>
          rw [Bool.toNat_false] at hle
          omega
    refine ⟨false, .disconnected h.alternating, ?_, fun _ => rfl, fun _ _ => rfl, h.up⟩
    rw [Gateway.debts]
    rw [Bool.toNat_true] at hle
    rw [Bool.toNat_false]
    dsimp only
    omega
  · have hcount := countP_goes c' hc
    rw [if_neg hne] at hcount
    refine ⟨last, h.alternating, ?_, h.reaching, h.closing, h.up⟩
    have hle := h.debts
    rw [Gateway.debts] at hle ⊢
    dsimp only
    omega

/-! ### The back-off -/

/-- The loop keeps the pace. -/
structure Pacing (cfg : Settings) (gw : Gateway) : Prop where
  sleeping : gw.loop.await = .sleep →
    Paced cfg gw.beats (min (gw.loop.backoff * 2) cfg.maximumBackoff) false
  awake : gw.loop.await ≠ .sleep → gw.loop.await ≠ .gone → Paced cfg gw.beats gw.loop.backoff true
  gone : gw.loop.await = .gone → ∃ next going, Paced cfg gw.beats next going

theorem Pacing.paced (h : Pacing cfg gw) : ∃ next going, Paced cfg gw.beats next going := by
  by_cases hs : gw.loop.await = .sleep
  · exact ⟨_, _, h.sleeping hs⟩
  · by_cases hg : gw.loop.await = .gone
    · exact h.gone hg
    · exact ⟨_, _, h.awake hs hg⟩

theorem beatsAfter_nil {g g' : GatewayLoop} (hmessage : o = .ok → g.await ≠ .messages)
    (hsleep : g'.await ≠ .sleep) (hconnect : g'.await ≠ .connect) : beatsAfter g g' o = [] := by
  unfold beatsAfter
  split
  · exact absurd ‹_› (hmessage rfl)
  · exact absurd ‹_› hsleep
  · exact absurd ‹_› hconnect
  · rfl

theorem beatsAfter_sleep {g g' : GatewayLoop} (hmessage : g.await ≠ .messages)
    (h : g'.await = .sleep) : beatsAfter g g' o = [.slept g'.backoff] := by
  unfold beatsAfter
  rw [h]
  split
  · exact absurd ‹_› hmessage
  · rfl
  · contradiction
  · contradiction

/-- An attempt goes on. -/
theorem Pacing.goes (h : Pacing cfg gw) (hawake : gw.loop.await ≠ .sleep ∧ gw.loop.await ≠ .gone)
    (hawait : gw'.loop.await ≠ .sleep) (hbackoff : gw'.loop.backoff = gw.loop.backoff)
    (hbeats : gw'.beats = gw.beats) : Pacing cfg gw' where
  sleeping hs := absurd hs hawait
  awake _ _ := by
    rw [hbeats, hbackoff]
    exact h.awake hawake.1 hawake.2
  gone _ := by
    rw [hbeats]
    exact h.paced

/-- The rest of a clean-up, and the back-off after it. -/
theorem Pacing.dismissed (h : Pacing cfg gw) {unwinding : Bool} {a : Await} {acts : List Act}
    (hawake : gw.loop.await ≠ .sleep ∧ gw.loop.await ≠ .gone)
    (hmessage : gw.loop.await ≠ .messages) (hafter : After gw.loop unwinding a)
    (hloop : gw'.loop = { gw.loop with await := a, acts })
    (hbeats : gw'.beats = gw.beats ++ beatsAfter gw.loop gw'.loop o) : Pacing cfg gw' := by
  have ha : gw'.loop.await = a := by rw [hloop]
  have hbackoff : gw'.loop.backoff = gw.loop.backoff := by rw [hloop]
  cases hafter with
  | farewell left =>
      refine h.goes hawake (by rw [ha]; nofun) hbackoff ?_
      rw [hbeats, beatsAfter_nil (fun _ => hmessage) (by rw [ha]; nofun) (by rw [ha]; nofun),
        List.append_nil]
  | gone =>
      refine h.goes hawake (by rw [ha]; nofun) hbackoff ?_
      rw [hbeats, beatsAfter_nil (fun _ => hmessage) (by rw [ha]; nofun) (by rw [ha]; nofun),
        List.append_nil]
  | sleep hs =>
      have hnew : beatsAfter gw.loop gw'.loop o = [.slept gw.loop.backoff] := by
        rw [beatsAfter_sleep hmessage ha, hbackoff]
      refine ⟨fun _ => ?_, fun hne _ => absurd ha hne, fun hg => ?_⟩
      · rw [hbeats, hnew, hbackoff]
        exact .slept (h.awake hawake.1 hawake.2)
      · rw [ha] at hg
        cases hg

/-- **One outcome of `run`** keeps the pace. -/
theorem Pacing.proceed (h : Pacing cfg gw) (hp : gw.proceed cfg o = some gw') :
    Pacing cfg gw' := by
  obtain ⟨hmoves, heq⟩ := proceed_eq hp
  have hbeats : gw'.beats = gw.beats ++ beatsAfter gw.loop gw'.loop o := by rw [heq]
  have hquiet : ∀ g, gw'.loop = g → (o = .ok → gw.loop.await ≠ .messages) → g.await ≠ .sleep →
      g.await ≠ .connect → gw'.beats = gw.beats := by
    intro g hg hmessage hsleep hconnect
    rw [hbeats, beatsAfter_nil hmessage (hg ▸ hsleep) (hg ▸ hconnect), List.append_nil]
  -- the loop over the subscriptions
  have hsubscribing : ∀ (g : GatewayLoop) kinds, gw'.loop = g.subscribing cfg kinds →
      gw.loop.await.reaching = true → g.backoff = gw.loop.backoff → Pacing cfg gw' := by
    intro g kinds hg hreach hbackoff
    have hawake : gw.loop.await ≠ .sleep ∧ gw.loop.await ≠ .gone ∧ gw.loop.await ≠ .messages := by
      refine ⟨fun ha => ?_, fun ha => ?_, fun ha => ?_⟩ <;> rw [ha] at hreach <;> cases hreach
    obtain ⟨-, a, hup, heq⟩ | ⟨kind, rest, -, heq⟩ := subscribing_eq cfg g kinds
    · have hloop := hg.trans heq
      have hne : a ≠ .sleep ∧ a ≠ .connect := by
        constructor <;> rintro rfl <;> cases hup
      refine h.goes ⟨hawake.1, hawake.2.1⟩ (by rw [hloop]; exact hne.1)
        (by rw [hloop]; exact hbackoff) ?_
      exact hquiet _ hloop (fun _ => hawake.2.2) hne.1 hne.2
    · have hloop := hg.trans heq
      refine h.goes ⟨hawake.1, hawake.2.1⟩ (by rw [hloop]; nofun) (by rw [hloop]; exact hbackoff) ?_
      exact hquiet _ hloop (fun _ => hawake.2.2) nofun nofun
  cases hmoves with
  | connects ha ho hg => exact hsubscribing _ _ hg (by rw [ha]; rfl) rfl
  | subscribes kind rest ha ho hg => exact hsubscribing _ _ hg (by rw [ha]; rfl) rfl
  | continues rest ha ho hg => exact hsubscribing _ _ hg (by rw [ha]; rfl) rfl
  | greets left ha ho hg =>
      obtain ⟨a, hup, heq⟩ := greet_eq gw.loop (left - 1)
      have hloop := hg.trans heq
      have hne : a ≠ .sleep ∧ a ≠ .connect := by
        constructor <;> rintro rfl <;> cases hup
      refine h.goes (by rw [ha]; exact ⟨nofun, nofun⟩) (by rw [hloop]; exact hne.1)
        (by rw [hloop]) ?_
      exact hquiet _ hloop (fun _ => by rw [ha]; nofun) hne.1 hne.2
  | receives ha ho hg =>
      refine ⟨fun hs => (by rw [hg] at hs; cases hs), fun _ _ => ?_, fun hgone => ?_⟩
      · have hnew : beatsAfter gw.loop gw'.loop o = [.message] := by
          unfold beatsAfter
          rw [ha, ho]
        rw [hbeats, hnew, hg]
        exact .message (h.awake (by rw [ha]; nofun) (by rw [ha]; nofun))
      · rw [hg] at hgone
        cases hgone
  | handles ha hg =>
      refine h.goes (by rw [ha]; exact ⟨nofun, nofun⟩) (by rw [hg]; nofun) (by rw [hg]) ?_
      exact hquiet _ hg (fun _ => by rw [ha]; nofun) nofun nofun
  | fails unwinding cancelled ha ho hg =>
      refine h.goes ⟨fun hs => ?_, fun hs => ?_⟩ (by rw [hg]; nofun) (by rw [hg]; rfl) ?_
      · rw [hs] at ha
        simp [Await.reaching, Await.up] at ha
      · rw [hs] at ha
        simp [Await.reaching, Await.up] at ha
      · exact hquiet _ hg (fun hok => absurd hok ho) nofun nofun
  | parts was unwinding ha ho hg =>
      obtain ⟨a, acts, hafter, heq⟩ :=
        dismiss_eq gw.loop (if was then cfg.subscribers else 0) unwinding
      exact h.dismissed (by rw [ha]; exact ⟨nofun, nofun⟩) (by rw [ha]; nofun) hafter
        (hg.trans heq) hbeats
  | dismisses left unwinding ha ho hg =>
      obtain ⟨a, acts, hafter, heq⟩ := dismiss_eq gw.loop (left - 1) unwinding
      exact h.dismissed (by rw [ha]; exact ⟨nofun, nofun⟩) (by rw [ha]; nofun) hafter
        (hg.trans heq) hbeats
  | wakes ha ho hg =>
      have hpaced := h.sleeping ha
      obtain ⟨-, heq⟩ | ⟨-, heq⟩ :=
        loop_eq { gw.loop with backoff := min (gw.loop.backoff * 2) cfg.maximumBackoff }
      · have hloop := hg.trans heq
        have hsame := hquiet _ hloop (fun _ => by rw [ha]; nofun) nofun nofun
        refine ⟨fun hs => (by rw [hloop] at hs; cases hs), fun _ hne => absurd (by rw [hloop]) hne,
          fun _ => ⟨_, _, hsame ▸ hpaced⟩⟩
      · have hloop := hg.trans heq
        have hnew : beatsAfter gw.loop gw'.loop o = [.attempt] := by
          unfold beatsAfter
          rw [ha, hloop]
        refine ⟨fun hs => (by rw [hloop] at hs; cases hs), fun _ _ => ?_, fun hgone => ?_⟩
        · rw [hbeats, hnew, hloop]
          exact .attempt hpaced
        · rw [hloop] at hgone
          cases hgone
  | ends cancelled ha ho hg =>
      have hsame : gw'.beats = gw.beats := by
        refine hquiet _ hg (fun _ hm => ?_) nofun nofun
        obtain ⟨was, unwinding, ha⟩ | ⟨left, unwinding, ha⟩ | ha := ha <;>
          rw [hm] at ha <;> cases ha
      exact ⟨fun hs => (by rw [hg] at hs; cases hs), fun _ hne => absurd (by rw [hg]) hne,
        fun _ => hsame ▸ h.paced⟩

/-- Callers do not touch the back-off. -/
theorem Pacing.beside (h : Pacing cfg gw) (hawait : gw'.loop.await = gw.loop.await)
    (hbackoff : gw'.loop.backoff = gw.loop.backoff) (hbeats : gw'.beats = gw.beats) :
    Pacing cfg gw' := by
  refine ⟨?_, ?_, ?_⟩
  · rw [hawait, hbackoff, hbeats]
    exact h.sleeping
  · rw [hawait, hbackoff, hbeats]
    exact h.awake
  · rw [hawait, hbeats]
    exact h.gone

/-- What is slept keeps to the bounds. -/
theorem Paced.bounds {beats : List Beat} {next : Rat} {going : Bool}
    (h : Paced cfg beats next going) :
    (cfg.initialBackoff ≤ next ∧ next ≤ cfg.maximumBackoff) ∧
      ∀ seconds, .slept seconds ∈ beats →
        cfg.initialBackoff ≤ seconds ∧ seconds ≤ cfg.maximumBackoff := by
  obtain ⟨hpos, hle⟩ := cfg.bounded
  induction h with
  | nil => exact ⟨⟨le_refl _, hle⟩, nofun⟩
  | attempt h ih => exact ⟨ih.1, fun seconds hs => ih.2 seconds (by simpa using hs)⟩
  | message h ih => exact ⟨⟨le_refl _, hle⟩, fun seconds hs => ih.2 seconds (by simpa using hs)⟩
  | slept h ih =>
      rename_i l next
      obtain ⟨⟨hlow, hhigh⟩, hbefore⟩ := ih
      refine ⟨⟨le_min (by linarith) hle, min_le_right _ _⟩, fun seconds hs => ?_⟩
      obtain hs | hs := List.mem_append.mp hs
      · exact hbefore seconds hs
      · obtain rfl := Beat.slept.inj (List.mem_singleton.mp hs)
        exact ⟨hlow, hhigh⟩

/-! ### Runs -/

/-- What holds of the gateway throughout. -/
structure Kept (cfg : Settings) (gw : Gateway) : Prop where
  flags : Truthful gw
  told : ∃ last, Told gw last
  pace : Pacing cfg gw

theorem kept_start (task : Bool) : Kept cfg (start cfg task) where
  flags := truthful_down rfl rfl nofun
  told := ⟨false, .nil, Nat.le_refl _, fun _ => rfl, fun _ _ => rfl, nofun⟩
  pace := ⟨nofun, fun _ _ => .attempt .nil, nofun⟩

/-- **One event** keeps it. -/
theorem Kept.step (h : Kept cfg gw) {e : Event} (hs : (system cfg).step gw e = some gw') :
    Kept cfg gw' := by
  obtain ⟨last, htold⟩ := h.told
  cases e with
  | run o => exact ⟨h.flags.proceed hs, htold.proceed h.flags hs, h.pace.proceed hs⟩
  | stop =>
      obtain rfl := Option.some.inj hs
      refine ⟨h.flags.stop, ⟨last, htold.stop⟩, ?_⟩
      unfold Gateway.stop
      split
      · exact h.pace.beside rfl rfl rfl
      · obtain ⟨-, hawait, -, -, -, hbeats, hbackoff⟩ := release_debts
          { gw with loop := { gw.loop with stopping := true }, task := false }
        exact h.pace.beside hawait hbackoff hbeats
  | caller index o =>
      refine ⟨h.flags.resume hs, htold.resume hs, ?_⟩
      obtain ⟨-, -, rfl⟩ | ⟨-, rfl⟩ | ⟨c, c', -, -, rfl⟩ := resumes_of_resume hs
      · obtain ⟨-, hawait, -, -, -, hbeats, hbackoff⟩ := release_debts gw
        exact h.pace.beside hawait hbackoff hbeats
      · exact h.pace.beside rfl rfl rfl
      · exact h.pace.beside rfl rfl rfl

/-- **Flags.** Whatever comes of the awaits of `run` and of the calls of `stop`: a flag that is
set is true of the connection there is, the events alternate from `mqtt_connected` on, and what
the loop sleeps doubles up to the maximum until a message puts it back. -/
theorem flags_truthful (cfg : Settings) (task : Bool) (events : List Event) :
    let gw := (system cfg).run (start cfg task) events
    (gw.loop.connected = true → ∃ subs, gw.connection = some subs ∧
      ∀ kind ∈ subscriptionTopics, kind ≠ .controlRequest → kind ∈ subs) ∧
    (gw.loop.controlSubscribed = true → ∃ subs, gw.connection = some subs ∧
      .controlRequest ∈ subs) ∧
    (∃ last, Alternating gw.notices last) ∧ (∃ next going, Paced cfg gw.beats next going) ∧
    ∀ seconds, .slept seconds ∈ gw.beats →
      cfg.initialBackoff ≤ seconds ∧ seconds ≤ cfg.maximumBackoff := by
  intro gw
  have hkept : Kept cfg gw :=
    (system cfg).invariant (fun _ _ _ h hs => h.step hs) (kept_start task) events
  obtain ⟨last, htold⟩ := hkept.told
  obtain ⟨next, going, hpaced⟩ := hkept.pace.paced
  exact ⟨fun h => (hkept.flags.connected h).2, fun h => (hkept.flags.control h).2,
    ⟨last, htold.alternating⟩, ⟨next, going, hpaced⟩, hpaced.bounds.2⟩

/-- A message is handled, the connection is lost, and on the next one the control subscription is
refused. -/
def reconnecting : List Event :=
  let outcomes : List Outcome :=
    List.replicate 9 .ok ++ .raised :: List.replicate 8 .ok ++ [.raised, .ok]
  outcomes.map .run

/-- On the second connection the control flag is down, and the other one is right. -/
theorem flags_truthful_reconnecting :
    let gw := (system ⟨1, 30, 1, by decide⟩).run (start ⟨1, 30, 1, by decide⟩ true) reconnecting
    gw.loop.connected = true ∧ gw.loop.controlSubscribed = false ∧
      gw.notices = [.connected, .disconnected, .connected] ∧
      gw.beats = [.attempt, .message, .slept 1, .attempt] ∧
      ∃ subs, gw.connection = some subs ∧
        ∀ kind ∈ subscriptionTopics, kind ≠ .controlRequest → kind ∈ subs := by
  intro gw
  have hconnected : gw.loop.connected = true := by decide +kernel
  obtain ⟨hflag, -⟩ := flags_truthful ⟨1, 30, 1, by decide⟩ true reconnecting
  exact ⟨hconnected, by decide +kernel, by decide +kernel, by decide +kernel, hflag hconnected⟩

end Gateway

end KzHome

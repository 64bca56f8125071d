import KzHome.Lib.Transition
import Mathlib.Algebra.Order.Ring.Rat

/-!
# KzHome.GatewayLoop

The connection loop of `MQTTGateway.run`.

The loop is suspended at one `await` at a time, and its state is that await
together with the attributes it reads; a label is what comes of the await: it
returns, the message stream ends, it raises, or the task is cancelled there. A
`stop` sets the flag and can come at any time.

The clean-up in the `finally` block is itself two awaits and a publication. The
disconnection of the client is guarded, the publication is not, so an exception of
a subscriber of `mqtt_disconnected` leaves the `finally` block and with it the loop.
-/

namespace KzHome

namespace GatewayLoop

/-- The topics of `subscription_topics`, by their kind. -/
inductive Inbound
  | state
  | ack
  | telemetry
  | status
  | controlRequest
  deriving DecidableEq, Repr

/-- `subscription_topics()` -/
def subscriptionTopics : List Inbound := [.state, .ack, .telemetry, .status, .controlRequest]

/-- The arguments of the gateway that its loop depends on, with the number of
subscribers of the bus. -/
structure Settings where
  initialBackoff : Rat
  maximumBackoff : Rat
  subscribers : Nat
  bounded : 0 < initialBackoff ∧ initialBackoff ≤ maximumBackoff

/-- Where `run` is suspended. `unwinding` is a `CancelledError` on its way through the
`finally` block. -/
inductive Await
  | connect
  | subscribe (kind : Inbound) (rest : List Inbound)
  /-- Subscribers of `mqtt_connected`, from the one that is awaited on. -/
  | announce (left : Nat)
  | messages
  | handle
  | disconnect (wasConnected unwinding : Bool)
  /-- Subscribers of `mqtt_disconnected`, from the one that is awaited on. -/
  | farewell (left : Nat) (unwinding : Bool)
  | sleep
  /-- The loop is over. -/
  | gone
  deriving DecidableEq, Repr

/-- What comes of an await. -/
inductive Outcome
  /-- It returns; of the message stream: a message. -/
  | ok
  /-- The message stream ends. -/
  | ended
  /-- It raises an ordinary `Exception`. -/
  | raised
  /-- The task is cancelled at it. -/
  | cancelled
  /-- `stop` is called meanwhile. -/
  | stop
  deriving DecidableEq, Repr

/-- What the loop does about the connection. -/
inductive Act
  | attempt
  | wait (seconds : Rat)
  deriving DecidableEq, Repr

end GatewayLoop

open GatewayLoop

/-- The state of the loop; `cancelled` and `acts` are ghosts. -/
structure GatewayLoop where
  await : Await
  stopping : Bool
  connected : Bool
  controlSubscribed : Bool
  backoff : Rat
  cancelled : Bool
  acts : List Act

namespace GatewayLoop

variable (cfg : Settings) (g : GatewayLoop)

/-- `while not self._stopping: try: await self.client.connect()` -/
def loop : GatewayLoop :=
  if g.stopping then { g with await := .gone }
  else { g with await := .connect, acts := g.acts ++ [.attempt] }

/-- The first await of `_disconnect`, in the `finally` block. -/
def cleanUp (unwinding : Bool) : GatewayLoop :=
  { g with
    await := .disconnect g.connected unwinding
    connected := false
    controlSubscribed := false }

/-- After `_disconnect` returned in the `finally` block. -/
def cleaned (unwinding : Bool) : GatewayLoop :=
  if unwinding then { g with await := .gone }
  else if g.stopping then g.loop
  else { g with await := .sleep, acts := g.acts ++ [.wait g.backoff] }

/-- `publish(mqtt_disconnected)`, with this many subscribers left. -/
def dismiss (left : Nat) (unwinding : Bool) : GatewayLoop :=
  match left with
  | 0 => g.cleaned unwinding
  | left => { g with await := .farewell left unwinding }

/-- `publish(mqtt_connected)`, with this many subscribers left. -/
def greet (left : Nat) : GatewayLoop :=
  match left with
  | 0 => { g with await := .messages }
  | left => { g with await := .announce left }

/-- The loop over the subscriptions. -/
def subscribing : List Inbound → GatewayLoop
  | [] => { g with connected := true }.greet cfg.subscribers
  | kind :: rest => { g with await := .subscribe kind rest }

/-- A `CancelledError` at an await inside the `try`. -/
def interrupted : GatewayLoop := { g with cancelled := true }.cleanUp true

/-- A `CancelledError` that leaves the loop at once. -/
def dropped : GatewayLoop := { g with cancelled := true, await := .gone }

/-- What an outcome makes of the loop; `none` for an outcome that the await cannot have. -/
def step (outcome : Outcome) : Option GatewayLoop :=
  match outcome, g.await with
  | .stop, _ => some { g with stopping := true }
  | .ok, .connect => some ({ g with controlSubscribed := false }.subscribing cfg subscriptionTopics)
  | .ok, .subscribe kind rest =>
    some ({ g with controlSubscribed := g.controlSubscribed || kind = Inbound.controlRequest }.subscribing
      cfg rest)
  | .raised, .subscribe kind rest =>
    -- Control subscription unavailable; physical control stays closed
    if kind = Inbound.controlRequest then some (g.subscribing cfg rest) else some (g.cleanUp false)
  | .ok, .announce left => some (g.greet (left - 1))
  | .ok, .messages => some { g with backoff := cfg.initialBackoff, await := .handle }
  | .ended, .messages => some (g.cleanUp false)
  | .ok, .handle => some { g with await := .messages }
  -- Rejected MQTT message
  | .raised, .handle => some { g with await := .messages }
  | .raised, .connect => some (g.cleanUp false)
  | .raised, .announce _ => some (g.cleanUp false)
  | .raised, .messages => some (g.cleanUp false)
  | .cancelled, .connect => some g.interrupted
  | .cancelled, .subscribe _ _ => some g.interrupted
  | .cancelled, .announce _ => some g.interrupted
  | .cancelled, .messages => some g.interrupted
  | .cancelled, .handle => some g.interrupted
  | .ok, .disconnect was unwinding =>
    some (g.dismiss (if was then cfg.subscribers else 0) unwinding)
  -- MQTT disconnect failed
  | .raised, .disconnect was unwinding =>
    some (g.dismiss (if was then cfg.subscribers else 0) unwinding)
  | .cancelled, .disconnect _ _ => some g.dropped
  | .ok, .farewell left unwinding => some (g.dismiss (left - 1) unwinding)
  -- nothing in the finally block catches this
  | .raised, .farewell _ _ => some { g with await := .gone }
  | .cancelled, .farewell _ _ => some g.dropped
  | .ok, .sleep => some ({ g with backoff := min (g.backoff * 2) cfg.maximumBackoff }.loop)
  | .cancelled, .sleep => some g.dropped
  | _, _ => none

/-- The loop as a transition system. -/
def system : Transition.System GatewayLoop Outcome := ⟨step cfg⟩

/-- `run` when it starts. -/
def start : GatewayLoop :=
  loop ⟨.connect, false, false, false, cfg.initialBackoff, false, []⟩

/-! ### The clean-up -/

/-- The clean-up of an attempt that was neither stopped nor cancelled. -/
structure Recovering : Prop where
  cleaning : (∃ was, g.await = .disconnect was false) ∨ ∃ left, g.await = .farewell (left + 1) false
  running : g.stopping = false
  kept : g.cancelled = false

/-- The awaits that are left of the clean-up and of the back-off after it. -/
def distance : Nat :=
  match g.await with
  | .disconnect was _ => (if was then cfg.subscribers else 0) + 2
  | .farewell left _ => left + 1
  | .sleep => 1
  | _ => 0

/-- A subscriber of `mqtt_disconnected` raises in the clean-up of an attempt that was
neither stopped nor cancelled. -/
def Fatal (o : Outcome) : Prop :=
  (∃ left unwinding, g.await = .farewell left unwinding) ∧ o = .raised ∧ g.stopping = false ∧
    g.cancelled = false

/-- The outcome ends the attempt, or comes in its clean-up: `connect`, `subscribe`, `messages`,
`disconnect` or a subscriber of the bus raises, or the message stream ends. A message that is
rejected and a control subscription that is refused do not end an attempt. -/
inductive Fails : Outcome → Prop
  | connect (ha : g.await = .connect) : Fails .raised
  | subscribe {kind : Inbound} {rest : List Inbound} (ha : g.await = .subscribe kind rest)
      (hkind : kind ≠ .controlRequest) : Fails .raised
  | announce {left : Nat} (ha : g.await = .announce left) : Fails .raised
  | messages (ha : g.await = .messages) : Fails .raised
  | ended (ha : g.await = .messages) : Fails .ended
  | disconnect {was unwinding : Bool} (ha : g.await = .disconnect was unwinding) : Fails .raised
  | farewell {left : Nat} {unwinding : Bool} (ha : g.await = .farewell left unwinding) : Fails .raised

/-- Waiting between two attempts. -/
structure Waiting (before : GatewayLoop) : Prop where
  await : g.await = .sleep
  running : g.stopping = false
  acts : g.acts = before.acts ++ [.wait before.backoff]

section

variable {cfg : Settings} {g g' : GatewayLoop} {o : Outcome}

variable (cfg) in
/-- The rest of a publication in the clean-up. -/
theorem Recovering.dismiss (hs : g.stopping = false) (hc : g.cancelled = false) (left : Nat) :
    ((g.dismiss left false).Recovering ∧ distance cfg (g.dismiss left false) = left + 1 ∧
      (g.dismiss left false).acts = g.acts ∧ (g.dismiss left false).backoff = g.backoff) ∨
    (g.dismiss left false).Waiting g := by
  cases left with
  | zero =>
      refine Or.inr ?_
      have h : g.dismiss 0 false = { g with await := .sleep, acts := g.acts ++ [.wait g.backoff] } := by
        simp only [GatewayLoop.dismiss, cleaned, hs, Bool.false_eq_true, if_false]
      rw [h]
      exact ⟨rfl, hs, rfl⟩
  | succ left => exact Or.inl ⟨⟨Or.inr ⟨left, rfl⟩, hs, hc⟩, rfl, rfl, rfl⟩

/-- **One await of the clean-up** brings the next attempt nearer, unless it is fatal. -/
theorem Recovering.step (h : g.Recovering) (hstep : step cfg g o = some g')
    (ho : o ≠ .stop ∧ o ≠ .cancelled) (hf : ¬ g.Fatal o) :
    (g'.Recovering ∧ distance cfg g' < distance cfg g ∧ g'.acts = g.acts ∧
      g'.backoff = g.backoff) ∨ g'.Waiting g := by
  rcases h.cleaning with ⟨was, ha⟩ | ⟨left, ha⟩
  · have hg' : g' = g.dismiss (if was then cfg.subscribers else 0) false := by
      cases o with
      | ok => simpa only [GatewayLoop.step, ha, Option.some.injEq, eq_comm] using hstep
      | raised => simpa only [GatewayLoop.step, ha, Option.some.injEq, eq_comm] using hstep
      | ended => simp only [GatewayLoop.step, ha] at hstep; cases hstep
      | cancelled => exact absurd rfl ho.2
      | stop => exact absurd rfl ho.1
    rcases Recovering.dismiss cfg h.running h.kept (if was then cfg.subscribers else 0)
      with ⟨hr, hd, hacts, hb⟩ | hw
    · rw [hg']
      refine Or.inl ⟨hr, ?_, hacts, hb⟩
      rw [hd, distance, ha]
      exact Nat.lt_succ_self _
    · rw [hg']; exact Or.inr hw
  · cases o with
    | ok =>
        have hg' : g' = g.dismiss left false := by
          simpa only [GatewayLoop.step, ha, Option.some.injEq, eq_comm, Nat.add_sub_cancel]
            using hstep
        rcases Recovering.dismiss cfg h.running h.kept left with ⟨hr, hd, hacts, hb⟩ | hw
        · rw [hg']
          refine Or.inl ⟨hr, ?_, hacts, hb⟩
          rw [hd, distance, ha]
          exact Nat.lt_succ_self _
        · rw [hg']; exact Or.inr hw
    | raised => exact absurd ⟨⟨_, _, ha⟩, rfl, h.running, h.kept⟩ hf
    | ended => simp only [GatewayLoop.step, ha] at hstep; cases hstep
    | cancelled => exact absurd rfl ho.2
    | stop => exact absurd rfl ho.1

/-! ### How the loop is left -/

/-- An exception on its way out is a cancellation, and the loop is over only after a stop
or a cancellation. -/
structure Kept (g : GatewayLoop) : Prop where
  unwinding : ∀ was, g.await = .disconnect was true → g.cancelled = true
  dismissing : ∀ left, g.await = .farewell left true → g.cancelled = true
  pending : ∀ unwinding, g.await ≠ .farewell 0 unwinding
  gone : g.await = .gone → g.stopping = true ∨ g.cancelled = true

/-- Awaits outside the clean-up and the end of the loop have nothing to keep. -/
theorem Kept.of_await (h : (∃ k r, g.await = .subscribe k r) ∨ (∃ l, g.await = .announce l) ∨
    g.await = .connect ∨ g.await = .messages ∨ g.await = .handle ∨ g.await = .sleep) :
    g.Kept := by
  rcases h with ⟨k, r, h⟩ | ⟨l, h⟩ | h | h | h | h <;>
    exact ⟨fun _ hw => (by rw [h] at hw; cases hw), fun _ hw => (by rw [h] at hw; cases hw),
      fun _ hw => (by rw [h] at hw; cases hw), fun hw => (by rw [h] at hw; cases hw)⟩

theorem Kept.of_gone (h : g.await = .gone) (hs : g.stopping = true ∨ g.cancelled = true) :
    g.Kept :=
  ⟨fun _ hw => (by rw [h] at hw; cases hw), fun _ hw => (by rw [h] at hw; cases hw),
    fun _ hw => (by rw [h] at hw; cases hw), fun _ => hs⟩

theorem kept_loop (g : GatewayLoop) : g.loop.Kept := by
  unfold loop
  split
  · rename_i hs
    exact .of_gone rfl (Or.inl hs)
  · exact .of_await (by simp)

theorem kept_cleanUp (g : GatewayLoop) {unwinding : Bool}
    (h : unwinding = true → g.cancelled = true) : (g.cleanUp unwinding).Kept where
  unwinding was hw := h (by simpa [cleanUp] using (Await.disconnect.inj hw).2)
  dismissing _ hw := (by cases hw)
  pending _ hw := (by cases hw)
  gone hw := (by cases hw)

theorem kept_dismiss (g : GatewayLoop) {unwinding : Bool}
    (h : unwinding = true → g.cancelled = true) (left : Nat) : (g.dismiss left unwinding).Kept := by
  cases left with
  | succ left =>
      refine ⟨fun _ hw => (by cases hw), fun _ hw => h (Await.farewell.inj hw).2,
        fun _ hw => ?_, fun hw => (by cases hw)⟩
      exact Nat.succ_ne_zero _ (Await.farewell.inj hw).1
  | zero =>
      simp only [GatewayLoop.dismiss, cleaned]
      split
      · rename_i hu
        exact .of_gone rfl (Or.inr (h hu))
      · split
        · exact kept_loop g
        · exact .of_await (by simp)

theorem kept_greet (g : GatewayLoop) (left : Nat) : (g.greet left).Kept := by
  cases left with
  | zero => exact .of_await (by simp [greet])
  | succ left => exact .of_await (Or.inr (Or.inl ⟨_, rfl⟩))

theorem kept_subscribing (g : GatewayLoop) (kinds : List Inbound) :
    (g.subscribing cfg kinds).Kept := by
  cases kinds with
  | nil => exact kept_greet _ _
  | cons kind rest => exact .of_await (Or.inl ⟨_, _, rfl⟩)

/-- **One outcome**: unless it is fatal, the loop is kept. -/
theorem Kept.step (h : g.Kept) (hstep : step cfg g o = some g') (hf : ¬ g.Fatal o) :
    g'.Kept := by
  unfold GatewayLoop.step at hstep
  split at hstep
  -- stop
  · obtain rfl := Option.some.inj hstep
    exact ⟨h.unwinding, h.dismissing, h.pending, fun _ => Or.inl rfl⟩
  -- connect and subscribe
  · obtain rfl := Option.some.inj hstep
    exact kept_subscribing _ _
  · obtain rfl := Option.some.inj hstep
    exact kept_subscribing _ _
  · split at hstep
    · obtain rfl := Option.some.inj hstep
      exact kept_subscribing _ _
    · obtain rfl := Option.some.inj hstep
      exact kept_cleanUp _ (by simp)
  -- announce, messages and handle
  · obtain rfl := Option.some.inj hstep
    exact kept_greet _ _
  · obtain rfl := Option.some.inj hstep
    exact .of_await (by simp)
  · obtain rfl := Option.some.inj hstep
    exact kept_cleanUp _ (by simp)
  · obtain rfl := Option.some.inj hstep
    exact .of_await (by simp)
  · obtain rfl := Option.some.inj hstep
    exact .of_await (by simp)
  · obtain rfl := Option.some.inj hstep
    exact kept_cleanUp _ (by simp)
  · obtain rfl := Option.some.inj hstep
    exact kept_cleanUp _ (by simp)
  · obtain rfl := Option.some.inj hstep
    exact kept_cleanUp _ (by simp)
  -- cancellations inside the try
  · obtain rfl := Option.some.inj hstep
    exact kept_cleanUp _ fun _ => rfl
  · obtain rfl := Option.some.inj hstep
    exact kept_cleanUp _ fun _ => rfl
  · obtain rfl := Option.some.inj hstep
    exact kept_cleanUp _ fun _ => rfl
  · obtain rfl := Option.some.inj hstep
    exact kept_cleanUp _ fun _ => rfl
  · obtain rfl := Option.some.inj hstep
    exact kept_cleanUp _ fun _ => rfl
  -- the clean-up
  · rename_i was unwinding ha
    obtain rfl := Option.some.inj hstep
    exact kept_dismiss g (fun hu => h.unwinding was (hu ▸ ha)) _
  · rename_i was unwinding ha
    obtain rfl := Option.some.inj hstep
    exact kept_dismiss g (fun hu => h.unwinding was (hu ▸ ha)) _
  · obtain rfl := Option.some.inj hstep
    exact .of_gone rfl (Or.inr rfl)
  · rename_i left unwinding ha
    obtain rfl := Option.some.inj hstep
    exact kept_dismiss g (fun hu => h.dismissing left (hu ▸ ha)) _
  · rename_i left unwinding ha
    obtain rfl := Option.some.inj hstep
    refine .of_gone rfl ?_
    by_contra hne
    simp only [not_or, Bool.not_eq_true] at hne
    exact hf ⟨⟨left, unwinding, ha⟩, rfl, hne.1, hne.2⟩
  · obtain rfl := Option.some.inj hstep
    exact .of_gone rfl (Or.inr rfl)
  -- sleep
  · obtain rfl := Option.some.inj hstep
    exact kept_loop _
  · obtain rfl := Option.some.inj hstep
    exact .of_gone rfl (Or.inr rfl)
  · cases hstep

/-! ### Whole runs -/

/-- The clean-up of an attempt that failed: neither stopped nor cancelled. -/
structure Failed (g : GatewayLoop) : Prop where
  cleaning : (∃ was unwinding, g.await = .disconnect was unwinding) ∨
    ∃ left unwinding, g.await = .farewell left unwinding
  running : g.stopping = false
  uncancelled : g.cancelled = false

theorem Recovering.failed (h : g.Recovering) : g.Failed := by
  refine ⟨?_, h.running, h.kept⟩
  rcases h.cleaning with ⟨was, ha⟩ | ⟨left, ha⟩
  · exact Or.inl ⟨was, false, ha⟩
  · exact Or.inr ⟨left + 1, false, ha⟩

theorem Kept.recovering (h : g.Kept) (hf : g.Failed) : g.Recovering := by
  refine ⟨?_, hf.running, hf.uncancelled⟩
  have hc : g.cancelled ≠ true := by rw [hf.uncancelled]; simp
  rcases hf.cleaning with ⟨was, unwinding, ha⟩ | ⟨left, unwinding, ha⟩
  · cases unwinding with
    | false => exact Or.inl ⟨was, ha⟩
    | true => exact absurd (h.unwinding was ha) hc
  · cases unwinding with
    | true => exact absurd (h.dismissing left ha) hc
    | false =>
        cases left with
        | zero => exact absurd ha (h.pending false)
        | succ left => exact Or.inr ⟨left, ha⟩

/-- What a failure brings: the loop is in the clean-up, or, when that is over already, waits
one back-off. -/
inductive Comes (before : GatewayLoop) : GatewayLoop → Prop
  | cleaning {after : GatewayLoop} (h : after.Failed) (hacts : after.acts = before.acts)
      (hbackoff : after.backoff = before.backoff) : Comes before after
  | waiting {after : GatewayLoop} (h : after.Waiting before) : Comes before after

/-- **A failure** brings the loop into the clean-up, or on in it. -/
theorem Fails.comes (h : g.Fails o) (hstep : step cfg g o = some g') (hs : g.stopping = false)
    (hc : g.cancelled = false) (hk : g.Kept) (hf : ¬ g.Fatal o) : Comes g g' := by
  have hcleanUp : Comes g (g.cleanUp false) := .cleaning ⟨.inl ⟨_, _, rfl⟩, hs, hc⟩ rfl rfl
  cases h with
  | connect ha =>
      simp only [step, ha] at hstep
      exact Option.some.inj hstep ▸ hcleanUp
  | @subscribe kind rest ha hkind =>
      simp only [step, ha, if_neg hkind] at hstep
      exact Option.some.inj hstep ▸ hcleanUp
  | announce ha =>
      simp only [step, ha] at hstep
      exact Option.some.inj hstep ▸ hcleanUp
  | messages ha =>
      simp only [step, ha] at hstep
      exact Option.some.inj hstep ▸ hcleanUp
  | ended ha =>
      simp only [step, ha] at hstep
      exact Option.some.inj hstep ▸ hcleanUp
  | disconnect ha =>
      have hrecovering := hk.recovering ⟨.inl ⟨_, _, ha⟩, hs, hc⟩
      rcases hrecovering.step hstep (by decide) hf with ⟨hr, -, hacts, hbackoff⟩ | hw
      · exact .cleaning hr.failed hacts hbackoff
      · exact .waiting hw
  | farewell ha => exact absurd ⟨⟨_, _, ha⟩, rfl, hs, hc⟩ hf

variable (cfg) in
/-- No outcome of the run is fatal. -/
def Unharmed (g : GatewayLoop) (outcomes : List Outcome) : Prop :=
  ∀ pre o rest st, outcomes = pre ++ o :: rest → (system cfg).exec g pre = some st → ¬ st.Fatal o

theorem Unharmed.take {pre rest : List Outcome} (h : Unharmed cfg g (pre ++ rest)) :
    Unharmed cfg g pre := fun pre' o rest' st heq hex =>
  h pre' o (rest' ++ rest) st (by rw [heq, List.append_assoc]; rfl) hex

theorem Unharmed.head {o : Outcome} {rest : List Outcome} (h : Unharmed cfg g (o :: rest)) :
    ¬ g.Fatal o := h [] o rest g rfl rfl

theorem Unharmed.tail {rest : List Outcome} (h : Unharmed cfg g (o :: rest))
    (hs : step cfg g o = some g') : Unharmed cfg g' rest := fun pre o' rest' st heq hex =>
  h (o :: pre) o' rest' st (by rw [heq]; rfl)
    ((Transition.System.exec_of_step (S := system cfg) hs).trans hex)

theorem Unharmed.drop {pre rest : List Outcome} (h : Unharmed cfg g (pre ++ rest))
    (hs : (system cfg).exec g pre = some g') : Unharmed cfg g' rest := fun pre' o rest' st heq hex =>
  h (pre ++ pre') o rest' st (by rw [heq, List.append_assoc])
    (by rw [Transition.System.exec_append, hs, Option.bind_some, hex])

/-- After a run without a fatal outcome the loop is kept. -/
theorem Kept.run (h : g.Kept) {outcomes : List Outcome} (hu : Unharmed cfg g outcomes)
    (hex : (system cfg).exec g outcomes = some g') : g'.Kept := by
  induction outcomes generalizing g with
  | nil =>
      obtain rfl := Option.some.inj hex
      exact h
  | cons o rest ih =>
      obtain ⟨g₁, hs, hex⟩ := Transition.System.exec_cons hex
      exact ih (h.step hs hu.head) (hu.tail hs) hex

/-- The loop waited one back-off and is connecting again. -/
structure Retried (before after : GatewayLoop) : Prop where
  await : after.await = .connect
  acts : after.acts = before.acts ++ [.wait before.backoff, .attempt]

/-- The end of the back-off is the next attempt. -/
theorem Waiting.retried {before : GatewayLoop} (h : g.Waiting before)
    (hstep : step cfg g o = some g') (ho : o ≠ .stop ∧ o ≠ .cancelled) : before.Retried g' := by
  cases o with
  | ok =>
      simp only [GatewayLoop.step, h.await, Option.some.injEq] at hstep
      subst hstep
      simp only [loop, h.running, Bool.false_eq_true, if_false]
      exact ⟨rfl, by rw [h.acts, List.append_assoc]; rfl⟩
  | stop => exact absurd rfl ho.1
  | cancelled => exact absurd rfl ho.2
  | ended => simp only [GatewayLoop.step, h.await] at hstep; cases hstep
  | raised => simp only [GatewayLoop.step, h.await] at hstep; cases hstep

/-- **Retry.** A failed attempt is followed by one back-off and the next attempt, after as
many outcomes as there are awaits left. -/
theorem Recovering.retries (h : g.Recovering) {outcomes : List Outcome}
    (hu : Unharmed cfg g outcomes) (hex : (system cfg).exec g outcomes = some g')
    (ho : ∀ o ∈ outcomes, o ≠ .stop ∧ o ≠ .cancelled) (hd : distance cfg g ≤ outcomes.length) :
    ∃ mid rest g₁, outcomes = mid ++ rest ∧ (system cfg).exec g mid = some g₁ ∧ g.Retried g₁ := by
  induction outcomes generalizing g with
  | nil =>
      rcases h.cleaning with ⟨was, ha⟩ | ⟨left, ha⟩ <;> simp [distance, ha] at hd
  | cons o rest ih =>
      obtain ⟨g₁, hs, hex⟩ := Transition.System.exec_cons hex
      have ho' : ∀ o ∈ rest, o ≠ .stop ∧ o ≠ .cancelled := fun o' hm =>
        ho o' (List.mem_cons_of_mem _ hm)
      rcases h.step hs (ho o List.mem_cons_self) hu.head with ⟨hr, hlt, hacts, hb⟩ | hw
      · obtain ⟨mid, tail, g₂, rfl, hmid, hret⟩ := ih hr (hu.tail hs) hex ho' (by
          rw [List.length_cons] at hd; omega)
        refine ⟨o :: mid, tail, g₂, rfl, ?_, ?_⟩
        · rw [Transition.System.exec_of_step (S := system cfg) hs]; exact hmid
        · exact ⟨hret.await, by rw [hret.acts, hacts, hb]⟩
      · -- one more outcome ends the back-off
        cases rest with
        | nil =>
            rcases h.cleaning with ⟨was, ha⟩ | ⟨left, ha⟩ <;> simp [distance, ha] at hd
        | cons o' rest =>
            obtain ⟨g₂, hs₂, -⟩ := Transition.System.exec_cons hex
            refine ⟨[o, o'], rest, g₂, rfl, ?_, hw.retried hs₂ (ho' o' List.mem_cons_self)⟩
            rw [Transition.System.exec_of_step (S := system cfg) hs,
              Transition.System.exec_of_step (S := system cfg) hs₂]
            rfl

end

/-- **What a surviving loop does** in a run: it is over only after a stop or a
cancellation, and after every failure it waits one back-off and makes the next attempt, as soon as
the awaits in between are over. -/
structure Survives (cfg : Settings) (outcomes : List Outcome) : Prop where
  stays : ∀ pre rest st, outcomes = pre ++ rest → (system cfg).exec (start cfg) pre = some st →
    st.await = .gone → st.stopping = true ∨ st.cancelled = true
  /-- From a failure. -/
  reconnects : ∀ pre o rest st st₁ st', outcomes = pre ++ o :: rest →
    (system cfg).exec (start cfg) pre = some st → st.Fails o → st.stopping = false →
    st.cancelled = false → step cfg st o = some st₁ → (system cfg).exec st₁ rest = some st' →
    (∀ o ∈ rest, o ≠ .stop ∧ o ≠ .cancelled) → distance cfg st₁ ≤ rest.length →
    ∃ mid tail next, rest = mid ++ tail ∧ (system cfg).exec st₁ mid = some next ∧ st.Retried next
  /-- From anywhere in the clean-up. -/
  retries : ∀ pre rest st st', outcomes = pre ++ rest →
    (system cfg).exec (start cfg) pre = some st → (system cfg).exec st rest = some st' →
    st.Failed → (∀ o ∈ rest, o ≠ .stop ∧ o ≠ .cancelled) → distance cfg st ≤ rest.length →
    ∃ mid tail next, rest = mid ++ tail ∧ (system cfg).exec st mid = some next ∧ st.Retried next

/-- **The gateway loop survives** a run if and only if no subscriber of `mqtt_disconnected`
raises in the clean-up of an attempt that was neither stopped nor cancelled. -/
theorem loop_survives_iff (cfg : Settings) (outcomes : List Outcome) :
    Survives cfg outcomes ↔ Unharmed cfg (start cfg) outcomes := by
  constructor
  · rintro hsurv pre o rest st rfl hex ⟨⟨left, unwinding, ha⟩, rfl, hs, hc⟩
    have hstep : (system cfg).step st .raised = some { st with await := .gone } := by
      simp only [system, step, ha]
    have hgone := hsurv.stays (pre ++ [.raised]) rest _ (by simp)
      (by rw [Transition.System.exec_snoc hex, hstep]) rfl
    rcases hgone with h | h
    · exact absurd h (by rw [hs]; simp)
    · exact absurd h (by rw [hc]; simp)
  · intro hu
    have hkept : ∀ pre rest st, outcomes = pre ++ rest →
        (system cfg).exec (start cfg) pre = some st → st.Kept := by
      rintro pre rest st rfl hex
      exact (kept_loop _).run hu.take hex
    have hretries : ∀ pre rest st st', outcomes = pre ++ rest →
        (system cfg).exec (start cfg) pre = some st → (system cfg).exec st rest = some st' →
        st.Failed → (∀ o ∈ rest, o ≠ .stop ∧ o ≠ .cancelled) → distance cfg st ≤ rest.length →
        ∃ mid tail next, rest = mid ++ tail ∧ (system cfg).exec st mid = some next ∧
          st.Retried next := by
      intro pre rest st st' heq hpre hrest hfail ho hd
      refine ((hkept pre rest st heq hpre).recovering hfail).retries ?_ hrest ho hd
      rw [heq] at hu
      exact hu.drop hpre
    refine ⟨fun pre rest st heq hex => (hkept pre rest st heq hex).gone, ?_, hretries⟩
    intro pre o rest st st₁ st' heq hpre hfails hs hc hstep hrest ho hd
    have hf : ¬ st.Fatal o := hu pre o rest st heq hpre
    have hpre₁ : (system cfg).exec (start cfg) (pre ++ [o]) = some st₁ := by
      rw [Transition.System.exec_snoc hpre]
      exact hstep
    cases hfails.comes hstep hs hc (hkept pre _ st heq hpre) hf with
    | cleaning h hacts hbackoff =>
        obtain ⟨mid, tail, next, hmid, hex, hretried⟩ :=
          hretries (pre ++ [o]) rest st₁ st' (by rw [heq, List.append_assoc]; rfl) hpre₁ hrest h ho hd
        exact ⟨mid, tail, next, hmid, hex, hretried.await, by rw [hretried.acts, hacts, hbackoff]⟩
    | waiting h =>
        -- the clean-up is over, and one outcome ends the back-off
        cases rest with
        | nil => simp [distance, h.await] at hd
        | cons o' rest =>
            obtain ⟨st₂, hstep₂, -⟩ := Transition.System.exec_cons hrest
            refine ⟨[o'], rest, st₂, rfl, ?_, h.retried hstep₂ (ho o' List.mem_cons_self)⟩
            rw [Transition.System.exec_of_step (S := system cfg) hstep₂]
            rfl

/-- One subscriber: the connection is lost, and the subscriber raises on the news. -/
theorem loop_lost_peer :
    ¬ Survives ⟨1, 30, 1, by decide⟩
      [.ok, .ok, .ok, .ok, .ok, .ok, .ok, .raised, .ok, .raised] := by
  intro h
  have := h.stays _ [] _ (by rw [List.append_nil]) rfl rfl
  revert this
  decide

end GatewayLoop

end KzHome

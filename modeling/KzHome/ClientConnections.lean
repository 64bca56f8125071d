import KzHome.GatewayFlags

/-!
# KzHome.ClientConnections

The connections that the MQTT client of the gateway holds: `AiomqttClient` under
`MQTTGateway.run` and `stop`.

`connect` refuses a client that holds a connection, and keeps the one that it enters. A
cancelled `connect` waits for the end of the entry, and a connection that comes late is left at
once. `disconnect` takes the connection away before it leaves it, so that of two calls only one
finds it.

The client alone does not keep its promise: two overlapping calls of `connect` both find no
connection, and the second one overwrites what the first one entered. The gateway is what
keeps them apart (`connections_released`): **`connect` never finds a connection, each connection
is left once at most, and none is held when `run` is over.** Only a `connect` that is cancelled
once more while it waits for the entry abandons it: the thread of the entry goes on, and what it
establishes is left by nobody.
-/

namespace KzHome

open GatewayLoop

/-- Where a call of `connect` is. -/
inductive Connecting
  /-- It has not been cancelled. -/
  | shielded
  /-- `await entry`, after a cancellation. -/
  | settling
  /-- `await client.__aexit__(None, None, None)` of the late connection. -/
  | exiting
  deriving DecidableEq, Repr

/-- `AiomqttClient`, by its `_client` and the await of a cancelled `connect`. The connections are
counted as they are established; the last four members are ghosts. -/
structure AiomqttClient where
  client : Option Nat
  entry : Connecting
  established : Nat
  /-- The connections that `__aexit__` was called for, in this order. -/
  exits : List Nat
  /-- The entries that nobody waits for any more. -/
  stray : Nat
  /-- The connections that they have established. -/
  abandoned : List Nat

namespace AiomqttClient

variable (c : AiomqttClient)

/-- `connect`, whose entry succeeded. -/
def entered : AiomqttClient :=
  { c with client := some c.established, established := c.established + 1 }

/-- `connect`, which was cancelled, and whose entry succeeded after that: `__aexit__` is called. -/
def late : AiomqttClient :=
  { c with entry := .exiting, established := c.established + 1, exits := c.exits ++ [c.established] }

/-- `connect` raises. -/
def settled : AiomqttClient := { c with entry := .shielded }

/-- `connect` is cancelled once more, and with it the task that it waits for. -/
def abandon : AiomqttClient := { c with entry := .shielded, stray := c.stray + 1 }

/-- The thread of a stray entry has established its connection. -/
def opens : AiomqttClient :=
  { c with
    established := c.established + 1
    stray := c.stray - 1
    abandoned := c.abandoned ++ [c.established] }

/-- `disconnect`, up to its await. -/
def disconnect : AiomqttClient :=
  { c with client := none, exits := c.exits ++ c.client.toList }

end AiomqttClient

/-- The gateway and its client. -/
structure LinkedGateway where
  gateway : Gateway
  client : AiomqttClient

namespace LinkedGateway

/-- What can happen next. -/
inductive Event
  | gateway (event : Gateway.Event)
  /-- The `shield` of `connect` is cancelled. -/
  | cancel
  /-- Something comes of `await entry`. -/
  | settled (outcome : Outcome)
  /-- Something comes of the `__aexit__` of a late connection; it returns also where it raises an
  `MqttError`. -/
  | exited (outcome : Outcome)
  /-- A stray entry establishes its connection. -/
  | opens
  deriving DecidableEq, Repr

variable (cfg : Settings) (l : LinkedGateway)

/-- `connect` returns. -/
def enters (event : Gateway.Event) : Bool :=
  l.gateway.loop.await = .connect && event = .run .ok

/-- `run` is inside of a `connect` that this event is none of: what comes of a cancelled one
are events of the client. -/
def defers (event : Gateway.Event) : Bool :=
  match event with
  | .run o => l.gateway.loop.await = .connect && (l.client.entry ≠ .shielded || o = .cancelled)
  | _ => false

/-- `disconnect` is called: by the clean-up of `run`, or by a `stop` that finds the gateway
connected. -/
def leaves (event : Gateway.Event) (gw : Gateway) : Bool :=
  match event with
  | .run _ => match gw.loop.await with
    | .disconnect _ _ => true
    | _ => false
  | _ => l.gateway.loop.connected && !gw.loop.connected

/-- What an event makes of the client. -/
def follow (event : Gateway.Event) (gw : Gateway) (client : AiomqttClient) : LinkedGateway :=
  let client := if l.enters event then client.entered else client
  ⟨gw, if l.leaves event gw then client.disconnect else client⟩

/-- `connect` raises, with what it made of the client. -/
def raises (o : Outcome) (client : AiomqttClient) : Option LinkedGateway :=
  (l.gateway.proceed cfg o).map fun gw => l.follow (.run o) gw client

/-- The gateway with its client as a transition system. -/
def system : Transition.System LinkedGateway Event where
  step l
    | .gateway event =>
      if l.defers event then none
      -- MQTT client is already connected
      else if l.enters event ∧ l.client.client ≠ none then none
      else ((Gateway.system cfg).step l.gateway event).map fun gw => l.follow event gw l.client
    | .cancel =>
      if l.gateway.loop.await = .connect ∧ l.client.entry = .shielded ∧ l.client.client = none then
        some { l with client := { l.client with entry := .settling } }
      else none
    | .settled o =>
      match l.client.entry, o with
      | .settling, .ok => some { l with client := l.client.late }
      -- not a late connect error
      | .settling, .raised => l.raises cfg .cancelled l.client.settled
      | .settling, .cancelled => l.raises cfg .cancelled l.client.abandon
      | _, _ => none
    | .exited o =>
      match l.client.entry, o with
      | .exiting, .ok => l.raises cfg .cancelled l.client.settled
      | .exiting, .raised => l.raises cfg .raised l.client.settled
      | .exiting, .cancelled => l.raises cfg .cancelled l.client.settled
      | _, _ => none
    | .opens => if 0 < l.client.stray then some { l with client := l.client.opens } else none

/-- The gateway when `run` starts, as a task or not, with a client that is not connected. -/
def start (task : Bool) : LinkedGateway :=
  ⟨Gateway.start cfg task, ⟨none, .shielded, 0, [], 0, []⟩⟩

end LinkedGateway

/-! ### What the client holds -/

namespace AiomqttClient

/-- Every connection is held, or it was left or abandoned once. -/
def Accounted (c : AiomqttClient) : Prop :=
  (c.client.toList ++ (c.exits ++ c.abandoned)).Perm (List.range c.established)

variable {c : AiomqttClient}

theorem Accounted.entered (h : Accounted c) (hnone : c.client = none) : Accounted c.entered := by
  unfold Accounted at h ⊢
  rw [hnone] at h
  simp only [AiomqttClient.entered, List.range_succ]
  exact (h.cons _).trans (List.perm_append_singleton _ _).symm

theorem Accounted.late (h : Accounted c) : Accounted c.late := by
  unfold Accounted at h ⊢
  simp only [AiomqttClient.late, List.range_succ]
  refine List.Perm.trans ?_ (h.append_right _)
  simp only [List.append_assoc]
  exact ((List.perm_append_comm).append_left _).append_left _

theorem Accounted.opens (h : Accounted c) : Accounted c.opens := by
  unfold Accounted at h ⊢
  simp only [AiomqttClient.opens, List.range_succ]
  rw [← List.append_assoc c.exits, ← List.append_assoc]
  exact h.append_right _

theorem Accounted.disconnect (h : Accounted c) : Accounted c.disconnect := by
  unfold Accounted at h ⊢
  simp only [AiomqttClient.disconnect, Option.toList_none, List.nil_append]
  refine List.Perm.trans ?_ h
  rw [← List.append_assoc]
  exact List.perm_append_comm.append_right _

end AiomqttClient

/-! ### One event -/

namespace GatewayLoop

/-- `run` is between the return of `connect` and its clean-up. -/
def Await.inside : Await → Bool
  | .subscribe _ _ | .announce _ | .messages | .handle => true
  | _ => false

theorem Await.inside_of_up {a : Await} (h : a.up = true) : a.inside = true := by
  cases a with
  | announce left => rfl
  | messages => rfl
  | handle => rfl
  | _ => cases h

def Await.leaving : Await → Bool
  | .disconnect _ _ => true
  | _ => false

theorem subscribing_inside (cfg : Settings) (g : GatewayLoop) (kinds : List Inbound) :
    (g.subscribing cfg kinds).await.inside = true := by
  obtain ⟨-, a, hup, heq⟩ | ⟨kind, rest, -, heq⟩ := subscribing_eq cfg g kinds
  · rw [heq]
    exact Await.inside_of_up hup
  · rw [heq]
    rfl

end GatewayLoop

namespace Gateway

variable {cfg : Settings} {gw gw' : Gateway}

theorem connectionAfter_isSome (g g' : GatewayLoop) (o : Outcome) (c : Option (List Inbound)) :
    (connectionAfter g g' o c).isSome =
      (!g'.await.leaving && ((g.await = .connect && o = .ok) || c.isSome)) := by
  unfold connectionAfter
  cases hleaving : g'.await <;> cases hawait : g.await <;> cases o <;>
    simp [Await.leaving]

end Gateway

namespace LinkedGateway

variable {cfg : Settings} {l l' : LinkedGateway}

/-- The client holds a connection when the gateway has one, which is so only inside of an
attempt; a `connect` that was cancelled is not over. -/
structure Consistent (l : LinkedGateway) : Prop where
  truthful : l.gateway.Truthful
  accounted : l.client.Accounted
  same : l.client.client.isSome = l.gateway.connection.isSome
  inside : l.gateway.connection.isSome = true → l.gateway.loop.await.inside = true
  entering : l.client.entry ≠ .shielded → l.gateway.loop.await = .connect

theorem Consistent.outside (h : Consistent l) (ha : l.gateway.loop.await.inside = false) :
    l.client.client = none := by
  rw [← Option.not_isSome_iff_eq_none, h.same]
  intro hsome
  rw [h.inside hsome] at ha
  cases ha

/-- A flag that is set has a connection. -/
theorem Consistent.connected (h : Consistent l) (hc : l.gateway.loop.connected = true) :
    l.client.client ≠ none := by
  obtain ⟨-, subs, hsubs, -⟩ := h.truthful.connected hc
  rw [← Option.isSome_iff_ne_none, h.same, hsubs]
  rfl

theorem accounted_follow {event : Gateway.Event} {gw : Gateway} {client : AiomqttClient}
    (h : client.Accounted) (hfree : l.enters event = true → client.client = none) :
    (l.follow event gw client).client.Accounted := by
  have hentered : (if l.enters event then client.entered else client).Accounted := by
    split
    · exact h.entered (hfree ‹_›)
    · exact h
  unfold follow
  dsimp only
  split
  · exact hentered.disconnect
  · exact hentered

/-- What the client holds after an event. -/
theorem follow_isSome (event : Gateway.Event) (gw : Gateway) (client : AiomqttClient) :
    (l.follow event gw client).client.client.isSome =
      (!l.leaves event gw && (l.enters event || client.client.isSome)) := by
  unfold follow
  cases l.leaves event gw <;> cases l.enters event <;> rfl

/-- An event of the gateway leaves what a cancelled `connect` left behind. -/
theorem follow_keeps (event : Gateway.Event) (gw : Gateway) (client : AiomqttClient) :
    (l.follow event gw client).client.entry = client.entry ∧
      (l.follow event gw client).client.stray = client.stray ∧
        (l.follow event gw client).client.abandoned = client.abandoned := by
  unfold follow
  cases l.leaves event gw <;> cases l.enters event <;> exact ⟨rfl, rfl, rfl⟩

/-- **One outcome of `run`.** -/
theorem Consistent.run (h : Consistent l) {o : Outcome} {gw : Gateway} {client : AiomqttClient}
    (hp : l.gateway.proceed cfg o = some gw) (hclient : client.client = l.client.client)
    (hentry : client.entry = .shielded) (haccounted : client.Accounted) :
    Consistent (l.follow (.run o) gw client) := by
  obtain ⟨hmoves, heq⟩ := Gateway.proceed_eq hp
  have hconnection : gw.connection.isSome = (!gw.loop.await.leaving &&
      ((l.gateway.loop.await = .connect && o = .ok) || l.gateway.connection.isSome)) := by
    rw [congrArg Gateway.connection heq]
    exact Gateway.connectionAfter_isSome _ _ _ _
  have hleaves : l.leaves (.run o) gw = gw.loop.await.leaving := by
    cases ha : gw.loop.await <;> simp [leaves, Await.leaving, ha]
  have henters : l.enters (.run o) = (l.gateway.loop.await = .connect && o = .ok) := by
    simp [enters]
  refine ⟨h.truthful.proceed hp, accounted_follow haccounted fun hin => ?_, ?_, fun hsome => ?_,
    fun hne => absurd ((follow_keeps _ _ _).1.trans hentry) hne⟩
  · rw [hclient]
    refine h.outside ?_
    rw [henters, Bool.and_eq_true, decide_eq_true_eq] at hin
    rw [hin.1]
    rfl
  · rw [follow_isSome, hleaves, henters, hclient, h.same]
    exact hconnection.symm
  · have hsome : gw.connection.isSome = true := hsome
    rw [hconnection, Bool.and_eq_true, Bool.or_eq_true, Bool.and_eq_true, decide_eq_true_eq,
      decide_eq_true_eq] at hsome
    obtain ⟨hstays, hsome⟩ := hsome
    change gw.loop.await.inside = true
    -- outside of an attempt there is nothing to keep
    have hout : l.gateway.loop.await.inside = false → l.gateway.loop.await ≠ .connect → False := by
      intro hin hne
      obtain ⟨ha, -⟩ | hold := hsome
      · exact hne ha
      · rw [h.inside hold] at hin
        cases hin
    cases hmoves with
    | connects ha ho hg => rw [hg]; exact subscribing_inside _ _ _
    | subscribes kind rest ha ho hg => rw [hg]; exact subscribing_inside _ _ _
    | continues rest ha ho hg => rw [hg]; exact subscribing_inside _ _ _
    | greets left ha ho hg =>
        obtain ⟨a, hup, hgreet⟩ := greet_eq l.gateway.loop (left - 1)
        rw [hg, hgreet]
        exact Await.inside_of_up hup
    | receives ha ho hg => rw [hg]; rfl
    | handles ha hg => rw [hg]; rfl
    | fails unwinding cancelled ha ho hg =>
        rw [hg] at hstays
        cases hstays
    | parts was unwinding ha ho hg => exact (hout (by rw [ha]; rfl) (by rw [ha]; nofun)).elim
    | dismisses left unwinding ha ho hg =>
        exact (hout (by rw [ha]; rfl) (by rw [ha]; nofun)).elim
    | wakes ha ho hg => exact (hout (by rw [ha]; rfl) (by rw [ha]; nofun)).elim
    | ends cancelled ha ho hg =>
        obtain ⟨was, unwinding, ha⟩ | ⟨left, unwinding, ha⟩ | ha := ha
        · exact (hout (by rw [ha]; rfl) (by rw [ha]; nofun)).elim
        · exact (hout (by rw [ha]; rfl) (by rw [ha]; nofun)).elim
        · exact (hout (by rw [ha]; rfl) (by rw [ha]; nofun)).elim

/-- What a call of `stop` makes of the connection. -/
structure Parts (gw gw' : Gateway) : Prop where
  await : gw'.loop.await = gw.loop.await
  connection : gw'.connection.isSome =
    (!(gw.loop.connected && !gw'.loop.connected) && gw.connection.isSome)

theorem parts_release (gw : Gateway) : Parts gw gw.release.1 := by
  unfold Gateway.release
  split
  · rename_i hc
    exact ⟨rfl, by simp [hc]⟩
  · exact ⟨rfl, by simp⟩

theorem parts_same {gw gw' : Gateway} (hawait : gw'.loop.await = gw.loop.await)
    (hconnected : gw'.loop.connected = gw.loop.connected)
    (hconnection : gw'.connection = gw.connection) : Parts gw gw' :=
  ⟨hawait, by simp [hconnected, hconnection]⟩

theorem parts_stop (gw : Gateway) : Parts gw gw.stop := by
  unfold Gateway.stop
  dsimp only
  split
  · exact parts_same rfl rfl rfl
  · have hr := parts_release { gw with loop := { gw.loop with stopping := true }, task := false }
    exact ⟨hr.await, hr.connection⟩

theorem parts_resume {gw gw' : Gateway} {index : Nat} {o : Outcome}
    (h : gw.resume cfg index o = some gw') : Parts gw gw' := by
  obtain ⟨-, -, rfl⟩ | ⟨-, rfl⟩ | ⟨c, c', -, -, rfl⟩ := Gateway.resumes_of_resume h
  · have hr := parts_release gw
    exact ⟨hr.await, hr.connection⟩
  · exact parts_same rfl rfl rfl
  · exact parts_same rfl rfl rfl

/-- **What a call of `stop` does.** -/
theorem Consistent.parts (h : Consistent l) {event : Gateway.Event} {gw : Gateway}
    (hevent : ∀ o, event ≠ .run o) (ht : gw.Truthful) (hparts : Parts l.gateway gw) :
    Consistent (l.follow event gw l.client) := by
  have henters : l.enters event = false := by
    simp [enters, hevent]
  have hleaves : l.leaves event gw = (l.gateway.loop.connected && !gw.loop.connected) := by
    unfold leaves
    split
    · exact absurd rfl (hevent _)
    · rfl
  refine ⟨ht, accounted_follow h.accounted fun hin => ?_, ?_, fun hsome => ?_, fun hne => ?_⟩
  · rw [henters] at hin
    cases hin
  · rw [follow_isSome, hleaves, henters, Bool.false_or, h.same]
    exact hparts.connection.symm
  · have hsome : gw.connection.isSome = true := hsome
    rw [hparts.connection, Bool.and_eq_true] at hsome
    exact (congrArg Await.inside hparts.await).trans (h.inside hsome.2)
  · exact hparts.await.trans (h.entering fun hold => hne ((follow_keeps _ _ _).1.trans hold))

/-- A `connect` that was cancelled raises. -/
theorem Consistent.raised (h : Consistent l) {o : Outcome} {client : AiomqttClient}
    (hr : l.raises cfg o client = some l') (hclient : client.client = l.client.client)
    (hentry : client.entry = .shielded) (haccounted : client.Accounted) : Consistent l' := by
  obtain ⟨gw, hgw, rfl⟩ := Option.map_eq_some_iff.mp hr
  exact h.run hgw hclient hentry haccounted

/-- What an event makes of the gateway and its client. -/
inductive Steps (cfg : Settings) (l : LinkedGateway) (l' : LinkedGateway) : Event → Prop
  | gateway (event : Gateway.Event) (gw : Gateway) (hdefers : l.defers event = false)
      (hgw : (Gateway.system cfg).step l.gateway event = some gw)
      (h : l' = l.follow event gw l.client) : Steps cfg l l' (.gateway event)
  | cancel (hawait : l.gateway.loop.await = .connect)
      (h : l' = { l with client := { l.client with entry := .settling } }) : Steps cfg l l' .cancel
  | late (hentry : l.client.entry = .settling) (h : l' = { l with client := l.client.late }) :
      Steps cfg l l' (.settled .ok)
  | failed (hentry : l.client.entry = .settling)
      (h : l.raises cfg .cancelled l.client.settled = some l') : Steps cfg l l' (.settled .raised)
  | abandoned (hentry : l.client.entry = .settling)
      (h : l.raises cfg .cancelled l.client.abandon = some l') :
      Steps cfg l l' (.settled .cancelled)
  | exited (o o' : Outcome) (hentry : l.client.entry = .exiting)
      (h : l.raises cfg o' l.client.settled = some l') : Steps cfg l l' (.exited o)
  | opens (hstray : 0 < l.client.stray) (h : l' = { l with client := l.client.opens }) :
      Steps cfg l l' .opens

/-- **Inversion** of an event. -/
theorem steps_of_step {event : Event} (h : (system cfg).step l event = some l') :
    Steps cfg l l' event := by
  cases event with
  | gateway event =>
      simp only [system] at h
      split at h
      · cases h
      rename_i hdefers
      split at h
      · cases h
      obtain ⟨gw, hgw, rfl⟩ := Option.map_eq_some_iff.mp h
      exact .gateway event gw (Bool.not_eq_true _ ▸ hdefers) hgw rfl
  | cancel =>
      simp only [system] at h
      split at h
      · rename_i hconnect
        exact .cancel hconnect.1 (Option.some.inj h).symm
      · cases h
  | settled o =>
      simp only [system] at h
      split at h
      · exact .late ‹_› (Option.some.inj h).symm
      · exact .failed ‹_› h
      · exact .abandoned ‹_› h
      · cases h
  | exited o =>
      simp only [system] at h
      split at h
      · exact .exited .ok .cancelled ‹_› h
      · exact .exited .raised .raised ‹_› h
      · exact .exited .cancelled .cancelled ‹_› h
      · cases h
  | opens =>
      simp only [system] at h
      split at h
      · exact .opens ‹_› (Option.some.inj h).symm
      · cases h

/-- **One event.** -/
theorem Consistent.step (h : Consistent l) {event : Event}
    (hs : (system cfg).step l event = some l') : Consistent l' := by
  cases steps_of_step hs with
  | gateway event gw hdefers hgw heq =>
      subst heq
      cases event with
      | run o =>
          refine h.run hgw rfl ?_ h.accounted
          by_contra hentry
          simp only [defers, h.entering hentry, hentry, decide_true, Bool.true_and, ne_eq,
            not_false_eq_true, Bool.true_or, reduceCtorEq] at hdefers
      | stop =>
          obtain rfl := Option.some.inj hgw
          exact h.parts (fun _ heq => by cases heq) h.truthful.stop (parts_stop _)
      | caller index o =>
          exact h.parts (fun _ heq => by cases heq) (h.truthful.resume hgw) (parts_resume hgw)
  | cancel hawait heq =>
      subst heq
      exact ⟨h.truthful, h.accounted, h.same, h.inside, fun _ => hawait⟩
  | late hentry heq =>
      subst heq
      exact ⟨h.truthful, h.accounted.late, h.same, h.inside,
        fun _ => h.entering (by rw [hentry]; decide)⟩
  | failed hentry hr => exact h.raised hr rfl rfl h.accounted
  | abandoned hentry hr => exact h.raised hr rfl rfl h.accounted
  | exited o o' hentry hr => exact h.raised hr rfl rfl h.accounted
  | opens hstray heq =>
      subst heq
      exact ⟨h.truthful, h.accounted.opens, h.same, h.inside, h.entering⟩

/-! ### Whole runs -/

/-- What a run of the gateway makes of the connections. -/
structure Released (l : LinkedGateway) : Prop where
  /-- Every connection that was established is held, or was left or abandoned. -/
  every : ∀ n, n < l.client.established ↔
    l.client.client = some n ∨ n ∈ l.client.exits ∨ n ∈ l.client.abandoned
  /-- It is so once. -/
  once : (l.client.exits ++ l.client.abandoned).Nodup
  held : ∀ n, l.client.client = some n → n ∉ l.client.exits ∧ n ∉ l.client.abandoned
  /-- `connect` finds no connection. -/
  free : l.gateway.loop.await = .connect → l.client.client = none
  /-- What is published while the gateway is connected finds one. -/
  connected : l.gateway.loop.connected = true → l.client.client ≠ none
  /-- `run` is over: nothing is held. -/
  ended : l.gateway.loop.await = .gone → l.client.client = none ∧
    ∀ n, n < l.client.established → n ∈ l.client.exits ∨ n ∈ l.client.abandoned

theorem Consistent.released (h : Consistent l) : Released l := by
  have hperm := h.accounted
  have hevery : ∀ n, n < l.client.established ↔
      l.client.client = some n ∨ n ∈ l.client.exits ∨ n ∈ l.client.abandoned := by
    intro n
    rw [← List.mem_range, ← hperm.mem_iff, List.mem_append, List.mem_append, Option.mem_toList]
  have hnodup := hperm.nodup_iff.mpr List.nodup_range
  obtain ⟨-, honce, hdisjoint⟩ := List.nodup_append.mp hnodup
  refine ⟨hevery, honce, fun n hn => ?_, fun ha => h.outside (by rw [ha]; rfl), h.connected,
    fun ha => ?_⟩
  · have hheld := hdisjoint n (Option.mem_toList.mpr hn)
    exact ⟨fun hmem => hheld n (List.mem_append_left _ hmem) rfl,
      fun hmem => hheld n (List.mem_append_right _ hmem) rfl⟩
  · have hnone := h.outside (by rw [ha]; rfl)
    refine ⟨hnone, fun n hn => ((hevery n).mp hn).resolve_left ?_⟩
    rw [hnone]
    exact Option.some_ne_none n ∘ Eq.symm

theorem consistent_start (cfg : Settings) (task : Bool) : Consistent (start cfg task) where
  truthful := (Gateway.kept_start task).flags
  accounted := List.Perm.refl []
  same := rfl
  inside h := by cases h
  entering h := absurd rfl h

theorem consistent_run (cfg : Settings) (task : Bool) (events : List Event) :
    Consistent ((system cfg).run (start cfg task) events) :=
  (system cfg).invariant (fun _ _ _ h hs => h.step hs) (consistent_start cfg task) events

/-- Nothing was abandoned, and nothing can be. -/
def Settled (l : LinkedGateway) : Prop := l.client.stray = 0 ∧ l.client.abandoned = []

theorem Settled.raises (h : Settled l) {o : Outcome}
    (hr : l.raises cfg o l.client.settled = some l') : Settled l' := by
  obtain ⟨gw, -, rfl⟩ := Option.map_eq_some_iff.mp hr
  obtain ⟨-, hstray, habandoned⟩ := follow_keeps (l := l) (.run o) gw l.client.settled
  exact ⟨hstray.trans h.1, habandoned.trans h.2⟩

theorem Settled.step (h : Settled l) {event : Event} (hs : (system cfg).step l event = some l')
    (hevent : event ≠ .settled .cancelled) : Settled l' := by
  cases steps_of_step hs with
  | gateway event gw hdefers hgw heq =>
      obtain ⟨-, hstray, habandoned⟩ := follow_keeps (l := l) event gw l.client
      subst heq
      exact ⟨hstray.trans h.1, habandoned.trans h.2⟩
  | cancel hawait heq => subst heq; exact h
  | late hentry heq => subst heq; exact h
  | failed hentry hr => exact h.raises hr
  | abandoned hentry hr => exact absurd rfl hevent
  | exited o o' hentry hr => exact h.raises hr
  | opens hstray heq =>
      rw [h.1] at hstray
      cases hstray

theorem Settled.run (h : Settled l) {events : List Event}
    (hevents : .settled .cancelled ∉ events) : Settled ((system cfg).run l events) := by
  induction events generalizing l with
  | nil => exact h
  | cons event events ih =>
      rw [List.mem_cons, not_or] at hevents
      refine ih ?_ hevents.2
      obtain hn | hn := (system cfg).next_cases l event
      · rw [hn]
        exact h
      · exact h.step hn (Ne.symm hevents.1)

/-! ### The gateway does not notice -/

/-- The events that make an event of the gateway: a `connect` that is cancelled, and whose entry
fails, is two. -/
def expand (l : LinkedGateway) (event : Gateway.Event) : List Event :=
  if l.gateway.loop.await = .connect ∧ event = .run .cancelled then [.cancel, .settled .raised]
  else [.gateway event]

variable (cfg) in
theorem Consistent.follows (h : Consistent l) (hentry : l.client.entry = .shielded)
    (event : Gateway.Event) :
    ((system cfg).run l (l.expand event)).gateway = (Gateway.system cfg).next l.gateway event ∧
      ((system cfg).run l (l.expand event)).client.entry = .shielded := by
  unfold expand
  split
  · rename_i hcancel
    obtain ⟨hawait, rfl⟩ := hcancel
    have hnone := h.outside (by rw [hawait]; rfl)
    have hsettling : (system cfg).next l .cancel =
        { l with client := { l.client with entry := .settling } } :=
      Transition.System.next_of_step (by
        simp only [system]
        rw [if_pos ⟨hawait, hentry, hnone⟩])
    -- the loop takes a cancellation at this await
    obtain ⟨gw, hgw⟩ : ∃ gw, l.gateway.proceed cfg .cancelled = some gw := by
      rw [Gateway.proceed, if_neg (by decide)]
      simp only [GatewayLoop.step, hawait, Option.map_some, Option.some.injEq, exists_eq']
    have hraises : l.raises cfg .cancelled l.client.settled =
        some (l.follow (.run .cancelled) gw l.client.settled) := by
      rw [raises, hgw]
      rfl
    have hfailed : (system cfg).next { l with client := { l.client with entry := .settling } }
        (.settled .raised) = l.follow (.run .cancelled) gw l.client.settled :=
      Transition.System.next_of_step hraises
    rw [Transition.System.run_cons, Transition.System.run_cons, Transition.System.run_nil,
      hsettling, hfailed]
    exact ⟨(Transition.System.next_of_step (S := Gateway.system cfg) (i := .run .cancelled) hgw).symm,
      (follow_keeps _ _ _).1⟩
  · rename_i hcancel
    have hdefers : ¬ l.defers event = true := by
      intro hdefers
      unfold defers at hdefers
      split at hdefers
      · rename_i o
        simp only [hentry, ne_eq, not_true_eq_false, decide_false, Bool.false_or, Bool.and_eq_true,
          decide_eq_true_eq] at hdefers
        exact hcancel ⟨hdefers.1, by rw [hdefers.2]⟩
      · cases hdefers
    have hfree : ¬ (l.enters event = true ∧ l.client.client ≠ none) := by
      rintro ⟨hin, hne⟩
      refine hne (h.outside ?_)
      rw [enters, Bool.and_eq_true, decide_eq_true_eq] at hin
      rw [hin.1]
      rfl
    rw [Transition.System.run_cons, Transition.System.run_nil]
    unfold Transition.System.next
    simp only [system, if_neg hdefers, if_neg hfree]
    cases (Gateway.system cfg).step l.gateway event with
    | none => exact ⟨rfl, hentry⟩
    | some gw => exact ⟨rfl, (follow_keeps _ _ _).1.trans hentry⟩

/-- Every run of the gateway is one with its client. -/
theorem Consistent.simulates (h : Consistent l) (hentry : l.client.entry = .shielded)
    (events : List Gateway.Event) :
    ∃ linked : List Event, .settled .cancelled ∉ linked ∧
      ((system cfg).run l linked).gateway = (Gateway.system cfg).run l.gateway events := by
  induction events generalizing l with
  | nil => exact ⟨[], List.not_mem_nil, rfl⟩
  | cons event events ih =>
      obtain ⟨hgateway, hentry'⟩ := h.follows cfg hentry event
      have hnext : Consistent ((system cfg).run l (l.expand event)) :=
        (system cfg).invariant (fun _ _ _ h hs => h.step hs) h _
      obtain ⟨linked, hlinked, hrun⟩ := ih hnext hentry'
      refine ⟨l.expand event ++ linked, ?_, ?_⟩
      · rw [List.mem_append, not_or]
        refine ⟨?_, hlinked⟩
        unfold expand
        split <;> simp
      · rw [Transition.System.run_append, hrun, hgateway]
        rfl

/-- A `connect` that raises is an outcome of the loop. -/
theorem raises_gateway {o : Outcome} {client : AiomqttClient}
    (h : l.raises cfg o client = some l') :
    l'.gateway = (Gateway.system cfg).run l.gateway [.run o] := by
  obtain ⟨gw, hgw, rfl⟩ := Option.map_eq_some_iff.mp h
  exact (Transition.System.next_of_step (S := Gateway.system cfg) (i := .run o) hgw).symm

variable (cfg) in
/-- One event is one event of the gateway at most. -/
theorem projects (l : LinkedGateway) (event : Event) :
    ∃ events : List Gateway.Event,
      ((system cfg).next l event).gateway = (Gateway.system cfg).run l.gateway events := by
  obtain hn | hn := (system cfg).next_cases l event
  · exact ⟨[], by rw [hn]; rfl⟩
  generalize (system cfg).next l event = l' at hn ⊢
  cases steps_of_step hn with
  | gateway event gw hdefers hgw heq =>
      subst heq
      exact ⟨[event], (Transition.System.next_of_step hgw).symm⟩
  | cancel hawait heq => subst heq; exact ⟨[], rfl⟩
  | late hentry heq => subst heq; exact ⟨[], rfl⟩
  | failed hentry hr => exact ⟨_, raises_gateway hr⟩
  | abandoned hentry hr => exact ⟨_, raises_gateway hr⟩
  | exited o o' hentry hr => exact ⟨_, raises_gateway hr⟩
  | opens hstray heq => subst heq; exact ⟨[], rfl⟩

/-- Every run with the client is one of the gateway. -/
theorem refines (l : LinkedGateway) (linked : List Event) :
    ∃ events : List Gateway.Event,
      ((system cfg).run l linked).gateway = (Gateway.system cfg).run l.gateway events := by
  induction linked generalizing l with
  | nil => exact ⟨[], rfl⟩
  | cons event linked ih =>
      obtain ⟨first, hfirst⟩ := projects cfg l event
      obtain ⟨rest, hrest⟩ := ih ((system cfg).next l event)
      refine ⟨first ++ rest, ?_⟩
      rw [Transition.System.run_cons, hrest, hfirst, Transition.System.run_append]

/-- **No connection is left behind.** Whatever comes of the awaits, however often `stop` is called
and wherever `run` is cancelled: `connect` finds no connection, each connection is left once at
most, and none is held when `run` is over; unless a cancelled `connect` is cancelled once more
while it waits for its entry, none is abandoned. What the gateway does with its client is what
it does on its own. -/
theorem connections_released (cfg : Settings) (task : Bool) :
    (∀ events, Released ((system cfg).run (start cfg task) events)) ∧
      (∀ events, .settled .cancelled ∉ events →
        ((system cfg).run (start cfg task) events).client.abandoned = []) ∧
      (∀ events : List Gateway.Event, ∃ linked : List Event, .settled .cancelled ∉ linked ∧
        ((system cfg).run (start cfg task) linked).gateway =
          (Gateway.system cfg).run (Gateway.start cfg task) events) ∧
      ∀ linked : List Event, ∃ events : List Gateway.Event,
        ((system cfg).run (start cfg task) linked).gateway =
          (Gateway.system cfg).run (Gateway.start cfg task) events := by
  refine ⟨fun events => (consistent_run cfg task events).released, fun events hevents => ?_,
    (consistent_start cfg task).simulates rfl, refines _⟩
  have hsettled : Settled (start cfg task) := ⟨rfl, rfl⟩
  exact (hsettled.run hevents).2

/-- A connection comes late, after `stop`, and is left; the same run with a second
cancellation abandons it. -/
def lateEntry (settling : Outcome) : List Event :=
  [.gateway .stop, .cancel, .settled settling, .opens, .exited .ok, .gateway (.run .ok)]

theorem connections_released_late :
    ((system ⟨1, 30, 1, by decide⟩).run (start ⟨1, 30, 1, by decide⟩ true)
        (lateEntry .ok)).client.abandoned = [] ∧
      ((system ⟨1, 30, 1, by decide⟩).run (start ⟨1, 30, 1, by decide⟩ true)
        (lateEntry .ok)).client.exits = [0] ∧
      ((system ⟨1, 30, 1, by decide⟩).run (start ⟨1, 30, 1, by decide⟩ true)
        (lateEntry .cancelled)).client.abandoned = [0] :=
  ⟨(connections_released _ true).2.1 _ (by decide), rfl, rfl⟩

end LinkedGateway

end KzHome

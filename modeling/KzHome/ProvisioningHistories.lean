import KzHome.ProvisioningState
import KzHome.Lib.Transition
import Mathlib.Logic.Equiv.Basic

/-!
# KzHome.ProvisioningHistories

Histories of a provisioning attempt.

A call of `transition` either fails or takes one of the six steps of `Step`. The calls that have
succeeded are a path through the statuses (`Path`), and the state of the attempt is read off
that path (`Follows`).
-/

namespace KzHome

/-- The arguments of a call of `transition`. -/
structure ProvisioningCall where
  event : Option ProvisioningEvent
  expectedRevision : Option Int
  now : Option Instant
  challenge : Option String
  errorCode : Option (Option ProvisioningErrorCode)
  deriving DecidableEq, Repr

namespace ProvisioningState

variable (sha : Sha256)

/-- The state that a call proposes. -/
def propose (s : ProvisioningState) (c : ProvisioningCall) :
    Except ProvisioningFault ProvisioningState :=
  proposal sha s c.event c.expectedRevision c.now c.challenge c.errorCode

/-- A call of `transition`. -/
def call (s : ProvisioningState) (c : ProvisioningCall) :
    Except ProvisioningFault ProvisioningState :=
  transition sha s c.event c.expectedRevision c.now c.challenge c.errorCode

theorem call_eq (s : ProvisioningState) (c : ProvisioningCall) :
    call sha s c = (propose sha s c).bind postInit := rfl

/-! ### One step -/

/-- A time between the creation and the expiry of an attempt. -/
def InTime (s : ProvisioningState) (now : Instant) : Prop := s.createdAt ≤ now ∧ now < s.expiresAt

/-- What an event needs, and the status that it leads to. -/
inductive Step (s : ProvisioningState) (c : ProvisioningCall) (now : Instant) :
    ProvisioningStatus → Prop
  | proof (challenge : String) (hevent : c.event = some .proofVerified) (htime : InTime s now)
      (hstatus : s.status = .discovered) (hfresh : s.proofConsumed = false)
      (hchallenge : c.challenge = some challenge) (hhash : sha.hex challenge = s.challengeHash) :
      Step s c now .awaitingConfirmation
  | confirm (hevent : c.event = some .confirm) (htime : InTime s now)
      (hstatus : s.status = .awaitingConfirmation) : Step s c now .registered
  | connected (hevent : c.event = some .connected) (htime : InTime s now)
      (hstatus : s.status = .registered) : Step s c now .connected
  | fail (hevent : c.event = some .fail) (htime : InTime s now)
      (hcode : c.errorCode.join.isSome = true) :
      Step s c now .error
  | cancel (hevent : c.event = some .cancel) (htime : InTime s now) : Step s c now .cancelled
  | expire (hevent : c.event = some .expire) (hlate : s.expiresAt ≤ now) : Step s c now .expired

variable {sha}

/-- The status that `target` gives is the one of a step. -/
theorem step_of_target {s : ProvisioningState} {c : ProvisioningCall} {now : Instant}
    {event : ProvisioningEvent} {status : ProvisioningStatus} {consumed : Bool}
    (hevent : c.event = some event) (htime : event ≠ .expire → InTime s now)
    (h : target sha s event now c.challenge c.errorCode.join = .ok (some status, consumed)) :
    Step sha s c now status ∧
      consumed = (s.proofConsumed || decide (c.event = some .proofVerified)) := by
  rw [hevent]
  cases event with
  | proofVerified =>
      simp only [target] at h
      split at h
      · cases h
      rename_i hfresh
      rw [not_or, not_not, Bool.not_eq_true] at hfresh
      split at h
      · cases h
      rename_i challenge hchallenge
      rw [challengeDigest] at h
      split at h
      · change (if sha.hex challenge = s.challengeHash then _ else _) = _ at h
        split at h
        · rename_i hhash
          cases h
          refine ⟨.proof challenge hevent (htime (by decide)) hfresh.1 hfresh.2 hchallenge hhash, ?_⟩
          simp
        · cases h
      · cases h
  | confirm =>
      simp only [target, Except.ok.injEq, Prod.mk.injEq] at h
      obtain ⟨h, rfl⟩ := h
      split at h
      · rename_i hstatus
        cases h
        exact ⟨.confirm hevent (htime (by decide)) hstatus, by simp⟩
      · cases h
  | connected =>
      simp only [target, Except.ok.injEq, Prod.mk.injEq] at h
      obtain ⟨h, rfl⟩ := h
      split at h
      · rename_i hstatus
        cases h
        exact ⟨.connected hevent (htime (by decide)) hstatus, by simp⟩
      · cases h
  | fail =>
      simp only [target, Except.ok.injEq, Prod.mk.injEq] at h
      obtain ⟨h, rfl⟩ := h
      obtain ⟨code, hcode, rfl⟩ := Option.map_eq_some_iff.mp h
      exact ⟨.fail hevent (htime (by decide)) (by rw [hcode]; rfl), by simp⟩
  | cancel =>
      simp only [target] at h
      cases h
      exact ⟨.cancel hevent (htime (by decide)), by simp⟩
  | expire =>
      simp only [target, Except.ok.injEq, Prod.mk.injEq] at h
      obtain ⟨h, rfl⟩ := h
      split at h
      · rename_i hlate
        cases h
        exact ⟨.expire hevent hlate, by simp⟩
      · cases h

/-- **A proposal** is a step from a state that is not terminal. -/
theorem step_of_propose {s s' : ProvisioningState} {c : ProvisioningCall}
    (h : propose sha s c = .ok s') :
    ∃ now status, c.now = some now ∧ c.expectedRevision = some (s.revision : Int) ∧
      s.status.terminal = false ∧ Step sha s c now status ∧
      (c.errorCode.join.isSome = true → c.event = some .fail) ∧
      s' = { s with
        status
        revision := s.revision + 1
        proofConsumed := s.proofConsumed || c.event = some .proofVerified
        errorCode := c.errorCode.join } := by
  unfold propose proposal at h
  split at h
  · cases h
  rename_i now hnow
  split at h
  · cases h
  rename_i hrevision
  split at h
  · cases h
  rename_i event hevent
  split_ifs at h with hearly hterminal hexpired hchallenge herror
  rw [not_not] at hrevision
  rw [not_and, not_not] at hexpired hchallenge herror
  rw [Bool.not_eq_true] at hterminal
  have htime : event ≠ .expire → InTime s now := fun hne =>
    ⟨not_lt.mp hearly, lt_of_not_ge fun hle => hne (hexpired hle)⟩
  have hcode : c.errorCode.join.isSome = true → c.event = some .fail := by
    intro hsome
    rw [hevent, herror ?_]
    cases hgiven : c.errorCode with
    | none =>
        rw [hgiven] at hsome
        cases hsome
    | some code => rfl
  split at h
  · cases h
  · cases h
  · rename_i status consumed htarget
    obtain rfl := Except.ok.inj h
    obtain ⟨hstep, rfl⟩ := step_of_target hevent htime htarget
    exact ⟨now, status, hnow, hrevision, hterminal, hstep, hcode, rfl⟩

/-! ### The constructor's checks -/

/-- What `__post_init__` accepts. -/
structure Valid (s : ProvisioningState) : Prop where
  expiry : s.createdAt < s.expiresAt
  digest : digestFormat s.challengeHash = true
  fresh : s.status = .discovered → s.proofConsumed = false
  proven : proven s.status = true → s.proofConsumed = true
  code : s.status = .error ↔ s.errorCode.isSome = true
  identifiers : (topicId s.houseId && topicId s.deviceId && topicId s.roomId) = true

theorem postInit_ok {s : ProvisioningState} : postInit s = .ok s ↔ Valid s := by
  unfold postInit publicStatus
  constructor
  · intro h
    split_ifs at h with h₁ h₂ h₃ h₄ h₅ h₆
    · rw [not_and, Bool.not_eq_true] at h₃
      rw [not_and, Bool.not_eq_true, Bool.not_eq_false'] at h₄
      exact ⟨not_le.mp h₁, by simpa using h₂, h₃, h₄, h₅, h₆⟩
    · cases h
  · intro h
    have hdigest : (!digestFormat s.challengeHash) = false := by rw [h.digest]; rfl
    rw [if_neg (not_le.mpr h.expiry), hdigest, if_neg Bool.false_ne_true, if_neg, if_neg, if_neg,
      if_pos h.identifiers]
    · rfl
    · exact not_not.mpr h.code
    · rintro ⟨hproven, hfresh⟩
      rw [h.proven hproven] at hfresh
      cases hfresh
    · rintro ⟨hstatus, hconsumed⟩
      rw [h.fresh hstatus] at hconsumed
      cases hconsumed

/-- **A step keeps the checks**: the `replace` at the end never raises. -/
theorem Valid.step {s : ProvisioningState} (h : Valid s) {c : ProvisioningCall} {now : Instant}
    {status : ProvisioningStatus} (hstep : Step sha s c now status)
    (hcode : c.errorCode.join.isSome = true → c.event = some .fail) :
    Valid { s with
      status
      revision := s.revision + 1
      proofConsumed := s.proofConsumed || c.event = some .proofVerified
      errorCode := c.errorCode.join } := by
  have hnone : c.event ≠ some .fail → ¬ c.errorCode.join.isSome = true :=
    fun hne hsome => hne (hcode hsome)
  have hproven : ProvisioningState.proven s.status = true →
      (s.proofConsumed || c.event = some .proofVerified) = true := by
    intro hs
    rw [h.proven hs, Bool.true_or]
  refine ⟨h.expiry, h.digest, ?_, ?_, ?_, h.identifiers⟩
  · intro hstatus
    cases hstep <;> cases hstatus
  · intro hs
    cases hstep with
    | proof challenge hevent => simp [hevent]
    | confirm hevent htime hstatus => exact hproven (by rw [hstatus]; rfl)
    | connected hevent htime hstatus => exact hproven (by rw [hstatus]; rfl)
    | fail => cases hs
    | cancel => cases hs
    | expire => cases hs
  · cases hstep with
    | fail hevent htime hsome => exact iff_of_true rfl hsome
    | proof challenge hevent => exact iff_of_false nofun (hnone (by rw [hevent]; decide))
    | confirm hevent => exact iff_of_false nofun (hnone (by rw [hevent]; decide))
    | connected hevent => exact iff_of_false nofun (hnone (by rw [hevent]; decide))
    | cancel hevent => exact iff_of_false nofun (hnone (by rw [hevent]; decide))
    | expire hevent => exact iff_of_false nofun (hnone (by rw [hevent]; decide))

/-- A call that passes the guards returns what it proposes. -/
theorem call_of_propose {s s' : ProvisioningState} (h : Valid s) {c : ProvisioningCall}
    (hc : propose sha s c = .ok s') : Valid s' ∧ call sha s c = .ok s' := by
  obtain ⟨now, status, -, -, -, hstep, hcode, rfl⟩ := step_of_propose hc
  have hvalid := h.step hstep hcode
  exact ⟨hvalid, by rw [call_eq, hc]; exact postInit_ok.mpr hvalid⟩

/-- A call that succeeds has passed the guards. -/
theorem propose_of_call {s s' : ProvisioningState} (h : Valid s) {c : ProvisioningCall}
    (hc : call sha s c = .ok s') : propose sha s c = .ok s' := by
  cases hp : propose sha s c with
  | error e =>
      rw [call_eq, hp] at hc
      cases hc
  | ok proposed =>
      rw [(call_of_propose h hp).2] at hc
      exact hc

/-- A terminal attempt refuses every call. -/
theorem call_of_terminal {s : ProvisioningState} (h : Valid s) (hs : s.status.terminal = true)
    (c : ProvisioningCall) : ∃ e, call sha s c = .error e := by
  cases hc : call sha s c with
  | error e => exact ⟨e, rfl⟩
  | ok s' =>
      obtain ⟨_, _, -, -, hopen, -⟩ := step_of_propose (propose_of_call h hc)
      rw [hs] at hopen
      cases hopen

/-! ### Histories -/

variable (sha)

/-- Calls one after the other: one that fails leaves the state as it was. -/
def attempts : Transition.System ProvisioningState ProvisioningCall :=
  ⟨fun s c => (call sha s c).toOption⟩

/-- The calls of a history that succeed. -/
def successes (s : ProvisioningState) : List ProvisioningCall → List ProvisioningCall
  | [] => []
  | c :: calls =>
    match call sha s c with
    | .ok s' => c :: successes s' calls
    | .error _ => successes s calls

/-- A path through the statuses, from the start of the attempt `s₀`. -/
inductive Path (s₀ : ProvisioningState) : List ProvisioningCall → ProvisioningStatus → Prop
  | start : Path s₀ [] .discovered
  | snoc {calls : List ProvisioningCall} {c : ProvisioningCall} {now : Instant}
      {status target : ProvisioningStatus} (consumed : Bool) (h : Path s₀ calls status)
      (hnow : c.now = some now) (hopen : status.terminal = false)
      (hstep : Step sha { s₀ with status, proofConsumed := consumed } c now target) :
      Path s₀ (calls ++ [c]) target

/-- What a state is after the calls that have succeeded. -/
structure Follows (s₀ : ProvisioningState) (calls : List ProvisioningCall)
    (s : ProvisioningState) : Prop where
  valid : Valid s
  same : s = { s₀ with
    status := s.status
    revision := s.revision
    proofConsumed := s.proofConsumed
    errorCode := s.errorCode }
  revision : s.revision = s₀.revision + calls.length
  path : Path sha s₀ calls s.status
  consumed : s.proofConsumed = calls.any fun c => c.event = some .proofVerified

variable {sha}

theorem Follows.init {s₀ : ProvisioningState} (hvalid : Valid s₀)
    (hstatus : s₀.status = .discovered) : Follows sha s₀ [] s₀ := by
  refine ⟨hvalid, rfl, rfl, ?_, hvalid.fresh hstatus⟩
  rw [hstatus]
  exact .start

/-- **One success** is one step of the path. -/
theorem Follows.call {s₀ s s' : ProvisioningState} {calls : List ProvisioningCall}
    (h : Follows sha s₀ calls s) {c : ProvisioningCall} (hc : call sha s c = .ok s') :
    Follows sha s₀ (calls ++ [c]) s' := by
  have hp := propose_of_call h.valid hc
  have hvalid := (call_of_propose h.valid hp).1
  obtain ⟨now, status, hnow, -, hopen, hstep, -, rfl⟩ := step_of_propose hp
  refine ⟨hvalid, ?_, ?_, ?_, ?_⟩
  · rw [h.same]
  · dsimp only
    rw [h.revision, List.length_append, List.length_singleton, Nat.add_assoc]
  · rw [h.same] at hstep
    refine .snoc s.proofConsumed h.path hnow hopen ?_
    cases hstep with
    | proof challenge he ht hs hf hch hh => exact .proof challenge he ht hs hf hch hh
    | confirm he ht hs => exact .confirm he ht hs
    | connected he ht hs => exact .connected he ht hs
    | fail he ht hcode => exact .fail he ht hcode
    | cancel he ht => exact .cancel he ht
    | expire he hl => exact .expire he hl
  · dsimp only
    rw [h.consumed, List.any_append]
    simp

/-- **A history** follows the path of its successes. -/
theorem Follows.run {s₀ s : ProvisioningState} {done : List ProvisioningCall}
    (h : Follows sha s₀ done s) (calls : List ProvisioningCall) :
    Follows sha s₀ (done ++ successes sha s calls) ((attempts sha).run s calls) := by
  induction calls generalizing s done with
  | nil =>
      rw [successes, List.append_nil]
      exact h
  | cons c calls ih =>
      rw [Transition.System.run_cons, successes]
      cases hc : ProvisioningState.call sha s c with
      | error e =>
          have hnext : (attempts sha).next s c = s := by
            simp only [Transition.System.next, attempts, hc]
            rfl
          rw [hnext]
          exact ih h
      | ok s' =>
          have hnext : (attempts sha).next s c = s' :=
            Transition.System.next_of_step (by simp only [attempts, hc]; rfl)
          rw [hnext]
          have := ih (h.call hc)
          rwa [List.append_assoc] at this

/-! ### What a path tells -/

variable {s₀ : ProvisioningState} {calls : List ProvisioningCall}

/-- Nothing leads back to the start. -/
theorem Path.discovered (h : Path sha s₀ calls .discovered) : calls = [] := by
  cases h with
  | start => rfl
  | snoc consumed h hnow hopen hstep => cases hstep

/-- A success with its time. -/
structure Succeeded (s₀ : ProvisioningState) (c : ProvisioningCall) (event : ProvisioningEvent) :
    Prop where
  event : c.event = some event
  time : ∃ now, c.now = some now ∧ s₀.createdAt ≤ now ∧ now < s₀.expiresAt

theorem Path.awaitingConfirmation (h : Path sha s₀ calls .awaitingConfirmation) :
    ∃ p challenge, calls = [p] ∧ Succeeded s₀ p .proofVerified ∧ p.challenge = some challenge ∧
      sha.hex challenge = s₀.challengeHash := by
  cases h with
  | @snoc calls p now status target consumed h hnow hopen hstep =>
      cases hstep with
      | proof challenge hevent htime hstatus hfresh hchallenge hhash =>
          obtain rfl : status = .discovered := hstatus
          obtain rfl := h.discovered
          exact ⟨p, challenge, rfl, ⟨hevent, now, hnow, htime⟩, hchallenge, hhash⟩

theorem Path.registered (h : Path sha s₀ calls .registered) :
    ∃ p c challenge, calls = [p, c] ∧ Succeeded s₀ p .proofVerified ∧
      p.challenge = some challenge ∧ sha.hex challenge = s₀.challengeHash ∧
      Succeeded s₀ c .confirm := by
  cases h with
  | @snoc calls c now status target consumed h hnow hopen hstep =>
      cases hstep with
      | confirm hevent htime hstatus =>
          obtain rfl : status = .awaitingConfirmation := hstatus
          obtain ⟨p, challenge, rfl, hp, hchallenge, hhash⟩ := h.awaitingConfirmation
          exact ⟨p, c, challenge, rfl, hp, hchallenge, hhash, hevent, now, hnow, htime⟩

/-- **To be connected** is to have proved, confirmed and connected, in this order and in time. -/
theorem Path.connected (h : Path sha s₀ calls .connected) :
    ∃ p c k challenge, calls = [p, c, k] ∧ Succeeded s₀ p .proofVerified ∧
      p.challenge = some challenge ∧ sha.hex challenge = s₀.challengeHash ∧
      Succeeded s₀ c .confirm ∧ Succeeded s₀ k .connected := by
  cases h with
  | @snoc calls k now status target consumed h hnow hopen hstep =>
      cases hstep with
      | connected hevent htime hstatus =>
          obtain rfl : status = .registered := hstatus
          obtain ⟨p, c, challenge, rfl, hp, hchallenge, hhash, hc⟩ := h.registered
          exact ⟨p, c, k, challenge, rfl, hp, hchallenge, hhash, hc, hevent, now, hnow, htime⟩

/-- To be expired is to have been found past the expiry. -/
theorem Path.expired (h : Path sha s₀ calls .expired) :
    ∃ before x now, calls = before ++ [x] ∧ x.event = some .expire ∧ x.now = some now ∧
      s₀.expiresAt ≤ now := by
  cases h with
  | @snoc calls x now status target consumed h hnow hopen hstep =>
      cases hstep with
      | expire hevent hlate => exact ⟨calls, x, now, rfl, hevent, hnow, hlate⟩

/-- The proof can only be the first success. -/
theorem Path.proof_once {status : ProvisioningStatus} (h : Path sha s₀ calls status) :
    ∀ c ∈ calls.tail, c.event ≠ some .proofVerified := by
  induction h with
  | start => exact fun c hc => nomatch hc
  | @snoc calls c now status target consumed h hnow hopen hstep ih =>
      intro c' hc'
      cases calls with
      | nil => cases hc'
      | cons first rest =>
          rcases List.mem_append.mp hc' with hold | hnew
          · exact ih c' hold
          · obtain rfl := List.mem_singleton.mp hnew
            intro hevent
            cases hstep with
            | proof challenge he ht hstatus =>
                obtain rfl : status = .discovered := hstatus
                exact absurd h.discovered (List.cons_ne_nil first rest)
            | confirm he => rw [hevent] at he; cases he
            | connected he => rw [hevent] at he; cases he
            | fail he => rw [hevent] at he; cases he
            | cancel he => rw [hevent] at he; cases he
            | expire he => rw [hevent] at he; cases he

/-- A terminal attempt stays what it is. -/
theorem run_of_terminal {s : ProvisioningState} (h : Valid s) (hs : s.status.terminal = true)
    (calls : List ProvisioningCall) : (attempts sha).run s calls = s := by
  induction calls with
  | nil => rfl
  | cons c calls ih =>
      obtain ⟨e, hc⟩ : ∃ e, call sha s c = .error e := call_of_terminal h hs c
      have hnext : (attempts sha).next s c = s := by
        simp only [Transition.System.next, attempts, hc]
        rfl
      rw [Transition.System.run_cons, hnext]
      exact ih

end ProvisioningState

open ProvisioningState in
/-- **The provisioning machine** is safe over every history of a discovered attempt. -/
theorem provisioning_safe (sha : Sha256) (s₀ : ProvisioningState) (hvalid : postInit s₀ = .ok s₀)
    (hstatus : s₀.status = .discovered) (calls : List ProvisioningCall) :
    let s := (attempts sha).run s₀ calls
    let done := successes sha s₀ calls
    postInit s = .ok s ∧
    (∀ c s', propose sha s c = .ok s' → call sha s c = .ok s' ∧ postInit s' = .ok s') ∧
    (∃ status revision proofConsumed errorCode,
      s = { s₀ with status, revision, proofConsumed, errorCode }) ∧
    s.revision = s₀.revision + done.length ∧
    (s.status.terminal = true → ∀ more, (attempts sha).run s more = s) ∧
    (s.status = .connected → ∃ p c k challenge, done = [p, c, k] ∧
      Succeeded s₀ p .proofVerified ∧ p.challenge = some challenge ∧
      sha.hex challenge = s₀.challengeHash ∧
      (∀ issued, sha.hex issued = s₀.challengeHash → issued = challenge) ∧
      Succeeded s₀ c .confirm ∧ Succeeded s₀ k .connected) ∧
    (s.status = .expired → ∃ before x now, done = before ++ [x] ∧ x.event = some .expire ∧
      x.now = some now ∧ s₀.expiresAt ≤ now) ∧
    (∀ c ∈ done.tail, c.event ≠ some .proofVerified) ∧
    (s.proofConsumed = done.any fun c => c.event = some .proofVerified) ∧
    ∀ c e, call sha s c = .error e → (attempts sha).next s c = s := by
  intro s done
  have hfollows : Follows sha s₀ done s := (Follows.init (postInit_ok.mp hvalid) hstatus).run calls
  refine ⟨postInit_ok.mpr hfollows.valid, ?_, ?_, hfollows.revision, ?_, ?_, ?_,
    hfollows.path.proof_once, hfollows.consumed, ?_⟩
  · intro c s' hc
    obtain ⟨hvalid', hcall⟩ := call_of_propose hfollows.valid hc
    exact ⟨hcall, postInit_ok.mpr hvalid'⟩
  · exact ⟨s.status, s.revision, s.proofConsumed, s.errorCode, hfollows.same⟩
  · intro hterminal more
    exact run_of_terminal hfollows.valid hterminal more
  · intro hconnected
    have hpath := hfollows.path
    rw [hconnected] at hpath
    obtain ⟨p, c, k, challenge, hdone, hp, hchallenge, hhash, hc, hk⟩ := hpath.connected
    refine ⟨p, c, k, challenge, hdone, hp, hchallenge, hhash, ?_, hc, hk⟩
    intro issued hissued
    exact sha.injective issued challenge (hissued.trans hhash.symm)
  · intro hexpired
    have hpath := hfollows.path
    rw [hexpired] at hpath
    exact hpath.expired
  · intro c e hc
    simp only [Transition.System.next, attempts, hc]
    rfl

namespace Onboarding

/-- A challenge of the right format. -/
def challenge : String := "kzhome-challenge-kzhome-challenge-kzhome-43"

/-- Its digest. -/
def digest : String := "00112233445566778899aabbccddeeff00112233445566778899aabbccddeeff"

/-- A digest function that keeps to these two. -/
def sha : Sha256 where
  hex := Equiv.swap challenge digest
  injective _ _ h := (Equiv.swap challenge digest).injective h

/-- A lamp that was discovered. -/
def lamp : ProvisioningState where
  sessionId := "session"
  houseId := "home"
  deviceId := "lamp"
  roomId := "hall"
  createdAt := 0
  expiresAt := 300000000
  challengeHash := digest

/-- It proves itself, is confirmed and connects; a second proof, an unknown event and an unknown
error code come in between. -/
def calls : List ProvisioningCall :=
  [⟨some .proofVerified, some 0, some 1, some challenge, none⟩,
    ⟨some .proofVerified, some 1, some 2, some challenge, none⟩,
    ⟨none, some 1, some 3, none, none⟩, ⟨some .fail, some 1, some 3, none, some none⟩,
    ⟨some .confirm, some 1, some 3, none, none⟩, ⟨some .connected, some 2, some 4, none, none⟩]

end Onboarding

open ProvisioningState Onboarding in
theorem provisioning_safe_lamp :
    ((attempts sha).run lamp calls).status = .connected ∧
      ∀ more, (attempts sha).run ((attempts sha).run lamp calls) more =
        (attempts sha).run lamp calls := by
  have hconnected : ((attempts sha).run lamp calls).status = .connected := by decide +kernel
  refine ⟨hconnected, ?_⟩
  have hsafe := provisioning_safe sha lamp (by decide +kernel) rfl calls
  refine hsafe.2.2.2.2.1 ?_
  rw [hconnected]
  rfl

end KzHome

import KzHome.ControlOutlines
import Mathlib.Data.List.Induction

/-!
# KzHome.Runs

Induction over the runs of Core.

Every run keeps to the contract (`sound`), so a step changes the shared state by
one effect of `Does`, by the end of sessions, or by an external action. The rules
below turn that into induction principles that mention neither sessions nor
programs: for a property of every reachable state (`after_invariant`, and
`after_ledger` when it only speaks of the ledger and the log), for a relation
between two moments of a run (`after_related`), and for the moment an event was
noted (`noted_at`).
-/

namespace KzHome

open Session

variable {cfg : Config} {registry : Registry}

theorem after_append (cfg : Config) (registry : Registry) (labels more : List Label) :
    after cfg registry (labels ++ more) = (coreSystem cfg).run (after cfg registry labels) more :=
  (coreSystem cfg).run_append _ _ _

theorem after_snoc (cfg : Config) (registry : Registry) (labels : List Label) (l : Label) :
    after cfg registry (labels ++ [l]) = (coreSystem cfg).next (after cfg registry labels) l :=
  (coreSystem cfg).run_snoc _ _ _

/-- What one step of Core does to the shared state. -/
inductive Effect (cfg : Config) (a : Shared) : Shared → Prop
  | stay : Effect cfg a a
  | does {s pid : Nat} {b : Shared} (h : Does cfg s pid a b) : Effect cfg a b
  | close (ended : Nat → Bool) : Effect cfg a (a.close ended)
  | act {x : Action} {b : Shared} (ended : Nat → Bool) (h : a.act x = some b) :
      Effect cfg a (b.close ended)

theorem step_effect {w w' : World} (hs : Sound (contract cfg) core w) {l : Label}
    (h : (coreSystem cfg).step w l = some w') : Effect cfg w.shared w'.shared := by
  rcases shared_cases hs h with heq | ⟨s, pid, input, m, -, -, hd⟩ | ⟨ended, heq⟩ |
    ⟨x, b, -, ha, heq⟩
  · rw [heq]; exact .stay
  · exact .does hd
  · rw [heq]; exact .close ended
  · rw [heq]; exact .act _ ha

theorem after_inv (cfg : Config) (registry : Registry) (labels : List Label) :
    Inv (after cfg registry labels).shared := (sound cfg registry labels).inv

/-- One more label, offered to a run. -/
theorem after_effect (cfg : Config) (registry : Registry) (labels : List Label) (l : Label) :
    Effect cfg (after cfg registry labels).shared (after cfg registry (labels ++ [l])).shared := by
  rw [after_snoc]
  rcases (coreSystem cfg).next_cases (after cfg registry labels) l with h | h
  · rw [h]; exact .stay
  · exact step_effect (sound cfg registry labels) h

/-! ### Every reachable state -/

/-- **Invariant rule of Core.** -/
theorem after_invariant {P : Shared → Prop} (h0 : P (Shared.empty registry))
    (hdoes : ∀ {s pid a b}, Inv a → P a → Does cfg s pid a b → P b)
    (hclose : ∀ {a ended}, Inv a → P a → P (a.close ended))
    (hact : ∀ {a x b}, Inv a → P a → a.act x = some b → P b) (labels : List Label) :
    P (after cfg registry labels).shared := by
  induction labels using List.reverseRecOn with
  | nil => exact h0
  | append_singleton labels l ih =>
      have hi := after_inv cfg registry labels
      have heff := after_effect cfg registry labels l
      generalize (after cfg registry (labels ++ [l])).shared = b at heff ⊢
      cases heff with
      | stay => exact ih
      | does h => exact hdoes hi ih h
      | close ended => exact hclose hi ih
      | act ended h => exact hclose (act_inv hi h) (hact hi ih h)

/-- A property of the ledger and the log is only up to the effects of sessions. -/
theorem after_ledger {P : Ledger → List Event → Prop} (h0 : P ⟨[], []⟩ [])
    (hdoes : ∀ {s pid a b}, Inv a → P a.db a.log → Does cfg s pid a b → P b.db b.log)
    (labels : List Label) :
    P (after cfg registry labels).shared.db (after cfg registry labels).shared.log := by
  refine after_invariant (P := fun st => P st.db st.log) h0 hdoes (fun _ h => h)
    (fun hi h ha => ?_) labels
  obtain ⟨hdb, -, hlog, -⟩ := act_frame ha
  rw [hdb, hlog]
  exact h

/-! ### Two moments of a run -/

/-- **Preorder rule of Core.** -/
theorem after_related {R : Shared → Shared → Prop} (hrefl : ∀ a, R a a)
    (htrans : ∀ {a b c}, R a b → R b c → R a c)
    (hdoes : ∀ {s pid a b}, Inv a → Does cfg s pid a b → R a b)
    (hclose : ∀ {a ended}, Inv a → R a (a.close ended))
    (hact : ∀ {a x b}, Inv a → a.act x = some b → R a b) (labels more : List Label) :
    R (after cfg registry labels).shared (after cfg registry (labels ++ more)).shared := by
  induction more using List.reverseRecOn with
  | nil => rw [List.append_nil]; exact hrefl _
  | append_singleton more l ih =>
      rw [← List.append_assoc]
      refine htrans ih ?_
      have hi := after_inv cfg registry (labels ++ more)
      have heff := after_effect cfg registry (labels ++ more) l
      generalize (after cfg registry (labels ++ more ++ [l])).shared = b at heff ⊢
      cases heff with
      | stay => exact hrefl _
      | does h => exact hdoes hi h
      | close ended => exact hclose hi
      | act ended h => exact htrans (hact hi h) (hclose (act_inv hi h))

/-- The log only grows, at its end. -/
theorem log_grows (cfg : Config) (registry : Registry) (labels more : List Label) :
    (after cfg registry labels).shared.log <+: (after cfg registry (labels ++ more)).shared.log := by
  refine after_related (R := fun a b => a.log <+: b.log) (fun _ => List.prefix_refl _)
    List.IsPrefix.trans (fun hi hd => ?_) (fun _ => List.prefix_refl _) (fun _ ha => ?_) labels more
  · obtain ⟨es, hes, -⟩ := hd.logged hi
    exact ⟨es, hes.symm⟩
  · simp only [(act_frame ha).2.2.1, List.prefix_refl]

/-- An event after one more label was there before, or is noted now. -/
theorem mem_log_snoc {labels : List Label} {l : Label} {e : Event}
    (h : e ∈ (after cfg registry (labels ++ [l])).shared.log) :
    e ∈ (after cfg registry labels).shared.log ∨
      ∃ s pid, Does cfg s pid (after cfg registry labels).shared
          (after cfg registry (labels ++ [l])).shared ∧
        Logged cfg s pid (after cfg registry labels).shared
          (after cfg registry (labels ++ [l])).shared e := by
  have hi := after_inv cfg registry labels
  have heff := after_effect cfg registry labels l
  generalize (after cfg registry (labels ++ [l])).shared = b at h heff ⊢
  cases heff with
  | stay => exact Or.inl h
  | does hd => exact (hd.mem_log hi h).imp_right fun hl => ⟨_, _, hd, hl⟩
  | close ended => exact Or.inl h
  | act ended ha => exact Or.inl ((act_frame ha).2.2.1 ▸ h)

/-- The step that noted an event for the first time. -/
theorem noted_first {labels : List Label} {e : Event}
    (h : e ∈ (after cfg registry labels).shared.log) :
    ∃ before l rest s pid, labels = before ++ l :: rest ∧
      e ∉ (after cfg registry before).shared.log ∧
      e ∈ (after cfg registry (before ++ [l])).shared.log ∧
      Does cfg s pid (after cfg registry before).shared
        (after cfg registry (before ++ [l])).shared ∧
      Logged cfg s pid (after cfg registry before).shared
        (after cfg registry (before ++ [l])).shared e := by
  induction labels using List.reverseRecOn with
  | nil => cases h
  | append_singleton labels l ih =>
      by_cases hold : e ∈ (after cfg registry labels).shared.log
      · obtain ⟨before, l', rest, s, pid, rfl, hl⟩ := ih hold
        exact ⟨before, l', rest ++ [l], s, pid, by simp, hl⟩
      · obtain ⟨s, pid, hnew⟩ := (mem_log_snoc h).resolve_left hold
        exact ⟨labels, l, [], s, pid, rfl, hold, h, hnew⟩

/-- **The moment an event was noted**: it is true of the step that noted it. -/
theorem noted_at {labels : List Label} {e : Event}
    (h : e ∈ (after cfg registry labels).shared.log) :
    ∃ before l rest s pid, labels = before ++ l :: rest ∧
      Does cfg s pid (after cfg registry before).shared
        (after cfg registry (before ++ [l])).shared ∧
      Logged cfg s pid (after cfg registry before).shared
        (after cfg registry (before ++ [l])).shared e := by
  obtain ⟨before, l, rest, s, pid, heq, -, -, h⟩ := noted_first h
  exact ⟨before, l, rest, s, pid, heq, h⟩

/-! ### What is known about a process -/

/-- A fact about the memory of process `pid`, as long as it lives. -/
structure Lasting (st : Shared) (pid : Nat) (F : Proc → Prop) : Prop where
  booted : pid < st.booted
  holds : ∀ proc, st.procs pid = some proc → F proc

section

variable {F : Proc → Prop} {pid : Nat} {a b : Shared}

theorem Lasting.alive (hF : ∀ x y, x.Later y → F x → F y) (hi : Inv a) {proc : Proc}
    (h : Alive pid a proc) (hp : F proc) : Lasting a pid F := by
  obtain ⟨now, hnow, hl⟩ := h
  refine ⟨(hi.epochs pid now hnow).2, fun proc' hq => ?_⟩
  obtain rfl := Option.some.inj (hnow.symm.trans hq)
  exact hF _ _ hl hp

/-- One more label. -/
theorem Lasting.snoc (hF : ∀ x y, x.Later y → F x → F y) {labels : List Label}
    (h : Lasting (after cfg registry labels).shared pid F) (l : Label) :
    Lasting (after cfg registry (labels ++ [l])).shared pid F := by
  have hi := after_inv cfg registry labels
  have hlater : ∀ {a b : Shared}, Lasting a pid F → a.booted ≤ b.booted →
      (∀ proc', b.procs pid = some proc' → ∃ proc, a.procs pid = some proc ∧ proc.Later proc') →
        Lasting b pid F := by
    intro a b hl hb hback
    refine ⟨hl.booted.trans_le hb, fun proc' hq => ?_⟩
    obtain ⟨proc, hp, hlat⟩ := hback proc' hq
    exact hF _ _ hlat (hl.holds proc hp)
  have heff := after_effect cfg registry labels l
  generalize (after cfg registry (labels ++ [l])).shared = b at heff ⊢
  cases heff with
  | stay => exact h
  | does hd =>
      have hf := hd.frame hi
      exact hlater h (hf.booted ▸ Nat.le_refl _) fun _ hq => hf.proc_back hq
  | close ended => exact ⟨h.booted, h.holds⟩
  | @act x b' ended ha =>
      rcases act_procs ha with ⟨bt, -, -, -, hbo, clock, -, hprocs⟩ | ⟨-, hbo, hback, -⟩
      · refine hlater h (hbo ▸ Nat.le_succ _) fun proc hq => ?_
        have hq : b'.procs pid = some proc := hq
        rw [hprocs, Function.update_of_ne (Nat.ne_of_lt h.booted)] at hq
        exact ⟨proc, hq, .refl _⟩
      · refine hlater h (hbo ▸ Nat.le_refl _) fun proc hq => ?_
        obtain ⟨proc₀, hq₀, hlat, -⟩ := hback pid proc hq
        exact ⟨proc₀, hq₀, hlat⟩

/-- **What is noted about a process stays true of it**, when it does not mention what
time changes. -/
theorem after_lasting (hF : ∀ x y, x.Later y → F x → F y) {e : Event}
    (hnote : ∀ before s q b, Logged cfg s q (after cfg registry before).shared b e →
      Lasting (after cfg registry before).shared pid F)
    {labels : List Label} (h : e ∈ (after cfg registry labels).shared.log) :
    Lasting (after cfg registry labels).shared pid F := by
  induction labels using List.reverseRecOn with
  | nil => cases h
  | append_singleton labels l ih =>
      rcases mem_log_snoc h with hold | ⟨s, q, -, hl⟩
      · exact (ih hold).snoc hF l
      · exact (hnote labels s q _ hl).snoc hF l

end

/-! ### A household to run

One lamp, one process and one user, for computing with the model. -/

/-- The mark of a text whose digest was not recorded. -/
def Sha256.mark : Char := Char.ofNat 46

/-- A digest function that answers the recorded texts with their recorded digests
and marks every other text. -/
def Sha256.recorded (known : List (String × String)) (hnd : (known.map Prod.snd).Nodup)
    (hmark : ∀ d ∈ known.map Prod.snd, d.toList.head? ≠ some mark) : Sha256 where
  hex s := ((known.find? fun k => k.1 = s).map Prod.snd).getD (String.ofList (mark :: s.toList))
  injective s t h := by
    have hcase : ∀ s, (∃ k ∈ known, k.1 = s ∧
        ((known.find? fun k => k.1 = s).map Prod.snd).getD (String.ofList (mark :: s.toList)) = k.2) ∨
        ((known.find? fun k => k.1 = s).map Prod.snd).getD (String.ofList (mark :: s.toList)) =
          String.ofList (mark :: s.toList) := by
      intro s
      cases hf : known.find? fun k => k.1 = s with
      | none => exact Or.inr rfl
      | some k => exact Or.inl ⟨k, List.mem_of_find?_eq_some hf, by simpa using List.find?_some hf, rfl⟩
    have hno : ∀ k ∈ known, ∀ s : String, k.2 ≠ String.ofList (mark :: s.toList) := by
      intro k hk s heq
      refine hmark k.2 (List.mem_map_of_mem hk) ?_
      rw [heq]; simp
    rcases hcase s with ⟨k, hk, hks, hs⟩ | hs <;> rcases hcase t with ⟨k', hk', hkt, ht⟩ | ht
    · rw [hs, ht] at h
      obtain rfl := List.inj_on_of_nodup_map hnd hk hk' h
      exact hks.symm.trans hkt
    · rw [hs, ht] at h; exact absurd h (hno k hk t)
    · rw [hs, ht] at h; exact absurd h.symm (hno k' hk' s)
    · rw [hs, ht] at h
      have := String.ofList_inj.mp h
      exact String.toList_inj.mp (by simpa using this)

namespace Household

def tables : Registry where
  devices := [⟨"lamp", "hall", "relay", ["on_off"], true⟩]
  physical := []
  rooms := [⟨"hall", "ground"⟩]
  floors := [⟨"ground", "home"⟩]

def config : Config where
  sha := .recorded [("key", "2c70e12b7a0646f92279f427c7b38e7334d8e5389cff167a1dc30e73f826b683")]
    (by decide) (by decide)
  softwareDevices := [("home", "lamp")]

def commandId : String := "8f14e45f-ceea-467f-a0e6-4a1c3b2d5e01"

def correlationId : String := "c9f0f895-fb98-4b1b-9d3c-7e5a2f4b6d02"

/-- What an operation gets while the clock shows `t`. -/
def input (t : Instant) (uuid : String) : Input :=
  ⟨⟨List.replicate 5 t, [], [], []⟩, uuid, true⟩

/-- Let a session perform `n` operations while the clock shows `t`. -/
def operate (session n : Nat) (t : Instant) (uuid : String) : List Label :=
  List.replicate n (.exec session (input t uuid))

/-- Start Core, connect it, and submit a command at time 0. -/
def submit : List Label :=
  [.external (.boot ⟨"e", some 0, none, false, 0, 0, ControlAuthority.closedGate⟩),
    .external (.link 0 true true), .start 0 (.submit "home" "lamp" "alice" "key" true)] ++
    operate 0 13 0 commandId ++ operate 0 19 0 correlationId

/-- The lamp's acknowledgement and state arrive, at the given times. -/
def answers (ackAt stateAt : Instant) : List Label :=
  .start 0 (.ack "home" "lamp" ⟨commandId, correlationId, .applied⟩ false) ::
    operate 1 5 ackAt "" ++
    .start 0 (.state "home" "lamp" ⟨correlationId, [("on", .bool true)]⟩ false) ::
    operate 2 5 stateAt ""

end Household

end KzHome

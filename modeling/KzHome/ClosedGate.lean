import KzHome.Runs

/-!
# KzHome.ClosedGate

What the shipped wiring can never do.

`create_app` builds its authority with `closed_gate`, so `physical` never returns
(`Closed.shut`): nothing is prepared, staged, bound or delivered. The only frames
left are the ones `send_command` publishes after its guard, and denials.
-/

namespace KzHome

open Session

variable {cfg : Config} {registry : Registry} {labels : List Label}

/-- Every process of the run is started with the default gate. -/
def ShippedWiring (labels : List Label) : Prop :=
  ∀ b, .external (.boot b) ∈ labels → b.gate = ControlAuthority.closedGate

/-- Every living process has the closed gate. -/
def Closed (st : Shared) : Prop :=
  ∀ pid proc, st.procs pid = some proc → proc.authority.gate = ControlAuthority.closedGate

/-- Behind a closed gate nothing is let through. -/
theorem Closed.shut {st : Shared} (h : Closed st) {pid : Nat} {house device : String} :
    ¬ GateOpen pid st house device := by
  rintro ⟨proc, r, ⟨now, hp, hl⟩, hg⟩
  rw [← hl.gate, h pid now hp] at hg
  cases hg

/-- One step keeps every gate closed, if it does not start a process with another. -/
theorem Closed.step {w w' : World} (hs : Sound (contract cfg) core w) (h : Closed w.shared)
    {l : Label} (hl : ∀ b, l = .external (.boot b) → b.gate = ControlAuthority.closedGate)
    (hstep : (coreSystem cfg).step w l = some w') : Closed w'.shared := by
  rcases shared_cases hs hstep with heq | ⟨s, q, input, m, -, -, hd⟩ | ⟨ended, heq⟩ |
    ⟨x, b, rfl, ha, heq⟩
  · rw [heq]; exact h
  · intro pid proc hq
    obtain ⟨proc₀, hq₀, hlat⟩ := (Does.frame hs.inv hd).proc_back hq
    exact hlat.gate.trans (h pid proc₀ hq₀)
  · rw [heq]; exact h
  · intro pid proc hq
    have hq : b.procs pid = some proc := by rw [heq] at hq; exact hq
    rcases act_procs ha with ⟨bt, rfl, -, -, -, clock, -, hprocs⟩ | ⟨-, -, hback, -⟩
    · rw [hprocs] at hq
      by_cases hqb : pid = w.shared.booted
      · subst hqb
        rw [Function.update_self] at hq
        obtain rfl := Option.some.inj hq
        exact hl bt rfl
      · rw [Function.update_of_ne hqb] at hq
        exact h pid proc hq
    · obtain ⟨proc₀, hq₀, hlat, -⟩ := hback pid proc hq
      exact hlat.gate.trans (h pid proc₀ hq₀)

theorem closed (hw : ShippedWiring labels) : Closed (after cfg registry labels).shared := by
  induction labels using List.reverseRecOn with
  | nil => exact fun _ _ h => (by cases h)
  | append_singleton labels l ih =>
      have hold := ih fun b hb => hw b (List.mem_append_left _ hb)
      rw [after_snoc]
      rcases (coreSystem cfg).next_cases (after cfg registry labels) l with h | h
      · rw [h]; exact hold
      · refine hold.step (sound cfg registry labels) (fun b hb => hw b ?_) h
        rw [hb]
        exact List.mem_append_right _ (List.mem_singleton.mpr rfl)

theorem ShippedWiring.earlier {before rest : List Label} (hw : ShippedWiring (before ++ rest)) :
    ShippedWiring before := fun b hb => hw b (List.mem_append_left _ hb)

/-- The registry was in this state at some moment of the run. -/
def ReadIn (cfg : Config) (registry : Registry) (labels : List Label) (r : Registry) : Prop :=
  ∃ before rest, labels = before ++ rest ∧ (after cfg registry before).shared.registry = r

theorem guarded_read {r : Registry} (h : .guarded r ∈ (after cfg registry labels).shared.log) :
    ReadIn cfg registry labels r := by
  obtain ⟨before, l, rest, s, pid, rfl, -, rfl⟩ := noted_at h
  exact ⟨before, l :: rest, rfl, rfl⟩

/-- Control records come from preparations. -/
theorem controls_prepared (cfg : Config) (registry : Registry) (labels : List Label) :
    ∀ record ∈ (after cfg registry labels).shared.db.controls,
      ∃ pid row record₀ window,
        .prepared pid row record₀ window ∈ (after cfg registry labels).shared.log := by
  refine after_ledger (P := fun db log => ∀ record ∈ db.controls, ∃ pid row record₀ window,
    .prepared pid row record₀ window ∈ log) (fun _ h => by cases h)
    (fun {s pid a b} hi h hd record hr => ?_) labels
  cases hd.control_origin hi hr with
  | old hr =>
      obtain ⟨q, row, record₀, window, hl⟩ := h record hr
      exact ⟨q, row, record₀, window, hd.log_subset hi hl⟩
  | prepared row window hl => exact ⟨pid, row, record, window, hl⟩
  | bound g _ hr _ =>
      obtain ⟨q, row, record₀, window, hl⟩ := h g.record hr
      exact ⟨q, row, record₀, window, hd.log_subset hi hl⟩

/-- **The physical gate stays closed.** In every run of the shipped wiring, a `set`
message goes to approved software only, in the house and without the inventory row
that its guard read before; the only control messages are denials; and no permit
is bound. -/
theorem physical_gate_closed (cfg : Config) (registry : Registry) (labels : List Label)
    (hw : ShippedWiring labels) :
    (∀ d, .dispatched d ∈ (after cfg registry labels).shared.log →
      (d.frame.house, d.frame.device) ∈ cfg.softwareDevices ∧
      ∃ before l rest, labels = before ++ l :: rest ∧
        .dispatched d ∈ (after cfg registry (before ++ [l])).shared.log ∧
        (ReadIn cfg registry before d.housed ∧
          d.housed.houseId d.frame.device = .ok (some d.frame.house)) ∧
        ReadIn cfg registry before d.unbound ∧ d.unbound.byDevice d.frame.device = none) ∧
    (∀ topic house device payload,
      .published topic house device payload ∈ (after cfg registry labels).shared.log →
        topic = .controlReply ∧ ∀ request now expires remaining,
          payload ≠ ControlAuthority.grantPayload request now expires remaining) ∧
    (∀ s pid g, .bound s pid g ∉ (after cfg registry labels).shared.log) ∧
    ∀ record ∈ (after cfg registry labels).shared.db.controls,
      record.permitBindingSha256 = none := by
  refine ⟨fun d h => ?frames, fun topic house device payload h => ?messages,
    fun s pid g h => ?bound, fun record h => ?records⟩
  case frames =>
    obtain ⟨before, l, rest, s, pid, rfl, -, hmem, -, hl⟩ := noted_first h
    have hl : Dispatchable cfg s (after cfg registry before).shared d := hl
    exact ⟨hl.software, before, l, rest, rfl, hmem, ⟨guarded_read hl.housed, hl.house⟩,
      guarded_read hl.unbound, hl.noInventory⟩
  case messages =>
    obtain ⟨before, l, rest, s, pid, rfl, -, hl⟩ := noted_at h
    rcases hl with ⟨rfl, request, rfl⟩ | ⟨-, hg⟩
    · exact ⟨rfl, fun request' now expires remaining => Services.denied_ne_grant _ _ _ _ _⟩
    · exact absurd hg (closed hw.earlier).shut
  case bound =>
    obtain ⟨before, l, rest, s', q, rfl, -, -, -, hg, -⟩ := noted_at h
    exact (closed hw.earlier).shut hg.gate
  case records =>
    -- there are none
    obtain ⟨pid, row, record₀, window, hl⟩ := controls_prepared cfg registry labels record h
    obtain ⟨before, l, rest, s, q, rfl, -, -, -, -, -, now, tick, hp⟩ := noted_at hl
    exact absurd hp.gate (closed hw.earlier).shut

open Household in
/-- The lamp's command is sent in a run of the shipped wiring. -/
theorem physical_gate_closed_lamp :
    ∃ d, .dispatched d ∈ (after config tables submit).shared.log ∧
      (d.frame.house, d.frame.device) ∈ config.softwareDevices := by
  have h : ∃ e ∈ (after config tables submit).shared.log,
      e.sending = some (.frame, commandId) := by decide +kernel
  obtain ⟨e, he, hs⟩ := h
  have hw : ShippedWiring submit := by
    intro b hb
    simp only [submit, operate, List.mem_append, List.mem_cons, List.mem_replicate] at hb
    simp at hb
    rw [hb]
  cases e with
  | dispatched d => exact ⟨d, he, ((physical_gate_closed config tables submit hw).1 d he).1⟩
  | sendCall => simp [Event.sending] at hs
  | _ => cases hs

end KzHome

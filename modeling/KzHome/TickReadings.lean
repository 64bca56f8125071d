import KzHome.CallNotes

/-!
# KzHome.TickReadings

Which tick readings end up in the memory of a process.

No call runs code that does not measure (`program_measures`), so what a step makes of a process
comes from the readings that the step was given (`step_remade`), and from nothing that the
programs have remembered.
-/

namespace KzHome

open Session Restart

/-- An operation that runs code of the process runs code that measures. -/
def Op.Measured : Op → Prop
  | .atomic f _ => ∀ p, Port.Measures p (f p)
  | _ => True

theorem Op.Within.measured {N : Event → Prop} {op : Op} (h : op.Within N) : op.Measured := by
  cases op with
  | atomic f note => exact fun p => (h p).1
  | _ => trivial

/-- Every service call runs only code that sets ticks to readings. -/
theorem program_measures {cfg : Config} {s pid : Nat} (call : ServiceCall) :
    @Only sql Error Unit Op.Measured (call.program cfg s pid) :=
  (program_within call).mono fun _ => Op.Within.measured

/-! ### Steps -/

/-- The tick readings that a label brings to a process: those its sessions get, and the one
it is started with. -/
def ticksFor (w : World) (pid : Nat) : Label → List (Option Int)
  | .exec s input => if (w.sessions s).any (fun m => m.1 = pid) then input.sources.ticks else []
  | .external (.boot b) => if w.shared.booted = pid then [b.initialTick] else []
  | _ => []

/-- What an operation of a session makes of the memory of the processes. -/
theorem exec_memory {w w' : World} {cfg : Config} {s : Nat} {input : Input}
    (hw : Sessions (fun _ => Op.Measured) w)
    (h : (coreSystem cfg).step w (.exec s input) = some w') {pid : Nat} {proc' : Proc}
    (hp : w'.shared.procs pid = some proc') :
    ∃ proc, w.shared.procs pid = some proc ∧ (proc' = proc ∨
      ∃ p', p'.proc = proc' ∧ (w.sessions s).any (fun m => m.1 = pid) = true ∧
        Port.Measures ⟨input.sources, proc⟩ p') := by
  have h : Session.step core (fun s p call => ServiceCall.program cfg s p call) w
      (.exec s input) = some w' := h
  rcases exec_cases h with ⟨q, op, k, ans, sh, hm, hh, rfl⟩ | ⟨-, rfl⟩
  · have hop : op.Measured := (hw s q _ hm).1
    cases Shared.handle_cases hh with
    | noted es hes hlog hreadings hprocs =>
        exact ⟨proc', by rw [← hprocs]; exact hp, Or.inl rfl⟩
    | @ran f note proc hproc =>
        have hp : Function.update w.shared.procs q (some (f ⟨input.sources, proc⟩).proc) pid =
            some proc' := hp
        by_cases hpq : pid = q
        · subst hpq
          rw [Function.update_self] at hp
          exact ⟨proc, hproc, Or.inr ⟨f ⟨input.sources, proc⟩, Option.some.inj hp,
            by simp [hm], hop _⟩⟩
        · rw [Function.update_of_ne hpq] at hp
          exact ⟨proc', hp, Or.inl rfl⟩
  · exact ⟨proc', hp, Or.inl rfl⟩

/-- The clock of a process, and its snapshot, are those of another memory. -/
structure Proc.Unmoved (a b : Proc) : Prop where
  clock : b.authority.clock = a.authority.clock
  initialized : b.authority.recoveryInitialized = a.authority.recoveryInitialized
  ids : b.authority.recoveryIds = a.authority.recoveryIds

theorem Proc.Unmoved.refl (a : Proc) : Proc.Unmoved a a := ⟨rfl, rfl, rfl⟩

/-- What an external action makes of a process. -/
theorem act_memory {a b : Shared} {x : Action} (h : a.act x = some b) {q : Nat} {proc' : Proc}
    (hp : b.procs q = some proc') :
    (∃ proc, a.procs q = some proc ∧ proc.Unmoved proc') ∨
      ∃ bt clock, x = .boot bt ∧ a.booted = q ∧
        ControlClock.create bt.epoch bt.initialTick bt.anchor bt.qualified bt.rateErrorPpm
          bt.recoveryErrorUs = .ok clock ∧
        proc' = ⟨ControlAuthority.create clock bt.gate, false, false⟩ := by
  have hupd : ∀ {p : Nat} {y z : Proc}, a.procs p = some y →
      Function.update a.procs p (some z) q = some proc' → y.Unmoved z →
        ∃ proc, a.procs q = some proc ∧ proc.Unmoved proc' := by
    intro p y z hy hq hyz
    by_cases hqp : q = p
    · subst hqp
      rw [Function.update_self] at hq
      obtain rfl := Option.some.inj hq
      exact ⟨y, hy, hyz⟩
    · rw [Function.update_of_ne hqp] at hq
      exact ⟨proc', hq, .refl _⟩
  cases x with
  | boot bt =>
      simp only [Shared.act] at h
      split at h
      · cases h
      · split at h
        · cases h
        · rename_i clock hcl
          obtain rfl := Option.some.inj h
          dsimp only at hp
          by_cases hqb : q = a.booted
          · subst hqb
            rw [Function.update_self] at hp
            exact Or.inr ⟨bt, clock, rfl, rfl, hcl, (Option.some.inj hp).symm⟩
          · rw [Function.update_of_ne hqb] at hp
            exact Or.inl ⟨proc', hp, .refl _⟩
  | crash p =>
      obtain rfl := Option.some.inj h
      dsimp only at hp
      by_cases hqp : q = p
      · subst hqp
        rw [Function.update_self] at hp
        cases hp
      · rw [Function.update_of_ne hqp] at hp
        exact Or.inl ⟨proc', hp, .refl _⟩
  | link p up sub =>
      obtain ⟨y, hy, rfl⟩ := Option.map_eq_some_iff.mp h
      exact Or.inl (hupd hy hp ⟨rfl, rfl, rfl⟩)
  | evict p id =>
      obtain ⟨y, hy, rfl⟩ := Option.map_eq_some_iff.mp h
      exact Or.inl (hupd hy hp ⟨rfl, rfl, rfl⟩)
  | registry r =>
      obtain rfl := Option.some.inj h
      exact Or.inl ⟨proc', hp, .refl _⟩

/-- What a label makes of process `pid`. -/
inductive Remade (w : World) (pid : Nat) (l : Label) : Proc → Prop
  /-- Its clock and its snapshot stay. -/
  | kept {proc proc' : Proc} (hp : w.shared.procs pid = some proc) (h : proc.Unmoved proc') :
      Remade w pid l proc'
  /-- It ran some code on the readings of the label. -/
  | ran {proc : Proc} {p' : Port} {sources : Sources} (hp : w.shared.procs pid = some proc)
      (hs : sources.ticks = ticksFor w pid l) (hm : Port.Measures ⟨sources, proc⟩ p') :
      Remade w pid l p'.proc
  /-- It was started. -/
  | booted {b : Boot} {clock : ControlClock} (hl : l = .external (.boot b))
      (hb : w.shared.booted = pid)
      (hc : ControlClock.create b.epoch b.initialTick b.anchor b.qualified b.rateErrorPpm
        b.recoveryErrorUs = .ok clock) :
      Remade w pid l ⟨ControlAuthority.create clock b.gate, false, false⟩

theorem Remade.same {w : World} {pid : Nat} {l : Label} {proc : Proc}
    (hp : w.shared.procs pid = some proc) : Remade w pid l proc := .kept hp (.refl _)

/-- **The memory of a process after one step.** -/
theorem step_remade {w w' : World} {cfg : Config} {l : Label}
    (hw : Sessions (fun _ => Op.Measured) w) (h : (coreSystem cfg).step w l = some w') {pid : Nat}
    {proc' : Proc} (hp : w'.shared.procs pid = some proc') : Remade w pid l proc' := by
  cases l with
  | start p call =>
      simp only [coreSystem, Session.system, Session.step] at h
      split at h
      · obtain rfl := Option.some.inj h
        exact .same hp
      · cases h
  | exec s input =>
      obtain ⟨proc, hproc, rfl | ⟨p', rfl, hany, hm⟩⟩ := exec_memory hw h hp
      · exact .same hproc
      · exact .ran hproc (by rw [ticksFor, if_pos hany]) hm
  | abort s =>
      simp only [coreSystem, Session.system, Session.step] at h
      split at h
      · obtain rfl := Option.some.inj h
        exact .same hp
      · cases h
  | external x =>
      simp only [coreSystem, Session.system, Session.step, Option.map_eq_some_iff] at h
      obtain ⟨sh, ha, rfl⟩ := h
      replace hp : sh.procs pid = some proc' := hp
      replace ha : w.shared.act x = some sh := ha
      rcases act_memory ha hp with ⟨proc, hproc, hsame⟩ | ⟨b, clock, rfl, hb, hc, rfl⟩
      · exact .kept hproc hsame
      · exact .booted rfl hb hc

/-- What a session does to the fence of a process: nothing, or it takes over a snapshot of its
own process. -/
theorem Does.fence_cases {cfg : Config} {s pid q : Nat} {a b : Shared} {proc' : Proc}
    (h : Does cfg s pid a b) (hp : b.procs q = some proc') :
    ∃ proc, a.procs q = some proc ∧
      ((proc'.authority.clock.fenceStart = proc.authority.clock.fenceStart ∧
          proc'.authority.recoveryInitialized = proc.authority.recoveryInitialized ∧
          proc'.authority.recoveryIds = proc.authority.recoveryIds) ∨
        .snapshot q proc'.authority.recoveryIds ∈ a.log) := by
  rcases h.memory with heq | ⟨p, p', hat, heq, hrem⟩
  · exact ⟨proc', by rw [← heq]; exact hp, Or.inl ⟨rfl, rfl, rfl⟩⟩
  rw [heq] at hp
  by_cases hqp : q = pid
  · subst hqp
    rw [Function.update_self] at hp
    obtain rfl := Option.some.inj hp
    refine ⟨p.proc, hat, ?_⟩
    cases hrem with
    | ticked h => exact Or.inl ⟨h.clock.fenceStart, by rw [h.authority_eq], by rw [h.authority_eq]⟩
    | fenced ids h hs =>
        obtain ⟨tick, -, -, hfenced⟩ := h.proc
        right
        rw [hfenced]
        exact hs
    | forgot ids h => exact Or.inl (by rw [h]; exact ⟨rfl, rfl, rfl⟩)
    | windowed row record window hl h => exact Or.inl (by rw [h]; exact ⟨rfl, rfl, rfl⟩)
    | trimmed h => exact Or.inl ⟨by rw [h.clock_eq], by rw [h.proc], by rw [h.proc]⟩
    | replied g hl hn h => exact Or.inl (by rw [h]; exact ⟨rfl, rfl, rfl⟩)
  · rw [Function.update_of_ne hqp] at hp
    exact ⟨proc', hp, Or.inl ⟨rfl, rfl, rfl⟩⟩

/-- What one step does to the fence of a process that was there before. -/
theorem Effect.fence_cases {cfg : Config} {q : Nat} {a b : Shared} {proc proc' : Proc} (hi : Inv a)
    (h : Effect cfg a b) (hp : a.procs q = some proc) (hp' : b.procs q = some proc') :
    (proc'.authority.clock.fenceStart = proc.authority.clock.fenceStart ∧
        proc'.authority.recoveryInitialized = proc.authority.recoveryInitialized ∧
        proc'.authority.recoveryIds = proc.authority.recoveryIds) ∨
      .snapshot q proc'.authority.recoveryIds ∈ a.log := by
  cases h with
  | stay =>
      obtain rfl := Option.some.inj (hp.symm.trans hp')
      exact Or.inl ⟨rfl, rfl, rfl⟩
  | close ended =>
      obtain rfl := Option.some.inj (hp.symm.trans hp')
      exact Or.inl ⟨rfl, rfl, rfl⟩
  | does hd =>
      obtain ⟨proc₀, hp₀, h⟩ := hd.fence_cases hp'
      obtain rfl := Option.some.inj (hp.symm.trans hp₀)
      exact h
  | act ended ha =>
      rcases act_memory ha hp' with ⟨proc₀, hp₀, hsame⟩ | ⟨bt, clock, -, hb, -, -⟩
      · obtain rfl := Option.some.inj (hp.symm.trans hp₀)
        exact Or.inl ⟨by rw [hsame.clock], hsame.initialized, hsame.ids⟩
      · -- a number that was given to a process is not given again
        exact absurd hb.symm (Nat.ne_of_lt (hi.epochs q proc hp).2)

end KzHome

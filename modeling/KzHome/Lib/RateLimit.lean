import KzHome.Lib.Dict

/-!
# KzHome.Lib.RateLimit

A limit on how often calls are let through: for each key no two within a width, and no more
than a burst in each aligned window of that width.

The history is the list of the calls that were let through, the newest first. It is `Lawful`
when none of them broke a bound (`Allows`), and then the spacing, the bound on a window and
the bound on the recent calls hold of all of it.

A limiter does not keep the history. `Tracks` says that what it keeps is enough: the recent
calls of every key, and how many calls the current window has had.
-/

namespace RateLimit

variable {κ : Type}

/-- The calls of the window number `w`. -/
def inWindow (width : Int) (history : List (κ × Int)) (w : Int) : Nat :=
  history.countP fun c => c.2 / width = w

/-- The calls that are younger than the width at `now`. -/
def recent (width now : Int) (history : List (κ × Int)) : List (κ × Int) :=
  history.filter fun c => now - c.2 < width

/-- A call that breaks neither bound. -/
structure Allows (width : Int) (burst : Nat) (history : List (κ × Int)) (c : κ × Int) :
    Prop where
  spaced : ∀ d ∈ history, d.1 = c.1 → width ≤ c.2 - d.2
  room : inWindow width history (c.2 / width) < burst

/-- A history in which no call broke a bound. -/
inductive Lawful (width : Int) (burst : Nat) : List (κ × Int) → Prop
  | nil : Lawful width burst []
  | cons {history : List (κ × Int)} {c : κ × Int} (h : Lawful width burst history)
      (late : ∀ d ∈ history, d.2 ≤ c.2) (allows : Allows width burst history c) :
      Lawful width burst (c :: history)

variable {width : Int} {burst : Nat} {history : List (κ × Int)}

theorem inWindow_cons (c : κ × Int) (w : Int) :
    inWindow width (c :: history) w =
      inWindow width history w + if c.2 / width = w then 1 else 0 := by
  simp [inWindow, List.countP_cons]

/-- A window that no call is in. -/
theorem inWindow_eq_zero {w : Int} (h : ∀ c ∈ history, c.2 / width ≠ w) :
    inWindow width history w = 0 := by
  rw [inWindow, List.countP_eq_zero]
  intro c hc
  simpa using h c hc

/-! ### What a lawful history keeps to -/

/-- **Spacing.** -/
theorem Lawful.spaced (h : Lawful width burst history) :
    history.Pairwise fun c d => d.1 = c.1 → width ≤ c.2 - d.2 := by
  induction h with
  | nil => exact List.Pairwise.nil
  | cons _ _ allows ih => exact List.pairwise_cons.mpr ⟨allows.spaced, ih⟩

/-- **No window is over the burst.** -/
theorem Lawful.inWindow_le (h : Lawful width burst history) (w : Int) :
    inWindow width history w ≤ burst := by
  induction h with
  | nil => exact Nat.zero_le _
  | cons _ _ allows ih =>
      rw [inWindow_cons]
      split
      · rename_i hw
        subst hw
        exact allows.room
      · exact ih

/-- A recent call is in the window of now or in the one before. -/
theorem window_of_recent (hwidth : 0 < width) {now tick : Int} (hlate : tick ≤ now)
    (hrecent : now - tick < width) :
    tick / width = now / width ∨ tick / width = now / width - 1 := by
  have hle : tick / width ≤ now / width := Int.ediv_le_ediv hwidth hlate
  have hlt : (now - width) / width ≤ tick / width := Int.ediv_le_ediv hwidth (by omega)
  rw [Int.sub_ediv_of_dvd _ (Int.dvd_refl width), Int.ediv_self (by omega)] at hlt
  omega

/-- **The recent calls are those of two windows at most.** -/
theorem Lawful.recent_length_le (h : Lawful width burst history) (hwidth : 0 < width) {now : Int}
    (hlate : ∀ c ∈ history, c.2 ≤ now) : (recent width now history).length ≤ 2 * burst := by
  have htwo : ∀ calls : List (κ × Int), (∀ c ∈ calls, c.2 ≤ now) →
      (recent width now calls).length ≤
        inWindow width calls (now / width) + inWindow width calls (now / width - 1) := by
    intro calls
    induction calls with
    | nil => simp [recent, inWindow]
    | cons c calls ih =>
        intro hcalls
        have hih := ih fun d hd => hcalls d (List.mem_cons_of_mem _ hd)
        rw [inWindow_cons, inWindow_cons, recent, List.filter_cons]
        split
        · rename_i hrecent
          have hone := window_of_recent hwidth (hcalls c List.mem_cons_self)
            (of_decide_eq_true hrecent)
          rw [List.length_cons]
          change (recent width now calls).length + 1 ≤ _
          split <;> split <;> omega
        · change (recent width now calls).length ≤ _
          omega
  have hnow := h.inWindow_le (now / width)
  have hbefore := h.inWindow_le (now / width - 1)
  have := htwo history hlate
  omega

/-! ### What a limiter keeps of a history -/

/-- The recent calls by key, and the number of calls of the current window. -/
structure Tracks [DecidableEq κ] (width : Int) (burst : Nat) (rates : Dict κ Int) (window : Int)
    (count : Nat) (last : Int) (history : List (κ × Int)) : Prop where
  lawful : Lawful width burst history
  late : ∀ c ∈ history, c.2 ≤ last
  rates : ∀ key tick, rates.get? key = some tick ↔ (key, tick) ∈ recent width last history
  count : count = inWindow width history window
  current : history ≠ [] → window = last / width

/-- A call of now. -/
theorem mem_recent {now : Int} {c : κ × Int} :
    c ∈ recent width now history ↔ c ∈ history ∧ now - c.2 < width := by
  rw [recent, List.mem_filter, decide_eq_true_eq]

section Tracks

variable [DecidableEq κ] {rates : Dict κ Int} {window last : Int} {count : Nat}

/-- Nothing was let through yet. -/
theorem Tracks.init (width : Int) (burst : Nat) (window last : Int) :
    Tracks width burst (.empty : Dict κ Int) window 0 last [] where
  lawful := .nil
  late := nofun
  rates key tick := by simp [recent]
  count := rfl
  current := nofun

/-- **Time passes**: old calls are dropped, and the count starts again with a new window. -/
theorem Tracks.turn (h : Tracks width burst rates window count last history) (hwidth : 0 < width)
    {now : Int} (hnow : last ≤ now) :
    Tracks width burst (rates.filter fun _ tick => now - tick < width) (now / width)
      (if now / width ≠ window then 0 else count) now history where
  lawful := h.lawful
  late c hc := Int.le_trans (h.late c hc) hnow
  rates key tick := by
    rw [Dict.get?_filter, h.rates, mem_recent, mem_recent, decide_eq_true_eq]
    constructor
    · intro hold
      exact ⟨hold.1.1, hold.2⟩
    · intro hnew
      exact ⟨⟨hnew.1, by have := hnew.2; dsimp only at this ⊢; omega⟩, hnew.2⟩
  count := by
    split
    · rename_i hnew
      refine (inWindow_eq_zero fun c hc heq => hnew ?_).symm
      -- the window of a call is not after the one that is counted, which is not after this one
      have hcurrent := h.current (List.ne_nil_of_mem hc)
      have hbefore : c.2 / width ≤ last / width := Int.ediv_le_ediv hwidth (h.late c hc)
      have hafter : last / width ≤ now / width := Int.ediv_le_ediv hwidth hnow
      omega
    · rename_i hsame
      rw [not_not.mp hsame]
      exact h.count
  current _ := rfl

/-- What is kept decides whether a call is allowed. -/
theorem Tracks.allows_iff (h : Tracks width burst rates window count last history) (key : κ)
    (hwindow : window = last / width) :
    Allows width burst history (key, last) ↔ rates.get? key = none ∧ count < burst := by
  have hroom : count = inWindow width history (last / width) := hwindow ▸ h.count
  constructor
  · intro hallows
    refine ⟨?_, hroom ▸ hallows.room⟩
    cases hget : rates.get? key with
    | none => rfl
    | some tick =>
        obtain ⟨hmem, hrecent⟩ := mem_recent.mp ((h.rates key tick).mp hget)
        have := hallows.spaced _ hmem rfl
        dsimp only at this hrecent
        omega
  · intro hkept
    refine ⟨fun d hd hkey => ?_, hroom ▸ hkept.2⟩
    by_contra hclose
    have hget : rates.get? key = some d.2 := by
      refine (h.rates key d.2).mpr (mem_recent.mpr ⟨?_, by dsimp only at hclose ⊢; omega⟩)
      rw [show key = d.1 from hkey.symm]
      exact hd
    rw [hkept.1] at hget
    cases hget

/-- **A call is let through.** -/
theorem Tracks.accept (h : Tracks width burst rates window count last history) (hwidth : 0 < width)
    {key : κ} (hwindow : window = last / width)
    (hallows : Allows width burst history (key, last)) :
    Tracks width burst (rates.set key last) window (count + 1) last ((key, last) :: history) where
  lawful := .cons h.lawful h.late hallows
  late := List.forall_mem_cons.mpr ⟨Int.le_refl _, h.late⟩
  rates key' tick := by
    have hnone := ((h.allows_iff key hwindow).mp hallows).1
    rw [Dict.get?_set, h.rates, mem_recent, mem_recent, List.mem_cons, Prod.mk.injEq]
    constructor
    · intro hset
      obtain ⟨rfl, rfl⟩ | ⟨-, hmem, hrecent⟩ := hset
      · exact ⟨.inl ⟨rfl, rfl⟩, by dsimp only; omega⟩
      · exact ⟨.inr hmem, hrecent⟩
    · intro hnew
      obtain ⟨heq | hmem, hrecent⟩ := hnew
      · exact .inl heq
      · refine .inr ⟨fun hkey => ?_, hmem, hrecent⟩
        -- the key has no recent call
        have hget := (h.rates key' tick).mpr (mem_recent.mpr ⟨hmem, hrecent⟩)
        rw [hkey, hnone] at hget
        cases hget
  count := by
    rw [inWindow_cons, if_pos hwindow.symm, h.count]
  current _ := hwindow

/-- **What is kept is small.** -/
theorem Tracks.size_le (h : Tracks width burst rates window count last history)
    (hwidth : 0 < width) : rates.size ≤ 2 * burst := by
  have hnodup : rates.entries.Nodup := rates.nodup.of_map
  have hsub : rates.entries ⊆ recent width last history := by
    intro e he
    exact (h.rates e.1 e.2).mp (Dict.get?_eq_some.mpr he)
  calc rates.size ≤ (recent width last history).length :=
        (List.subperm_of_subset hnodup hsub).length_le
    _ ≤ 2 * burst := h.lawful.recent_length_le hwidth h.late

end Tracks

end RateLimit

import KzHome.Lib.Transition
import Mathlib.Logic.Relation
import Mathlib.Order.Defs.PartialOrder

/-!
# KzHome.Lib.Deadlock

Row locks that transactions take one after the other, and who waits for whom.

A transaction is the list of the locks it takes, kept until it ends; it may end
after any of them. It asks for its next lock and has it at once, or waits while a
lock that another transaction holds conflicts with it. The modes are those of
PostgreSQL: `SELECT … FOR UPDATE` and `DELETE` exclude everybody, an `UPDATE`
that keeps the key excludes other writers, and the check of a foreign key only
keeps the parent row from going away.

The order that transactions should keep to is a `rank` of the rows. A request is
`Safe` when all rows held so far come before the row it is for, and also when it
can not be made to wait: the transaction holds the row itself, or it holds the
`guard` that everybody takes before the row. `cycle_unsafe` is the theorem that a
cycle of waits has a transaction on it that waits with an unsafe request.
-/

namespace Deadlock

/-- The modes of a row lock. -/
inductive Mode
  /-- `SELECT … FOR UPDATE` and `DELETE`. -/
  | forUpdate
  /-- `UPDATE` of other columns than the key. -/
  | update
  /-- The parent row of a foreign key that is being written. -/
  | keyShare
  deriving DecidableEq, Repr

/-- Can two transactions not hold these modes of one row together? -/
def Mode.conflicts : Mode → Mode → Bool
  | .forUpdate, _ => true
  | _, .forUpdate => true
  | .update, .update => true
  | _, _ => false

theorem Mode.conflicts_comm (m n : Mode) : m.conflicts n = n.conflicts m := by
  cases m <;> cases n <;> rfl

variable {ρ κ : Type} [DecidableEq ρ]

/-- A lock of a row. -/
structure Lock (ρ : Type) where
  row : ρ
  mode : Mode
  deriving DecidableEq, Repr

/-- Two locks that different transactions can not hold together. -/
def Lock.conflicts (a b : Lock ρ) : Bool := decide (a.row = b.row) && a.mode.conflicts b.mode

theorem Lock.conflicts_iff {a b : Lock ρ} :
    a.conflicts b = true ↔ a.row = b.row ∧ a.mode.conflicts b.mode = true := by
  simp [Lock.conflicts]

theorem Lock.conflicts_comm (a b : Lock ρ) : a.conflicts b = b.conflicts a := by
  rw [Lock.conflicts, Lock.conflicts, Mode.conflicts_comm, decide_eq_decide.mpr eq_comm]

/-- A transaction: what it was started for, the locks it holds, whether it waits for the
next one, and the locks it has not got yet. -/
structure Txn (κ ρ : Type) where
  call : κ
  held : List (Lock ρ)
  waiting : Bool
  todo : List (Lock ρ)

namespace Txn

/-- The transaction has taken its next lock. -/
def acquire (x : Txn κ ρ) : Txn κ ρ :=
  match x.todo with
  | [] => x
  | r :: todo => { x with held := x.held ++ [r], waiting := false, todo }

/-- The end of the transaction releases its locks. -/
def finish (x : Txn κ ρ) : Txn κ ρ := { x with held := [], waiting := false, todo := [] }

/-- The lock that a waiting transaction waits for. -/
def awaits (x : Txn κ ρ) : Option (Lock ρ) := if x.waiting then x.todo.head? else none

/-- Does the transaction hold a lock that keeps others from `r`? -/
def keeps (x : Txn κ ρ) (r : Lock ρ) : Bool := x.held.any (·.conflicts r)

end Txn

/-- All transactions that were ever started, by their numbers. -/
abbrev State (κ ρ : Type) := List (Txn κ ρ)

/-- What can happen next. -/
inductive Label (κ : Type)
  /-- A transaction begins. -/
  | begins (call : κ)
  /-- A transaction asks for its next lock, for the first time or again. -/
  | asks (t : Nat)
  /-- A transaction commits or is rolled back. -/
  | ends (t : Nat)
  deriving DecidableEq, Repr

/-- Is somebody other than transaction `t` keeping it from `r`? -/
def blocked (s : State κ ρ) (t : Nat) (r : Lock ρ) : Bool :=
  s.zipIdx.any fun e => e.2 ≠ t && e.1.keeps r

/-- One step of the transactions. -/
def step (locks : κ → List (Lock ρ)) (s : State κ ρ) : Label κ → Option (State κ ρ)
  | .begins call => some (s ++ [⟨call, [], false, locks call⟩])
  | .asks t =>
    (s[t]?).bind fun x =>
      match x.todo with
      | [] => none
      | r :: _ =>
        if blocked s t r then some (s.set t { x with waiting := true })
        else some (s.set t x.acquire)
  | .ends t => (s[t]?).map fun x => s.set t x.finish

/-- The transactions as a transition system. -/
def system (locks : κ → List (Lock ρ)) : Transition.System (State κ ρ) (Label κ) := ⟨step locks⟩

/-- Transaction `t` waits for transaction `u`. -/
def WaitsFor (s : State κ ρ) (t u : Nat) : Prop :=
  t ≠ u ∧ ∃ x y r, s[t]? = some x ∧ s[u]? = some y ∧ x.awaits = some r ∧ y.keeps r = true

/-- The wait-for graph has a cycle. -/
def Deadlocked (s : State κ ρ) : Prop := ∃ t, Relation.TransGen (WaitsFor s) t t

/-! ### The state of a run -/

theorem Txn.keeps_iff {x : Txn κ ρ} {r : Lock ρ} :
    x.keeps r = true ↔ ∃ l ∈ x.held, l.conflicts r = true := by
  simp [Txn.keeps]

omit [DecidableEq ρ] in
theorem Txn.awaits_eq_some {x : Txn κ ρ} {r : Lock ρ} :
    x.awaits = some r ↔ x.waiting = true ∧ ∃ todo, x.todo = r :: todo := by
  unfold Txn.awaits
  split
  · rename_i h
    simp [h, List.head?_eq_some_iff]
  · rename_i h
    simp [h]

theorem blocked_eq_false {s : State κ ρ} {t : Nat} {r : Lock ρ} :
    blocked s t r = false ↔ ∀ u y, u ≠ t → s[u]? = some y → y.keeps r = false := by
  simp only [blocked, List.any_eq_false, List.mem_zipIdx_iff_getElem?, Bool.and_eq_true,
    decide_eq_true_eq, not_and, Bool.not_eq_true, Prod.forall]
  exact ⟨fun h u y hne hu => h y u hu hne, fun h y u hu hne => h u y hne hu⟩

/-- What is true in every state that is reached: a transaction has taken a prefix of its
locks or is over, and no two transactions hold conflicting locks. -/
structure Inv (locks : κ → List (Lock ρ)) (s : State κ ρ) : Prop where
  progress : ∀ (t : Nat) (x : Txn κ ρ), s[t]? = some x →
    x.held ++ x.todo = locks x.call ∨ (x.held = [] ∧ x.todo = [])
  exclusive : ∀ (t u : Nat) (x y : Txn κ ρ), t ≠ u → s[t]? = some x → s[u]? = some y →
    ∀ l ∈ x.held, y.keeps l = false

variable {locks : κ → List (Lock ρ)} {s s' : State κ ρ}

theorem inv_nil : Inv locks [] := ⟨by simp, by simp⟩

/-- Replacing a transaction by one that holds no more than is free. -/
theorem Inv.set (h : Inv locks s) {t : Nat} {x' : Txn κ ρ}
    (hp : x'.held ++ x'.todo = locks x'.call ∨ (x'.held = [] ∧ x'.todo = []))
    (hfree : ∀ u y, u ≠ t → s[u]? = some y → ∀ l ∈ x'.held, y.keeps l = false) :
    Inv locks (s.set t x') := by
  constructor
  · intro u y hu
    rw [List.getElem?_set] at hu
    split at hu
    · split at hu
      · obtain rfl := Option.some.inj hu
        exact hp
      · cases hu
    · exact h.progress u y hu
  · intro u v y z hne hu hv l hl
    rw [List.getElem?_set] at hu hv
    split at hu
    · split at hu
      · rename_i htu _
        obtain rfl := Option.some.inj hu
        rw [if_neg (by omega)] at hv
        exact hfree v z (by omega) hv l hl
      · cases hu
    · split at hv
      · split at hv
        · obtain rfl := Option.some.inj hv
          -- the new one is on the other side: turn the conflict around
          rw [Bool.eq_false_iff]
          intro hk
          obtain ⟨l', hl', hc⟩ := Txn.keeps_iff.mp hk
          have := hfree u y (by omega) hu l' hl'
          rw [Bool.eq_false_iff] at this
          exact this (Txn.keeps_iff.mpr ⟨l, hl, by rw [Lock.conflicts_comm]; exact hc⟩)
        · cases hv
      · exact h.exclusive u v y z hne hu hv l hl

/-- The state after a step, by what the step was. -/
theorem step_cases {l : Label κ} (hs : step locks s l = some s') :
    (∃ call, l = .begins call ∧ s' = s ++ [⟨call, [], false, locks call⟩]) ∨
    (∃ t x r todo, l = .asks t ∧ s[t]? = some x ∧ x.todo = r :: todo ∧
      blocked s t r = true ∧ s' = s.set t { x with waiting := true }) ∨
    (∃ t x r todo, l = .asks t ∧ s[t]? = some x ∧ x.todo = r :: todo ∧
      blocked s t r = false ∧ s' = s.set t x.acquire) ∨
    (∃ t x, l = .ends t ∧ s[t]? = some x ∧ s' = s.set t x.finish) := by
  cases l with
  | begins call => exact Or.inl ⟨call, rfl, (Option.some.inj hs).symm⟩
  | asks t =>
      simp only [step] at hs
      obtain ⟨x, hx, hs⟩ := Option.bind_eq_some_iff.mp hs
      cases htodo : x.todo with
      | nil => simp [htodo] at hs
      | cons r todo =>
          simp only [htodo] at hs
          split at hs
          · rename_i hb
            refine Or.inr (Or.inl ⟨t, x, r, todo, rfl, hx, htodo, hb, ?_⟩)
            rw [htodo]
            exact (Option.some.inj hs).symm
          · rename_i hb
            exact Or.inr (Or.inr (Or.inl
              ⟨t, x, r, todo, rfl, hx, htodo, by simpa using hb, (Option.some.inj hs).symm⟩))
  | ends t =>
      obtain ⟨x, hx, hs⟩ := Option.map_eq_some_iff.mp hs
      exact Or.inr (Or.inr (Or.inr ⟨t, x, rfl, hx, hs.symm⟩))

/-- Every step keeps the invariant. -/
theorem Inv.step (h : Inv locks s) {l : Label κ} (hs : Deadlock.step locks s l = some s') :
    Inv locks s' := by
  obtain ⟨call, rfl, rfl⟩ | ⟨t, x, r, todo, rfl, hx, htodo, -, rfl⟩ |
    ⟨t, x, r, todo, rfl, hx, htodo, hb, rfl⟩ | ⟨t, x, rfl, hx, rfl⟩ := step_cases hs
  · have hget : ∀ (t : Nat) (x : Txn κ ρ), (s ++ [⟨call, [], false, locks call⟩])[t]? = some x →
        s[t]? = some x ∨ x = ⟨call, [], false, locks call⟩ := by
      intro t x hx
      rw [List.getElem?_append] at hx
      split at hx
      · exact Or.inl hx
      · exact Or.inr (List.mem_singleton.mp (List.mem_of_getElem? hx))
    constructor
    · intro t x hx
      rcases hget t x hx with hx | rfl
      · exact h.progress t x hx
      · exact Or.inl rfl
    · intro t u x y hne hx hy l hl
      rcases hget t x hx with hx | rfl
      · rcases hget u y hy with hy | rfl
        · exact h.exclusive t u x y hne hx hy l hl
        · rfl
      · cases hl
  · exact h.set (h.progress t x hx) fun u y hne hu l hl => h.exclusive t u x y hne.symm hx hu l hl
  · simp only [Txn.acquire, htodo]
    refine h.set ?_ ?_
    · rcases h.progress t x hx with hp | ⟨-, hp⟩
      · rw [htodo] at hp
        exact Or.inl (by simpa using hp)
      · rw [htodo] at hp
        cases hp
    · intro u y hne hu l hl
      rcases List.mem_append.mp hl with hl | hl
      · exact h.exclusive t u x y hne.symm hx hu l hl
      · obtain rfl := List.mem_singleton.mp hl
        exact blocked_eq_false.mp hb u y hne hu
  · exact h.set (Or.inr ⟨rfl, rfl⟩) fun u y _ _ l hl => by cases hl

variable (locks) in
theorem inv_run (is : List (Label κ)) : Inv locks ((system locks).run [] is) :=
  Transition.System.invariant (fun _ _ _ h hs => h.step hs) inv_nil is

/-! ### Requests in the order of the rows -/

section

variable {α : Type*} [Preorder α] (guard : ρ → Option ρ) (rank : ρ → α)

/-- A request after the locks `held` that keeps to the order, or that nobody can make
wait. -/
def Safe (held : List (Lock ρ)) (r : Lock ρ) : Prop :=
  (⟨r.row, .forUpdate⟩ ∈ held) ∨ (∃ g, guard r.row = some g ∧ ⟨g, .forUpdate⟩ ∈ held) ∨
    ∀ l ∈ held, rank l.row < rank r.row

/-- After the locks `held`, every request of a list keeps to the order, or is one of the
exempt ones. -/
def Orderly (exempt : Lock ρ → Prop) : List (Lock ρ) → List (Lock ρ) → Prop
  | _, [] => True
  | held, r :: rest => (Safe guard rank held r ∨ exempt r) ∧ Orderly exempt (held ++ [r]) rest

/-- After the locks `held`, every request of a list for a guarded row comes after the
exclusive lock of its guard. -/
def Guarded : List (Lock ρ) → List (Lock ρ) → Prop
  | _, [] => True
  | held, r :: rest =>
    (∀ g, guard r.row = some g → ⟨g, .forUpdate⟩ ∈ held) ∧ Guarded (held ++ [r]) rest

variable {guard rank} {exempt : Lock ρ → Prop} {held pre post rest : List (Lock ρ)} {r : Lock ρ}

omit [DecidableEq ρ] in
@[simp] theorem orderly_nil : Orderly guard rank exempt held [] := trivial

omit [DecidableEq ρ] in
@[simp] theorem orderly_cons : Orderly guard rank exempt held (r :: rest) ↔
    (Safe guard rank held r ∨ exempt r) ∧ Orderly guard rank exempt (held ++ [r]) rest := Iff.rfl

omit [DecidableEq ρ] in
@[simp] theorem orderly_append : Orderly guard rank exempt held (pre ++ post) ↔
    Orderly guard rank exempt held pre ∧ Orderly guard rank exempt (held ++ pre) post := by
  induction pre generalizing held with
  | nil => simp
  | cons r pre ih => simp [ih, and_assoc]

omit [DecidableEq ρ] in
@[simp] theorem guarded_nil : Guarded guard held [] := trivial

omit [DecidableEq ρ] in
@[simp] theorem guarded_cons : Guarded guard held (r :: rest) ↔
    (∀ g, guard r.row = some g → ⟨g, .forUpdate⟩ ∈ held) ∧ Guarded guard (held ++ [r]) rest :=
  Iff.rfl

omit [DecidableEq ρ] in
@[simp] theorem guarded_append : Guarded guard held (pre ++ post) ↔
    Guarded guard held pre ∧ Guarded guard (held ++ pre) post := by
  induction pre generalizing held with
  | nil => simp
  | cons r pre ih => simp [ih, and_assoc]

omit [DecidableEq ρ] in
/-- Rows without a guard. -/
theorem guarded_of_none (h : ∀ r ∈ rest, guard r.row = none) : Guarded guard held rest := by
  induction rest generalizing held with
  | nil => trivial
  | cons r rest ih =>
      refine ⟨fun g hg => ?_, ih fun r hr => h r (List.mem_cons_of_mem _ hr)⟩
      rw [h r List.mem_cons_self] at hg
      cases hg

omit [DecidableEq ρ] in
/-- Rows that go up in rank, from above everything that is held. -/
theorem orderly_of_sorted (hheld : ∀ l ∈ held, ∀ r ∈ rest, rank l.row < rank r.row)
    (hsorted : rest.Pairwise fun l r => rank l.row < rank r.row) :
    Orderly guard rank exempt held rest := by
  induction rest generalizing held with
  | nil => trivial
  | cons r rest ih =>
      rw [List.pairwise_cons] at hsorted
      refine ⟨Or.inl (Or.inr (Or.inr fun l hl => hheld l hl r List.mem_cons_self)), ?_⟩
      refine ih (fun l hl r' hr' => ?_) hsorted.2
      rcases List.mem_append.mp hl with hl | hl
      · exact hheld l hl r' (List.mem_cons_of_mem _ hr')
      · obtain rfl := List.mem_singleton.mp hl
        exact hsorted.1 r' hr'

/-- A transaction that holds a guarded row holds its guard. -/
theorem Inv.guard_held (h : Inv locks s) (hg : ∀ k, Guarded guard [] (locks k)) {t : Nat}
    {x : Txn κ ρ} (hx : s[t]? = some x) {l : Lock ρ} (hl : l ∈ x.held) {g : ρ}
    (hgl : guard l.row = some g) : ⟨g, .forUpdate⟩ ∈ x.held := by
  rcases h.progress t x hx with hp | ⟨hp, -⟩
  · obtain ⟨pre, post, hheld⟩ := List.append_of_mem hl
    have hgx := hg x.call
    rw [← hp, hheld, List.append_assoc, guarded_append] at hgx
    rw [hheld]
    exact List.mem_append_left _ (hgx.2.1 g hgl)
  · rw [hp] at hl
    cases hl

/-- Who waits with a safe request waits for a row that comes after all rows it holds. -/
theorem Inv.waits_rank (h : Inv locks s) (hg : ∀ k, Guarded guard [] (locks k)) {t u : Nat}
    {x y : Txn κ ρ} {r : Lock ρ} (hne : t ≠ u) (hx : s[t]? = some x) (hy : s[u]? = some y)
    (hk : y.keeps r = true) (hsafe : Safe guard rank x.held r) :
    ∀ l ∈ x.held, rank l.row < rank r.row := by
  obtain ⟨l, hl, hc⟩ := Txn.keeps_iff.mp hk
  obtain ⟨hrow, -⟩ := Lock.conflicts_iff.mp hc
  -- nobody else holds a lock of a row that `t` holds exclusively
  have hown : ∀ (row : ρ) (l : Lock ρ), ⟨row, .forUpdate⟩ ∈ x.held → l ∈ y.held →
      l.row ≠ row := by
    intro row l hrow hl heq
    have := h.exclusive u t y x hne.symm hy hx l hl
    rw [Bool.eq_false_iff] at this
    exact this (Txn.keeps_iff.mpr ⟨_, hrow, Lock.conflicts_iff.mpr ⟨heq.symm, rfl⟩⟩)
  rcases hsafe with hmem | ⟨g, hgr, hmem⟩ | hrank
  · exact absurd hrow (hown _ l hmem hl)
  · exact absurd rfl (hown g _ hmem (h.guard_held hg hy hl (by rw [hrow]; exact hgr)))
  · exact hrank

variable (rank) in
/-- **A cycle of waits has an unsafe request on it.** -/
theorem Inv.cycle_unsafe (h : Inv locks s) (hg : ∀ k, Guarded guard [] (locks k)) {t : Nat}
    (hcycle : Relation.TransGen (WaitsFor s) t t) :
    ∃ u x r, Relation.TransGen (WaitsFor s) t u ∧ Relation.TransGen (WaitsFor s) u t ∧
      s[u]? = some x ∧ x.awaits = some r ∧ ¬ Safe guard rank x.held r := by
  by_contra hall
  push Not at hall
  -- one wait on the cycle goes up in rank
  have hup : ∀ a b, Relation.TransGen (WaitsFor s) t a → Relation.TransGen (WaitsFor s) a t →
      WaitsFor s a b → ∀ x y r r', s[a]? = some x → s[b]? = some y → x.awaits = some r →
      y.awaits = some r' → Relation.TransGen (WaitsFor s) t b →
      Relation.TransGen (WaitsFor s) b t → rank r.row < rank r'.row := by
    intro a b hta hat hab x y r r' hx hy hr hr' htb hbt
    obtain ⟨hne, x₁, y₁, r₁, hx₁, hy₁, hr₁, hk⟩ := hab
    obtain rfl := Option.some.inj (hx.symm.trans hx₁)
    obtain rfl := Option.some.inj (hy.symm.trans hy₁)
    obtain rfl := Option.some.inj (hr.symm.trans hr₁)
    obtain ⟨l, hl, hc⟩ := Txn.keeps_iff.mp hk
    obtain ⟨hrow, -⟩ := Lock.conflicts_iff.mp hc
    -- `b` holds the row that `a` waits for, and waits for a later one
    obtain ⟨c, hbc, -⟩ := Relation.TransGen.head'_iff.mp hbt
    obtain ⟨hnebc, y₂, z, r₂, hy₂, hz, hr₂, hkz⟩ := hbc
    obtain rfl := Option.some.inj (hy.symm.trans hy₂)
    obtain rfl := Option.some.inj (hr'.symm.trans hr₂)
    rw [← hrow]
    exact h.waits_rank hg hnebc hy hz hkz (hall b y r' htb hbt hy hr') l hl
  -- and so does every path along it
  have hpath : ∀ b, Relation.TransGen (WaitsFor s) t b → Relation.TransGen (WaitsFor s) b t →
      ∀ x y r r', s[t]? = some x → s[b]? = some y → x.awaits = some r → y.awaits = some r' →
      rank r.row < rank r'.row := by
    intro b htb
    induction htb with
    | single hab =>
        intro hbt x y r r' hx hy hr hr'
        exact hup t _ hcycle hcycle hab x y r r' hx hy hr hr' (.single hab) hbt
    | @tail b c htb hbc ih =>
        intro hct x y r r' hx hy hr hr'
        have hbt : Relation.TransGen (WaitsFor s) b t := Relation.TransGen.head hbc hct
        have hbc' := hbc
        obtain ⟨-, z, -, rz, hz, -, hrz, -⟩ := hbc
        exact lt_trans (ih hbt x z r rz hx hz hr hrz)
          (hup b c htb hbt hbc' z y rz r' hz hy hrz hr' (htb.tail hbc') hct)
  obtain ⟨c, hbc, -⟩ := Relation.TransGen.head'_iff.mp hcycle
  obtain ⟨-, x, -, r, hx, -, hr, -⟩ := hbc
  exact lt_irrefl _ (hpath t hcycle hcycle x x r r hx hx hr hr)

variable (rank) in
/-- Without unsafe waits there is no cycle of waits. -/
theorem Inv.acyclic (h : Inv locks s) (hg : ∀ k, Guarded guard [] (locks k))
    (hsafe : ∀ (u : Nat) (x : Txn κ ρ) r, s[u]? = some x → x.awaits = some r → Safe guard rank x.held r) :
    ¬ Deadlocked s := by
  intro ⟨t, hcycle⟩
  obtain ⟨u, x, r, -, -, hx, hr, hns⟩ := h.cycle_unsafe rank hg hcycle
  exact hns (hsafe u x r hx hr)

/-- What a transaction waits for is a safe request, or an exempt one. -/
theorem Inv.awaits_safe (h : Inv locks s) {exempt : κ → Lock ρ → Prop}
    (ho : ∀ k, Orderly guard rank (exempt k) [] (locks k)) {t : Nat} {x : Txn κ ρ} {r : Lock ρ}
    (hx : s[t]? = some x) (hr : x.awaits = some r) :
    Safe guard rank x.held r ∨ exempt x.call r := by
  obtain ⟨-, todo, htodo⟩ := Txn.awaits_eq_some.mp hr
  rcases h.progress t x hx with hp | ⟨-, hp⟩
  · have hox := ho x.call
    rw [← hp, htodo, orderly_append] at hox
    exact hox.2.1
  · rw [htodo] at hp
    cases hp

end

/-! ### Runs in which no exempt request has to wait -/

/-- A transaction that asks for a lock with an exempt request gets it. -/
def Prompt (exempt : κ → Lock ρ → Prop) (s : State κ ρ) (l : Label κ) : Prop :=
  ∀ (t : Nat) (x : Txn κ ρ) r, l = .asks t → s[t]? = some x → x.todo.head? = some r → exempt x.call r →
    blocked s t r = false

/-- Nobody waits with an exempt request. -/
def Unheld (exempt : κ → Lock ρ → Prop) (s : State κ ρ) : Prop :=
  ∀ (t : Nat) (x : Txn κ ρ) r, s[t]? = some x → x.awaits = some r → ¬ exempt x.call r

omit [DecidableEq ρ] in
theorem Unheld.set {exempt : κ → Lock ρ → Prop} (h : Unheld exempt s) {t : Nat} {x : Txn κ ρ}
    (hx : ∀ r, x.awaits = some r → ¬ exempt x.call r) : Unheld exempt (s.set t x) := by
  intro u y r hu hr
  rw [List.getElem?_set] at hu
  split at hu
  · split at hu
    · obtain rfl := Option.some.inj hu
      exact hx r hr
    · cases hu
  · exact h u y r hu hr

/-- Nobody comes to wait with an exempt request that is granted when it is made. -/
theorem Unheld.step {exempt : κ → Lock ρ → Prop} (h : Unheld exempt s) {l : Label κ}
    (hp : Prompt exempt s l) (hs : Deadlock.step locks s l = some s') : Unheld exempt s' := by
  obtain ⟨call, rfl, rfl⟩ | ⟨t, x, r, todo, rfl, hx, htodo, hb, rfl⟩ |
    ⟨t, x, r, todo, rfl, hx, htodo, -, rfl⟩ | ⟨t, x, rfl, hx, rfl⟩ := step_cases hs
  · intro t x r hx hr
    rw [List.getElem?_append] at hx
    split at hx
    · exact h t x r hx hr
    · obtain rfl := List.mem_singleton.mp (List.mem_of_getElem? hx)
      cases hr
  · refine h.set fun r' hr' hex => ?_
    obtain ⟨-, todo', htodo'⟩ := Txn.awaits_eq_some.mp hr'
    have := hp t x r' rfl hx (by rw [show x.todo = r' :: todo' from htodo']; rfl) hex
    obtain rfl : r' = r := by
      rw [show x.todo = r' :: todo' from htodo'] at htodo
      exact (List.cons.inj htodo).1
    rw [hb] at this
    cases this
  · refine h.set fun r' hr' => ?_
    simp [Txn.acquire, htodo, Txn.awaits] at hr'
  · exact h.set fun r' hr' => by simp [Txn.finish, Txn.awaits] at hr'

/-- **No deadlock** in a run in which every exempt request is granted when it is made. -/
theorem acyclic_run {α : Type*} [Preorder α] {guard : ρ → Option ρ} (rank : ρ → α)
    {exempt : κ → Lock ρ → Prop} (hg : ∀ k, Guarded guard [] (locks k))
    (ho : ∀ k, Orderly guard rank (exempt k) [] (locks k)) {is : List (Label κ)}
    (hp : (system locks).Along (Prompt exempt) [] is) :
    ¬ Deadlocked ((system locks).run [] is) := by
  have hinv := inv_run locks is
  have hunheld : Unheld exempt ((system locks).run [] is) :=
    hp.invariant (P := Unheld exempt) (fun _ _ _ h hp hs => h.step hp hs) (by simp [Unheld])
  refine hinv.acyclic rank hg fun u x r hx hr => ?_
  exact (hinv.awaits_safe ho hx hr).resolve_right (hunheld u x r hx hr)

end Deadlock

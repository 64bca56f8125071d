import KzHome.Lib.Outline
import KzHome.Lib.Sql
import Mathlib.Data.List.Induction

/-!
# KzHome.Lib.SqlRules

Proof outlines of transactions.

A `Protocol` says under which circumstances a session may commit its writes and make
its notes, and what is true of the database and of the ghosts between any two
statements. From a protocol whose `commits` and `notes` keep its invariant
(`Protocol.Keeps`) comes a contract for `Session.Outline`, and one rule for each
statement. What a session knows is an assertion that the commits of the others do not
falsify; mostly it knows something of the database because it holds the lock of a row
that nobody else may write without it (`stable_of_commit`).
-/

namespace Sql

open Session

variable {Db Row Write φ ν π ε κ α : Type} [DecidableEq Row]

/-- The rules that the sessions of a database keep to. -/
structure Protocol (Db Row Write ν π : Type) where
  inv : Store Db Row ν π → Prop
  /-- When session `s` of owner `p` may commit the writes with the note. -/
  commits : Nat → π → Store Db Row ν π → List Write → Option ν → Prop
  /-- When it may make a note. -/
  notes : Nat → π → Store Db Row ν π → ν → Prop

namespace Protocol

variable (P : Protocol Db Row Write ν π) (S : Schema Db Row Write φ) (allowed : Db → Db → Bool)

/-- The invariant does not depend on the locks, and survives what the rules admit. -/
structure Keeps : Prop where
  locks : ∀ a l, P.inv a → P.inv { a with locks := l }
  clock : ∀ a t, P.inv a → a.clock ≤ t → P.inv { a with clock := t }
  reading : ∀ a, P.inv a → P.inv { a with readings := a.clock :: a.readings }
  noted : ∀ a s p n, P.inv a → P.notes s p a n → P.inv (a.record s p (some n))
  committed : ∀ a s p w n db, P.inv a → P.commits s p a w n →
    RowLocks.available a.locks s (w.flatMap (S.targets a.db)) = true → S.apply a.db w = .ok db →
    P.inv { a.record s p n with db }
  changed : ∀ a db, P.inv a → allowed a.db db = true → P.inv { a with db }

/-- What one statement of session `s` does. -/
inductive Does (s : Nat) (p : π) : Store Db Row ν π → Store Db Row ν π → Prop
  | none (a) : Does s p a a
  | noted (a n) (h : P.notes s p a n) : Does s p a (a.record s p (some n))
  | locked (a row) (h : RowLocks.available a.locks s [row] = true) : Does s p a (a.take S s row)
  | committed (a w n db) (h : P.commits s p a w n)
      (hfree : RowLocks.available a.locks s (w.flatMap (S.targets a.db)) = true)
      (hdb : S.apply a.db w = .ok db) : Does s p a (a.commit s p n db)
  | released (a) : Does s p a (a.release (· = s))
  | reading (a) : Does s p a { a with readings := a.clock :: a.readings }

/-- What session `s` sees of the others: their statements, their ends, and what happens
outside. -/
inductive Sees (s : Nat) : Store Db Row ν π → Store Db Row ν π → Prop
  | other {a b} (t q) (hne : t ≠ s) (h : Does P S t q a b) : Sees s a b
  | ends (a ended) (h : ended s = false) : Sees s a (a.release ended)
  | clock (a t) (h : a.clock ≤ t) : Sees s a { a with clock := t }
  | changed (a db) (h : allowed a.db db = true) : Sees s a { a with db }

/-- The contract of the sessions. -/
def contract : Contract (Store Db Row ν π) π where
  inv := P.inv
  does s p := Does P S s p
  relies s _ := Sees P S allowed s

variable {P S allowed} {s : Nat} {p : π}

/-! ### Knowledge -/

/-- **A stable assertion** survives the commits and the end of other sessions, and does not
depend on anything else they do. -/
theorem stable_of {A : Store Db Row ν π → Prop}
    (hlocks : ∀ a l, (∀ row, a.locks row = some s → l row = some s) → A a →
      A { a with locks := l })
    (hclock : ∀ a t, a.clock ≤ t → A a → A { a with clock := t })
    (hreading : ∀ a, A a → A { a with readings := a.clock :: a.readings })
    (hnoted : ∀ a t q n, A a → A (a.record t q (some n)))
    (hcommitted : ∀ a t q w n db, t ≠ s → P.inv a → P.commits t q a w n →
      RowLocks.available a.locks t (w.flatMap (S.targets a.db)) = true → S.apply a.db w = .ok db →
      A a → A { a.record t q n with db })
    (hchanged : ∀ a db, P.inv a → allowed a.db db = true → A a → A { a with db }) :
    (contract P S allowed).Stable s p A := by
  intro a b ha hb hA hr
  have hrelease : ∀ (c : Store Db Row ν π) ended, ended s = false → A c → A (c.release ended) :=
    fun c ended he hc => hlocks c _ (fun row hrow => RowLocks.release_other hrow he) hc
  cases hr with
  | ends ended h => exact hrelease a ended h hA
  | clock t h => exact hclock a t h hA
  | changed db h => exact hchanged a db ha h hA
  | other t q hne hd =>
      cases hd with
      | none => exact hA
      | noted n h => exact hnoted a t q n hA
      | locked row h =>
          unfold Store.take
          split
          · exact hlocks a _ (fun row' hrow => RowLocks.take_other h hrow hne.symm) hA
          · exact hA
      | committed w n db h hfree hdb =>
          exact hrelease { a.record t q n with db } _ (by simpa using hne.symm)
            (hcommitted a t q w n db hne ha h hfree hdb hA)
      | released => exact hrelease a _ (by simpa using hne.symm) hA
      | reading => exact hreading a hA

/-- Knowing something of the database because one holds rows that others would need to
falsify it. -/
def Knows (s : Nat) (held : Row → Prop) (K : Db → Prop) (st : Store Db Row ν π) : Prop :=
  (∀ row, held row → st.locks row = some s) ∧ K st.db

theorem stable_knows {held : Row → Prop} {K : Db → Prop}
    (hcommitted : ∀ (a : Store Db Row ν π) t q w n db, t ≠ s → P.inv a → P.commits t q a w n →
      RowLocks.available a.locks t (w.flatMap (S.targets a.db)) = true → S.apply a.db w = .ok db →
      (∀ row, held row → a.locks row = some s) → K a.db → K db)
    (hchanged : ∀ (a : Store Db Row ν π) db, P.inv a → allowed a.db db = true → K a.db → K db) :
    (contract P S allowed).Stable s p (Knows s held K) := by
  refine stable_of ?_ ?_ ?_ ?_ ?_ ?_
  · exact fun a l hl h => ⟨fun row hrow => hl row (h.1 row hrow), h.2⟩
  · exact fun a t _ h => h
  · exact fun a h => h
  · exact fun a t q n h => h
  · intro a t q w n db hne hi hc hav hdb h
    refine ⟨fun row hrow => ?_, hcommitted a t q w n db hne hi hc hav hdb h.1 h.2⟩
    cases n <;> exact h.1 row hrow
  · exact fun a db hi hal h => ⟨h.1, hchanged a db hi hal h.2⟩

/-- Taking another row keeps what is known. -/
theorem Knows.take {held : Row → Prop} {K : Db → Prop} {st : Store Db Row ν π}
    (h : Knows s held K st) (S : Schema Db Row Write φ) (row : Row) :
    Knows s held K (st.take S s row) := by
  unfold Store.take
  split
  · exact ⟨fun row' hrow => RowLocks.take_self (h.1 row' hrow), h.2⟩
  · exact h

/-- What nobody falsifies. -/
theorem stable_db {K : Db → Prop}
    (hcommitted : ∀ (a : Store Db Row ν π) t q w n db, P.inv a → P.commits t q a w n →
      S.apply a.db w = .ok db → K a.db → K db)
    (hchanged : ∀ (a : Store Db Row ν π) db, P.inv a → allowed a.db db = true → K a.db → K db) :
    (contract P S allowed).Stable s p (fun st => K st.db) := by
  intro a b ha hb hK hr
  have h : (contract P S allowed).Stable s p (Knows s (fun _ => False) K) := stable_knows
    (fun a t q w n db _ hi hc _ hdb _ => hcommitted a t q w n db hi hc hdb) hchanged
  exact (h a b ha hb ⟨fun _ h => h.elim, hK⟩ hr).2

/-- The lock that `SELECT … FOR UPDATE` leaves behind: the row is held, or is not there. -/
def Locked (S : Schema Db Row Write φ) (s : Nat) (row : Row) (st : Store Db Row ν π) : Prop :=
  S.has st.db row = true → st.locks row = some s

@[simp] theorem take_db (st : Store Db Row ν π) (row : Row) : (st.take S s row).db = st.db := by
  unfold Store.take
  split <;> rfl

theorem locked_take (st : Store Db Row ν π) (row : Row) : Locked S s row (st.take S s row) := by
  intro h
  rw [take_db] at h
  rw [Store.take, if_pos h]
  exact RowLocks.take_of_mem (List.mem_singleton.mpr rfl)

theorem Locked.take {row : Row} {st : Store Db Row ν π} (h : Locked S s row st) (row' : Row) :
    Locked S s row (st.take S s row') := by
  intro hrow
  rw [take_db] at hrow
  unfold Store.take
  split
  · exact RowLocks.take_self (h hrow)
  · exact h hrow

theorem stable_locked {row : Row}
    (hcommitted : ∀ (a : Store Db Row ν π) t q w n db, P.inv a → P.commits t q a w n →
      S.apply a.db w = .ok db → S.has db row = true → S.has a.db row = true)
    (hchanged : ∀ (a : Store Db Row ν π) db, P.inv a → allowed a.db db = true →
      S.has db row = true → S.has a.db row = true) :
    (contract P S allowed).Stable s p (Locked S s row) := by
  refine stable_of ?_ ?_ ?_ ?_ ?_ ?_
  · exact fun a l hl h hrow => hl row (h hrow)
  · exact fun a t _ h => h
  · exact fun a h => h
  · exact fun a t q n h => h
  · intro a t q w n db hne hi hc _ hdb h hrow
    have := h (hcommitted a t q w n db hi hc hdb hrow)
    cases n <;> exact this
  · exact fun a db hi hal h hrow => h (hchanged a db hi hal hrow)

/-- A note that was made. -/
theorem stable_traced {e : Entry Db ν π} :
    (contract P S allowed).Stable s p (fun st => e ∈ st.trace) := by
  refine stable_of ?_ ?_ ?_ ?_ ?_ ?_
  · exact fun a l _ h => h
  · exact fun a t _ h => h
  · exact fun a h => h
  · exact fun a t q n h => List.mem_cons_of_mem _ h
  · intro a t q w n db _ _ _ _ _ h
    cases n with
    | none => exact h
    | some n => exact List.mem_cons_of_mem _ h
  · exact fun a db _ _ h => h

/-- A reading of the clock. -/
theorem stable_reading {t : Int} :
    (contract P S allowed).Stable s p (fun st => t ∈ st.readings ∧ t ≤ st.clock) := by
  refine stable_of ?_ ?_ ?_ ?_ ?_ ?_
  · exact fun a l _ h => h
  · exact fun a u hu h => ⟨h.1, Int.le_trans h.2 hu⟩
  · exact fun a h => ⟨List.mem_cons_of_mem _ h.1, h.2⟩
  · exact fun a u q n h => h
  · intro a u q w n db _ _ _ _ _ h
    cases n <;> exact h
  · exact fun a db _ _ h => h

/-! ### Rules -/

section

variable {A : Store Db Row ν π → Prop} {Q : Except ε α → Store Db Row ν π → Prop}

/-- `SELECT` -/
theorem outline_read {note : Option ν} {f : Db → Query Db Row Write φ ν ε α}
    {R : Db → Store Db Row ν π → Prop} (hR : ∀ db, (contract P S allowed).Stable s p (R db))
    (hnote : ∀ st n, P.inv st → A st → note = some n → P.notes s p st n)
    (h : ∀ st, P.inv st → A st → R st.db (st.record s p note))
    (hf : ∀ db, (contract P S allowed).Outline (machine S allowed) s p (f db) (R db) Q) :
    (contract P S allowed).Outline (machine S allowed) s p (Sql.read note >>= f) A Q := by
  refine Contract.Outline.ask hR ?_ hf
  intro st input ans st' hi hA hh
  obtain ⟨rfl, rfl⟩ := Prod.mk.inj (Option.some.inj hh)
  refine ⟨?_, h st hi hA⟩
  cases hn : note with
  | none => exact .none st
  | some n => exact .noted st n (hnote st n hi hA hn)

/-- A `SELECT` of which nothing has to be remembered. -/
theorem outline_peek {f : Db → Query Db Row Write φ ν ε α} (hA : (contract P S allowed).Stable s p A)
    (hf : ∀ db, (contract P S allowed).Outline (machine S allowed) s p (f db) A Q) :
    (contract P S allowed).Outline (machine S allowed) s p (Sql.read none >>= f) A Q :=
  outline_read (fun _ => hA) (fun _ _ _ _ h => by cases h) (fun _ _ h => h) hf

/-- `SELECT … FOR UPDATE` -/
theorem outline_lock {row : Row} {f : Db → Query Db Row Write φ ν ε α}
    {R : Db → Store Db Row ν π → Prop} (hR : ∀ db, (contract P S allowed).Stable s p (R db))
    (h : ∀ st, P.inv st → A st → R st.db (st.take S s row))
    (hf : ∀ db, (contract P S allowed).Outline (machine S allowed) s p (f db) (R db) Q) :
    (contract P S allowed).Outline (machine S allowed) s p (Sql.lock row >>= f) A Q := by
  refine Contract.Outline.ask hR ?_ hf
  intro st input ans st' hi hA hh
  simp only [machine, handle] at hh
  split at hh
  · rename_i hav
    obtain ⟨rfl, rfl⟩ := Prod.mk.inj (Option.some.inj hh)
    exact ⟨.locked st row hav, h st hi hA⟩
  · cases hh

/-- A lock of which nothing has to be remembered. -/
theorem outline_grab {row : Row} {f : Db → Query Db Row Write φ ν ε α}
    (hA : (contract P S allowed).Stable s p A) (htake : ∀ st, A st → A (st.take S s row))
    (hf : ∀ db, (contract P S allowed).Outline (machine S allowed) s p (f db) A Q) :
    (contract P S allowed).Outline (machine S allowed) s p (Sql.lock row >>= f) A Q :=
  outline_lock (fun _ => hA) (fun st _ h => htake st h) hf

/-- `COMMIT`; a transaction that fails at it is over as well, and its writes could not be
applied. -/
theorem outline_commit_cases {writes : List Write} {note : Option ν}
    {f : Except φ Unit → Query Db Row Write φ ν ε α} {R : Except φ Unit → Store Db Row ν π → Prop}
    (hR : ∀ r, (contract P S allowed).Stable s p (R r))
    (hcommit : ∀ st, P.inv st → A st → P.commits s p st writes note)
    (hok : ∀ st db, P.inv st → A st → S.apply st.db writes = .ok db →
      R (.ok ()) (st.commit s p note db))
    (herror : ∀ st e, P.inv st → A st → S.apply st.db writes = .error e →
      R (.error e) (st.release (· = s)))
    (hf : ∀ r, (contract P S allowed).Outline (machine S allowed) s p (f r) (R r) Q) :
    (contract P S allowed).Outline (machine S allowed) s p (Sql.commit writes note >>= f) A Q := by
  refine Contract.Outline.ask hR ?_ hf
  intro st input ans st' hi hA hh
  simp only [machine, handle] at hh
  split at hh
  · rename_i hav
    split at hh
    · rename_i db hdb
      obtain ⟨rfl, rfl⟩ := Prod.mk.inj (Option.some.inj hh)
      exact ⟨.committed st writes note db (hcommit st hi hA) hav hdb, hok st db hi hA hdb⟩
    · rename_i e he
      obtain ⟨rfl, rfl⟩ := Prod.mk.inj (Option.some.inj hh)
      exact ⟨.released st, herror st e hi hA he⟩
  · cases hh

/-- `COMMIT` -/
theorem outline_commit {writes : List Write} {note : Option ν}
    {f : Except φ Unit → Query Db Row Write φ ν ε α} {R : Except φ Unit → Store Db Row ν π → Prop}
    (hR : ∀ r, (contract P S allowed).Stable s p (R r))
    (hcommit : ∀ st, P.inv st → A st → P.commits s p st writes note)
    (hok : ∀ st db, P.inv st → A st → S.apply st.db writes = .ok db →
      R (.ok ()) (st.commit s p note db))
    (herror : ∀ st e, P.inv st → A st → R (.error e) (st.release (· = s)))
    (hf : ∀ r, (contract P S allowed).Outline (machine S allowed) s p (f r) (R r) Q) :
    (contract P S allowed).Outline (machine S allowed) s p (Sql.commit writes note >>= f) A Q :=
  outline_commit_cases hR hcommit hok (fun st e hi hA _ => herror st e hi hA) hf

/-- `ROLLBACK` -/
theorem outline_rollback {f : Unit → Query Db Row Write φ ν ε α} {R : Store Db Row ν π → Prop}
    (hR : (contract P S allowed).Stable s p R)
    (h : ∀ st, P.inv st → A st → R (st.release (· = s)))
    (hf : (contract P S allowed).Outline (machine S allowed) s p (f ()) R Q) :
    (contract P S allowed).Outline (machine S allowed) s p (Sql.rollback >>= f) A Q := by
  refine Contract.Outline.ask (R := fun _ => R) (fun _ => hR) ?_ fun _ => hf
  intro st input ans st' hi hA hh
  obtain ⟨rfl, rfl⟩ := Prod.mk.inj (Option.some.inj hh)
  exact ⟨.released st, h st hi hA⟩

/-- The clock of the database. -/
theorem outline_now {f : Int → Query Db Row Write φ ν ε α} {R : Int → Store Db Row ν π → Prop}
    (hR : ∀ t, (contract P S allowed).Stable s p (R t))
    (h : ∀ st, P.inv st → A st → R st.clock { st with readings := st.clock :: st.readings })
    (hf : ∀ t, (contract P S allowed).Outline (machine S allowed) s p (f t) (R t) Q) :
    (contract P S allowed).Outline (machine S allowed) s p (Sql.now >>= f) A Q := by
  refine Contract.Outline.ask hR ?_ hf
  intro st input ans st' hi hA hh
  obtain ⟨rfl, rfl⟩ := Prod.mk.inj (Option.some.inj hh)
  exact ⟨.reading st, h st hi hA⟩

/-- A drawn value: nothing is known of it. -/
theorem outline_input {f : String → Query Db Row Write φ ν ε α}
    (hA : (contract P S allowed).Stable s p A)
    (hf : ∀ x, (contract P S allowed).Outline (machine S allowed) s p (f x) A Q) :
    (contract P S allowed).Outline (machine S allowed) s p (Sql.input >>= f) A Q := by
  refine Contract.Outline.ask (R := fun _ => A) (fun _ => hA) ?_ hf
  intro st input ans st' hi h hh
  obtain ⟨rfl, rfl⟩ := Prod.mk.inj (Option.some.inj hh)
  exact ⟨.none st, h⟩

/-- A pure check. -/
theorem outline_try {β : Type} {x : Except ε β} {f : β → Query Db Row Write φ ν ε α}
    (herror : ∀ e st, x = .error e → P.inv st → A st → Q (.error e) st)
    (hf : ∀ b, x = .ok b → (contract P S allowed).Outline (machine S allowed) s p (f b) A Q) :
    (contract P S allowed).Outline (machine S allowed) s p (Prog.lift x >>= f) A Q := by
  cases x with
  | error e => exact fun st hi hA => herror e st rfl hi hA
  | ok b => exact hf b rfl

/-- A pure check: its error ends the program. -/
theorem outline_lift {β : Type} {x : Except ε β} {f : β → Query Db Row Write φ ν ε α}
    {T : α → Store Db Row ν π → Prop}
    (hf : ∀ b, x = .ok b → (contract P S allowed).Outline (machine S allowed) s p (f b) A
      (Contract.returns T)) :
    (contract P S allowed).Outline (machine S allowed) s p (Prog.lift x >>= f) A
      (Contract.returns T) :=
  outline_try (fun _ _ _ _ _ => trivial) hf

/-- A pure check at the end of a program. -/
theorem outline_end {x : Except ε α} (h : ∀ st, P.inv st → A st → Q x st) :
    (contract P S allowed).Outline (machine S allowed) s p (Prog.lift x) A Q := by
  cases x with
  | error e => exact h
  | ok a => exact h

/-- A check at the end of a program that leaves everything as it is. -/
theorem outline_check {x : Except ε α} :
    (contract P S allowed).Outline (machine S allowed) s p (Prog.lift x) A
      (Contract.returns fun _ => A) := by
  cases x with
  | error e => exact fun _ _ _ => trivial
  | ok a => exact fun _ _ h => h

/-- A check at the end of a program. -/
theorem outline_last {x : Except ε α} :
    (contract P S allowed).Outline (machine S allowed) s p (Prog.lift x) A
      (Contract.returns fun _ _ => True) := by
  cases x <;> exact fun _ _ _ => trivial

/-- Several rows, one after the other. -/
theorem outline_lockAll {rows : List Row} {f : Unit → Query Db Row Write φ ν ε α}
    (hlocked : ∀ row ∈ rows, (contract P S allowed).Stable s p (Locked S s row))
    (hA : (contract P S allowed).Stable s p A) (htake : ∀ st row, A st → A (st.take S s row))
    (hf : (contract P S allowed).Outline (machine S allowed) s p (f ())
      (fun st => A st ∧ ∀ row ∈ rows, Locked S s row st) Q) :
    (contract P S allowed).Outline (machine S allowed) s p (Sql.lockAll rows >>= f) A Q := by
  induction rows generalizing A with
  | nil => exact hf.pre fun st _ h => ⟨h, by simp⟩
  | cons row rows ih =>
      refine outline_lock (R := fun _ st => A st ∧ Locked S s row st)
        (fun _ => hA.and (hlocked row List.mem_cons_self))
        (fun st _ h => ⟨htake st row h, locked_take st row⟩) ?_
      intro _
      refine ih (fun r hr => hlocked r (List.mem_cons_of_mem _ hr))
        (hA.and (hlocked row List.mem_cons_self)) (fun st r h => ⟨htake st r h.1, h.2.take r⟩) ?_
      refine hf.pre fun st _ h => ⟨h.1.1, fun r hr => ?_⟩
      rcases List.mem_cons.mp hr with rfl | hr
      · exact h.1.2
      · exact h.2 r hr

end

/-! ### Runs -/

section

variable {program : Nat → π → κ → Query Db Row Write φ ν ε Unit}

/-- A statement keeps the invariant. -/
theorem Keeps.does (hK : P.Keeps S allowed) {a b : Store Db Row ν π} (hi : P.inv a)
    (h : Does P S s p a b) : P.inv b := by
  cases h with
  | none => exact hi
  | noted n h => exact hK.noted a s p n hi h
  | locked row h =>
      unfold Store.take
      split
      · exact hK.locks a _ hi
      · exact hi
  | committed w n db h hfree hdb => exact hK.locks _ _ (hK.committed a s p w n db hi h hfree hdb)
  | released => exact hK.locks a _ hi
  | reading => exact hK.reading a hi

/-- What happens outside keeps the invariant. -/
theorem Keeps.act (hK : P.Keeps S allowed) {a b : Store Db Row ν π} {x : Outside Db}
    (hi : P.inv a) (h : Sql.act allowed a x = some b) :
    P.inv b ∧ ∀ t, Sees P S allowed t a b := by
  cases x with
  | clock u =>
      simp only [Sql.act] at h
      split at h
      · rename_i hu
        obtain rfl := Option.some.inj h
        exact ⟨hK.clock a u hi hu, fun t => .clock a u hu⟩
      · cases h
  | change db =>
      simp only [Sql.act] at h
      split at h
      · rename_i hal
        obtain rfl := Option.some.inj h
        exact ⟨hK.changed a db hi hal, fun t => .changed a db hal⟩
      · cases h

/-- Programs with an outline meet the contract. -/
theorem Keeps.obligations (hK : P.Keeps S allowed)
    (hprog : ∀ s p call, (contract P S allowed).Outline (machine S allowed) s p
      (program s p call) (fun _ => True) (fun _ _ => True)) :
    Obligations (contract P S allowed) (machine S allowed) program where
  does_inv hi h := hK.does hi h
  does_relies _ h hne := .other _ _ hne.symm h
  act_inv hi h := (hK.act hi h).1
  act_relies hi h _ := (hK.act hi h).2 _
  close_inv hi := hK.locks _ _ hi
  close_relies _ h := .ends _ _ h
  programs s p call := ⟨fun _ => True, Contract.Stable.const True, fun _ _ _ => trivial,
    hprog s p call⟩

/-- **The invariant of a protocol** holds in every state that is reached. -/
theorem run_inv (hK : P.Keeps S allowed)
    (hprog : ∀ s p call, (contract P S allowed).Outline (machine S allowed) s p
      (program s p call) (fun _ => True) (fun _ _ => True))
    {a : Store Db Row ν π} (hi : P.inv a) (labels : List (Label π κ String (Outside Db))) :
    P.inv ((system (machine S allowed) program).run (State.init a) labels).shared :=
  ((Sound.init hi).run (hK.obligations hprog) labels).inv

/-- How an entry of the trace was made, by a statement that turned `a` into `b`: as a note, or
with a commit. -/
def Made (P : Protocol Db Row Write ν π) (S : Schema Db Row Write φ) (e : Entry Db ν π)
    (a b : Store Db Row ν π) : Prop :=
  e.db = a.db ∧
    ((P.notes e.session e.owner a e.note ∧ b.db = a.db) ∨
      ∃ w, P.commits e.session e.owner a w (some e.note) ∧ S.apply a.db w = .ok b.db)

/-- A statement makes at most one entry. -/
theorem Does.trace {a b : Store Db Row ν π} (h : Does P S s p a b) {e : Entry Db ν π}
    (he : e ∈ b.trace) : e ∈ a.trace ∨ Made P S e a b := by
  cases h with
  | none => exact Or.inl he
  | noted n h =>
      rcases List.mem_cons.mp he with rfl | he
      · exact Or.inr ⟨rfl, Or.inl ⟨h, rfl⟩⟩
      · exact Or.inl he
  | locked row h =>
      unfold Store.take at he
      split at he <;> exact Or.inl he
  | committed w n db h hfree hdb =>
      cases n with
      | none => exact Or.inl he
      | some n =>
          rcases List.mem_cons.mp he with rfl | he
          · exact Or.inr ⟨rfl, Or.inr ⟨w, h, hdb⟩⟩
          · exact Or.inl he
  | released => exact Or.inl he
  | reading => exact Or.inl he

/-- No statement takes an entry away. -/
theorem Does.trace_mono {a b : Store Db Row ν π} (h : Does P S s p a b) {e : Entry Db ν π}
    (he : e ∈ a.trace) : e ∈ b.trace := by
  cases h with
  | none => exact he
  | noted n h => exact List.mem_cons_of_mem _ he
  | locked row h =>
      unfold Store.take
      split <;> exact he
  | committed w n db h hfree hdb =>
      cases n with
      | none => exact he
      | some n => exact List.mem_cons_of_mem _ he
  | released => exact he
  | reading => exact he

omit [DecidableEq Row] in
theorem act_trace {a b : Store Db Row ν π} {x : Outside Db} (h : Sql.act allowed a x = some b) :
    b.trace = a.trace := by
  cases x with
  | clock u =>
      simp only [Sql.act] at h
      split at h
      · obtain rfl := Option.some.inj h
        rfl
      · cases h
  | change db =>
      simp only [Sql.act] at h
      split at h
      · obtain rfl := Option.some.inj h
        rfl
      · cases h

/-- Entries stay in the trace. -/
theorem run_trace_mono (hK : P.Keeps S allowed)
    (hprog : ∀ s p call, (contract P S allowed).Outline (machine S allowed) s p
      (program s p call) (fun _ => True) (fun _ _ => True))
    {a : Store Db Row ν π} (hi : P.inv a) (labels more : List (Label π κ String (Outside Db)))
    {e : Entry Db ν π}
    (he : e ∈ ((system (machine S allowed) program).run (State.init a) labels).shared.trace) :
    e ∈ ((system (machine S allowed) program).run (State.init a) (labels ++ more)).shared.trace := by
  have hO := hK.obligations hprog
  rw [Transition.System.run_append]
  refine (system (machine S allowed) program).related
    (P := Sound (contract P S allowed) (machine S allowed))
    (R := fun x y => e ∈ x.shared.trace → e ∈ y.shared.trace)
    (fun _ h => h) (fun _ _ _ hab hbc h => hbc (hab h)) (fun _ _ _ h hst => h.step hO hst) ?_
    ((Sound.init hi).run hO labels) more he
  intro x l y hx hstep he
  rcases shared_cases hx hstep with h | ⟨s, p, input, m, -, -, hd⟩ | ⟨ended, h⟩ | ⟨o, c, -, ho, h⟩
  · rw [h]; exact he
  · exact hd.trace_mono he
  · rw [h]; exact he
  · rw [h]
    exact (act_trace ho).symm ▸ he

/-- **Every entry of the trace has its moment** in the run. -/
theorem run_entry (hK : P.Keeps S allowed)
    (hprog : ∀ s p call, (contract P S allowed).Outline (machine S allowed) s p
      (program s p call) (fun _ => True) (fun _ _ => True))
    {a : Store Db Row ν π} (hi : P.inv a) (h0 : a.trace = [])
    (labels : List (Label π κ String (Outside Db))) {e : Entry Db ν π}
    (he : e ∈ ((system (machine S allowed) program).run (State.init a) labels).shared.trace) :
    ∃ pre l post, labels = pre ++ l :: post ∧
      P.inv ((system (machine S allowed) program).run (State.init a) pre).shared ∧
      Made P S e ((system (machine S allowed) program).run (State.init a) pre).shared
        ((system (machine S allowed) program).run (State.init a) (pre ++ [l])).shared := by
  have hO := hK.obligations hprog
  induction labels using List.reverseRecOn with
  | nil =>
      rw [Transition.System.run_nil] at he
      simp [State.init, h0] at he
  | append_singleton pre l ih =>
      have hs := (Sound.init hi).run hO pre
      by_cases hpre : e ∈ ((system (machine S allowed) program).run (State.init a) pre).shared.trace
      · obtain ⟨pre', l', post, rfl, h⟩ := ih hpre
        exact ⟨pre', l', post ++ [l], by simp, h⟩
      · refine ⟨pre, l, [], rfl, hs.inv, ?_⟩
        rw [Transition.System.run_snoc] at he ⊢
        rcases Transition.System.next_cases (system (machine S allowed) program)
          ((system (machine S allowed) program).run (State.init a) pre) l with h | h
        · rw [h] at he
          exact absurd he hpre
        · rcases shared_cases hs h with hc | ⟨s, p, input, m, -, -, hd⟩ | ⟨ended, hc⟩ |
            ⟨x, c, -, hx, hc⟩
          · rw [hc] at he
            exact absurd he hpre
          · exact (hd.trace he).resolve_left hpre
          · rw [hc] at he
            exact absurd he hpre
          · rw [hc] at he
            exact absurd ((act_trace hx) ▸ he) hpre

/-- What one step makes of the database and of the trace: nothing, a note, a commit, or a
change from outside. -/
inductive Turns (P : Protocol Db Row Write ν π) (S : Schema Db Row Write φ)
    (allowed : Db → Db → Bool) (a b : Store Db Row ν π) : Prop
  | quiet (hdb : b.db = a.db) (htrace : b.trace = a.trace)
  | noted (s : Nat) (p : π) (n : ν) (h : P.notes s p a n) (hdb : b.db = a.db)
      (htrace : b.trace = ⟨s, p, a.db, n⟩ :: a.trace)
  | committed (s : Nat) (p : π) (w : List Write) (n : Option ν) (h : P.commits s p a w n)
      (hdb : S.apply a.db w = .ok b.db) (htrace : b.trace = (a.record s p n).trace)
  | changed (h : allowed a.db b.db = true) (htrace : b.trace = a.trace)

theorem Does.turns {a b : Store Db Row ν π} (h : Does P S s p a b) : Turns P S allowed a b := by
  cases h with
  | none => exact .quiet rfl rfl
  | noted n h => exact .noted s p n h rfl rfl
  | locked row h =>
      refine .quiet (take_db a row) ?_
      unfold Store.take
      split <;> rfl
  | committed w n db h hfree hdb => exact .committed s p w n h hdb rfl
  | released => exact .quiet rfl rfl
  | reading => exact .quiet rfl rfl

/-- **Every step of a run** turns the store as the protocol admits. -/
theorem next_turns {st : State (interface Db Row Write φ ν) (Store Db Row ν π) π ε}
    (hs : Sound (contract P S allowed) (machine S allowed) st)
    (l : Label π κ String (Outside Db)) :
    Turns P S allowed st.shared ((system (machine S allowed) program).next st l).shared := by
  rcases Transition.System.next_cases (system (machine S allowed) program) st l with h | h
  · rw [h]
    exact .quiet rfl rfl
  · rcases shared_cases hs h with hc | ⟨s, p, input, m, -, -, hd⟩ | ⟨ended, hc⟩ |
      ⟨x, c, -, hx, hc⟩
    · rw [hc]
      exact .quiet rfl rfl
    · exact Does.turns hd
    · rw [hc]
      exact .quiet rfl rfl
    · rw [hc]
      cases x with
      | clock t =>
          simp only [machine, Sql.act] at hx
          split at hx
          · obtain rfl := Option.some.inj hx
            exact .quiet rfl rfl
          · cases hx
      | change db =>
          simp only [machine, Sql.act] at hx
          split at hx
          · rename_i hal
            obtain rfl := Option.some.inj hx
            exact .changed hal rfl
          · cases hx

end

end Protocol

end Sql

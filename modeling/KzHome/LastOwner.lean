import KzHome.Members
import Mathlib

/-!
# KzHome.LastOwner

When a house keeps an owner.

A membership that was loaded as an owner's is written only while the session holds the
row of another owner, so an owner is left. A membership that was loaded as somebody
else's is written whatever has become of it: the house keeps an owner in a run if and
only if no such write meets the house's only owner (`Orphans`).
-/

namespace KzHome

open Session Sql

/-- The statement of a noted write. -/
def Replaced.statement (r : Replaced) : Statement :=
  match r.replacement with
  | some role => .setRole r.id role
  | none => .deleteMembership r.id

namespace Tables

/-- An identifier that is, or was, that of a membership in the house. -/
def MemberOf (t : Tables) (house id : String) : Prop :=
  id ∈ t.issued ∧ ∀ row, t.memberships.get? id = some row → row.houseId = house

variable {t t' : Tables} {house id : String}

theorem isOwner_iff :
    t.isOwner house id = true ↔
      ∃ row, t.memberships.get? id = some row ∧ row.houseId = house ∧ row.role = .owner := by
  simp [isOwner, Option.any_eq_true]

theorem owners_nodup (t : Tables) (house : String) : (t.owners house).Nodup :=
  t.memberships.nodup.sublist (List.filter_sublist.map Prod.fst)

/-- A new membership takes nothing away. -/
theorem insertMembership_ok {row : MembershipRow}
    (h : t.write (.insertMembership id row) = .ok t') :
    id ∉ t.issued ∧ t' = { t with
      memberships := t.memberships.set id row
      issued := id :: t.issued } := by
  simp only [write] at h
  split at h
  · cases h
  · rename_i hid
    split at h
    · exact ⟨hid, (Except.ok.inj h).symm⟩
    · cases h

theorem setRole_ok {role : Role} (h : t.write (.setRole id role) = .ok t') :
    (t.memberships.get? id).isSome ∧
      t' = { t with memberships := t.memberships.modify id fun row => { row with role } } := by
  simp only [write] at h
  split at h
  · cases h
  · rename_i hid
    exact ⟨by simpa [Option.isSome_iff_ne_none] using hid, (Except.ok.inj h).symm⟩

theorem deleteMembership_ok (h : t.write (.deleteMembership id) = .ok t') :
    t' = { t with memberships := t.memberships.pop id } := (Except.ok.inj h).symm

end Tables

/-- Another row than the one that is written is an owner's before and after. -/
theorem Replaced.isOwner_of_ne {r : Replaced} {t t' : Tables} {house id : String}
    (h : t.write r.statement = .ok t') (hne : id ≠ r.id) :
    t'.isOwner house id = t.isOwner house id := by
  unfold Replaced.statement at h
  split at h
  · obtain ⟨-, rfl⟩ := Tables.setRole_ok h
    simp only [Tables.isOwner, Dict.get?_modify, if_neg hne]
  · obtain rfl := Tables.deleteMembership_ok h
    simp only [Tables.isOwner, Dict.get?_pop_eq, if_neg hne]

/-- The written row is an owner's only if it was made one. -/
theorem Replaced.isOwner_self {r : Replaced} {t t' : Tables} {house : String}
    (h : t.write r.statement = .ok t') (hr : r.replacement ≠ some .owner) :
    t'.isOwner house r.id = false := by
  unfold Replaced.statement at h
  split at h
  · rename_i role hrole
    obtain ⟨-, rfl⟩ := Tables.setRole_ok h
    rw [Bool.eq_false_iff]
    intro ho
    obtain ⟨row, hget, -, howner⟩ := Tables.isOwner_iff.mp ho
    rw [Dict.get?_modify, if_pos rfl] at hget
    obtain ⟨old, -, rfl⟩ := Option.map_eq_some_iff.mp hget
    exact hr (hrole.trans (congrArg some howner))
  · obtain rfl := Tables.deleteMembership_ok h
    simp [Tables.isOwner, Dict.get?_pop_eq]

/-- A row that is made an owner's stays one. -/
theorem Replaced.isOwner_owner {r : Replaced} {t t' : Tables} {house : String}
    (h : t.write r.statement = .ok t') (hr : r.replacement = some .owner)
    (ho : t.isOwner house r.id = true) : t'.isOwner house r.id = true := by
  unfold Replaced.statement at h
  rw [hr] at h
  obtain ⟨-, rfl⟩ := Tables.setRole_ok h
  obtain ⟨row, hget, hhouse, -⟩ := Tables.isOwner_iff.mp ho
  refine Tables.isOwner_iff.mpr ⟨{ row with role := .owner }, ?_, hhouse, rfl⟩
  rw [Dict.get?_modify, if_pos rfl, hget]
  rfl

/-- What a write leaves of the members: rows keep their houses, and identifiers are not
used again. -/
theorem Replaced.memberOf {r : Replaced} {t t' : Tables} {house id : String}
    (h : t.write r.statement = .ok t') (hm : t.MemberOf house id) : t'.MemberOf house id := by
  unfold Replaced.statement at h
  split at h
  · obtain ⟨-, rfl⟩ := Tables.setRole_ok h
    refine ⟨hm.1, fun row hrow => ?_⟩
    rw [Dict.get?_modify] at hrow
    split at hrow
    · rename_i heq
      obtain ⟨old, hold, rfl⟩ := Option.map_eq_some_iff.mp hrow
      exact hm.2 old (heq ▸ hold)
    · exact hm.2 row hrow
  · obtain rfl := Tables.deleteMembership_ok h
    refine ⟨hm.1, fun row hrow => hm.2 row ?_⟩
    rw [Dict.get?_pop_eq] at hrow
    split at hrow
    · cases hrow
    · exact hrow

namespace Members

/-- The store that the requests share. -/
abbrev Shared := Store Tables TableRow Replaced String

/-- A write of a membership that was not loaded as an owner's meets the only owner of the
house. -/
def Orphans (house : String) (e : Entry Tables Replaced String) : Prop :=
  e.note.loaded ≠ .owner ∧ e.note.replacement ≠ some .owner ∧
    e.db.isOwner house e.note.id = true ∧ ∀ id, e.db.isOwner house id = true → id = e.note.id

/-- What the requests commit: nothing, a new membership, or a noted write; who writes a
membership that was loaded as an owner's has another owner of the house. -/
def Commits (_ : Nat) (_ : String) (a : Shared) (w : List Statement) (n : Option Replaced) :
    Prop :=
  (n = none ∧ (w = [] ∨ ∃ id row, w = [.insertMembership id row])) ∨
    ∃ r house, n = some r ∧ w = [r.statement] ∧ a.db.MemberOf house r.id ∧
      (r.loaded = .owner → r.replacement ≠ some .owner →
        ∃ id, id ≠ r.id ∧ a.db.isOwner house id = true)

/-- The rules of the requests, with what they are to keep: an owner of the house, as long as
nothing orphaned it. -/
def protocol (house : String) : Protocol Tables TableRow Statement Replaced String where
  inv a := (∀ id row, a.db.memberships.get? id = some row → id ∈ a.db.issued) ∧
    ((∀ e ∈ a.trace, ¬ Orphans house e) → a.db.HasOwner house)
  commits := Commits
  notes _ _ _ _ := False

/-- Memberships have issued identifiers, before and after. -/
theorem Commits.issued {s : Nat} {p : String} {a : Shared} {w : List Statement}
    {n : Option Replaced} {db : Tables} (h : Commits s p a w n) (hdb : a.db.writes w = .ok db)
    (hi : ∀ id row, a.db.memberships.get? id = some row → id ∈ a.db.issued) :
    ∀ id row, db.memberships.get? id = some row → id ∈ db.issued := by
  rcases h with ⟨-, rfl | ⟨id, row, rfl⟩⟩ | ⟨r, house, -, rfl, hm, -⟩
  · obtain rfl := Except.ok.inj hdb
    exact hi
  · rw [Tables.writes_singleton] at hdb
    obtain ⟨-, rfl⟩ := Tables.insertMembership_ok hdb
    intro id' row' hget
    rw [Dict.get?_set_eq] at hget
    split at hget
    · rename_i heq
      rw [heq]
      exact List.mem_cons_self
    · exact List.mem_cons_of_mem _ (hi id' row' hget)
  · rw [Tables.writes_singleton] at hdb
    unfold Replaced.statement at hdb
    intro id' row' hget
    split at hdb
    · obtain ⟨-, rfl⟩ := Tables.setRole_ok hdb
      rw [Dict.get?_modify] at hget
      split at hget
      · rename_i heq
        rw [heq]
        exact hm.1
      · exact hi id' row' hget
    · obtain rfl := Tables.deleteMembership_ok hdb
      rw [Dict.get?_pop_eq] at hget
      split at hget
      · cases hget
      · exact hi id' row' hget

/-- **A commit leaves the house an owner**, unless it orphans it. -/
theorem Commits.hasOwner {s : Nat} {p : String} {a : Shared} {w : List Statement}
    {n : Option Replaced} {db : Tables} {house : String} (h : Commits s p a w n)
    (hdb : a.db.writes w = .ok db)
    (hi : ∀ id row, a.db.memberships.get? id = some row → id ∈ a.db.issued)
    (hno : ∀ r, n = some r → ¬ Orphans house ⟨s, p, a.db, r⟩) (ho : a.db.HasOwner house) :
    db.HasOwner house := by
  obtain ⟨o, ho⟩ := ho
  rcases h with ⟨-, rfl | ⟨id, row, rfl⟩⟩ | ⟨r, home, rfl, rfl, hm, hother⟩
  · obtain rfl := Except.ok.inj hdb
    exact ⟨o, ho⟩
  · rw [Tables.writes_singleton] at hdb
    obtain ⟨hid, rfl⟩ := Tables.insertMembership_ok hdb
    obtain ⟨old, hold, hrest⟩ := Tables.isOwner_iff.mp ho
    have hne : o ≠ id := fun heq => hid (heq ▸ hi o old hold)
    refine ⟨o, Tables.isOwner_iff.mpr ⟨old, ?_, hrest⟩⟩
    rw [Dict.get?_set_eq, if_neg hne]
    exact hold
  · rw [Tables.writes_singleton] at hdb
    by_cases hne : o = r.id
    · subst hne
      by_cases hr : r.replacement = some .owner
      · exact ⟨_, Replaced.isOwner_owner hdb hr ho⟩
      · -- the row of an owner goes: by the rules or by the hypothesis there is another one
        have hex : ∃ id, id ≠ r.id ∧ a.db.isOwner house id = true := by
          by_cases hl : r.loaded = .owner
          · obtain ⟨row, hrow, hhouse, -⟩ := Tables.isOwner_iff.mp ho
            rw [← hhouse, hm.2 row hrow]
            exact hother hl hr
          · by_contra hnone
            push Not at hnone
            exact hno r rfl ⟨hl, hr, ho, fun id hid => by_contra fun hne => hnone id hne hid⟩
        obtain ⟨id, hne, hid⟩ := hex
        exact ⟨id, by rw [Replaced.isOwner_of_ne hdb hne]; exact hid⟩
    · exact ⟨o, by rw [Replaced.isOwner_of_ne hdb hne]; exact ho⟩

theorem keeps (house : String) : (protocol house).Keeps schema undisturbed where
  locks _ _ h := h
  clock _ _ h _ := h
  reading _ h := h
  noted _ _ _ _ _ h := h.elim
  changed _ _ _ h := nomatch h
  committed a s p w n db hi hc _ hdb := by
    have hc : Commits s p a w n := hc
    refine ⟨?_, ?_⟩
    · cases n <;> exact hc.issued hdb hi.1
    · cases n with
      | none => exact fun hno => hc.hasOwner hdb hi.1 (fun r hr => by cases hr) (hi.2 hno)
      | some r =>
          intro hno
          refine hc.hasOwner hdb hi.1 ?_ (hi.2 fun e he => hno e (List.mem_cons_of_mem _ he))
          intro r' hr'
          obtain rfl := Option.some.inj hr'
          exact hno _ List.mem_cons_self

/-! ### Outlines -/

/-- The contract of the requests. -/
abbrev contract (house : String) : Contract Shared String :=
  (protocol house).contract schema undisturbed

/-- The database of the requests. -/
abbrev database : Machine (interface Tables TableRow Statement Violation Replaced) Shared String
    String (Outside Tables) := machine schema undisturbed

section

variable {house : String} {s : Nat} {p : String}

theorem stable_memberOf {home id : String} :
    (contract house).Stable s p (fun st => st.db.MemberOf home id) := by
  refine Protocol.stable_db (K := fun t => Tables.MemberOf t home id) ?_ fun _ _ _ h => nomatch h
  intro a t q w n db _ hc hdb hm
  rcases hc with ⟨-, rfl | ⟨id', row, rfl⟩⟩ | ⟨r, home', -, rfl, -⟩
  · obtain rfl := Except.ok.inj hdb
    exact hm
  · rw [schema_apply_singleton] at hdb
    obtain ⟨hid, rfl⟩ := Tables.insertMembership_ok hdb
    refine ⟨List.mem_cons_of_mem _ hm.1, fun row hrow => hm.2 row ?_⟩
    rw [Dict.get?_set_eq] at hrow
    split at hrow
    · rename_i heq
      exact absurd (heq ▸ hm.1) hid
    · exact hrow
  · rw [schema_apply_singleton] at hdb
    exact Replaced.memberOf hdb hm

/-- The row of an owner stays one while its lock is held. -/
theorem stable_owner {home id : String} :
    (contract house).Stable s p
      (Protocol.Knows s (· = .membership id) (fun t => t.isOwner home id = true)) := by
  refine Protocol.stable_knows ?_ fun _ _ _ h => nomatch h
  intro a t q w n db hne hi hc hav hdb hheld ho
  rcases hc with ⟨-, rfl | ⟨id', row, rfl⟩⟩ | ⟨r, home', -, rfl, -⟩
  · obtain rfl := Except.ok.inj hdb
    exact ho
  · rw [schema_apply_singleton] at hdb
    obtain ⟨hid, rfl⟩ := Tables.insertMembership_ok hdb
    obtain ⟨row', hrow', hrest⟩ := Tables.isOwner_iff.mp ho
    refine Tables.isOwner_iff.mpr ⟨row', ?_, hrest⟩
    have hne : id ≠ id' := fun heq => hid (heq ▸ hi.1 id row' hrow')
    rw [Dict.get?_set_eq, if_neg hne]
    exact hrow'
  · rw [schema_apply_singleton] at hdb
    rw [Replaced.isOwner_of_ne hdb]
    · exact ho
    · -- the writer would need the lock that is held
      rintro rfl
      refine RowLocks.not_mem_of_held hav (hheld _ rfl) (fun h => hne h.symm) ?_
      unfold Replaced.statement
      split <;> simp [schema, Statement.targets]

/-- Rows that are locked, and owners'. -/
def Counted (s : Nat) (home : String) (owners : List String) (st : Shared) : Prop :=
  ∀ o, o ∈ owners → Protocol.Knows s (· = .membership o) (fun t => t.isOwner home o = true) st

theorem stable_counted {home : String} {owners : List String} :
    (contract house).Stable s p (Counted s home owners) :=
  Contract.Stable.forall fun _ => Contract.Stable.forall fun _ => stable_owner

/-- Taking one more lock keeps what is known. -/
theorem Counted.take {home : String} {owners : List String} {st : Shared}
    (h : Counted s home owners st) (row : TableRow) :
    Counted s home owners (st.take schema s row) := by
  intro o ho
  refine ⟨fun row' hrow => ?_, by rw [Protocol.take_db]; exact (h o ho).2⟩
  unfold Store.take
  split
  · exact RowLocks.take_self ((h o ho).1 row' hrow)
  · exact (h o ho).1 row' hrow

/-- `lock_owners`: the rows that are counted are locked, and owners'. -/
theorem outline_lockOwners {home : String} {α : Type} {A : Shared → Prop}
    {Q : Except RouteError α → Shared → Prop} {f : List String → Request α}
    (hA : (contract house).Stable s p A) (htake : ∀ st row, A st → A (st.take schema s row))
    {ids owners : List String} (hnd : (owners ++ ids).Nodup)
    (hf : ∀ owners : List String, owners.Nodup →
      (contract house).Outline database s p (f owners)
        (fun st => A st ∧ Counted s home owners st) Q) :
    (contract house).Outline database s p (lockOwners home ids owners >>= f)
      (fun st => A st ∧ Counted s home owners st) Q := by
  induction ids generalizing owners with
  | nil => exact hf owners (by simpa using hnd)
  | cons id ids ih =>
      let next (t : Tables) := if t.isOwner home id then owners ++ [id] else owners
      have hnext : ∀ t, (next t ++ ids).Nodup := by
        intro t
        by_cases ho : t.isOwner home id = true
        · simp only [next, if_pos ho, List.append_assoc]
          exact hnd
        · simp only [next, if_neg ho]
          exact hnd.sublist ((List.sublist_cons_self id ids).append_left owners)
      refine Protocol.outline_lock (R := fun t st => A st ∧ Counted s home (next t) st)
        (fun _ => hA.and stable_counted) ?_ fun t => ih (hnext t)
      intro st hi h
      refine ⟨htake st _ h.1, ?_⟩
      have hold := h.2.take (.membership id)
      by_cases ho : st.db.isOwner home id = true
      · simp only [next, if_pos ho]
        intro o hmem
        rcases List.mem_append.mp hmem with hmem | hmem
        · exact hold o hmem
        · obtain rfl := List.mem_singleton.mp hmem
          obtain ⟨row, hrow, -⟩ := Tables.isOwner_iff.mp ho
          have hlocked := Protocol.locked_take (S := schema) (s := s) st (.membership o)
          refine ⟨fun row' hrow' => ?_, by rw [Protocol.take_db]; exact ho⟩
          subst hrow'
          refine hlocked ?_
          rw [Protocol.take_db]
          simp [schema, Tables.has, hrow]
      · simp only [next, if_neg ho]
        exact hold

/-- `_commit` of a membership: the rules are kept where another owner is known. -/
theorem outline_write (home : String) {id : String} {loaded : Role} {replacement : Option Role}
    {A : Shared → Prop} {f : Except Violation Unit → Request Unit}
    (hA : ∀ st, A st → st.db.MemberOf home id ∧
      (loaded = .owner → replacement ≠ some .owner → ∃ o, o ≠ id ∧ st.db.isOwner home o = true))
    (hf : ∀ r, (contract house).Outline database s p (f r) (fun _ => True)
      (Contract.returns fun _ _ => True)) :
    (contract house).Outline database s p (write id loaded replacement >>= f) A
      (Contract.returns fun _ _ => True) := by
  have hwrite : ∀ r : Replaced, r.id = id → r.loaded = loaded → r.replacement = replacement →
      (contract house).Outline database s p (Sql.commit [r.statement] (some r) >>= f) A
        (Contract.returns fun _ _ => True) := by
    rintro r rfl rfl rfl
    exact Protocol.outline_commit (R := fun _ _ => True) (fun _ => Contract.Stable.const True)
      (fun st _ h => Or.inr ⟨r, home, rfl, rfl, (hA st h).1, (hA st h).2⟩)
      (fun _ _ _ _ _ => trivial) (fun _ _ _ _ => trivial) hf
  unfold write
  cases replacement with
  | none => exact hwrite ⟨id, loaded, none⟩ rfl rfl rfl
  | some role =>
      dsimp only
      split
      · exact Protocol.outline_commit (R := fun _ _ => True) (fun _ => Contract.Stable.const True)
          (fun _ _ _ => Or.inl ⟨rfl, Or.inl rfl⟩) (fun _ _ _ _ _ => trivial)
          (fun _ _ _ _ => trivial) hf
      · exact hwrite ⟨id, loaded, some role⟩ rfl rfl rfl

/-- A request to change or to remove a member keeps to the rules. -/
theorem outline_replace (house : String) (s : Nat) (p home user : String)
    (replacement : Option Role) :
    (contract house).Outline database s p (replace p home user replacement) (fun _ => True)
      (Contract.returns fun _ _ => True) := by
  unfold replace
  refine Protocol.outline_read (R := fun _ _ => True) (fun _ => Contract.Stable.const True)
    (fun _ _ _ _ h => by cases h) (fun _ _ _ => trivial) fun _ => ?_
  refine Protocol.outline_lift fun _ _ => ?_
  refine Protocol.outline_read
    (R := fun t st => ∀ m, Tables.byUserHouse t user home = .ok m → st.db.MemberOf home m.1)
    (fun _ => Contract.Stable.forall fun _ => Contract.Stable.forall fun _ => stable_memberOf)
    (fun _ _ _ _ h => by cases h) ?_ fun t => ?_
  · -- the row that is found is there, and in the house
    intro st hi _ m hm
    unfold Tables.byUserHouse at hm
    split at hm
    · rename_i m' hfound
      obtain rfl := Except.ok.inj hm
      obtain ⟨hget, -, hhouse⟩ := Tables.forHouse_some hfound
      refine ⟨hi.1 _ _ hget, fun row hrow => ?_⟩
      obtain rfl := Option.some.inj (hget.symm.trans hrow)
      exact hhouse
    · cases hm
  refine Protocol.outline_lift fun m hm => ?_
  refine Protocol.outline_read (R := fun _ st => st.db.MemberOf home m.1)
    (fun _ => stable_memberOf) (fun _ _ _ _ h => by cases h) (fun _ _ h => h m hm) fun t₃ => ?_
  refine (outline_lockOwners (A := fun st => st.db.MemberOf home m.1) stable_memberOf
    (fun st row h => by rw [Protocol.take_db]; exact h) (Tables.owners_nodup t₃ home) ?_).pre
    fun st _ h => ⟨h, fun o ho => by cases ho⟩
  intro owners hnd
  refine Protocol.outline_lift fun _ hprotect => ?_
  refine outline_write home ?_ fun r => ?_
  · intro st h
    refine ⟨h.1, fun hl hr => ?_⟩
    -- two different rows are counted, one of them is not the written one
    obtain ⟨o, ho, hne⟩ : ∃ o ∈ owners, o ≠ m.1 := by
      match owners, hnd with
      | [], _ =>
          rw [show protects _ replacement [] = .error _ from if_pos ⟨hl, hr, by simp⟩] at hprotect
          cases hprotect
      | [o], _ =>
          rw [show protects _ replacement [o] = .error _ from if_pos ⟨hl, hr, by simp⟩] at hprotect
          cases hprotect
      | o :: o' :: _, hnd =>
          by_cases ho : o = m.1
          · refine ⟨o', by simp, fun ho' => ?_⟩
            exact (List.nodup_cons.mp hnd).1 (by rw [ho, ← ho']; exact List.mem_cons_self)
          · exact ⟨o, by simp, ho⟩
    exact ⟨o, hne, (h.2 o ho).2⟩
  · cases r with
    | ok _ => exact fun _ _ _ => trivial
    | error e => cases e <;> exact fun _ _ _ => trivial

/-- A request to add a member keeps to the rules. -/
theorem outline_add (house : String) (s : Nat) (p home user : String) (role : Role) :
    (contract house).Outline database s p (add p home user role) (fun _ => True)
      (Contract.returns fun _ _ => True) := by
  unfold add
  refine Protocol.outline_read (R := fun _ _ => True) (fun _ => Contract.Stable.const True)
    (fun _ _ _ _ h => by cases h) (fun _ _ _ => trivial) fun _ => ?_
  refine Protocol.outline_lift fun _ _ => ?_
  refine Protocol.outline_read (R := fun _ _ => True) (fun _ => Contract.Stable.const True)
    (fun _ _ _ _ h => by cases h) (fun _ _ _ => trivial) fun t => ?_
  refine Protocol.outline_lift fun _ _ => ?_
  refine Protocol.outline_input (Contract.Stable.const True) fun id => ?_
  refine Protocol.outline_commit (R := fun _ _ => True) (fun _ => Contract.Stable.const True)
    (fun _ _ _ => Or.inl ⟨rfl, Or.inr ⟨id, _, rfl⟩⟩) (fun _ _ _ _ _ => trivial)
    (fun _ _ _ _ => trivial) fun r => ?_
  cases r with
  | ok _ => exact fun _ _ _ => trivial
  | error e => cases e <;> exact fun _ _ _ => trivial

/-- Every request keeps to the rules. -/
theorem outline_program (house : String) (s : Nat) (p : String) (call : MemberRequest) :
    (contract house).Outline database s p (program s p call) (fun _ => True)
      (fun _ _ => True) := by
  refine Contract.Outline.post ?_ (fun _ _ _ _ => trivial)
    (Q := Contract.returns fun _ _ => True)
  cases call with
  | add home user role => exact outline_add house s p home user role
  | change home user role => exact outline_replace house s p home user (some role)
  | remove home user => exact outline_replace house s p home user none

end

/-! ### Runs -/

/-- After the requests of a run on a database. -/
def after (db : Tables)
    (labels : List (Session.Label String MemberRequest String (Outside Tables))) :
    Shared :=
  (requests.run (State.init (Store.init db 0)) labels).shared

/-- **A house keeps its last owner** in every state of a run if and only if the run has no
write of a membership that was loaded as a non-owner's and meanwhile is the house's only
owner. -/
theorem last_owner_iff (db : Tables) (house : String)
    (hids : ∀ id row, db.memberships.get? id = some row → id ∈ db.issued)
    (howner : db.HasOwner house)
    (labels : List (Session.Label String MemberRequest String (Outside Tables))) :
    (∀ pre, pre <+: labels → (after db pre).db.HasOwner house) ↔
      ∀ e ∈ (after db labels).trace, ¬ Orphans house e := by
  have hinit : (protocol house).inv (Store.init db 0) := ⟨hids, fun _ => howner⟩
  constructor
  · intro hkeep e he ⟨hl, hr, ho, honly⟩
    -- at its moment, the write leaves no owner
    obtain ⟨pre, l, post, rfl, -, hdb, hmade⟩ :=
      Protocol.run_entry (keeps house) (outline_program house) hinit rfl labels he
    obtain ⟨id, hid⟩ := hkeep (pre ++ [l]) ⟨post, by simp⟩
    rcases hmade with ⟨hfalse, -⟩ | ⟨w, hc, happ⟩
    · exact hfalse
    · rcases hc with ⟨hnone, -⟩ | ⟨r, home, hsome, rfl, -⟩
      · cases hnone
      · obtain rfl := Option.some.inj hsome
        rw [schema_apply_singleton, ← hdb] at happ
        by_cases hne : id = e.note.id
        · rw [hne] at hid
          exact Bool.false_ne_true ((Replaced.isOwner_self happ hr).symm.trans hid)
        · exact hne (honly id ((Replaced.isOwner_of_ne happ hne).symm.trans hid))
  · rintro hno pre ⟨post, rfl⟩
    refine (Protocol.run_inv (keeps house) (outline_program house) hinit pre).2 fun e he => ?_
    exact hno e (Protocol.run_trace_mono (keeps house) (outline_program house) hinit pre post he)

/-- A house with an owner and a technician. -/
def household : Tables where
  houses := .ofList [("home", ⟨"Home"⟩)]
  floors := .empty
  rooms := .empty
  devices := .empty
  physical := .empty
  memberships :=
    .ofList [("m1", ⟨"ann", "home", .owner⟩), ("m2", ⟨"bea", "home", .technician⟩)]
  users := .ofList [("ann", ⟨true⟩), ("bea", ⟨true⟩)]
  scenes := .empty
  automations := .empty
  attempts := .empty
  ledger := ⟨[], []⟩
  issued := ["m1", "m2"]

/-- A removal of Bea has loaded her as a technician; then Ann makes her an owner, she removes
Ann, and the removal goes on. -/
def handover : List (Session.Label String MemberRequest String (Outside Tables)) :=
  [.start "ann" (.remove "home" "bea"), .exec 0 "", .exec 0 "",
    .start "ann" (.change "home" "bea" .owner), .exec 1 "", .exec 1 "", .exec 1 "", .exec 1 "",
    .exec 1 "",
    .start "bea" (.remove "home" "ann"), .exec 2 "", .exec 2 "", .exec 2 "", .exec 2 "",
    .exec 2 "", .exec 2 "",
    .exec 0 "", .exec 0 "", .exec 0 ""]

/-- The house is left without an owner. -/
theorem handover_orphans :
    household.HasOwner "home" ∧
      ¬ ∀ pre, pre <+: handover → (after household pre).db.HasOwner "home" := by
  refine ⟨⟨"m1", by decide⟩, fun h => ?_⟩
  obtain ⟨id, hid⟩ := h handover List.prefix_rfl
  obtain ⟨row, hrow, -⟩ := Tables.isOwner_iff.mp hid
  have hempty : (after household handover).db.memberships.entries = [] := by rfl
  rw [Dict.get?_eq_some, hempty] at hrow
  cases hrow

theorem last_owner_iff_household :
    (∀ pre, pre <+: handover → (after household pre).db.HasOwner "home") ↔
      ∀ e ∈ (after household handover).trace, ¬ Orphans "home" e := by
  refine last_owner_iff household "home" ?_ ⟨"m1", by decide⟩ handover
  intro id row h
  have hmem : id ∈ household.memberships.entries.map Prod.fst :=
    List.mem_map_of_mem (Dict.get?_eq_some.mp h)
  exact hmem

end Members

end KzHome

import KzHome.Lib.RowLocks
import KzHome.Lib.Session

/-!
# KzHome.Lib.Sql

Transactions of concurrent database sessions at READ COMMITTED.

Every statement sees the rows that are committed when it runs: a `read` answers
the whole committed database, and the program computes from it what its `SELECT`
returns. `lock` is `SELECT … FOR UPDATE` of one row: it waits while another session
holds the row, takes it if it is there, and answers the database after the wait.
A `commit` applies the writes of the transaction, in one step; it waits for rows that
others have locked, fails as a whole where a constraint is violated, and releases
the locks. The writes of a transaction are kept back until its commit, so its own
statements do not see them; the foreign key locks of inserted rows are not modelled:
both only delay.

The trace is a ghost: who noted what, and the database at that moment. So are the
`readings`, the answers that the clock of the database has given.
-/

namespace Sql

variable {Db Row Write φ ν ν' π ε α β : Type}

/-- What a database does: which rows are there, which of them a write needs, and what a
list of writes makes of the database. -/
structure Schema (Db Row Write φ : Type) where
  has : Db → Row → Bool
  targets : Db → Write → List Row
  apply : Db → List Write → Except φ Db

/-- The statements of a transaction. -/
inductive Op (Row Write ν : Type)
  /-- `SELECT` -/
  | read (note : Option ν)
  /-- `SELECT … FOR UPDATE` of one row. -/
  | lock (row : Row)
  /-- All writes of the transaction, and `COMMIT`. -/
  | commit (writes : List Write) (note : Option ν)
  | rollback
  /-- `SELECT clock_timestamp()` -/
  | now
  /-- A value that the program draws, such as a fresh identifier. -/
  | input

/-- What the statements are answered with. -/
def interface (Db Row Write φ ν : Type) : Session.Interface where
  Op := Op Row Write ν
  Ans
    | .read _ => Db
    | .lock _ => Db
    | .commit _ _ => Except φ Unit
    | .rollback => Unit
    | .now => Int
    | .input => String

/-- A note of a session. -/
structure Entry (Db ν π : Type) where
  session : Nat
  owner : π
  db : Db
  note : ν

/-- The database with its locks, its clock, and the ghosts. -/
structure Store (Db Row ν π : Type) where
  db : Db
  locks : RowLocks.Locks Row Nat
  clock : Int
  readings : List Int
  trace : List (Entry Db ν π)

/-- A database before any session. -/
def Store.init (db : Db) (clock : Int) : Store Db Row ν π := ⟨db, fun _ => none, clock, [], []⟩

/-- Session `s` of owner `p` makes a note. -/
def Store.record (st : Store Db Row ν π) (s : Nat) (p : π) (note : Option ν) :
    Store Db Row ν π :=
  match note with
  | some note => { st with trace := ⟨s, p, st.db, note⟩ :: st.trace }
  | none => st

/-- The end of transactions. -/
def Store.release (st : Store Db Row ν π) (ended : Nat → Bool) : Store Db Row ν π :=
  { st with locks := RowLocks.release st.locks ended }

/-- What happens outside the sessions. -/
inductive Outside (Db : Type)
  | clock (t : Int)
  | change (db : Db)

section

variable [DecidableEq Row]

/-- Session `s` takes the lock of a row, if the row is there. -/
def Store.take (S : Schema Db Row Write φ) (st : Store Db Row ν π) (s : Nat) (row : Row) :
    Store Db Row ν π :=
  if S.has st.db row then { st with locks := RowLocks.take st.locks s [row] } else st

/-- The state after a commit. -/
def Store.commit (st : Store Db Row ν π) (s : Nat) (p : π) (note : Option ν) (db : Db) :
    Store Db Row ν π :=
  { (st.record s p note).release (· = s) with db }

/-- What a statement does; `none` while it has to wait. -/
def handle (S : Schema Db Row Write φ) (st : Store Db Row ν π) (s : Nat) (p : π)
    (input : String) : (op : Op Row Write ν) →
      Option ((interface Db Row Write φ ν).Ans op × Store Db Row ν π)
  | .read note => some (st.db, st.record s p note)
  | .lock row =>
    if RowLocks.available st.locks s [row] then some (st.db, st.take S s row) else none
  | .commit writes note =>
    if RowLocks.available st.locks s (writes.flatMap (S.targets st.db)) then
      match S.apply st.db writes with
      | .ok db => some (.ok (), st.commit s p note db)
      | .error e => some (.error e, st.release (· = s))
    else none
  | .rollback => some ((), st.release (· = s))
  | .now => some (st.clock, { st with readings := st.clock :: st.readings })
  | .input => some (input, st)

/-- The clock does not go back, and the database is changed as `allowed`. -/
def act (allowed : Db → Db → Bool) (st : Store Db Row ν π) :
    Outside Db → Option (Store Db Row ν π)
  | .clock t => if st.clock ≤ t then some { st with clock := t } else none
  | .change db => if allowed st.db db then some { st with db } else none

/-- Sessions of the database; the external actions change it as `allowed`. -/
def machine (S : Schema Db Row Write φ) (allowed : Db → Db → Bool) :
    Session.Machine (interface Db Row Write φ ν) (Store Db Row ν π) π String (Outside Db) where
  handle := handle S
  close st ended := st.release ended
  admits _ _ := true
  act := act allowed
  kills _ _ := false

end

/-! ### Statements of programs -/

/-- Programs of a session. -/
abbrev Query (Db Row Write φ ν ε α : Type) := Session.Prog (interface Db Row Write φ ν) ε α

def read (note : Option ν) : Query Db Row Write φ ν ε Db := .call (.read note) .ret

def lock (row : Row) : Query Db Row Write φ ν ε Db := .call (.lock row) .ret

def commit (writes : List Write) (note : Option ν) :
    Query Db Row Write φ ν ε (Except φ Unit) := .call (.commit writes note) .ret

def rollback : Query Db Row Write φ ν ε Unit := .call .rollback .ret

def now : Query Db Row Write φ ν ε Int := .call .now .ret

def input : Query Db Row Write φ ν ε String := .call .input .ret

/-- `SELECT … FOR UPDATE` of several rows, in their order. -/
def lockAll : List Row → Query Db Row Write φ ν ε Unit
  | [] => .ret ()
  | row :: rows => .call (.lock row) fun _ => lockAll rows

/-! ### Other notes -/

/-- The same program with other notes. -/
def renote (f : ν → Option ν') : Query Db Row Write φ ν ε α → Query Db Row Write φ ν' ε α
  | .ret a => .ret a
  | .raise e => .raise e
  | .call (.read note) k => .call (.read (note.bind f)) fun db => renote f (k db)
  | .call (.lock row) k => .call (.lock row) fun db => renote f (k db)
  | .call (.commit writes note) k => .call (.commit writes (note.bind f)) fun r => renote f (k r)
  | .call .rollback k => .call .rollback fun u => renote f (k u)
  | .call .now k => .call .now fun t => renote f (k t)
  | .call .input k => .call .input fun x => renote f (k x)

section

variable (f : ν → Option ν')

@[simp] theorem renote_ret (a : α) :
    renote f (.ret a : Query Db Row Write φ ν ε α) = .ret a := rfl

@[simp] theorem renote_read (note : Option ν) :
    renote f (read note : Query Db Row Write φ ν ε Db) = read (note.bind f) := rfl

@[simp] theorem renote_lock (row : Row) :
    renote f (lock row : Query Db Row Write φ ν ε Db) = lock row := rfl

@[simp] theorem renote_commit (writes : List Write) (note : Option ν) :
    renote f (commit writes note : Query Db Row Write φ ν ε (Except φ Unit)) =
      commit writes (note.bind f) := rfl

@[simp] theorem renote_lift (x : Except ε α) :
    renote f (Session.Prog.lift x : Query Db Row Write φ ν ε α) = Session.Prog.lift x := by
  cases x <;> rfl

@[simp] theorem renote_lockAll (rows : List Row) :
    renote f (lockAll rows : Query Db Row Write φ ν ε Unit) = lockAll rows := by
  induction rows with
  | nil => rfl
  | cons row rows ih => exact congrArg (Session.Prog.call _) (funext fun _ => ih)

@[simp] theorem renote_bind (m : Query Db Row Write φ ν ε α) (k : α → Query Db Row Write φ ν ε β) :
    renote f (m >>= k) = renote f m >>= fun a => renote f (k a) := by
  induction m with
  | ret a => rfl
  | raise e => rfl
  | call op next ih =>
      cases op <;> exact congrArg (Session.Prog.call _) (funext ih)

end

end Sql

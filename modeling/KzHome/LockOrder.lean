import KzHome.Lib.Deadlock
import Mathlib.Data.List.Dedup
import Mathlib.Data.List.Sort
import Mathlib.Data.Prod.Lex
import Mathlib.Data.String.Basic

/-!
# KzHome.LockOrder

The row locks of the transactions, in the order they are taken.

Structural mutations lock houses first, in the order of their identifiers, and
everything else after them: inventory, provisioning sessions, devices, rooms,
floors, commands. Almost every transaction keeps to this order. The exceptions are
the two that insert a command: `submit` and `prepare` lock the inventory row or the
device first, and reach the row of the house through the foreign key of the row they
insert. A structural mutation that holds the house and goes on to the device then
closes a cycle (`submit_delete_lamp`), and every cycle there can be has such an
insertion on it (`cycle_inserts`).

A transaction can end after any of its locks: where a check fails, where there is
nothing to write, or where it is rolled back. Rows that a transaction inserted itself
are left out; nobody else sees them before the commit. The identifiers are ordered as
the database orders them.
-/

namespace KzHome

open Deadlock

namespace LockOrder

/-- The rows that are locked. A membership is named by its house and its user. -/
inductive Row (α : Type)
  | house (id : α)
  | membership (house user : α)
  | physical (device : α)
  | session (id : α)
  | device (id : α)
  | room (id : α)
  | floor (id : α)
  | command (id : α)
  | control (command : α)
  | user (id : α)
  deriving DecidableEq, Repr

variable {α : Type}

/-! ### Statements -/

/-- `SELECT … WITH FOR UPDATE`, and `DELETE`. -/
@[simp] def forUpdate (row : Row α) : Lock (Row α) := ⟨row, .forUpdate⟩

/-- `UPDATE` -/
@[simp] def update (row : Row α) : Lock (Row α) := ⟨row, .update⟩

/-- The parent row of a foreign key in an `INSERT`, or in an `UPDATE` of the key. -/
@[simp] def references (row : Row α) : Lock (Row α) := ⟨row, .keyShare⟩

/-- `ORDER BY id`, and the order in which the unit of work deletes rows. -/
def sorted [LinearOrder α] (ids : List α) : List α := ids.dedup.insertionSort (· ≤ ·)

/-- `PhysicalDeviceRepository.lock_houses` -/
def lockHouses [LinearOrder α] (ids : List α) : List (Lock (Row α)) :=
  (sorted ids).map fun id => forUpdate (.house id)

/-- `PhysicalDeviceRepository.by_device` with `lock=True`, and `by_hardware`: only an
inventory row that is there is locked. -/
def byDevice (registered : Bool) (device : α) : List (Lock (Row α)) :=
  if registered then [forUpdate (.physical device)] else []

/-- A row that is read for update and then written, if it was found. -/
def readWrite (found : Option (Row α)) : List (Lock (Row α)) :=
  match found with
  | some row => [forUpdate row, update row]
  | none => []

/-- The `INSERT` into `device_commands`. -/
def insertCommand (house device user : α) : List (Lock (Row α)) :=
  [references (.house house), references (.device device), references (.user user)]

/-- `ProvisioningService._authorize` -/
def authorize (house actor : α) : List (Lock (Row α)) :=
  [forUpdate (.house house), forUpdate (.membership house actor)]

/-- The unit of work deletes the rows of one table in the order of their keys. -/
def deletes [LinearOrder α] (table : α → Row α) (ids : List α) : List (Lock (Row α)) :=
  (sorted ids).map fun id => forUpdate (table id)

/-! ### Transactions -/

/-- What `ProvisioningService.create` finds: an attempt under its key, or an inventory item
that may have an active attempt. -/
inductive Attempt (α : Type)
  | previous (session : α)
  | fresh (device : α) (active : Option α) (room : α)
  deriving DecidableEq, Repr

/-- The transactions, with the rows that they come across. -/
inductive Transaction (α : Type)
  /-- `CommandService.submit` up to the commit before the publication; `found` is the
  earlier or pending command. -/
  | submit (registered : Bool) (device : α) (found : Option α) (house user : α)
  /-- `CommandService.get`, `ack` and `state`, and the rest of `submit`. -/
  | ledger (command : α)
  /-- `ControlAuthority.prepare`; `found` is a command that has the identifier already. -/
  | prepare (device : α) (found : Option α) (house user : α)
  /-- `ControlAuthority.stage` -/
  | stage (device command : α)
  /-- `ControlAuthority.request` -/
  | request (device command : α)
  /-- `OnboardingService.claim` -/
  | claim (house device room : α)
  /-- `OnboardingService.transition` -/
  | transition (house device : α)
  /-- `DeviceService.create` -/
  | createDevice (registered : Bool) (device room : α)
  /-- `DeviceService.update`; the target is a room with its house. -/
  | updateDevice (source : α) (target : Option (α × α)) (registered : Bool) (device : α)
  /-- `DeviceService.delete` -/
  | deleteDevice (source device : α)
  /-- `CrudService.update` of a room; the target is a floor with its house. -/
  | updateRoom (source : α) (target : Option (α × α)) (room : α)
  /-- `CrudService.delete` of a room, with its devices. -/
  | deleteRoom (source : α) (devices : List α) (room : α)
  /-- `CrudService.update` of a floor; the target is a house. -/
  | updateFloor (source : α) (target : Option α) (floor : α)
  /-- `CrudService.delete` of a floor, with its devices and rooms. -/
  | deleteFloor (source : α) (devices rooms : List α) (floor : α)
  /-- `CrudService.update` of a house. -/
  | updateHouse (house : α)
  /-- `HouseRepository.delete_with_memberships`, with everything in the house. -/
  | deleteHouse (house : α) (users devices rooms floors : List α)
  /-- `DeviceService.report_state` and `update_status`. -/
  | report (registered : Bool) (device : α)
  /-- `ProvisioningService.create` -/
  | provision (house actor : α) (attempt : Attempt α)
  /-- `ProvisioningService.get` and `cancel`. -/
  | attempt (house actor session : α)
  deriving DecidableEq, Repr

/-- The locks of a transaction, in their order. -/
def Transaction.locks [LinearOrder α] : Transaction α → List (Lock (Row α))
  | .submit registered device found house user =>
    byDevice registered device ++ [forUpdate (.device device)] ++
      readWrite (found.map .command) ++
      -- `require_command_contract` refuses a device of the inventory
      if registered then [] else insertCommand house device user
  | .ledger command => readWrite (some (.command command))
  | .prepare device found house user =>
    byDevice true device ++
      match found with
      | some command => [forUpdate (.command command)]
      | none => insertCommand house device user
  | .stage device command => byDevice true device ++ readWrite (some (.command command))
  | .request device command =>
    byDevice true device ++ [forUpdate (.command command)] ++
      readWrite (some (.control command))
  | .claim house device room =>
    lockHouses [house] ++ byDevice true device ++
      [references (.room room), update (.physical device), references (.house house)]
  | .transition house device =>
    lockHouses [house] ++ byDevice true device ++
      [update (.physical device), update (.device device), references (.house house)]
  | .createDevice registered device room =>
    byDevice registered device ++ if registered then [] else [references (.room room)]
  | .updateDevice source target registered device =>
    lockHouses (source :: (target.map Prod.fst).toList) ++ byDevice registered device ++
      [update (.device device)] ++ (target.map fun t => references (.room t.2)).toList
  | .deleteDevice source device => lockHouses [source] ++ [forUpdate (.device device)]
  | .updateRoom source target room =>
    lockHouses (source :: (target.map Prod.fst).toList) ++
      [update (.room room)] ++ (target.map fun t => references (.floor t.2)).toList
  | .deleteRoom source devices room =>
    lockHouses [source] ++ deletes .device devices ++ [forUpdate (.room room)]
  | .updateFloor source target floor =>
    lockHouses (source :: target.toList) ++
      [update (.floor floor)] ++ (target.map fun house => references (.house house)).toList
  | .deleteFloor source devices rooms floor =>
    lockHouses [source] ++ deletes .device devices ++ deletes .room rooms ++
      [forUpdate (.floor floor)]
  | .updateHouse house => lockHouses [house] ++ [update (.house house)]
  | .deleteHouse house users devices rooms floors =>
    -- the memberships go in one statement, in no particular order
    lockHouses [house] ++ users.map (fun user => forUpdate (.membership house user)) ++
      deletes .device devices ++ deletes .room rooms ++ deletes .floor floors ++
      [forUpdate (.house house)]
  | .report registered device => byDevice registered device ++ [update (.device device)]
  | .provision house actor (.previous session) =>
    authorize house actor ++ readWrite (some (.session session))
  | .provision house actor (.fresh device active room) =>
    authorize house actor ++ byDevice true device ++ readWrite (active.map .session) ++
      [references (.house house), references (.room room), references (.physical device),
        references (.user actor)]
  | .attempt house actor session =>
    authorize house actor ++ readWrite (some (.session session)) ++ [references (.user actor)]

/-- The house of the command that a transaction inserts. -/
def Transaction.inserts : Transaction α → Option α
  | .submit false _ _ house _ => some house
  | .prepare _ none house _ => some house
  | _ => none

/-- The foreign key of an inserted command, on the row of its house. -/
def Inserts (call : Transaction α) (r : Lock (Row α)) : Prop :=
  ∃ house, call.inserts = some house ∧ r = references (.house house)

/-- The transactions running side by side. -/
def transactions (α : Type) [LinearOrder α] :
    Transition.System (State (Transaction α) (Row α)) (Label (Transaction α)) :=
  system Transaction.locks

/-! ### The order -/

/-- The place of a row's table in the order. -/
@[simp] def Row.table : Row α → Nat
  | .house _ => 0
  | .membership _ _ => 1
  | .physical _ => 2
  | .session _ => 3
  | .device _ => 4
  | .room _ => 5
  | .floor _ => 6
  | .command _ => 7
  | .control _ => 8
  | .user _ => 9

/-- The key of a row inside its table. -/
@[simp] def Row.key : Row α → α
  | .house id => id
  | .membership houseId _ => houseId
  | .physical deviceId => deviceId
  | .session id => id
  | .device id => id
  | .room id => id
  | .floor id => id
  | .command id => id
  | .control commandId => commandId
  | .user id => id

/-- Tables in their order, rows of one table by their keys. -/
def Row.rank (row : Row α) : Nat ×ₗ α := toLex (row.table, row.key)

/-- Memberships are only locked under the lock of their house. -/
@[simp] def Row.guard : Row α → Option (Row α)
  | .membership houseId _ => some (.house houseId)
  | _ => none

variable [LinearOrder α]

theorem rank_lt {r r' : Row α} :
    r.rank < r'.rank ↔ r.table < r'.table ∨ r.table = r'.table ∧ r.key < r'.key :=
  Prod.Lex.toLex_lt_toLex

theorem mem_sorted {ids : List α} {id : α} : id ∈ sorted ids ↔ id ∈ ids := by
  simp [sorted]

theorem sorted_pairwise (ids : List α) : (sorted ids).Pairwise (· < ·) := by
  have hle : (sorted ids).Pairwise (· ≤ ·) := List.pairwise_insertionSort _ _
  have hne : (sorted ids).Nodup := by
    rw [sorted, (List.perm_insertionSort _ _).nodup_iff]
    exact ids.nodup_dedup
  exact (hle.and hne).imp fun h => lt_of_le_of_ne h.1 h.2

theorem mem_deletes {table : α → Row α} {ids : List α} {l : Lock (Row α)} :
    l ∈ deletes table ids ↔ ∃ id ∈ ids, l = forUpdate (table id) := by
  simp [deletes, mem_sorted, eq_comm]

@[simp] theorem forall_mem_deletes {table : α → Row α} {ids : List α} {p : Lock (Row α) → Prop} :
    (∀ l ∈ deletes table ids, p l) ↔ ∀ id ∈ ids, p (forUpdate (table id)) := by
  constructor
  · intro h id hid
    exact h _ (mem_deletes.mpr ⟨id, hid, rfl⟩)
  · intro h l hl
    obtain ⟨id, hid, rfl⟩ := mem_deletes.mp hl
    exact h id hid

@[simp] theorem mem_lockHouses {ids : List α} {l : Lock (Row α)} :
    l ∈ lockHouses ids ↔ ∃ id ∈ ids, l = forUpdate (.house id) := mem_deletes

/-- The sorted rows of one table, after rows of earlier tables. -/
theorem orderly_deletes {table : α → Row α} {n : Nat} {exempt : Lock (Row α) → Prop}
    (htable : ∀ id, (table id).table = n) (hkey : ∀ id, (table id).key = id) {ids : List α}
    {held : List (Lock (Row α))} (hheld : ∀ l ∈ held, l.row.table < n) :
    Orderly Row.guard Row.rank exempt held (deletes table ids) := by
  refine orderly_of_sorted ?_ ?_
  · intro l hl r hr
    obtain ⟨id, -, rfl⟩ := mem_deletes.mp hr
    rw [rank_lt]
    exact Or.inl ((hheld l hl).trans_eq (htable id).symm)
  · rw [deletes, List.pairwise_map]
    refine (sorted_pairwise ids).imp fun h => ?_
    rw [rank_lt]
    exact Or.inr ⟨(htable _).trans (htable _).symm, by rw [forUpdate, forUpdate, hkey, hkey]; exact h⟩

/-- Houses come first. -/
@[simp] theorem orderly_lockHouses {exempt : Lock (Row α) → Prop} {ids : List α} :
    Orderly Row.guard Row.rank exempt [] (lockHouses ids) :=
  orderly_deletes (n := 0) (fun _ => rfl) (fun _ => rfl) (by simp)

/-- The memberships of a house that is locked. -/
theorem orderly_memberships {house : α} {exempt : Lock (Row α) → Prop}
    {held : List (Lock (Row α))} (hheld : forUpdate (.house house) ∈ held) (users : List α) :
    Orderly Row.guard Row.rank exempt held
      (users.map fun user => forUpdate (.membership house user)) := by
  induction users generalizing held with
  | nil => trivial
  | cons user users ih =>
      exact ⟨Or.inl (Or.inr (Or.inl ⟨_, rfl, hheld⟩)), ih (List.mem_append_left _ hheld)⟩

/-- Sorted rows of a table other than the memberships. -/
theorem guarded_deletes {table : α → Row α} (htable : ∀ id, (table id).guard = none)
    {ids : List α} {held : List (Lock (Row α))} :
    Guarded Row.guard held (deletes table ids) := by
  refine guarded_of_none fun r hr => ?_
  obtain ⟨id, -, rfl⟩ := mem_deletes.mp hr
  exact htable id

@[simp] theorem guarded_lockHouses {held : List (Lock (Row α))} {ids : List α} :
    Guarded Row.guard held (lockHouses ids) := guarded_deletes fun _ => rfl

omit [LinearOrder α] in
theorem guarded_memberships {house : α} {held : List (Lock (Row α))}
    (hheld : forUpdate (.house house) ∈ held) (users : List α) :
    Guarded Row.guard held (users.map fun user => forUpdate (.membership house user)) := by
  induction users generalizing held with
  | nil => trivial
  | cons user users ih =>
      refine ⟨fun g hg => ?_, ih (List.mem_append_left _ hheld)⟩
      obtain rfl := Option.some.inj hg
      exact hheld

/-- Memberships are locked after their houses in every transaction. -/
theorem Transaction.guarded (call : Transaction α) : Guarded Row.guard [] call.locks := by
  cases call with
  | submit registered device found house user =>
      cases registered <;> cases found <;>
        simp [Transaction.locks, byDevice, readWrite, insertCommand]
  | prepare device found house user =>
      cases found <;> simp [Transaction.locks, byDevice, insertCommand]
  | createDevice registered device room =>
      cases registered <;> simp [Transaction.locks, byDevice]
  | updateDevice source target registered device =>
      cases registered <;> cases target <;> simp [Transaction.locks, byDevice]
  | updateRoom source target room => cases target <;> simp [Transaction.locks]
  | updateFloor source target floor => cases target <;> simp [Transaction.locks]
  | deleteRoom source devices room =>
      simp only [Transaction.locks, guarded_append]
      refine ⟨⟨guarded_lockHouses, ?_⟩, ?_⟩
      · exact guarded_deletes fun _ => rfl
      · simp
  | deleteFloor source devices rooms floor =>
      simp only [Transaction.locks, guarded_append]
      refine ⟨⟨⟨guarded_lockHouses, ?_⟩, ?_⟩, ?_⟩
      · exact guarded_deletes fun _ => rfl
      · exact guarded_deletes fun _ => rfl
      · simp
  | deleteHouse house users devices rooms floors =>
      simp only [Transaction.locks, guarded_append]
      refine ⟨⟨⟨⟨⟨guarded_lockHouses, guarded_memberships (by simp) users⟩, ?_⟩, ?_⟩, ?_⟩, ?_⟩
      · exact guarded_deletes fun _ => rfl
      · exact guarded_deletes fun _ => rfl
      · exact guarded_deletes fun _ => rfl
      · simp
  | report registered device => cases registered <;> simp [Transaction.locks, byDevice]
  | provision house actor attempt =>
      cases attempt with
      | previous session => simp [Transaction.locks, authorize, readWrite]
      | fresh device active room =>
          cases active <;> simp [Transaction.locks, authorize, byDevice, readWrite]
  | _ => simp [Transaction.locks, authorize, byDevice, readWrite]

/-- Every lock of a transaction keeps to the order, except the foreign key of an inserted
command on its house. -/
theorem Transaction.orderly (call : Transaction α) :
    Orderly Row.guard Row.rank (Inserts call) [] call.locks := by
  cases call with
  | submit registered device found house user =>
      cases registered <;> cases found <;>
        simp [Transaction.locks, byDevice, readWrite, insertCommand, Safe, rank_lt, Inserts,
          Transaction.inserts]
  | ledger command => simp [Transaction.locks, readWrite, Safe]
  | prepare device found house user =>
      cases found <;>
        simp [Transaction.locks, byDevice, insertCommand, Safe, rank_lt, Inserts,
          Transaction.inserts]
  | stage device command => simp [Transaction.locks, byDevice, readWrite, Safe, rank_lt]
  | request device command => simp [Transaction.locks, byDevice, readWrite, Safe, rank_lt]
  | claim house device room =>
      simp [Transaction.locks, byDevice, Safe, rank_lt, or_imp, forall_and]
  | transition house device =>
      simp [Transaction.locks, byDevice, Safe, rank_lt, or_imp, forall_and]
  | createDevice registered device room =>
      cases registered <;> simp [Transaction.locks, byDevice, Safe]
  | updateDevice source target registered device =>
      cases registered <;> cases target <;>
        simp [Transaction.locks, byDevice, Safe, rank_lt, or_imp, forall_and]
  | deleteDevice source device => simp [Transaction.locks, Safe, rank_lt]
  | updateRoom source target room =>
      cases target <;> simp [Transaction.locks, Safe, rank_lt, or_imp, forall_and]
  | deleteRoom source devices room =>
      simp only [Transaction.locks, orderly_append]
      refine ⟨⟨orderly_lockHouses, orderly_deletes (n := 4) (fun _ => rfl) (fun _ => rfl) ?_⟩, ?_⟩
      · simp
      · simp [Safe, rank_lt, or_imp, forall_and]
  | updateFloor source target floor =>
      cases target <;> simp [Transaction.locks, Safe, rank_lt, or_imp, forall_and]
  | deleteFloor source devices rooms floor =>
      simp only [Transaction.locks, orderly_append]
      refine ⟨⟨⟨orderly_lockHouses, orderly_deletes (n := 4) (fun _ => rfl) (fun _ => rfl) ?_⟩,
        orderly_deletes (n := 5) (fun _ => rfl) (fun _ => rfl) ?_⟩, ?_⟩
      · simp
      · simp [or_imp, forall_and]
      · simp [Safe, rank_lt, or_imp, forall_and]
  | updateHouse house => simp [Transaction.locks, Safe, rank_lt]
  | deleteHouse house users devices rooms floors =>
      simp only [Transaction.locks, orderly_append]
      refine ⟨⟨⟨⟨⟨orderly_lockHouses, orderly_memberships ?_ users⟩,
        orderly_deletes (n := 4) (fun _ => rfl) (fun _ => rfl) ?_⟩,
        orderly_deletes (n := 5) (fun _ => rfl) (fun _ => rfl) ?_⟩,
        orderly_deletes (n := 6) (fun _ => rfl) (fun _ => rfl) ?_⟩, ?_⟩
      · simp
      · simp [or_imp, forall_and]
      · simp [or_imp, forall_and]
      · simp [or_imp, forall_and]
      · simp [Safe]
  | report registered device =>
      cases registered <;> simp [Transaction.locks, byDevice, Safe, rank_lt]
  | provision house actor attempt =>
      cases attempt with
      | previous session => simp [Transaction.locks, authorize, readWrite, Safe, rank_lt]
      | fresh device active room =>
          cases active <;>
            simp [Transaction.locks, authorize, byDevice, readWrite, Safe, rank_lt]
  | attempt house actor session =>
      simp [Transaction.locks, authorize, readWrite, Safe, rank_lt]

/-! ### Deadlocks -/

/-- **Every cycle of waits has an insertion of a command on it**, waiting for the row of its
house. -/
theorem cycle_inserts (is : List (Label (Transaction α))) {t : Nat}
    (hcycle : Relation.TransGen (WaitsFor ((transactions α).run [] is)) t t) :
    ∃ u x house, Relation.TransGen (WaitsFor ((transactions α).run [] is)) t u ∧
      Relation.TransGen (WaitsFor ((transactions α).run [] is)) u t ∧
      ((transactions α).run [] is)[u]? = some x ∧ x.call.inserts = some house ∧
      x.awaits = some (references (.house house)) := by
  have hinv := inv_run (Transaction.locks (α := α)) is
  obtain ⟨u, x, r, htu, hut, hx, hr, hns⟩ :=
    hinv.cycle_unsafe Row.rank Transaction.guarded hcycle
  obtain ⟨house, hins, rfl⟩ := (hinv.awaits_safe Transaction.orderly hx hr).resolve_left hns
  exact ⟨u, x, house, htu, hut, hx, hins, hr⟩

/-- **The transactions are free of deadlocks** in every run in which `submit` and `prepare`
find the row of the house free when they insert their command. -/
theorem deadlock_free (is : List (Label (Transaction α)))
    (h : (transactions α).Along (Prompt Inserts) [] is) :
    ∀ js, js <+: is → ¬ Deadlocked ((transactions α).run [] js) := by
  intro js hjs
  obtain ⟨ks, rfl⟩ := hjs
  exact acyclic_run Row.rank Transaction.guarded Transaction.orderly h.take

/-- The submission has its house before the deletion asks for it. -/
theorem deadlock_free_lamp :
    ¬ Deadlocked ((transactions String).run []
      [.begins (.submit false "lamp" none "home" "ann"), .asks 0, .asks 0,
        .begins (.deleteDevice "home" "lamp"), .asks 1]) := by
  refine deadlock_free _ ?_ _ List.prefix_rfl
  refine ⟨?_, ?_, ?_, ?_, ?_, trivial⟩
  · intro t x r hl
    cases hl
  · intro t x r hl hx hr hins
    cases hl
    obtain rfl := Option.some.inj hx
    obtain rfl := Option.some.inj hr
    rfl
  · intro t x r hl hx hr hins
    cases hl
    obtain rfl := Option.some.inj hx
    obtain rfl := Option.some.inj hr
    rfl
  · intro t x r hl
    cases hl
  · intro t x r hl hx hr hins
    cases hl
    obtain rfl := Option.some.inj hx
    obtain ⟨house, hnone, -⟩ := hins
    cases hnone

/-- The lamp is deleted while a command for it is submitted: the deletion holds the house
and waits for the lamp, the submission holds the lamp and waits for the house. -/
theorem submit_delete_lamp :
    ¬ ∀ is, ¬ Deadlocked ((transactions String).run [] is) := by
  intro h
  have hrun : (transactions String).run []
      [.begins (.submit false "lamp" none "home" "ann"), .begins (.deleteDevice "home" "lamp"),
        .asks 1, .asks 0, .asks 1, .asks 0] =
      [⟨.submit false "lamp" none "home" "ann", [forUpdate (.device "lamp")], true,
          insertCommand "home" "lamp" "ann"⟩,
        ⟨.deleteDevice "home" "lamp", [forUpdate (.house "home")], true,
          [forUpdate (.device "lamp")]⟩] := by
    simp only [transactions, Transition.System.run_cons, Transition.System.run_nil,
      Transition.System.next, system, step, Transaction.locks, byDevice, readWrite]
    rfl
  have hcycle := h _ ∘ hrun.symm.subst (motive := Deadlocked)
  refine hcycle ⟨0, Relation.TransGen.tail (b := 1) (.single ?_) ?_⟩
  · exact ⟨by decide, _, _, _, rfl, rfl, rfl, by decide⟩
  · exact ⟨by decide, _, _, _, rfl, rfl, rfl, by decide⟩

end LockOrder

end KzHome

import KzHome.Runs

/-!
# KzHome.Records

Committed rows over a run: what they never change, and how they move.

One commit keeps to the life cycle of the row it overwrites (`Commit.lifecycle`);
the life cycle is a preorder, so any two moments of a run are related by it.
-/

namespace KzHome

/-! ### The life cycle is a preorder -/

theorem CommandStatus.Moves.trans {a b c : CommandStatus} (h : a.Moves b) (k : b.Moves c) :
    a.Moves c := by
  cases h with
  | stay => exact k
  | dispatch =>
      cases k with
      | stay => exact .dispatch
      | finish _ h' => exact .finish rfl h'
  | finish h h' =>
      cases k with
      | stay => exact .finish h h'
      | dispatch => cases h'
      | finish hb hc => exact .finish h hc

theorem DeviceCommand.Lifecycle.trans {a b c : DeviceCommand} (h : a.Lifecycle b)
    (k : b.Lifecycle c) : a.Lifecycle c where
  fixed := k.fixed.trans h.fixed
  terminal ht := by
    obtain rfl := h.terminal ht
    exact k.terminal ht
  status := h.status.trans k.status

/-! ### Rows over a run -/

variable {cfg : Config} {registry : Registry}

/-- Every committed row has a successor in its life cycle at every later moment. -/
theorem row_lifecycle (cfg : Config) (registry : Registry) (labels more : List Label)
    {row : DeviceCommand} (h : row ∈ (after cfg registry labels).shared.db.commands) :
    ∃ row' ∈ (after cfg registry (labels ++ more)).shared.db.commands,
      row'.commandId = row.commandId ∧ row.Lifecycle row' := by
  refine after_related (R := fun a b => ∀ row ∈ a.db.commands, ∃ row' ∈ b.db.commands,
      row'.commandId = row.commandId ∧ row.Lifecycle row')
    (fun a row hr => ⟨row, hr, rfl, .refl row⟩) ?_ ?_ (fun _ row hr => ⟨row, hr, rfl, .refl row⟩)
    ?_ labels more row h
  · intro a b c hab hbc row hr
    obtain ⟨row', hr', hid, hl⟩ := hab row hr
    obtain ⟨row'', hr'', hid', hl'⟩ := hbc row' hr'
    exact ⟨row'', hr'', hid'.trans hid, hl.trans hl'⟩
  · intro s pid a b hi hd row hr
    exact (hd.frame hi).lifecycle hi.valid hr
  · intro a x b _ ha row hr
    exact ⟨row, by rw [(act_frame ha).1]; exact hr, rfl, .refl row⟩

/-- **Terminal records are immutable.** Between any two moments of a run a committed
row keeps its identity, intent and deadline, its status only moves forward, and
once it is terminal no column changes. -/
theorem terminal_records_immutable (cfg : Config) (registry : Registry) (labels more : List Label)
    (id : String) (row : DeviceCommand)
    (h : (after cfg registry labels).shared.db.command? id = some row) :
    ∃ row', (after cfg registry (labels ++ more)).shared.db.command? id = some row' ∧
      row'.fixedColumns = row.fixedColumns ∧ (row.status.pending = false → row' = row) ∧
      row.status.Moves row'.status := by
  have hv := (after_inv cfg registry labels).valid
  have hv' := (after_inv cfg registry (labels ++ more)).valid
  obtain ⟨hr, rfl⟩ := (Ledger.command?_eq_some hv).mp h
  obtain ⟨row', hr', hid, hl⟩ := row_lifecycle cfg registry labels more hr
  exact ⟨row', (Ledger.command?_eq_some hv').mpr ⟨hr', hid⟩, hl.fixed, hl.terminal, hl.status⟩

open Household in
/-- From the submission of the lamp's command to its answers. -/
theorem terminal_records_immutable_lamp :
    ∃ row row', (after config tables submit).shared.db.command? commandId = some row ∧
      (after config tables (submit ++ answers 7 8)).shared.db.command? commandId = some row' ∧
      row'.fixedColumns = row.fixedColumns ∧ row.status.Moves row'.status := by
  have h : ((after config tables submit).shared.db.command? commandId).isSome = true := by
    decide +kernel
  obtain ⟨row, hrow⟩ := Option.isSome_iff_exists.mp h
  obtain ⟨row', hrow', hf, -, hm⟩ :=
    terminal_records_immutable config tables submit (answers 7 8) commandId row hrow
  exact ⟨row, row', hrow, hrow', hf, hm⟩

end KzHome

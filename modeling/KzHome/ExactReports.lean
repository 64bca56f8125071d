import KzHome.StateReports
import Mathlib

/-!
# KzHome.ExactReports

What `report_state` stores and announces.

A report is checked field by field, compared with the stored state, merged into it and
announced as one event. The comparison is Python's `==`, for which `True == 1`, while the
checks tell booleans, integers and floats apart, and while the other writers of a state
(`create`, `update`, `update_state`) check the names of the fields only. A report whose
value `==` a stored value of another kind is therefore taken for no change.

**Exactness** (`reports_exactly_iff`) says that this is all that can go wrong: a report is
stored and announced exactly when `==` and sameness agree on each of its members.
-/

namespace KzHome

open StateValidator (DeviceState)

namespace Json

/-! ### Sameness of JSON values -/

/-- The same JSON value: the order of an object's members is no part of it, the kind of
a scalar is. -/
inductive Same : Json → Json → Prop
  | null : Same .null .null
  | bool (b : Bool) : Same (.bool b) (.bool b)
  | int (n : Int) : Same (.int n) (.int n)
  | float (q : Rat) : Same (.float q) (.float q)
  | str (s : String) : Same (.str s) (.str s)
  | arr {xs ys : List Json} (h : List.Forall₂ Same xs ys) : Same (.arr xs) (.arr ys)
  | obj {xs zs ys : List (String × Json)} (hp : xs.Perm zs)
      (hk : zs.map Prod.fst = ys.map Prod.fst)
      (h : List.Forall₂ Same (zs.map Prod.snd) (ys.map Prod.snd)) : Same (.obj xs) (.obj ys)

theorem Same.refl : (v : Json) → Same v v
  | .null => .null
  | .bool b => .bool b
  | .int n => .int n
  | .float q => .float q
  | .str s => .str s
  | .arr xs => .arr (List.forall₂_same.mpr fun x _ => Same.refl x)
  | .obj xs => .obj (List.Perm.refl xs) rfl (List.forall₂_same.mpr fun x _ => Same.refl x)
termination_by v => sizeOf v
decreasing_by
  · have := List.sizeOf_lt_of_mem ‹_ ∈ xs›
    simp only [Json.arr.sizeOf_spec]
    omega
  · obtain ⟨m, hm, rfl⟩ := List.mem_map.mp ‹_ ∈ xs.map Prod.snd›
    have h := List.sizeOf_lt_of_mem hm
    have h' : sizeOf m = 1 + sizeOf m.1 + sizeOf m.2 := by cases m; rfl
    simp only [Json.obj.sizeOf_spec]
    omega

/-- The object holds `value` under `key`. -/
def Holds (members : List (String × Json)) (key : String) (value : Json) : Prop :=
  ∃ x, member members key = some x ∧ Same x value

/-! ### Members of objects -/

theorem member_filter_key (members : List (String × Json)) (p : String → Bool) (k : String) :
    member (members.filter fun m => p m.1) k = if p k then member members k else none := by
  induction members with
  | nil => simp [member]
  | cons m rest ih =>
      unfold member at ih ⊢
      rw [List.filter_cons]
      by_cases hk : m.1 = k
      · subst hk
        by_cases hp : p m.1 = true
        · rw [if_pos hp, if_pos hp, List.find?_cons_of_pos (by simp),
            List.find?_cons_of_pos (by simp)]
        · rw [if_neg hp, ih, if_neg hp, if_neg hp]
      · rw [List.find?_cons_of_neg (by simpa using hk), ← ih]
        by_cases hp : p m.1 = true
        · rw [if_pos hp, List.find?_cons_of_neg (by simpa using hk)]
        · rw [if_neg hp]

/-- What is stored under a key after a merge: the change, where there is one. -/
theorem member_merge (state changed : List (String × Json)) (k : String) :
    member (merge state changed) k = (member changed k).or (member state k) := by
  unfold merge
  rw [member_append, member_map state fun key v => (member changed key).getD v,
    member_filter_key changed fun key => (member state key).isNone]
  cases member state k <;> cases member changed k <;> rfl

theorem merge_nil (state : List (String × Json)) : merge state [] = state := by
  simp [merge, member]

/-- A change is a member of the patch that `==` tells from the state. -/
theorem mem_changes {state patch : List (String × Json)} {m : String × Json} :
    m ∈ changes state patch ↔ m ∈ patch ∧ ¬ pyEq (getOrNull state m.1) m.2 = true := by
  rw [changes, List.mem_filter, Bool.not_eq_true', Bool.not_eq_true]

theorem changes_nodup {state patch : List (String × Json)} (h : (patch.map Prod.fst).Nodup) :
    ((changes state patch).map Prod.fst).Nodup :=
  h.sublist (List.Sublist.map _ List.filter_sublist)

end Json

/-! ### Reports -/

namespace StateValidator

/-- What a report may say of a field of a device with these capabilities. -/
structure Reportable (capabilities : List String) (field : String) (value : Json) : Prop where
  backed : ∃ f ∈ fieldCapabilities, f.1 = field ∧ f.2 ∈ capabilities
  present : value ≠ .null
  boolean : field ∈ booleanFields → ∃ b, value = .bool b
  inRange : ∀ f ∈ integerRanges, f.1 = field → ∃ n, value = .int n ∧ f.2.1 ≤ n ∧ n ≤ f.2.2

theorem backed_iff {capabilities : List String} {field : String} :
    backed capabilities field = true ↔
      ∃ f ∈ fieldCapabilities, f.1 = field ∧ f.2 ∈ capabilities := by
  have hkeys : ∀ f ∈ fieldCapabilities, fieldCapabilities.find? (fun g => g.1 = f.1) = some f := by
    decide
  unfold backed
  constructor
  · intro h
    cases hf : fieldCapabilities.find? (fun f => f.1 = field) with
    | none => rw [hf] at h; cases h
    | some f =>
        rw [hf] at h
        exact ⟨f, List.mem_of_find?_eq_some hf, by simpa using List.find?_some hf,
          by simpa using h⟩
  · intro ⟨f, hf, hfield, hc⟩
    rw [← hfield, hkeys f hf]
    simpa using hc

/-- The range of a field, if it has one. -/
def withinRange (field : String) (value : Json) : Bool :=
  match integerRanges.find? (fun f => f.1 = field) with
  | none => true
  | some f =>
    match value with
    | .int n => f.2.1 ≤ n ∧ n ≤ f.2.2
    | _ => false

theorem validValue_iff {field : String} {value : Json} :
    validValue field value = true ↔ value ≠ .null ∧
      (field ∈ booleanFields → ∃ b, value = .bool b) ∧
      ∀ f ∈ integerRanges, f.1 = field → ∃ n, value = .int n ∧ f.2.1 ≤ n ∧ n ≤ f.2.2 := by
  have hkeys : ∀ f ∈ integerRanges, integerRanges.find? (fun g => g.1 = f.1) = some f := by
    decide
  have hrange : withinRange field value = true ↔
      ∀ f ∈ integerRanges, f.1 = field → ∃ n, value = .int n ∧ f.2.1 ≤ n ∧ n ≤ f.2.2 := by
    unfold withinRange
    cases hf : integerRanges.find? (fun f => f.1 = field) with
    | none =>
        rw [List.find?_eq_none] at hf
        exact iff_of_true rfl fun f hmem hfield => absurd (by simpa using hfield) (hf f hmem)
    | some f =>
        have hmem := List.mem_of_find?_eq_some hf
        have hfield : f.1 = field := by simpa using List.find?_some hf
        have honly : ∀ g ∈ integerRanges, g.1 = field → g = f := fun g hg hgf => by
          have := hkeys g hg
          rw [hgf, hf] at this
          exact (Option.some.inj this).symm
        constructor
        · intro h g hg hgf
          rw [honly g hg hgf]
          cases value with
          | int n => exact ⟨n, rfl, by simpa using h⟩
          | _ => cases h
        · intro h
          obtain ⟨n, rfl, hn⟩ := h f hmem hfield
          simpa using hn
  have hbool : (!booleanFields.contains field || (Json.asBool (some value)).isSome) = true ↔
      (field ∈ booleanFields → ∃ b, value = .bool b) := by
    have hasBool : (Json.asBool (some value)).isSome = true ↔ ∃ b, value = .bool b := by
      cases value <;> simp [Json.asBool]
    rw [Bool.or_eq_true, hasBool, Bool.not_eq_true', ← Bool.not_eq_true, List.contains_iff_mem]
    exact imp_iff_not_or.symm
  by_cases hnull : value = .null
  · subst hnull
    exact iff_of_false (by simp [validValue]) fun h => h.1 rfl
  · rw [← hrange, ← hbool, ← Bool.and_eq_true, and_iff_right hnull]
    cases value with
    | null => exact absurd rfl hnull
    | _ => exact Iff.rfl

theorem validateReport_ok_iff {capabilities : List String} {state : DeviceState} :
    validateReport capabilities state = .ok () ↔
      ∀ m ∈ state, Reportable capabilities m.1 m.2 := by
  have hcap : validateCapabilities capabilities state = .ok () ↔
      ∀ m ∈ state, backed capabilities m.1 = true := by
    unfold validateCapabilities
    simp only [List.isEmpty_iff, List.filter_eq_nil_iff, List.mem_map, forall_exists_index,
      and_imp, forall_apply_eq_imp_iff₂, Bool.not_eq_true, Bool.not_eq_false']
    split
    · exact iff_of_true rfl ‹_›
    · exact iff_of_false (by simp) ‹_›
  have hval : validateValues state = .ok () ↔ ∀ m ∈ state, validValue m.1 m.2 = true := by
    unfold validateValues
    cases hf : state.find? fun m => !validValue m.1 m.2 with
    | none => exact iff_of_true rfl fun m hm => by simpa using List.find?_eq_none.mp hf m hm
    | some m =>
        refine iff_of_false (by simp) fun h => ?_
        have := List.find?_some hf
        simp [h m (List.mem_of_find?_eq_some hf)] at this
  have hboth : validateReport capabilities state = .ok () ↔
      validateCapabilities capabilities state = .ok () ∧ validateValues state = .ok () := by
    unfold validateReport
    cases validateCapabilities capabilities state with
    | ok u => exact (and_iff_right rfl).symm
    | error e => exact iff_of_false (fun h => by cases h) fun h => by cases h.1
  rw [hboth, hcap, hval, ← forall₂_and]
  refine forall₂_congr fun m _ => ?_
  rw [backed_iff, validValue_iff]
  constructor
  · intro h
    exact ⟨h.1, h.2.1, h.2.2.1, h.2.2.2⟩
  · intro h
    exact ⟨h.backed, h.present, h.boolean, h.inRange⟩

end StateValidator

open StateValidator StateReports

/-- The same site among other subscribers. -/
def Site.around {σ τ : Type} (w : Site σ) (outside : τ) : Site τ :=
  ⟨w.registry, w.states, w.ledger, w.recorded, w.port, outside⟩

/-- What an exact report makes of the stored state, and what it announces. -/
structure ExactReport (frame : StateFrame) (stored state : DeviceState)
    (events : List BusEvent) : Prop where
  reported : ∀ m ∈ frame.envelope.state, Json.Holds state m.1 m.2
  kept : ∀ key, key ∉ frame.envelope.state.map Prod.fst →
    Json.member state key = Json.member stored key
  silent : (∀ m ∈ frame.envelope.state, Json.Holds stored m.1 m.2) → events = []
  announced : (∃ m ∈ frame.envelope.state, ¬ Json.Holds stored m.1 m.2) →
    ∃ changed, events = [BusEvent.change frame.device (some frame.house) changed
        frame.envelope.correlationId 0] ∧
      ∀ m, m ∈ changed ↔ m ∈ frame.envelope.state ∧ ¬ Json.Holds stored m.1 m.2

/-- Some reported field may not be reported, or not with its value. -/
def Unreportable (capabilities : List String) (frame : StateFrame) : Prop :=
  ∃ m ∈ frame.envelope.state, ¬ Reportable capabilities m.1 m.2

/-- **The report is stored exactly and atomically**, whoever subscribes: a report with a
field that may not be reported raises and does nothing; any other report stores what an
exact report stores, and then publishes what an exact report announces. -/
structure ReportsExactly {σ : Type} (w : Site σ) (frame : StateFrame)
    (capabilities : List String) : Prop where
  refused : Unreportable capabilities frame →
    ∃ e, ∀ (τ : Type) (bus : EventBus (τ × Sources)) (outside : τ),
      (reportState bus frame).run (w.around outside) = (.error e, w.around outside)
  stored : ¬ Unreportable capabilities frame →
    ∃ state events, ExactReport frame (w.states frame.device) state events ∧
      ∀ (τ : Type) (bus : EventBus (τ × Sources)) (outside : τ),
        (reportState bus frame).run (w.around outside) =
          (forM events (publish bus)).run { w.around outside with
            states := Function.update w.states frame.device state }

/-- Python's `==` takes no reported value for a stored one that is another JSON value, and
no stored value for another one. -/
def ToldApart (stored patch : DeviceState) : Prop :=
  ∀ m ∈ patch, Json.pyEq (Json.getOrNull stored m.1) m.2 = true ↔ Json.Holds stored m.1 m.2

section Report

variable {σ τ : Type} {w : Site σ} {frame : StateFrame} {entity : Device}

/-- The events of a change. -/
def announcements (frame : StateFrame) (changed : DeviceState) : List BusEvent :=
  if changed.isEmpty then []
  else [BusEvent.change frame.device (some frame.house) changed frame.envelope.correlationId 0]

/-- A report that is refused. -/
theorem reportState_refused (hadm : w.registry.requireHouse frame.house frame.device = .ok entity)
    {e : Error} (h : validateReport entity.capabilities frame.envelope.state = .error e)
    (bus : EventBus (τ × Sources)) (outside : τ) :
    (reportState bus frame).run (w.around outside) = (.error e, w.around outside) := by
  have hhouse : (requireHouse frame.house frame.device).run (w.around outside) =
      (.ok entity, w.around outside) := by
    simp only [requireHouse, Call.run_bind_self, Call.run_lift, Site.around, hadm]
  unfold reportState
  rw [Call.run_bind_of_ok hhouse, Call.run_bind, Call.run_lift, h]

/-- **What `report_state` does** with a report that passes its checks: it merges what `==`
tells from the stored state, and announces that. -/
theorem reportState_stored (hadm : w.registry.requireHouse frame.house frame.device = .ok entity)
    (h : validateReport entity.capabilities frame.envelope.state = .ok ())
    (bus : EventBus (τ × Sources)) (outside : τ) :
    (reportState bus frame).run (w.around outside) =
      (forM (announcements frame (Json.changes (w.states frame.device)
          frame.envelope.state)) (publish bus)).run
        { w.around outside with
          states := Function.update w.states frame.device
            (Json.merge (w.states frame.device)
              (Json.changes (w.states frame.device) frame.envelope.state)) } := by
  have hrun : (requireHouse frame.house frame.device).run (w.around outside) =
      (.ok entity, w.around outside) := by
    simp only [requireHouse, Call.run_bind_self, Call.run_lift, Site.around, hadm]
  have hhouse : (w.around outside).registry.houseId frame.device = .ok (some frame.house) :=
    (Registry.requireHouse_ok hadm).2
  unfold reportState
  rw [Call.run_bind_of_ok hrun, Call.run_bind_of_ok (Call.run_lift_ok.mpr ⟨h, rfl⟩)]
  simp only [persistState, Call.run_bind_self]
  generalize hc : Json.changes (w.states frame.device) frame.envelope.state = changed
  have hc' : Json.changes ((w.around outside).states frame.device) frame.envelope.state = changed :=
    hc
  rw [hc']
  cases changed with
  | nil =>
      rw [Json.merge_nil, Function.update_eq_self]
      rfl
  | cons m rest =>
      rw [if_neg (by simp), Call.run_bind_update,
        Call.run_bind_of_ok (Call.run_lift_ok.mpr ⟨hhouse, rfl⟩)]
      have hone : announcements frame (m :: rest) = [BusEvent.change frame.device
          (some frame.house) (m :: rest) frame.envelope.correlationId 0] := rfl
      rw [hone, Call.run_forM_one]
      rfl

/-- A change is stored, and what is no change is left alone. -/
theorem member_persisted (stored : DeviceState) {patch : DeviceState}
    (hn : (patch.map Prod.fst).Nodup) {m : String × Json} (hm : m ∈ patch) :
    Json.member (Json.merge stored (Json.changes stored patch)) m.1 =
      if Json.pyEq (Json.getOrNull stored m.1) m.2 then Json.member stored m.1 else some m.2 := by
  rw [Json.member_merge]
  by_cases heq : Json.pyEq (Json.getOrNull stored m.1) m.2 = true
  · have hnone : Json.member (Json.changes stored patch) m.1 = none := by
      refine Json.member_eq_none.mpr fun hmem => ?_
      obtain ⟨m', hm', hkey⟩ := List.mem_map.mp hmem
      obtain ⟨hp, hne⟩ := Json.mem_changes.mp hm'
      rw [List.inj_on_of_nodup_map hn hp hm hkey] at hne
      exact hne heq
    rw [hnone, if_pos heq, Option.none_or]
  · have hsome : Json.member (Json.changes stored patch) m.1 = some m.2 :=
      Json.member_of_mem (Json.changes_nodup hn) (Json.mem_changes.mpr ⟨hm, heq⟩)
    rw [hsome, if_neg heq, Option.some_or]

/-- A patch that is told apart from the stored state is stored and announced exactly. -/
theorem ToldApart.exact {stored : DeviceState} (h : ToldApart stored frame.envelope.state)
    (hn : (frame.envelope.state.map Prod.fst).Nodup) :
    ExactReport frame stored (Json.merge stored (Json.changes stored frame.envelope.state))
      (announcements frame (Json.changes stored frame.envelope.state)) := by
  have hchange : ∀ m, m ∈ Json.changes stored frame.envelope.state ↔
      m ∈ frame.envelope.state ∧ ¬ Json.Holds stored m.1 m.2 := fun m => by
    rw [Json.mem_changes]
    exact and_congr_right fun hm => not_congr (h m hm)
  constructor
  · intro m hm
    rw [Json.Holds, member_persisted stored hn hm]
    by_cases heq : Json.pyEq (Json.getOrNull stored m.1) m.2 = true
    · rw [if_pos heq]
      exact (h m hm).mp heq
    · rw [if_neg heq]
      exact ⟨m.2, rfl, Json.Same.refl m.2⟩
  · intro key hkey
    have hnone : Json.member (Json.changes stored frame.envelope.state) key = none :=
      Json.member_eq_none.mpr fun hmem => by
        obtain ⟨m, hm, rfl⟩ := List.mem_map.mp hmem
        exact hkey (List.mem_map_of_mem (Json.mem_changes.mp hm).1)
    rw [Json.member_merge, hnone, Option.none_or]
  · intro hall
    have hnil : Json.changes stored frame.envelope.state = [] :=
      List.eq_nil_iff_forall_not_mem.mpr fun m hm =>
        ((hchange m).mp hm).2 (hall m ((hchange m).mp hm).1)
    rw [hnil]
    rfl
  · intro ⟨m, hm, hnot⟩
    have hmem := (hchange m).mpr ⟨hm, hnot⟩
    refine ⟨Json.changes stored frame.envelope.state, ?_, hchange⟩
    rw [announcements, if_neg (by
      intro hnil
      rw [List.isEmpty_iff.mp hnil] at hmem
      cases hmem)]

/-! ### Listening to a report -/

/-- A bus whose only subscriber writes the events down. -/
def EventBus.recorder : EventBus (List BusEvent × Sources) :=
  ⟨[fun event => Call.update fun s => (s.1 ++ [event], s.2)]⟩

/-- The recorder hears what is published. -/
theorem run_recorder (events : List BusEvent) (w : Site (List BusEvent)) :
    (forM events (publish .recorder)).run w =
      (.ok (), { w with outside := w.outside ++ events }) := by
  induction events generalizing w with
  | nil => rw [List.append_nil]; rfl
  | cons event rest ih =>
      have hone : (publish .recorder event).run w =
          (.ok (), { w with outside := w.outside ++ [event] }) := rfl
      rw [List.forM_cons, Call.run_bind_of_ok hone, ih, List.append_assoc]
      rfl

/-- What was stored and announced shows what was told apart. -/
theorem ExactReport.toldApart {stored state : DeviceState} {events : List BusEvent}
    (h : ExactReport frame stored state events) (hn : (frame.envelope.state.map Prod.fst).Nodup)
    (hstate : Json.merge stored (Json.changes stored frame.envelope.state) = state)
    (hevents : announcements frame (Json.changes stored frame.envelope.state) = events) :
    ToldApart stored frame.envelope.state := by
  subst hstate hevents
  intro m hm
  have hstored := h.reported m hm
  rw [Json.Holds, member_persisted stored hn hm] at hstored
  constructor
  · intro heq
    rw [if_pos heq] at hstored
    exact hstored
  · intro hholds
    by_contra hne
    have hmem : m ∈ Json.changes stored frame.envelope.state := Json.mem_changes.mpr ⟨hm, hne⟩
    -- the event of the change carries a member the state held already
    have hsome : announcements frame (Json.changes stored frame.envelope.state) =
        [BusEvent.change frame.device (some frame.house)
          (Json.changes stored frame.envelope.state) frame.envelope.correlationId 0] := by
      rw [announcements, if_neg (fun hnil => by
        rw [List.isEmpty_iff.mp hnil] at hmem
        cases hmem)]
    by_cases hall : ∀ m ∈ frame.envelope.state, Json.Holds stored m.1 m.2
    · have := h.silent hall
      rw [hsome] at this
      cases this
    · simp only [not_forall] at hall
      obtain ⟨m', hm', hnot⟩ := hall
      obtain ⟨changed, hone, hchanged⟩ := h.announced ⟨m', hm', hnot⟩
      rw [hsome] at hone
      have hdata : Json.changes stored frame.envelope.state = changed :=
        congrArg BusEvent.state (List.cons.inj hone).1
      rw [hdata] at hmem
      exact ((hchanged m).mp hmem).2 hholds

theorem not_unreportable_iff : ¬ Unreportable entity.capabilities frame ↔
    validateReport entity.capabilities frame.envelope.state = .ok () := by
  rw [validateReport_ok_iff, Unreportable]
  simp only [not_exists, not_and, not_not]

/-- A recorder on the bus shows what an exact report told apart. -/
theorem ReportsExactly.toldApart (h : ReportsExactly w frame entity.capabilities)
    (hadm : w.registry.requireHouse frame.house frame.device = .ok entity)
    (hn : (frame.envelope.state.map Prod.fst).Nodup)
    (hun : ¬ Unreportable entity.capabilities frame) :
    ToldApart (w.states frame.device) frame.envelope.state := by
  obtain ⟨state, events, hexact, hruns⟩ := h.stored hun
  have hrun := reportState_stored hadm (not_unreportable_iff.mp hun) .recorder []
  have hlisten := hrun.symm.trans (hruns _ .recorder [])
  rw [run_recorder, run_recorder, Prod.mk.injEq] at hlisten
  have hstate := congrFun (congrArg Site.states hlisten.2) frame.device
  have hevents : announcements frame (Json.changes (w.states frame.device)
      frame.envelope.state) = events := congrArg Site.outside hlisten.2
  simp only [Function.update_self] at hstate
  exact hexact.toldApart hn hstate hevents

end Report

/-- **Exact and atomic state reports.** A report of an admitted device is stored exactly and
atomically if and only if it is refused, or `==` tells its values apart from the stored
ones as JSON does. -/
theorem reports_exactly_iff {σ : Type} (w : Site σ) (frame : StateFrame) (entity : Device)
    (hadm : w.registry.requireHouse frame.house frame.device = .ok entity)
    (hn : (frame.envelope.state.map Prod.fst).Nodup) :
    ReportsExactly w frame entity.capabilities ↔
      Unreportable entity.capabilities frame ∨
        ToldApart (w.states frame.device) frame.envelope.state := by
  by_cases hun : Unreportable entity.capabilities frame
  · refine iff_of_true ⟨fun _ => ?_, fun h => absurd hun h⟩ (.inl hun)
    cases hv : validateReport entity.capabilities frame.envelope.state with
    | ok u => exact absurd hun (not_unreportable_iff.mpr hv)
    | error e => exact ⟨e, fun τ bus outside => reportState_refused hadm hv bus outside⟩
  · constructor
    · intro h
      exact .inr (h.toldApart hadm hn hun)
    · intro h
      obtain h | h := h
      · exact absurd h hun
      · exact ⟨fun h => absurd h hun, fun _ => ⟨_, _, h.exact hn,
          fun τ bus outside => reportState_stored hadm (not_unreportable_iff.mp hun) bus outside⟩⟩

/-! ### A lamp that was created with a number for a boolean -/

namespace Household

/-- The lamp as an administrator created it, with `{"on": 1}`. -/
def numbered : Site Unit := { site with states := fun _ => [("on", .int 1)] }

theorem report_reportable : ¬ Unreportable ["on_off"] report := by
  unfold Unreportable
  rw [not_exists]
  intro m ⟨hm, hnot⟩
  obtain rfl := List.mem_singleton.mp hm
  refine hnot ⟨⟨("on", "on_off"), by decide, rfl, by decide⟩, nofun, fun _ => ⟨true, rfl⟩, ?_⟩
  intro f hf hfield
  have hnone : ∀ f ∈ integerRanges, f.1 ≠ "on" := by decide
  exact absurd hfield (hnone f hf)

end Household

open Household in
theorem reports_exactly_iff_lamp :
    site.registry.requireHouse report.house report.device =
        .ok ⟨"lamp", "hall", "relay", ["on_off"], true⟩ ∧
      (ReportsExactly site report ["on_off"] ↔
        Unreportable ["on_off"] report ∨
          ToldApart (site.states report.device) report.envelope.state) :=
  ⟨rfl, reports_exactly_iff site report ⟨"lamp", "hall", "relay", ["on_off"], true⟩ rfl (by decide)⟩

open Household in
/-- The lamp reports `{"on": true}`, and Core keeps the number that `create` let in. -/
theorem report_dropped_lamp :
    StateValidator.validateCapabilities ["on_off"] (numbered.states "lamp") = .ok () ∧
      ¬ Unreportable ["on_off"] report ∧ ¬ ReportsExactly numbered report ["on_off"] := by
  refine ⟨rfl, report_reportable, fun h => ?_⟩
  have hadm : numbered.registry.requireHouse report.house report.device =
      .ok ⟨"lamp", "hall", "relay", ["on_off"], true⟩ := rfl
  have htold := h.toldApart hadm (by decide) report_reportable
  obtain ⟨x, hx, hsame⟩ := (htold ("on", .bool true) (.head _)).mp (by decide)
  cases hx
  cases hsame

end KzHome

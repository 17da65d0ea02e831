import Scenara.Release.Rows

/-!
# Supersession in the table of releases
-/

namespace Scenara.Release

open Scenara.Core

variable {rows : Rows} {scan : Scan} {key k : Key} {row current other : ReleaseRow}
    {r : ModelRelease}
  {target : ModelReleaseStatus} {rollback : Bool} {now : ℚ} {scope : Scope} {capability : String}

/-! ## Rows -/

/-- The row is ACTIVE for the capability. -/
structure LiveRow (rows : Rows) (scope : Scope) (capability : String) (k : Key) (row : ReleaseRow) :
    Prop where
  stored : rows.get? k = some row
  scope_eq : k.scope = scope
  capability_eq : row.capability = capability
  active : row.status = .active

/-- The columns of every row are those of its document. -/
def Columns (rows : Rows) : Prop :=
  ∀ k row, rows.get? k = some row → row.document.key = k ∧
    row.capability = row.document.capability ∧ row.status = row.document.status

/-- At most one row is ACTIVE for a tenant, project and capability. -/
def OneLiveRow (rows : Rows) : Prop :=
  ∀ {scope capability k k' row row'}, LiveRow rows scope capability k row →
    LiveRow rows scope capability k' row' → k = k'

theorem violates_iff : rows.violates key row = true ↔
    row.status = .active ∧ ∃ k other, LiveRow rows key.scope row.capability k other ∧ k ≠ key := by
  simp only [Rows.violates, Bool.and_eq_true, decide_eq_true_eq, List.any_eq_true, Prod.exists,
    Dict.mem_entries]
  constructor
  · rintro ⟨hactive, k, other, hstored, ⟨⟨hne, hscope⟩, hcapability⟩, hother⟩
    exact ⟨hactive, k, other, ⟨hstored, hscope, hcapability, hother⟩, hne⟩
  · rintro ⟨hactive, k, other, ⟨hstored, hscope, hcapability, hother⟩, hne⟩
    exact ⟨hactive, k, other, hstored, ⟨⟨hne, hscope⟩, hcapability⟩, hother⟩

@[simp] theorem get?_set (rows : Rows) (key k : Key) (row : ReleaseRow) :
    (rows.set key row).get? k = if k = key then some row else rows.get? k :=
  Dict.get?_insert _ _ _ _

theorem updateRow_of_some {document : ModelRelease} (hrow : rows.get? k = some row) :
    rows.updateRow k document =
      if rows.violates k { row with status := document.status, document } then
        .error Rows.uniqueViolation
      else .ok (rows.set k { row with status := document.status, document }) := by
  unfold Rows.updateRow
  rw [hrow]

theorem updateRow_eq {document : ModelRelease} (hrow : rows.get? k = some row)
    (hone : document.status = .active → ∀ l other,
      LiveRow rows k.scope row.capability l other → l = k) :
    rows.updateRow k document =
      .ok (rows.set k { row with status := document.status, document }) := by
  rw [updateRow_of_some hrow]
  refine if_neg fun hviolates => ?_
  obtain ⟨hactive, l, other, hlive, hne⟩ := violates_iff.1 hviolates
  exact hne (hone hactive l other hlive)

/-! ## The transition of a table -/

theorem mem_selected (hcurrent : rows.get? key = some current) (e : Key × ReleaseRow) :
    e ∈ rows.selected scan key ↔
      rows.get? e.1 = some e.2 ∧ e.1.scope = key.scope ∧ e.2.capability = current.capability := by
  rw [Rows.selected, (scan.perm _).mem_iff, List.mem_filter, hcurrent, Dict.mem_entries]
  simp

theorem lookup_selected :
    ((rows.selected scan key).map fun e => (e.1, e.2.document)).lookup key =
      (rows.get? key).map ReleaseRow.document := by
  have hnodup : (((rows.selected scan key).map fun e => (e.1, e.2.document)).map
      Prod.fst).Nodup := by
    rw [List.map_map]
    refine ((scan.perm _).map _).nodup_iff.2 ?_
    exact (rows.nodup.sublist (List.filter_sublist.map _))
  cases hcurrent : rows.get? key with
  | none =>
    rw [Option.map_none, List.lookup_eq_none_iff]
    intro e he
    obtain ⟨e, hselected, rfl⟩ := List.mem_map.1 he
    rw [Rows.selected, (scan.perm _).mem_iff, List.mem_filter, hcurrent] at hselected
    simp at hselected
  | some current =>
    refine (mem_iff_lookup key current.document hnodup).1 (List.mem_map.2 ⟨(key, current), ?_, rfl⟩)
    exact (mem_selected hcurrent _).2 ⟨hcurrent, rfl, rfl⟩

theorem previous_eq_some (hcolumns : Columns rows) (hcurrent : rows.get? key = some current)
    (h : Rows.previous key ((rows.selected scan key).map fun e => (e.1, e.2.document)) = some r) :
    ∃ k other, LiveRow rows key.scope current.capability k other ∧ k ≠ key ∧
      r = other.document := by
  have hmem := List.mem_of_find?_eq_some h
  have hp := List.find?_some h
  simp only [Bool.and_eq_true, decide_eq_true_eq] at hp
  rw [List.map_map] at hmem
  obtain ⟨⟨k, other⟩, hselected, rfl⟩ := List.mem_map.1 hmem
  obtain ⟨hstored, hscope, hcapability⟩ := (mem_selected hcurrent _).1 hselected
  obtain ⟨hkey, -, hstatus⟩ := hcolumns k other hstored
  refine ⟨k, other, ⟨hstored, hscope, hcapability, hstatus.trans hp.2⟩, fun hk => hp.1 ?_, rfl⟩
  show (other.document.key.modelId, other.document.key.version) = _
  rw [hkey, hk]

theorem previous_eq_none (hcolumns : Columns rows) (hcurrent : rows.get? key = some current)
    (h : Rows.previous key ((rows.selected scan key).map fun e => (e.1, e.2.document)) = none)
    (hlive : LiveRow rows key.scope current.capability k row) : k = key := by
  obtain ⟨hkey, -, hstatus⟩ := hcolumns k row hlive.stored
  have hmem : row.document ∈ (((rows.selected scan key).map fun e => (e.1, e.2.document)).map
      Prod.snd) := by
    rw [List.map_map]
    exact List.mem_map.2 ⟨(k, row), (mem_selected hcurrent _).2
      ⟨hlive.stored, hlive.scope_eq, hlive.capability_eq⟩, rfl⟩
  have hno := List.find?_eq_none.1 h row.document hmem
  simp only [Bool.and_eq_true, decide_eq_true_eq, hkey, ← hstatus, hlive.active, and_true,
    not_not, Prod.mk.injEq] at hno
  obtain ⟨⟨scope, _⟩, hscope⟩ : ∃ k', k' = k := ⟨k, rfl⟩
  subst hscope
  obtain ⟨scope', _⟩ := key
  obtain ⟨rfl, rfl⟩ := hno
  obtain rfl : scope = scope' := hlive.scope_eq
  rfl

theorem transition_missing (hnone : rows.get? key = none) :
    rows.transitionRelease scan key target rollback now =
      .error (.notFound "model release not found") := by
  unfold Rows.transitionRelease
  simp [lookup_selected, hnone]

/-- The release that `transition_release` is to retire. -/
def toRetire (rows : Rows) (scan : Scan) (key : Key) (target : ModelReleaseStatus) (now : ℚ) :
    Option ModelRelease :=
  if target = .active then
    (Rows.previous key ((rows.selected scan key).map fun e => (e.1, e.2.document))).map
      fun other => other.retire now
  else none

theorem transition_eq (hcurrent : rows.get? key = some current) :
    rows.transitionRelease scan key target rollback now =
      (validateReleaseTransition current.document.status target rollback).bind fun _ =>
        (rows.retireRow key (toRetire rows scan key target now)).bind fun rows' =>
          (rows'.updateRow key (current.document.moveTo target now)).map fun rows' =>
            ⟨rows', current.document.moveTo target now, toRetire rows scan key target now⟩ := by
  unfold Rows.transitionRelease
  simp only [lookup_selected, hcurrent, Option.map_some]
  rfl

theorem transition_invalid {e : FeedbackError} (hcurrent : rows.get? key = some current)
    (hinvalid : validateReleaseTransition current.document.status target rollback = .error e) :
    rows.transitionRelease scan key target rollback now = .error e := by
  rw [transition_eq hcurrent, hinvalid]
  rfl

/-- The row after the transition. -/
def ReleaseRow.moveTo (row : ReleaseRow) (target : ModelReleaseStatus) (now : ℚ) : ReleaseRow :=
  { row with status := target, document := row.document.moveTo target now }

/-- The row after another one has superseded it. -/
def ReleaseRow.retire (row : ReleaseRow) (now : ℚ) : ReleaseRow :=
  { row with status := .retired, document := row.document.retire now }

theorem transition_alone (scan : Scan) (now : ℚ) (hcolumns : Columns rows)
    (hcurrent : rows.get? key = some current)
    (hvalid : validateReleaseTransition current.document.status target rollback = .ok ())
    (halone : target = .active → ∀ k other,
      LiveRow rows key.scope current.capability k other → k = key) :
    ∃ updated, rows.transitionRelease scan key target rollback now =
      .ok ⟨rows.set key (current.moveTo target now), updated, none⟩ := by
  have hnone : toRetire rows scan key target now = none := by
    unfold toRetire
    split
    · rename_i htarget
      cases hprevious : Rows.previous key
          ((rows.selected scan key).map fun e => (e.1, e.2.document)) with
      | none => rfl
      | some r =>
        obtain ⟨k, other, hlive, hne, -⟩ := previous_eq_some hcolumns hcurrent hprevious
        exact absurd (halone htarget k other hlive) hne
    · rfl
  refine ⟨current.document.moveTo target now, ?_⟩
  rw [transition_eq hcurrent, hvalid, hnone]
  have hupdate : rows.updateRow key (current.document.moveTo target now) =
      .ok (rows.set key (current.moveTo target now)) :=
    updateRow_eq hcurrent fun htarget k other hlive => halone htarget k other hlive
  show ((rows.updateRow key _).map _ : Except FeedbackError Rows.Transitioned) = _
  rw [hupdate]
  rfl

theorem toRetire_eq (hcolumns : Columns rows) (hone : OneLiveRow rows)
    (hcurrent : rows.get? key = some current)
    (hlive : LiveRow rows key.scope current.capability k other) (hne : k ≠ key) :
    toRetire rows scan key .active now = some (other.document.retire now) := by
  unfold toRetire
  rw [if_pos rfl, Option.map_eq_some_iff]
  cases hprevious : Rows.previous key
      ((rows.selected scan key).map fun e => (e.1, e.2.document)) with
  | none => exact absurd (previous_eq_none hcolumns hcurrent hprevious hlive) hne
  | some r =>
    obtain ⟨_, _, hlive', -, rfl⟩ := previous_eq_some hcolumns hcurrent hprevious
    obtain rfl := hone hlive hlive'
    have heq := hlive.stored.symm.trans hlive'.stored
    exact ⟨_, rfl, by rw [Option.some.inj heq]⟩

theorem transition_superseding (scan : Scan) (now : ℚ) (hcolumns : Columns rows)
    (hone : OneLiveRow rows) (hcurrent : rows.get? key = some current)
    (hvalid : validateReleaseTransition current.document.status .active rollback = .ok ())
    (hlive : LiveRow rows key.scope current.capability k other) (hne : k ≠ key)
    (hmodel : k.modelId = key.modelId) :
    ∃ updated previous, rows.transitionRelease scan key .active rollback now =
      .ok ⟨(rows.set k (other.retire now)).set key (current.moveTo .active now), updated,
        some previous⟩ := by
  have hretire : rows.retireRow key (some (other.document.retire now)) =
      .ok (rows.set k (other.retire now)) := by
    have hk : (⟨key.scope, key.modelId, other.document.key.version⟩ : Key) = k := by
      rw [(hcolumns k other hlive.stored).1, ← hlive.scope_eq, ← hmodel]
    show rows.updateRow ⟨key.scope, key.modelId, other.document.key.version⟩ _ = _
    rw [hk]
    exact updateRow_eq hlive.stored fun hactive => by cases hactive
  have hupdate : (rows.set k (other.retire now)).updateRow key
      (current.document.moveTo .active now) =
      .ok ((rows.set k (other.retire now)).set key (current.moveTo .active now)) := by
    refine updateRow_eq (by rw [get?_set, if_neg (Ne.symm hne), hcurrent]) fun _ l row hrow => ?_
    have hstored := hrow.stored
    rw [get?_set] at hstored
    split at hstored
    · obtain rfl := Option.some.inj hstored
      cases hrow.active
    · rename_i hl
      exact absurd (hone ⟨hstored, hrow.scope_eq, hrow.capability_eq, hrow.active⟩ hlive) hl
  refine ⟨current.document.moveTo .active now, other.document.retire now, ?_⟩
  rw [transition_eq hcurrent, hvalid, toRetire_eq hcolumns hone hcurrent hlive hne]
  rw [hretire]
  show ((Rows.updateRow _ key _).map _ : Except FeedbackError Rows.Transitioned) = _
  rw [hupdate]
  rfl

/-- **A transition that supersedes a release of another model** raises: the `UPDATE` of the previous
release has the model of the current one, and the previous release stays ACTIVE. -/
theorem transition_violating (scan : Scan) (now : ℚ) (hcolumns : Columns rows)
    (hone : OneLiveRow rows) (hcurrent : rows.get? key = some current)
    (hvalid : validateReleaseTransition current.document.status .active rollback = .ok ())
    (hlive : LiveRow rows key.scope current.capability k other) (hmodel : k.modelId ≠ key.modelId) :
    rows.transitionRelease scan key .active rollback now = .error Rows.uniqueViolation := by
  have hne : k ≠ key := fun heq => hmodel (congrArg Key.modelId heq)
  have hviolating : ∀ (rows' : Rows) (current' : ReleaseRow), rows'.get? key = some current' →
      current'.capability = current.capability → rows'.get? k = some other →
      rows'.updateRow key (current.document.moveTo .active now) =
        .error Rows.uniqueViolation := by
    intro _ _ hcurrent' hcapability hk
    rw [updateRow_of_some hcurrent']
    refine if_pos (violates_iff.2 ⟨rfl, k, other, ⟨hk, hlive.scope_eq, ?_, hlive.active⟩, hne⟩)
    exact hlive.capability_eq.trans hcapability.symm
  rw [transition_eq hcurrent, hvalid, toRetire_eq hcolumns hone hcurrent hlive hne]
  show ((rows.updateRow _ _).bind _ : Except FeedbackError Rows.Transitioned) = _
  generalize hwrong : (⟨key.scope, key.modelId, (other.document.retire now).key.version⟩ :
    Key) = wrong
  have hk : k ≠ wrong := fun heq => hmodel ((congrArg Key.modelId heq).trans (by rw [← hwrong]))
  cases hrow : rows.get? wrong with
  | none =>
    have hretire : rows.updateRow wrong (other.document.retire now) = .ok rows := by
      unfold Rows.updateRow
      rw [hrow]
    rw [hretire]
    show ((rows.updateRow key _).map _ : Except FeedbackError Rows.Transitioned) = _
    rw [hviolating rows current hcurrent rfl hlive.stored]
    rfl
  | some =>
    rw [updateRow_eq hrow fun hactive => by cases hactive]
    show ((Rows.updateRow _ key _).map _ : Except FeedbackError Rows.Transitioned) = _
    by_cases hself : key = wrong
    · subst hself
      rw [hviolating _ _ (by rw [get?_set, if_pos rfl])
        (by rw [Option.some.inj (hrow.symm.trans hcurrent)])
        (by rw [get?_set, if_neg hk, hlive.stored])]
      rfl
    · rw [hviolating _ current (by rw [get?_set, if_neg hself, hcurrent]) rfl
        (by rw [get?_set, if_neg hk, hlive.stored])]
      rfl

end Scenara.Release

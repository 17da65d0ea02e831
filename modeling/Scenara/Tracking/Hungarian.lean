import Mathlib.Order.Interval.Finset.Nat
import Scenara.Core.Assignment
import Scenara.Tracking.Model

/-!
# The Hungarian method

`assignRow` adds one row to a matching of rows and columns, `assignRows` all of them. The potentials
stay below the cost and are tight on the matching (`Assigned`), so the last matching is of least
cost (`assignRows_assigned`, with `Scenara.Core.gain_le_of_tight`).

* `Growing`: the tree of tight edges that the first `while` loop grows from the new row. One turn
  adds a column to it (`growing_turn`); there is always one left (`exists_unused`), so the loop
  ends at a free column (`search_grown`).
-/

namespace Scenara.Tracking

open Scenara.Core

variable {cost : Nat → Nat → ℚ} {size row : Nat} {m : Nat → Nat} {t : Search}
variable {c : Nat}

theorem mem_columns : c ∈ columns size ↔ 1 ≤ c ∧ c ≤ size := by
  unfold columns
  rw [List.mem_range'_1]
  omega

theorem nodup_columns : (columns size).Nodup := List.nodup_range'

theorem zero_not_mem_columns : 0 ∉ columns size := fun h => by
  have := (mem_columns.1 h).1
  omega

/-- The reduced cost, rows and columns counted from 1. -/
def reduced (cost : Nat → Nat → ℚ) (u v : Nat → ℚ) (r c : Nat) : ℚ :=
  cost (r - 1) (c - 1) - u r - v c

/-! ## Looking for the next column -/

section Scan

variable (used : Nat → Bool) (current : Nat → ℚ) (column : Nat)

theorem scanColumn_other (s : Scan) {c d : Nat} (h : d ≠ c) :
    (scanColumn used current column s c).minValues d = s.minValues d ∧
      (scanColumn used current column s c).predecessor d = s.predecessor d := by
  unfold scanColumn
  split
  · exact ⟨rfl, rfl⟩
  · dsimp only
    split <;> split <;> simp [Function.update_of_ne h]

theorem scanColumn_used (s : Scan) (h : used c = true) :
    scanColumn used current column s c = s := by
  unfold scanColumn
  rw [if_pos h]

theorem scanColumn_self (s : Scan) (h : used c = false) :
    (scanColumn used current column s c).minValues c = min (s.minValues c) (current c) ∧
      (scanColumn used current column s c).predecessor c =
        (if (current c : WithTop ℚ) < s.minValues c then column else s.predecessor c) ∧
      (scanColumn used current column s c).delta =
        min s.delta ((scanColumn used current column s c).minValues c) ∧
      ((scanColumn used current column s c).delta = s.delta ∧
          (scanColumn used current column s c).nextColumn = s.nextColumn ∨
        (scanColumn used current column s c).delta =
            (scanColumn used current column s c).minValues c ∧
          (scanColumn used current column s c).nextColumn = c) := by
  unfold scanColumn
  rw [if_neg (by simp [h])]
  by_cases hc : (current c : WithTop ℚ) < s.minValues c
  · rw [if_pos hc, if_pos hc]
    simp only [Function.update_self]
    by_cases hd : (current c : WithTop ℚ) < s.delta
    · rw [if_pos hd]
      simp [min_eq_right hc.le, min_eq_right hd.le]
    · rw [if_neg hd]
      simp [min_eq_right hc.le, min_eq_left (not_lt.1 hd)]
  · rw [if_neg hc, if_neg hc]
    by_cases hd : s.minValues c < s.delta
    · rw [if_pos hd]
      simp [min_eq_left (not_lt.1 hc), min_eq_right hd.le]
    · rw [if_neg hd]
      simp [min_eq_left (not_lt.1 hc), min_eq_left (not_lt.1 hd)]

/-- What the loop leaves, over the columns `cs`. -/
structure Scanned (used : Nat → Bool) (current : Nat → ℚ) (column : Nat) (cs : List Nat)
    (s s' : Scan) : Prop where
  other : ∀ c, c ∉ cs ∨ used c = true →
    s'.minValues c = s.minValues c ∧ s'.predecessor c = s.predecessor c
  minValues : ∀ c ∈ cs, used c = false → s'.minValues c = min (s.minValues c) (current c)
  predecessor : ∀ c ∈ cs, used c = false → s'.predecessor c =
    if (current c : WithTop ℚ) < s.minValues c then column else s.predecessor c
  delta_le : s'.delta ≤ s.delta ∧ ∀ c ∈ cs, used c = false → s'.delta ≤ s'.minValues c
  next : s'.delta = s.delta ∧ s'.nextColumn = s.nextColumn ∨
    s'.nextColumn ∈ cs ∧ used s'.nextColumn = false ∧ s'.delta = s'.minValues s'.nextColumn

theorem scan_spec (cs : List Nat) (hnodup : cs.Nodup) (s : Scan) :
    Scanned used current column cs s (cs.foldl (scanColumn used current column) s) := by
  induction cs generalizing s with
  | nil => exact ⟨fun _ _ => ⟨rfl, rfl⟩, by simp, by simp, ⟨le_rfl, by simp⟩, .inl ⟨rfl, rfl⟩⟩
  | cons c cs ih =>
    rw [List.nodup_cons] at hnodup
    rw [List.foldl_cons]
    have hrest := ih hnodup.2 (scanColumn used current column s c)
    generalize hs' : cs.foldl (scanColumn used current column)
      (scanColumn used current column s c) = s' at hrest
    have hne : ∀ d ∈ cs, d ≠ c := fun d hd he => hnodup.1 (he ▸ hd)
    cases hused : used c with
    | true =>
      rw [scanColumn_used used current column s hused] at hrest
      refine ⟨fun d hd => hrest.other d ?_, ?_, ?_, ⟨hrest.delta_le.1, ?_⟩, ?_⟩
      · exact hd.imp_left fun h hin => h (List.mem_cons_of_mem c hin)
      · intro d hd hfree
        rcases List.mem_cons.1 hd with rfl | hd
        · rw [hused] at hfree; cases hfree
        · exact hrest.minValues d hd hfree
      · intro d hd hfree
        rcases List.mem_cons.1 hd with rfl | hd
        · rw [hused] at hfree; cases hfree
        · exact hrest.predecessor d hd hfree
      · intro d hd hfree
        rcases List.mem_cons.1 hd with rfl | hd
        · rw [hused] at hfree; cases hfree
        · exact hrest.delta_le.2 d hd hfree
      · exact hrest.next.imp_right fun h => ⟨List.mem_cons_of_mem c h.1, h.2⟩
    | false =>
      obtain ⟨hmin, hpred, hdelta, hnext⟩ := scanColumn_self used current column s hused
      have hkeep := hrest.other c (.inl hnodup.1)
      refine ⟨fun d hd => ?_, ?_, ?_, ⟨?_, ?_⟩, ?_⟩
      · have hdc : d ≠ c := by
          rintro rfl
          exact hd.elim (fun h => h List.mem_cons_self) fun h => by rw [hused] at h; cases h
        have hother := scanColumn_other used current column s hdc
        have hrestd := hrest.other d (hd.imp_left fun h hin => h (List.mem_cons_of_mem c hin))
        exact ⟨hrestd.1.trans hother.1, hrestd.2.trans hother.2⟩
      · intro d hd hfree
        rcases List.mem_cons.1 hd with rfl | hd
        · rw [hkeep.1, hmin]
        · rw [hrest.minValues d hd hfree, (scanColumn_other used current column s (hne d hd)).1]
      · intro d hd hfree
        rcases List.mem_cons.1 hd with rfl | hd
        · rw [hkeep.2, hpred]
        · have hother := scanColumn_other used current column s (hne d hd)
          rw [hrest.predecessor d hd hfree, hother.1, hother.2]
      · exact hrest.delta_le.1.trans (hdelta ▸ min_le_left _ _)
      · intro d hd hfree
        rcases List.mem_cons.1 hd with rfl | hd
        · rw [hkeep.1]
          exact hrest.delta_le.1.trans (hdelta ▸ min_le_right _ _)
        · exact hrest.delta_le.2 d hd hfree
      · rcases hrest.next with ⟨hd, hn⟩ | ⟨hin, hfree, hd⟩
        · rcases hnext with ⟨hd', hn'⟩ | ⟨hd', hn'⟩
          · exact .inl ⟨hd.trans hd', hn.trans hn'⟩
          · right
            rw [hn, hn']
            exact ⟨List.mem_cons_self, hused, by rw [hd, hd', hkeep.1]⟩
        · exact .inr ⟨List.mem_cons_of_mem c hin, hfree, hd⟩

end Scan

theorem foldl_raise (m : Nat → Nat) (used : Nat → Bool) (delta : ℚ) (u : Nat → ℚ) (cs : List Nat)
    (hnodup : cs.Nodup) (hinj : ∀ c ∈ cs, ∀ d ∈ cs, used c → used d → m c = m d → c = d) (r : Nat) :
    cs.foldl (fun u c => if used c then Function.update u (m c) (u (m c) + delta) else u) u r =
      if ∃ c ∈ cs, used c ∧ m c = r then u r + delta else u r := by
  induction cs generalizing u with
  | nil => simp
  | cons c cs ih =>
    rw [List.nodup_cons] at hnodup
    have hinj' : ∀ c ∈ cs, ∀ d ∈ cs, used c → used d → m c = m d → c = d := fun c hc d hd =>
      hinj c (List.mem_cons_of_mem _ hc) d (List.mem_cons_of_mem _ hd)
    rw [List.foldl_cons, ih _ hnodup.2 hinj']
    by_cases hused : used c = true
    · rw [if_pos hused]
      by_cases hr : r = m c
      · subst hr
        -- no other column of the tree has this row
        have hno : ¬∃ d ∈ cs, used d ∧ m d = m c := by
          rintro ⟨d, hd, hdused, hdm⟩
          have := hinj c List.mem_cons_self d (List.mem_cons_of_mem _ hd) hused hdused hdm.symm
          exact hnodup.1 (this ▸ hd)
        rw [if_neg hno, if_pos ⟨c, List.mem_cons_self, hused, rfl⟩, Function.update_self]
      · rw [Function.update_of_ne hr]
        refine if_congr ?_ rfl rfl
        simp [hused, Ne.symm hr]
    · rw [if_neg hused]
      refine if_congr ?_ rfl rfl
      simp [hused]

/-! ## Growing the tree -/

/-- The rows up to `row`, and only these, are matched to one column each. -/
structure Complete (size row : Nat) (m : Nat → Nat) : Prop where
  le : ∀ c ∈ columns size, m c ≤ row
  inj : ∀ c ∈ columns size, ∀ d ∈ columns size, m c = m d → m c ≠ 0 → c = d
  surj : ∀ r, 1 ≤ r → r ≤ row → ∃ c ∈ columns size, m c = r

/-- The columns of the tree, the root included. -/
def inTree (size : Nat) (t : Search) : Finset Nat := (Finset.range (size + 1)).filter (t.used ·)

/-- The head of the first `while` loop, for the row `m 0` after the rows below it. -/
structure Growing (cost : Nat → Nat → ℚ) (size row : Nat) (m : Nat → Nat) (t : Search) : Prop where
  fresh : t.used t.column = false
  used_matched : ∀ c, t.used c = true → (c = 0 ∨ c ∈ columns size) ∧ m c ≠ 0
  root : t.column = 0 ∧ (∀ c, t.used c = false) ∨ t.column ∈ columns size ∧ t.used 0 = true
  feasible : ∀ r, 1 ≤ r → r ≤ row → ∀ c ∈ columns size, 0 ≤ reduced cost t.u t.v r c
  feasible_used : ∀ d, t.used d = true → ∀ c ∈ columns size, 0 ≤ reduced cost t.u t.v (m d) c
  tight : ∀ c ∈ columns size, m c ≠ 0 → reduced cost t.u t.v (m c) c = 0
  slack_le : ∀ c ∈ columns size, t.used c = false → ∀ d, t.used d = true →
    t.minValues c ≤ reduced cost t.u t.v (m d) c
  slack : ∀ c ∈ columns size, t.used c = false → t.used 0 = true →
    t.used (t.predecessor c) = true ∧
      t.minValues c = reduced cost t.u t.v (m (t.predecessor c)) c
  slack_top : t.used 0 = false → ∀ c, t.minValues c = ⊤
  head : t.column ∈ columns size → t.minValues t.column = 0
  tree : ∃ depth : Nat → Nat, (∀ c, t.used c = true → depth c < (inTree size t).card) ∧
    ∀ c ∈ columns size, t.used c = true → t.used (t.predecessor c) = true ∧
      depth (t.predecessor c) < depth c ∧ reduced cost t.u t.v (m (t.predecessor c)) c = 0

/-- **There is always a column left**: the columns of the tree are matched to earlier rows. -/
theorem exists_unused (hm : Complete size row m) (hsize : row < size) {used : Nat → Bool}
    (hused : ∀ c ∈ columns size, used c = true → m c ≠ 0) :
    ∃ c ∈ columns size, used c = false := by
  by_contra hall
  push Not at hall
  have hne : ∀ c ∈ columns size, m c ≠ 0 := fun c hc =>
    hused c hc (by simpa using hall c hc)
  have hcard : (columns size).toFinset.card ≤ (Finset.Icc 1 row).card := by
    refine Finset.card_le_card_of_injOn m (fun c hc => ?_) fun c hc d hd h => ?_
    · have hc' := List.mem_toFinset.1 hc
      exact Finset.mem_coe.2 (Finset.mem_Icc.2 ⟨Nat.pos_of_ne_zero (hne c hc'), hm.le c hc'⟩)
    · have hc' := List.mem_toFinset.1 hc
      exact hm.inj c hc' d (List.mem_toFinset.1 hd) h (hne c hc')
  rw [List.toFinset_card_of_nodup nodup_columns, Nat.card_Icc] at hcard
  have hlen : (columns size).length = size := by simp [columns]
  omega

/-! ### One turn -/

/-- The slack of a column after its scan from the current row. -/
def scanned (cost : Nat → Nat → ℚ) (m : Nat → Nat) (t : Search) (c : Nat) : WithTop ℚ :=
  min (t.minValues c) (reduced cost t.u t.v (m t.column) c)

/-- What one turn of the loop does; `delta` is the least slack. -/
structure Turn (cost : Nat → Nat → ℚ) (size : Nat) (m : Nat → Nat) (t t' : Search) (delta : ℚ) :
    Prop where
  used : ∀ c, t'.used c = true ↔ c = t.column ∨ t.used c = true
  column : t'.column ∈ columns size ∧ t'.used t'.column = false
  column_slack : scanned cost m t t'.column = delta
  least : ∀ c ∈ columns size, t'.used c = false → delta ≤ scanned cost m t c
  u_in : ∀ d, t'.used d = true → t'.u (m d) = t.u (m d) + delta
  u_out : ∀ r, (∀ d, t'.used d = true → m d ≠ r) → t'.u r = t.u r
  v_in : ∀ c ∈ columns size, t'.used c = true → t'.v c = t.v c - delta
  v_out : ∀ c ∈ columns size, t'.used c = false → t'.v c = t.v c
  minValues : ∀ c ∈ columns size, t'.used c = false →
    t'.minValues c = (scanned cost m t c).map (· - delta)
  predecessor_in : ∀ c, t'.used c = true → t'.predecessor c = t.predecessor c
  predecessor_out : ∀ c ∈ columns size, t'.used c = false → t'.predecessor c =
    if (reduced cost t.u t.v (m t.column) c : WithTop ℚ) < t.minValues c then t.column
    else t.predecessor c

theorem used_update :
    Function.update t.used t.column true c = true ↔ c = t.column ∨ t.used c = true := by
  by_cases h : c = t.column
  · subst h
    simp
  · simp [h]

theorem Growing.used_matched' (h : Growing cost size row m t) (hcol : m t.column ≠ 0)
    (hc : Function.update t.used t.column true c = true) :
    (c = 0 ∨ c ∈ columns size) ∧ m c ≠ 0 := by
  rcases used_update.1 hc with rfl | hc
  · exact ⟨h.root.imp And.left And.left, hcol⟩
  · exact h.used_matched c hc

theorem Growing.used_inj (hm : Complete size row m) (h0 : m 0 = row + 1)
    (h : Growing cost size row m t) (hcol : m t.column ≠ 0) {c d : Nat}
    (hc : Function.update t.used t.column true c = true)
    (hd : Function.update t.used t.column true d = true) (hcd : m c = m d) : c = d := by
  obtain ⟨hc', hc0⟩ := h.used_matched' hcol hc
  obtain ⟨hd', -⟩ := h.used_matched' hcol hd
  rcases hc' with rfl | hc' <;> rcases hd' with rfl | hd'
  · rfl
  · have := hm.le d hd'
    omega
  · have := hm.le c hc'
    omega
  · exact hm.inj c hc' d hd' hcd hc0

theorem advance_turn (hm : Complete size row m) (h0 : m 0 = row + 1) (hsize : row < size)
    (h : Growing cost size row m t) (hcol : m t.column ≠ 0) :
    ∃ delta, Turn cost size m t (advance cost size m t) delta := by
  have hscan := scan_spec (Function.update t.used t.column true)
    (fun c => cost (m t.column - 1) (c - 1) - t.u (m t.column) - t.v c) t.column (columns size)
    nodup_columns ⟨t.predecessor, t.minValues, ⊤, 0⟩
  unfold advance
  dsimp only at hscan ⊢
  generalize (columns size).foldl (scanColumn (Function.update t.used t.column true)
    (fun c => cost (m t.column - 1) (c - 1) - t.u (m t.column) - t.v c) t.column)
    ⟨t.predecessor, t.minValues, ⊤, 0⟩ = scan at hscan
  have hmin : ∀ c ∈ columns size, Function.update t.used t.column true c = false →
      scan.minValues c = scanned cost m t c := hscan.minValues
  obtain ⟨c, hc, hfree⟩ := exists_unused hm hsize
    (fun c _ hc => (h.used_matched' hcol hc).2)
  have hfinite : scan.delta ≠ ⊤ := fun htop => by
    have hle := hscan.delta_le.2 c hc hfree
    rw [htop, hmin c hc hfree, top_le_iff] at hle
    exact WithTop.coe_ne_top (min_eq_top.1 hle).2
  obtain ⟨delta, hdelta⟩ := WithTop.ne_top_iff_exists.1 hfinite
  obtain ⟨hnext, hnextFree, hnextMin⟩ : scan.nextColumn ∈ columns size ∧
      Function.update t.used t.column true scan.nextColumn = false ∧
      scan.delta = scan.minValues scan.nextColumn := by
    rcases hscan.next with ⟨htop, -⟩ | hnext
    · exact absurd htop hfinite
    · exact hnext
  have huntop : scan.delta.untopD 0 = delta := by rw [← hdelta]; rfl
  have hraise := foldl_raise m (Function.update t.used t.column true) delta t.u
    (List.range (size + 1)) List.nodup_range fun c _ d _ hc hd hcd =>
      h.used_inj hm h0 hcol hc hd hcd
  have hin : ∀ d, Function.update t.used t.column true d = true → d ∈ List.range (size + 1) := by
    intro d hd
    rw [List.mem_range]
    rcases (h.used_matched' hcol hd).1 with rfl | hd
    · omega
    · have := (mem_columns.1 hd).2
      omega
  rw [huntop]
  refine ⟨delta, fun c => used_update, ⟨hnext, hnextFree⟩, ?_, ?_, ?_, ?_, ?_, ?_, ?_, ?_, ?_⟩
  · rw [← hmin _ hnext hnextFree, ← hnextMin, hdelta]
  · intro c hc hfree
    rw [← hmin c hc hfree, hdelta]
    exact hscan.delta_le.2 c hc hfree
  · intro d hd
    exact (hraise (m d)).trans (if_pos ⟨d, hin d hd, hd, rfl⟩)
  · intro r hr
    refine (hraise r).trans (if_neg ?_)
    rintro ⟨d, -, hd, hdr⟩
    exact hr d hd hdr
  · intro c hc hused
    exact if_pos ⟨(mem_columns.1 hc).2, hused⟩
  · intro c hc hfree
    exact if_neg fun hboth => Bool.false_ne_true (hfree.symm.trans hboth.2)
  · intro c hc hfree
    dsimp only at hfree ⊢
    rw [← hmin c hc hfree, if_pos ⟨(mem_columns.1 hc).2, by simp [hfree]⟩]
  · exact fun c hused => (hscan.other c (.inr hused)).2
  · exact fun c hc hfree => hscan.predecessor c hc hfree

section Turn

variable {t' : Search} {delta : ℚ}

section

variable (ht : Turn cost size m t t' delta)
include ht

theorem Turn.free (h : t'.used c = false) : c ≠ t.column ∧ t.used c = false := by
  rwa [← Bool.not_eq_true, ht.used, not_or, Bool.not_eq_true] at h

theorem Turn.reduced_in {d c : Nat} (hd : t'.used d = true) (hc : c ∈ columns size) :
    reduced cost t'.u t'.v (m d) c =
      if t'.used c then reduced cost t.u t.v (m d) c else reduced cost t.u t.v (m d) c - delta := by
  unfold reduced
  rw [ht.u_in d hd]
  cases hused : t'.used c with
  | true =>
    rw [ht.v_in c hc hused, if_pos rfl]
    ring
  | false =>
    rw [ht.v_out c hc hused, if_neg (by simp)]
    ring

theorem Turn.reduced_out {r c : Nat}
    (hr : ∀ d, t'.used d = true → m d ≠ r) (hc : c ∈ columns size) :
    reduced cost t'.u t'.v r c =
      if t'.used c then reduced cost t.u t.v r c + delta else reduced cost t.u t.v r c := by
  unfold reduced
  rw [ht.u_out r hr]
  cases hused : t'.used c with
  | true =>
    rw [ht.v_in c hc hused, if_pos rfl]
    ring
  | false => rw [ht.v_out c hc hused, if_neg (by simp)]

theorem Turn.scanned_le (h : Growing cost size row m t)
    {c d : Nat} (hc : c ∈ columns size) (hfree : t'.used c = false) (hd : t'.used d = true) :
    scanned cost m t c ≤ reduced cost t.u t.v (m d) c := by
  rcases (ht.used d).1 hd with rfl | hd
  · exact min_le_right _ _
  · exact (min_le_left _ _).trans (h.slack_le c hc (ht.free hfree).2 d hd)

theorem Turn.predecessor_scanned
    (h : Growing cost size row m t) (hc : c ∈ columns size) (hfree : t'.used c = false) :
    t'.used (t'.predecessor c) = true ∧
      scanned cost m t c = reduced cost t.u t.v (m (t'.predecessor c)) c := by
  rw [ht.predecessor_out c hc hfree]
  by_cases hlt : (reduced cost t.u t.v (m t.column) c : WithTop ℚ) < t.minValues c
  · rw [if_pos hlt]
    exact ⟨(ht.used _).2 (.inl rfl), min_eq_right hlt.le⟩
  · rw [if_neg hlt]
    have hroot : t.used 0 = true := by
      by_contra hroot
      rw [Bool.not_eq_true] at hroot
      exact hlt (h.slack_top hroot c ▸ WithTop.coe_lt_top _)
    obtain ⟨hused, heq⟩ := h.slack c hc (ht.free hfree).2 hroot
    exact ⟨(ht.used _).2 (.inr hused), (min_eq_left (not_lt.1 hlt)).trans heq⟩

theorem Turn.root_used (h : Growing cost size row m t) : t'.used 0 = true := by
  rcases h.root with ⟨hroot, -⟩ | ⟨-, hroot⟩
  · exact (ht.used 0).2 (.inl hroot.symm)
  · exact (ht.used 0).2 (.inr hroot)

theorem Turn.delta_nonneg (hm : Complete size row m)
    (h : Growing cost size row m t) (hcol : m t.column ≠ 0) (hcolumn : t.column ∈ columns size) :
    0 ≤ delta := by
  obtain ⟨hnext, hfree⟩ := ht.column
  obtain ⟨hused, heq⟩ := ht.predecessor_scanned h hnext hfree
  have hpos : 0 ≤ reduced cost t.u t.v (m (t'.predecessor t'.column)) t'.column := by
    rcases (ht.used _).1 hused with he | hused
    · rw [he]
      exact h.feasible _ (Nat.pos_of_ne_zero hcol) (hm.le _ hcolumn) _ hnext
    · exact h.feasible_used _ hused _ hnext
  rw [ht.column_slack] at heq
  exact WithTop.coe_eq_coe.1 heq ▸ hpos

theorem Turn.inTree_card (h : Growing cost size row m t) :
    (inTree size t').card = (inTree size t).card + 1 := by
  have hle : t.column < size + 1 := by
    rcases h.root with ⟨_, -⟩ | ⟨hcolumn, -⟩
    · omega
    · have := (mem_columns.1 hcolumn).2
      omega
  have hinsert : inTree size t' = insert t.column (inTree size t) := by
    ext c
    unfold inTree
    rw [Finset.mem_insert, Finset.mem_filter, Finset.mem_filter, ht.used, Finset.mem_range]
    constructor
    · rintro ⟨hc, rfl | hused⟩
      · exact .inl rfl
      · exact .inr ⟨hc, hused⟩
    · rintro (rfl | ⟨hc, hused⟩)
      · exact ⟨hle, .inl rfl⟩
      · exact ⟨hc, .inr hused⟩
  rw [hinsert, Finset.card_insert_of_notMem]
  intro hin
  have hused : t.used t.column = true := (Finset.mem_filter.1 hin).2
  simp [h.fresh] at hused

end

theorem Growing.column_of_used (h : Growing cost size row m t) (hc : c ∈ columns size)
    (hused : c = t.column ∨ t.used c = true) : t.column ∈ columns size := by
  rcases h.root with ⟨_, hnone⟩ | ⟨hcolumn, -⟩
  · rcases hused with rfl | hused
    · exact hc
    · simp [hnone] at hused
  · exact hcolumn

theorem Turn.feasible_used (ht : Turn cost size m t t' delta) (hm : Complete size row m)
    (h : Growing cost size row m t) (hcol : m t.column ≠ 0) {d c : Nat} (hd : t'.used d = true)
    (hc : c ∈ columns size) : 0 ≤ reduced cost t'.u t'.v (m d) c := by
  rw [ht.reduced_in hd hc]
  cases hused : t'.used c with
  | true =>
    rcases (ht.used d).1 hd with rfl | hd
    · have hcolumn := h.column_of_used hc ((ht.used c).1 hused)
      exact h.feasible _ (Nat.pos_of_ne_zero hcol) (hm.le _ hcolumn) c hc
    · exact h.feasible_used d hd c hc
  | false =>
    rw [if_neg (by simp), sub_nonneg]
    exact WithTop.coe_le_coe.1 ((ht.least c hc hused).trans (ht.scanned_le h hc hused hd))

theorem Turn.feasible (ht : Turn cost size m t t' delta) (hm : Complete size row m)
    (h : Growing cost size row m t) (hcol : m t.column ≠ 0) {r c : Nat} (hr : 1 ≤ r)
    (hrow : r ≤ row) (hc : c ∈ columns size) : 0 ≤ reduced cost t'.u t'.v r c := by
  by_cases hin : ∃ d, t'.used d = true ∧ m d = r
  · obtain ⟨d, hd, rfl⟩ := hin
    exact ht.feasible_used hm h hcol hd hc
  · rw [ht.reduced_out (fun d hd hdr => hin ⟨d, hd, hdr⟩) hc]
    have hold := h.feasible r hr hrow c hc
    cases hused : t'.used c with
    | true =>
      have hcolumn := h.column_of_used hc ((ht.used c).1 hused)
      exact add_nonneg hold (ht.delta_nonneg hm h hcol hcolumn)
    | false =>
      rwa [if_neg (by simp)]

theorem Turn.tree (ht : Turn cost size m t t' delta) (h : Growing cost size row m t) :
    ∃ depth : Nat → Nat, (∀ c, t'.used c = true → depth c < (inTree size t').card) ∧
      ∀ c ∈ columns size, t'.used c = true → t'.used (t'.predecessor c) = true ∧
        depth (t'.predecessor c) < depth c ∧
          reduced cost t'.u t'.v (m (t'.predecessor c)) c = 0 := by
  obtain ⟨depth, hdepth, htree⟩ := h.tree
  have hfresh : ∀ c, t.used c = true → c ≠ t.column := fun c hc he => by
    simp [he, h.fresh] at hc
  refine ⟨Function.update depth t.column (inTree size t).card, fun c hc => ?_, fun c hc hused => ?_⟩
  · rw [ht.inTree_card h]
    rcases (ht.used c).1 hc with rfl | hc
    · rw [Function.update_self]
      exact Nat.lt_succ_self _
    · rw [Function.update_of_ne (hfresh c hc)]
      exact (hdepth c hc).trans (Nat.lt_succ_self _)
  · have hbefore : t.used (t.predecessor c) = true ∧
        depth (t.predecessor c) < Function.update depth t.column (inTree size t).card c ∧
          reduced cost t.u t.v (m (t.predecessor c)) c = 0 := by
      rcases (ht.used c).1 hused with rfl | hold
      · have hroot : t.used 0 = true := by
          rcases h.root with ⟨hzero, -⟩ | ⟨-, hroot⟩
          · exact absurd (hzero ▸ hc) zero_not_mem_columns
          · exact hroot
        obtain ⟨hpred, hslack⟩ := h.slack _ hc h.fresh hroot
        rw [h.head hc] at hslack
        rw [Function.update_self]
        exact ⟨hpred, hdepth _ hpred, (WithTop.coe_eq_coe.1 hslack).symm⟩
      · obtain ⟨hpred, hlt, heq⟩ := htree c hc hold
        rw [Function.update_of_ne (hfresh c hold)]
        exact ⟨hpred, hlt, heq⟩
    obtain ⟨hpred, hlt, heq⟩ := hbefore
    have hpred' : t'.used (t.predecessor c) = true := (ht.used _).2 (.inr hpred)
    rw [ht.predecessor_in c hused, Function.update_of_ne (hfresh _ hpred), ht.reduced_in hpred' hc,
      if_pos hused]
    exact ⟨hpred', hlt, heq⟩

theorem growing_turn (ht : Turn cost size m t t' delta) (hm : Complete size row m)
    (h0 : m 0 = row + 1) (h : Growing cost size row m t) (hcol : m t.column ≠ 0) :
    Growing cost size row m t' where
  fresh := ht.column.2
  used_matched c hc := h.used_matched' hcol (used_update.2 ((ht.used c).1 hc))
  root := .inr ⟨ht.column.1, ht.root_used h⟩
  feasible r hr hrow c hc := ht.feasible hm h hcol hr hrow hc
  feasible_used d hd c hc := ht.feasible_used hm h hcol hd hc
  tight c hc hne := by
    cases hused : t'.used c with
    | true =>
      rw [ht.reduced_in hused hc, if_pos hused]
      exact h.tight c hc hne
    | false =>
      -- the row of a column outside the tree is not in the tree
      have hout : ∀ d, t'.used d = true → m d ≠ m c := by
        intro d hd hdc
        rcases (h.used_matched' hcol (used_update.2 ((ht.used d).1 hd))).1 with rfl | hd'
        · have := hm.le c hc
          omega
        · simp [hm.inj d hd' c hc hdc (hdc ▸ hne), hused] at hd
      rw [ht.reduced_out hout hc, if_neg (by simp [hused])]
      exact h.tight c hc hne
  slack_le c hc hfree d hd := by
    have hle := ht.scanned_le h hc hfree hd
    rw [ht.minValues c hc hfree, ht.reduced_in hd hc, if_neg (by simp [hfree])]
    have hmono : Monotone (WithTop.map fun x : ℚ => x - delta) :=
      Monotone.withTop_map fun a b hab => sub_le_sub_right hab delta
    exact hmono hle
  slack c hc hfree _ := by
    obtain ⟨hpred, heq⟩ := ht.predecessor_scanned h hc hfree
    refine ⟨hpred, ?_⟩
    rw [ht.minValues c hc hfree, heq, ht.reduced_in hpred hc, if_neg (by simp [hfree])]
    rfl
  slack_top hroot := by
    simp [ht.root_used h] at hroot
  head _ := by
    rw [ht.minValues _ ht.column.1 ht.column.2, ht.column_slack, WithTop.map_coe, sub_self]
    rfl
  tree := ht.tree h

end Turn

theorem Growing.inTree_lt (h : Growing cost size row m t) : (inTree size t).card < size + 1 := by
  have hmem : t.column ∈ Finset.range (size + 1) := by
    rw [Finset.mem_range]
    rcases h.root with ⟨_, -⟩ | ⟨hcolumn, -⟩
    · omega
    · have := (mem_columns.1 hcolumn).2
      omega
  have hsub : inTree size t ⊂ Finset.range (size + 1) := by
    refine Finset.ssubset_iff_subset_ne.2 ⟨Finset.filter_subset _ _, fun heq => ?_⟩
    rw [← heq] at hmem
    have hused : t.used t.column = true := (Finset.mem_filter.1 hmem).2
    simp [h.fresh] at hused
  simpa using Finset.card_lt_card hsub

/-- **The first loop** grows the tree up to a free column: the fuel is enough. -/
theorem search_grown (hm : Complete size row m) (h0 : m 0 = row + 1) (hsize : row < size)
    (fuel : Nat) (h : Growing cost size row m t) (hcol : m t.column ≠ 0)
    (hfuel : size + 1 ≤ (inTree size t).card + fuel) :
    Growing cost size row m (search cost size m fuel t) ∧
      m (search cost size m fuel t).column = 0 := by
  induction fuel generalizing t with
  | zero =>
    have := h.inTree_lt
    omega
  | succ _ ih =>
    obtain ⟨_, ht⟩ := advance_turn hm h0 hsize h hcol
    have hgrown := growing_turn ht hm h0 h hcol
    have hcard := ht.inTree_card h
    unfold search
    dsimp only
    split
    · rename_i hfree
      exact ⟨hgrown, hfree⟩
    · rename_i hmatched
      exact ih hgrown hmatched (by omega)

/-! ## Shifting the matching along the tree -/

theorem Complete.congr {m' : Nat → Nat} (h : Complete size row m)
    (heq : ∀ c ∈ columns size, m' c = m c) : Complete size row m' where
  le c hc := heq c hc ▸ h.le c hc
  inj c hc d hd hcd hne := by
    rw [heq c hc, heq d hd] at hcd
    exact h.inj c hc d hd hcd (heq c hc ▸ hne)
  surj r hr hrow := by
    obtain ⟨c, hc, hcr⟩ := h.surj r hr hrow
    exact ⟨c, hc, (heq c hc).trans hcr⟩

theorem Complete.comp_swap (h : Complete size row m) {c p : Nat} (hc : c ∈ columns size)
    (hp : p ∈ columns size) : Complete size row (m ∘ Equiv.swap c p) := by
  have hmem : ∀ d ∈ columns size, Equiv.swap c p d ∈ columns size := by
    intro d _
    by_cases hdc : d = c
    · rwa [hdc, Equiv.swap_apply_left]
    · by_cases hdp : d = p
      · rwa [hdp, Equiv.swap_apply_right]
      · rwa [Equiv.swap_apply_of_ne_of_ne hdc hdp]
  refine ⟨fun d hd => h.le _ (hmem d hd), fun d hd e he hde hne => ?_, fun r hr hrow => ?_⟩
  · exact (Equiv.swap c p).injective (h.inj _ (hmem d hd) _ (hmem e he) hde hne)
  · obtain ⟨d, hd, hdr⟩ := h.surj r hr hrow
    exact ⟨Equiv.swap c p d, hmem d hd, by simpa using hdr⟩

theorem Complete.extend (h : Complete size row m) (hc : c ∈ columns size)
    (hfree : m c = 0) : Complete size (row + 1) (Function.update m c (row + 1)) := by
  refine ⟨fun d hd => ?_, fun d hd e he hde hne => ?_, fun r hr hrow => ?_⟩
  · by_cases hdc : d = c
    · simp [hdc]
    · rw [Function.update_of_ne hdc]
      exact (h.le d hd).trans (Nat.le_succ _)
  · by_cases hdc : d = c <;> by_cases hec : e = c
    · rw [hdc, hec]
    · rw [hdc, Function.update_self, Function.update_of_ne hec] at hde
      have := h.le e he
      omega
    · rw [hec, Function.update_self, Function.update_of_ne hdc] at hde
      have := h.le d hd
      omega
    · rw [Function.update_of_ne hdc] at hde hne
      rw [Function.update_of_ne hec] at hde
      exact h.inj d hd e he hde hne
  · by_cases hlast : r = row + 1
    · exact ⟨c, hc, by rw [Function.update_self, hlast]⟩
    · obtain ⟨d, hd, hdr⟩ := h.surj r hr (by omega)
      have hdc : d ≠ c := fun hdc => by
        rw [hdc, hfree] at hdr
        omega
      exact ⟨d, hd, by rw [Function.update_of_ne hdc, hdr]⟩

/-- Every matched column is tight. -/
def Tight (cost : Nat → Nat → ℚ) (size : Nat) (u v : Nat → ℚ) (m : Nat → Nat) : Prop :=
  ∀ c ∈ columns size, m c ≠ 0 → reduced cost u v (m c) c = 0

/-- **The second loop.** `w` is the matching so far; with the root's row in the current column it
would be complete, and it still agrees with the old one below that column. -/
theorem augment_spec {u v : Nat → ℚ} {predecessor : Nat → Nat} (inPath : Nat → Prop)
    {depth : Nat → Nat} (hpath : ∀ c, inPath c → c = 0 ∨ c ∈ columns size)
    (htree : ∀ c ∈ columns size, inPath c → inPath (predecessor c) ∧
      depth (predecessor c) < depth c ∧ reduced cost u v (m (predecessor c)) c = 0)
    (fuel : Nat) (w : Nat → Nat) (hc : c ∈ columns size) (hin : inPath c)
    (hfuel : depth c ≤ fuel) (hcomplete : Complete size row (Function.update w c (w 0)))
    (hbelow : ∀ d, inPath d → depth d < depth c → w d = m d)
    (htight : ∀ d ∈ columns size, d ≠ c → w d ≠ 0 → reduced cost u v (w d) d = 0) :
    Complete size row (augment predecessor fuel w c) ∧
      Tight cost size u v (augment predecessor fuel w c) := by
  induction fuel generalizing w c with
  | zero =>
    have := (htree c hc hin).2.1
    omega
  | succ _ ih =>
    obtain ⟨hpin, hdepth, _⟩ := htree c hc hin
    have hwp : w (predecessor c) = m (predecessor c) := hbelow _ hpin hdepth
    have hpc : predecessor c ≠ c := fun he => by
      rw [he] at hdepth
      omega
    have htight' : ∀ d ∈ columns size, Function.update w c (w (predecessor c)) d ≠ 0 →
          reduced cost u v (Function.update w c (w (predecessor c)) d) d = 0 := by
      intro d hd hne
      by_cases hdc : d = c
      · rwa [hdc, Function.update_self, hwp]
      · rw [Function.update_of_ne hdc] at hne ⊢
        exact htight d hd hdc hne
    have h0c : (0 : Nat) ≠ c := fun he => zero_not_mem_columns (he ▸ hc)
    unfold augment
    dsimp only
    split
    · rename_i hzero
      rw [hzero] at htight' ⊢
      exact ⟨hcomplete, htight'⟩
    · rename_i hne
      have hp := (hpath _ hpin).resolve_left hne
      refine ih _ hp hpin (by omega) ?_ (fun d hd hlt => ?_) fun d hd _ => htight' d hd
      · -- the row of the root moves from this column to its predecessor
        have hswap : Function.update (Function.update w c (w (predecessor c))) (predecessor c)
            (Function.update w c (w (predecessor c)) 0) =
              Function.update w c (w 0) ∘ Equiv.swap c (predecessor c) := by
          funext d
          rw [Function.comp_apply, Function.update_of_ne h0c]
          by_cases hdp : d = predecessor c
          · rw [hdp, Function.update_self, Equiv.swap_apply_right, Function.update_self]
          · rw [Function.update_of_ne hdp]
            by_cases hdc : d = c
            · rw [hdc, Function.update_self, Equiv.swap_apply_left, Function.update_of_ne hpc]
            · rw [Function.update_of_ne hdc, Equiv.swap_apply_of_ne_of_ne hdc hdp,
                Function.update_of_ne hdc]
        rw [hswap]
        exact hcomplete.comp_swap hc hp
      · have hdc : d ≠ c := fun he => by
          rw [he] at hlt
          omega
        rw [Function.update_of_ne hdc]
        exact hbelow d hd (by omega)

/-! ## The loop over the rows -/

/-- The rows up to `row` are matched, below the potentials and tight. -/
structure Assigned (cost : Nat → Nat → ℚ) (size row : Nat) (h : Duals) : Prop where
  complete : Complete size row h.matching
  feasible : ∀ r, 1 ≤ r → r ≤ row → ∀ c ∈ columns size, 0 ≤ reduced cost h.u h.v r c
  tight : Tight cost size h.u h.v h.matching

theorem root_columns (size : Nat) (m : Nat → Nat) (r : Nat) :
    ∀ c ∈ columns size, Function.update m 0 r c = m c :=
  fun _ hc => Function.update_of_ne (fun he => zero_not_mem_columns (he ▸ hc)) _ _

theorem Assigned.growing {h : Duals} (ha : Assigned cost size row h)
    (hcolumns : ∀ c ∈ columns size, m c = h.matching c) :
    Growing cost size row m ⟨h.u, h.v, h.predecessor, fun _ => ⊤, fun _ => false, 0⟩ where
  fresh := rfl
  used_matched := fun _ h => by cases h
  root := .inl ⟨rfl, fun _ => rfl⟩
  feasible := ha.feasible
  feasible_used := fun _ h => by cases h
  tight := fun c hc hne => by
    rw [hcolumns c hc] at hne ⊢
    exact ha.tight c hc hne
  slack_le := fun _ _ _ _ h => by cases h
  slack := fun _ _ _ h => by cases h
  slack_top := fun _ _ => rfl
  head := fun hc => absurd hc zero_not_mem_columns
  tree := ⟨fun _ => 0, nofun, nofun⟩

/-- The tree, and the free column that was reached. -/
def OnPath (t : Search) (c : Nat) : Prop := t.used c = true ∨ c = t.column

/-- Where the first loop ends: a free column that hangs on the tree like the others. -/
structure Reached (cost : Nat → Nat → ℚ) (size : Nat) (m : Nat → Nat) (t : Search)
    (depth : Nat → Nat) : Prop where
  column : t.column ∈ columns size
  root : t.used 0 = true
  depth_le : depth t.column ≤ size
  within : ∀ c, OnPath t c → c = 0 ∨ c ∈ columns size
  edge : ∀ c ∈ columns size, OnPath t c → OnPath t (t.predecessor c) ∧
    depth (t.predecessor c) < depth c ∧ reduced cost t.u t.v (m (t.predecessor c)) c = 0

theorem Growing.reached (h : Growing cost size row m t) (h0 : m 0 = row + 1)
    (hfree : m t.column = 0) : ∃ depth, Reached cost size m t depth := by
  obtain ⟨hcolumn, hroot⟩ : t.column ∈ columns size ∧ t.used 0 = true := by
    rcases h.root with ⟨hzero, -⟩ | hroot
    · simp [hzero, h0] at hfree
    · exact hroot
  obtain ⟨depth, hdepth, htree⟩ := h.tree
  have hfresh : ∀ c, t.used c = true → c ≠ t.column := fun c hc he => by
    simp [he, h.fresh] at hc
  refine ⟨Function.update depth t.column (inTree size t).card, hcolumn, hroot, ?_, ?_, ?_⟩
  · rw [Function.update_self]
    exact Nat.le_of_lt_succ h.inTree_lt
  · exact fun c hc => hc.elim (fun hc => (h.used_matched c hc).1) fun hc => .inr (hc ▸ hcolumn)
  · rintro c hc (hused | rfl)
    · obtain ⟨hpred, hd, hr⟩ := htree c hc hused
      rw [Function.update_of_ne (hfresh _ hpred), Function.update_of_ne (hfresh _ hused)]
      exact ⟨.inl hpred, hd, hr⟩
    · obtain ⟨hpred, hslack⟩ := h.slack _ hc h.fresh hroot
      rw [h.head hc] at hslack
      rw [Function.update_of_ne (hfresh _ hpred), Function.update_self]
      exact ⟨.inl hpred, hdepth _ hpred, (WithTop.coe_eq_coe.1 hslack).symm⟩

theorem assigned_assignRow {h : Duals} (hsize : row < size) (ha : Assigned cost size row h) :
    Assigned cost size (row + 1) (assignRow cost size h (row + 1)) := by
  unfold assignRow
  dsimp only
  have hcolumns := root_columns size h.matching (row + 1)
  have hm : Complete size row (Function.update h.matching 0 (row + 1)) := ha.complete.congr hcolumns
  have h0 : Function.update h.matching 0 (row + 1) 0 = row + 1 := Function.update_self ..
  generalize Function.update h.matching 0 (row + 1) = m at hcolumns hm h0 ⊢
  obtain ⟨hgrown, hfree⟩ := search_grown hm h0 hsize (size + 1) (ha.growing hcolumns)
    (by rw [h0]; exact Nat.succ_ne_zero row) (Nat.le_add_left _ _)
  generalize search cost size m (size + 1)
    ⟨h.u, h.v, h.predecessor, fun _ => ⊤, fun _ => false, 0⟩ = t at hgrown hfree ⊢
  obtain ⟨_, hpath⟩ := hgrown.reached h0 hfree
  have hextend : Complete size (row + 1) (Function.update m t.column (m 0)) := by
    rw [h0]
    exact hm.extend hpath.column hfree
  have hdone := augment_spec (OnPath t) hpath.within hpath.edge (size + 1) m hpath.column (.inr rfl)
    (hpath.depth_le.trans (Nat.le_succ size)) hextend (fun _ _ _ => rfl)
    fun d hd _ hne => hgrown.tight d hd hne
  refine ⟨hdone.1, fun r hr hrow c hc => ?_, hdone.2⟩
  by_cases hlast : r = row + 1
  · rw [hlast, ← h0]
    exact hgrown.feasible_used 0 hpath.root c hc
  · exact hgrown.feasible r hr (by omega) c hc

theorem columns_succ (k : Nat) : columns (k + 1) = columns k ++ [k + 1] := by
  unfold columns
  rw [List.range'_concat]
  simp [Nat.add_comm]

theorem assigned_columns (cost : Nat → Nat → ℚ) {k : Nat} (hk : k ≤ size) :
    Assigned cost size k ((columns k).foldl (assignRow cost size)
      ⟨fun _ => 0, fun _ => 0, fun _ => 0, fun _ => 0⟩) := by
  induction k with
  | zero =>
    refine ⟨⟨fun _ _ => le_rfl, fun _ _ _ _ _ hne => absurd rfl hne, fun r hr h0 => ?_⟩,
      fun r hr h0 => ?_, fun _ _ hne => absurd rfl hne⟩
    · omega
    · omega
  | succ k ih =>
    rw [columns_succ, List.foldl_append]
    exact assigned_assignRow (by omega) (ih (by omega))

/-- **All rows** are matched at the end, and the potentials prove it. -/
theorem assignRows_assigned (cost : Nat → Nat → ℚ) (size : Nat) :
    Assigned cost size size (assignRows cost size) :=
  assigned_columns cost le_rfl

end Scenara.Tracking

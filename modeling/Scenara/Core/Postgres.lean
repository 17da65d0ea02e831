import Mathlib.Algebra.Order.Field.Rat
import Mathlib.Data.String.Basic

/-!
# A PostgreSQL server

* `Row.visible`: what a transaction sees, the committed row or what it wrote itself.
* `Row.Moved`: what an operation of one transaction may do to a row: nothing while another one holds
  it, and it never takes it for another one.
-/

namespace Scenara.Core

/-- What statements take from a server and its driver. -/
structure Server where
  /-- `to_timestamp`, in microseconds; `none` is out of range. -/
  toTimestamp : ℚ → Option ℤ
  /-- The sort key of a text: the collation compares by it. -/
  sortKey : String → String
  sortKey_injective : Function.Injective sortKey

/-- What a column of timestamps holds of a time. -/
def Server.column (server : Server) (t : ℚ) : ℤ := (server.toTimestamp t).getD 0

/-- The time has a timestamp. -/
def Server.inRange (server : Server) (t : ℚ) : Bool := (server.toTimestamp t).isSome

/-- Texts without NUL. -/
def bindable (texts : List String) : Bool :=
  texts.all fun text => !text.toList.contains (Char.ofNat 0)

/-- The integers of a column `integer`. -/
def maxInteger : Nat := 2147483647

/-- The integers of a column `bigint`. -/
def maxBigint : Nat := 9223372036854775807

/-! ## Row locks -/

/-- A row: what is committed, who holds it, and what the holder wrote. -/
structure Row (R : Type*) where
  committed : Option R
  lock : Option (Nat × Option R)

namespace Row

variable {R : Type*} {row row' : Row R} {i j : Nat} {w : Option R} {r : R}

/-- No such row. -/
def absent : Row R := ⟨none, none⟩

/-- A committed row. -/
def stored (r : Option R) : Row R := ⟨r, none⟩

/-- Another transaction holds the row. -/
def heldByOther (row : Row R) (i : Nat) : Bool :=
  match row.lock with
  | some (j, _) => j ≠ i
  | none => false

/-- The other transaction that holds the row. -/
def holder (row : Row R) (i : Nat) : Option Nat :=
  match row.lock with
  | some (j, _) => if j = i then none else some j
  | none => none

/-- What the transaction wrote. -/
def written (row : Row R) (i : Nat) : Option R :=
  match row.lock with
  | some (j, w) => if j = i then w else none
  | none => none

/-- What the transaction sees. -/
def visible (row : Row R) (i : Nat) : Option R := row.written i <|> row.committed

/-- `SELECT ... FOR UPDATE`. -/
def selectForUpdate (row : Row R) (i : Nat) : Option (Row R × Option R) :=
  match row.visible i with
  | none => some (row, none)
  | some r =>
    if row.heldByOther i then none else some ({ row with lock := some (i, row.written i) }, some r)

/-- `INSERT ... ON CONFLICT DO UPDATE`, or an `UPDATE` of a row that is there. -/
def write (row : Row R) (i : Nat) (r : R) : Option (Row R) :=
  if row.heldByOther i then none else some { row with lock := some (i, some r) }

/-- `COMMIT`. -/
def commit (row : Row R) (i : Nat) : Row R :=
  match row.lock with
  | some (j, w) => if j = i then ⟨w <|> row.committed, none⟩ else row
  | none => row

/-- `ROLLBACK`. -/
def abort (row : Row R) (i : Nat) : Row R :=
  match row.lock with
  | some (j, _) => if j = i then ⟨row.committed, none⟩ else row
  | none => row

/-- The transaction does not hold the row. -/
def Free (row : Row R) (i : Nat) : Prop := ∀ w, row.lock ≠ some (i, w)

/-! ## One's own row -/

theorem free_stored (r : Option R) (i : Nat) : (stored r).Free i := nofun

theorem written_of_free (h : row.Free i) : row.written i = none := by
  unfold written
  split
  · rename_i hlock
    exact if_neg fun hj => h _ (hj ▸ hlock)
  · rfl

theorem visible_of_free (h : row.Free i) : row.visible i = row.committed := by
  rw [visible, written_of_free h]
  rfl

theorem visible_of_unwritten (h : ∀ r, row.lock ≠ some (i, some r)) :
    row.visible i = row.committed := by
  unfold visible written
  cases hlock : row.lock with
  | none => rfl
  | some p =>
    obtain ⟨j, w⟩ := p
    by_cases hj : j = i
    · cases w with
      | none => simp
      | some r => exact absurd (hj ▸ hlock) (h r)
    · simp [hj]

theorem visible_of_written (h : row.lock = some (i, some r)) : row.visible i = some r := by
  simp [visible, written, h]

/-- A `SELECT` of a transaction that does not hold the row: it finds nothing, or locks what is
committed. -/
theorem selectForUpdate_of_free (h : row.Free i) {found : Option R}
    (hselect : row.selectForUpdate i = some (row', found)) :
    found = row.committed ∧ (found = none ∧ row' = row ∨
      found.isSome ∧ row' = ⟨row.committed, some (i, none)⟩) := by
  unfold selectForUpdate at hselect
  rw [visible_of_free h, written_of_free h] at hselect
  cases hcommitted : row.committed with
  | none =>
    simp only [hcommitted, Option.some.injEq, Prod.mk.injEq] at hselect
    obtain ⟨rfl, rfl⟩ := hselect
    exact ⟨rfl, .inl ⟨rfl, rfl⟩⟩
  | some r =>
    simp only [hcommitted, Option.ite_none_left_eq_some, Option.some.injEq, Prod.mk.injEq]
      at hselect
    obtain ⟨-, rfl, rfl⟩ := hselect
    exact ⟨rfl, .inr ⟨rfl, rfl⟩⟩

theorem write_eq (hwrite : row.write i r = some row') : row' = ⟨row.committed, some (i, some r)⟩ :=
  (Option.some.inj (Option.ite_none_left_eq_some.1 hwrite).2).symm

@[simp] theorem commit_of_lock (c : Option R) (i : Nat) (w : Option R) :
    (⟨c, some (i, w)⟩ : Row R).commit i = ⟨w <|> c, none⟩ := by
  simp [commit]

@[simp] theorem abort_of_lock (c : Option R) (i : Nat) (w : Option R) :
    (⟨c, some (i, w)⟩ : Row R).abort i = ⟨c, none⟩ := by
  simp [abort]

theorem commit_of_free (h : row.Free i) : row.commit i = row := by
  unfold commit
  split
  · rename_i hlock
    exact if_neg fun hj => h _ (hj ▸ hlock)
  · rfl

theorem abort_of_free (h : row.Free i) : row.abort i = row := by
  unfold abort
  split
  · rename_i hlock
    exact if_neg fun hj => h _ (hj ▸ hlock)
  · rfl

theorem free_commit (row : Row R) (i : Nat) : (row.commit i).Free i := by
  by_cases h : ∃ w, row.lock = some (i, w)
  · obtain ⟨w, h⟩ := h
    rw [show row = ⟨row.committed, some (i, w)⟩ by rw [← h], commit_of_lock]
    exact nofun
  · have hfree : row.Free i := fun w hw => h ⟨w, hw⟩
    rwa [commit_of_free hfree]

theorem free_abort (row : Row R) (i : Nat) : (row.abort i).Free i := by
  by_cases h : ∃ w, row.lock = some (i, w)
  · obtain ⟨w, h⟩ := h
    rw [show row = ⟨row.committed, some (i, w)⟩ by rw [← h], abort_of_lock]
    exact nofun
  · have hfree : row.Free i := fun w hw => h ⟨w, hw⟩
    rwa [abort_of_free hfree]

theorem commit_committed (row : Row R) (i : Nat) : (row.commit i).committed = row.visible i := by
  unfold commit visible written
  cases row.lock with
  | none => rfl
  | some p => by_cases hp : p.1 = i <;> simp [hp]

theorem selectForUpdate_committed {found : Option R}
    (h : row.selectForUpdate i = some (row', found)) : row'.committed = row.committed := by
  unfold selectForUpdate at h
  cases hvisible : row.visible i with
  | none =>
    simp only [hvisible, Option.some.injEq, Prod.mk.injEq] at h
    rw [← h.1]
  | some r =>
    simp only [hvisible, Option.ite_none_left_eq_some, Option.some.injEq, Prod.mk.injEq] at h
    rw [← h.2.1]

theorem abort_committed (row : Row R) (i : Nat) : (row.abort i).committed = row.committed := by
  unfold abort
  split
  · split <;> rfl
  · rfl

/-! ## Another one's row -/

theorem lock_of_holder (h : row.holder i = some j) : j ≠ i ∧ ∃ w, row.lock = some (j, w) := by
  unfold holder at h
  cases hlock : row.lock with
  | none =>
    simp [hlock] at h
  | some p =>
    rw [hlock] at h
    obtain ⟨hj, h⟩ := Option.ite_none_left_eq_some.1 h
    obtain rfl := Option.some.inj h
    exact ⟨hj, p.2, rfl⟩

/-- What an operation of `j` may do. -/
structure Moved (j : Nat) (row row' : Row R) : Prop where
  held : ∀ i w, i ≠ j → row.lock = some (i, w) → row' = row
  own : ∀ i w, i ≠ j → row'.lock = some (i, w) → row.lock = some (i, w)

theorem Moved.refl (j : Nat) (row : Row R) : Moved j row row :=
  ⟨fun _ _ _ _ => rfl, fun _ _ _ h => h⟩

theorem Moved.free (h : Moved j row row') (hij : i ≠ j) (hfree : row.Free i) : row'.Free i :=
  fun w hw => hfree w (h.own i w hij hw)

theorem heldByOther_of_lock (hij : i ≠ j) (h : row.lock = some (i, w)) :
    row.heldByOther j = true := by
  simp [heldByOther, h, hij]

theorem moved_take {c : Option R} (hfree : ¬row.heldByOther j) :
    Moved j row ⟨c, some (j, w)⟩ where
  held _ _ hij h := absurd (heldByOther_of_lock hij h) hfree
  own _ _ hij h := absurd (congrArg Prod.fst (Option.some.inj h)).symm hij

theorem moved_selectForUpdate {found : Option R}
    (h : row.selectForUpdate j = some (row', found)) : Moved j row row' := by
  unfold selectForUpdate at h
  cases hvisible : row.visible j with
  | none =>
    simp only [hvisible, Option.some.injEq, Prod.mk.injEq] at h
    exact h.1 ▸ .refl j row
  | some r =>
    simp only [hvisible, Option.ite_none_left_eq_some, Option.some.injEq, Prod.mk.injEq] at h
    exact h.2.1 ▸ moved_take h.1

theorem moved_write (h : row.write j r = some row') : Moved j row row' := by
  obtain ⟨hfree, h⟩ := Option.ite_none_left_eq_some.1 h
  exact Option.some.inj h ▸ moved_take hfree

theorem moved_commit (row : Row R) (j : Nat) : Moved j row (row.commit j) := by
  by_cases hj : ∃ w, row.lock = some (j, w)
  · obtain ⟨w, hj⟩ := hj
    rw [show row = ⟨row.committed, some (j, w)⟩ by rw [← hj], commit_of_lock]
    exact ⟨fun i _ hij h => absurd (congrArg Prod.fst (Option.some.inj h)).symm hij, nofun⟩
  · rw [commit_of_free fun w hw => hj ⟨w, hw⟩]
    exact .refl j row

theorem moved_abort (row : Row R) (j : Nat) : Moved j row (row.abort j) := by
  by_cases hj : ∃ w, row.lock = some (j, w)
  · obtain ⟨w, hj⟩ := hj
    rw [show row = ⟨row.committed, some (j, w)⟩ by rw [← hj], abort_of_lock]
    exact ⟨fun i _ hij h => absurd (congrArg Prod.fst (Option.some.inj h)).symm hij, nofun⟩
  · rw [abort_of_free fun w hw => hj ⟨w, hw⟩]
    exact .refl j row

/-! ## Tables of rows -/

section Rows

variable {K : Type*} {rows rows' : K → Row R} {k : K} {c : Option R}

/-- The transaction holds no row. -/
def HoldsNone (rows : K → Row R) (i : Nat) : Prop := ∀ k, (rows k).Free i

/-- The transaction holds one row, over what is committed there. -/
structure HoldsOne (rows : K → Row R) (i : Nat) (k : K) (c w : Option R) : Prop where
  row : rows k = ⟨c, some (i, w)⟩
  others : ∀ l ≠ k, (rows l).Free i

theorem HoldsNone.moved (h : HoldsNone rows i) (hmoved : ∀ k, Moved j (rows k) (rows' k))
    (hij : i ≠ j) : HoldsNone rows' i := fun k => (hmoved k).free hij (h k)

theorem HoldsOne.moved (h : HoldsOne rows i k c w) (hmoved : ∀ k, Moved j (rows k) (rows' k))
    (hij : i ≠ j) : HoldsOne rows' i k c w where
  row := ((hmoved k).held i w hij (by rw [h.row])).trans h.row
  others l hl := (hmoved l).free hij (h.others l hl)

theorem holdsNone_commit (rows : K → Row R) (i : Nat) : HoldsNone (fun k => (rows k).commit i) i :=
  fun k => free_commit (rows k) i

variable [DecidableEq K]

theorem HoldsNone.update (h : HoldsNone rows i) (k : K) (c w : Option R) :
    HoldsOne (Function.update rows k ⟨c, some (i, w)⟩) i k c w where
  row := Function.update_self k _ rows
  others l hl := by
    rw [Function.update_of_ne hl]
    exact h l

theorem HoldsOne.update (h : HoldsOne rows i k c w) (w' : Option R) :
    HoldsOne (Function.update rows k ⟨c, some (i, w')⟩) i k c w' where
  row := Function.update_self k _ rows
  others l hl := by
    rw [Function.update_of_ne hl]
    exact h.others l hl

theorem moved_update (h : Moved j (rows k) row) (l : K) :
    Moved j (rows l) (Function.update rows k row l) := by
  by_cases hl : l = k
  · rwa [hl, Function.update_self]
  · rw [Function.update_of_ne hl]
    exact .refl j _

theorem committed_update (h : row.committed = (rows k).committed) (l : K) :
    (Function.update rows k row l).committed = (rows l).committed := by
  by_cases hl : l = k
  · rw [hl, Function.update_self, h]
  · rw [Function.update_of_ne hl]

theorem HoldsOne.commit (h : HoldsOne rows i k c (some r)) (l : K) :
    ((rows l).commit i).committed = if l = k then some r else (rows l).committed := by
  by_cases hl : l = k
  · rw [if_pos hl, hl, h.row, commit_of_lock]
    rfl
  · rw [if_neg hl, commit_of_free (h.others l hl)]

end Rows

end Row

end Scenara.Core

import Scenara.Core.Raising
import Scenara.DataService.Client
import Scenara.DataService.Versions

/-!
# Pages, across the two services

Model of `_paged_datasets` and `_paged_dataset_versions` (`platform/data_platform.py`) against
`list_datasets` and `list_versions` (`scenara_data/app.py`), with the path and the query parameters
as text in between.
-/

namespace Scenara.DataService

open Scenara.Core

/-! ## Cursors -/

/-- How FastAPI reads an `int` of the query. -/
structure Query where
  int : String → Option ℤ
  int_repr : ∀ n : Nat, int n.repr = some (n : ℤ)
  int_letter : ∀ (c : Char) (cs : List Char), c.isAlpha = true →
    int (String.ofList (c :: cs)) = none

variable (query : Query)

/-- The tenant and project of a `PrincipalContext`, as `context` wants them. -/
structure Scope where
  tenantId : String
  projectId : String
  principalId : String
  tenantId_ne : tenantId ≠ ""
  projectId_ne : projectId ≠ ""

/-- `DatasetPage`, `DatasetVersionPage`. -/
structure CorePage (α : Type) where
  items : List α
  offset : Nat
  limit : Nat
  total : ℤ

section Client

variable {α : Type} (setting : Setting) (decode : Doc → Except Raised α)

/-- The page has the items of the service's list from `offset` on, and its total. -/
def Agrees (rows : List Record) (offset limit : Nat) (result : Except Raised (CorePage α)) : Prop :=
  ∃ items, (slice offset (offset + limit) rows).mapM (fun r => decode (.obj r.entries)) =
    .ok items ∧ result = .ok ⟨items, offset, limit, rows.length⟩

end Client

section Loop

variable {α : Type} {query} {setting : Setting} {decode : Doc → Except Raised α} {noun : String}
  {rows : List Record} {offset limit n : Nat}

end Loop

/-! ## The paths -/

variable {query} {wire : Wire} {setting : Setting} {core : CoreSetting} {s : DataStore} {r : Record}
  {drawn : Nat} {recordId field datasetId : String} {scope : Scope}

theorem validated_ok {α : Type} {valid : Prop} [Decidable valid] {value : α} :
    (∃ x, validated (decide valid) value = .ok x) ↔ valid := by
  by_cases h : valid <;> simp [validated, h]

/-- An `int` of digits only. -/
def decimalInt (s : String) : Option ℤ :=
  if !s.toList.isEmpty && s.toList.all Char.isDigit then some (natOfDigits s.toList : ℤ) else none

theorem decimalInt_repr (n : Nat) : decimalInt n.repr = some (n : ℤ) := by
  have hdigits : ∀ c ∈ Nat.toDigits 10 n, c.isDigit = true := fun c hc =>
    Nat.isDigit_of_mem_toDigits (by decide) (by decide) hc
  have hvalue : natOfDigits (Nat.toDigits 10 n) = n := Nat.ofDigitChars_ten_toDigits
  rw [decimalInt, Nat.toList_repr, if_pos, hvalue]
  simpa [Nat.toDigits_ne_nil] using hdigits

theorem isAlpha_ne_true {c : Char} (h : c.isDigit = true) : c.isAlpha ≠ true := by
  obtain ⟨hlow, hhigh⟩ := Char.isDigit_iff_toNat.1 h
  have hletter : ∀ n ∈ List.range' 48 10, (Char.ofNat n).isAlpha = false := by decide
  rw [← Char.ofNat_toNat c, hletter c.toNat (List.mem_range'_1.2 ⟨hlow, Nat.lt_succ_of_le hhigh⟩)]
  exact Bool.false_ne_true

theorem decimalInt_letter (c : Char) (cs : List Char) (h : c.isAlpha = true) :
    decimalInt (String.ofList (c :: cs)) = none := by
  rw [decimalInt, String.toList_ofList, if_neg]
  intro hdigits
  rw [Bool.and_eq_true, List.all_eq_true] at hdigits
  exact isAlpha_ne_true (hdigits.2 c List.mem_cons_self) h

/-- Numbers of digits only. -/
def decimal : Query where
  int := decimalInt
  int_repr := decimalInt_repr
  int_letter := decimalInt_letter

/-- One dataset. -/
def oneDataset : List Request :=
  [requestOf (.createDataset ⟨"lanes", "one", .empty, some "dst-2", ["road"], by decide, by decide,
    by decide, by decide⟩)]

/-- It is described anew, and gets a version. -/
def oneVersion : List Request :=
  oneDataset ++
    [requestOf (.updateDataset "dst-2" ⟨none, some "two", some "active", none, by decide, by decide,
        by decide⟩),
      requestOf (.createVersion "dst-2" ⟨"0.1.0", "", 3, by decide, .inl rfl⟩)]

end Scenara.DataService

import Mathlib.Algebra.Order.Field.Rat
import Mathlib.Data.List.Basic
import Mathlib.Data.List.TakeDrop
import Mathlib.Data.List.TakeWhile

/-!
# JSON values and documents

A `Doc` is a JSON document as it is written: the fields of an object have an order, and a number is
the literal that stands there, so that `1` and `1.0` are two numbers of one value.

* `Json.anyKey`: the recursive scan for a key; it finds what there is (`anyKey_iff`).
* `Doc.same`: equality of the values, whatever the order of fields.
-/

namespace Scenara.Core

/-- A JSON value; the fields of an object are in their order. -/
inductive Json where
  | null
  | bool (b : Bool)
  | num (n : ℚ)
  | str (s : String)
  | arr (items : List Json)
  | obj (fields : List (String × Json))

namespace Json

/-- The key stands in an object at some depth. -/
inductive KeyIn (key : String) : Json → Prop where
  | here {fields : List (String × Json)} {v : Json} (h : (key, v) ∈ fields) :
      KeyIn key (.obj fields)
  | field {fields : List (String × Json)} {e : String × Json} (h : e ∈ fields)
      (hin : KeyIn key e.2) : KeyIn key (.obj fields)
  | item {items : List Json} {v : Json} (h : v ∈ items) (hin : KeyIn key v) : KeyIn key (.arr items)

mutual

/-- Some key at some depth satisfies `p`. -/
def anyKey (p : String → Bool) : Json → Bool
  | .obj fields => anyKeyFields p fields
  | .arr items => anyKeyItems p items
  | .null | .bool _ | .num _ | .str _ => false

/-- Some key of the fields, at any depth. -/
def anyKeyFields (p : String → Bool) : List (String × Json) → Bool
  | [] => false
  | (key, v) :: fields => p key || anyKey p v || anyKeyFields p fields

/-- Some key of the items, at any depth. -/
def anyKeyItems (p : String → Bool) : List Json → Bool
  | [] => false
  | v :: items => anyKey p v || anyKeyItems p items

end

variable {p : String → Bool}

theorem keyIn_obj {key : String} {fields : List (String × Json)} :
    KeyIn key (.obj fields) ↔ ∃ e ∈ fields, e.1 = key ∨ KeyIn key e.2 := by
  constructor
  · rintro (⟨h⟩ | ⟨h, hin⟩)
    · exact ⟨_, h, .inl rfl⟩
    · exact ⟨_, h, .inr hin⟩
  · rintro ⟨e, h, rfl | hin⟩
    · exact .here (v := e.2) h
    · exact .field h hin

theorem keyIn_arr {key : String} {items : List Json} :
    KeyIn key (.arr items) ↔ ∃ v ∈ items, KeyIn key v := by
  constructor
  · rintro (_ | _ | ⟨h, hin⟩)
    exact ⟨_, h, hin⟩
  · rintro ⟨v, h, hin⟩
    exact .item h hin

mutual

theorem anyKey_iff : ∀ v : Json, anyKey p v = true ↔ ∃ key, KeyIn key v ∧ p key = true
  | .obj fields => by
    rw [anyKey, anyKeyFields_iff fields]
    simp only [keyIn_obj]
    constructor
    · rintro ⟨e, he, hp | ⟨key, hin, hp⟩⟩
      · exact ⟨e.1, ⟨e, he, .inl rfl⟩, hp⟩
      · exact ⟨key, ⟨e, he, .inr hin⟩, hp⟩
    · rintro ⟨key, ⟨e, he, rfl | hin⟩, hp⟩
      · exact ⟨e, he, .inl hp⟩
      · exact ⟨e, he, .inr ⟨key, hin, hp⟩⟩
  | .arr items => by
    rw [anyKey, anyKeyItems_iff items]
    simp only [keyIn_arr]
    constructor
    · rintro ⟨v, hv, key, hin, hp⟩
      exact ⟨key, ⟨v, hv, hin⟩, hp⟩
    · rintro ⟨key, ⟨v, hv, hin⟩, hp⟩
      exact ⟨v, hv, key, hin, hp⟩
  | .null | .bool _ | .num _ | .str _ => by
    refine iff_of_false (by simp [anyKey]) ?_
    rintro ⟨_, hin, -⟩
    cases hin

theorem anyKeyFields_iff : ∀ fields : List (String × Json), anyKeyFields p fields = true ↔
    ∃ e ∈ fields, p e.1 = true ∨ ∃ key, KeyIn key e.2 ∧ p key = true
  | [] => by simp [anyKeyFields]
  | (key, v) :: fields => by
    rw [anyKeyFields, Bool.or_eq_true, Bool.or_eq_true, anyKey_iff v, anyKeyFields_iff fields,
      List.exists_mem_cons_iff]

theorem anyKeyItems_iff : ∀ items : List Json, anyKeyItems p items = true ↔
    ∃ v ∈ items, ∃ key, KeyIn key v ∧ p key = true
  | [] => by simp [anyKeyItems]
  | v :: items => by
    rw [anyKeyItems, Bool.or_eq_true, anyKey_iff v, anyKeyItems_iff items, List.exists_mem_cons_iff]

end

/-! ## Equality and fields -/

mutual

/-- `==` of decoded values: a boolean is a number, and the order of fields is immaterial. -/
def eqv : Json → Json → Bool
  | .null, .null => true
  | .bool a, .bool b => a = b
  | .bool a, .num n => n = if a then 1 else 0
  | .num m, .bool b => m = if b then 1 else 0
  | .num m, .num n => m = n
  | .str a, .str b => a = b
  | .arr xs, .arr ys => eqvItems xs ys
  | .obj fields, .obj fields' => fields.length = fields'.length && eqvFields fields fields'
  | _, _ => false

/-- Equal item by item. -/
def eqvItems : List Json → List Json → Bool
  | [], [] => true
  | x :: xs, y :: ys => eqv x y && eqvItems xs ys
  | _, _ => false

/-- The fields are among the others. -/
def eqvFields : List (String × Json) → List (String × Json) → Bool
  | [], _ => true
  | (key, x) :: fields, fields' =>
    (match fields'.lookup key with
      | some y => eqv x y
      | none => false) && eqvFields fields fields'

end

/-- The field of an object. -/
def field? (key : String) : Json → Option Json
  | .obj fields => fields.lookup key
  | _ => none

end Json

/-! ## Documents -/

/-- The digits at the head of a text, and what follows them. -/
def digits (cs : List Char) : List Char × List Char := cs.span Char.isDigit

/-- `0|[1-9][0-9]*` -/
def scanWhole : List Char → Option (List Char × List Char)
  | [] => none
  | c :: cs =>
    if c = '0' then some (['0'], cs)
    else if c.isDigit then some (c :: (digits cs).1, (digits cs).2)
    else none

/-- `(\.[0-9]+)?` -/
def scanFraction : List Char → List Char × List Char
  | [] => ([], [])
  | c :: cs =>
    if c = '.' ∧ (digits cs).1 ≠ [] then (c :: (digits cs).1, (digits cs).2) else ([], c :: cs)

/-- `[-+]?` -/
def scanSign : List Char → List Char × List Char
  | [] => ([], [])
  | c :: cs => if c = '-' ∨ c = '+' then ([c], cs) else ([], c :: cs)

/-- `([eE][-+]?[0-9]+)?` -/
def scanExponent : List Char → List Char × List Char
  | [] => ([], [])
  | c :: cs =>
    let (sign, rest) := scanSign cs
    if (c = 'e' ∨ c = 'E') ∧ (digits rest).1 ≠ [] then
      (c :: (sign ++ (digits rest).1), (digits rest).2)
    else ([], c :: cs)

/-- `-?` -/
def scanMinus : List Char → List Char × List Char
  | [] => ([], [])
  | c :: cs => if c = '-' then ([c], cs) else ([], c :: cs)

/-- The longest number at the head of a text, and what follows it. -/
def scanNumber (cs : List Char) : Option (List Char × List Char) := do
  let (minus, cs) := scanMinus cs
  let (whole, cs) ← scanWhole cs
  let (fraction, cs) := scanFraction cs
  let (exponent, cs) := scanExponent cs
  return (minus ++ whole ++ fraction ++ exponent, cs)

/-- A number literal. -/
structure Number where
  chars : List Char
  isNumber : scanNumber chars = some (chars, [])

instance : DecidableEq Number := fun m n =>
  decidable_of_iff (m.chars = n.chars)
    ⟨fun h => by cases m; cases n; simpa using h, fun h => h ▸ rfl⟩

/-- The number that digits are. -/
def natOfDigits (cs : List Char) : Nat := cs.foldl (fun n c => 10 * n + (c.toNat - '0'.toNat)) 0

/-- The exponent. -/
def exponentValue : List Char → ℤ
  | [] => 0
  | _ :: cs =>
    let (sign, ds) := scanSign cs
    if sign = ['-'] then -natOfDigits ds else natOfDigits ds

/-- The value of a literal. -/
def Number.value (n : Number) : ℚ :=
  let (minus, cs) := scanMinus n.chars
  let (whole, cs) := digits cs
  let (fraction, cs) := scanFraction cs
  let magnitude : ℚ :=
    natOfDigits (whole ++ fraction.tail) * (10 : ℚ) ^ (exponentValue cs - fraction.tail.length)
  if minus = [] then magnitude else -magnitude

/-! ### Whole numbers -/

theorem digits_of_all {cs : List Char} (h : ∀ c ∈ cs, c.isDigit = true) : digits cs = (cs, []) := by
  rw [digits, List.span_eq_takeWhile_dropWhile, List.takeWhile_eq_self_iff.2 h,
    List.dropWhile_eq_nil_iff.2 h]

theorem head_toDigits {n : Nat} (hn : 0 < n) : (Nat.toDigits 10 n).head? ≠ some '0' := by
  induction n using Nat.strongRecOn with
  | ind n ih =>
    rw [Nat.toDigits_eq_if (by decide)]
    split
    · simp [Nat.pos_iff_ne_zero.1 hn]
    · rename_i hlarge
      rw [List.head?_append_of_ne_nil _ Nat.toDigits_ne_nil]
      exact ih (n / 10) (Nat.div_lt_self hn (by decide))
        (Nat.div_pos (Nat.le_of_not_lt hlarge) (by decide))

theorem scanNumber_toDigits (n : Nat) :
    scanNumber (Nat.toDigits 10 n) = some (Nat.toDigits 10 n, []) := by
  rcases Nat.eq_zero_or_pos n with rfl | hn
  · decide
  · have hdigits : ∀ c ∈ Nat.toDigits 10 n, c.isDigit = true := fun c hc =>
      Nat.isDigit_of_mem_toDigits (by decide) (by decide) hc
    have hhead := head_toDigits hn
    cases hcs : Nat.toDigits 10 n with
    | nil => exact absurd hcs Nat.toDigits_ne_nil
    | cons c =>
      rw [hcs] at hdigits hhead
      have hc := hdigits c List.mem_cons_self
      have hminus : c ≠ '-' := by
        rintro rfl
        exact absurd hc (by decide)
      have hzero : c ≠ '0' := fun heq => hhead (congrArg some heq)
      simp [scanNumber, scanMinus, hminus, scanWhole, hzero, hc,
        digits_of_all fun d hd => hdigits d (List.mem_cons_of_mem c hd), scanFraction, scanExponent]

/-- The literal of a whole number. -/
def Number.ofNat (n : Nat) : Number := ⟨Nat.toDigits 10 n, scanNumber_toDigits n⟩

theorem value_ofNat (n : Nat) : (Number.ofNat n).value = n := by
  have hdigits : ∀ c ∈ Nat.toDigits 10 n, c.isDigit = true := fun c hc =>
    Nat.isDigit_of_mem_toDigits (by decide) (by decide) hc
  have hminus : scanMinus (Nat.toDigits 10 n) = ([], Nat.toDigits 10 n) := by
    cases hcs : Nat.toDigits 10 n with
    | nil => rfl
    | cons c =>
      have hc : c ≠ '-' := by
        rintro rfl
        exact absurd (hdigits '-' (hcs ▸ List.mem_cons_self)) (by decide)
      simp [scanMinus, hc]
  have hvalue : natOfDigits (Nat.toDigits 10 n) = n := Nat.ofDigitChars_ten_toDigits
  unfold Number.value Number.ofNat
  simp [hminus, digits_of_all hdigits, scanFraction, exponentValue, hvalue]

/-! ## Documents -/

/-- A JSON document. -/
inductive Doc where
  | null
  | bool (b : Bool)
  | num (n : Number)
  | str (s : String)
  | arr (items : List Doc)
  | obj (fields : List (String × Doc))

namespace Doc

mutual

/-- Equality of JSON values. -/
def same : Doc → Doc → Bool
  | .null, .null => true
  | .bool a, .bool b => a = b
  | .num m, .num n => m.value = n.value
  | .str a, .str b => a = b
  | .arr xs, .arr ys => sameItems xs ys
  | .obj fields, .obj fields' => sameFields fields fields'
  | _, _ => false

/-- The same item by item. -/
def sameItems : List Doc → List Doc → Bool
  | [], [] => true
  | x :: xs, y :: ys => same x y && sameItems xs ys
  | _, _ => false

/-- The fields of two objects, in any order. -/
def sameFields : List (String × Doc) → List (String × Doc) → Bool
  | [], fields' => fields'.isEmpty
  | (key, x) :: fields, fields' =>
    match fields'.lookup key with
    | some y => same x y && sameFields fields (fields'.eraseP fun e => e.1 = key)
    | none => false

end

mutual

theorem same_refl : ∀ d : Doc, same d d = true
  | .null => rfl
  | .bool _ | .num _ | .str _ => by simp [same]
  | .arr items => by rw [same, sameItems_refl items]
  | .obj fields => by rw [same, sameFields_refl fields]

theorem sameItems_refl : ∀ items : List Doc, sameItems items items = true
  | [] => rfl
  | x :: xs => by rw [sameItems, same_refl x, sameItems_refl xs, Bool.and_self]

theorem sameFields_refl : ∀ fields : List (String × Doc), sameFields fields fields = true
  | [] => rfl
  | (key, x) :: fields => by
    simp [sameFields, same_refl x, sameFields_refl fields]

end

mutual

/-- The texts of a document, the keys of its objects included. -/
def texts : Doc → List String
  | .null | .bool _ | .num _ => []
  | .str s => [s]
  | .arr items => textsOfItems items
  | .obj fields => textsOfFields fields

/-- The texts in items. -/
def textsOfItems : List Doc → List String
  | [] => []
  | x :: xs => texts x ++ textsOfItems xs

/-- The keys of fields and the texts in them. -/
def textsOfFields : List (String × Doc) → List String
  | [] => []
  | (key, x) :: fields => key :: texts x ++ textsOfFields fields

end

/-- A whole number. -/
def int (n : Nat) : Doc := .num (.ofNat n)

/-- The literal `1`. -/
def one : Doc := .num ⟨['1'], by decide⟩

end Doc

end Scenara.Core

import Mathlib.Data.List.TakeWhile

/-!
# Strings

* `partition`: the two sides of the first separator. `append_sep_inj`: a text without the separator
  that is put before one comes out again, so such keys are unambiguous.
* `isSemanticVersion`: the pattern of version labels, matched against a whole string.
-/

namespace Scenara.Core

/-! ## Partitioning -/

/-- `s.partition(sep)`. -/
def partition (sep : Char) (s : String) : String × Bool × String :=
  (String.ofList (s.toList.takeWhile (· ≠ sep)), sep ∈ s.toList,
    String.ofList (s.toList.dropWhile (· ≠ sep)).tail)

variable {sep : Char} {a b a' b' s : String}

theorem partition_append (hs : s.toList = [sep]) (h : sep ∉ a.toList) :
    partition sep (a ++ s ++ b) = (a, true, b) := by
  have hchars : (a ++ s ++ b).toList = a.toList ++ sep :: b.toList := by simp [hs]
  have hbefore : ∀ c ∈ a.toList, decide (c ≠ sep) = true := by
    intro c hc
    exact decide_eq_true fun heq => h (heq ▸ hc)
  unfold partition
  rw [hchars, List.takeWhile_append_of_pos hbefore, List.dropWhile_append_of_pos hbefore]
  simp

theorem append_sep_inj (hs : s.toList = [sep]) (h : sep ∉ a.toList) (h' : sep ∉ a'.toList)
    (heq : a ++ s ++ b = a' ++ s ++ b') : a = a' ∧ b = b' := by
  have hpair := congrArg (partition sep) heq
  rw [partition_append hs h, partition_append hs h', Prod.mk.injEq, Prod.mk.injEq] at hpair
  exact ⟨hpair.1, hpair.2.2⟩

/-! ## Version labels

`\d` is the class of the decimal digits of every script, a parameter (`decimal`). -/

section SemanticVersion

variable (decimal : Char → Bool)

/-- `\d+`, from the start. -/
def afterDigits : List Char → Option (List Char)
  | [] => none
  | c :: cs => if decimal c then some (cs.dropWhile decimal) else none

/-- One literal character. -/
def afterChar (c : Char) : List Char → Option (List Char)
  | [] => none
  | d :: ds => if d = c then some ds else none

/-- `[a-z0-9.-]`. -/
def isLabelChar (c : Char) : Bool :=
  ('a' ≤ c && c ≤ 'z') || ('0' ≤ c && c ≤ '9') || c = '.' || c = '-'

/-- `re.fullmatch(r"\d+\.\d+\.\d+(?:-[a-z0-9.-]+)?", version)`. -/
def isSemanticVersion (version : String) : Bool :=
  let numbers := do
    let rest ← afterChar '.' (← afterDigits decimal version.toList)
    let rest ← afterChar '.' (← afterDigits decimal rest)
    afterDigits decimal rest
  match numbers with
  | some [] => true
  | some ('-' :: label) => label ≠ [] && label.all isLabelChar
  | _ => false

end SemanticVersion

end Scenara.Core

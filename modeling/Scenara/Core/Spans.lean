import Mathlib.Algebra.Order.Group.Defs
import Mathlib.Data.List.Basic

/-!
# Stretches of time

A `Span` has a key and a first and a last time. `join` puts neighbours of equal key together.

* `joinCons_joinCons`: joining is associative on neighbours of one key.
* `join_join_append`, `join_append_join`: joining parts first changes nothing, so
  **`join_flatMap`**: the joined parts, joined, are the whole, joined.
-/

namespace Scenara.Core

variable {κ τ : Type*} [DecidableEq κ]

/-- A stretch of time with a key. -/
structure Span (κ τ : Type*) where
  key : κ
  first : τ
  last : τ
  deriving DecidableEq

/-- A span in front of joined ones. -/
def joinCons (s : Span κ τ) : List (Span κ τ) → List (Span κ τ)
  | [] => [s]
  | t :: ts => if s.key = t.key then { s with last := t.last } :: ts else s :: t :: ts

/-- Neighbours of equal key are put together. -/
def join (spans : List (Span κ τ)) : List (Span κ τ) := spans.foldr joinCons []

@[simp] theorem join_cons (s : Span κ τ) (spans : List (Span κ τ)) :
    join (s :: spans) = joinCons s (join spans) := rfl

theorem joinCons_joinCons {s t : Span κ τ} (h : s.key = t.key) (ts : List (Span κ τ)) :
    joinCons { s with last := t.last } ts = joinCons s (joinCons t ts) := by
  cases ts with
  | nil => simp [joinCons, h]
  | cons u =>
    by_cases hu : t.key = u.key <;> simp [joinCons, h, hu]

theorem joinCons_of_ne {s t : Span κ τ} (h : s.key ≠ t.key) (ts : List (Span κ τ)) :
    joinCons s (joinCons t ts) = s :: joinCons t ts := by
  cases ts with
  | nil => simp [joinCons, h]
  | cons u =>
    by_cases hu : t.key = u.key
    · rw [joinCons, if_pos hu, joinCons, if_neg h]
    · rw [joinCons, if_neg hu, joinCons, if_neg h]

theorem join_joinCons_append (s : Span κ τ) (ts us : List (Span κ τ)) :
    join (joinCons s ts ++ us) = joinCons s (join (ts ++ us)) := by
  cases ts with
  | nil => rfl
  | cons t ts =>
    rw [List.cons_append, join_cons, joinCons]
    split_ifs with h
    · rw [List.cons_append, join_cons]
      exact joinCons_joinCons h (join (ts ++ us))
    · rfl

theorem join_join_append (xs ys : List (Span κ τ)) : join (join xs ++ ys) = join (xs ++ ys) := by
  induction xs with
  | nil => rfl
  | cons x _ ih => rw [join_cons, join_joinCons_append, ih, List.cons_append, join_cons]

theorem join_idem (xs : List (Span κ τ)) : join (join xs) = join xs := by
  simpa using join_join_append xs []

theorem join_append_join (xs ys : List (Span κ τ)) : join (xs ++ join ys) = join (xs ++ ys) := by
  induction xs with
  | nil => exact join_idem ys
  | cons x _ ih => rw [List.cons_append, join_cons, ih, List.cons_append, join_cons]

theorem join_flatMap {α : Type*} (f : α → List (Span κ τ)) (parts : List α) :
    join (parts.flatMap fun part => join (f part)) = join (parts.flatMap f) := by
  induction parts with
  | nil => rfl
  | cons _ _ ih =>
    rw [List.flatMap_cons, List.flatMap_cons, join_join_append, ← join_append_join, ih,
      join_append_join]

/-! ## Windows of one width -/

section Windows

variable {T ι : Type*} [AddCommGroup T] [LinearOrder T]

/-- A window and what was counted in it. -/
structure Window (T ι : Type*) where
  started : T
  items : List ι

namespace Window

variable {width : T} {time : ι → T} {ws : List (Window T ι)} {w : Window T ι} {x : ι} {xs : List ι}

/-- The windows after one more item, the last one first. -/
def place (width : T) (time : ι → T) (ws : List (Window T ι)) (x : ι) : List (Window T ι) :=
  match ws with
  | [] => [⟨time x, [x]⟩]
  | w :: ws =>
    if time x < w.started + width then ⟨w.started, w.items ++ [x]⟩ :: ws
    else ⟨time x, [x]⟩ :: w :: ws

/-- The windows of items, the last one first. -/
def windows (width : T) (time : ι → T) (xs : List ι) : List (Window T ι) :=
  xs.foldl (place width time) []

theorem windows_append (xs : List ι) (x : ι) :
    windows width time (xs ++ [x]) = place width time (windows width time xs) x := by
  rw [windows, List.foldl_append]
  rfl

theorem place_nil (x : ι) : place width time [] x = [⟨time x, [x]⟩] := rfl

theorem place_open (h : time x < w.started + width) :
    place width time (w :: ws) x = ⟨w.started, w.items ++ [x]⟩ :: ws := if_pos h

theorem place_over (h : ¬time x < w.started + width) :
    place width time (w :: ws) x = ⟨time x, [x]⟩ :: w :: ws := if_neg h

end Window

end Windows

end Scenara.Core

import Mathlib.Data.List.Forall2

/-!
# Computations that raise with what they had done

The body of a `try` block whose handler looks at what the body did: a state transformer that ends
with a state, or raises an error together with the state it had reached. `reached` is the state
either way.
-/

namespace Scenara.Core

variable {ε σ : Type}

/-- The state reached, normally or by raising. -/
def reached : Except (ε × σ) σ → σ
  | .ok a => a
  | .error e => e.2

@[simp] theorem reached_ok (a : σ) : reached (.ok a : Except (ε × σ) σ) = a := rfl

@[simp] theorem reached_error (e : ε) (a : σ) :
    reached (.error (e, a) : Except (ε × σ) σ) = a := rfl

theorem bind_eq_ok {ε α β : Type} {x : Except ε α} {g : α → Except ε β} {b : β} :
    (x >>= g) = .ok b ↔ ∃ a, x = .ok a ∧ g a = .ok b := by
  constructor
  · intro h
    cases x with
    | error e => exact absurd h (by simp [bind, Except.bind])
    | ok a => exact ⟨a, rfl, h⟩
  · rintro ⟨a, rfl, h⟩
    exact h

theorem check_eq_ok {ε α : Type} {P : Prop} [Decidable P] {e : ε} {x : Except ε α} {a : α} :
    (if P then .error e else x) = .ok a ↔ ¬P ∧ x = .ok a := by
  by_cases h : P <;> simp [h]

theorem reached_bind {R : σ → σ → Prop} (trans : ∀ a b c, R a b → R b c → R a c) {a : σ}
    {x : Except (ε × σ) σ} {g : σ → Except (ε × σ) σ} (hx : R a (reached x))
    (hg : ∀ b, x = .ok b → R b (reached (g b))) : R a (reached (x >>= g)) := by
  cases x with
  | error e => exact hx
  | ok b => exact trans a b _ hx (hg b rfl)

/-- **Loops.** What every turn keeps holds where the loop ends, also when a turn raises. -/
theorem reached_foldlM {α : Type} {I : σ → Prop} {f : σ → α → Except (ε × σ) σ}
    (hstep : ∀ a x, I a → I (reached (f a x))) {a : σ} (h : I a) (xs : List α) :
    I (reached (xs.foldlM f a)) := by
  induction xs generalizing a with
  | nil => exact h
  | cons x _ ih =>
    rw [List.foldlM_cons]
    have hx := hstep a x h
    cases hf : f a x with
    | error e =>
      rwa [hf] at hx
    | ok b =>
      rw [hf] at hx
      exact ih hx

/-- **Loops of `Option`.** What every turn over an element of the list keeps holds at the end. -/
theorem some_foldlM {α : Type} {I : σ → Prop} {f : σ → α → Option σ} (xs : List α)
    (hstep : ∀ a, ∀ x ∈ xs, I a → ∀ b, f a x = some b → I b) {a b : σ} (h : I a)
    (hloop : xs.foldlM f a = some b) : I b := by
  induction xs generalizing a with
  | nil =>
    cases hloop
    exact h
  | cons x _ ih =>
    rw [List.foldlM_cons, Option.bind_eq_bind, Option.bind_eq_some_iff] at hloop
    obtain ⟨c, hc, hloop⟩ := hloop
    exact ih (fun a y hy => hstep a y (List.mem_cons_of_mem x hy))
      (hstep a x List.mem_cons_self h c hc) hloop

/-! ## Forgetting part of the state -/

section Project

variable {τ : Type} {view : σ → τ}

/-- The computation, seen through `view`. -/
def project (view : σ → τ) : Except (ε × σ) σ → Except (ε × τ) τ
  | .ok a => .ok (view a)
  | .error e => .error (e.1, view e.2)

theorem reached_project (x : Except (ε × σ) σ) : reached (project view x) = view (reached x) := by
  cases x <;> rfl

theorem project_bind {x : Except (ε × σ) σ} {y : Except (ε × τ) τ}
    {g : σ → Except (ε × σ) σ} {g' : τ → Except (ε × τ) τ} (hx : project view x = y)
    (hg : ∀ b, project view (g b) = g' (view b)) : project view (x >>= g) = y >>= g' := by
  subst hx
  cases x with
  | error e => rfl
  | ok b => exact hg b

/-- **Loops.** A loop is seen through `view` when every turn is. -/
theorem project_foldlM {α β : Type} {f : σ → α → Except (ε × σ) σ}
    {f' : τ → β → Except (ε × τ) τ} (m : α → β)
    (hturn : ∀ a x, project view (f a x) = f' (view a) (m x)) (xs : List α) (a : σ) :
    project view (xs.foldlM f a) = (xs.map m).foldlM f' (view a) := by
  induction xs generalizing a with
  | nil => rfl
  | cons x _ ih =>
    exact project_bind (hturn a x) ih

end Project

section Loops

variable {ε' σ' α : Type} {f : σ' → α → Except ε' σ'}

/-- What every turn keeps of the elements done so far holds of all of them at the end. -/
theorem ok_foldlM {I : List α → σ' → Prop} (xs : List α)
    (hstep : ∀ done x a b, x ∈ xs → I done a → f a x = .ok b → I (done ++ [x]) b)
    {a b : σ'} (h : I [] a) (hloop : xs.foldlM f a = .ok b) : I xs b := by
  suffices hrest : ∀ (rest done : List α) (a : σ'), (∀ x ∈ rest, x ∈ xs) → I done a →
      rest.foldlM f a = .ok b → I (done ++ rest) b from hrest xs [] a (fun _ hx => hx) h hloop
  intro rest
  induction rest with
  | nil =>
    intro _ a _ _ hb
    cases hb
    rwa [List.append_nil]
  | cons x _ ih =>
    intro done a hsub hI hb
    rw [List.foldlM_cons] at hb
    cases hx : f a x with
    | error e =>
      rw [hx] at hb
      cases hb
    | ok c =>
      rw [hx] at hb
      have hc := hstep done x a c (hsub x List.mem_cons_self) hI hx
      have hall := ih (done ++ [x]) c (fun y hy => hsub y (List.mem_cons_of_mem x hy)) hc hb
      rwa [List.append_assoc] at hall

variable {xs : List α} {β : Type} {hits : α → Except ε' (List β)}

theorem error_foldlM {a : σ'} {e : ε'} (hloop : xs.foldlM f a = .error e) :
    ∃ pre x post b, xs = pre ++ x :: post ∧ pre.foldlM f a = .ok b ∧ f b x = .error e := by
  induction xs generalizing a with
  | nil => cases hloop
  | cons x xs ih =>
    rw [List.foldlM_cons] at hloop
    cases hx : f a x with
    | error =>
      rw [hx] at hloop
      cases hloop
      exact ⟨[], x, xs, a, rfl, rfl, hx⟩
    | ok c =>
      rw [hx] at hloop
      obtain ⟨pre, y, post, b, rfl, _, hy⟩ := ih hloop
      refine ⟨x :: pre, y, post, b, rfl, ?_, hy⟩
      rwa [List.foldlM_cons, hx]

theorem forM_ok {f : α → Except ε' Unit} :
    xs.forM f = .ok () ↔ ∀ x ∈ xs, f x = .ok () := by
  induction xs with
  | nil => simp [List.forM, pure, Except.pure]
  | cons x _ ih =>
    rw [List.forM, List.forall_mem_cons, ← ih]
    cases f x with
    | error | ok => simp [bind, Except.bind]

/-- What all turns get. -/
def gather {β : Type} (hits : α → Except ε' (List β)) (xs : List α) : Except ε' (List β) :=
  (xs.mapM hits).map List.flatten

end Loops

end Scenara.Core

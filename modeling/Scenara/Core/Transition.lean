import Mathlib.Data.List.Chain
import Mathlib.Data.String.Basic
import Mathlib.Order.Nat

/-!
# Runs of a labelled transition system

A system is a partial step function `step : σ → α → Option σ`: `step s a = some s'` when the
action `a` may be taken in `s`. A run is the list of its actions.

* `Along P`: every action of the run is taken in a state where `P` holds of it. Invariants are for
  such runs.
-/

namespace Scenara.Core

variable {σ α : Type*} {step : σ → α → Option σ}

/-- The last state of the run `as` from `s`, if every action may be taken. -/
def exec (step : σ → α → Option σ) : σ → List α → Option σ
  | s, [] => some s
  | s, a :: as => (step s a).bind fun s' => exec step s' as

/-- Every state of the run, in order. -/
def states (step : σ → α → Option σ) : σ → List α → List σ
  | s, [] => [s]
  | s, a :: as =>
    s :: match step s a with
      | some s' => states step s' as
      | none => []

/-- Every action of the run is taken in a state where `P` holds of it. -/
def Along (step : σ → α → Option σ) (P : σ → α → Prop) : σ → List α → Prop
  | _, [] => True
  | s, a :: as => P s a ∧ ∀ s', step s a = some s' → Along step P s' as

/-- A decidable condition on the steps is decidable along a run. -/
def decideAlong (step : σ → α → Option σ) (P : σ → α → Prop) [∀ s a, Decidable (P s a)] :
    ∀ (s : σ) (as : List α), Decidable (Along step P s as)
  | _, [] => isTrue trivial
  | s, a :: as =>
    match h : step s a with
    | none => decidable_of_iff (P s a) ⟨fun hP => ⟨hP, fun _ h' => by rw [h] at h'; cases h'⟩,
        And.left⟩
    | some s' =>
      have := decideAlong step P s' as
      decidable_of_iff (P s a ∧ Along step P s' as)
        ⟨fun hP => ⟨hP.1, fun _ h' => by rw [h] at h'; cases h'; exact hP.2⟩,
          fun hP => ⟨hP.1, hP.2 s' h⟩⟩

instance (P : σ → α → Prop) [∀ s a, Decidable (P s a)] (s : σ) (as : List α) :
    Decidable (Along step P s as) := decideAlong step P s as

theorem exec_nil (s : σ) : exec step s [] = some s := rfl

variable {as : List α}

theorem exec_cons {s t : σ} {a : α} :
    exec step s (a :: as) = some t ↔ ∃ s', step s a = some s' ∧ exec step s' as = some t := by
  simp only [exec, Option.bind_eq_some_iff]

theorem states_nil (s : σ) : states step s [] = [s] := rfl

theorem states_cons {s s' : σ} {a : α} (h : step s a = some s') :
    states step s (a :: as) = s :: states step s' as := by
  simp only [states, h]

theorem states_stuck {s : σ} {a : α} (h : step s a = none) :
    states step s (a :: as) = [s] := by
  simp only [states, h]

theorem states_head (s : σ) (as : List α) : ∃ l, states step s as = s :: l := by
  cases as with
  | nil => exact ⟨[], rfl⟩
  | cons a => exact ⟨_, rfl⟩

theorem mem_states_of_exec {s t : σ} (h : exec step s as = some t) :
    t ∈ states step s as := by
  induction as generalizing s with
  | nil =>
    cases h
    exact List.mem_singleton.2 rfl
  | cons a _ ih =>
    obtain ⟨_, hs, ht⟩ := exec_cons.mp h
    rw [states_cons hs]
    exact List.mem_cons_of_mem s (ih ht)

theorem exec_decide {P : σ → Prop} [DecidablePred P] {s : σ}
    (h : (exec step s as).any (fun t => decide (P t)) = true) : ∃ t, exec step s as = some t ∧
    P t := by
  obtain ⟨t, ht, hP⟩ := (Option.any_eq_true _ _).1 h
  exact ⟨t, ht, of_decide_eq_true hP⟩

theorem states_decide {P : σ → Prop} [DecidablePred P] {s : σ}
    (h : (exec step s as).any (fun t => decide (P t)) = true) : ∃ t ∈ states step s as, P t := by
  obtain ⟨t, ht, hP⟩ := exec_decide h
  exact ⟨t, mem_states_of_exec ht, hP⟩

theorem along_of_forall {P : σ → α → Prop} (h : ∀ s a, P s a) :
    ∀ (s : σ) (as : List α), Along step P s as
  | _, [] => trivial
  | s, a :: as => ⟨h s a, fun s' _ => along_of_forall h s' as⟩

section Invariant

variable {P : σ → α → Prop} {I : σ → Prop}

theorem along_of_invariant (hP : ∀ s a, I s → P s a)
    (hstep : ∀ s a s', I s → step s a = some s' → I s') :
    ∀ {s : σ} (as : List α), I s → Along step P s as
  | _, [], _ => trivial
  | s, a :: as, hI => ⟨hP s a hI, fun s' hs => along_of_invariant hP hstep as (hstep s a s' hI hs)⟩

variable {Q : σ → α → Prop}

theorem along_congr {A : α → Prop} (hPQ : ∀ s a, I s → A a → (P s a ↔ Q s a))
    (hstep : ∀ s a s', I s → A a → step s a = some s' → I s') :
    ∀ {s : σ} {as : List α}, I s → (∀ a ∈ as, A a) → (Along step P s as ↔ Along step Q s as)
  | _, [], _, _ => .rfl
  | s, a :: as, hI, hA => by
    rw [List.forall_mem_cons] at hA
    exact and_congr (hPQ s a hI hA.1) (forall₂_congr fun s' hs =>
      along_congr hPQ hstep (hstep s a s' hI hA.1 hs) hA.2)

/-- **Invariants.** What every good step keeps holds at the end of a run of good steps. -/
theorem invariant_exec (hstep : ∀ s a s', I s → P s a → step s a = some s' → I s') :
    ∀ {s t : σ} {as : List α}, I s → Along step P s as → exec step s as = some t → I t
  | s, t, [], hI, _, h => by rw [exec_nil] at h; cases h; exact hI
  | s, t, a :: as, hI, hP, h => by
    obtain ⟨s', hs, ht⟩ := exec_cons.mp h
    exact invariant_exec hstep (hstep s a s' hI hP.1 hs) (hP.2 s' hs) ht

theorem invariant_states (hstep : ∀ s a s', I s → P s a → step s a = some s' → I s') :
    ∀ {s : σ} {as : List α}, I s → Along step P s as → ∀ t ∈ states step s as, I t
  | s, [], hI, _, t, ht => by
    rw [states_nil, List.mem_singleton] at ht
    exact ht ▸ hI
  | s, a :: as, hI, hP, t, ht => by
    cases hs : step s a with
    | none =>
      rw [states_stuck hs, List.mem_singleton] at ht
      exact ht ▸ hI
    | some s' =>
      rw [states_cons hs, List.mem_cons] at ht
      rcases ht with rfl | ht
      · exact hI
      · exact invariant_states hstep (hstep s a s' hI hP.1 hs) (hP.2 s' hs) t ht

theorem invariant_all (hstep : ∀ s a s', I s → step s a = some s' → I s') {s : σ} (as : List α)
    (hI : I s) : ∀ t ∈ states step s as, I t :=
  invariant_states (fun s a s' h _ => hstep s a s' h) hI (along_of_forall (fun _ _ => trivial) s as)

theorem along_mono (hstep : ∀ s a s', I s → P s a → step s a = some s' → I s')
    (hQ : ∀ s a, I s → P s a → Q s a) : ∀ {s : σ} {as : List α}, I s → Along step P s as →
    Along step Q s as
  | _, [], _, _ => trivial
  | s, a :: _, hI, hP =>
    ⟨hQ s a hI hP.1, fun s' hs => along_mono hstep hQ (hstep s a s' hI hP.1 hs) (hP.2 s' hs)⟩

/-- **Relating every state to every later one.** `R` is transitive and every good step from a
state of the invariant keeps it. -/
theorem pairwise_states {R : σ → σ → Prop} (htrans : ∀ a b c, R a b → R b c → R a c)
    (hstep : ∀ s a s', I s → P s a → step s a = some s' → I s' ∧ R s s') :
    ∀ {s : σ} {as : List α}, I s → Along step P s as → (states step s as).Pairwise R
  | s, [], _, _ => List.pairwise_singleton R s
  | s, a :: as, hI, hP => by
    cases hs : step s a with
    | none => rw [states_stuck hs]; exact List.pairwise_singleton R s
    | some s' =>
      obtain ⟨hI', hR⟩ := hstep s a s' hI hP.1 hs
      have ih := pairwise_states htrans hstep hI' (hP.2 s' hs)
      rw [states_cons hs, List.pairwise_cons]
      refine ⟨fun t ht => ?_, ih⟩
      obtain ⟨l, hl⟩ : ∃ l, states step s' as = s' :: l := states_head s' as
      rw [hl] at ht ih
      rcases List.mem_cons.mp ht with rfl | ht
      · exact hR
      · exact htrans _ _ _ hR ((List.pairwise_cons.mp ih).1 t ht)

/-- **Step by step, along a run.** Two conditions that agree wherever the first has held so far. -/
theorem along_iff (hiff : ∀ s a, I s → (P s a ↔ Q s a))
    (hstep : ∀ s a s', I s → P s a → step s a = some s' → I s') :
    ∀ {s : σ} {as : List α}, I s → (Along step P s as ↔ Along step Q s as)
  | _, [], _ => Iff.rfl
  | s, a :: as, hI => by
    constructor
    · rintro ⟨hP, hrest⟩
      exact ⟨(hiff s a hI).1 hP, fun s' hs =>
        (along_iff hiff hstep (hstep s a s' hI hP hs)).1 (hrest s' hs)⟩
    · rintro ⟨hQ, hrest⟩
      have hP := (hiff s a hI).2 hQ
      exact ⟨hP, fun s' hs => (along_iff hiff hstep (hstep s a s' hI hP hs)).2 (hrest s' hs)⟩

/-- **Good states and good steps.** A step from a good state ends in a good one exactly when it is
good; a step that may not be taken is. -/
theorem states_iff (hstuck : ∀ s a, step s a = none → P s a)
    (hstep : ∀ s a s', I s → step s a = some s' → (I s' ↔ P s a)) :
    ∀ {s : σ} {as : List α}, I s → ((∀ t ∈ states step s as, I t) ↔ Along step P s as)
  | s, [], hI => by
    simp [states, Along, hI]
  | s, a :: as, hI => by
    cases hs : step s a with
    | none =>
      rw [states_stuck hs, Along, hs]
      simp [hI, hstuck s a hs]
    | some s' =>
      have hiff := hstep s a s' hI hs
      rw [states_cons hs, List.forall_mem_cons]
      constructor
      · rintro ⟨-, hall⟩
        obtain ⟨l, hl⟩ : ∃ l, states step s' as = s' :: l := states_head s' as
        have hI' : I s' := hall s' (by rw [hl]; exact List.mem_cons_self)
        refine ⟨hiff.1 hI', fun t ht => ?_⟩
        rw [hs] at ht
        cases ht
        exact (states_iff hstuck hstep hI').1 hall
      · rintro ⟨hP, hrest⟩
        exact ⟨hI, (states_iff hstuck hstep (hiff.2 hP)).2 (hrest s' hs)⟩

/-- **A defect that stays.** Once lost, `I` is lost for good: it holds at the end exactly when no
step lost it. `J` is what every step keeps. -/
theorem exec_iff {J : σ → Prop} (hkeep : ∀ s a s', J s → step s a = some s' → J s')
    (hstep : ∀ s a s', J s → step s a = some s' → (I s' ↔ I s ∧ P s a)) :
    ∀ {s t : σ} {as : List α}, J s → exec step s as = some t → (I t ↔ I s ∧ Along step P s as)
  | s, t, [], _, h => by
    rw [exec_nil] at h
    cases h
    exact (and_iff_left trivial).symm
  | s, t, a :: as, hJ, h => by
    obtain ⟨s', hs, ht⟩ := exec_cons.mp h
    rw [exec_iff hkeep hstep (hkeep s a s' hJ hs) ht, hstep s a s' hJ hs, and_assoc, Along, hs]
    simp

end Invariant

/-- Names drawn one after another, no two the same. -/
structure Fresh (α : Type*) where
  draw : Nat → α
  injective : Function.Injective draw

/-- The name is one of the first `n`, behind a stem. -/
def Fresh.Drawn (names : Fresh String) (stem : String) (n : Nat) (name : String) : Prop :=
  ∃ m < n, name = stem ++ names.draw m

namespace Fresh.Drawn

variable {names : Fresh String} {stem name : String} {m n : Nat}

theorem last (h : name = stem ++ names.draw n) : names.Drawn stem (n + 1) name :=
  ⟨n, Nat.lt_succ_self n, h⟩

theorem mono (h : names.Drawn stem m name) (hle : m ≤ n) : names.Drawn stem n name := by
  obtain ⟨l, hl, hname⟩ := h
  exact ⟨l, hl.trans_le hle, hname⟩

theorem ne (h : names.Drawn stem n name) : name ≠ stem ++ names.draw n := by
  obtain ⟨m, hm, rfl⟩ := h
  intro heq
  have hlists := congrArg String.toList heq
  rw [String.toList_append, String.toList_append] at hlists
  exact hm.ne (names.injective (String.toList_injective (List.append_cancel_left hlists)))

end Fresh.Drawn

/-- Names that count. -/
def Fresh.counted : Fresh String where
  draw n := String.ofList (List.replicate n 'x')
  injective a b h := by
    have hlength := congrArg (fun s => s.toList.length) h
    simpa using hlength

/-! ## Loops that test at the end -/

section Loops

variable {σ : Type*} {body : σ → σ} {done : σ → Bool}

/-- The state at the end of `while True: s = body(s); if done(s): break`, cut off after `fuel`
turns: `none` is a loop that has not come to its end by then. -/
def doWhile (body : σ → σ) (done : σ → Bool) : (fuel : Nat) → σ → Option σ
  | 0, _ => none
  | fuel + 1, s => if done (body s) then some (body s) else doWhile body done fuel (body s)

theorem doWhile_succ (fuel : Nat) (s : σ) : doWhile body done (fuel + 1) s =
    if done (body s) then some (body s) else doWhile body done fuel (body s) := rfl

theorem doWhile_mono {n m : Nat} (hle : n ≤ m) {s t : σ} (h : doWhile body done n s = some t) :
    doWhile body done m s = some t := by
  induction n generalizing m s with
  | zero => cases h
  | succ n ih =>
    obtain ⟨m, rfl⟩ : ∃ k, m = k + 1 :=
      Nat.exists_eq_succ_of_ne_zero (Nat.ne_of_gt (Nat.lt_of_lt_of_le n.succ_pos hle))
    rw [doWhile_succ] at h ⊢
    split at h
    · rename_i hdone
      rwa [if_pos hdone]
    · rename_i hgoes
      rw [if_neg hgoes]
      exact ih (Nat.le_of_succ_le_succ hle) h

/-- **Termination.** `I` holds at the head of every turn and `variant` falls in each that goes
on. -/
theorem doWhile_of_variant (body : σ → σ) (done : σ → Bool) {I : σ → Prop} (variant : σ → Nat)
    (hturn : ∀ s, I s → done (body s) = false → I (body s) ∧ variant (body s) < variant s)
    {fuel : Nat} {s : σ} (hI : I s) (hfuel : variant s < fuel) :
    ∃ t, doWhile body done fuel s = some t ∧ done t = true := by
  induction fuel generalizing s with
  | zero => exact absurd hfuel (Nat.not_lt_zero _)
  | succ _ ih =>
    rw [doWhile_succ]
    cases hdone : done (body s) with
    | true => exact ⟨body s, rfl, hdone⟩
    | false =>
      obtain ⟨hI', hlt⟩ := hturn s hI hdone
      exact ih hI' (Nat.lt_of_lt_of_le hlt (Nat.le_of_lt_succ hfuel))

end Loops

end Scenara.Core

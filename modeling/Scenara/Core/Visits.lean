import Mathlib.Data.List.Induction
import Mathlib.Data.List.Sort

/-!
# Visits

Something is seen at places: a `Stay` is a closed window at a place. Sorted by time, maximal runs of
stays at one place are visits (`visits`), and one may leave a place for another only at certain
times (`Travels`).
-/

namespace Scenara.Core

/-- A closed window at a place. -/
@[ext]
structure Stay (P T : Type*) where
  place : P
  first : T
  last : T

variable {P T : Type*} [LinearOrder T] {R : P → P → T → T → Prop} {stays : List (Stay P T)}
  {s t new v : Stay P T} {vs : List (Stay P T)}

namespace Stay

/-- The windows meet. -/
def Overlaps (s t : Stay P T) : Prop := s.first ≤ t.last ∧ t.first ≤ s.last
  deriving Decidable

theorem Overlaps.symm (h : s.Overlaps t) : t.Overlaps s := ⟨h.2, h.1⟩

/-- No two places at a time. -/
def Apart (stays : List (Stay P T)) : Prop :=
  ∀ s ∈ stays, ∀ t ∈ stays, s.place ≠ t.place → ¬s.Overlaps t

/-- From each visit one comes to the next as `R` has it: the places, when the one is left and when
the other is reached. -/
def Travels (R : P → P → T → T → Prop) (visits : List (Stay P T)) : Prop :=
  visits.IsChain fun next previous => R previous.place next.place previous.last next.first

/-- From `s` one goes to `t`: every other stay ends by the time `s` does or begins when `t` does or
later. -/
structure Adjacent (stays : List (Stay P T)) (s t : Stay P T) : Prop where
  left : s ∈ stays
  right : t ∈ stays
  places : s.place ≠ t.place
  before : s.last < t.first
  between : ∀ u ∈ stays, u.last ≤ s.last ∨ t.first ≤ u.first

/-- From `s` one goes to a stay `t` that need not be there yet. -/
structure Leads (stays : List (Stay P T)) (s t : Stay P T) : Prop where
  left : s ∈ stays
  places : s.place ≠ t.place
  before : s.last < t.first
  between : ∀ u ∈ stays, u.last ≤ s.last ∨ t.first ≤ u.first

/-- To `t` one comes from a stay `s` that need not be there yet. -/
structure Follows (stays : List (Stay P T)) (s t : Stay P T) : Prop where
  right : t ∈ stays
  places : s.place ≠ t.place
  before : s.last < t.first
  between : ∀ u ∈ stays, u.last ≤ s.last ∨ t.first ≤ u.first

theorem Adjacent.congr {stays' : List (Stay P T)} (h : Adjacent stays s t)
    (hmem : ∀ u, u ∈ stays' ↔ u ∈ stays) : Adjacent stays' s t :=
  ⟨(hmem s).2 h.left, (hmem t).2 h.right, h.places, h.before,
    fun u hu => h.between u ((hmem u).1 hu)⟩

theorem adjacent_cons : Adjacent (new :: stays) s t ↔
    Adjacent stays s t ∧ (new.last ≤ s.last ∨ t.first ≤ new.first) ∨
      t = new ∧ Leads stays s new ∨ s = new ∧ Follows stays new t := by
  constructor
  · rintro ⟨hleft, hright, hplaces, hbefore, hbetween⟩
    obtain ⟨hnew, hrest⟩ := List.forall_mem_cons.1 hbetween
    rcases List.mem_cons.1 hleft with rfl | hs
    · rcases List.mem_cons.1 hright with rfl | ht
      · exact absurd rfl hplaces
      · exact .inr (.inr ⟨rfl, ht, hplaces, hbefore, hrest⟩)
    · rcases List.mem_cons.1 hright with rfl | ht
      · exact .inr (.inl ⟨rfl, hs, hplaces, hbefore, hrest⟩)
      · exact .inl ⟨⟨hs, ht, hplaces, hbefore, hrest⟩, hnew⟩
  · rintro (⟨h, hnew⟩ | ⟨rfl, h⟩ | ⟨rfl, h⟩)
    · exact ⟨List.mem_cons_of_mem _ h.left, List.mem_cons_of_mem _ h.right, h.places, h.before,
        List.forall_mem_cons.2 ⟨hnew, h.between⟩⟩
    · exact ⟨List.mem_cons_of_mem _ h.left, List.mem_cons_self, h.places, h.before,
        List.forall_mem_cons.2 ⟨.inr le_rfl, h.between⟩⟩
    · exact ⟨List.mem_cons_self, List.mem_cons_of_mem _ h.right, h.places, h.before,
        List.forall_mem_cons.2 ⟨.inl le_rfl, h.between⟩⟩

/-! ## Places apart -/

theorem Apart.lt (h : Apart stays) (hs : s ∈ stays) (ht : t ∈ stays) (hplaces : s.place ≠ t.place)
    (hfirst : s.first ≤ t.first) (hordered : t.first ≤ t.last) : s.last < t.first := by
  by_contra hge
  exact h s hs t ht hplaces ⟨hfirst.trans hordered, not_lt.1 hge⟩

theorem Apart.mono {stays' : List (Stay P T)} (h : Apart stays) (hsub : stays' ⊆ stays) :
    Apart stays' := fun s hs t ht => h s (hsub hs) t (hsub ht)

/-! ## The neighbours of a new stay -/

/-- `s` ends last of those that end before `new` begins. -/
structure Precedes (stays : List (Stay P T)) (s new : Stay P T) : Prop where
  left : s ∈ stays
  before : s.last < new.first
  nearest : ∀ u ∈ stays, u.last < new.first → u.last ≤ s.last

/-- `t` begins first of those that begin after `new` has ended. -/
structure Succeeds (stays : List (Stay P T)) (new t : Stay P T) : Prop where
  right : t ∈ stays
  before : new.last < t.first
  nearest : ∀ u ∈ stays, new.last < u.first → t.first ≤ u.first

/-- A stay at the place of `new` lasts from before `new` begins until then or later. -/
def GoesOnBefore (stays : List (Stay P T)) (new : Stay P T) : Prop :=
  ∃ u ∈ stays, u.place = new.place ∧ u.first < new.first ∧ new.first ≤ u.last

/-- A stay at the place of `new` lasts from then or earlier until after `new` has ended. -/
def GoesOnAfter (stays : List (Stay P T)) (new : Stay P T) : Prop :=
  ∃ u ∈ stays, u.place = new.place ∧ u.first ≤ new.last ∧ new.last < u.last

/-- No stay at another place meets `new`. -/
def Clear (stays : List (Stay P T)) (new : Stay P T) : Prop :=
  ∀ u ∈ stays, u.place ≠ new.place → ¬u.Overlaps new

/-- From the place of the stay that precedes `new` one may come to it. -/
def ComesFrom (R : P → P → T → T → Prop) (stays : List (Stay P T)) (new : Stay P T) : Prop :=
  ∀ s, Precedes stays s new → s.place ≠ new.place → R s.place new.place s.last new.first

/-- From `new` one may go to the place of the stay that succeeds it. -/
def GoesTo (R : P → P → T → T → Prop) (stays : List (Stay P T)) (new : Stay P T) : Prop :=
  ∀ t, Succeeds stays new t → new.place ≠ t.place → R new.place t.place new.last t.first

theorem Precedes.place_eq (hs : Precedes stays s new) (ht : Precedes stays t new)
    (hapart : Apart stays) (hordered : ∀ s ∈ stays, s.first ≤ s.last) :
    s.place = t.place ∧ s.last = t.last := by
  have hlast := le_antisymm (ht.nearest s hs.left hs.before) (hs.nearest t ht.left ht.before)
  refine ⟨?_, hlast⟩
  by_contra hne
  exact hapart s hs.left t ht.left hne
    ⟨hlast ▸ hordered s hs.left, hlast ▸ hordered t ht.left⟩

theorem Succeeds.place_eq (hs : Succeeds stays new s) (ht : Succeeds stays new t)
    (hapart : Apart stays) (hordered : ∀ s ∈ stays, s.first ≤ s.last) :
    s.place = t.place ∧ s.first = t.first := by
  have hfirst := le_antisymm (hs.nearest t ht.right ht.before) (ht.nearest s hs.right hs.before)
  refine ⟨?_, hfirst⟩
  by_contra hne
  exact hapart s hs.right t ht.right hne
    ⟨hfirst ▸ hordered t ht.right, hfirst ▸ hordered s hs.right⟩

theorem apart_cons : Apart (new :: stays) ↔ Apart stays ∧ Clear stays new := by
  constructor
  · exact fun h => ⟨h.mono (List.subset_cons_self _ _), fun u hu =>
      h u (List.mem_cons_of_mem _ hu) new List.mem_cons_self⟩
  · rintro ⟨hstays, hclear⟩ s hs t ht hplaces hoverlaps
    rcases List.mem_cons.1 hs with hs | hs <;> rcases List.mem_cons.1 ht with ht | ht
    · exact hplaces (by rw [hs, ht])
    · rw [hs] at hplaces hoverlaps
      exact hclear t ht hplaces.symm hoverlaps.symm
    · rw [ht] at hplaces hoverlaps
      exact hclear s hs hplaces hoverlaps
    · exact hstays s hs t ht hplaces hoverlaps

/-- **What leads to a new stay** is the stay that precedes it, unless one at its place goes on. -/
theorem leads_iff (hordered : ∀ s ∈ stays, s.first ≤ s.last) (hnew : new.first ≤ new.last)
    (hclear : Clear stays new) : Leads stays s new ↔
      Precedes stays s new ∧ s.place ≠ new.place ∧ ¬GoesOnBefore stays new := by
  constructor
  · intro h
    refine ⟨⟨h.left, h.before, fun u hu hlt => ?_⟩, h.places, ?_⟩
    · refine (h.between u hu).resolve_right fun hle => ?_
      exact absurd (hle.trans (hordered u hu)) (not_le.2 hlt)
    · rintro ⟨u, hu, -, hfirst, hlast⟩
      rcases h.between u hu with hle | hle
      · exact absurd (hlast.trans hle) (not_le.2 h.before)
      · exact absurd hle (not_le.2 hfirst)
  · rintro ⟨h, hplaces, hgoes⟩
    refine ⟨h.left, hplaces, h.before, fun u hu => ?_⟩
    rcases lt_or_ge u.last new.first with hlt | hge
    · exact .inl (h.nearest u hu hlt)
    · refine .inr (not_lt.1 fun hlt => ?_)
      by_cases hplace : u.place = new.place
      · exact hgoes ⟨u, hu, hplace, hlt, hge⟩
      · exact hclear u hu hplace ⟨hlt.le.trans hnew, hge⟩

/-- **What follows a new stay** is the stay that succeeds it, unless one at its place goes on. -/
theorem follows_iff (hordered : ∀ s ∈ stays, s.first ≤ s.last) (hnew : new.first ≤ new.last)
    (hclear : Clear stays new) : Follows stays new t ↔
      Succeeds stays new t ∧ new.place ≠ t.place ∧ ¬GoesOnAfter stays new := by
  constructor
  · intro h
    refine ⟨⟨h.right, h.before, fun u hu hlt => ?_⟩, h.places, ?_⟩
    · refine (h.between u hu).resolve_left fun hle => ?_
      exact absurd ((hordered u hu).trans hle) (not_le.2 hlt)
    · rintro ⟨u, hu, -, hfirst, hlast⟩
      rcases h.between u hu with hle | hle
      · exact absurd hle (not_le.2 hlast)
      · exact absurd (hle.trans hfirst) (not_le.2 h.before)
  · rintro ⟨h, hplaces, hgoes⟩
    refine ⟨h.right, hplaces, h.before, fun u hu => ?_⟩
    rcases lt_or_ge new.last u.first with hlt | hge
    · exact .inr (h.nearest u hu hlt)
    · refine .inl (not_lt.1 fun hlt => ?_)
      by_cases hplace : u.place = new.place
      · exact hgoes ⟨u, hu, hplace, hge, hlt⟩
      · exact hclear u hu hplace ⟨hge, hnew.trans hlt.le⟩

/-! ## The last visit -/

/-- `v` is the last visit of the stays: it is at the place of the one that begins last. -/
structure Ends (stays : List (Stay P T)) (v : Stay P T) : Prop where
  latest : ∀ s ∈ stays, s.last ≤ v.last
  attained : ∃ s ∈ stays, s.place = v.place ∧ s.last = v.last
  final : ∃ s ∈ stays, s.place = v.place ∧ ∀ t ∈ stays, t.first ≤ s.first
  begins : ∃ s ∈ stays, s.first = v.first

theorem ends_singleton (s : Stay P T) : Ends [s] s where
  latest := by simp
  attained := ⟨s, by simp⟩
  final := ⟨s, by simp⟩
  begins := ⟨s, by simp⟩

theorem Ends.same (h : Ends stays v) (hplace : v.place = t.place)
    (hlast : ∀ s ∈ stays, s.first ≤ t.first) :
    Ends (stays ++ [t]) ⟨v.place, min v.first t.first, max v.last t.last⟩ where
  latest := by
    simp only [List.forall_mem_append, List.forall_mem_singleton]
    exact ⟨fun s hs => (h.latest s hs).trans (le_max_left _ _), le_max_right _ _⟩
  attained := by
    obtain ⟨s, hs, hsplace, hslast⟩ := h.attained
    rcases le_total t.last v.last with hle | hle
    · exact ⟨s, List.mem_append_left _ hs, hsplace, hslast.trans (max_eq_left hle).symm⟩
    · exact ⟨t, by simp, hplace.symm, (max_eq_right hle).symm⟩
  final := by
    refine ⟨t, by simp, hplace.symm, ?_⟩
    simp only [List.forall_mem_append, List.forall_mem_singleton]
    exact ⟨hlast, le_rfl⟩
  begins := by
    obtain ⟨s, hs, hsfirst⟩ := h.begins
    exact ⟨s, List.mem_append_left _ hs, hsfirst.trans (min_eq_left (hsfirst ▸ hlast s hs)).symm⟩

theorem Ends.last_lt (h : Ends stays v) (hplace : v.place ≠ t.place)
    (hlast : ∀ s ∈ stays, s.first ≤ t.first) (hapart : Apart (stays ++ [t]))
    (hordered : t.first ≤ t.last) : v.last < t.first := by
  obtain ⟨s, hs, hsplace, hslast⟩ := h.attained
  rw [← hslast]
  exact hapart.lt (List.mem_append_left _ hs) (by simp) (hsplace ▸ hplace) (hlast s hs) hordered

theorem Ends.other (h : Ends stays v) (hplace : v.place ≠ t.place)
    (hlast : ∀ s ∈ stays, s.first ≤ t.first) (hapart : Apart (stays ++ [t]))
    (hordered : t.first ≤ t.last) : Ends (stays ++ [t]) t where
  latest := by
    simp only [List.forall_mem_append, List.forall_mem_singleton]
    have hlt := h.last_lt hplace hlast hapart hordered
    exact ⟨fun s hs => ((h.latest s hs).trans hlt.le).trans hordered, le_rfl⟩
  attained := ⟨t, by simp⟩
  final := by
    refine ⟨t, by simp, rfl, ?_⟩
    simp only [List.forall_mem_append, List.forall_mem_singleton]
    exact ⟨hlast, le_rfl⟩
  begins := ⟨t, by simp⟩

/-- The stays sorted by time, each with its window in order, at no two places at a time. -/
structure Sorted (stays : List (Stay P T)) : Prop where
  sorted : stays.Pairwise fun s t => s.first ≤ t.first
  ordered : ∀ s ∈ stays, s.first ≤ s.last
  apart : Apart stays

theorem Sorted.init (h : Sorted (stays ++ [t])) :
    Sorted stays ∧ (∀ s ∈ stays, s.first ≤ t.first) ∧ t.first ≤ t.last := by
  obtain ⟨hstays, -, hlast⟩ := List.pairwise_append.1 h.sorted
  exact ⟨⟨hstays, fun s hs => h.ordered s (List.mem_append_left _ hs),
    h.apart.mono (List.subset_append_left _ _)⟩, fun s hs => hlast s hs t (by simp),
    h.ordered t (by simp)⟩

/-! ## Adjacent stays -/

theorem adjacent_append (hlast : ∀ s ∈ stays, s.first ≤ new.first)
    (hordered : new.first ≤ new.last) :
    Adjacent (stays ++ [new]) s t ↔ Adjacent stays s t ∨ t = new ∧ Leads stays s new := by
  have hmem : ∀ u, u ∈ stays ++ [new] ↔ u ∈ new :: stays := fun u => by simp [or_comm]
  have hcongr : Adjacent (stays ++ [new]) s t ↔ Adjacent (new :: stays) s t :=
    ⟨fun h => h.congr fun u => (hmem u).symm, fun h => h.congr hmem⟩
  rw [hcongr, adjacent_cons]
  constructor
  · rintro (⟨h, -⟩ | h | ⟨-, h⟩)
    · exact .inl h
    · exact .inr h
    · exact absurd (h.before.trans_le (hlast t h.right)) (not_lt.2 hordered)
  · rintro (h | h)
    · exact .inl ⟨h, .inr (hlast t h.right)⟩
    · exact .inr (.inl h)

theorem Ends.leads_same (h : Ends stays v) (hstays : Sorted stays) (hplace : v.place = t.place)
    (hlast : ∀ s ∈ stays, s.first ≤ t.first) (hs : Leads stays s t) :
    ∃ u, Adjacent stays s u ∧ u.place = t.place ∧ u.first = t.first := by
  obtain ⟨u, hu, huplace, hufinal⟩ := h.final
  have hplaces : s.place ≠ u.place := fun he => hs.places (he.trans (huplace.trans hplace))
  have hfirst : t.first ≤ u.first := by
    refine (hs.between u hu).resolve_left fun hle => ?_
    exact hstays.apart s hs.left u hu hplaces
      ⟨(hufinal s hs.left).trans (hstays.ordered u hu), (hstays.ordered u hu).trans hle⟩
  have heq : u.first = t.first := le_antisymm (hlast u hu) hfirst
  exact ⟨u, ⟨hs.left, hu, hplaces, heq ▸ hs.before, fun w hw => heq ▸ hs.between w hw⟩,
    huplace.trans hplace, heq⟩

theorem Ends.leads_other (h : Ends stays v) (hstays : Sorted stays) (hplace : v.place ≠ t.place)
    (hlt : v.last < t.first) :
    Leads stays s t ↔ s ∈ stays ∧ s.place = v.place ∧ s.last = v.last := by
  constructor
  · intro hs
    obtain ⟨u, hu, huplace, hulast⟩ := h.attained
    have hlast : s.last = v.last := by
      refine le_antisymm (h.latest s hs.left) ?_
      rw [← hulast]
      refine (hs.between u hu).resolve_right fun hle => ?_
      exact absurd (((hle.trans (hstays.ordered u hu)).trans_eq hulast).trans_lt hlt) (lt_irrefl _)
    refine ⟨hs.left, ?_, hlast⟩
    by_contra hne
    refine hstays.apart s hs.left u hu (huplace ▸ hne) ⟨?_, ?_⟩
    · rw [hulast, ← hlast]
      exact hstays.ordered s hs.left
    · rw [hlast, ← hulast]
      exact hstays.ordered u hu
  · rintro ⟨hs, hsplace, hslast⟩
    exact ⟨hs, hsplace ▸ hplace, hslast ▸ hlt, fun u hu => .inl (hslast ▸ h.latest u hu)⟩

omit [LinearOrder T] in
theorem travels_congr {v' : Stay P T} (hplace : v.place = v'.place) (hfirst : v.first = v'.first) :
    Travels R (v :: vs) ↔ Travels R (v' :: vs) := by
  cases vs with
  | nil => simp [Travels]
  | cons u => simp [Travels, hplace, hfirst]

/-! ## The fold -/

section Fold

variable [DecidableEq P]

/-- One more stay, which does not begin before the others; the latest visit comes first. -/
def extend (visits : List (Stay P T)) (s : Stay P T) : List (Stay P T) :=
  match visits with
  | [] => [s]
  | v :: vs =>
    if v.place = s.place then ⟨v.place, min v.first s.first, max v.last s.last⟩ :: vs
    else s :: v :: vs

/-- The visits, the latest first. -/
def visits (stays : List (Stay P T)) : List (Stay P T) :=
  (stays.insertionSort fun s t => s.first ≤ t.first).foldl extend []

/-- A timeline that is possible. -/
structure Consistent (R : P → P → T → T → Prop) (stays : List (Stay P T)) : Prop where
  apart : Apart stays
  travels : Travels R (visits stays)

instance : DecidablePred (Apart (P := P) (T := T)) := fun stays =>
  inferInstanceAs (Decidable (∀ s ∈ stays, ∀ t ∈ stays, s.place ≠ t.place → ¬s.Overlaps t))

instance [∀ p q a b, Decidable (R p q a b)] : Decidable (Consistent R stays) :=
  have : Decidable (Travels R (visits stays)) := inferInstanceAs (Decidable (List.IsChain _ _))
  decidable_of_iff (Apart stays ∧ Travels R (visits stays))
    ⟨fun h => ⟨h.1, h.2⟩, fun h => ⟨h.1, h.2⟩⟩

theorem Sorted.ends (h : Sorted stays) :
    stays = [] ∨ ∃ v vs, stays.foldl extend [] = v :: vs ∧ Ends stays v := by
  induction stays using List.reverseRecOn with
  | nil => exact .inl rfl
  | append_singleton _ t ih =>
    obtain ⟨hstays, hlast, hordered⟩ := h.init
    right
    rw [List.foldl_append, List.foldl_cons, List.foldl_nil]
    rcases ih hstays with rfl | ⟨v, vs, hfold, hends⟩
    · exact ⟨t, [], rfl, ends_singleton t⟩
    · rw [hfold]
      dsimp only [extend]
      by_cases hplace : v.place = t.place
      · rw [if_pos hplace]
        exact ⟨_, vs, rfl, hends.same hplace hlast⟩
      · rw [if_neg hplace]
        exact ⟨t, v :: vs, rfl, hends.other hplace hlast h.apart hordered⟩

/-- **The visits of sorted stays** follow each other as they may iff the adjacent stays do. -/
theorem Sorted.travels_iff (h : Sorted stays) : Travels R (stays.foldl extend []) ↔
    ∀ s t, Adjacent stays s t → R s.place t.place s.last t.first := by
  induction stays using List.reverseRecOn with
  | nil => exact iff_of_true List.IsChain.nil fun s t hst => absurd hst.left List.not_mem_nil
  | append_singleton _ t ih =>
    obtain ⟨hstays, hlast, hordered⟩ := h.init
    have hfold := hstays.ends
    simp only [adjacent_append hlast hordered, or_imp, forall_and, ← ih hstays]
    rw [List.foldl_append, List.foldl_cons, List.foldl_nil]
    rcases hfold with rfl | ⟨v, vs, hfold, hends⟩
    · refine iff_of_true (List.IsChain.singleton t) ⟨List.IsChain.nil, ?_⟩
      rintro s u ⟨-, hs⟩
      exact absurd hs.left List.not_mem_nil
    rw [hfold]
    dsimp only [extend]
    by_cases hplace : v.place = t.place
    · rw [if_pos hplace]
      obtain ⟨u, hu, hufirst⟩ := hends.begins
      have hvisit : Travels R (⟨v.place, min v.first t.first, max v.last t.last⟩ :: vs) ↔
          Travels R (v :: vs) := travels_congr rfl (min_eq_left (hufirst ▸ hlast u hu))
      rw [hvisit, iff_self_and]
      rintro htravels s _ ⟨ht', hs⟩
      obtain ⟨w, hw, hwplace, hwfirst⟩ := hends.leads_same hstays hplace hlast hs
      rw [ht', ← hwplace, ← hwfirst]
      exact (ih hstays).1 (hfold ▸ htravels) s w hw
    · rw [if_neg hplace]
      have hlt := hends.last_lt hplace hlast h.apart hordered
      have hnext : Travels R (t :: v :: vs) ↔
          R v.place t.place v.last t.first ∧ Travels R (v :: vs) := List.isChain_cons_cons
      rw [hnext, and_comm]
      refine and_congr_right fun _ => ⟨?_, fun hR => ?_⟩
      · rintro hR s _ ⟨ht', hs⟩
        obtain ⟨-, hsplace, hslast⟩ := (hends.leads_other hstays hplace hlt).1 hs
        rwa [ht', hsplace, hslast]
      · obtain ⟨s, hs, hsplace, hslast⟩ := hends.attained
        rw [← hsplace, ← hslast]
        exact hR s t ⟨rfl, (hends.leads_other hstays hplace hlt).2 ⟨hs, hsplace, hslast⟩⟩

/-- **A timeline is possible** iff no two places are visited at a time and the adjacent stays follow
each other as they may. -/
theorem consistent_iff (hordered : ∀ s ∈ stays, s.first ≤ s.last) : Consistent R stays ↔
    Apart stays ∧ ∀ s t, Adjacent stays s t → R s.place t.place s.last t.first := by
  have hmem : ∀ s, s ∈ stays.insertionSort (fun s t => s.first ≤ t.first) ↔ s ∈ stays := fun s =>
    (List.perm_insertionSort _ _).mem_iff
  have hsorted : Apart stays → Sorted (stays.insertionSort fun s t => s.first ≤ t.first) := by
    refine fun hapart => ⟨?_, fun s hs => hordered s ((hmem s).1 hs),
      hapart.mono fun s hs => (hmem s).1 hs⟩
    exact List.pairwise_insertionSort _ _
  have htravels : Apart stays → (Travels R (visits stays) ↔
      ∀ s t, Adjacent stays s t → R s.place t.place s.last t.first) := fun hapart =>
    (hsorted hapart).travels_iff.trans (forall₂_congr fun s t => imp_congr_left
      ⟨fun h => h.congr fun u => (hmem u).symm, fun h => h.congr hmem⟩)
  exact ⟨fun h => ⟨h.apart, (htravels h.apart).1 h.travels⟩, fun h => ⟨h.1, (htravels h.1).2 h.2⟩⟩

/-- **One more stay** keeps a timeline possible iff it is clear of the other places and, at either
end, one may come from or go to the nearest stay beyond, or the place is not left there anyway. -/
theorem consistent_cons (hordered : ∀ s ∈ stays, s.first ≤ s.last) (hnew : new.first ≤ new.last)
    (h : Consistent R stays) : Consistent R (new :: stays) ↔ Clear stays new ∧
      (ComesFrom R stays new ∨ GoesOnBefore stays new) ∧
      (GoesTo R stays new ∨ GoesOnAfter stays new) := by
  obtain ⟨hapart, hadjacent⟩ := (consistent_iff hordered).1 h
  rw [consistent_iff (List.forall_mem_cons.2 ⟨hnew, hordered⟩), apart_cons, and_iff_right hapart]
  refine and_congr_right fun hclear => ?_
  constructor
  · intro hR
    refine ⟨or_iff_not_imp_right.2 fun hgoes s hs hplaces => ?_,
      or_iff_not_imp_right.2 fun hgoes t ht hplaces => ?_⟩
    · exact hR s new (adjacent_cons.2 (.inr (.inl
        ⟨rfl, (leads_iff hordered hnew hclear).2 ⟨hs, hplaces, hgoes⟩⟩)))
    · exact hR new t (adjacent_cons.2 (.inr (.inr
        ⟨rfl, (follows_iff hordered hnew hclear).2 ⟨ht, hplaces, hgoes⟩⟩)))
  · rintro ⟨hcomes, hgoes⟩ s t hst
    rcases adjacent_cons.1 hst with ⟨hst, -⟩ | ⟨rfl, hs⟩ | ⟨rfl, ht⟩
    · exact hadjacent s t hst
    · obtain ⟨hs, hplaces, hnot⟩ := (leads_iff hordered hnew hclear).1 hs
      exact hcomes.resolve_right hnot s hs hplaces
    · obtain ⟨ht, hplaces, hnot⟩ := (follows_iff hordered hnew hclear).1 ht
      exact hgoes.resolve_right hnot t ht hplaces

end Fold

end Stay

end Scenara.Core

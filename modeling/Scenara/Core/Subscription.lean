import Mathlib.Data.Int.Order.Basic
import Mathlib.Data.List.Infix
import Mathlib.Data.List.Nodup
import Mathlib.Logic.Function.Iterate
import Mathlib.Order.Nat
import Scenara.Core.Parties

/-!
# Following a log

A reader asks for the entries after its cursor, takes them one by one and moves the cursor along.
The entries of a log that grows are numbered from 1; others have numbers of their own, and need not
appear in their order.
-/

namespace Scenara.Core

/-! ## A log that grows -/

section Following

variable {α : Type*} {log : List α} {start cursor : Int} {taken asked : List (α × Nat)}

/-- The entries and their numbers. -/
def numbered (log : List α) : List (α × Nat) := log.zipIdx 1

/-- The entries after the cursor. -/
def after (cursor : Int) (log : List α) : List (α × Nat) :=
  (numbered log).filter fun entry => cursor < entry.2

theorem filter_zipIdx (cursor : Int) (log : List α) (n : Nat) :
    (log.zipIdx (n + 1)).filter (fun entry => cursor < entry.2) =
      (log.zipIdx (n + 1)).drop (cursor.toNat - n) := by
  induction log generalizing n with
  | nil => simp
  | cons a _ ih =>
    rw [List.zipIdx_cons, List.filter_cons]
    split
    · rename_i h
      have hcursor : cursor.toNat - n = 0 := by
        have hlt := of_decide_eq_true h
        omega
      have hnext : cursor.toNat - (n + 1) = 0 := by omega
      rw [ih, hcursor, hnext]
      rfl
    · rename_i h
      have hcursor : cursor.toNat - n = (cursor.toNat - (n + 1)) + 1 := by
        have hle : ¬cursor < ((n + 1 : Nat) : Int) := fun hlt => h (decide_eq_true hlt)
        omega
      rw [ih, hcursor]
      rfl

/-- The entries have no gaps, so those after the cursor are the last ones. -/
theorem after_eq_drop (cursor : Int) (log : List α) :
    after cursor log = (numbered log).drop cursor.toNat :=
  filter_zipIdx cursor log 0

theorem numbers_after (cursor : Int) (log : List α) :
    (after cursor log).map Prod.snd =
      List.range' (cursor.toNat + 1) (log.length - cursor.toNat) := by
  rw [after_eq_drop, numbered, List.map_drop, List.zipIdx_map_snd, List.drop_range']
  congr 1
  omega

theorem range'_of_prefix {l : List Nat} {first n : Nat} (h : l <+: List.range' first n) :
    l = List.range' first l.length := by
  have hle : l.length ≤ n := by simpa using h.length_le
  have htake := List.prefix_iff_eq_take.1 h
  rwa [List.take_range'_of_length_ge hle] at htake

/-- A reader that started after `start` has taken `taken`, and asked for `asked` besides. -/
structure Follows (log : List α) (start cursor : Int) (taken asked : List (α × Nat)) : Prop where
  read : taken ++ asked <+: after start log
  position : cursor.toNat = start.toNat + taken.length

namespace Follows

theorem begin (log : List α) (start : Int) : Follows log start start [] [] where
  read := List.nil_prefix
  position := rfl

theorem grow (h : Follows log start cursor taken asked) (more : List α) :
    Follows (log ++ more) start cursor taken asked where
  read := by
    refine h.read.trans ?_
    rw [after_eq_drop, after_eq_drop, numbered, numbered, List.zipIdx_append, List.drop_append]
    exact List.prefix_append _ _
  position := h.position

theorem drop (h : Follows log start cursor taken asked) : Follows log start cursor taken [] where
  read := by
    rw [List.append_nil]
    exact (List.prefix_append _ _).trans h.read
  position := h.position

theorem ask (h : Follows log start cursor taken []) :
    Follows log start cursor taken (after cursor log) where
  read := by
    obtain ⟨rest, hrest⟩ := h.read
    rw [List.append_nil] at hrest
    have hafter : after cursor log = rest := by
      rw [after_eq_drop, h.position, ← List.drop_drop, ← after_eq_drop, ← hrest]
      exact List.drop_left
    rw [hafter, hrest]
  position := h.position

theorem numbers_read (h : Follows log start cursor taken asked) :
    (taken ++ asked).map Prod.snd =
      List.range' (start.toNat + 1) (taken.length + asked.length) := by
  have hprefix := h.read.map Prod.snd
  rw [numbers_after] at hprefix
  have hnumbers := range'_of_prefix hprefix
  rwa [List.length_map, List.length_append] at hnumbers

theorem take {entry : α × Nat} (h : Follows log start cursor taken (entry :: asked)) :
    Follows log start entry.2 (taken ++ [entry]) asked where
  read := by
    rw [List.append_assoc]
    exact h.read
  position := by
    have hnumber := congrArg (fun numbers => numbers[taken.length]?) h.numbers_read
    simp only [List.map_append, List.map_cons, List.getElem?_append_right, List.length_map, le_refl,
      Nat.sub_self, List.getElem?_cons_zero, List.length_cons] at hnumber
    rw [List.getElem?_range' (by omega)] at hnumber
    have hentry := Option.some.inj hnumber
    rw [List.length_append, List.length_singleton]
    omega

theorem numbers (h : Follows log start cursor taken asked) :
    taken.map Prod.snd = List.range' (start.toNat + 1) taken.length := by
  have hprefix : taken.map Prod.snd <+: (taken ++ asked).map Prod.snd := by
    rw [List.map_append]
    exact List.prefix_append _ _
  rw [h.numbers_read] at hprefix
  have hnumbers := range'_of_prefix hprefix
  rwa [List.length_map] at hnumbers

theorem mem_taken {number : Nat} (h : Follows log start cursor taken asked)
    (hstart : start < number) (hpos : 0 < number) (hcursor : (number : Int) ≤ cursor) :
    number ∈ taken.map Prod.snd := by
  rw [h.numbers, List.mem_range'_1]
  have hposition := h.position
  omega

end Follows

end Following

/-! ## Entries that appear in any order -/

variable {ε : Type*} {number : ε → Nat} {published : List ε} {start cursor : Int} {page : List ε}

/-- The first entries after the cursor, in order; none is left out unless all of them are taken. -/
structure Page (number : ε → Nat) (published : List ε) (cursor : Int) (page : List ε) : Prop where
  sorted : page.Pairwise fun a b => number a < number b
  after : ∀ e ∈ page, e ∈ published ∧ cursor < number e
  whole : ∀ e ∈ published, cursor < number e →
    e ∈ page ∨ page ≠ [] ∧ ∀ p ∈ page, number p < number e

theorem Page.of_take {limit : Nat} {l : List ε}
    (hsorted : l.Pairwise fun a b => number a < number b)
    (hmem : ∀ e, e ∈ l ↔ e ∈ published ∧ cursor < number e) (hlimit : 0 < limit) :
    Page number published cursor (l.take limit) where
  sorted := hsorted.sublist (List.take_sublist limit l)
  after e he := (hmem e).1 (List.mem_of_mem_take he)
  whole e he hlt := by
    have hl := (hmem e).2 ⟨he, hlt⟩
    rw [← List.take_append_drop limit l] at hl hsorted
    rcases List.mem_append.1 hl with htake | hdrop
    · exact .inl htake
    · refine .inr ⟨fun hnil => ?_, fun p hp => (List.pairwise_append.1 hsorted).2.2 p hp e hdrop⟩
      rcases List.take_eq_nil_iff.1 hnil with _ | hnil
      · omega
      · simp [hnil, List.drop_nil] at hdrop

/-- A reader: where it is, what it asked for, what it has taken. -/
structure Reader (ε : Type*) where
  cursor : Int
  asked : List ε
  received : List ε
  rounds : Nat

namespace Reader

/-- A reader that starts at a cursor. -/
def begin (start : Int) : Reader ε := ⟨start, [], [], 0⟩

/-- It asks; an empty page is taken at once. -/
def poll (page : List ε) (r : Reader ε) : Reader ε :=
  { r with asked := page, rounds := if page.isEmpty then r.rounds + 1 else r.rounds }

/-- It takes an entry, `rest` is what it asked for besides. -/
def take (number : ε → Nat) (e : ε) (rest : List ε) (r : Reader ε) : Reader ε where
  cursor := number e
  asked := rest
  received := r.received ++ [e]
  rounds := if rest.isEmpty then r.rounds + 1 else r.rounds

/-- It loses what it asked for. -/
def drop (r : Reader ε) : Reader ε := { r with asked := [] }

/-- How far it has asked. -/
def horizon (number : ε → Nat) (r : Reader ε) : Int :=
  match r.asked.getLast? with
  | some e => number e
  | none => r.cursor

/-! ## What the reader has -/

variable {r : Reader ε} {e : ε} {rest : List ε}

/-- What was taken and what was asked for are published, in order. -/
structure Sound (number : ε → Nat) (published : List ε) (start : Int) (r : Reader ε) : Prop where
  sorted : (r.received ++ r.asked).Pairwise fun a b => number a < number b
  mem : ∀ e ∈ r.received ++ r.asked, e ∈ published ∧ start < number e
  behind : ∀ e ∈ r.received, (number e : Int) ≤ r.cursor
  ahead : ∀ e ∈ r.asked, r.cursor < number e
  position : r.cursor = start ∨ ∃ e ∈ r.received, r.cursor = number e

theorem Sound.started (h : Sound number published start r) : start ≤ r.cursor := by
  rcases h.position with heq | ⟨e, he, heq⟩
  · exact heq.ge
  · rw [heq]
    exact (h.mem e (List.mem_append_left _ he)).2.le

theorem Sound.begin (number : ε → Nat) (published : List ε) (start : Int) :
    Sound number published start (begin start) :=
  ⟨List.Pairwise.nil, by simp [Reader.begin], by simp [Reader.begin], by simp [Reader.begin],
    .inl rfl⟩

section

variable (h : Sound number published start r)
include h

theorem Sound.publish (more : List ε) : Sound number (published ++ more) start r where
  sorted := h.sorted
  mem e he := ⟨List.mem_append_left _ (h.mem e he).1, (h.mem e he).2⟩
  behind := h.behind
  ahead := h.ahead
  position := h.position

theorem Sound.drop : Sound number published start r.drop where
  sorted := by
    have hsorted := (List.pairwise_append.1 h.sorted).1
    simpa [Reader.drop] using hsorted
  mem e he := by
    rw [Reader.drop, List.append_nil] at he
    exact h.mem e (List.mem_append_left _ he)
  behind := h.behind
  ahead e he := by cases he
  position := h.position

theorem Sound.poll (hasked : r.asked = []) (hpage : Page number published r.cursor page) :
    Sound number published start (r.poll page) where
  sorted := by
    have hreceived := h.sorted
    rw [hasked, List.append_nil] at hreceived
    refine List.pairwise_append.2 ⟨hreceived, hpage.sorted, fun a ha b hb => ?_⟩
    have hle := h.behind a ha
    have hlt := (hpage.after b hb).2
    omega
  mem e he := by
    rcases List.mem_append.1 he with he | he
    · exact h.mem e (List.mem_append_left _ he)
    · exact ⟨(hpage.after e he).1, h.started.trans_lt (hpage.after e he).2⟩
  behind := h.behind
  ahead e he := (hpage.after e he).2
  position := h.position

theorem Sound.take (hasked : r.asked = e :: rest) :
    Sound number published start (r.take number e rest) where
  sorted := by
    have hsorted := h.sorted
    rw [hasked] at hsorted
    simpa [Reader.take] using hsorted
  mem a ha := by
    refine h.mem a ?_
    rw [hasked]
    simpa [Reader.take] using ha
  behind a ha := by
    have hlt : r.cursor < number e := h.ahead e (by rw [hasked]; exact List.mem_cons_self)
    rcases Parties.mem_snoc.1 ha with ha | rfl
    · have hle := h.behind a ha
      change (number a : Int) ≤ number e
      omega
    · exact le_rfl
  ahead a ha := by
    have hsorted := (List.pairwise_append.1 h.sorted).2.1
    rw [hasked, List.pairwise_cons] at hsorted
    exact Int.ofNat_lt.2 (hsorted.1 a ha)
  position := .inr ⟨e, by simp [Reader.take], rfl⟩

theorem Sound.nodup : r.received.Nodup := by
  refine List.Pairwise.imp ?_ (List.pairwise_append.1 h.sorted).1
  rintro a b hlt rfl
  exact lt_irrefl _ hlt

theorem Sound.horizon :
    r.cursor ≤ r.horizon number ∧ ∀ e ∈ r.asked, (number e : Int) ≤ r.horizon number := by
  rw [Reader.horizon]
  rcases List.eq_nil_or_concat' r.asked with hasked | ⟨_, last, hasked⟩
  · rw [hasked]
    exact ⟨le_rfl, nofun⟩
  · have hsorted := (List.pairwise_append.1 h.sorted).2.1
    rw [hasked] at hsorted ⊢
    rw [List.getLast?_concat]
    refine ⟨(h.ahead last (by simp [hasked])).le, fun e he => ?_⟩
    rw [List.mem_append, List.mem_singleton] at he
    rw [List.pairwise_append] at hsorted
    rcases he with he | rfl
    · exact Int.ofNat_le.2 (hsorted.2.2 e he last (List.mem_singleton.2 rfl)).le
    · exact le_rfl

theorem Sound.horizon_cases :
    r.horizon number = start ∨ ∃ e ∈ published, r.horizon number = number e := by
  rw [Reader.horizon]
  rcases List.eq_nil_or_concat' r.asked with hasked | ⟨_, last, hasked⟩
  · rw [hasked]
    refine h.position.imp id ?_
    rintro ⟨e, he, heq⟩
    exact ⟨e, (h.mem e (List.mem_append_left _ he)).1, heq⟩
  · rw [hasked, List.getLast?_concat]
    exact .inr ⟨last, (h.mem last (by simp [hasked])).1, rfl⟩

end

/-! ## What it has passed by -/

/-- A published entry that the reader has asked beyond and not got. -/
def Passed (number : ε → Nat) (start : Int) (r : Reader ε) (e : ε) : Prop :=
  start < number e ∧ number e ≤ r.horizon number ∧ e ∉ r.received ++ r.asked

/-- Nothing was passed by. -/
def Whole (number : ε → Nat) (published : List ε) (start : Int) (r : Reader ε) : Prop :=
  ∀ e ∈ published, ¬Passed number start r e

theorem horizon_take (hasked : r.asked = e :: rest) :
    (r.take number e rest).horizon number = r.horizon number := by
  rw [horizon, horizon, hasked]
  dsimp only [take]
  cases rest with
  | nil => rfl
  | cons a rest =>
    obtain ⟨last, hlast⟩ : ∃ last, (a :: rest).getLast? = some _ :=
      ⟨_, List.getLast?_eq_some_getLast (List.cons_ne_nil a rest)⟩
    rw [List.getLast?_cons_cons, hlast]

theorem passed_take (hasked : r.asked = e :: rest) (a : ε) :
    Passed number start (r.take number e rest) a ↔ Passed number start r a := by
  rw [Passed, Passed, horizon_take hasked, hasked]
  simp [take]

theorem passed_poll (h : Sound number published start r) (hasked : r.asked = [])
    (hpage : Page number published r.cursor page) {a : ε} (ha : a ∈ published) :
    Passed number start (r.poll page) a ↔ Passed number start r a := by
  have hcursor : r.horizon number = r.cursor := by rw [horizon, hasked]; rfl
  have hsound := h.poll hasked hpage
  rw [Passed, Passed, hcursor, hasked, List.append_nil]
  constructor
  · rintro ⟨hstart, hle, hnot⟩
    rw [List.mem_append, not_or] at hnot
    refine ⟨hstart, ?_, hnot.1⟩
    by_contra hlt
    rcases hpage.whole a ha (not_le.1 hlt) with hmem | ⟨hne, hall⟩
    · exact hnot.2 hmem
    · rcases List.eq_nil_or_concat' page with rfl | ⟨_, last, rfl⟩
      · exact hne rfl
      · have hlast := hall last (by simp)
        simp only [horizon, poll, List.getLast?_concat] at hle
        omega
  · rintro ⟨hstart, hle, hnot⟩
    refine ⟨hstart, hle.trans hsound.horizon.1, fun hmem => ?_⟩
    rcases List.mem_append.1 hmem with hmem | hmem
    · exact hnot hmem
    · exact absurd (hsound.ahead a hmem) (not_lt.2 hle)

theorem Whole.begin (number : ε → Nat) (published : List ε) (start : Int) :
    Whole number published start (begin start) := by
  rintro e - ⟨hlt, hle, -⟩
  exact absurd hlt (not_lt.2 hle)

section

variable (h : Whole number published start r)
include h

theorem Whole.take (hasked : r.asked = e :: rest) :
    Whole number published start (r.take number e rest) :=
  fun a ha hpassed => h a ha ((passed_take hasked a).1 hpassed)

theorem Whole.poll (hsound : Sound number published start r)
    (hasked : r.asked = []) (hpage : Page number published r.cursor page) :
    Whole number published start (r.poll page) :=
  fun a ha hpassed => h a ha ((passed_poll hsound hasked hpage ha).1 hpassed)

theorem Whole.drop (hsound : Sound number published start r) :
    Whole number published start r.drop := by
  rintro a ha ⟨hstart, hle, hnot⟩
  refine h a ha ⟨hstart, hle.trans hsound.horizon.1, fun hmem => hnot ?_⟩
  rcases List.mem_append.1 hmem with hmem | hmem
  · exact List.mem_append_left _ hmem
  · exact absurd (hsound.ahead a hmem) (not_lt.2 hle)

theorem Whole.publish (hsound : Sound number published start r) (hnew : e ∉ published) :
    Whole number (published ++ [e]) start r ↔ (start < number e → r.horizon number < number e) := by
  constructor
  · intro hwhole hstart
    by_contra hle
    refine hwhole e (by simp) ⟨hstart, not_lt.1 hle, fun hmem => hnew (hsound.mem e hmem).1⟩
  · intro hahead a ha hpassed
    rcases Parties.mem_snoc.1 ha with ha | rfl
    · exact h a ha hpassed
    · exact absurd (hahead hpassed.1) (not_lt.2 hpassed.2.1)

end

/-! ## Rounds -/

/-- Every round since an entry appeared has moved the cursor, if the entry is not taken. `since e`
are the rounds there were when `e` appeared. -/
def Timely (number since : ε → Nat) (published : List ε) (start : Int) (r : Reader ε) : Prop :=
  ∀ e ∈ published, start < number e → e ∉ r.received → start + r.rounds ≤ r.cursor + since e

variable {since since' : ε → Nat}

section

variable (h : Timely number since published start r)
include h

theorem Timely.publish (hstart : start ≤ r.cursor)
    (hold : ∀ a ∈ published, since' a = since a) (hnew : since' e = r.rounds) :
    Timely number since' (published ++ [e]) start r := by
  intro a ha hnumber hnot
  rcases Parties.mem_snoc.1 ha with ha | rfl
  · rw [hold a ha]
    exact h a ha hnumber hnot
  · rw [hnew]
    omega

theorem Timely.drop : Timely number since published start r.drop := h

theorem Timely.take (hsound : Sound number published start r) (hasked : r.asked = e :: rest) :
    Timely number since published start (r.take number e rest) := by
  intro a ha hnumber hnot
  have hbefore := h a ha hnumber fun hmem => hnot (List.mem_append_left _ hmem)
  have hlt : r.cursor < number e := hsound.ahead e (by rw [hasked]; exact List.mem_cons_self)
  dsimp only [Reader.take]
  split <;> omega

theorem Timely.poll (hwhole : Whole number published start r) (hasked : r.asked = [])
    (hpage : Page number published r.cursor page) :
    Timely number since published start (r.poll page) := by
  intro a ha hnumber hnot
  have hbefore := h a ha hnumber hnot
  have hcursor : r.horizon number = r.cursor := by rw [horizon, hasked]; rfl
  have hlt : r.cursor < number a := by
    by_contra hle
    refine hwhole a ha ⟨hnumber, hcursor ▸ not_lt.1 hle, ?_⟩
    rwa [hasked, List.append_nil]
  have hpageNe : page ≠ [] := by
    rcases hpage.whole a ha hlt with hmem | ⟨hne, -⟩
    · exact List.ne_nil_of_mem hmem
    · exact hne
  have hempty : page.isEmpty = false := by simpa using hpageNe
  simpa [Reader.poll, hempty] using hbefore

/-- **What is published is taken** after as many rounds as it is far from the start. -/
theorem Timely.taken
    (hsound : Sound number published start r) (hwhole : Whole number published start r)
    (he : e ∈ published) (hstart : start < number e)
    (hrounds : (number e : Int) + since e ≤ start + r.rounds) : e ∈ r.received := by
  by_contra hnot
  have htimely := h e he hstart hnot
  have hcursor : (number e : Int) ≤ r.cursor := by omega
  refine hwhole e he ⟨hstart, hcursor.trans hsound.horizon.1, fun hmem => ?_⟩
  rcases List.mem_append.1 hmem with hmem | hmem
  · exact hnot hmem
  · exact absurd (hsound.ahead e hmem) (not_lt.2 hcursor)

end

/-! ## Going on -/

/-- A reader alone, with what is published: it asks when it has taken everything. -/
def advance (number : ε → Nat) (answer : Int → List ε) (r : Reader ε) : Reader ε :=
  match r.asked with
  | [] => r.poll (answer r.cursor)
  | e :: rest => r.take number e rest

variable {answer : Int → List ε}

theorem advance_nil (hasked : r.asked = []) :
    r.advance number answer = r.poll (answer r.cursor) := by
  rw [advance, hasked]

theorem advance_cons (hasked : r.asked = e :: rest) :
    r.advance number answer = r.take number e rest := by
  rw [advance, hasked]

theorem exists_taken (number : ε → Nat) (answer : Int → List ε) :
    ∀ (asked : List ε) (r : Reader ε), r.asked = asked → asked ≠ [] →
      ∃ n, ((advance number answer)^[n] r).rounds = r.rounds + 1
  | [], _, _, hne => absurd rfl hne
  | [e], r, hasked, _ => ⟨1, by simp [advance_cons hasked, take]⟩
  | e :: a :: rest, r, hasked, _ => by
    obtain ⟨n, hrounds⟩ :=
      exists_taken number answer (a :: rest) (r.take number e (a :: rest)) rfl
        (List.cons_ne_nil a rest)
    refine ⟨n + 1, ?_⟩
    rw [Function.iterate_succ_apply, advance_cons hasked, hrounds]
    rfl

theorem exists_round (number : ε → Nat) (answer : Int → List ε) (r : Reader ε) :
    ∃ n, ((advance number answer)^[n] r).rounds = r.rounds + 1 := by
  by_cases hasked : r.asked = []
  · by_cases hpage : answer r.cursor = []
    · exact ⟨1, by simp [advance_nil hasked, poll, hpage]⟩
    · obtain ⟨n, hrounds⟩ := exists_taken number answer _ (r.poll (answer r.cursor)) rfl hpage
      refine ⟨n + 1, ?_⟩
      rw [Function.iterate_succ_apply, advance_nil hasked, hrounds]
      simp [poll, hpage]
  · exact exists_taken number answer r.asked r rfl hasked

theorem exists_rounds (number : ε → Nat) (answer : Int → List ε) (r : Reader ε) (rounds : Nat) :
    ∃ n, rounds ≤ ((advance number answer)^[n] r).rounds := by
  induction rounds with
  | zero => exact ⟨0, Nat.zero_le _⟩
  | succ _ ih =>
    obtain ⟨n, _⟩ := ih
    obtain ⟨m, hm⟩ := exists_round number answer ((advance number answer)^[n] r)
    refine ⟨m + n, ?_⟩
    rw [Function.iterate_add_apply, hm]
    omega

theorem Sound.advance (h : Sound number published start r)
    (hpage : ∀ cursor, Page number published cursor (answer cursor)) :
    Sound number published start (r.advance number answer) := by
  cases hasked : r.asked with
  | nil =>
    rw [advance_nil hasked]
    exact h.poll hasked (hpage _)
  | cons a =>
    rw [advance_cons hasked]
    exact h.take hasked

theorem Whole.advance (h : Whole number published start r) (hsound : Sound number published start r)
    (hpage : ∀ cursor, Page number published cursor (answer cursor)) :
    Whole number published start (r.advance number answer) := by
  cases hasked : r.asked with
  | nil =>
    rw [advance_nil hasked]
    exact h.poll hsound hasked (hpage _)
  | cons a =>
    rw [advance_cons hasked]
    exact h.take hasked

theorem Timely.advance (h : Timely number since published start r)
    (hsound : Sound number published start r) (hwhole : Whole number published start r)
    (hpage : ∀ cursor, Page number published cursor (answer cursor)) :
    Timely number since published start (r.advance number answer) := by
  cases hasked : r.asked with
  | nil =>
    rw [advance_nil hasked]
    exact h.poll hwhole hasked (hpage _)
  | cons a =>
    rw [advance_cons hasked]
    exact h.take hsound hasked

theorem passed_advance (h : Passed number start r e) (hsound : Sound number published start r)
    (hpage : ∀ cursor, Page number published cursor (answer cursor)) (he : e ∈ published) :
    Passed number start (r.advance number answer) e := by
  cases hasked : r.asked with
  | nil =>
    rw [advance_nil hasked]
    exact (passed_poll hsound hasked (hpage _) he).2 h
  | cons a =>
    rw [advance_cons hasked]
    exact (passed_take hasked e).2 h

end Reader

end Scenara.Core

import Scenara.Ocr.Compliance

/-!
# Where compliance hits point

The loop over a keyword's places ends unless the keyword is empty (`search_isSome_iff`).
-/

namespace Scenara.Ocr

open Scenara.Core
open Index (isSpace blank)

variable {casing : Casing} {needle hay text : List Char} {step fuel start idx : Nat}

/-! ## Searching -/

theorem find_eq_some (h : find needle hay start = some idx) :
    start ≤ idx ∧ idx ≤ hay.length ∧ needle <+: hay.drop idx := by
  have hmem := List.mem_of_find?_eq_some h
  have hp := List.find?_some h
  rw [Bool.and_eq_true, decide_eq_true_eq, List.isPrefixOf_iff_prefix] at hp
  exact ⟨hp.1, Nat.lt_succ_iff.1 (List.mem_range.1 hmem), hp.2⟩

theorem mem_search {places : List Nat} (h : search needle hay step fuel start = some places)
    (hidx : idx ∈ places) : start ≤ idx ∧ idx ≤ hay.length ∧ needle <+: hay.drop idx := by
  induction fuel generalizing start places with
  | zero => cases h
  | succ _ ih =>
    rw [search] at h
    cases hfind : find needle hay start with
    | none =>
      rw [hfind] at h
      cases h
      cases hidx
    | some =>
      rw [hfind] at h
      obtain ⟨_, hrest, rfl⟩ := Option.map_eq_some_iff.1 h
      obtain ⟨hle, hplace⟩ := find_eq_some hfind
      rcases List.mem_cons.1 hidx with rfl | hidx
      · exact ⟨hle, hplace⟩
      · have hlater := ih hrest hidx
        exact ⟨by omega, hlater.2⟩

theorem search_isSome (hstep : 0 < step) (hfuel : hay.length + 1 - start < fuel) :
    (search needle hay step fuel start).isSome = true := by
  induction fuel generalizing start with
  | zero => exact absurd hfuel (Nat.not_lt_zero _)
  | succ _ ih =>
    rw [search]
    cases hfind : find needle hay start with
    | none => rfl
    | some =>
      obtain ⟨_, _, -⟩ := find_eq_some hfind
      rw [Option.isSome_map]
      exact ih (by omega)

theorem search_empty (fuel : Nat) : search [] hay 0 fuel 0 = none := by
  induction fuel with
  | zero => rfl
  | succ _ ih =>
    have hfind : find [] hay 0 = some 0 := by
      unfold find
      simp
    rw [search, hfind]
    simp only [Nat.add_zero, ih, Option.map_none]

theorem keywordPlaces_isSome_iff {lowerText : List Char} {kw : String} :
    (keywordPlaces casing lowerText kw).isSome = true ↔ kw ≠ "" := by
  unfold keywordPlaces
  constructor
  · rintro h rfl
    have hlower : casing.lower "".toList = [] := (casing.lower_eq_nil _).2 rfl
    have hlength : "".toList.length = 0 := rfl
    rw [hlower, hlength, search_empty] at h
    cases h
  · intro hne
    refine search_isSome (List.length_pos_iff.2 fun hnil => hne ?_) (by unfold turns; omega)
    exact String.toList_inj.1 hnil

/-! ## Occurrences -/

variable {rules : List ComplianceRule} {rule : ComplianceRule} {hits : List Occurrence}
    {o : Occurrence}

theorem mapM_isSome_iff {α β : Type} {f : α → Option β} {xs : List α} :
    (xs.mapM f).isSome = true ↔ ∀ x ∈ xs, (f x).isSome = true := by
  induction xs with
  | nil => simp
  | cons x xs ih =>
    rw [List.mapM_cons, List.forall_mem_cons, ← ih]
    cases f x with
    | none => simp
    | some y => cases xs.mapM f <;> simp

theorem mem_of_mapM {α β : Type} {f : α → Option (List β)} {xs : List α} {yss : List (List β)}
    (h : xs.mapM f = some yss) {y : β} (hy : y ∈ yss.flatten) : ∃ x ∈ xs, ∃ ys, f x = some ys ∧
    y ∈ ys := by
  induction xs generalizing yss with
  | nil =>
    cases h
    cases hy
  | cons x xs ih =>
    rw [List.mapM_cons] at h
    cases hx : f x with
    | none => rw [hx] at h; cases h
    | some ys =>
      rw [hx] at h
      cases hxs : xs.mapM f with
      | none => rw [hxs] at h; cases h
      | some =>
        rw [hxs] at h
        cases h
        rcases List.mem_append.1 (List.flatten_cons ▸ hy) with hy | hy
        · exact ⟨x, List.mem_cons_self, ys, hx, hy⟩
        · obtain ⟨x', hx', rest'⟩ := ih hxs hy
          exact ⟨x', List.mem_cons_of_mem x hx', rest'⟩

theorem occurrences_isSome_iff (casing : Casing) (text : List Char) (rules : List ComplianceRule) :
    (occurrences casing text rules).isSome = true ↔
    ∀ rule ∈ rules, ∀ kw ∈ rule.keywords, kw ≠ "" := by
  unfold occurrences keywordOccurrences
  rw [Option.isSome_map, mapM_isSome_iff]
  refine forall₂_congr fun rule _ => ?_
  rw [Option.isSome_map, Option.isSome_map, mapM_isSome_iff]
  refine forall₂_congr fun kw _ => ?_
  rw [Option.isSome_map, keywordPlaces_isSome_iff]

/-- What an occurrence is: a keyword in the lower-cased text, or a match in the text. -/
structure OccurrenceIn (casing : Casing) (text : List Char) (o : Occurrence) : Prop where
  keyword : ∀ kw, o.source = .keyword kw → o.stop = o.start + kw.toList.length ∧
    casing.lower kw.toList <+: (casing.lower text).drop o.start
  nonempty : ∀ kw, o.source = .keyword kw → kw ≠ ""
  pattern : o.source = .pattern → o.stop ≤ text.length

theorem mem_occurrences (h : occurrences casing text rules = some hits) (ho : o ∈ hits) :
    OccurrenceIn casing text o := by
  obtain ⟨_, hmapM, rfl⟩ := Option.map_eq_some_iff.1 h
  obtain ⟨_, -, _, hys, ho⟩ := mem_of_mapM hmapM ho
  obtain ⟨_, hkeywords, rfl⟩ := Option.map_eq_some_iff.1 hys
  rcases List.mem_append.1 ho with ho | ho
  · unfold keywordOccurrences at hkeywords
    obtain ⟨_, hmapM', rfl⟩ := Option.map_eq_some_iff.1 hkeywords
    obtain ⟨_, -, _, hzs, ho⟩ := mem_of_mapM hmapM' ho
    obtain ⟨places, hplaces, rfl⟩ := Option.map_eq_some_iff.1 hzs
    obtain ⟨_, hidx, rfl⟩ := List.mem_map.1 ho
    refine ⟨fun kw' hkw => ?_, fun kw' hkw => ?_, (by intro hpattern; cases hpattern)⟩
    · cases hkw
      exact ⟨rfl, (mem_search hplaces hidx).2.2⟩
    · cases hkw
      exact keywordPlaces_isSome_iff.1 (Option.isSome_iff_exists.2 ⟨places, hplaces⟩)
  · unfold patternOccurrences at ho
    obtain ⟨pattern, -, ho⟩ := List.mem_flatMap.1 ho
    obtain ⟨span, hspan, rfl⟩ := List.mem_map.1 ho
    exact ⟨(by intro kw hkw; cases hkw), (by intro kw hkw; cases hkw),
      fun _ => (pattern.within text span hspan).2⟩

/-! ## Parts of the text -/

/-- The part of the text that a block is, with the number of blocks without text before it. -/
structure Part where
  block : OcrTextBlock
  start : Nat
  empties : Nat

/-- The end of the part. -/
def Part.stop (p : Part) : Nat := p.start + p.block.text.toList.length

/-- The parts of the blocks with text, one character apart. -/
def parts : Nat → Nat → List OcrTextBlock → List Part
  | _, _, [] => []
  | start, empties, b :: bs =>
    if b.text = "" then parts start (empties + 1) bs
    else ⟨b, start, empties⟩ :: parts (start + b.text.toList.length + 1) empties bs

variable {p q : Part} {b : OcrTextBlock} {bs blocks : List OcrTextBlock} {s empties : Nat}

theorem map_block_parts (start empties : Nat) (bs : List OcrTextBlock) :
    (parts start empties bs).map Part.block = bs.filter (·.text ≠ "") := by
  induction bs generalizing start empties with
  | nil => rfl
  | cons b _ ih =>
    unfold parts
    split
    · next h => rw [ih, List.filter_cons_of_neg (by simpa using h)]
    · next h => rw [List.map_cons, ih, List.filter_cons_of_pos (by simpa using h)]

theorem parts_ge (h : p ∈ parts start empties bs) : start ≤ p.start ∧ empties ≤ p.empties := by
  induction bs generalizing start empties with
  | nil => cases h
  | cons b _ ih =>
    unfold parts at h
    split at h
    · have hge := ih h
      omega
    · rcases List.mem_cons.1 h with rfl | h
      · exact ⟨Nat.le_refl _, Nat.le_refl _⟩
      · have hge := ih h
        omega

theorem pairwise_parts : (parts start empties bs).Pairwise fun p q =>
    p.stop + p.empties < q.start + q.empties := by
  induction bs generalizing start empties with
  | nil => exact .nil
  | cons b _ ih =>
    unfold parts
    split
    · exact ih
    · refine List.pairwise_cons.2 ⟨fun q hq => ?_, ih⟩
      have hge := parts_ge hq
      unfold Part.stop
      simp only
      omega

/-- Two parts as the code sees them, one before the other. -/
def Apart (p q : Part) : Prop :=
  p.stop + p.empties < q.start + q.empties ∨ q.stop + q.empties < p.start + p.empties

instance : Std.Symm Apart := ⟨fun _ _ h => h.symm⟩

/-! ## The block of a place -/

/-- The code counts a character for every block before, also for those without text. -/
theorem findBlockId_eq (s start empties : Nat) (bs : List OcrTextBlock) :
    findBlockId s (start + empties) bs =
    ((parts start empties bs).find? fun p =>
      p.start + p.empties ≤ s ∧ s < p.stop + p.empties).map fun p => p.block.blockId := by
  induction bs generalizing start empties with
  | nil => rfl
  | cons b _ ih =>
    unfold findBlockId parts
    by_cases hb : b.text = ""
    · rw [if_pos hb, if_neg (by rw [hb]; simp)]
      have hlength : start + empties + (b.text.toList.length + 1) = start + (empties + 1) := by
        rw [hb]
        rfl
      rw [hlength, ih]
    · rw [if_neg hb, List.find?_cons]
      have hlength : start + empties + (b.text.toList.length + 1) =
          start + b.text.toList.length + 1 + empties := by omega
      rw [hlength, ih]
      unfold Part.stop
      by_cases hs : start + empties ≤ s ∧ s < start + b.text.toList.length + empties
      · rw [if_pos (by omega), decide_eq_true hs]
        rfl
      · rw [if_neg (by omega), decide_eq_false hs]

theorem findBlockId_iff (hids : (blocks.map OcrTextBlock.blockId).Nodup) (hp : p ∈ parts 0 0 blocks)
    (hstop : s < p.stop) :
    findBlockId s 0 blocks = some p.block.blockId ↔ p.start + p.empties ≤ s := by
  have heq : findBlockId s 0 blocks = _ := findBlockId_eq s 0 0 blocks
  rw [heq]
  constructor
  · intro h
    obtain ⟨q, hfind, hid⟩ := Option.map_eq_some_iff.1 h
    have hq := List.mem_of_find?_eq_some hfind
    have hin : q.start + q.empties ≤ s ∧
        s < q.stop + q.empties := by simpa using List.find?_some hfind
    have hnodup : ((parts 0 0 blocks).map fun p => p.block.blockId).Nodup := by
      have hmap : ((parts 0 0 blocks).map fun p => p.block.blockId) =
          (blocks.filter (·.text ≠ "")).map OcrTextBlock.blockId := by
        rw [← map_block_parts 0 0, List.map_map]
        rfl
      rw [hmap]
      exact hids.sublist (List.filter_sublist.map _)
    have hpq : q = p := List.inj_on_of_nodup_map hnodup hq hp hid
    exact hpq ▸ hin.1
  · intro hle
    rw [find?_of_alone hp (decide_eq_true ⟨hle, by omega⟩)]
    · rfl
    · intro q hq hin
      have hin := of_decide_eq_true hin
      have happart : (parts 0 0 blocks).Pairwise Apart := pairwise_parts.imp .inl
      by_contra hne
      rcases happart.forall hq hp hne with hlt | _ <;> omega

/-! ## The hits of a report -/

variable {policy : Policy} {reported : List OcrComplianceHit} {hit : OcrComplianceHit}

theorem mem_uniqueSpans {seen : List (Nat × Nat)} : hit ∈ uniqueSpans seen reported ↔
    hit.span ∉ seen ∧ (reported.find? fun h => h.span = hit.span) = some hit := by
  induction reported generalizing seen with
  | nil => simp [uniqueSpans]
  | cons first rest ih =>
    unfold uniqueSpans
    by_cases hspan : first.span = hit.span
    · have hfind : ((first :: rest).find? fun h => h.span = hit.span) = some first := by
        rw [List.find?_cons, decide_eq_true hspan]
      rw [hfind]
      split
      · next hseen =>
        rw [ih]
        exact iff_of_false (fun h => h.1 (hspan ▸ hseen)) fun h => h.1 (hspan ▸ hseen)
      · next hseen =>
        rw [List.mem_cons, ih]
        constructor
        · rintro (rfl | ⟨hnot, -⟩)
          · exact ⟨hseen, rfl⟩
          · exact absurd (hspan ▸ List.mem_cons_self) hnot
        · rintro ⟨-, heq⟩
          exact .inl (Option.some.inj heq).symm
    · have hfind : ((first :: rest).find? fun h => h.span = hit.span) =
          rest.find? fun h => h.span = hit.span := by
        rw [List.find?_cons, decide_eq_false hspan]
      have hne : hit ≠ first := fun heq => hspan (heq ▸ rfl)
      rw [hfind]
      split
      · exact ih
      · rw [List.mem_cons, ih, List.mem_cons]
        simp [hne, Ne.symm hspan]

theorem mem_uniqueHits (hword : ∀ h ∈ reported, h.word = slice text h.start h.stop) :
    hit ∈ uniqueHits reported ↔ (reported.find? fun h => h.span = hit.span) = some hit := by
  unfold uniqueHits
  rw [mem_uniqueSpans, find?_insertionSort]
  · simp
  · intro x hx y hy hpx hpy
    have hspan : x.span = y.span := (of_decide_eq_true hpx).trans (of_decide_eq_true hpy).symm
    have hstart : x.start = y.start := congrArg Prod.fst hspan
    have hstop : x.stop = y.stop := congrArg Prod.snd hspan
    refine .inr ⟨hstart, ?_⟩
    rw [hword x hx, hword y hy, hstart, hstop]

@[simp] theorem hits_reportOf (exempts : Bool) :
    (reportOf policy exempts reported).hits = reported := by
  unfold reportOf
  split
  · next h => exact h.symm
  · split
    · rfl
    · split <;> rfl

/-! ## Pointing at the right text -/

/-- A hit points at its word, which is its keyword but for case, and at the block that it is
inside. -/
structure Right (casing : Casing) (text : List Char) (blocks : List OcrTextBlock)
    (hit : OcrComplianceHit) : Prop where
  keyword : ∀ kw, hit.occurrence.source = .keyword kw → hit.start < hit.stop ∧
    hit.stop ≤ text.length ∧
    slice text hit.start hit.stop = hit.word ∧ casing.Alike hit.word kw.toList
  block : ∀ p ∈ parts 0 0 blocks, p.start ≤ hit.start → hit.start < p.stop → hit.stop ≤ p.stop →
    hit.blockId = some p.block.blockId

/-- The inspection comes to an end, and all its hits are right. -/
def Points (casing : Casing) (policy : Policy) (text : String) (blocks : List OcrTextBlock) :
    Prop :=
  ∃ report, inspect casing policy text blocks = some report ∧
    ∀ hit ∈ report.hits, Right casing text.toList blocks hit

/-- Lower-casing leaves in place what stands where the keyword is found. -/
def InPlace (casing : Casing) (text : List Char) (o : Occurrence) (kw : String) : Prop :=
  o.stop ≤ text.length ∧ casing.Alike (slice text o.start o.stop)
    (slice (casing.lower text) o.start (o.start + (casing.lower kw.toList).length))

/-- No block without text before makes the code miss the part that the occurrence is in. -/
def PastEmpties (blocks : List OcrTextBlock) (o : Occurrence) : Prop :=
  ∀ p ∈ parts 0 0 blocks, p.start ≤ o.start → o.start < p.stop → o.stop ≤ p.stop →
    p.start + p.empties ≤ o.start

/-- No keyword is empty; where a keyword is found lower-casing leaves the text in place; and what is
hit is as far into its part as there are blocks without text before. -/
def Fits (casing : Casing) (policy : Policy) (text : String) (blocks : List OcrTextBlock) : Prop :=
  blank text = true ∨
    (∀ rule ∈ policy.allRules, ∀ kw ∈ rule.keywords, kw ≠ "") ∧
      ∀ hits, occurrences casing text.toList policy.allRules = some hits →
        ∀ o, ((counted casing text.toList policy.allWhitelist hits).find? fun other =>
            other.span = o.span) = some o →
          (∀ kw, o.source = .keyword kw → InPlace casing text.toList o kw) ∧ PastEmpties blocks o

theorem slice_of_isPrefix {l : List Char} (h : needle <+: l.drop start) :
    slice l start (start + needle.length) = needle := by
  unfold slice
  rw [List.drop_take, Nat.add_sub_cancel_left]
  exact (List.prefix_iff_eq_take.1 h).symm

theorem right_iff (hids : (blocks.map OcrTextBlock.blockId).Nodup)
    (ho : OccurrenceIn casing text o) : Right casing text blocks (toHit text blocks o) ↔
      (∀ kw, o.source = .keyword kw → InPlace casing text o kw) ∧ PastEmpties blocks o := by
  have hword : ∀ kw, o.source = .keyword kw →
      (casing.Alike (slice text o.start o.stop) kw.toList ↔ casing.Alike (slice text o.start o.stop)
        (slice (casing.lower text) o.start (o.start + (casing.lower kw.toList).length))) := by
    intro kw hsource
    rw [slice_of_isPrefix (ho.keyword kw hsource).2]
    unfold Casing.Alike
    rw [casing.fold_lower]
  constructor
  · intro h
    refine ⟨fun kw hsource => ?_, fun p hp hstart hstop hin => ?_⟩
    · obtain ⟨-, hle, -, halike⟩ := h.keyword kw hsource
      exact ⟨hle, (hword kw hsource).1 halike⟩
    · exact (findBlockId_iff hids hp hstop).1 (h.block p hp hstart hstop hin)
  · rintro ⟨hplace, hpast⟩
    refine ⟨fun kw hsource => ?_, fun p hp hstart hstop hin => ?_⟩
    · obtain ⟨hle, halike⟩ := hplace kw hsource
      have hpos : 0 < kw.toList.length := List.length_pos_iff.2 fun hnil =>
        ho.nonempty kw hsource (String.toList_inj.1 hnil)
      refine ⟨?_, hle, rfl, (hword kw hsource).2 halike⟩
      show o.start < o.stop
      rw [(ho.keyword kw hsource).1]
      omega
    · exact (findBlockId_iff hids hp hstop).2 (hpast p hp hstart hstop hin)

theorem mem_hits {all : List Occurrence} : hit ∈ uniqueHits (all.map (toHit text blocks)) ↔
    ∃ o, (all.find? fun other => other.span = o.span) = some o ∧ hit = toHit text blocks o := by
  have hword : ∀ h ∈ all.map (toHit text blocks), h.word = slice text h.start h.stop := by
    intro h hmem
    obtain ⟨o, -, rfl⟩ := List.mem_map.1 hmem
    rfl
  have hfind : ∀ span : Nat × Nat, ((all.map (toHit text blocks)).find? fun h => h.span = span) =
      (all.find? fun o => o.span = span).map (toHit text blocks) := fun span => List.find?_map
  rw [mem_uniqueHits hword, hfind, Option.map_eq_some_iff]
  constructor
  all_goals
    rintro ⟨o, ho, rfl⟩
    exact ⟨o, ho, rfl⟩

/-- **Compliance hits** of the aggregate text of blocks, whose ids differ: they all point at the
right text, and at the right block, exactly under `Fits`. -/
theorem points_iff (casing : Casing) (policy : Policy) (blocks : List OcrTextBlock)
    (hids : (blocks.map OcrTextBlock.blockId).Nodup) :
    Points casing policy (blockTexts blocks) blocks ↔
      Fits casing policy (blockTexts blocks) blocks := by
  unfold Points Fits inspect
  by_cases hblank : blank (blockTexts blocks) = true
  · rw [if_pos hblank]
    refine iff_of_true ⟨_, rfl, fun hit hmem => ?_⟩ (.inl hblank)
    cases hmem
  · rw [if_neg hblank, ← occurrences_isSome_iff casing (blockTexts blocks).toList policy.allRules]
    simp only [hblank, Bool.false_eq_true, false_or]
    unfold found
    cases hall : occurrences casing (blockTexts blocks).toList policy.allRules with
    | none => simp
    | some hits =>
      have hright : ∀ o ∈ counted casing (blockTexts blocks).toList policy.allWhitelist hits,
          (Right casing (blockTexts blocks).toList blocks
            (toHit (blockTexts blocks).toList blocks o) ↔
            (∀ kw, o.source = .keyword kw → InPlace casing (blockTexts blocks).toList o kw) ∧
              PastEmpties blocks o) := fun o ho =>
        right_iff hids (mem_occurrences hall (List.mem_of_mem_filter ho))
      simp only [Option.map_some, Option.some.injEq, exists_eq_left', hits_reportOf, mem_hits,
        Option.isSome_some, true_and]
      constructor
      · rintro h _ rfl o ho
        exact (hright o (List.mem_of_find?_eq_some ho)).1 (h _ ⟨o, ho, rfl⟩)
      · rintro h _ ⟨o, ho, rfl⟩
        exact (hright o (List.mem_of_find?_eq_some ho)).2 (h hits rfl o ho)

/-! ## A letter that takes two -/

/-- Only one letter has a case, and its small form takes two characters. -/
def dotted (c : Char) : List Char := if c = 'İ' then ['i', Char.ofNat 0x307] else [c]

theorem dotted_dotted (c : Char) : (dotted c).flatMap dotted = dotted c := by
  unfold dotted
  split
  · decide
  · next h => simp [h]

/-- The casing of that letter. -/
def dottedCasing : Casing where
  lower text := text.flatMap dotted
  fold := dotted
  lower_eq_nil text := by
    rw [List.flatMap_eq_nil_iff]
    constructor
    · intro h
      cases text with
      | nil => rfl
      | cons c cs =>
        have hc := h c List.mem_cons_self
        unfold dotted at hc
        split at hc <;> cases hc
    · rintro rfl c hc
      cases hc
  fold_lower text := by
    rw [List.flatMap_assoc]
    exact List.flatMap_congr fun c _ => dotted_dotted c

/-- A word that must not be used. -/
def firstPlace : Policy where
  baseRules := [⟨"ad_law_absolute_extreme", "广告法极限词", "block", ["第一"], "", "", []⟩]
  persistentRules := []
  persistentWhitelist := []
  customWords := []
  whitelist := []
  customSeverity := "block"

/-- The word after the letter. -/
def dottedBlocks : List OcrTextBlock := [⟨"frame_0_block_0", "İ第一名", none⟩]

/-- `^.`, the first character of a text. -/
def firstCharacter : Pattern where
  finditer text := if text = [] then [] else [(0, 1)]
  within text span hspan := by
    cases text with
    | nil => cases hspan
    | cons =>
      rw [List.mem_singleton.1 hspan]
      exact ⟨Nat.zero_le 1, Nat.succ_le_succ (Nat.zero_le _)⟩

/-- The word, and whatever a text begins with. -/
def wordAndFirst : Policy :=
  { firstPlace with
    persistentRules := [⟨"first", "", "warn", [], "", "", [firstCharacter]⟩] }

/-- The word in the second of two blocks. -/
def plainBlocks : List OcrTextBlock :=
  [⟨"frame_0_block_0", "冠军", some ⟨9 / 10, by decide +kernel⟩⟩, ⟨"frame_0_block_1", "第一名", none⟩]

theorem points_iff_plain :
    Points dottedCasing wordAndFirst (blockTexts plainBlocks) plainBlocks ↔
      Fits dottedCasing wordAndFirst (blockTexts plainBlocks) plainBlocks :=
  points_iff dottedCasing wordAndFirst plainBlocks (by decide)

theorem not_points : ¬∀ (casing : Casing) (policy : Policy) (blocks : List OcrTextBlock),
    (blocks.map OcrTextBlock.blockId).Nodup → Points casing policy (blockTexts blocks) blocks := by
  intro h
  obtain ⟨report, hreport, hright⟩ := h dottedCasing firstPlace dottedBlocks (by decide)
  have hwords : (inspect dottedCasing firstPlace (blockTexts dottedBlocks) dottedBlocks).map
      (fun report => report.hits.map fun hit => (hit.occurrence.source, hit.word)) =
        some [(.keyword "第一", ['一', '名'])] := by decide +kernel
  rw [hreport] at hwords
  have hhits := Option.some.inj hwords
  obtain ⟨hit, _, hlist, hpair, -⟩ := List.map_eq_cons_iff.1 hhits
  have hkeyword := (hright hit (hlist ▸ List.mem_cons_self)).keyword "第一" (congrArg Prod.fst hpair)
  have halike := hkeyword.2.2.2
  have hword : hit.word = ['一', '名'] := congrArg Prod.snd hpair
  rw [hword] at halike
  have hne : ['一', '名'].flatMap dotted ≠ "第一".toList.flatMap dotted := by decide +kernel
  exact hne halike

end Scenara.Ocr

import Mathlib.Data.Prod.Lex
import Mathlib.Data.Sum.Order
import Scenara.Release.Live

/-!
# Automatic rollback

`auto_rollback` activates the newest retired release of the model. The release it rolls away from is
retired by that, and is a candidate of the next call.
-/

namespace Scenara.Release

open Scenara.Core

variable {digit : Char → Option Nat} {repo : Repository} {scope : Scope} {modelId : String}

/-! ## Versions -/

/-- Numbers before labels. -/
def Token.rank : Token → Nat ⊕ₗ String
  | .number n => toLex (.inl n)
  | .label s => toLex (.inr s)

theorem Token.rank_injective : Function.Injective Token.rank := by
  intro a b h
  cases a <;> cases b <;> simp_all [Token.rank]

/-- The order of the keys. -/
def keyRank (key : List Token) : List (Nat ⊕ₗ String) := key.map Token.rank

theorem keyGt_eq_some {a b : List Token} {above : Bool} (h : keyGt a b = some above) :
    above = true ↔ keyRank b < keyRank a := by
  induction a generalizing b with
  | nil =>
    cases h
    simp [keyRank]
  | cons x _ ih =>
    rcases b with _ | ⟨y, _⟩
    · cases h
      simp [keyRank]
    unfold keyGt at h
    unfold keyRank at ih ⊢
    rw [List.map_cons, List.map_cons, List.cons_lt_cons_iff]
    by_cases hxy : x = y
    · rw [if_pos hxy] at h
      rw [ih h, hxy]
      exact ⟨fun hlt => .inr ⟨rfl, hlt⟩,
        fun hor => hor.elim (absurd · (lt_irrefl y.rank)) And.right⟩
    · rw [if_neg hxy] at h
      have hne : y.rank ≠ x.rank := fun heq => hxy (Token.rank_injective heq).symm
      rw [or_iff_left fun hand => hne hand.1]
      split at h
      · cases h
        simp [Token.rank]
      · cases h
        simp [Token.rank]
      · cases h

/-- Both are numbers, or both are labels. -/
def Token.SameKind : Token → Token → Prop
  | .number _, .number _ => True
  | .label _, .label _ => True
  | _, _ => False

/-- The first tokens that differ are of the same kind. -/
def Comparable (a b : List Token) : Prop :=
  ∀ pre x xs y ys, a = pre ++ x :: xs → b = pre ++ y :: ys → x ≠ y → x.SameKind y

/-- **A comparison raises** exactly on a number and a label. -/
theorem keyGt_ne_none {a b : List Token} : keyGt a b ≠ none ↔ Comparable a b := by
  induction a generalizing b with
  | nil =>
    refine iff_of_true nofun fun pre x xs y ys ha => ?_
    simp at ha
  | cons x xs ih =>
    rcases b with _ | ⟨y, ys⟩
    · refine iff_of_true nofun fun pre x xs y ys _ hb => ?_
      simp at hb
    unfold keyGt
    by_cases hxy : x = y
    · rw [if_pos hxy, ih, hxy]
      constructor
      · intro h pre u us v vs ha hb huv
        rcases pre with _ | ⟨p, pre⟩
        · cases ha
          cases hb
          exact absurd rfl huv
        · exact h pre u us v vs (List.cons.inj ha).2 (List.cons.inj hb).2 huv
      · intro h pre u us v vs ha hb huv
        exact h (y :: pre) u us v vs (by rw [ha]; rfl) (by rw [hb]; rfl) huv
    · rw [if_neg hxy]
      have hiff : Comparable (x :: xs) (y :: ys) ↔ x.SameKind y := by
        constructor
        · exact fun h => h [] x xs y ys rfl rfl hxy
        · intro h pre u _ v _ ha hb _
          rcases pre with _ | ⟨p, _⟩
          · cases ha
            cases hb
            exact h
          · exact absurd ((List.cons.inj ha).1.trans (List.cons.inj hb).1.symm) hxy
      rw [hiff]
      cases x <;> cases y <;> simp [Token.SameKind]

/-- The order of `max` on a list sorted by version: the key, and of two with one key the first. -/
def versionRank (digit : Char → Option Nat) (version : String) :
    List (Nat ⊕ₗ String) ×ₗ Stringᵒᵈ :=
  toLex (keyRank (releaseVersionKey digit version), OrderDual.toDual version)

theorem versionRank_injective : Function.Injective (versionRank digit) := by
  intro v w h
  have hpair := congrArg (fun p => (ofLex p).2) h
  exact OrderDual.toDual.injective hpair

theorem versionRank_lt_iff {v w : String} (h : v < w) :
    versionRank digit v < versionRank digit w ↔
      keyRank (releaseVersionKey digit v) < keyRank (releaseVersionKey digit w) := by
  unfold versionRank
  rw [Prod.Lex.toLex_lt_toLex]
  exact or_iff_left fun hand => lt_asymm h (OrderDual.toDual_lt_toDual.1 hand.2)

/-! ## One call -/

/-- The versions of the model that are RETIRED. -/
def Repository.retiredVersions (repo : Repository) (scope : Scope) (modelId : String) :
    Set String :=
  {version | ∃ r, repo.releases.get? ⟨scope, modelId, version⟩ = some r ∧ r.status = .retired}

theorem listed_iff {a b : ModelRelease} : Repository.Listed a b ↔
    toLex (a.key.modelId, a.key.version) ≤ toLex (b.key.modelId, b.key.version) := by
  rw [Prod.Lex.toLex_le_toLex]
  rfl

instance : Std.Total Repository.Listed where
  total _ _ := (le_total _ _).imp listed_iff.2 listed_iff.2

instance : IsTrans _ Repository.Listed where
  trans _ _ _ hab hbc := listed_iff.2 ((listed_iff.1 hab).trans (listed_iff.1 hbc))

theorem versions_ascend {picks : ModelRelease → Bool}
    (hmodel : ∀ r, picks r → r.key.modelId = modelId) :
    ((repo.listReleases scope).filter picks).Pairwise fun a b => a.key.version < b.key.version := by
  have hlisted : (repo.listReleases scope).Pairwise Repository.Listed :=
    List.pairwise_insertionSort _ _
  have hboth := (hlisted.and nodup_listReleases).sublist (List.filter_sublist (p := picks))
  refine (List.Pairwise.and_mem.1 hboth).imp fun {a b} hab => ?_
  obtain ⟨ha, hb, hle, hne⟩ := hab
  obtain ⟨ha, hpa⟩ := List.mem_filter.1 ha
  obtain ⟨hb, hpb⟩ := List.mem_filter.1 hb
  obtain ⟨hastored, _⟩ := mem_listReleases.1 ha
  obtain ⟨hbstored, _⟩ := mem_listReleases.1 hb
  have hsame : a.key.modelId = b.key.modelId := (hmodel a hpa).trans (hmodel b hpb).symm
  have hversions : a.key.version ≤ b.key.version := hle.elim
    (fun hlt => absurd hsame hlt.ne) And.right
  refine hversions.lt_of_ne fun heq => hne ?_
  have hkey : a.key = b.key := by
    cases hka : a.key
    cases hkb : b.key
    simp_all
  rw [hkey, hbstored] at hastored
  exact (Option.some.inj hastored).symm

theorem mem_activeVersions {version : String} : version ∈ repo.activeVersions scope modelId ↔
    ∃ r, repo.releases.get? ⟨scope, modelId, version⟩ = some r ∧ r.status = .active := by
  unfold Repository.activeVersions
  rw [List.mem_map]
  constructor
  · rintro ⟨r, hr, rfl⟩
    obtain ⟨hlisted, hp⟩ := List.mem_filter.1 hr
    obtain ⟨_, hscope⟩ := mem_listReleases.1 hlisted
    simp only [Bool.and_eq_true, decide_eq_true_eq] at hp
    refine ⟨r, ?_, hp.2⟩
    rwa [← hscope, ← hp.1]
  · rintro ⟨r, hget, hactive⟩
    have hkey := repo.keyed hget
    refine ⟨r, List.mem_filter.2 ⟨mem_listReleases.2 ⟨?_, ?_⟩, ?_⟩, ?_⟩
    · rw [hkey, hget]
    · rw [hkey]
    · simp [hkey, hactive]
    · rw [hkey]

theorem eq_of_active {current version : String}
    (honly : repo.activeVersions scope modelId = [current]) {r : ModelRelease}
    (hget : repo.releases.get? ⟨scope, modelId, version⟩ = some r) (hactive : r.status = .active) :
    version = current := by
  have hmem := mem_activeVersions.2 ⟨r, hget, hactive⟩
  rw [honly] at hmem
  exact List.mem_singleton.1 hmem

theorem not_retired_of_active {current : String}
    (honly : repo.activeVersions scope modelId = [current]) :
    current ∉ repo.retiredVersions scope modelId := by
  rintro ⟨r, hget, hretired⟩
  obtain ⟨_, hget', hactive⟩ := mem_activeVersions.1 (honly ▸ List.mem_singleton_self current)
  rw [hget] at hget'
  obtain rfl := Option.some.inj hget'
  simp [hretired] at hactive

variable {out : Transitioned}

theorem transition_of_rollback {registry : Registry} {version : String} {now : ℚ}
    (h : rollback registry repo scope modelId version now = .ok out) :
    repo.transitionRelease ⟨scope, modelId, version⟩ .active true now = .ok out := by
  unfold rollback at h
  split at h
  · cases h
  obtain ⟨-, -, h⟩ := bind_eq_ok.1 h
  obtain ⟨_, -, h⟩ := bind_eq_ok.1 h
  split_ifs at h
  split at h
  · cases h
  · exact h

theorem newest_of_autoRollback {registry : Registry} {current reason : String} {now : ℚ}
    (honly : repo.activeVersions scope modelId = [current])
    (h : autoRollback digit registry repo scope modelId current reason now = .ok out) :
    ∃ version ∈ repo.retiredVersions scope modelId,
      (∀ w ∈ repo.retiredVersions scope modelId, versionRank digit w ≤ versionRank digit version) ∧
      repo.transitionRelease ⟨scope, modelId, version⟩ .active true now = .ok out := by
  unfold autoRollback at h
  dsimp only at h
  split at h
  · cases h
  split at h
  · cases h
  rename_i first rest hcandidates
  split at h
  · cases h
  rename_i target htarget
  split at h
  swap
  · cases h
  have hascend : (first :: rest).Pairwise fun a b => a.key.version < b.key.version := by
    rw [← hcandidates]
    refine versions_ascend fun r hr => (?_ : r.key.modelId = modelId)
    simp only [Bool.and_eq_true, decide_eq_true_eq] at hr
    exact hr.1.1
  have hmax : target ∈ first :: rest ∧ ∀ r ∈ first :: rest,
      versionRank digit r.key.version ≤ versionRank digit target.key.version :=
    maxM_spec (hascend.imp fun hlt above habove =>
      (keyGt_eq_some habove).trans (versionRank_lt_iff hlt).symm) htarget
  have hmem : ∀ r, r ∈ first :: rest ↔ (repo.releases.get? r.key = some r ∧ r.key.scope = scope) ∧
      (r.key.modelId = modelId ∧ r.status = .retired) ∧ r.key.version ≠ current := fun r => by
    rw [← hcandidates, List.mem_filter, mem_listReleases]
    simp
  obtain ⟨⟨_, hscope⟩, ⟨hmodel, hretired⟩, -⟩ := (hmem target).1 hmax.1
  refine ⟨target.key.version, ⟨target, ?_, hretired⟩, ?_, transition_of_rollback h⟩
  · rwa [← hscope, ← hmodel]
  · rintro w ⟨r, hget, hr⟩
    have hkey := repo.keyed hget
    have hne : w ≠ current := fun heq =>
      not_retired_of_active honly (heq ▸ (⟨r, hget, hr⟩ : w ∈ repo.retiredVersions scope modelId))
    have hin := hmax.2 r ((hmem r).2 (by simp [hkey, hget, hr, hne]))
    rwa [hkey] at hin

theorem retired_of_transition {current version : String} {now : ℚ}
    (honly : repo.activeVersions scope modelId = [current])
    (hversion : version ∈ repo.retiredVersions scope modelId)
    (h : repo.transitionRelease ⟨scope, modelId, version⟩ .active true now = .ok out)
    (hnext : out.repo.activeVersions scope modelId = [version]) :
    out.repo.retiredVersions scope modelId =
      insert current (repo.retiredVersions scope modelId \ {version}) := by
  have hne : current ≠ version := fun heq => not_retired_of_active honly (heq ▸ hversion)
  obtain ⟨r₀, hr₀, hactive⟩ := mem_activeVersions.1 (honly ▸ List.mem_singleton_self current)
  ext w
  unfold Repository.retiredVersions
  rw [Set.mem_insert_iff, Set.mem_sdiff, Set.mem_ofPred_eq, Set.mem_ofPred_eq,
    Set.mem_singleton_iff, get?_transition h]
  by_cases hw : w = version
  · subst hw
    simp [updated_status h, Ne.symm hne]
  have hk : (⟨scope, modelId, w⟩ : Key) ≠ ⟨scope, modelId, version⟩ := fun heq =>
    hw (Key.mk.inj heq).2.2
  rw [if_neg hk]
  split
  · -- The one retired was ACTIVE: it is the one rolled away from.
    rename_i hprevious
    obtain ⟨p, hp, hkey⟩ := hprevious
    obtain ⟨r, hlive, -, rfl⟩ := previous_key h hp
    have hrkey : r.key = ⟨scope, modelId, w⟩ := hkey.symm
    have hget : repo.releases.get? ⟨scope, modelId, w⟩ = some r := by
      rw [← hrkey]
      exact hlive.stored
    rw [hp]
    exact iff_of_true ⟨_, rfl, rfl⟩ (.inl (eq_of_active honly hget hlive.active))
  · -- Nothing has changed for this version, which is not the one rolled away from.
    rename_i hprevious
    have hwc : w ≠ current := fun heq => by
      subst heq
      have hget : out.repo.releases.get? ⟨scope, modelId, w⟩ = some r₀ := by
        rw [get?_transition h, if_neg hk, if_neg hprevious, hr₀]
      exact hw (eq_of_active hnext hget hactive)
    simp [hwc, hw]

theorem exchanges_of_autoRollbacks {call : AutoRollback} {calls : List AutoRollback}
    {rolled : List (String × String)}
    (h : autoRollbacks digit scope modelId repo (call :: calls) = some rolled) :
    call.currentVersion ∉ repo.retiredVersions scope modelId ∧ (∀ p ∈ rolled, p.1 ≠ p.2) ∧
    ∃ ts, rolled = moves call.currentVersion ts ∧ ts.length = calls.length + 1 ∧
      Exchanges (versionRank digit) call.currentVersion (repo.retiredVersions scope modelId)
        ts := by
  induction calls generalizing repo call rolled with
  | nil =>
    unfold autoRollbacks at h
    split_ifs at h with honly
    split at h
    · cases h
    rename_i out hcall
    have honly := not_not.1 honly
    obtain ⟨version, hversion, hmax, hout⟩ := newest_of_autoRollback honly hcall
    have hactive := not_retired_of_active honly
    rw [autoRollbacks, Option.map_some, updated_key hout] at h
    obtain rfl := Option.some.inj h
    refine ⟨hactive, ?_, [version], rfl, rfl, .take hversion hmax (.stop _ _)⟩
    simpa using fun heq : call.currentVersion = version => hactive (heq ▸ hversion)
  | cons next _ ih =>
    unfold autoRollbacks at h
    split_ifs at h with honly
    split at h
    · cases h
    rename_i out hcall
    have honly := not_not.1 honly
    obtain ⟨version, hversion, hmax, hout⟩ := newest_of_autoRollback honly hcall
    have hactive := not_retired_of_active honly
    obtain ⟨_, hrest, rfl⟩ := Option.map_eq_some_iff.1 h
    -- The next call names the version just activated.
    have hnext : out.repo.activeVersions scope modelId = [next.currentVersion] := by
      by_contra hno
      simp [autoRollbacks, if_pos hno] at hrest
    have hupdated : out.repo.releases.get? ⟨scope, modelId, version⟩ = some out.updated := by
      rw [get?_transition hout, if_pos rfl]
    have hsame : version = next.currentVersion :=
      eq_of_active hnext hupdated (updated_status hout)
    obtain ⟨-, hmoves, ts, rfl, hlength, hts⟩ := ih hrest
    rw [← hsame] at hnext hts
    rw [retired_of_transition honly hversion hout hnext] at hts
    rw [updated_key hout, ← hsame] at *
    refine ⟨hactive, List.forall_mem_cons.2 ⟨?_, hmoves⟩, version :: ts, rfl, ?_,
      .take hversion hmax hts⟩
    · exact fun heq : call.currentVersion = version => hactive (heq ▸ hversion)
    · rw [List.length_cons, hlength, List.length_cons]

/-- **Automatic rollback returns to no version** exactly when there is at most one call, or two and
two retired releases rank above the one first rolled away from. Versions whose first differing
tokens are of one kind are compared without raising. -/
theorem autoRollbacks_noReturn {calls : List AutoRollback} {rolled : List (String × String)}
    (h : autoRollbacks digit scope modelId repo calls = some rolled) :
    (NoReturn rolled ↔ calls.length ≤ 1 ∨ calls.length = 2 ∧ ∃ call ∈ calls.head?,
      TwoAbove (versionRank digit) call.currentVersion (repo.retiredVersions scope modelId)) ∧
    ∀ v w, Comparable (releaseVersionKey digit v) (releaseVersionKey digit w) →
      keyGt (releaseVersionKey digit v) (releaseVersionKey digit w) ≠ none := by
  refine ⟨?_, fun v w => keyGt_ne_none.2⟩
  rcases calls with _ | ⟨_, _⟩
  · obtain rfl := Option.some.inj h
    simp [NoReturn]
  obtain ⟨hactive, hne, _, rfl, hlength, hts⟩ := exchanges_of_autoRollbacks h
  rw [noReturn_moves_iff hne, nodup_exchanges versionRank_injective hactive hts, hlength]
  simp

/-! ## There and back -/

/-- The decimal digits of ASCII. -/
def asciiDigit (c : Char) : Option Nat := if c.isDigit then some (c.toNat - '0'.toNat) else none

/-- Both packages are registered and qualified. -/
def detectionRegistry : Registry where
  packages := [detectionPackage "1.0.0", detectionPackage "1.1.0"]
  evidence _ _ := none

/-- A health gate has found the version bad. -/
def unhealthy (version : String) : AutoRollback := ⟨detectionRegistry, version, "error rate", 10⟩

/-- 1.1.0 has superseded 1.0.0. -/
def secondReleased : Repository := twoReleased.dropLast.foldl apply .empty

/-- Each call leaves for the other version. -/
def thereAndBack : List (String × String) :=
  [("1.1.0", "1.0.0"), ("1.0.0", "1.1.0"), ("1.1.0", "1.0.0")]

theorem autoRollbacks_noReturn_thereAndBack :
    (NoReturn thereAndBack ↔ 3 ≤ 1 ∨ 3 = 2 ∧ ∃ call ∈ some (unhealthy "1.1.0"),
      TwoAbove (versionRank asciiDigit) call.currentVersion
        (secondReleased.retiredVersions ⟨"tenant", "project"⟩ "person")) ∧
    ∀ v w, Comparable (releaseVersionKey asciiDigit v) (releaseVersionKey asciiDigit w) →
      keyGt (releaseVersionKey asciiDigit v) (releaseVersionKey asciiDigit w) ≠ none :=
  autoRollbacks_noReturn (show autoRollbacks asciiDigit ⟨"tenant",
    "project"⟩ "person" secondReleased
    [unhealthy "1.1.0", unhealthy "1.0.0", unhealthy "1.1.0"] = some thereAndBack by decide +kernel)

/-- **There and back.** The version rolled away from is chosen again, and the third call activates
what the first one did. -/
theorem rollback_returns :
    autoRollbacks asciiDigit ⟨"tenant", "project"⟩ "person" secondReleased
      [unhealthy "1.1.0", unhealthy "1.0.0", unhealthy "1.1.0"] = some thereAndBack ∧
    ¬NoReturn thereAndBack := by
  refine ⟨by decide +kernel, ?_⟩
  unfold NoReturn thereAndBack
  decide

end Scenara.Release

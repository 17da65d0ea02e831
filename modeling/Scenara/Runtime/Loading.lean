import Scenara.Runtime.Owned

/-!
# Loading is exclusive, and a hot swap is not lost

The four operations alone: `get_or_load_model`, `replace_model_bundle`, `unload_model_by_key` and
`evict_lru_if_needed`.

* `Lawful`: a lock entry is not removed while somebody waits for the lock or loads under it, and no
  exception falls between the creation of a session and its first place.
-/

namespace Scenara.Runtime

open Scenara.Core

variable {setting : Setting} {x y : State} {i : Nat} {t t' : Task} {b lock started : Nat}
  {key : String} {choice : Choice} {act : Act}

/-- The bundle that a load in progress has, or that was returned as the replaced one. -/
def Task.keeps? : Task → Option Nat
  | .draining _ => none
  | t => t.owns?

/-- Neither a run nor a drain. -/
def Task.plain : Task → Bool
  | .queued _ | .running _ | .draining _ => false
  | _ => true

/-- The key that `get_or_load_model` has found vacant, and loads. -/
def Task.vacant? : Task → Option String
  | .hashing .load key _ _ | .creating .load key _ _ => some key
  | _ => none

/-- A step of the four operations. -/
def Act.loads : Act → Bool
  | .tick _ | .request _ | .task _ .go | .task _ .fail | .task _ (.late _) => true
  | _ => false

/-- One step of the four operations. -/
def stepLoads (setting : Setting) (x : State) (act : Act) : Option State :=
  if act.loads then step setting x act else none

/-- **What loading promises.** -/
structure Good (x : State) : Prop where
  /-- At most one load a key is in progress. -/
  exclusive : ∀ (i j : Nat) t u key, x.tasks[i]? = some t → x.tasks[j]? = some u →
    t.loading? = some key → u.loading? = some key → i = j
  /-- A candidate that was registered is not replaced by a bundle whose load had started before. -/
  current : ∀ (m n : Nat) s r, m < n → x.registrations[m]? = some s → x.registrations[n]? = some r →
    s.call = .swap → r.replaced = some s.bundle → m < r.started
  /-- A session is registered, or with a load in progress, or returned, or released. -/
  accounted : ∀ b, b < x.created → (x.bundles b).session = true →
    (∃ key, x.registry.get? key = some b) ∨ ∃ t ∈ x.tasks, t.keeps? = some b

/-- An exception once the session is created. -/
def Act.late : Act → Bool
  | .task _ (.late _) => true
  | _ => false

/-- **The condition.** -/
def Lawful (setting : Setting) (x : State) (act : Act) : Prop :=
  act.late = false ∧ ∀ y ∈ step setting x act, ∀ t ∈ x.tasks, ∀ c ∈ t.contends?, y.lockOf c.1 ≠ none
  deriving Decidable

/-! ## The invariant -/

/-- The invariant, with the locks that tasks contend for and hold. -/
structure Loading (x : State) : Prop where
  inv : Inv x
  contends : Parties.Each (fun _ t => ∀ key lock, t.contends? = some (key, lock) →
    x.lockOf key = some lock) x.tasks
  held : Parties.Each (fun i t => ∀ lock, t.lock? = some lock → x.holder lock = some i) x.tasks
  plain : Parties.Each (fun _ t => t.plain = true) x.tasks
  vacant : Parties.Each (fun _ t => ∀ key, t.vacant? = some key →
    x.registry.get? key = none) x.tasks
  since : Parties.Each (fun _ t => ∀ key started c (m : Nat) r, t.loading? = some key →
    t.started? = some started → x.registry.get? key = some c → x.registrations[m]? = some r →
    r.call = .swap → r.bundle = c → m < started) x.tasks
  current : ∀ (m n : Nat) s r, m < n → x.registrations[m]? = some s → x.registrations[n]? = some r →
    s.call = .swap → r.replaced = some s.bundle → m < r.started
  accounted : ∀ b, b < x.created → (x.bundles b).session = true →
    (∃ key, x.registry.get? key = some b) ∨ ∃ t ∈ x.tasks, t.owns? = some b

theorem Task.contends_of_loading (h : t.loading? = some key) :
    ∃ lock, t.contends? = some (key, lock) ∧ t.lock? = some lock := by
  cases t <;> cases h <;> exact ⟨_, rfl, rfl⟩

theorem Task.loading_of_vacant (h : t.vacant? = some key) : t.loading? = some key := by
  cases t with
  | hashing call _ _ _ | creating call _ _ _ => cases call <;> cases h; rfl
  | _ => cases h

theorem Loading.exclusive (h : Loading x) {j : Nat} {u : Task} (ht : x.tasks[i]? = some t)
    (hu : x.tasks[j]? = some u) (hkey : t.loading? = some key) (hkey' : u.loading? = some key) :
    i = j := by
  obtain ⟨lock, hcontends, hlock⟩ := Task.contends_of_loading hkey
  obtain ⟨lock', hcontends', hlock'⟩ := Task.contends_of_loading hkey'
  have hsame := (h.contends i t ht key lock hcontends).symm.trans
      (h.contends j u hu key lock' hcontends')
  cases hsame
  exact Option.some.inj ((h.held i t ht lock hlock).symm.trans (h.held j u hu lock hlock'))

theorem Loading.other_key (h : Loading x) (ht : x.tasks[i]? = some t) (hkey : t.loading? = some key)
    (hj : j ≠ i) (hu : x.tasks[j]? = some u) (hk : u.loading? = some key') : key' ≠ key := by
  rintro rfl
  exact hj (h.exclusive hu ht hk hkey)

theorem Loading.good (h : Loading x) : Good x where
  exclusive _ _ _ _ _ ht hu hkey hkey' := h.exclusive ht hu hkey hkey'
  current := h.current
  accounted b hb hsession := by
    refine (h.accounted b hb hsession).imp_right ?_
    rintro ⟨t, ht, howns⟩
    obtain ⟨i, hi⟩ := List.getElem?_of_mem ht
    have hplain := h.plain i t hi
    cases t with
    | draining c => cases hplain
    | _ => exact ⟨_, ht, howns⟩

theorem Loading.unused (h : Loading x) (hkey : x.registry.get? key = some b) :
    (x.bundles b).inUse = 0 := by
  rw [h.inv.counted b, List.countP_eq_zero]
  intro t ht huses
  obtain ⟨i, hi⟩ := List.getElem?_of_mem ht
  have hplain := h.plain i t hi
  have huses := of_decide_eq_true huses
  cases t with
  | queued | running => cases hplain
  | prewarming _ _ _ c => exact (h.inv.owned i _ hi b huses).2 key hkey
  | _ => cases huses

/-! ## Steps -/

section

variable (h : Loading x)
include h

theorem Loading.frame (hframe : Frame x y)
    (hlocks : ∀ t ∈ x.tasks, ∀ c ∈ t.contends?, y.lockOf c.1 ≠ none) : Loading y where
  inv := h.inv.frame hframe
  contends i t ht key lock hc := by
    rw [hframe.tasks] at ht
    rcases hframe.lockOf key with heq | heq
    · rw [heq]
      exact h.contends i t ht key lock hc
    · exact absurd heq (hlocks t (List.mem_of_getElem? ht) _ hc)
  held := by
    rw [hframe.tasks, hframe.holder]
    exact h.held
  plain := by
    rw [hframe.tasks]
    exact h.plain
  vacant i t ht key hkey := by
    rw [hframe.tasks] at ht
    cases hreg : y.registry.get? key with
    | none => rfl
    | some b =>
      have hnone := h.vacant i t ht key hkey
      simp [hframe.registry key b hreg] at hnone
  since i t ht key started c m r hloading hstarted hreg hm := by
    rw [hframe.tasks] at ht
    rw [hframe.registrations] at hm
    exact h.since i t ht key started c m r hloading hstarted (hframe.registry key c hreg) hm
  current := by
    rw [hframe.registrations]
    exact h.current
  accounted b hb hsession := by
    rw [hframe.created] at hb
    rw [hframe.tasks]
    refine (h.accounted b hb (hframe.session b hsession)).imp_left ?_
    rintro ⟨key, hkey⟩
    rcases hframe.kept key b hkey with hkey' | hdead
    · exact ⟨key, hkey'⟩
    · simp [hsession] at hdead

theorem Loading.move (ht : x.tasks[i]? = some t) (hinv : Inv y)
    (htasks : y.tasks = x.tasks.set i t') (hregistry : y.registry = x.registry)
    (hlockOf : y.lockOf = x.lockOf)
    (hholder : ∀ l, y.holder l = x.holder l ∨ t.lock? = some l ∧ t'.lock? = none)
    (hregistrations : y.registrations = x.registrations) (hcreated : y.created = x.created)
    (hsession : ∀ n, (y.bundles n).session = (x.bundles n).session)
    (hcontends : ∀ key l, t'.contends? = some (key, l) → x.lockOf key = some l)
    (hlock : ∀ l, t'.lock? = some l → t.lock? = some l) (hplain : t'.plain = true)
    (hvacant : ∀ k, t'.vacant? = some k → t.vacant? = some k)
    (hloading : ∀ k, t'.loading? = some k → t.loading? = some k ∧ t'.started? = t.started?)
    (howns : t'.owns? = t.owns?) : Loading y where
  inv := hinv
  contends := by
    rw [htasks, hlockOf]
    exact h.contends.put hcontends
  held := by
    rw [htasks]
    refine h.held.set (fun l hl => ?_) fun j u hj hu hheld l hl => ?_
    · rcases hholder l with heq | ⟨-, hnone⟩
      · rw [heq]
        exact h.held i t ht l (hlock l hl)
      · simp [hnone] at hl
    · rcases hholder l with heq | ⟨hself, -⟩
      · rw [heq]
        exact hheld l hl
      · have hboth := (hheld l hl).symm.trans (h.held i t ht l hself)
        exact absurd (Option.some.inj hboth) hj
  plain := by
    rw [htasks]
    exact h.plain.put hplain
  vacant := by
    rw [htasks, hregistry]
    exact h.vacant.put (fun k hk => h.vacant i t ht k (hvacant k hk))
  since := by
    rw [htasks, hregistry, hregistrations]
    refine h.since.put (fun k s c m r hk hs => ?_)
    obtain ⟨hk', hs'⟩ := hloading k hk
    rw [hs'] at hs
    exact h.since i t ht k s c m r hk' hs
  current := by
    rw [hregistrations]
    exact h.current
  accounted b hb hb' := by
    rw [hcreated] at hb
    rw [hsession] at hb'
    rw [hregistry, htasks]
    exact (h.accounted b hb hb').imp_right (Parties.exists_set ht fun hown => howns.trans hown)

theorem Loading.go (ht : x.tasks[i]? = some t) (hinv : Inv (x.go i t'))
    (hcontends : ∀ key l, t'.contends? = some (key, l) → x.lockOf key = some l)
    (hlock : ∀ l, t'.lock? = some l → t.lock? = some l) (hplain : t'.plain = true)
    (hvacant : ∀ k, t'.vacant? = some k → t.vacant? = some k)
    (hloading : ∀ k, t'.loading? = some k → t.loading? = some k ∧ t'.started? = t.started?)
    (howns : t'.owns? = t.owns?) : Loading (x.go i t') :=
  h.move ht hinv rfl rfl rfl (fun _ => .inl rfl) rfl rfl (fun _ => rfl) hcontends hlock
    hplain hvacant hloading howns

/-- Nothing is left that a load goes by. -/
def Task.Bare (t : Task) : Prop :=
  t.contends? = none ∧ t.lock? = none ∧ t.plain = true ∧ t.vacant? = none ∧ t.loading? = none

theorem Loading.idle (ht : x.tasks[i]? = some t) (hinv : Inv (x.go i t')) (hbare : t'.Bare)
    (howns : t'.owns? = t.owns?) : Loading (x.go i t') := by
  obtain ⟨hcontends, hlock, hplain, hvacant, hloading⟩ := hbare
  exact h.go ht hinv (by simp [hcontends]) (by simp [hlock]) hplain (by simp [hvacant])
    (by simp [hloading]) howns

theorem Loading.free (ht : x.tasks[i]? = some t) (hlock : t.lock? = some lock)
    (hinv : Inv ((x.unlock lock).go i t')) (hbare : t'.Bare) (howns : t'.owns? = t.owns?) :
    Loading ((x.unlock lock).go i t') := by
  obtain ⟨hcontends, hlock', hplain, hvacant, hloading⟩ := hbare
  refine h.move ht hinv rfl rfl rfl (fun l => ?_) rfl rfl (fun _ => rfl) (by simp [hcontends])
    (by simp [hlock']) hplain (by simp [hvacant]) (by simp [hloading]) howns
  by_cases hl : l = lock
  · exact .inr ⟨hl ▸ hlock, hlock'⟩
  · exact .inl (if_neg hl)

theorem Loading.newLock {call : Call} (ht : x.tasks[i]? = some (.locking call key))
    (hnone : x.lockOf key = none) (hinv : Inv { x.go i (.waiting call key x.locks) with
      lockOf := fun k => if k = key then some x.locks else x.lockOf k, locks := x.locks + 1 }) :
    Loading { x.go i (.waiting call key x.locks) with
      lockOf := fun k => if k = key then some x.locks else x.lockOf k, locks := x.locks + 1 } where
  inv := hinv
  contends := by
    refine h.contends.set (fun k l hk => ?_) fun j u _ hu hcontends k l hk => ?_
    · cases hk
      exact if_pos rfl
    · have hlock := hcontends k l hk
      have hne : k ≠ key := by
        rintro rfl
        simp [hnone] at hlock
      exact (if_neg hne).trans hlock
  held := h.held.put nofun
  plain := h.plain.put rfl
  vacant := h.vacant.put nofun
  since := h.since.put nofun
  current := h.current
  accounted b hb hb' := (h.accounted b hb hb').imp_right
    (Parties.exists_set ht fun hown => by cases hown)

theorem Loading.acquire {call : Call} (ht : x.tasks[i]? = some (.waiting call key lock))
    (hfree : x.holder lock = none) (hinv : Inv y) (htasks : y.tasks = x.tasks.set i t')
    (hregistry : y.registry = x.registry) (hlockOf : y.lockOf = x.lockOf)
    (hholder : y.holder = (x.acquire i lock).holder)
      (hregistrations : y.registrations = x.registrations)
    (hcreated : y.created = x.created)
    (hsession : ∀ n, (y.bundles n).session = (x.bundles n).session)
    (hcontends : ∀ k l, t'.contends? = some (k, l) → x.lockOf k = some l)
    (hlock : t'.lock? = some lock) (hplain : t'.plain = true)
    (hvacant : ∀ k, t'.vacant? = some k → x.registry.get? k = none)
    (hstarted : ∀ k s, t'.loading? = some k → t'.started? = some s → s = x.registrations.length) :
    Loading y where
  inv := hinv
  contends := by
    rw [htasks, hlockOf]
    exact h.contends.put hcontends
  held := by
    rw [htasks, hholder]
    refine h.held.set (fun l hl => ?_) fun j u hj hu hheld l hl => ?_
    · rw [hlock] at hl
      cases hl
      exact if_pos rfl
    · have hheld := hheld l hl
      have hne : l ≠ lock := by
        rintro rfl
        rw [hfree] at hheld
        cases hheld
      exact (if_neg hne).trans hheld
  plain := by
    rw [htasks]
    exact h.plain.put hplain
  vacant := by
    rw [htasks, hregistry]
    exact h.vacant.put hvacant
  since := by
    rw [htasks, hregistry, hregistrations]
    refine h.since.put (fun k s c m r hk hs _ hm _ _ => ?_)
    rw [hstarted k s hk hs]
    exact (List.getElem?_eq_some_iff.1 hm).1
  current := by
    rw [hregistrations]
    exact h.current
  accounted b hb hb' := by
    rw [hcreated] at hb
    rw [hsession] at hb'
    rw [hregistry, htasks]
    exact (h.accounted b hb hb').imp_right (Parties.exists_set ht fun hown => by cases hown)

theorem Loading.acquired {call : Call} (ht : x.tasks[i]? = some (.waiting call key lock))
    (hfree : x.holder lock = none) (hinv : Inv (acquired x i call key lock)) :
    Loading (acquired x i call key lock) := by
  have hlockOf := h.contends i _ ht key lock rfl
  cases call with
  | swap =>
    refine h.acquire ht hfree hinv rfl rfl rfl rfl rfl rfl (fun _ => rfl) (fun k l hk => ?_) rfl rfl
      (fun k hk => by cases hk) fun k s _ hs => (Option.some.inj hs).symm
    cases hk
    exact hlockOf
  | load =>
    rw [Runtime.acquired] at hinv ⊢
    cases hkey : x.registry.get? key with
    | some b =>
      rw [hkey] at hinv
      refine h.acquire ht hfree hinv rfl rfl rfl rfl rfl rfl (fun n => ?_)
        (fun k l hk => by cases hk) rfl rfl (fun k hk => by cases hk) fun k s hk => by cases hk
      dsimp only [State.go, State.touched, State.setBundle]
      split <;> rfl
    | none =>
      rw [hkey] at hinv
      cases hcool : x.coolingDown key with
      | true =>
        simp only [hcool, if_true] at hinv ⊢
        exact h.idle ht hinv ⟨rfl, rfl, rfl, rfl, rfl⟩ rfl
      | false =>
        simp only [hcool, Bool.false_eq_true, if_false] at hinv ⊢
        refine h.acquire ht hfree hinv rfl rfl rfl rfl rfl rfl (fun _ => rfl) (fun k l hk =>
          ?_) rfl rfl (fun k hk => ?_) fun k s _ hs => (Option.some.inj hs).symm
        · cases hk
          exact hlockOf
        · cases hk
          exact hkey

end

theorem mem_set_self (ht : x.tasks[i]? = some t) : t' ∈ x.tasks.set i t' :=
  List.mem_of_getElem? (Parties.getElem?_set_same ht)

theorem Loading.load (h : Loading x) (ht : x.tasks[i]? = some (.creating .load key lock started))
    (hinv : Inv (createdStep x i .load key lock started)) :
    Loading (createdStep x i .load key lock started) := by
  have hvacant := h.vacant i _ ht key rfl
  have hregistry : ∀ k, (createdStep x i .load key lock started).registry.get? k =
      if k = key then some x.created else x.registry.get? k := fun k => Dict.get?_insert _ _ _ _
  have hregistrations : (createdStep x i .load key lock started).registrations =
      x.registrations ++ [⟨.load, x.created, started, none⟩] := by
    simp [createdStep, State.go, State.register, State.setRetry, State.create, hvacant]
  refine ⟨hinv, h.contends.put (fun k l hk => by cases hk),
    h.held.put (fun l hl => h.held i _ ht l hl), h.plain.put rfl,
    h.vacant.set (fun k hk => by cases hk) fun j u hj hu hq k hk => ?_,
    h.since.set (fun k s c m r hk => by cases hk)
      fun j u hj hu hq k s c m r hk hs hreg hm hcall hb => ?_,
    fun m n s r hmn hs hr hcall hreplaced => ?_, fun b hb hb' => ?_⟩
  · rw [hregistry, if_neg (h.other_key ht rfl hj hu (Task.loading_of_vacant hk))]
    exact hq k hk
  · rw [hregistry, if_neg (h.other_key ht rfl hj hu hk)] at hreg
    rcases Parties.getElem?_append_cases hm with ⟨-, rfl⟩ | hm
    · cases hcall
    · exact hq k s c m r hk hs hreg hm hcall hb
  · rw [hregistrations] at hs hr
    rcases Parties.getElem?_append_cases hr with ⟨-, rfl⟩ | hr
    · cases hreplaced
    · rcases Parties.getElem?_append_cases hs with ⟨-, rfl⟩ | hs
      · cases hcall
      · exact h.current m n s r hmn hs hr hcall hreplaced
  · rcases Nat.lt_succ_iff_lt_or_eq.1 hb with hlt | rfl
    · have hsession : (x.bundles b).session = true := by
        rw [← create_other x key 0 hlt]
        exact hb'
      refine (h.accounted b hlt hsession).imp ?_ (Parties.exists_set ht fun hown => by cases hown)
      rintro ⟨k, hk⟩
      refine ⟨k, ?_⟩
      rw [hregistry, if_neg, hk]
      rintro rfl
      simp [hvacant] at hk
    · exact .inl ⟨key, by rw [hregistry, if_pos rfl]⟩

theorem Loading.swapCreated (h : Loading x)
    (ht : x.tasks[i]? = some (.creating .swap key lock started))
    (hinv : Inv (createdStep x i .swap key lock started)) :
    Loading (createdStep x i .swap key lock started) := by
  refine ⟨hinv, h.contends.put (fun k l hk => h.contends i _ ht k l hk),
    h.held.put (fun l hl => h.held i _ ht l hl),
    h.plain.put rfl,
    h.vacant.put nofun,
    h.since.put (fun k s c m r hk hs => h.since i _ ht k s c m r hk hs),
    h.current, fun b hb hb' => ?_⟩
  rcases Nat.lt_succ_iff_lt_or_eq.1 hb with hlt | rfl
  · have hsession : (x.bundles b).session = true := by
      rw [← create_other x key 1 hlt]
      exact hb'
    exact (h.accounted b hlt hsession).imp_right (Parties.exists_set ht fun hown => by cases hown)
  · exact .inr ⟨_, mem_set_self ht, rfl⟩

theorem Loading.prewarmFails {c : Nat} (h : Loading x)
    (ht : x.tasks[i]? = some (.prewarming key lock started c))
    (hinv : Inv ((((x.leave c).go i .ended).release c).unlock lock)) :
    Loading ((((x.leave c).go i .ended).release c).unlock lock) := by
  have hheld := h.held i _ ht lock rfl
  refine ⟨hinv, h.contends.put nofun, h.held.set nofun fun j u hj hu hq l hl => ?_,
    h.plain.put rfl, h.vacant.put nofun,
    h.since.put nofun, h.current, fun b hb hb' => ?_⟩
  · exact (if_neg fun (heq : l = lock) =>
      hj (Option.some.inj ((hq l hl).symm.trans (heq ▸ hheld)))).trans (hq l hl)
  · have hb' : b ≠ c ∧ (x.bundles b).session = true := by
      simp only [State.unlock, State.release, State.setBundle, State.go, State.leave] at hb'
      split at hb'
      · cases hb'
      · exact ⟨‹_›, hb'⟩
    exact (h.accounted b hb hb'.2).imp_right
      (Parties.exists_set ht fun hown => absurd (Option.some.inj hown).symm hb'.1)

theorem Loading.swap {c : Nat} (h : Loading x)
    (ht : x.tasks[i]? = some (.registering key lock started c))
    (hinv : Inv ((x.register .swap key started c).go i
      (.evictingSwapped key c (x.registry.get? key)))) :
    Loading (((x.register .swap key started c).unlock lock).go i
      (.evictingSwapped key c (x.registry.get? key))) := by
  have hheld := h.held i _ ht lock rfl
  obtain ⟨-, hnot⟩ := h.inv.owned i _ ht c rfl
  have hregistry : ∀ k, (x.registry.insert key c).get? k =
      if k = key then some c else x.registry.get? k := fun k => Dict.get?_insert _ _ _ _
  refine ⟨hinv.unlock lock, h.contends.put nofun, h.held.set nofun fun j u hj hu hq l hl => ?_,
    h.plain.put rfl,
    h.vacant.set nofun fun j u hj hu hq k hk => ?_,
    h.since.set nofun fun j u hj hu hq k s d m r hk hs hreg hm hcall
      hb => ?_,
    fun m n s r hmn hs hr hcall hreplaced => ?_, fun b hb hb' => ?_⟩
  · exact (if_neg fun (heq : l = lock) =>
      hj (Option.some.inj ((hq l hl).symm.trans (heq ▸ hheld)))).trans (hq l hl)
  · exact ((hregistry k).trans
      (if_neg (h.other_key ht rfl hj hu (Task.loading_of_vacant hk)))).trans (hq k hk)
  · have hreg' := ((hregistry k).symm.trans hreg)
    rw [if_neg (h.other_key ht rfl hj hu hk)] at hreg'
    rcases Parties.getElem?_append_cases hm with ⟨-, rfl⟩ | hm
    · cases hb
      exact absurd hreg' (hnot k)
    · exact hq k s d m r hk hs hreg' hm hcall hb
  · rcases Parties.getElem?_append_cases hr with ⟨rfl, rfl⟩ | hr
    · rcases Parties.getElem?_append_cases hs with ⟨rfl, -⟩ | hs
      · exact absurd hmn (Nat.lt_irrefl _)
      · exact h.since i _ ht key started s.bundle m s rfl rfl hreplaced hs hcall rfl
    · rcases Parties.getElem?_append_cases hs with ⟨rfl, -⟩ | hs
      · exact absurd (hmn.trans (List.getElem?_eq_some_iff.1 hr).1) (Nat.lt_irrefl _)
      · exact h.current m n s r hmn hs hr hcall hreplaced
  · rcases h.accounted b hb hb' with ⟨k, hk⟩ | ⟨u, hu, hown⟩
    · by_cases hkey : k = key
      · rw [hkey] at hk
        exact .inr ⟨_, mem_set_self ht, hk⟩
      · exact .inl ⟨k, ((hregistry k).trans (if_neg hkey)).trans hk⟩
    · by_cases hbc : b = c
      · exact .inl ⟨key, ((hregistry key).trans (if_pos rfl)).trans (congrArg some hbc.symm)⟩
      · exact .inr (Parties.exists_set ht (fun hown => absurd (Option.some.inj hown).symm hbc) ⟨u,
          hu, hown⟩)

/-! ## Every step -/

theorem moveToEnd_lockOf (x : State) (key : String) : (x.moveToEnd key).lockOf = x.lockOf := by
  unfold State.moveToEnd
  split <;> rfl

theorem moveToEnd_unlock (x : State) (key : String) (lock : Nat) :
    (x.moveToEnd key).unlock lock = (x.unlock lock).moveToEnd key := by
  unfold State.moveToEnd
  cases hkey : x.registry.get? key with
  | none | some => simp only [State.unlock, hkey]

theorem Loading.locked (h : Loading x) (hlockOf : y.lockOf = x.lockOf) :
    ∀ t ∈ x.tasks, ∀ c ∈ t.contends?, y.lockOf c.1 ≠ none := by
  intro t ht c hc hnone
  obtain ⟨i, hi⟩ := List.getElem?_of_mem ht
  simp [hlockOf, h.contends i t hi c.1 c.2 hc] at hnone

theorem Loading.stepTask (h : Loading x) (ht : x.tasks[i]? = some t)
    (hs : stepTask setting x i t choice = some y) (hloads : (Act.task i choice).loads = true)
    (hlate : (Act.task i choice).late = false)
    (hlocks : ∀ t ∈ x.tasks, ∀ c ∈ t.contends?, y.lockOf c.1 ≠ none) : Loading y := by
  have hinv := h.inv.stepTask ht hs
  cases stepTask_cases h.inv ht hs with
  | framed hframe hgoes =>
    cases hgoes with
    | hashed =>
      rename_i call key lock started
      refine (h.frame hframe hlocks).go (hframe.task ht) hinv
        (fun k l hk => (h.frame hframe hlocks).contends i _ (hframe.task ht) k l hk)
          (fun l hl => hl) rfl
        (fun k hk => ?_) (fun k hk => ⟨hk, rfl⟩) rfl
      cases call <;> exact hk
    | touchedNew =>
      exact (h.frame hframe hlocks).go (hframe.task ht) hinv nofun
        (fun l hl => hl) rfl nofun nofun rfl
    | retired | finished => cases hloads
    | drained | runs => exact absurd (h.plain i _ ht) Bool.false_ne_true
    | _ => exact (h.frame hframe hlocks).idle (hframe.task ht) hinv ⟨rfl, rfl, rfl, rfl, rfl⟩ rfl
  | freed hframe hgoes hlock hfree =>
    cases hgoes with
    | touchedLocked | unhashed | uncreated | loaded =>
      exact (h.frame hframe hlocks).free (hframe.task ht) hlock hinv ⟨rfl, rfl, rfl, rfl, rfl⟩ rfl
    | hashed | touchedNew => cases hfree
    | _ => cases hlock
  | @found _ b _ =>
    have hframe := frame_touched x b
    exact (h.frame hframe hlocks).idle (hframe.task ht) hinv ⟨rfl, rfl, rfl, rfl, rfl⟩ rfl
  | locking hlock =>
    refine h.go ht hinv (fun k l hk => ?_) nofun rfl nofun
      nofun rfl
    cases hk
    exact hlock
  | newLock hlock => exact h.newLock ht hlock hinv
  | acquired hfree => exact h.acquired ht hfree hinv
  | @created call _ _ _ =>
    cases call with
    | load => exact h.load ht hinv
    | swap => exact h.swapCreated ht hinv
  | late => cases hlate
  | left hleaves =>
    cases hleaves with
    | prewarmed =>
      refine h.move ht hinv rfl rfl rfl (fun _ => .inl rfl) rfl rfl (fun n => ?_)
        (fun k l hk => h.contends i _ ht k l hk) (fun l hl => hl) rfl nofun
        (fun k hk => ⟨hk, rfl⟩) rfl
      dsimp only [State.go, State.leave, State.setBundle]
      split <;> rfl
    | _ => exact absurd (h.plain i _ ht) Bool.false_ne_true
  | prewarmFails => exact h.prewarmFails ht hinv
  | @registered key lock started c =>
    have hswap := h.swap ht (h.inv.swap ht)
    have hmoved := hswap.frame (frame_moveToEnd _ key) (hswap.locked (moveToEnd_lockOf _ key))
    have hset := hmoved.frame (frame_setRetry _ key 0) (hmoved.locked rfl)
    have hunlock := moveToEnd_unlock ((x.register .swap key started c).go i
      (.evictingSwapped key c (x.registry.get? key))) key lock
    exact (congrArg (fun z => Loading (z.setRetry key 0)) hunlock).mpr hset
  | drain hkey huse => exact absurd (h.unused hkey) huse
  | used | cancelled => cases hloads
  | looked => exact h
  | missing _ hchoice => rcases hchoice with rfl | rfl <;> cases hloads

theorem Loading.request (h : Loading x) (request : Request)
    (hinv : Inv { x with tasks := x.tasks ++ [request.task] }) :
    Loading { x with tasks := x.tasks ++ [request.task] } := by
  obtain ⟨hcontends, hlock, hplain, hvacant, hloading⟩ : request.task.Bare := by
    cases request <;> exact ⟨rfl, rfl, rfl, rfl, rfl⟩
  refine ⟨hinv, h.contends.append (by simp [hcontends]), h.held.append (by simp [hlock]),
    h.plain.append hplain,
    h.vacant.append (by simp [hvacant]), h.since.append (by simp [hloading]), h.current,
      fun b hb hsession => ?_⟩
  refine (h.accounted b hb hsession).imp_right ?_
  rintro ⟨t, ht, howns⟩
  exact ⟨t, List.mem_append_left _ ht, howns⟩

theorem Loading.step (h : Loading x) (hlawful : Lawful setting x act)
    (hs : stepLoads setting x act = some y) : Loading y := by
  rw [stepLoads] at hs
  split at hs
  · rename_i hloads
    have hinv := h.inv.step hs
    have hlocks := hlawful.2 y hs
    cases act with
    | tick =>
      cases hs
      exact ⟨hinv, h.contends, h.held, h.plain, h.vacant, h.since, h.current, h.accounted⟩
    | request request =>
      cases hs
      exact h.request request hinv
    | task i =>
      obtain ⟨t, ht, hs⟩ := Option.bind_eq_some_iff.1 hs
      exact h.stepTask ht hs hloads hlawful.1 hlocks
    | nativeEnds k => cases hloads
  · cases hs

theorem Loading.init : Loading init where
  inv := Inv.init
  contends := Parties.Each.nil
  held := Parties.Each.nil
  plain := Parties.Each.nil
  vacant := Parties.Each.nil
  since := Parties.Each.nil
  current _ _ _ _ _ hs := by cases hs
  accounted _ hb := absurd hb (Nat.not_lt_zero _)

/-! ## Runs -/

/-- **Lawful runs are good.** Where no unload and no eviction takes the lock of a key that is being
loaded or waited for, and no exception falls between a session's creation and its first place, a key
has one load at a time, no older load replaces a swap, and no session is lost. -/
theorem good_of_lawful (setting : Setting) (acts : List Act)
    (hlawful : Along (stepLoads setting) (Lawful setting) init acts) :
    ∀ x ∈ states (stepLoads setting) init acts, Good x := by
  intro x hx
  exact Loading.good (invariant_states (I := Loading) (fun _ _ _ h hP hs => h.step hP hs)
    Loading.init hlawful x hx)

/-- A load, then a swap of the same model that waits for it, then an unload. -/
theorem good_swap :
    let acts : List Act := [.request (.getOrLoad "m"), .task 0 .go, .task 0 .go,
        .request (.replace "m"),
      .task 1 .go, .task 0 .go, .task 0 .go, .task 0 .go, .task 0 .go, .task 0 .go, .task 1 .go,
      .task 1 .go, .task 1 .go, .task 1 .go, .task 1 .go, .task 1 .go, .request (.unload "m"),
        .task 2 .go]
    ∃ x, exec (stepLoads ⟨2, 60⟩) init acts = some x ∧ Good x ∧ x.created = 2 ∧
      x.registrations = [⟨.load, 0, 0, none⟩, ⟨.swap, 1, 1, some 0⟩] ∧
      x.releases = [⟨1, false⟩] := by
  intro acts
  have hlawful : Along (stepLoads ⟨2, 60⟩) (Lawful ⟨2, 60⟩) init acts := by decide +kernel
  obtain ⟨y, hy, hdone⟩ : ∃ y, exec (stepLoads ⟨2, 60⟩) init acts = some y ∧ y.created = 2 ∧
      y.registrations = [⟨.load, 0, 0, none⟩, ⟨.swap, 1, 1, some 0⟩] ∧ y.releases = [⟨1, false⟩] :=
    exec_decide (by decide +kernel)
  exact ⟨y, hy, good_of_lawful ⟨2, 60⟩ acts hlawful y (mem_states_of_exec hy), hdone⟩

/-- **A load over a swap.** An unload takes the lock of a key while the model is being hashed; the
model is swapped under another lock, and the load then registers its bundle over the candidate,
whose session nobody has any more. -/
theorem load_over_swap :
    let acts : List Act := [.request (.getOrLoad "m"), .task 0 .go, .task 0 .go, .task 0 .go,
      .request (.unload "m"), .task 1 .go, .request (.replace "m"), .task 2 .go, .task 2 .go,
      .task 2 .go,
      .task 2 .go, .task 2 .go, .task 2 .go, .task 2 .go, .task 0 .go, .task 0 .go]
    (∃ x ∈ states (stepLoads ⟨2, 60⟩) init acts, ¬ Good x ∧
      (x.tasks.map Task.loading?) = [some "m", none, some "m"]) ∧
    ∃ x, exec (stepLoads ⟨2, 60⟩) init acts = some x ∧ ¬ Good x ∧
      x.registrations = [⟨.swap, 0, 0, none⟩, ⟨.load, 1, 0, some 0⟩] ∧
      x.tasks = [.touchNew "m" 0 1, .ended, .swapped 0 none] ∧ x.releases = [] ∧ x.created = 2 ∧
      (x.bundles 0).session = true := by
  intro acts
  constructor
  · have hrun : ∃ x ∈ states (stepLoads ⟨2, 60⟩) init acts,
        (x.tasks.map Task.loading?) = [some "m", none, some "m"] := by decide +kernel
    obtain ⟨x, hx, hloading⟩ := hrun
    refine ⟨x, hx, fun hgood => ?_, hloading⟩
    have hzero := congrArg (fun l : List (Option String) => l[0]?) hloading
    have htwo := congrArg (fun l : List (Option String) => l[2]?) hloading
    simp only [List.getElem?_map, Option.map_eq_some_iff, List.getElem?_cons_zero,
      List.getElem?_cons_succ] at hzero htwo
    obtain ⟨t, ht, htkey⟩ := hzero
    obtain ⟨u, hu, hukey⟩ := htwo
    exact absurd (hgood.exclusive 0 2 t u "m" ht hu htkey hukey) (by decide)
  · obtain ⟨x, hx, hdone⟩ : ∃ x, exec (stepLoads ⟨2, 60⟩) init acts = some x ∧
        x.registrations = [⟨.swap, 0, 0, none⟩, ⟨.load, 1, 0, some 0⟩] ∧
        x.tasks = [.touchNew "m" 0 1, .ended, .swapped 0 none] ∧ x.releases = [] ∧ x.created = 2 ∧
        (x.bundles 0).session = true :=
      exec_decide (by decide +kernel)
    refine ⟨x, hx, fun hgood => ?_, hdone⟩
    have hlate := hgood.current 0 1 ⟨.swap, 0, 0, none⟩ ⟨.load, 1, 0, some 0⟩ Nat.zero_lt_one
      (by rw [hdone.1]; rfl) (by rw [hdone.1]; rfl) rfl rfl
    exact absurd hlate (Nat.lt_irrefl 0)

end Scenara.Runtime

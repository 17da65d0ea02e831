import Scenara.Core.Parties
import Scenara.Core.Transition
import Scenara.Runtime.Model

/-!
# Who has a bundle

* `Frame x y`: what touching, releasing and evicting models may do: fewer models are registered, and
  the ones that are not any more have no session.
* `Inv`: a bundle is registered under its own key, a bundle that a task owns is not registered and
  not owned by another one, and `in_use` counts the runs.
-/

namespace Scenara.Runtime

open Scenara.Core

/-! ## What a task can do -/

/-- What the models that are registered, touched or released may do to a state. -/
structure Frame (x y : State) : Prop where
  tasks : y.tasks = x.tasks
  orphans : y.orphans = x.orphans
  missing : y.missing = x.missing
  registrations : y.registrations = x.registrations
  created : y.created = x.created
  holder : y.holder = x.holder
  bundles : ∀ n, (y.bundles n).key = (x.bundles n).key ∧ (y.bundles n).inUse = (x.bundles n).inUse
  registry : ∀ key b, y.registry.get? key = some b → x.registry.get? key = some b
  lockOf : ∀ key, y.lockOf key = x.lockOf key ∨ y.lockOf key = none
  session : ∀ n, (y.bundles n).session = true → (x.bundles n).session = true
  /-- What is not registered any more has no session. -/
  kept : ∀ key b, x.registry.get? key = some b →
    y.registry.get? key = some b ∨ (y.bundles b).session = false
  /-- What is released was registered or drained, and is registered no more. -/
  dies : ∀ b, (x.bundles b).session = true → (y.bundles b).session = false →
    ((∃ key, x.registry.get? key = some b) ∨ .draining b ∈ x.tasks) ∧
      ∀ key, y.registry.get? key ≠ some b
  /-- What is released is not in use. -/
  releases : ∃ more, y.releases = x.releases ++ more ∧
    (∀ r ∈ more, (x.bundles r.bundle).inUse = 0 ∧ r.busy = x.busy r.bundle) ∧
    ∀ b, (x.bundles b).session = true → (y.bundles b).session = false → ∃ r ∈ more, r.bundle = b

/-- A task goes on, with no bundle that it did not have. -/
inductive Goes : Task → Choice → Task → Prop
  | cooling {key} : Goes (.lookup key) .go .ended
  | missed {key} : Goes (.lookup key) .go (.locking .load key)
  | touched {key b} : Goes (.touch key b) .go (.holding b)
  | touchedLocked {key lock b} : Goes (.touchLocked key lock b) .go (.holding b)
  | hashed {call key lock started} :
      Goes (.hashing call key lock started) .go (.creating call key lock started)
  | unhashed {call key lock started} : Goes (.hashing call key lock started) .fail .ended
  | uncreated {call key lock started} : Goes (.creating call key lock started) .fail .ended
  | touchedNew {key lock b} : Goes (.touchNew key lock b) .go (.evicting key lock b)
  | loaded {key lock b} : Goes (.evicting key lock b) .go (.holding b)
  | swapped {key c previous} : Goes (.evictingSwapped key c previous) .go (.swapped c previous)
  | retired {c b} : Goes (.swapped c (some b)) .retire (.draining b)
  | unloaded {key} : Goes (.unloading key) .go .ended
  | drained {b} : Goes (.draining b) .go .ended
  | evicted {exceptKey} : Goes (.evict exceptKey) .go .ended
  | finished {b} : Goes (.holding b) .finish .ended
  | runs {b} : Goes (.queued b) .go (.running b)

/-- A task that leaves the bundle it runs. -/
inductive Leaves : Task → Choice → Nat → Task → Prop
  | failed {b} : Leaves (.queued b) .fail b .ended
  | ran {b} : Leaves (.running b) .go b (.holding b)
  | crashed {b} : Leaves (.running b) .fail b .ended
  | prewarmed {key lock started c} :
      Leaves (.prewarming key lock started c) .go c (.registering key lock started c)

/-- **What a step of a task can do.** -/
inductive TaskStep (setting : Setting) (x : State) (i : Nat) : Task → Choice → State → Prop
  | framed {z t t' choice} : Frame x z → Goes t choice t' →
      TaskStep setting x i t choice (z.go i t')
  | freed {z t t' choice lock} : Frame x z → Goes t choice t' →
      t.lock? = some lock → t'.lock? = none →
      TaskStep setting x i t choice ((z.unlock lock).go i t')
  | found {key b} : x.registry.get? key = some b →
      TaskStep setting x i (.lookup key) .go ((x.touched b).go i (.touch key b))
  | locking {call key lock} : x.lockOf key = some lock →
      TaskStep setting x i (.locking call key) .go (x.go i (.waiting call key lock))
  | newLock {call key} : x.lockOf key = none → TaskStep setting x i (.locking call key) .go
        { x.go i (.waiting call key x.locks) with
          lockOf := fun k => if k = key then some x.locks else x.lockOf k, locks := x.locks + 1 }
  | acquired {call key lock} : x.holder lock = none →
      TaskStep setting x i (.waiting call key lock) .go (acquired x i call key lock)
  | created {call key lock started} :
      TaskStep setting x i (.creating call key lock started) .go
        (createdStep x i call key lock started)
  | late {call key lock started} (marked : Bool) :
      TaskStep setting x i (.creating call key lock started) (.late marked)
        (((if marked then (x.create key 0).markFailed setting.cooldown key
          else x.create key 0).unlock lock).go i .ended)
  | left {t t' choice b} : Leaves t choice b t' →
      TaskStep setting x i t choice ((x.leave b).go i t')
  | prewarmFails {key lock started c} : TaskStep setting x i (.prewarming key lock started c) .fail
        ((((x.leave c).go i .ended).release c).unlock lock)
  | registered {key lock started c} : TaskStep setting x i (.registering key lock started c) .go
        (((((x.register .swap key started c).go i
          (.evictingSwapped key c (x.registry.get? key))).moveToEnd key).setRetry key 0).unlock
            lock)
  | drain {key b} : x.registry.get? key = some b → (x.bundles b).inUse ≠ 0 →
      TaskStep setting x i (.unloading key) .go ((x.pop key).go i (.draining b))
  | used {b} : (x.bundles b).session = true →
      TaskStep setting x i (.holding b) .run ((x.use b).go i (.queued b))
  | looked {b} : TaskStep setting x i (.holding b) .look x
  | missing {b choice} : (x.bundles b).session = false →
      choice = .run ∨ choice = .look → TaskStep setting x i (.holding b) choice (noSession x i)
  | cancelled {t} : TaskStep setting x i t .cancel (cancelled x i t)

variable {setting : Setting} {x y z : State} {i : Nat} {t t' : Task} {b : Nat} {key : String}
  {choice : Choice} {act : Act}

/-! ## What is left alone -/

theorem busy_congr (htasks : y.tasks = x.tasks) (horphans : y.orphans = x.orphans) (b : Nat) :
    y.busy b = x.busy b := by
  rw [State.busy, State.busy, htasks, horphans]

theorem Frame.of_eq (htasks : y.tasks = x.tasks) (horphans : y.orphans = x.orphans)
    (hmissing : y.missing = x.missing) (hregistrations : y.registrations = x.registrations)
    (hcreated : y.created = x.created) (hholder : y.holder = x.holder)
    (hbundles : ∀ n, (y.bundles n).key = (x.bundles n).key ∧
      (y.bundles n).inUse = (x.bundles n).inUse ∧ (y.bundles n).session = (x.bundles n).session)
    (hregistry : ∀ key, y.registry.get? key = x.registry.get? key) (hlockOf : y.lockOf = x.lockOf)
    (hreleases : y.releases = x.releases) : Frame x y where
  tasks := htasks
  orphans := horphans
  missing := hmissing
  registrations := hregistrations
  created := hcreated
  holder := hholder
  bundles n := ⟨(hbundles n).1, (hbundles n).2.1⟩
  registry key b h := by rwa [hregistry key] at h
  lockOf key := .inl (congrFun hlockOf key)
  session n h := by rwa [(hbundles n).2.2] at h
  kept key b h := .inl (by rwa [hregistry key])
  dies b h h' := by
    rw [(hbundles b).2.2, h] at h'
    cases h'
  releases := by
    refine ⟨[], by rw [hreleases, List.append_nil], fun r hr => (List.not_mem_nil hr).elim,
      fun b h h' => ?_⟩
    rw [(hbundles b).2.2, h] at h'
    cases h'

theorem Frame.refl (x : State) : Frame x x :=
  .of_eq rfl rfl rfl rfl rfl rfl (fun _ => ⟨rfl, rfl, rfl⟩) (fun _ => rfl) rfl rfl

theorem Frame.trans (h : Frame x y) (h' : Frame y z) : Frame x z where
  tasks := h'.tasks.trans h.tasks
  orphans := h'.orphans.trans h.orphans
  missing := h'.missing.trans h.missing
  registrations := h'.registrations.trans h.registrations
  created := h'.created.trans h.created
  holder := h'.holder.trans h.holder
  bundles n := ⟨(h'.bundles n).1.trans (h.bundles n).1, (h'.bundles n).2.trans (h.bundles n).2⟩
  registry key b hz := h.registry key b (h'.registry key b hz)
  lockOf key := by
    rcases h'.lockOf key with heq | heq
    · rw [heq]
      exact h.lockOf key
    · exact .inr heq
  session n hz := h.session n (h'.session n hz)
  kept key b hx := by
    rcases h.kept key b hx with hy | hdead
    · exact h'.kept key b hy
    · refine .inr (Bool.eq_false_iff.2 fun hz => ?_)
      simp [h'.session b hz] at hdead
  dies b hx hz := by
    cases hy : (y.bundles b).session with
    | false =>
      obtain ⟨hwas, hnot⟩ := h.dies b hx hy
      exact ⟨hwas, fun key hkey => hnot key (h'.registry key b hkey)⟩
    | true =>
      obtain ⟨hwas, hnot⟩ := h'.dies b hy hz
      refine ⟨hwas.imp (fun hreg => ?_) fun hmem => h.tasks ▸ hmem, hnot⟩
      obtain ⟨key, hkey⟩ := hreg
      exact ⟨key, h.registry key b hkey⟩
  releases := by
    obtain ⟨more, heq, hmore, hdead⟩ := h.releases
    obtain ⟨more', heq', hmore', hdead'⟩ := h'.releases
    refine ⟨more ++ more', by rw [heq', heq, List.append_assoc], fun r hr => ?_, fun b hx hz => ?_⟩
    · rcases List.mem_append.1 hr with hr | hr
      · exact hmore r hr
      · rw [← busy_congr h.tasks h.orphans, ← (h.bundles r.bundle).2]
        exact hmore' r hr
    · cases hy : (y.bundles b).session with
      | false =>
        obtain ⟨r, hr, hb⟩ := hdead b hx hy
        exact ⟨r, List.mem_append_left _ hr, hb⟩
      | true =>
        obtain ⟨r, hr, hb⟩ := hdead' b hy hz
        exact ⟨r, List.mem_append_right _ hr, hb⟩

theorem frame_touched (x : State) (b : Nat) : Frame x (x.touched b) := by
  refine .of_eq rfl rfl rfl rfl rfl rfl (fun n => ?_) (fun _ => rfl) rfl rfl
  dsimp only [State.touched, State.setBundle]
  split <;> exact ⟨rfl, rfl, rfl⟩

theorem frame_moveToEnd (x : State) (key : String) : Frame x (x.moveToEnd key) := by
  rw [State.moveToEnd]
  split
  · rename_i b hkey
    refine .of_eq rfl rfl rfl rfl rfl rfl (fun _ => ⟨rfl, rfl, rfl⟩) (fun k => ?_) rfl rfl
    rw [Dict.get?_insert]
    split
    · rename_i hk
      rw [hk, hkey]
    · rename_i hk
      exact Dict.get?_erase_of_ne _ hk
  · exact Frame.refl x

theorem frame_setRetry (x : State) (key : String) (until' : Nat) :
    Frame x (x.setRetry key until') :=
  .of_eq rfl rfl rfl rfl rfl rfl (fun _ => ⟨rfl, rfl, rfl⟩) (fun _ => rfl) rfl rfl

theorem frame_markFailed (cooldown : Nat) (x : State) (key : String) :
    Frame x (x.markFailed cooldown key) := by
  rw [State.markFailed]
  split
  · exact frame_setRetry x key _
  · exact Frame.refl x

theorem frame_pop (hkey : x.registry.get? key = none) : Frame x (x.pop key) := by
  have hregistry : ∀ k, (x.pop key).registry.get? k = x.registry.get? k := by
    intro k
    simp only [State.pop, Dict.get?_erase]
    split
    · rename_i hk
      rw [hk, hkey]
    · rfl
  have hframe := Frame.of_eq (x := x) (y := { x with registry := x.registry.erase key }) rfl
      rfl rfl rfl
    rfl rfl (fun _ => ⟨rfl, rfl, rfl⟩) hregistry rfl rfl
  refine ⟨rfl, rfl, rfl, rfl, rfl, rfl, hframe.bundles, hframe.registry, fun k => ?_,
    hframe.session, hframe.kept, hframe.dies, hframe.releases⟩
  dsimp only [State.pop]
  split
  · exact .inr rfl
  · exact .inl rfl

/-! ## The invariant -/

/-- What every step keeps. -/
structure Inv (x : State) : Prop where
  keyed : ∀ key b, x.registry.get? key = some b → b < x.created ∧ (x.bundles b).key = key
  owned : Parties.Each (fun _ t => ∀ b, t.owns? = some b →
    b < x.created ∧ ∀ key, x.registry.get? key ≠ some b) x.tasks
  apart : Parties.Apart (fun t u => ∀ b, t.owns? = some b → u.owns? ≠ some b) x.tasks
  obtained : Parties.Each (fun _ t => ∀ b, t.obtained? = some b → b < x.created) x.tasks
  candidate : Parties.Each (fun _ t => ∀ key b, t.candidate? = some (key, b) →
    (x.bundles b).key = key) x.tasks
  counted : ∀ b, (x.bundles b).inUse = x.tasks.countP fun t => t.uses? = some b

theorem Inv.key_unique (h : Inv x) {key' : String} (hkey : x.registry.get? key = some b)
    (hkey' : x.registry.get? key' = some b) : key' = key :=
  (h.keyed key' b hkey').2.symm.trans (h.keyed key b hkey).2

theorem Inv.frame (h : Inv x) (hframe : Frame x y) : Inv y where
  keyed key b hkey := by
    rw [hframe.created, (hframe.bundles b).1]
    exact h.keyed key b (hframe.registry key b hkey)
  owned := by
    rw [hframe.tasks, hframe.created]
    exact h.owned.mono fun _ _ _ howns b hb =>
      ⟨(howns b hb).1, fun key hkey => (howns b hb).2 key (hframe.registry key b hkey)⟩
  apart := by
    rw [hframe.tasks]
    exact h.apart
  obtained := by
    rw [hframe.tasks, hframe.created]
    exact h.obtained
  candidate := by
    rw [hframe.tasks]
    refine h.candidate.mono fun _ _ _ hcandidate key b hb => ?_
    rw [(hframe.bundles b).1]
    exact hcandidate key b hb
  counted b := by
    rw [(hframe.bundles b).2, hframe.tasks]
    exact h.counted b

theorem frame_release (hnot : ∀ key, x.registry.get? key ≠ some b) (huse : (x.bundles b).inUse = 0)
    (hdraining : .draining b ∈ x.tasks) : Frame x (x.release b) where
  tasks := rfl
  orphans := rfl
  missing := rfl
  registrations := rfl
  created := rfl
  holder := rfl
  bundles n := by
    dsimp only [State.release, State.setBundle]
    split <;> exact ⟨rfl, rfl⟩
  registry _ _ h := h
  lockOf _ := .inl rfl
  session n h := by
    dsimp only [State.release, State.setBundle] at h
    split at h
    · cases h
    · exact h
  kept _ _ h := .inl h
  dies n h h' := by
    dsimp only [State.release, State.setBundle] at h'
    split at h'
    · rename_i hn
      rw [hn]
      exact ⟨.inr hdraining, hnot⟩
    · rw [h] at h'
      cases h'
  releases := by
    refine ⟨[⟨b, x.busy b⟩], rfl, fun r hr => ?_, fun n h h' => ⟨_, List.mem_singleton.2 rfl, ?_⟩⟩
    · rw [List.mem_singleton.1 hr]
      exact ⟨huse, rfl⟩
    · dsimp only [State.release, State.setBundle] at h'
      split at h'
      · rename_i hn
        exact hn.symm
      · rw [h] at h'
        cases h'

theorem frame_popRelease (h : Inv x) (hkey : x.registry.get? key = some b)
    (huse : (x.bundles b).inUse = 0) : Frame x ((x.pop key).release b) := by
  have hsession : ∀ n, (((x.pop key).release b).bundles n).session = true →
      n ≠ b ∧ (x.bundles n).session = true := by
    intro n hn
    dsimp only [State.release, State.setBundle, State.pop] at hn
    split at hn
    · cases hn
    · exact ⟨‹_›, hn⟩
  have hregistry : ∀ k n, ((x.pop key).release b).registry.get? k = some n →
      k ≠ key ∧ x.registry.get? k = some n := by
    intro k n hn
    exact Dict.get?_erase_some hn
  have hdead : (((x.pop key).release b).bundles b).session = false := by
    simp [State.release, State.setBundle]
  have hsame : ∀ n, (x.bundles n).session = true →
      (((x.pop key).release b).bundles n).session = false → n = b := by
    intro n hn hn'
    by_contra hne
    simp only [State.release, State.setBundle, State.pop, if_neg hne, hn] at hn'
    cases hn'
  refine ⟨rfl, rfl, rfl, rfl, rfl, rfl, fun n => ?_, fun k n hn => (hregistry k n hn).2,
    fun k => ?_,
    fun n hn => (hsession n hn).2, fun k n hn => ?_, fun n hn hn' => ?_,
    ⟨[⟨b, x.busy b⟩], rfl, fun r hr => ?_, fun n hn hn' => ?_⟩⟩
  · dsimp only [State.release, State.setBundle, State.pop]
    split <;> exact ⟨rfl, rfl⟩
  · dsimp only [State.release, State.setBundle, State.pop]
    split
    · exact .inr rfl
    · exact .inl rfl
  · by_cases hk : k = key
    · rw [hk, hkey] at hn
      cases hn
      exact .inr hdead
    · exact .inl ((Dict.get?_erase_of_ne _ hk).trans hn)
  · rw [hsame n hn hn']
    refine ⟨.inl ⟨key, hkey⟩, fun k hk => ?_⟩
    exact (hregistry k b hk).1 (h.key_unique hkey (hregistry k b hk).2)
  · rw [List.mem_singleton.1 hr]
    exact ⟨huse, rfl⟩
  · exact ⟨_, List.mem_singleton.2 rfl, (hsame n hn hn').symm⟩

theorem frame_evictLoop (maxLoaded : Nat) (exceptKey : Option String) :
    ∀ (n : Nat) (x : State), Inv x → Frame x (x.evictLoop maxLoaded exceptKey n)
  | 0, x, _ => Frame.refl x
  | n + 1, x, h => by
    rw [State.evictLoop]
    split
    · exact Frame.refl x
    · split
      · exact Frame.refl x
      · rename_i key b hmin
        obtain ⟨hmem, hevictable⟩ := List.mem_filter.1 (List.argmin_mem hmin)
        simp only [Bool.and_eq_true, decide_eq_true_eq] at hevictable
        have hfirst := frame_popRelease h ((x.registry.mem_entries key b).1 hmem) hevictable.2
        exact hfirst.trans (frame_evictLoop maxLoaded exceptKey n _ (h.frame hfirst))

theorem frame_evictLru (h : Inv x) (maxLoaded : Nat) (exceptKey : Option String) :
    Frame x (x.evictLru maxLoaded exceptKey) := by
  rw [State.evictLru]
  split
  · exact Frame.refl x
  · exact frame_evictLoop maxLoaded exceptKey _ x h

/-! ## A task moves -/

/-- What the task adds to `in_use` of the bundle. -/
def Task.weight (t : Task) (b : Nat) : Nat := if t.uses? = some b then 1 else 0

theorem Task.weight_none (h : t.uses? = none) (b : Nat) : t.weight b = 0 := by
  rw [weight, h]
  rfl

theorem weight_le (ht : x.tasks[i]? = some t) (b : Nat) :
    t.weight b ≤ x.tasks.countP fun t => t.uses? = some b := by
  rw [Task.weight]
  split
  · rename_i huses
    exact List.countP_pos_iff.2 ⟨t, List.mem_of_getElem? ht, decide_eq_true huses⟩
  · exact Nat.zero_le _

theorem countP_set (ht : x.tasks[i]? = some t) (t' : Task) (b : Nat) :
    ((x.tasks.set i t').countP fun t => t.uses? = some b) + t.weight b =
      (x.tasks.countP fun t => t.uses? = some b) + t'.weight b := by
  rw [Task.weight, Task.weight, ← Bool.cond_decide, ← Bool.cond_decide]
  exact Parties.countP_set ht (fun t => t.uses? = some b) t'

section

variable (h : Inv x)
include h

theorem Inv.move (ht : x.tasks[i]? = some t) (htasks : y.tasks = x.tasks.set i t')
    (hcreated : y.created = x.created)
    (hregistry : ∀ key, y.registry.get? key = x.registry.get? key)
    (hkey : ∀ n, (y.bundles n).key = (x.bundles n).key)
    (hinUse : ∀ n, (y.bundles n).inUse + t.weight n = (x.bundles n).inUse + t'.weight n)
    (howns : ∀ b, t'.owns? = some b → t.owns? = some b)
    (hobtained : ∀ b, t'.obtained? = some b → b < x.created)
    (hcandidate : ∀ c, t'.candidate? = some c → t.candidate? = some c) : Inv y where
  keyed key b hb := by
    rw [hregistry key] at hb
    rw [hcreated, hkey]
    exact h.keyed key b hb
  owned := by
    rw [htasks, hcreated]
    simp only [hregistry]
    exact h.owned.put (fun b hb => h.owned i t ht b (howns b hb))
  apart := by
    rw [htasks]
    exact h.apart.set (fun _ _ hab b hb ha => hab b ha hb) fun j u hj hu b hb =>
      h.apart i j t u ht hu (Ne.symm hj) b (howns b hb)
  obtained := by
    rw [htasks, hcreated]
    exact h.obtained.put hobtained
  candidate := by
    rw [htasks]
    simp only [hkey]
    exact h.candidate.put (fun key b hb => h.candidate i t ht key b (hcandidate _ hb))
  counted b := by
    have hcount := countP_set ht t' b
    have hbefore := h.counted b
    have hafter := hinUse b
    rw [htasks]
    omega

theorem Inv.go (ht : x.tasks[i]? = some t) (huses : ∀ b, t.weight b = t'.weight b)
    (howns : ∀ b, t'.owns? = some b → t.owns? = some b)
    (hobtained : ∀ b, t'.obtained? = some b → b < x.created)
    (hcandidate : ∀ c, t'.candidate? = some c → t.candidate? = some c) : Inv (x.go i t') :=
  h.move ht rfl rfl (fun _ => rfl) (fun _ => rfl) (fun n => by rw [huses n]; rfl) howns hobtained
    hcandidate

theorem Inv.withLocks (lockOf : String → Option Nat) (locks : Nat)
    (holder : Nat → Option Nat) : Inv { x with lockOf, locks, holder } :=
  { h with }

theorem Inv.unlock (lock : Nat) : Inv (x.unlock lock) := h.withLocks _ _ _

theorem Inv.acquire (j lock : Nat) : Inv (x.acquire j lock) := h.withLocks _ _ _

theorem Inv.plain (ht : x.tasks[i]? = some t) (huses : t.uses? = none)
    (hnone : t'.owns? = none ∧ t'.obtained? = none ∧ t'.uses? = none ∧ t'.candidate? = none) :
    Inv (x.go i t') := by
  obtain ⟨howns, hobtained, huses', hcandidate⟩ := hnone
  refine h.go ht (fun b => by rw [Task.weight_none huses, Task.weight_none huses']) (fun b hb => ?_)
    (fun b hb => ?_) fun c hc => ?_
  · simp [howns] at hb
  · simp [hobtained] at hb
  · simp [hcandidate] at hc

theorem Inv.ended (ht : x.tasks[i]? = some t) (huses : t.uses? = none) :
    Inv (x.go i .ended) := h.plain ht huses ⟨rfl, rfl, rfl, rfl⟩

theorem Inv.release (c : Nat) : Inv (x.release c) := by
  have hbundle : ∀ n, ((x.release c).bundles n).key = (x.bundles n).key ∧
      ((x.release c).bundles n).inUse = (x.bundles n).inUse := by
    intro n
    dsimp only [State.release, State.setBundle]
    split <;> exact ⟨rfl, rfl⟩
  exact ⟨fun key b hb => (hbundle b).1 ▸ h.keyed key b hb, h.owned, h.apart, h.obtained,
    fun i t ht key b hb => (hbundle b).1.trans (h.candidate i t ht key b hb),
    fun b => (hbundle b).2.trans (h.counted b)⟩

theorem Inv.noSession (ht : x.tasks[i]? = some (.holding b)) : Inv (noSession x i) := by
  have hended := h.ended ht rfl
  exact { hended with }

theorem Inv.obtain (ht : x.tasks[i]? = some t) (huses : t.uses? = none) (hlt : b < x.created)
    (hone : t'.owns? = none ∧ t'.obtained? = some b ∧ t'.uses? = none ∧ t'.candidate? = none) :
    Inv (x.go i t') := by
  obtain ⟨howns, hobtained, huses', hcandidate⟩ := hone
  refine h.go ht (fun b => by rw [Task.weight_none huses, Task.weight_none huses']) (fun b hb => ?_)
    (fun c hc => ?_) fun c hc => ?_
  · rw [howns] at hb
    cases hb
  · rw [hobtained] at hc
    cases hc
    exact hlt
  · rw [hcandidate] at hc
    cases hc

theorem inUse_leave (ht : x.tasks[i]? = some t) (huses : t.uses? = some b) (n : Nat) :
    ((x.leave b).bundles n).inUse + t.weight n = (x.bundles n).inUse := by
  have hle := weight_le ht n
  rw [← h.counted n] at hle
  simp only [State.leave, State.setBundle, Task.weight, huses, Option.some.injEq] at hle ⊢
  by_cases hn : n = b
  · simp only [hn, if_true] at hle ⊢
    omega
  · simp only [if_neg hn, if_neg (Ne.symm hn)]
    rfl

theorem Inv.leave (ht : x.tasks[i]? = some t) (huses : t.uses? = some b)
    (huses' : t'.uses? = none) (howns : ∀ b, t'.owns? = some b → t.owns? = some b)
    (hobtained : ∀ b, t'.obtained? = some b → b < x.created)
    (hcandidate : ∀ c, t'.candidate? = some c → t.candidate? = some c) :
    Inv ((x.leave b).go i t') := by
  refine h.move ht rfl rfl (fun _ => rfl) (fun n => ?_) (fun n => ?_) howns hobtained hcandidate
  · dsimp only [State.go, State.leave, State.setBundle]
    split <;> rfl
  · rw [Task.weight_none huses', Nat.add_zero]
    exact inUse_leave h ht huses n

theorem Inv.use (ht : x.tasks[i]? = some (.holding b)) : Inv ((x.use b).go i (.queued b)) := by
  refine h.move ht rfl rfl (fun _ => rfl) (fun n => ?_) (fun n => ?_) nofun
    (fun c hc => h.obtained i _ ht c hc) nofun
  · dsimp only [State.go, State.use, State.setBundle]
    split <;> rfl
  · simp only [State.go, State.use, State.setBundle, Task.weight, Task.uses?, Option.some.injEq,
      reduceCtorEq, if_false, eq_comm (a := b)]
    split <;> rfl

end

/-! ## Bundles come and go -/

theorem Inv.fresh (h : Inv x) (hi : x.tasks[i]? = some t) :
    t.owns? ≠ some x.created ∧ t.obtained? ≠ some x.created ∧ t.uses? ≠ some x.created := by
  have howns : t.owns? ≠ some x.created := fun heq =>
    absurd (h.owned i t hi _ heq).1 (Nat.lt_irrefl _)
  have hobtained : t.obtained? ≠ some x.created := fun heq =>
    absurd (h.obtained i t hi _ heq) (Nat.lt_irrefl _)
  refine ⟨howns, hobtained, fun heq => ?_⟩
  cases t with
  | queued | running => exact hobtained heq
  | prewarming _ _ _ b => exact howns heq
  | _ => cases heq

theorem Inv.count_fresh (h : Inv x) : (x.tasks.countP fun t => t.uses? = some x.created) = 0 := by
  refine List.countP_eq_zero.2 fun t ht => ?_
  obtain ⟨i, hi⟩ := List.getElem?_of_mem ht
  simpa using (h.fresh hi).2.2

theorem create_other (x : State) (key : String) (inUse : Nat) (hb : b < x.created) :
    (x.create key inUse).bundles b = x.bundles b := if_neg (Nat.ne_of_lt hb)

theorem Inv.candidate_lt (h : Inv x) (ht : x.tasks[i]? = some t)
    (hcandidate : t.candidate? = some (key, b)) : b < x.created := by
  refine (h.owned i t ht b ?_).1
  cases t with
  | prewarming | registering => cases hcandidate; rfl
  | _ => cases hcandidate

theorem Inv.create (h : Inv x) (key : String) : Inv (x.create key 0) where
  keyed k b hb := by
    obtain ⟨hlt, _⟩ := h.keyed k b hb
    refine ⟨hlt.trans (Nat.lt_succ_self _), ?_⟩
    rwa [create_other x key 0 hlt]
  owned := h.owned.mono fun _ _ _ howns b hb =>
    ⟨(howns b hb).1.trans (Nat.lt_succ_self _), (howns b hb).2⟩
  apart := h.apart
  obtained := h.obtained.mono fun _ _ _ hobtained b hb =>
    (hobtained b hb).trans (Nat.lt_succ_self _)
  candidate i t ht k b hb := by
    rw [create_other x key 0 (h.candidate_lt ht hb)]
    exact h.candidate i t ht k b hb
  counted b := by
    dsimp only [State.create]
    split
    · rename_i hb
      rw [hb]
      exact h.count_fresh.symm
    · exact h.counted b

theorem Inv.load {lock started : Nat} (h : Inv x)
    (ht : x.tasks[i]? = some (.creating .load key lock started)) :
    Inv (createdStep x i .load key lock started) := by
  have hcreate := h.create key
  have hregister : Inv (((x.create key 0).setRetry key 0).register .load key started
      x.created) := by
    refine ⟨fun k b hb => ?_, ?_, hcreate.apart, hcreate.obtained, hcreate.candidate,
      hcreate.counted⟩
    · simp only [State.register, State.setRetry, Dict.get?_insert] at hb
      split at hb
      · cases hb
        exact ⟨Nat.lt_succ_self _, by simp [State.register, State.setRetry, State.create, *]⟩
      · exact hcreate.keyed k b hb
    · refine hcreate.owned.mono fun j u hu howns b hb => ⟨(howns b hb).1, fun k hk => ?_⟩
      simp only [State.register, State.setRetry, Dict.get?_insert] at hk
      split at hk
      · cases hk
        exact (h.fresh hu).1 hb
      · exact (howns b hb).2 k hk
  refine hregister.go ht (fun b => rfl) nofun (fun b hb => ?_)
    fun c hc => by cases hc
  cases hb
  exact Nat.lt_succ_self _

theorem Inv.swapCreated {lock started : Nat} (h : Inv x)
    (ht : x.tasks[i]? = some (.creating .swap key lock started)) :
    Inv (createdStep x i .swap key lock started) where
  keyed k b hb := by
    obtain ⟨hlt, hkey⟩ := h.keyed k b hb
    refine ⟨hlt.trans (Nat.lt_succ_self _), ?_⟩
    rw [← hkey]
    exact congrArg Bundle.key (create_other x key 1 hlt)
  owned := by
    refine h.owned.set (fun b hb => ?_) fun _ _ _ _ howns b hb =>
      ⟨(howns b hb).1.trans (Nat.lt_succ_self _), (howns b hb).2⟩
    cases hb
    exact ⟨Nat.lt_succ_self _, fun k hk => absurd (h.keyed k _ hk).1 (Nat.lt_irrefl _)⟩
  apart := by
    refine h.apart.set (fun _ _ hab b hb ha => hab b ha hb) fun j u _ hu b hb => ?_
    cases hb
    exact (h.fresh hu).1
  obtained := h.obtained.set nofun fun _ _ _ _ hobtained b hb =>
    (hobtained b hb).trans (Nat.lt_succ_self _)
  candidate := by
    refine h.candidate.set (fun k b hb => ?_) fun j u _ hu hcandidate k b hb => ?_
    · cases hb
      exact congrArg Bundle.key (if_pos rfl)
    · rw [← hcandidate k b hb]
      exact congrArg Bundle.key (create_other x key 1 (h.candidate_lt hu hb))
  counted b := by
    have hcount := countP_set ht (.prewarming key lock started x.created) b
    have hweight : (Task.creating .swap key lock started).weight b = 0 := rfl
    have hweight' : (Task.prewarming key lock started x.created).weight b =
        if b = x.created then 1 else 0 := by
      simp [Task.weight, Task.uses?, eq_comm]
    rw [hweight, hweight', Nat.add_zero] at hcount
    refine Eq.trans ?_ hcount.symm
    by_cases hb : b = x.created
    · rw [if_pos hb, hb, h.count_fresh]
      exact congrArg Bundle.inUse (if_pos rfl)
    · rw [if_neg hb, ← h.counted b]
      exact congrArg Bundle.inUse (if_neg hb)

theorem Inv.swap {lock started c : Nat} (h : Inv x)
    (ht : x.tasks[i]? = some (.registering key lock started c)) :
    Inv ((x.register .swap key started c).go i (.evictingSwapped key c (x.registry.get? key))) := by
  obtain ⟨hlt, hnot⟩ := h.owned i _ ht c rfl
  refine ⟨fun k b hb => ?_, h.owned.set (fun b hb => ?_) fun j u hj hu howns b hb => ?_, ?_,
    h.obtained.put nofun,
    h.candidate.put nofun, fun b => ?_⟩
  · simp only [State.go, State.register, Dict.get?_insert] at hb
    split at hb
    · rename_i hk
      cases hb
      exact ⟨hlt, (h.candidate i _ ht key c rfl).trans hk.symm⟩
    · exact h.keyed k b hb
  · have hkey : x.registry.get? key = some b := hb
    refine ⟨(h.keyed key b hkey).1, fun k hk => ?_⟩
    simp only [State.go, State.register, Dict.get?_insert] at hk
    split at hk
    · cases hk
      exact hnot key hkey
    · rename_i hne
      exact hne (h.key_unique hkey hk)
  · refine ⟨(howns b hb).1, fun k hk => ?_⟩
    simp only [State.go, State.register, Dict.get?_insert] at hk
    split at hk
    · cases hk
      exact h.apart i j _ u ht hu (Ne.symm hj) c rfl hb
    · exact (howns b hb).2 k hk
  · refine h.apart.set (fun _ _ hab b hb ha => hab b ha hb) fun j u _ hu b hb hown => ?_
    exact (h.owned j u hu b hown).2 key hb
  · have hcount := countP_set ht (.evictingSwapped key c (x.registry.get? key)) b
    exact (h.counted b).trans hcount.symm

theorem Inv.drain (h : Inv x) (ht : x.tasks[i]? = some (.unloading key))
    (hkey : x.registry.get? key = some b) : Inv ((x.pop key).go i (.draining b)) := by
  have hregistry : ∀ k c, (x.pop key).registry.get? k = some c → k ≠ key ∧
      x.registry.get? k = some c := by
    intro k c hc
    exact Dict.get?_erase_some hc
  refine ⟨fun k c hc => h.keyed k c (hregistry k c hc).2, h.owned.set (fun c hc => ?_)
    fun j u _ hu howns c hc => ⟨(howns c hc).1, fun k hk => (howns c hc).2 k (hregistry k c hk).2⟩,
      ?_,
    h.obtained.put nofun,
    h.candidate.put nofun, fun c => ?_⟩
  · cases hc
    refine ⟨(h.keyed key b hkey).1, fun k hk => ?_⟩
    exact (hregistry k b hk).1 (h.key_unique hkey (hregistry k b hk).2)
  · refine h.apart.set (fun _ _ hab c hc ha => hab c ha hc) fun j u _ hu c hc hown => ?_
    cases hc
    exact (h.owned j u hu b hown).2 key hkey
  · have hcount := countP_set ht (.draining b) c
    exact (h.counted c).trans hcount.symm

/-! ## Every step -/

theorem Inv.cancelled (h : Inv x) (ht : x.tasks[i]? = some t) : Inv (cancelled x i t) := by
  have hfreed : ∀ lock, Inv (match lock with
      | some lock => x.unlock lock
      | none => x) ∧ (match lock with
      | some lock => x.unlock lock
      | none => x).tasks = x.tasks := by
    intro lock
    cases lock with
    | some lock => exact ⟨h.unlock lock, rfl⟩
    | none => exact ⟨h, rfl⟩
  obtain ⟨hinv, htasks⟩ := hfreed t.lock?
  have ht' := htasks ▸ ht
  rw [Runtime.cancelled]
  cases huses : t.uses? with
  | none =>
    have hended := hinv.ended ht' huses
    exact { hended with }
  | some b =>
    have hended := hinv.leave ht' huses (show Task.ended.uses? = none from rfl)
      nofun
      nofun fun c hc => by cases hc
    exact { hended with }

theorem Inv.acquired {call : Call} {lock : Nat} (h : Inv x)
    (ht : x.tasks[i]? = some (.waiting call key lock)) : Inv (acquired x i call key lock) := by
  cases call with
  | swap => exact (h.acquire i lock).plain ht rfl ⟨rfl, rfl, rfl, rfl⟩
  | load =>
    rw [Runtime.acquired]
    cases hkey : x.registry.get? key with
    | some b =>
      exact ((h.acquire i lock).frame (frame_touched _ b)).obtain ht rfl (h.keyed _ b hkey).1
        ⟨rfl, rfl, rfl, rfl⟩
    | none =>
      dsimp only
      split
      · exact h.ended ht rfl
      · exact (h.acquire i lock).plain ht rfl ⟨rfl, rfl, rfl, rfl⟩

theorem Frame.task (hframe : Frame x y) (ht : x.tasks[i]? = some t) : y.tasks[i]? = some t := by
  rw [hframe.tasks, ht]

theorem Frame.lt (hframe : Frame x y) (hb : b < x.created) : b < y.created := by
  rwa [hframe.created]

theorem Goes.keeps (h : Goes t choice t') : t'.uses? = t.uses? ∧
    (∀ b, t'.owns? = some b → t.owns? = some b) ∧
    (∀ b, t'.obtained? = some b → t.obtained? = some b) ∧
      ∀ c, t'.candidate? = some c → t.candidate? = some c := by
  cases h <;> refine ⟨rfl, fun _ h => ?_, fun _ h => ?_, fun _ h => ?_⟩ <;>
    first | exact h | cases h

theorem Leaves.keeps (h : Leaves t choice b t') : t.uses? = some b ∧ t'.uses? = none ∧
    (∀ b, t'.owns? = some b → t.owns? = some b) ∧
    (∀ b, t'.obtained? = some b → t.obtained? = some b) ∧
      ∀ c, t'.candidate? = some c → t.candidate? = some c := by
  cases h <;> refine ⟨rfl, rfl, fun _ h => ?_, fun _ h => ?_, fun _ h => ?_⟩ <;>
    first | exact h | cases h

theorem stepTask_cases (h : Inv x) (ht : x.tasks[i]? = some t)
    (hs : stepTask setting x i t choice = some y) : TaskStep setting x i t choice y := by
  unfold Runtime.stepTask at hs
  split at hs
  · -- `lookup`
    split at hs <;> cases hs
    · exact .found ‹_›
    · split
      · exact .framed (.refl x) .cooling
      · exact .framed (.refl x) .missed
  · cases hs; exact .framed (frame_moveToEnd x _) .touched
  · -- `locking`
    split at hs <;> cases hs
    · exact .locking ‹_›
    · exact .newLock ‹_›
  · split at hs <;> cases hs
    exact .acquired (Option.not_isSome_iff_eq_none.1 ‹_›)
  · cases hs; exact .freed (frame_moveToEnd x _) .touchedLocked rfl rfl
  · cases hs; exact .framed (.refl x) .hashed
  · cases hs; exact .freed (frame_markFailed setting.cooldown x _) .unhashed rfl rfl
  · cases hs; exact .created
  · cases hs; exact .freed (frame_markFailed setting.cooldown x _) .uncreated rfl rfl
  · cases hs; exact .late _
  · cases hs; exact .framed (frame_moveToEnd x _) .touchedNew
  · cases hs; exact .freed (frame_evictLru h setting.maxLoaded _) .loaded rfl rfl
  · cases hs; exact .left .prewarmed
  · cases hs; exact .prewarmFails
  · cases hs; exact .registered
  · cases hs; exact .framed (frame_evictLru h setting.maxLoaded _) .swapped
  · cases hs; exact .framed (.refl x) .retired
  · -- `unloading`
    split at hs
    · cases hs; exact .framed (frame_pop ‹_›) .unloaded
    · split at hs <;> cases hs
      · exact .framed (frame_popRelease h ‹_› ‹_›) .unloaded
      · exact .drain ‹_› ‹_›
  · -- `draining`
    split at hs <;> cases hs
    exact .framed (frame_release (h.owned i _ ht _ rfl).2 ‹_› (List.mem_of_getElem? ht)) .drained
  · cases hs; exact .framed (frame_evictLru h setting.maxLoaded _) .evicted
  · -- `holding`
    split at hs <;> cases hs
    · exact .used ‹_›
    · exact .missing (Bool.eq_false_iff.2 ‹_›) (.inl rfl)
  · split at hs <;> cases hs
    · exact .looked
    · exact .missing (Bool.eq_false_iff.2 ‹_›) (.inr rfl)
  · cases hs; exact .framed (.refl x) .finished
  · cases hs; exact .framed (.refl x) .runs
  · cases hs; exact .left .failed
  · cases hs; exact .left .ran
  · cases hs; exact .left .crashed
  · cases hs; exact .cancelled
  · cases hs

theorem Inv.stepTask (h : Inv x) (ht : x.tasks[i]? = some t)
    (hs : stepTask setting x i t choice = some y) : Inv y := by
  cases stepTask_cases h ht hs with
  | framed hframe hgoes =>
    obtain ⟨huses, howns, hobtained, hcandidate⟩ := hgoes.keeps
    exact (h.frame hframe).go (hframe.task ht) (fun b => by rw [Task.weight, Task.weight,
      huses]) howns (fun b hb => hframe.lt (h.obtained i _ ht b (hobtained b hb))) hcandidate
  | freed hframe hgoes =>
    obtain ⟨huses, howns, hobtained, hcandidate⟩ := hgoes.keeps
    exact ((h.frame hframe).unlock _).go (hframe.task ht)
      (fun b => by rw [Task.weight, Task.weight, huses]) howns
      (fun b hb => hframe.lt (h.obtained i _ ht b (hobtained b hb))) hcandidate
  | found hkey =>
    exact (h.frame (frame_touched x _)).obtain ht rfl (h.keyed _ _ hkey).1 ⟨rfl, rfl, rfl, rfl⟩
  | locking => exact h.plain ht rfl ⟨rfl, rfl, rfl, rfl⟩
  | @newLock call key _ =>
    have hgo : Inv (x.go i (.waiting call key x.locks)) := h.plain ht rfl ⟨rfl, rfl, rfl, rfl⟩
    exact hgo.withLocks _ _ _
  | acquired => exact h.acquired ht
  | @created call _ _ _ =>
    cases call with
    | load => exact h.load ht
    | swap => exact h.swapCreated ht
  | @late _ key lock _ marked =>
    have hlost := h.create key
    cases marked with
    | false => exact (hlost.unlock lock).ended ht rfl
    | true =>
      have hframe := frame_markFailed setting.cooldown (x.create key 0) key
      exact ((hlost.frame hframe).unlock lock).ended (hframe.task ht) rfl
  | left hleaves =>
    obtain ⟨huses, huses', howns, hobtained, hcandidate⟩ := hleaves.keeps
    exact h.leave ht huses huses' howns (fun c hc => h.obtained i _ ht c (hobtained c hc))
      hcandidate
  | @prewarmFails _ lock _ c =>
    have hended : Inv ((x.leave c).go i .ended) :=
      h.leave ht rfl rfl nofun nofun fun c hc => by cases hc
    exact (hended.release c).unlock lock
  | @registered key lock _ _ =>
    have hswap := (h.swap ht).frame (frame_moveToEnd _ key)
    exact (hswap.frame (frame_setRetry _ key 0)).unlock lock
  | drain hkey => exact h.drain ht hkey
  | used => exact h.use ht
  | looked => exact h
  | missing => exact h.noSession ht
  | cancelled => exact h.cancelled ht

theorem Inv.step (h : Inv x) (hs : step setting x act = some y) : Inv y := by
  cases act with
  | tick | nativeEnds => cases hs; exact { h with }
  | request request =>
    cases hs
    have hnew : request.task.owns? = none ∧ request.task.obtained? = none ∧
        request.task.candidate? = none ∧ request.task.uses? = none := by
      cases request <;> exact ⟨rfl, rfl, rfl, rfl⟩
    obtain ⟨howns, hobtained, hcandidate, huses⟩ := hnew
    refine ⟨h.keyed, h.owned.append fun b hb => ?_, h.apart.append
      (fun _ _ hab b hb ha => hab b ha hb) fun u _ b hb => ?_, h.obtained.append fun b hb => ?_,
      h.candidate.append fun k b hb => ?_, fun b => ?_⟩
    · simp [howns] at hb
    · simp [howns] at hb
    · simp [hobtained] at hb
    · simp [hcandidate] at hb
    · rw [List.countP_append, List.countP_singleton, huses]
      exact h.counted b
  | task i =>
    obtain ⟨t, ht, hs⟩ := Option.bind_eq_some_iff.1 hs
    exact h.stepTask ht hs

theorem Inv.init : Inv init where
  keyed _ _ hkey := by cases hkey
  owned := Parties.Each.nil
  apart := Parties.Apart.nil
  obtained := Parties.Each.nil
  candidate := Parties.Each.nil
  counted _ := rfl

/-- **A bundle is in one place**, in every state of every run: the registry, under its own key, or
one task. -/
theorem bundles_owned (setting : Setting) (acts : List Act) :
    ∀ x ∈ states (step setting) init acts, Inv x :=
  invariant_all (fun _ _ _ h => h.step) acts Inv.init

/-- A model is loaded and runs. -/
theorem bundles_running : ∃ x, exec (step ⟨1, 30⟩) init
    (.request (.getOrLoad "ocr") :: List.replicate 7 (.task 0 .go) ++ [.task 0 .run, .task 0 .go]) =
      some x ∧ Inv x :=
  (Option.isSome_iff_exists.1 (by decide +kernel)).imp fun x h =>
    ⟨h, bundles_owned _ _ x (mem_states_of_exec h)⟩

end Scenara.Runtime

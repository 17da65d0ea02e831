import Scenara.Runtime.Owned

/-!
# A released session is used by nobody

* `Unharmed`: no release while a native run is in progress, and no task without its session.
* `Harmless`: no bundle is released while a task that has obtained it is between two runs, or while
  a native run goes on without its task.
* `Safe`: what is registered, obtained or a candidate has its session, and nobody has obtained a
  candidate. `in_use` protects the tasks that are in a run (`Inv.unused`).
-/

namespace Scenara.Runtime

open Scenara.Core

variable {setting : Setting} {x y : State} {i : Nat} {t t' : Task} {b : Nat} {key : String}
  {choice : Choice} {act : Act}

/-- **What the releases promise.** -/
structure Unharmed (x : State) : Prop where
  releases : ∀ r ∈ x.releases, r.busy = false
  missing : x.missing = []

/-- The bundle that the task has obtained and does not run now. -/
def Task.between? : Task → Option Nat
  | .queued _ | .running _ => none
  | t => t.obtained?

/-- **The condition.** -/
def Harmless (setting : Setting) (x : State) (act : Act) : Prop :=
  ∀ y ∈ step setting x act, ∀ r ∈ y.releases.drop x.releases.length,
    (∀ t ∈ x.tasks, t.between? ≠ some r.bundle) ∧ r.bundle ∉ x.orphans
  deriving Decidable

/-! ## The invariant -/

/-- What is registered, obtained or a candidate has its session. -/
structure Safe (x : State) : Prop where
  inv : Inv x
  registered : ∀ key b, x.registry.get? key = some b → (x.bundles b).session = true
  obtained : Parties.Each (fun _ t => ∀ b, t.obtained? = some b →
    (x.bundles b).session = true) x.tasks
  candidate : Parties.Each (fun _ t => ∀ key b, t.candidate? = some (key, b) →
    (x.bundles b).session = true) x.tasks
  unseen : Parties.Apart (fun t u => ∀ key b, t.candidate? = some (key, b) → u.obtained? ≠ some b)
    x.tasks
  unharmed : Unharmed x

theorem Task.owns_of_candidate (h : t.candidate? = some (key, b)) : t.owns? = some b := by
  cases t with
  | prewarming | registering => cases h; rfl
  | _ => cases h

theorem Task.uses_of_runs (h : t.runs? = some b) : t.uses? = some b := by
  cases t with
  | running | prewarming => exact h
  | _ => cases h

theorem Task.between_or_uses (h : t.obtained? = some b) :
    t.between? = some b ∨ t.uses? = some b := by
  cases t with
  | queued | running => exact .inr h
  | _ => exact .inl h

theorem Inv.unused (h : Inv x) (huse : (x.bundles b).inUse = 0) (ht : t ∈ x.tasks) :
    t.uses? ≠ some b := by
  intro huses
  rw [h.counted b] at huse
  exact List.countP_eq_zero.1 huse t ht (decide_eq_true huses)

/-- No task is on its session, so that only a run without its task could be. -/
theorem Inv.idle (h : Inv x) (huse : (x.bundles b).inUse = 0) (horphan : b ∉ x.orphans) :
    x.busy b = false := by
  rw [State.busy, Bool.or_eq_false_iff]
  constructor
  · refine List.any_eq_false.2 fun t ht hruns => ?_
    exact h.unused huse ht (Task.uses_of_runs (of_decide_eq_true hruns))
  · refine List.any_eq_false.2 fun c hc hb => horphan ?_
    rwa [← of_decide_eq_true hb]

/-! ## Steps -/

theorem Safe.frame (h : Safe x) (hframe : Frame x y)
    (hlawful : ∀ r ∈ y.releases.drop x.releases.length,
      (∀ t ∈ x.tasks, t.between? ≠ some r.bundle) ∧ r.bundle ∉ x.orphans) : Safe y := by
  obtain ⟨more, hreleases, hmore, hdead⟩ := hframe.releases
  rw [hreleases, List.drop_left] at hlawful
  have hkept : ∀ b, (x.bundles b).session = true →
      (∀ r ∈ more, r.bundle ≠ b) → (y.bundles b).session = true := by
    intro b hb hnot
    by_contra hsession
    obtain ⟨r, hr, heq⟩ := hdead b hb (Bool.eq_false_iff.2 hsession)
    exact hnot r hr heq
  refine ⟨h.inv.frame hframe, fun key b hkey => ?_, ?_, ?_, ?_, ?_, ?_⟩
  · by_contra hsession
    have hwas := h.registered key b (hframe.registry key b hkey)
    exact (hframe.dies b hwas (Bool.eq_false_iff.2 hsession)).2 key hkey
  · rw [hframe.tasks]
    refine h.obtained.mono fun j u hu hobtained b hb => hkept b (hobtained b hb) fun r hr heq => ?_
    have hmem := List.mem_of_getElem? hu
    rcases Task.between_or_uses hb with hbetween | huses
    · rw [← heq] at hbetween
      exact (hlawful r hr).1 u hmem hbetween
    · rw [← heq] at huses
      exact h.inv.unused (hmore r hr).1 hmem huses
  · rw [hframe.tasks]
    refine h.candidate.mono fun j u hu hcandidate key b hb => ?_
    by_contra hsession
    have howns := Task.owns_of_candidate hb
    obtain ⟨⟨k, hk⟩ | hdraining, -⟩ :=
      hframe.dies b (hcandidate key b hb) (Bool.eq_false_iff.2 hsession)
    · exact (h.inv.owned j u hu b howns).2 k hk
    · obtain ⟨l, hl⟩ := List.getElem?_of_mem hdraining
      have hne : l ≠ j := by
        rintro rfl
        rw [hu] at hl
        cases hl
        cases hb
      exact h.inv.apart l j _ u hl hu hne b rfl howns
  · rw [hframe.tasks]
    exact h.unseen
  · intro r hr
    rw [hreleases, List.mem_append] at hr
    rcases hr with hr | hr
    · exact h.unharmed.releases r hr
    · rw [(hmore r hr).2]
      exact h.inv.idle (hmore r hr).1 (hlawful r hr).2
  · rw [hframe.missing]
    exact h.unharmed.missing

section

variable (h : Safe x) (ht : x.tasks[i]? = some t) (hinv : Inv y)
    (htasks : y.tasks = x.tasks.set i t')
include h ht hinv htasks

theorem Safe.move (hsession : ∀ n, n < x.created → (y.bundles n).session = (x.bundles n).session)
    (hregistry : ∀ key b, y.registry.get? key = some b →
      x.registry.get? key = some b ∨ (y.bundles b).session = true)
    (hobtained : ∀ b, t'.obtained? = some b → t.obtained? = some b ∨
      (∃ key, x.registry.get? key = some b) ∨ b = x.created ∧ (y.bundles b).session = true)
    (hcandidate : ∀ c, t'.candidate? = some c → t.candidate? = some c ∨
      c.2 = x.created ∧ (y.bundles c.2).session = true)
    (hreleases : y.releases = x.releases) (hmissing : y.missing = x.missing) : Safe y where
  inv := hinv
  registered key b hkey := by
    rcases hregistry key b hkey with hkey' | hnew
    · rw [hsession b (h.inv.keyed key b hkey').1]
      exact h.registered key b hkey'
    · exact hnew
  obtained := by
    rw [htasks]
    refine h.obtained.set (fun b hb => ?_) fun j u _ hu hq b hb => ?_
    · rcases hobtained b hb with hold | ⟨key, hkey⟩ | ⟨-, hnew⟩
      · rw [hsession b (h.inv.obtained i t ht b hold)]
        exact h.obtained i t ht b hold
      · rw [hsession b (h.inv.keyed key b hkey).1]
        exact h.registered key b hkey
      · exact hnew
    · rw [hsession b (h.inv.obtained j u hu b hb)]
      exact hq b hb
  candidate := by
    rw [htasks]
    refine h.candidate.set (fun key b hb => ?_) fun j u _ hu hq key b hb => ?_
    · rcases hcandidate (key, b) hb with hold | ⟨-, hnew⟩
      · rw [hsession b (h.inv.candidate_lt ht hold)]
        exact h.candidate i t ht key b hold
      · exact hnew
    · rw [hsession b (h.inv.candidate_lt hu hb)]
      exact hq key b hb
  unseen := by
    rw [htasks]
    intro j k u v hu hv hjk key b hb hb'
    rcases Parties.getElem?_set_cases hu with ⟨rfl, rfl⟩ | ⟨_, hu'⟩ <;>
      rcases Parties.getElem?_set_cases hv with ⟨rfl, rfl⟩ | ⟨_, hv'⟩
    · exact hjk rfl
    · rcases hcandidate (key, b) hb with hold | ⟨hnew, -⟩
      · exact h.unseen j k t v ht hv' hjk key b hold hb'
      · exact (h.inv.fresh hv').2.1 (hnew ▸ hb')
    · rcases hobtained b hb' with hold | ⟨l, hl⟩ | ⟨hnew, -⟩
      · exact h.unseen j k u t hu' ht hjk key b hb hold
      · exact (h.inv.owned j u hu' b (Task.owns_of_candidate hb)).2 l hl
      · exact (h.inv.fresh hu').1 (hnew ▸ Task.owns_of_candidate hb)
    · exact h.unseen j k u v hu' hv' hjk key b hb hb'
  unharmed := by
    refine ⟨?_, hmissing.trans h.unharmed.missing⟩
    rw [hreleases]
    exact h.unharmed.releases

theorem Safe.still (hsession : ∀ n, (y.bundles n).session = (x.bundles n).session)
    (hregistry : ∀ key b, y.registry.get? key = some b → x.registry.get? key = some b)
    (hobtained : ∀ b, t'.obtained? = some b → t.obtained? = some b ∨
      ∃ key, x.registry.get? key = some b)
    (hcandidate : ∀ c, t'.candidate? = some c → t.candidate? = some c)
    (hreleases : y.releases = x.releases) (hmissing : y.missing = x.missing) : Safe y :=
  h.move ht hinv htasks (fun n _ => hsession n) (fun key b hkey => .inl (hregistry key b hkey))
    (fun b hb => (hobtained b hb).imp_right .inl) (fun c hc => .inl (hcandidate c hc)) hreleases
      hmissing

theorem Safe.ended (hsession : ∀ n, (y.bundles n).session = (x.bundles n).session)
    (hregistry : ∀ key b, y.registry.get? key = some b → x.registry.get? key = some b)
    (hnone : t'.obtained? = none ∧ t'.candidate? = none)
    (hreleases : y.releases = x.releases) (hmissing : y.missing = x.missing) : Safe y := by
  refine h.still ht hinv htasks hsession hregistry (fun b hb => ?_) (fun c hc => ?_) hreleases
    hmissing
  · simp [hnone.1] at hb
  · simp [hnone.2] at hc

end

theorem Safe.touch (h : Safe x) (hframe : Frame x y) (hreleases : y.releases = x.releases) :
    Safe y := by
  refine h.frame hframe fun r hr => ?_
  simp [hreleases, List.drop_length] at hr

theorem moveToEnd_releases (x : State) (key : String) :
    (x.moveToEnd key).releases = x.releases := by
  unfold State.moveToEnd
  split <;> rfl

theorem session_leave (x : State) (b n : Nat) :
    ((x.leave b).bundles n).session = (x.bundles n).session := by
  dsimp only [State.leave, State.setBundle]
  split <;> rfl

theorem Safe.load {lock started : Nat} (h : Safe x)
    (ht : x.tasks[i]? = some (.creating .load key lock started))
    (hinv : Inv (createdStep x i .load key lock started)) :
    Safe (createdStep x i .load key lock started) := by
  have hnew : ((createdStep x i .load key lock started).bundles x.created).session = true :=
    congrArg Bundle.session (if_pos rfl)
  refine h.move ht hinv rfl (fun n hn => ?_) (fun k b hkey => ?_) (fun b hb => ?_)
    (fun c hc => ?_) rfl rfl
  · exact congrArg Bundle.session (create_other x key 0 hn)
  · have hget : (x.registry.insert key x.created).get? k = some b := hkey
    rcases Dict.get?_insert_cases hget with ⟨-, rfl⟩ | ⟨-, hget⟩
    · exact .inr hnew
    · exact .inl hget
  · cases hb
    exact .inr (.inr ⟨rfl, hnew⟩)
  · cases hc

theorem Safe.swapCreated {lock started : Nat} (h : Safe x)
    (ht : x.tasks[i]? = some (.creating .swap key lock started))
    (hinv : Inv (createdStep x i .swap key lock started)) :
    Safe (createdStep x i .swap key lock started) := by
  refine h.move ht hinv rfl (fun n hn => ?_) (fun k b hkey => .inl hkey) (fun b hb => ?_)
    (fun c hc => ?_)
    rfl rfl
  · exact congrArg Bundle.session (create_other x key 1 hn)
  · cases hb
  · cases hc
    exact .inr ⟨rfl, congrArg Bundle.session (if_pos rfl)⟩

theorem Safe.swap {lock started c : Nat} (h : Safe x)
    (ht : x.tasks[i]? = some (.registering key lock started c)) :
    Safe ((x.register .swap key started c).go i
      (.evictingSwapped key c (x.registry.get? key))) := by
  refine h.move ht (h.inv.swap ht) rfl (fun _ _ => rfl) (fun k b hkey => ?_) (fun b hb => ?_)
    (fun c hc => ?_) rfl rfl
  · have hget : (x.registry.insert key c).get? k = some b := hkey
    rcases Dict.get?_insert_cases hget with ⟨-, rfl⟩ | ⟨-, hget⟩
    · exact .inr (h.candidate i _ ht key b rfl)
    · exact .inl hget
  · cases hb
  · cases hc

theorem Task.runs_cases (h : t.runs? = some b) :
    t.obtained? = some b ∨ ∃ key, t.candidate? = some (key, b) := by
  cases t with
  | running c => exact .inl h
  | prewarming key _ _ c => cases h; exact .inr ⟨key, rfl⟩
  | _ => cases h

theorem Safe.prewarmFails {lock started c : Nat} (h : Safe x)
    (ht : x.tasks[i]? = some (.prewarming key lock started c))
    (hinv : Inv ((((x.leave c).go i .ended).release c).unlock lock)) (horphan : c ∉ x.orphans) :
    Safe ((((x.leave c).go i .ended).release c).unlock lock) := by
  have hnot := (h.inv.owned i _ ht c rfl).2
  have hother : ∀ (j : Nat) u, (x.tasks.set i .ended)[j]? = some u →
      u.obtained? ≠ some c ∧ ∀ k, u.candidate? ≠ some (k, c) := by
    intro j u hu
    rcases Parties.getElem?_set_cases hu with ⟨rfl, rfl⟩ | ⟨hj, hu'⟩
    · exact ⟨nofun, nofun⟩
    · exact ⟨h.unseen i j _ u ht hu' (Ne.symm hj) key c rfl,
        fun k hc => h.inv.apart i j _ u ht hu' (Ne.symm hj) c rfl (Task.owns_of_candidate hc)⟩
  have hleft : Safe ((x.leave c).go i .ended) :=
    h.ended ht (h.inv.leave ht rfl rfl nofun nofun
      fun c hc => by cases hc) rfl (fun n => session_leave x c n) (fun _ _ hk => hk) ⟨rfl,
        rfl⟩ rfl rfl
  have hsession : ∀ n, n ≠ c → ((((x.leave c).go i .ended).release c).bundles n).session =
      (((x.leave c).go i .ended).bundles n).session :=
      fun n hn => congrArg Bundle.session (if_neg hn)
  refine ⟨hinv, fun k b hk => ?_, fun j u hu b hb => ?_, fun j u hu k b hb => ?_, hleft.unseen, ?_,
    hleft.unharmed.missing⟩
  · exact (hsession b (fun hbc => hnot k (hbc ▸ hk))).trans (hleft.registered k b hk)
  · exact (hsession b (fun hbc => (hother j u hu).1 (hbc ▸ hb))).trans (hleft.obtained j u hu b hb)
  · exact (hsession b (fun hbc => (hother j u hu).2 k (hbc ▸ hb))).trans
      (hleft.candidate j u hu k b hb)
  · intro r hr
    rcases Parties.mem_snoc.1 hr with hr | rfl
    · exact hleft.unharmed.releases r hr
    · rw [State.busy, Bool.or_eq_false_iff]
      constructor
      · refine List.any_eq_false.2 fun u hu hruns => ?_
        obtain ⟨j, hj⟩ := List.getElem?_of_mem hu
        rcases Task.runs_cases (of_decide_eq_true hruns) with hobtained | ⟨k, hk⟩
        · exact (hother j u hj).1 hobtained
        · exact (hother j u hj).2 k hk
      · refine List.any_eq_false.2 fun d hd hdc => horphan ?_
        rwa [← of_decide_eq_true hdc]

theorem cancelled_fields (x : State) (i : Nat) (t : Task) :
    (cancelled x i t).tasks = x.tasks.set i .ended ∧ (cancelled x i t).registry = x.registry ∧
      (cancelled x i t).releases = x.releases ∧ (cancelled x i t).missing = x.missing ∧
      ∀ n, ((cancelled x i t).bundles n).session = (x.bundles n).session := by
  unfold Runtime.cancelled
  cases t.lock? with
  | none =>
    cases t.uses? with
    | none => exact ⟨rfl, rfl, rfl, rfl, fun _ => rfl⟩
    | some b => exact ⟨rfl, rfl, rfl, rfl, fun n => session_leave x b n⟩
  | some lock =>
    cases t.uses? with
    | none => exact ⟨rfl, rfl, rfl, rfl, fun _ => rfl⟩
    | some b => exact ⟨rfl, rfl, rfl, rfl, fun n => session_leave (x.unlock lock) b n⟩

theorem Safe.cancelled (h : Safe x) (ht : x.tasks[i]? = some t) (hinv : Inv (cancelled x i t)) :
    Safe (cancelled x i t) := by
  obtain ⟨htasks, hregistry, hreleases, hmissing, hsession⟩ := cancelled_fields x i t
  exact h.ended ht hinv htasks hsession (fun key b hkey => by rwa [hregistry] at hkey) ⟨rfl, rfl⟩
    hreleases hmissing

/-! ## Every step -/

theorem Safe.acquired {call : Call} {lock : Nat} (h : Safe x)
    (ht : x.tasks[i]? = some (.waiting call key lock)) (hinv : Inv (acquired x i call key lock)) :
    Safe (acquired x i call key lock) := by
  cases call with
  | swap => exact h.ended ht hinv rfl (fun _ => rfl) (fun _ _ hk => hk) ⟨rfl, rfl⟩ rfl rfl
  | load =>
    rw [Runtime.acquired] at hinv ⊢
    cases hkey : x.registry.get? key with
    | some b =>
      rw [hkey] at hinv
      have htouched := h.touch (frame_touched x b) rfl
      refine htouched.still ht hinv rfl (fun _ => rfl) (fun _ _ hk => hk)
        (fun c hc => .inr ⟨key, ?_⟩) (fun c hc => by cases hc) rfl rfl
      cases hc
      exact hkey
    | none =>
      rw [hkey] at hinv
      cases hcool : x.coolingDown key with
      | true =>
        simp only [hcool, if_true] at hinv ⊢
        exact h.ended ht hinv rfl (fun _ => rfl) (fun _ _ hk => hk) ⟨rfl, rfl⟩ rfl rfl
      | false =>
        simp only [hcool, Bool.false_eq_true, if_false] at hinv ⊢
        exact h.ended ht hinv rfl (fun _ => rfl) (fun _ _ hk => hk) ⟨rfl, rfl⟩ rfl rfl

theorem markFailed_eq (cooldown : Nat) (x : State) (key : String) :
    ∃ retryAfter, x.markFailed cooldown key = { x with retryAfter } := by
  rw [State.markFailed]
  split
  · exact ⟨_, rfl⟩
  · exact ⟨x.retryAfter, rfl⟩

theorem Safe.stepTask (h : Safe x) (ht : x.tasks[i]? = some t)
    (hs : stepTask setting x i t choice = some y)
    (hlawful : ∀ r ∈ y.releases.drop x.releases.length,
      (∀ t ∈ x.tasks, t.between? ≠ some r.bundle) ∧ r.bundle ∉ x.orphans) : Safe y := by
  have hinv := h.inv.stepTask ht hs
  cases stepTask_cases h.inv ht hs with
  | framed hframe hgoes | freed hframe hgoes _ _ =>
    obtain ⟨-, -, hobtained, hcandidate⟩ := hgoes.keeps
    exact (h.frame hframe hlawful).still (hframe.task ht) hinv rfl (fun _ => rfl) (fun _ _ hk => hk)
      (fun c hc => .inl (hobtained c hc)) hcandidate rfl rfl
  | @found key b hkey =>
    have htouched := h.touch (frame_touched x b) rfl
    refine htouched.still ht hinv rfl (fun _ => rfl) (fun _ _ hk => hk) (fun c hc => .inr ⟨key, ?_⟩)
      nofun rfl rfl
    cases hc
    exact hkey
  | locking _ | newLock _ =>
    exact h.ended ht hinv rfl (fun _ => rfl) (fun _ _ hk => hk) ⟨rfl, rfl⟩ rfl rfl
  | acquired => exact h.acquired ht hinv
  | @created call _ _ _ =>
    cases call with
    | load => exact h.load ht hinv
    | swap => exact h.swapCreated ht hinv
  | @late _ key _ _ marked =>
    have hsession : ∀ n, n < x.created → ((x.create key 0).bundles n).session =
        (x.bundles n).session := fun n hn => congrArg Bundle.session (create_other x key 0 hn)
    cases marked with
    | false =>
      exact h.move ht hinv rfl hsession (fun k b hk => .inl hk) nofun
        nofun rfl rfl
    | true =>
      obtain ⟨_, hretry⟩ := markFailed_eq setting.cooldown (x.create key 0) key
      simp only [if_true, hretry] at hinv ⊢
      exact h.move ht hinv rfl hsession (fun k b hk => .inl hk) nofun
        nofun rfl rfl
  | left hleaves =>
    obtain ⟨-, -, -, hobtained, hcandidate⟩ := hleaves.keeps
    exact h.still ht hinv rfl (fun n => session_leave x _ n) (fun _ _ hk => hk)
      (fun c hc => .inl (hobtained c hc)) hcandidate rfl rfl
  | @prewarmFails _ _ _ c =>
    have hlast : ∀ r : Release, r ∈ (x.releases ++ [r]).drop x.releases.length := by
      intro r
      rw [List.drop_left]
      exact List.mem_singleton.2 rfl
    exact h.prewarmFails ht hinv (hlawful _ (hlast ⟨c, ((x.leave c).go i .ended).busy c⟩)).2
  | @registered key _ _ _ =>
    have hmoved := (h.swap ht).touch (frame_moveToEnd _ key) (moveToEnd_releases _ key)
    have hset := hmoved.touch (frame_setRetry _ key 0) rfl
    exact ⟨hinv, hset.registered, hset.obtained, hset.candidate, hset.unseen,
      hset.unharmed.releases, hset.unharmed.missing⟩
  | @drain key b _ _ =>
    refine h.ended ht hinv rfl (fun _ => rfl) (fun k c hc => ?_) ⟨rfl, rfl⟩ rfl rfl
    have hget : (x.registry.erase key).get? k = some c := hc
    exact (Dict.get?_erase_some hget).2
  | used =>
    refine h.still ht hinv rfl (fun n => ?_) (fun _ _ hk => hk) (fun c hc => .inl hc)
      nofun rfl rfl
    dsimp only [State.go, State.use, State.setBundle]
    split <;> rfl
  | looked => exact h
  | missing hsession =>
    simp [h.obtained i _ ht _ rfl] at hsession
  | cancelled => exact h.cancelled ht hinv

theorem Safe.step (h : Safe x) (hlawful : Harmless setting x act)
    (hs : step setting x act = some y) : Safe y := by
  have hinv := h.inv.step hs
  cases act with
  | tick | nativeEnds =>
    cases hs
    exact ⟨hinv, h.registered, h.obtained, h.candidate, h.unseen, h.unharmed.releases,
      h.unharmed.missing⟩
  | request request =>
    cases hs
    have hnew : request.task.obtained? = none ∧ request.task.candidate? = none := by
      cases request <;> exact ⟨rfl, rfl⟩
    obtain ⟨hobtained, hcandidate⟩ := hnew
    refine ⟨hinv, h.registered, h.obtained.append fun b hb => ?_,
      h.candidate.append fun k b hb => ?_,
      fun j k u v hu hv hjk key b hb hb' => ?_, h.unharmed.releases, h.unharmed.missing⟩
    · simp [hobtained] at hb
    · simp [hcandidate] at hb
    · rcases Parties.getElem?_append_cases hu with ⟨-, rfl⟩ | hu'
      · simp [hcandidate] at hb
      · rcases Parties.getElem?_append_cases hv with ⟨-, rfl⟩ | hv'
        · rw [hobtained] at hb'
          cases hb'
        · exact h.unseen j k u v hu' hv' hjk key b hb hb'
  | task i =>
    have hlawful := hlawful y hs
    obtain ⟨t, ht, hs⟩ := Option.bind_eq_some_iff.1 hs
    exact h.stepTask ht hs hlawful

theorem Safe.init : Safe init where
  inv := Inv.init
  registered _ _ hkey := by cases hkey
  obtained := Parties.Each.nil
  candidate := Parties.Each.nil
  unseen := Parties.Apart.nil
  unharmed := ⟨fun _ hr => (List.not_mem_nil hr).elim, rfl⟩

/-! ## Runs -/

/-- **What is released is used by nobody**, where no bundle is released while a task that has
obtained it is between two runs, or while a native run on it goes on without its task. -/
theorem released_unused (setting : Setting) (acts : List Act)
    (hlawful : Along (step setting) (Harmless setting) init acts) :
    ∀ x ∈ states (step setting) init acts, Unharmed x := by
  intro x hx
  exact Safe.unharmed (invariant_states (I := Safe) (fun _ _ _ h hP hs => h.step hP hs) Safe.init
    hlawful x hx)

/-- A request runs its model twice; the model is swapped meanwhile, and the old one drains. -/
theorem drained_unharmed :
    let acts : List Act := [.request (.getOrLoad "m"), .task 0 .go, .task 0 .go, .task 0 .go,
        .task 0 .go,
      .task 0 .go, .task 0 .go, .task 0 .go, .task 0 .run, .task 0 .go, .request (.replace "m"),
      .task 1 .go, .task 1 .go, .task 1 .go, .task 1 .go, .task 1 .go, .task 1 .go, .task 1 .go,
      .task 1 .retire, .task 0 .go, .task 0 .run, .task 0 .go, .task 0 .go, .task 0 .finish,
        .task 1 .go]
    ∃ x, exec (step ⟨2, 60⟩) init acts = some x ∧ Unharmed x ∧ x.releases = [⟨0, false⟩] ∧
      x.registry.get? "m" = some 1 := by
  intro acts
  have hlawful : Along (step ⟨2, 60⟩) (Harmless ⟨2, 60⟩) init acts := by decide +kernel
  obtain ⟨y, hy, hdone⟩ : ∃ y, exec (step ⟨2, 60⟩) init acts = some y ∧ y.releases = [⟨0, false⟩] ∧
      y.registry.get? "m" = some 1 :=
    exec_decide (by decide +kernel)
  exact ⟨y, hy, released_unused ⟨2, 60⟩ acts hlawful y (mem_states_of_exec hy), hdone⟩

/-- **A gap, and a cancelled run.** One model may be loaded. A request prepares its input when
another model is loaded: the first one is evicted, and the request finds no session. And a request
is cancelled in its native run: an unload releases the session while the run goes on. -/
theorem released_in_use :
    let load : Nat → List Act := fun i => List.replicate 7 (.task i .go)
    let gap : List Act := [.request (.getOrLoad "a")] ++ load 0 ++ [.request (.getOrLoad "b")] ++
      load 1 ++ [.task 0 .run]
    let cancelledRun : List Act := [.request (.getOrLoad "a")] ++ load 0 ++ [.task 0 .run,
      .task 0 .go, .task 0 .cancel, .request (.unload "a"), .task 1 .go]
    (∃ x, exec (step ⟨1, 60⟩) init gap = some x ∧ ¬ Unharmed x ∧ x.releases = [⟨0, false⟩] ∧
      x.missing = [0]) ∧
    ∃ x, exec (step ⟨1, 60⟩) init cancelledRun = some x ∧ ¬ Unharmed x ∧ x.orphans = [0] ∧
      x.releases = [⟨0, true⟩] := by
  intro _ gap cancelledRun
  constructor
  · obtain ⟨x, hx, hdone⟩ : ∃ x, exec (step ⟨1, 60⟩) init gap = some x ∧ x.releases = [⟨0, false⟩] ∧
        x.missing = [0] :=
      exec_decide (by decide +kernel)
    refine ⟨x, hx, fun hgood => ?_, hdone⟩
    have hmissing := hgood.missing
    simp [hdone.2] at hmissing
  · obtain ⟨x, hx, hdone⟩ : ∃ x, exec (step ⟨1, 60⟩) init cancelledRun = some x ∧ x.orphans = [0] ∧
        x.releases = [⟨0, true⟩] :=
      exec_decide (by decide +kernel)
    refine ⟨x, hx, fun hgood => ?_, hdone⟩
    have hbusy := hgood.releases ⟨0, true⟩ (by rw [hdone.2]; exact List.mem_singleton.2 rfl)
    cases hbusy

end Scenara.Runtime

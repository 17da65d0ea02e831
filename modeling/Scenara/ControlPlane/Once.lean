import Mathlib.Data.List.Count
import Scenara.ControlPlane.Decisions

/-!
# Decisions are made once

* `once_decide`, `once_execute`: one more move leaves what was saved once exactly when it is
  current.
-/

namespace Scenara.ControlPlane

open Scenara.Core
open Release (Scope)

variable {inputHash : Dict String Json → String} {s s' : Shared} {subject subject' : Subject}
  {log : List Event} {origin : Subject → Option Status} {call call' : Call} {r : Reading}
variable {body : Decision} {approval : FlowApproval} {a : ProjectLifecycleRequest} {k : Key}
  {version : Nat} {scope : Scope}

/-! ## What is promised -/

/-- The move is a decision. -/
def Move.isDecision : Move → Bool
  | .decided _ => true
  | .executed => false

/-- The moves of a record that stood at `first`. -/
structure OnceMoves (first : Option Status) (moves : List Move) : Prop where
  decided : moves.countP Move.isDecision ≤ 1
  executed : moves.count .executed ≤ 1
  approvedFirst : ∀ before after, moves = before ++ .executed :: after →
    first = some .approved ∨ .decided true ∈ before
  notRejected : .executed ∈ moves → .decided false ∉ moves

/-- What was saved of every record, given where it stood at first. -/
structure Once (origin : Subject → Option Status) (log : List Event) : Prop where
  moves : ∀ subject, OnceMoves (origin subject) (movesOf subject log)
  notAdvanced : ∀ k, .advanced k ∈ log → .decided false ∉ movesOf (.approval k) log

/-- What was decided stays so. -/
structure Later (s s' : Shared) : Prop where
  approvals : ∀ k a, s.records.approvals.get? k = some a → a.status ≠ .pending →
    s'.records.approvals.get? k = some a
  requests : ∀ k a, s.records.requests.get? k = some a → a.status ≠ .pending →
    s'.records.requests.get? k = some a
  closed : ∀ k a, s.records.actions.get? k = some a → a.status = .rejected ∨ a.status = .executed →
    s'.records.actions.get? k = some a
  approved : ∀ k a, s.records.actions.get? k = some a → a.status = .approved →
    ∃ a', s'.records.actions.get? k = some a' ∧ (a' = a ∨ a'.status = .executed)

/-- The record was not saved since the call read it. -/
def Call.Current (s : Shared) : Call → Prop
  | .saveApproval approval version _ => version = s.version (.approval approval.key)
  | .saveRequest request version _ => version = s.version (.request request.key)
  | .saveAction action version _ => version = s.version (.action action.key)
  | .saveExecuted action version _ => version = s.version (.action action.key)
  | _ => True

/-- The call that takes a step saves a record only in the version that it read. -/
def Current (s : System) : Decisions.Act → Prop
  | .advance i _ => ∀ call ∈ s.calls[i]?, call.Current s.shared
  | .start _ _ => True

/-! ## Moves -/

/-- Where a record stands after its moves. -/
def standing (first : Status) (moves : List Move) : Status :=
  (moves.getLast?.map Move.status).getD first

@[simp] theorem standing_nil (first : Status) : standing first [] = first := rfl

@[simp] theorem standing_append (first : Status) (moves : List Move) (move : Move) :
    standing first (moves ++ [move]) = move.status := by
  simp [standing]

theorem Move.status_ne_pending (move : Move) : move.status ≠ .pending := by
  rcases move with (_ | _) | _ <;> exact nofun

theorem Move.status_eq_approved {move : Move} : move.status = .approved ↔ move = .decided true := by
  rcases move with (_ | _) | _ <;> simp [Move.status]

variable {first : Status} {moves : List Move}

theorem standing_eq_pending :
    standing first moves = .pending ↔ first = .pending ∧ moves = [] := by
  rcases List.eq_nil_or_concat moves with rfl | ⟨_, move, rfl⟩
  · simp
  · simp [move.status_ne_pending]

theorem standing_eq_approved :
    standing first moves = .approved ↔
      moves = [] ∧ first = .approved ∨ ∃ init, moves = init ++ [.decided true] := by
  rcases List.eq_nil_or_concat moves with rfl | ⟨_, _, rfl⟩
  · simp
  · rw [List.concat_eq_append, standing_append, Move.status_eq_approved]
    simp

@[simp] theorem movesOf_nil : movesOf subject [] = [] := rfl

theorem movesOf_append_move (log : List Event) (subject' : Subject) (move : Move) :
    movesOf subject (log ++ [.move subject' move]) =
      movesOf subject log ++ if subject' = subject then [move] else [] := by
  unfold movesOf
  by_cases h : subject' = subject <;> simp [h]

theorem movesOf_append_self (log : List Event) (subject : Subject) (move : Move) :
    movesOf subject (log ++ [.move subject move]) = movesOf subject log ++ [move] := by
  rw [movesOf_append_move, if_pos rfl]

theorem movesOf_append_of_ne (log : List Event) (move : Move) (h : subject' ≠ subject) :
    movesOf subject (log ++ [.move subject' move]) = movesOf subject log := by
  rw [movesOf_append_move, if_neg h, List.append_nil]

@[simp] theorem movesOf_append_advanced (log : List Event) (k : Key) :
    movesOf subject (log ++ [.advanced k]) = movesOf subject log := by
  unfold movesOf
  simp

/-! ## One more move -/

theorem onceMoves_nil (first : Option Status) : OnceMoves first [] :=
  ⟨Nat.zero_le _, Nat.zero_le _, by simp, by simp⟩

theorem OnceMoves.approved {first : Option Status} (h : OnceMoves first moves)
    (hexecuted : .executed ∈ moves) : first = some .approved ∨ .decided true ∈ moves := by
  obtain ⟨before, after, hsplit⟩ := List.append_of_mem hexecuted
  refine (h.approvedFirst before after hsplit).imp_right fun hmem => ?_
  rw [hsplit]
  exact List.mem_append_left _ hmem

theorem OnceMoves.decision_unique {first : Option Status}
    (h : OnceMoves first moves) {a b : Bool} (ha : .decided a ∈ moves) (hb : .decided b ∈ moves) :
    a = b := by
  have hone := h.decided
  rw [List.countP_eq_length_filter] at hone
  have ha : .decided a ∈ moves.filter Move.isDecision := List.mem_filter.2 ⟨ha, rfl⟩
  have hb : .decided b ∈ moves.filter Move.isDecision := List.mem_filter.2 ⟨hb, rfl⟩
  match hfilter : moves.filter Move.isDecision with
  | [] => simp [hfilter] at ha
  | [only] =>
    rw [hfilter, List.mem_singleton] at ha hb
    cases ha.trans hb.symm
    rfl
  | _ :: _ :: _ => simp [hfilter] at hone

/-- **One more decision** of a record that was pending: it has to be the first move. -/
theorem onceMoves_decide (h : OnceMoves (some .pending) moves)
    (approved : Bool) : OnceMoves (some .pending) (moves ++ [.decided approved]) ↔ moves = [] := by
  constructor
  · intro hnew
    have hnone : ∀ b, .decided b ∉ moves := by
      intro b hmem
      have hpos : 0 < moves.countP Move.isDecision := List.countP_pos_iff.2 ⟨_, hmem, rfl⟩
      have hle := hnew.decided
      rw [List.countP_append, List.countP_singleton] at hle
      simp only [Move.isDecision, if_true] at hle
      omega
    refine List.eq_nil_iff_forall_not_mem.2 fun move hmem => ?_
    cases move with
    | decided b => exact hnone b hmem
    | executed => exact (h.approved hmem).elim (by simp) (hnone true)
  · rintro rfl
    refine ⟨by simp [Move.isDecision], by simp, fun before after hsplit => ?_, by simp⟩
    have hmem : Move.executed ∈ [Move.decided approved] := by
      rw [← List.nil_append [Move.decided approved], hsplit]
      exact List.mem_append_right _ List.mem_cons_self
    simp at hmem

theorem OnceMoves.of_approved
    (h : OnceMoves (some first) moves) (hpending : ∀ b, .decided b ∈ moves → first = .pending)
    (hread : standing first moves = .approved) :
    moves = [] ∧ first = .approved ∨ moves = [.decided true] := by
  refine (standing_eq_approved.1 hread).imp_right fun ⟨init, hinit⟩ => ?_
  have hone := h.decided
  rw [hinit, List.countP_append, show [Move.decided true].countP Move.isDecision = 1
    from rfl] at hone
  have hnone : ∀ b, .decided b ∉ init := fun b hmem => by
    have hpos : 0 < init.countP Move.isDecision := List.countP_pos_iff.2 ⟨_, hmem, rfl⟩
    omega
  have hnil : init = [] := by
    refine List.eq_nil_iff_forall_not_mem.2 fun move hmem => ?_
    cases move with
    | decided b => exact hnone b hmem
    | executed =>
      obtain ⟨before, after, hsplit⟩ := List.append_of_mem hmem
      have hmoves : moves = before ++ .executed :: (after ++ [.decided true]) := by
        rw [hinit, hsplit, List.append_assoc, List.cons_append]
      have hfirst := hpending true (hinit ▸ List.mem_concat_self)
      rcases h.approvedFirst _ _ hmoves with happroved | hbefore
      · simp [hfirst] at happroved
      · exact hnone true (hsplit ▸ List.mem_append_left _ hbefore)
  rw [hinit, hnil, List.nil_append]

theorem onceMoves_execute
    (h : OnceMoves (some first) moves) (hpending : ∀ b, .decided b ∈ moves → first = .pending)
    (hle : version ≤ moves.length) (hread : standing first (moves.take version) = .approved) :
    OnceMoves (some first) (moves ++ [.executed]) ↔ version = moves.length := by
  constructor
  · intro hnew
    by_contra hne
    have hrest : moves.drop version ≠ [] := by
      rw [Ne, List.drop_eq_nil_iff]
      omega
    obtain ⟨move, hmove⟩ := List.exists_mem_of_ne_nil _ hrest
    cases move with
    | executed =>
      have hpos := List.count_pos_iff.2 (List.mem_of_mem_drop hmove)
      have hone := hnew.executed
      rw [List.count_append, List.count_singleton_self] at hone
      omega
    | decided b =>
      have hfirst := hpending b (List.mem_of_mem_drop hmove)
      rcases standing_eq_approved.1 hread with ⟨-, happroved⟩ | ⟨_, hinit⟩
      · simp [hfirst] at happroved
      · have htake : 0 < (moves.take version).countP Move.isDecision :=
          List.countP_pos_iff.2 ⟨_, by rw [hinit]; exact List.mem_concat_self, rfl⟩
        have hdrop : 0 < (moves.drop version).countP Move.isDecision :=
          List.countP_pos_iff.2 ⟨_, hmove, rfl⟩
        have hone := h.decided
        rw [← List.take_append_drop version moves, List.countP_append] at hone
        omega
  · rintro rfl
    rw [List.take_length] at hread
    rcases h.of_approved hpending hread with ⟨rfl, rfl⟩ | rfl
    · exact ⟨by decide, by simp, fun _ _ _ => .inl rfl, by simp⟩
    · refine ⟨by decide, by simp, fun before after hsplit => .inr ?_, by simp⟩
      rcases before with _ | ⟨_, _⟩
      · simp at hsplit
      · obtain ⟨rfl, -⟩ := List.cons.inj hsplit
        exact List.mem_cons_self

/-! ## The log -/

/-- Decisions are of records that were pending, and flows go on after approvals. -/
structure Grounded (origin : Subject → Option Status) (log : List Event) : Prop where
  pending : ∀ subject approved, .decided approved ∈ movesOf subject log →
    origin subject = some .pending
  advanced : ∀ k, .advanced k ∈ log → .decided true ∈ movesOf (.approval k) log

theorem once_move (h : Once origin log) (hg : Grounded origin log) (move : Move) :
    Once origin (log ++ [.move subject move]) ↔
      OnceMoves (origin subject) (movesOf subject log ++ [move]) := by
  constructor
  · intro hnew
    have hmoves := hnew.moves subject
    rwa [movesOf_append_self] at hmoves
  · intro hmoves
    refine ⟨fun subject' => ?_, fun k hin hrejected => ?_⟩
    · by_cases hs : subject = subject'
      · subst hs
        rwa [movesOf_append_self]
      · rw [movesOf_append_of_ne _ _ hs]
        exact h.moves subject'
    · have hk : .advanced k ∈ log := by simpa using hin
      by_cases hs : subject = .approval k
      · subst hs
        rw [movesOf_append_self] at hrejected
        have happroved := List.mem_append_left [move] (hg.advanced k hk)
        cases hmoves.decision_unique happroved hrejected
      · rw [movesOf_append_of_ne _ _ hs] at hrejected
        exact h.notAdvanced k hk hrejected

theorem once_advanced (h : Once origin log)
    (happroved : .decided true ∈ movesOf (.approval k) log) :
    Once origin (log ++ [.advanced k]) := by
  refine ⟨fun subject' => ?_, fun k' hk hrejected => ?_⟩
  · rw [movesOf_append_advanced]
    exact h.moves subject'
  · rw [movesOf_append_advanced] at hrejected
    rcases List.mem_append.1 hk with hk | hk
    · exact h.notAdvanced k' hk hrejected
    · cases List.mem_singleton.1 hk
      cases (h.moves (.approval k)).decision_unique happroved hrejected

/-! ## The invariant -/

/-- The store agrees with what was saved. -/
structure SharedInv (s : Shared) : Prop where
  status : ∀ subject, s.records.status subject =
    (s.origin subject).map fun first => standing first (movesOf subject s.log)
  unborn : ∀ subject, s.origin subject = none → movesOf subject s.log = []
  grounded : Grounded s.origin s.log

/-- What a call holds: a copy that was pending, or approved, in its version; a decision that was
saved. -/
def Call.Ok (s : Shared) : Call → Prop
  | .saveApproval approval version _ =>
    version = 0 ∧ s.origin (.approval approval.key) = some .pending
  | .saveRequest request version _ => version = 0 ∧ s.origin (.request request.key) = some .pending
  | .saveAction action version _ => version = 0 ∧ s.origin (.action action.key) = some .pending
  | .readTool action version _ | .saveExecuted action version _ =>
    ∃ first, s.origin (.action action.key) = some first ∧ version ≤ s.version (.action action.key) ∧
      standing first ((movesOf (.action action.key) s.log).take version) = .approved
  | .readExecution approval body | .readFlow approval body _ | .settle approval body _ =>
    .decided body.approved ∈ movesOf (.approval approval.key) s.log
  | .walk approval | .saveExecution approval _ =>
    .decided true ∈ movesOf (.approval approval.key) s.log
  | _ => True

/-- More was saved. -/
structure Grows (s s' : Shared) : Prop where
  origin : ∀ subject first, s.origin subject = some first → s'.origin subject = some first
  moves : ∀ subject, movesOf subject s.log <+: movesOf subject s'.log

theorem Call.Ok.grows (h : call.Ok s) (hg : Grows s s') : call.Ok s' := by
  cases call with
  | saveApproval | saveRequest | saveAction => exact ⟨h.1, hg.origin _ _ h.2⟩
  | readTool action version _ | saveExecuted action version _ =>
    obtain ⟨first, hfirst, hle, _⟩ := h
    obtain ⟨_, hmore⟩ := hg.moves (.action action.key)
    refine ⟨first, hg.origin _ _ hfirst, ?_, ?_⟩
    · exact hle.trans (hg.moves _).length_le
    · rwa [← hmore, List.take_append_of_le_length hle]
  | readExecution | readFlow | settle | walk | saveExecution => exact (hg.moves _).subset h
  | _ => trivial

/-- What a step does: it keeps the invariant, and the promises when it is current. -/
structure Kept (s s' : Shared) (current : Prop) : Prop where
  inv : SharedInv s'
  grows : Grows s s'
  once : Once s.origin s.log → (Once s'.origin s'.log ↔ current)
  later : current → Later s s'

theorem Later.refl (s : Shared) : Later s s :=
  ⟨fun _ _ h _ => h, fun _ _ h _ => h, fun _ _ h _ => h, fun _ a h _ => ⟨a, h, .inl rfl⟩⟩

theorem kept_records (hs : SharedInv s) (records : Tables)
    (ha : records.approvals = s.records.approvals)
    (hr : records.requests = s.records.requests) (hact : records.actions = s.records.actions) :
    Kept s { s with records := records } True := by
  have hstatus : records.status = s.records.status := by
    funext subject
    cases subject <;> simp only [Tables.status, ha, hr, hact]
  refine ⟨⟨fun subject => ?_, hs.unborn, hs.grounded⟩,
    ⟨fun _ _ h => h, fun _ => List.prefix_rfl⟩, fun h => iff_true_intro h, fun _ => ?_⟩
  · exact (congrFun hstatus subject).trans (hs.status subject)
  · refine ⟨?_, ?_, ?_, ?_⟩
    · exact fun k a h _ => ha ▸ h
    · exact fun k a h _ => hr ▸ h
    · exact fun k a h _ => hact ▸ h
    · exact fun k a h _ => ⟨a, hact ▸ h, .inl rfl⟩

theorem kept_refl (hs : SharedInv s) : Kept s s True := kept_records hs s.records rfl rfl rfl

theorem grows_advanced (s : Shared) (k : Key) (subject : Subject) :
    movesOf subject s.log <+: movesOf subject (s.log ++ [.advanced k]) :=
  (movesOf_append_advanced s.log k).symm ▸ List.prefix_rfl

theorem grounded_advanced (hg : Grounded origin log)
    (happroved : .decided true ∈ movesOf (.approval k) log) :
    Grounded origin (log ++ [.advanced k]) := by
  refine ⟨fun subject b hb => ?_, fun k' hk => ?_⟩
  · rw [movesOf_append_advanced] at hb
    exact hg.pending subject b hb
  · rw [movesOf_append_advanced]
    rcases List.mem_append.1 hk with hk | hk
    · exact hg.advanced k' hk
    · cases List.mem_singleton.1 hk
      exact happroved

theorem kept_advance (hs : SharedInv s) (happroved : .decided true ∈ movesOf (.approval k) s.log)
    (execution : FlowExecution) : Kept s (s.advance k execution) True := by
  refine ⟨⟨fun subject => ?_, fun subject h => ?_, grounded_advanced hs.grounded happroved⟩,
    ⟨fun _ _ h => h, grows_advanced s k⟩, fun h => iff_true_intro (once_advanced h happroved),
    fun _ => ⟨fun _ _ h _ => h, fun _ _ h _ => h, fun _ _ h _ => h,
      fun _ a h _ => ⟨a, h, .inl rfl⟩⟩⟩
  · rw [show (s.advance k execution).log = s.log ++ [.advanced k] from rfl, movesOf_append_advanced,
      show (s.advance k execution).origin = s.origin from rfl, ← hs.status subject]
    cases subject <;> rfl
  · rw [show (s.advance k execution).log = s.log ++ [.advanced k] from rfl, movesOf_append_advanced]
    exact hs.unborn subject h

theorem kept_open (hs : SharedInv s) (happroved : .decided true ∈ movesOf (.approval k) s.log)
    (hnew : s.records.approvals.get? approval.key = none) :
    Kept s (s.openApproval k approval) True := by
  have hnone : s.origin (.approval approval.key) = none := by
    have h := hs.status (.approval approval.key)
    rw [Tables.status, hnew, Option.map_none] at h
    exact Option.map_eq_none_iff.1 h.symm
  have horigin : ∀ subject first, s.origin subject = some first →
      (s.openApproval k approval).origin subject = some first := by
    intro subject _ h
    have hne : subject ≠ .approval approval.key := by
      rintro rfl
      simp [hnone] at h
    exact (if_neg hne).trans h
  have hnil : movesOf (.approval approval.key) s.log = [] := hs.unborn _ hnone
  have hg := grounded_advanced hs.grounded happroved
  refine ⟨⟨fun subject => ?_, fun subject h => ?_, fun subject b hb => ?_, hg.advanced⟩,
    ⟨horigin, grows_advanced s k⟩, fun h => iff_true_intro ?_, fun _ => ⟨fun k' a h _ => ?_,
      fun _ _ h _ => h, fun _ _ h _ => h, fun _ a h _ => ⟨a, h, .inl rfl⟩⟩⟩
  · show _ = Option.map (fun first => standing first (movesOf subject (s.log ++ [.advanced k])))
      (if subject = .approval approval.key then some approval.status.standing else s.origin subject)
    rw [movesOf_append_advanced]
    by_cases hsub : subject = .approval approval.key
    · subst hsub
      rw [if_pos rfl, hnil]
      exact congrArg (Option.map _) (Table.get?_put_self _ _)
    · rw [if_neg hsub, ← hs.status subject]
      cases subject with
      | approval k' =>
        have hne : k' ≠ approval.key := fun hk => hsub (hk ▸ rfl)
        exact congrArg (Option.map _) (Table.get?_put_of_ne _ _ hne)
      | request | action => rfl
  · show movesOf subject (s.log ++ [.advanced k]) = []
    rw [movesOf_append_advanced]
    cases horig : s.origin subject with
    | none => exact hs.unborn subject horig
    | some first =>
      simp [horigin subject first horig] at h
  · exact horigin subject _ (hg.pending subject b hb)
  · have honce := once_advanced h happroved
    refine ⟨fun subject => ?_, honce.notAdvanced⟩
    by_cases hsub : subject = .approval approval.key
    · subst hsub
      show OnceMoves _ (movesOf _ (s.log ++ [.advanced k]))
      rw [movesOf_append_advanced, hnil]
      exact onceMoves_nil _
    · rw [show (s.openApproval k approval).origin subject = s.origin subject from if_neg hsub]
      exact honce.moves subject
  · have hne : k' ≠ approval.key := by
      rintro rfl
      simp [hnew] at h
    exact (Table.get?_put_of_ne _ _ hne).trans h

/-! ## Moves of the calls -/

section Move

variable {records : Tables} {move : Move}

/-- A save that is a move of one record. -/
structure Saves (s : Shared) (records : Tables) (subject : Subject) (move : Move) : Prop where
  status : ∀ subject', records.status subject' =
    if subject' = subject then some move.status else s.records.status subject'
  born : s.origin subject ≠ none

theorem Saves.inv (h : Saves s records subject move) (hs : SharedInv s)
    (hdecided : ∀ b, move = .decided b → s.origin subject = some .pending) :
    SharedInv (s.move records subject move) := by
  refine ⟨fun subject' => ?_, fun subject' hnone => ?_, fun subject' b hb => ?_, fun k hk => ?_⟩
  · show records.status subject' = (s.origin subject').map fun first =>
      standing first (movesOf subject' (s.log ++ [.move subject move]))
    rw [h.status subject']
    by_cases hsub : subject' = subject
    · subst hsub
      obtain ⟨_, hfirst⟩ := Option.ne_none_iff_exists'.1 h.born
      rw [if_pos rfl, movesOf_append_self, hfirst, Option.map_some, standing_append]
    · rw [if_neg hsub, movesOf_append_of_ne _ _ (Ne.symm hsub), hs.status subject']
  · have hne : subject ≠ subject' := fun heq => h.born (heq ▸ hnone)
    show movesOf subject' (s.log ++ [.move subject move]) = []
    rw [movesOf_append_of_ne _ _ hne]
    exact hs.unborn subject' hnone
  · have hb : .decided b ∈ movesOf subject' (s.log ++ [.move subject move]) := hb
    by_cases hsub : subject = subject'
    · subst hsub
      rw [movesOf_append_self] at hb
      rcases List.mem_append.1 hb with hb | hb
      · exact hs.grounded.pending subject b hb
      · exact hdecided b (List.mem_singleton.1 hb).symm
    · rw [movesOf_append_of_ne _ _ hsub] at hb
      exact hs.grounded.pending subject' b hb
  · have hk : .advanced k ∈ s.log := by simpa [Shared.move] using hk
    show .decided true ∈ movesOf (.approval k) (s.log ++ [.move subject move])
    rw [movesOf_append_move]
    exact List.mem_append_left _ (hs.grounded.advanced k hk)

theorem grows_move (s : Shared) (records : Tables) (subject : Subject) (move : Move) :
    Grows s (s.move records subject move) :=
  ⟨fun _ _ h => h, fun subject' => by
    show _ <+: movesOf subject' (s.log ++ [.move subject move])
    rw [movesOf_append_move]
    exact List.prefix_append _ _⟩

theorem kept_decide {b : Bool} (h : Saves s records subject (.decided b)) (hs : SharedInv s)
    (hpending : s.origin subject = some .pending) (hversion : version = 0)
    (hlater : s.records.status subject = some .pending →
      Later s (s.move records subject (.decided b))) :
    Kept s (s.move records subject (.decided b)) (version = s.version subject) := by
  have hiff : version = s.version subject ↔ movesOf subject s.log = [] := by
    rw [hversion, eq_comm]
    exact List.length_eq_zero_iff
  refine ⟨h.inv hs fun _ _ => hpending, grows_move _ _ _ _, fun honce => ?_, fun hcurrent => ?_⟩
  · refine (once_move honce hs.grounded _).trans ?_
    rw [hpending, hiff]
    exact onceMoves_decide (hpending ▸ honce.moves subject) b
  · refine hlater ?_
    rw [hs.status subject, hpending, hiff.1 hcurrent]
    rfl

theorem kept_execute (h : Saves s records subject .executed) (hs : SharedInv s) {first : Status}
    (hfirst : s.origin subject = some first) (hle : version ≤ s.version subject)
    (hread : standing first ((movesOf subject s.log).take version) = .approved)
    (hlater : s.records.status subject = some .approved →
      Later s (s.move records subject .executed)) :
    Kept s (s.move records subject .executed) (version = s.version subject) := by
  refine ⟨h.inv hs nofun, grows_move _ _ _ _, fun honce => ?_, fun hcurrent => ?_⟩
  · refine (once_move honce hs.grounded _).trans ?_
    rw [hfirst]
    refine onceMoves_execute (hfirst ▸ honce.moves subject) (fun b hb => ?_) hle hread
    have hpending := hs.grounded.pending subject b hb
    rw [hfirst] at hpending
    exact Option.some.inj hpending
  · refine hlater ?_
    rw [hs.status subject, hfirst, Option.map_some, ← hread, hcurrent, Shared.version,
      List.take_length]

end Move

/-! ## Saves of each table -/

theorem standing_eq_pending_iff {status : ApprovalStatus} :
    status.standing = .pending ↔ status = .pending := by
  cases status <;> simp [ApprovalStatus.standing]

theorem standing_decided (b : Bool) :
    (ApprovalStatus.decided b).standing = (Move.decided b).status := by
  cases b <;> rfl

theorem status_approval {a : FlowApproval} (h : s.records.approvals.get? k = some a) :
    s.records.status (.approval k) = some a.status.standing :=
  congrArg (Option.map _) h

theorem status_request (h : s.records.requests.get? k = some a) :
    s.records.status (.request k) = some a.status.standing :=
  congrArg (Option.map _) h

theorem status_action {a : AgentAction} (h : s.records.actions.get? k = some a) :
    s.records.status (.action k) = some a.status.standing :=
  congrArg (Option.map _) h

section Tables

variable {b : Bool} {comment principalId : String} {now : ℚ}

theorem saves_approval {a : FlowApproval} (h : s.origin (.approval a.key) ≠ none) :
    Saves s
      { s.records with
        approvals := s.records.approvals.put (a.decide b comment principalId now) }
      (.approval a.key) (.decided b) := by
  refine ⟨fun subject => ?_, h⟩
  cases subject with
  | approval k =>
    rw [← standing_decided]
    simp only [Tables.status, Table.get?_put, Subject.approval.injEq]
    by_cases hk : k = a.key <;> simp [FlowApproval.decide, hk]
  | request | action => rfl

theorem later_approval {a : FlowApproval} (h : s.records.status (.approval a.key) = some .pending) :
    Later s (s.move { s.records with
      approvals := s.records.approvals.put (a.decide b comment principalId now) }
      (.approval a.key) (.decided b)) := by
  refine ⟨fun k a' ha' hdecided => ?_, fun _ _ h _ => h, fun _ _ h _ => h,
    fun _ a h _ => ⟨a, h, .inl rfl⟩⟩
  have hne : k ≠ (a.decide b comment principalId now).key := by
    rintro rfl
    exact hdecided (standing_eq_pending_iff.1
      (Option.some.inj ((status_approval ha').symm.trans h)))
  exact (Table.get?_put_of_ne _ _ hne).trans ha'

theorem saves_request (h : s.origin (.request a.key) ≠ none) :
    Saves s
      { s.records with
        requests := s.records.requests.put (a.decide b comment principalId now) }
      (.request a.key) (.decided b) := by
  refine ⟨fun subject => ?_, h⟩
  cases subject with
  | request k =>
    rw [← standing_decided]
    simp only [Tables.status, Table.get?_put, Subject.request.injEq]
    by_cases hk : k = a.key <;> simp [ProjectLifecycleRequest.decide, hk]
  | approval | action => rfl

theorem later_request (h : s.records.status (.request a.key) = some .pending) :
    Later s (s.move { s.records with
      requests := s.records.requests.put (a.decide b comment principalId now) }
      (.request a.key) (.decided b)) := by
  refine ⟨fun _ _ h _ => h, fun k a' ha' hdecided => ?_, fun _ _ h _ => h,
    fun _ a h _ => ⟨a, h, .inl rfl⟩⟩
  have hne : k ≠ (a.decide b comment principalId now).key := by
    rintro rfl
    exact hdecided (standing_eq_pending_iff.1 (Option.some.inj ((status_request ha').symm.trans h)))
  exact (Table.get?_put_of_ne _ _ hne).trans ha'

theorem saves_action {a : AgentAction} {move : Move} (h : s.origin (.action a.key) ≠ none)
    (saved : AgentAction) (hkey : saved.key = a.key)
    (hstatus : saved.status.standing = move.status) :
    Saves s { s.records with actions := s.records.actions.put saved } (.action a.key) move := by
  refine ⟨fun subject => ?_, h⟩
  cases subject with
  | action k =>
    simp only [Tables.status, Table.get?_put, Subject.action.injEq, hkey]
    by_cases hk : k = a.key
    · simp [hk, hstatus]
    · simp [hk]
  | approval | request => rfl

theorem later_action {a : AgentAction} {move : Move} {saved : AgentAction}
    (hkey : saved.key = a.key) {st : Status} (h : s.records.status (.action a.key) = some st)
    (hopen : st = .pending ∨ st = .approved ∧ saved.status = .executed) :
    Later s (s.move { s.records with actions := s.records.actions.put saved } (.action a.key)
      move) := by
  refine ⟨fun _ _ h _ => h, fun _ _ h _ => h, fun k a' ha' hclosed => ?_,
    fun k a' ha' happroved => ?_⟩
  · have hne : k ≠ a.key := by
      rintro rfl
      have hst := Option.some.inj ((status_action ha').symm.trans h)
      rcases hopen with rfl | ⟨rfl, -⟩ <;> rcases hclosed with hclosed | hclosed <;>
        rw [hclosed] at hst <;> cases hst
    exact (Table.get?_put_of_ne _ _ (hkey ▸ hne)).trans ha'
  · by_cases hk : k = a.key
    · subst hk
      have hst := Option.some.inj ((status_action ha').symm.trans h)
      rcases hopen with rfl | ⟨rfl, hexecuted⟩
      · rw [happroved] at hst
        cases hst
      · exact ⟨saved, hkey ▸ Table.get?_put_self _ _, .inr hexecuted⟩
    · exact ⟨a', (Table.get?_put_of_ne _ _ (hkey ▸ hk)).trans ha', .inl rfl⟩

end Tables

/-! ## The calls -/

theorem version_of_pending (hs : SharedInv s) (h : s.records.status subject = some .pending) :
    s.version subject = 0 ∧ s.origin subject = some .pending := by
  rw [hs.status subject] at h
  obtain ⟨_, hfirst, hpending⟩ := Option.map_eq_some_iff.1 h
  obtain ⟨rfl, hnil⟩ := standing_eq_pending.1 hpending
  exact ⟨List.length_eq_zero_iff.2 hnil, hfirst⟩

theorem version_of_approved (hs : SharedInv s) (h : s.records.status subject = some .approved) :
    ∃ first, s.origin subject = some first ∧ s.version subject ≤ s.version subject ∧
      standing first ((movesOf subject s.log).take (s.version subject)) = .approved := by
  rw [hs.status subject] at h
  obtain ⟨first, hfirst, _⟩ := Option.map_eq_some_iff.1 h
  exact ⟨first, hfirst, le_rfl, by rwa [Shared.version, List.take_length]⟩

theorem ok_foundFlow {flow : Option FlowDefinition} {execution : FlowExecution}
    (h : .decided body.approved ∈ movesOf (.approval approval.key) s.log) :
    (foundFlow flow approval body execution).Ok s := by
  unfold foundFlow
  split
  · rename_i happroved
    split
    · trivial
    · split
      · exact h
      · split
        · exact h
        · rwa [happroved] at h
  · exact h

theorem ok_foundRequest (hs : SharedInv s) {request : Option ProjectLifecycleRequest}
    (h : ∀ r ∈ request, s.records.requests.get? r.key = some r) :
    (foundRequest s request body).Ok s := by
  unfold foundRequest
  split
  · rename_i request
    split
    · rename_i hpending
      refine version_of_pending hs ?_
      rw [Tables.status, h request rfl, Option.map_some, hpending]
      rfl
    · trivial
  · trivial

theorem ok_foundTool {tool : Option AgentTool} {action : AgentAction}
    {scopes : List String} (h : (Call.readTool action version scopes).Ok s) :
    (foundTool tool action version scopes).Ok s := by
  unfold foundTool
  split
  · split
    · trivial
    · split
      · trivial
      · exact h
  · trivial

theorem kept_quiet (hs : SharedInv s) (hcurrent : call.Current s) (hok : call'.Ok s) :
    Kept s s (call.Current s) ∧ call'.Ok s := by
  rw [eq_true hcurrent]
  exact ⟨kept_refl hs, hok⟩

theorem Kept.next (h : Kept s s' True) (hcurrent : call.Current s) (hok : call'.Ok s) :
    Kept s s' (call.Current s) ∧ call'.Ok s' := by
  rw [eq_true hcurrent]
  exact ⟨h, hok.grows h.grows⟩

theorem ne_none_of_origin {first : Status} (h : s.origin subject = some first) :
    s.origin subject ≠ none := h ▸ Option.some_ne_none _

theorem readApproval_kept (hs : SharedInv s) {approvalId : String}
    (h : stepCall inputHash r s (.readApproval scope approvalId body) = some (s', call')) :
    Kept s s' ((Call.readApproval scope approvalId body).Current s) ∧ call'.Ok s' := by
  delta stepCall at h
  dsimp only at h
  split at h
  · rename_i approval hget
    split at h <;> cases h
    · rename_i hpending
      refine kept_quiet hs trivial (version_of_pending hs ?_)
      rw [Table.key_of_get? hget, status_approval hget, hpending]
      rfl
    · exact kept_quiet hs trivial trivial
  · cases h
    exact kept_quiet hs trivial trivial

theorem settle_kept (hs : SharedInv s)
    {execution : FlowExecution} (hok : (Call.settle approval body execution).Ok s)
    (h : stepCall inputHash r s (.settle approval body execution) = some (s', call')) :
    Kept s s' ((Call.settle approval body execution).Current s) ∧ call'.Ok s' := by
  delta stepCall at h
  dsimp only at h
  split at h <;> cases h
  · rename_i happroved
    rw [Call.Ok, happroved] at hok
    exact (kept_advance hs hok _).next trivial trivial
  · refine (kept_records hs { s.records with
      executions := s.records.executions.put (execution.settle body.approved r.now) }
      rfl rfl rfl).next ?_ ?_ <;> trivial

theorem walk_kept (hs : SharedInv s) (hok : (Call.walk approval).Ok s)
    (h : stepCall inputHash r s (.walk approval) = some (s', call')) :
    Kept s s' ((Call.walk approval).Current s) ∧ call'.Ok s' := by
  delta stepCall at h
  dsimp only at h
  split at h
  · split at h
    · cases h
    · rename_i hnew
      cases h
      exact (kept_open hs hok (Option.not_isSome_iff_eq_none.1 hnew)).next trivial hok
  · cases h
    exact (kept_advance hs hok _).next trivial trivial
  all_goals
    cases h
    exact kept_quiet hs trivial trivial

theorem readRequest_kept (hs : SharedInv s) {requestId : String}
    (h : stepCall inputHash r s (.readRequest scope requestId body) = some (s', call')) :
    Kept s s' ((Call.readRequest scope requestId body).Current s) ∧ call'.Ok s' := by
  delta stepCall at h
  dsimp only at h
  split at h <;> cases h
  · rename_i request hget
    refine kept_quiet hs trivial (ok_foundRequest hs fun r hr => ?_)
    cases hr
    rwa [Table.key_of_get? hget]
  · exact kept_quiet hs trivial trivial

theorem readAction_kept (hs : SharedInv s) {actionId : String}
    (h : stepCall inputHash r s (.readAction scope actionId body) = some (s', call')) :
    Kept s s' ((Call.readAction scope actionId body).Current s) ∧ call'.Ok s' := by
  delta stepCall at h
  dsimp only at h
  split at h
  · rename_i action hget
    split at h <;> cases h
    · rename_i hpending
      refine kept_quiet hs trivial (version_of_pending hs ?_)
      rw [Table.key_of_get? hget, status_action hget, hpending]
      rfl
    · exact kept_quiet hs trivial trivial
  · cases h
    exact kept_quiet hs trivial trivial

theorem readApproved_kept (hs : SharedInv s) {actionId : String} {scopes : List String}
    (h : stepCall inputHash r s (.readApproved scope actionId scopes) = some (s', call')) :
    Kept s s' ((Call.readApproved scope actionId scopes).Current s) ∧ call'.Ok s' := by
  delta stepCall at h
  dsimp only at h
  split at h
  · rename_i action hget
    split at h <;> cases h
    · rename_i happroved
      refine kept_quiet hs trivial (version_of_approved hs ?_)
      rw [Table.key_of_get? hget, status_action hget, happroved]
      rfl
    · exact kept_quiet hs trivial trivial
  · cases h
    exact kept_quiet hs trivial trivial

theorem standing_decide (action : AgentAction) (b : Bool) (comment : String) (now : ℚ) :
    (action.decide b comment now).status.standing = (Move.decided b).status := by
  cases b <;> simp [AgentAction.decide, AgentActionStatus.standing, Move.status]

theorem stepCall_kept (hs : SharedInv s) (hok : call.Ok s)
    (h : stepCall inputHash r s call = some (s', call')) :
    Kept s s' (call.Current s) ∧ call'.Ok s' := by
  cases call with
  | readApproval => exact readApproval_kept hs h
  | saveApproval _ _ body =>
    cases h
    refine ⟨kept_decide (saves_approval (ne_none_of_origin hok.2)) hs hok.2 hok.1 later_approval,
      ?_⟩
    show .decided body.approved ∈ movesOf _ (s.log ++ [_])
    rw [movesOf_append_self]
    exact List.mem_concat_self
  | readExecution =>
    simp only [stepCall] at h
    split at h <;> cases h
    · exact kept_quiet hs trivial hok
    · exact kept_quiet hs trivial trivial
  | readFlow =>
    cases h
    exact kept_quiet hs trivial (ok_foundFlow hok)
  | settle => exact settle_kept hs hok h
  | walk => exact walk_kept hs hok h
  | saveExecution _ execution =>
    cases h
    exact (kept_advance hs hok execution).next trivial trivial
  | readRequest => exact readRequest_kept hs h
  | listRequests =>
    cases h
    refine kept_quiet hs trivial (ok_foundRequest hs fun r hr => ?_)
    have hmem := (List.perm_insertionSort _ _).mem_iff.1 (List.mem_of_find?_eq_some hr)
    exact Table.mem_values.1 (List.mem_of_mem_filter hmem)
  | saveRequest =>
    cases h
    refine ⟨kept_decide (saves_request (ne_none_of_origin hok.2)) hs hok.2 hok.1 later_request, ?_⟩
    split <;> trivial
  | readLifecycle =>
    simp only [stepCall] at h
    split at h <;> cases h
    all_goals exact kept_quiet hs trivial trivial
  | saveLifecycle record =>
    cases h
    refine (kept_records hs { s.records with lifecycle := s.records.lifecycle.put record }
      rfl rfl rfl).next ?_ ?_ <;> trivial
  | readAction => exact readAction_kept hs h
  | saveAction action =>
    cases h
    refine ⟨kept_decide (saves_action (ne_none_of_origin hok.2) (action.decide _ _ r.now) rfl
      (standing_decide action _ _ _)) hs hok.2 hok.1 fun hpending => ?_, trivial⟩
    exact later_action rfl hpending (.inl rfl)
  | readApproved => exact readApproved_kept hs h
  | readTool =>
    cases h
    exact kept_quiet hs trivial (ok_foundTool hok)
  | saveExecuted action _ tool =>
    cases h
    obtain ⟨_, hfirst, hle, hread⟩ := hok
    refine ⟨kept_execute (saves_action (ne_none_of_origin hfirst) (action.execute tool _ r.now)
      rfl rfl) hs hfirst hle hread fun happroved => ?_, trivial⟩
    exact later_action rfl happroved (.inr ⟨rfl, rfl⟩)
  | returned | raised => cases h

/-! ## Runs -/

/-- What every step keeps. -/
structure SystemInv (s : System) : Prop where
  shared : SharedInv s.shared
  calls : ∀ call ∈ s.calls, call.Ok s.shared

theorem Later.trans {a b c : Shared} (hab : Later a b) (hbc : Later b c) : Later a c where
  approvals k x h hd := hbc.approvals k x (hab.approvals k x h hd) hd
  requests k x h hd := hbc.requests k x (hab.requests k x h hd) hd
  closed k x h hd := hbc.closed k x (hab.closed k x h hd) hd
  approved k x h hd := by
    obtain ⟨y, hy, rfl | hexecuted⟩ := hab.approved k x h hd
    · exact hbc.approved k y hy hd
    · exact ⟨y, hbc.closed k y hy (.inr hexecuted), .inr hexecuted⟩

theorem step_kept {s s' : System} (hs : SystemInv s) {act : Decisions.Act}
    (h : Decisions.step inputHash s act = some s') :
    SystemInv s' ∧ (Once s.shared.origin s.shared.log →
      (Once s'.shared.origin s'.shared.log ↔ Current s act)) ∧
      (Current s act → Later s.shared s'.shared) := by
  cases act with
  | start _ request =>
    cases h
    refine ⟨⟨hs.shared, fun call hcall => ?_⟩, fun honce => iff_of_true honce trivial,
      fun _ => .refl _⟩
    rcases List.mem_append.1 hcall with hcall | hcall
    · exact hs.calls call hcall
    · rw [List.mem_singleton.1 hcall]
      cases request <;> trivial
  | advance i r =>
    obtain ⟨call, hcall, h⟩ := Option.bind_eq_some_iff.1 h
    obtain ⟨⟨shared, _⟩, hstep, h⟩ := Option.bind_eq_some_iff.1 h
    cases h
    obtain ⟨hkept, hok⟩ :=
      stepCall_kept hs.shared (hs.calls call (List.mem_of_getElem? hcall)) hstep
    have hiff : Current s (.advance i r) ↔ call.Current s.shared := by
      show (∀ c ∈ s.calls[i]?, c.Current s.shared) ↔ _
      rw [hcall]
      simp
    refine ⟨⟨hkept.inv, fun c hc => ?_⟩, fun honce => (hkept.once honce).trans hiff.symm,
      fun hcurrent => hkept.later (hiff.1 hcurrent)⟩
    rcases List.mem_or_eq_of_mem_set hc with hc | rfl
    · exact (hs.calls c hc).grows hkept.grows
    · exact hok

theorem current_of_stuck {s : System} {act : Decisions.Act}
    (h : Decisions.step inputHash s act = none) : Current s act := by
  cases act with
  | start => trivial
  | advance i r =>
    intro call hcall
    have hstuck : stepCall inputHash r s.shared call = none := by
      cases hstep : stepCall inputHash r s.shared call with
      | none => rfl
      | some p => simp [Decisions.step, show s.calls[i]? = some call from hcall, hstep] at h
    cases call <;> trivial

theorem inv_start (records : Tables) : SystemInv (.start records) := by
  refine ⟨⟨fun subject => ?_, fun _ _ => rfl, ⟨fun _ _ h => ?_, fun _ h => ?_⟩⟩, fun _ h => ?_⟩
  · show _ = Option.map _ (records.status subject)
    simp [System.start]
  all_goals cases h

theorem once_start (records : Tables) :
    Once (System.start records).shared.origin (System.start records).shared.log :=
  ⟨fun _ => onceMoves_nil _, nofun⟩

/-- **A call goes on only from a decision** that was saved, also where one is made twice, or from an
action that was created approved. -/
theorem decided_first (inputHash : Dict String Json → String) (records : Tables)
    (acts : List Decisions.Act) :
    ∀ s ∈ states (Decisions.step inputHash) (.start records) acts, SystemInv s :=
  invariant_all (fun _ _ _ hs h => (step_kept hs h).1) acts (inv_start records)

/-- **Decisions are made once** in a run, and stay, exactly when no record is saved that was saved
by another call since it was read. -/
theorem decided_once_iff (inputHash : Dict String Json → String) (records : Tables)
    (acts : List Decisions.Act) :
    ((∀ s ∈ states (Decisions.step inputHash) (.start records) acts,
        Once s.shared.origin s.shared.log) ∧
      (states (Decisions.step inputHash) (.start records) acts).Pairwise fun s t =>
        Later s.shared t.shared) ↔
      Along (Decisions.step inputHash) Current (.start records) acts := by
  have hinv := inv_start records
  have hiff : (∀ s ∈ states (Decisions.step inputHash) (.start records) acts,
      SystemInv s ∧ Once s.shared.origin s.shared.log) ↔
      Along (Decisions.step inputHash) Current (.start records) acts :=
    states_iff (I := fun s => SystemInv s ∧ Once s.shared.origin s.shared.log)
      (fun _ _ => current_of_stuck)
      (fun s act s' hs h =>
        let hstep := step_kept hs.1 h
        ⟨fun hs' => (hstep.2.1 hs.2).1 hs'.2,
          fun hcurrent => ⟨hstep.1, (hstep.2.1 hs.2).2 hcurrent⟩⟩)
      ⟨hinv, once_start records⟩
  constructor
  · rintro ⟨honce, -⟩
    have hall : ∀ s ∈ states (Decisions.step inputHash) (.start records) acts, SystemInv s :=
      invariant_states (P := fun _ _ => True) (I := SystemInv)
        (fun s act s' hs _ h => (step_kept hs h).1) hinv
        (along_of_forall (fun _ _ => trivial) (System.start records) acts)
    exact hiff.1 fun s hs => ⟨hall s hs, honce s hs⟩
  · intro h
    refine ⟨fun s hs => (hiff.2 h s hs).2, ?_⟩
    exact pairwise_states (I := SystemInv) (R := fun s t => Later s.shared t.shared)
      (fun _ _ _ => Later.trans)
      (fun s act s' hs hcurrent hstep =>
        let hkept := step_kept hs hstep
        ⟨hkept.1, hkept.2.2 hcurrent⟩) hinv h

/-- One pending approval of an execution. -/
def pendingApproval : FlowApproval := ⟨⟨⟨"t", "p"⟩, "a"⟩, "e", "gate", .pending, "", none, 0, 0⟩

/-- A store with it, and nothing else. -/
def pendingRecords : Tables where
  approvals := Table.empty.put pendingApproval
  requests := .empty
  actions := .empty
  tools := .empty
  flows := .empty
  executions := .empty
  lifecycle := .empty

/-- A reading of the clock. -/
def atTime (now : ℚ) : Reading := ⟨now, "", none⟩

/-- Two calls read the approval, one approves it and the other one rejects it. -/
def bothDecide : List Decisions.Act :=
  [.start ⟨"t", "p"⟩ (.decideFlowApproval "a" ⟨true, "", "alice"⟩),
   .start ⟨"t", "p"⟩ (.decideFlowApproval "a" ⟨false, "", "bob"⟩),
   .advance 0 (atTime 1), .advance 1 (atTime 1), .advance 0 (atTime 2), .advance 1 (atTime 3)]

theorem bothDecide_decided :
    ∃ s, exec (Decisions.step fun _ => "") (.start pendingRecords) bothDecide = some s ∧
    SystemInv s :=
  (Option.isSome_iff_exists.1 (by decide +kernel)).imp fun s h =>
    ⟨h, decided_first _ _ _ s (mem_states_of_exec h)⟩

/-- **Both decide.** -/
theorem decided_twice :
    ¬((∀ s ∈ states (Decisions.step fun _ => "") (System.start pendingRecords) bothDecide,
        Once s.shared.origin s.shared.log) ∧
      (states (Decisions.step fun _ => "") (System.start pendingRecords) bothDecide).Pairwise
        fun s t =>
        Later s.shared t.shared) := by
  rintro ⟨honce, -⟩
  obtain ⟨s, hexec, hmoves⟩ := Option.map_eq_some_iff.1
    (show (exec (Decisions.step fun _ => "") (System.start pendingRecords) bothDecide).map (fun s =>
      movesOf (.approval ⟨⟨"t", "p"⟩, "a"⟩) s.shared.log) =
        some [.decided true, .decided false] by decide +kernel)
  have hone := ((honce s (mem_states_of_exec hexec)).moves (.approval ⟨⟨"t", "p"⟩, "a"⟩)).decided
  rw [hmoves] at hone
  exact absurd hone (by decide)

end Scenara.ControlPlane

import Mathlib.Data.List.Lex
import Mathlib.Data.List.Sort
import Mathlib.Data.Prod.Lex
import Mathlib.Order.Nat
import Scenara.Core.Dict

/-!
# Topological order by a queue

`kahn` is Kahn's algorithm with a FIFO queue: the nodes without dependencies first, sorted; then,
for each node taken from the queue, its children in sorted order, each appended when its last
dependency is discarded. Sets are lists without duplicates, `dependencies` and `children` are
dictionaries of sets that answer `[]` for a key they do not have (`members`).

A chain that ends in `n` is a path of dependencies `x₁, …, xₖ = n` (`Chain`). Chains are compared by
length first, then alphabetically (`rank`).
-/

namespace Scenara.Core

variable {K : Type*} [LinearOrder K]
variable {p q : List K} {m n : K}

/-! ## The algorithm -/

/-- `d[k]`, of a `defaultdict(set)`. -/
def members (d : Dict K (List K)) (k : K) : List K := (d.get? k).getD []

/-- `d[k].add(v)`. -/
def addMember (d : Dict K (List K)) (k v : K) : Dict K (List K) :=
  d.insert k (if v ∈ members d k then members d k else members d k ++ [v])

/-- `d[k].discard(v)`. -/
def discardMember (d : Dict K (List K)) (k v : K) : Dict K (List K) :=
  d.insert k ((members d k).erase v)

/-- `sorted(xs)`. -/
def sorted (xs : List K) : List K := xs.insertionSort (· ≤ ·)

/-- The body of the loop over the children of `current`. -/
def release (current : K) (s : Dict K (List K) × List K) (child : K) : Dict K (List K) × List K :=
  let dependencies := discardMember s.1 child current
  (dependencies, if members dependencies child = [] then s.2 ++ [child] else s.2)

/-- `while queue: ...`; the fuel bounds the number of turns. -/
def kahnLoop (children : Dict K (List K)) :
    Nat → Dict K (List K) → List K → List K → List K
  | 0, _, _, order => order
  | _ + 1, _, [], order => order
  | fuel + 1, dependencies, current :: queue, order =>
    let s := (sorted (members children current)).foldl (release current) (dependencies, queue)
    kahnLoop children fuel s.1 s.2 (order ++ [current])

/-- The order in which the nodes leave the queue. -/
def kahn (nodes : List K) (dependencies children : Dict K (List K)) : List K :=
  kahnLoop children (nodes.length + 1) dependencies
    (sorted (nodes.filter fun n => members dependencies n = [])) []

/-! ## Dictionaries of sets -/

theorem members_addMember (d : Dict K (List K)) (k v a : K) :
    members (addMember d k v) a =
      if a = k then (if v ∈ members d k then members d k else members d k ++ [v])
        else members d a := by
  unfold addMember
  rw [members, Dict.get?_insert]
  by_cases h : a = k
  · rw [if_pos h, if_pos h, Option.getD_some]
  · rw [if_neg h, if_neg h, members]

theorem mem_addMember (d : Dict K (List K)) (k v a b : K) :
    b ∈ members (addMember d k v) a ↔ a = k ∧ b = v ∨ b ∈ members d a := by
  rw [members_addMember]
  by_cases h : a = k
  · subst h
    by_cases hv : v ∈ members d a
    · rw [if_pos rfl, if_pos hv]
      exact ⟨.inr, fun hb => hb.elim (fun hb => hb.2 ▸ hv) id⟩
    · rw [if_pos rfl, if_neg hv, List.mem_append, List.mem_singleton]
      exact ⟨fun hb => hb.elim .inr fun hb => .inl ⟨rfl, hb⟩, fun hb => hb.elim (.inr ·.2) .inl⟩
  · simp [h]

theorem nodup_addMember {d : Dict K (List K)} (k v : K) (h : ∀ a, (members d a).Nodup) (a : K) :
    (members (addMember d k v) a).Nodup := by
  rw [members_addMember]
  by_cases hk : a = k
  · by_cases hv : v ∈ members d k
    · rw [if_pos hk, if_pos hv]
      exact h k
    · rw [if_pos hk, if_neg hv]
      exact List.Nodup.append (h k) (List.nodup_singleton v) (by simpa using hv)
  · rw [if_neg hk]
    exact h a

theorem members_discardMember (d : Dict K (List K)) (k v a : K) :
    members (discardMember d k v) a = if a = k then (members d k).erase v else members d a := by
  unfold discardMember
  rw [members, Dict.get?_insert]
  by_cases h : a = k
  · rw [if_pos h, if_pos h, Option.getD_some]
  · rw [if_neg h, if_neg h, members]

theorem mem_sorted {xs : List K} {a : K} : a ∈ sorted xs ↔ a ∈ xs :=
  (xs.perm_insertionSort _).mem_iff

theorem sorted_pairwise {xs : List K} (h : xs.Nodup) : (sorted xs).Pairwise (· < ·) := by
  have hle : (sorted xs).Pairwise (· ≤ ·) := xs.pairwise_insertionSort _
  have hne : (sorted xs).Nodup := (xs.perm_insertionSort _).nodup_iff.2 h
  exact (hle.and hne).imp fun h => lt_of_le_of_ne h.1 h.2

/-! ## Chains of dependencies -/

/-- A path of dependencies that ends in a node. -/
inductive Chain (dep : K → K → Prop) : List K → K → Prop
  | single (n : K) : Chain dep [n] n
  | snoc {p : List K} {m n : K} : Chain dep p m → dep m n → Chain dep (p ++ [n]) n

/-- Shorter chains first, chains of one length alphabetically. -/
def rank (p : List K) : ℕ ×ₗ List K := toLex (p.length, p)

/-- **`m` before `n`**: every chain that ends in `m` is below some chain that ends in `n`. -/
def Before (dep : K → K → Prop) (m n : K) : Prop :=
  ∀ p, Chain dep p m → ∃ q, Chain dep q n ∧ rank p < rank q

/-- The greatest chain that ends in `n`. -/
def Greatest (dep : K → K → Prop) (p : List K) (n : K) : Prop :=
  Chain dep p n ∧ ∀ q, Chain dep q n → rank q ≤ rank p

theorem rank_lt : rank p < rank q ↔ p.length < q.length ∨ p.length = q.length ∧ p < q :=
  Prod.Lex.lt_iff

theorem rank_lt_snoc (p : List K) (a : K) : rank p < rank (p ++ [a]) := by
  rw [rank_lt, List.length_append, List.length_singleton]
  exact .inl (Nat.lt_succ_self _)

theorem snoc_lt_snoc_of_lt (a b : K) (hlen : p.length = q.length) (h : p < q) :
    p ++ [a] < q ++ [b] := by
  induction p generalizing q with
  | nil =>
    cases q with
    | nil => exact absurd h (lt_irrefl _)
    | cons y q => exact absurd hlen (by simp)
  | cons x p ih =>
    cases q with
    | nil => exact absurd hlen (by simp)
    | cons y q =>
      rw [List.cons_append, List.cons_append, List.cons_lt_cons_iff]
      rcases List.cons_lt_cons_iff.1 h with hxy | ⟨rfl, hpq⟩
      · exact .inl hxy
      · exact .inr ⟨rfl, ih (by simpa using hlen) hpq⟩

theorem rank_snoc_lt (a b : K) (h : rank p < rank q) : rank (p ++ [a]) < rank (q ++ [b]) := by
  rw [rank_lt, List.length_append, List.length_append, List.length_singleton, List.length_singleton]
  rcases rank_lt.1 h with h | ⟨hlen, h⟩
  · exact .inl (Nat.add_lt_add_right h 1)
  · exact .inr ⟨by rw [hlen], snoc_lt_snoc_of_lt a b hlen h⟩

theorem append_lt_append (p : List K) {a b : K} (h : a < b) : p ++ [a] < p ++ [b] := by
  induction p with
  | nil => exact List.cons_lt_cons_iff.2 (.inl h)
  | cons x p ih => exact List.cons_lt_cons_iff.2 (.inr ⟨rfl, ih⟩)

theorem rank_snoc_lt_snoc (p : List K) {a b : K} (h : a < b) :
    rank (p ++ [a]) < rank (p ++ [b]) := by
  rw [rank_lt]
  exact .inr ⟨by simp, append_lt_append p h⟩

variable {dep : K → K → Prop}

omit [LinearOrder K] in
/-- A chain is its last node alone, or extends a chain of a dependency. -/
theorem chain_cases {p : List K} {n : K} (h : Chain dep p n) :
    p = [n] ∨ ∃ q m, Chain dep q m ∧ dep m n ∧ p = q ++ [n] := by
  cases h with
  | single => exact .inl rfl
  | snoc hq hd => exact .inr ⟨_, _, hq, hd, rfl⟩

theorem rank_single_lt_snoc {p : List K} {m : K} (hp : Chain dep p m) (a b : K) :
    rank [a] < rank (p ++ [b]) := by
  have hpos : 0 < p.length := by
    rcases chain_cases hp with rfl | ⟨_, _, -, -, rfl⟩ <;> simp
  refine rank_lt.2 (.inl ?_)
  rw [List.length_append, List.length_singleton, List.length_singleton]
  exact Nat.lt_add_of_pos_left hpos

theorem before_of_greatest (hp : Greatest dep p m)
    (hq : Chain dep q n) (h : rank p < rank q) : Before dep m n :=
  fun r hr => ⟨q, hq, lt_of_le_of_lt (hp.2 r hr) h⟩

theorem before_of_dep (h : dep m n) : Before dep m n :=
  fun p hp => ⟨p ++ [n], .snoc hp h, rank_lt_snoc p n⟩

theorem Before.trans {l m n : K} (hlm : Before dep l m) (hmn : Before dep m n) : Before dep l n :=
  fun p hp => by
    obtain ⟨q, hq, hpq⟩ := hlm p hp
    obtain ⟨r, hr, hqr⟩ := hmn q hq
    exact ⟨r, hr, lt_trans hpq hqr⟩

theorem not_before_self {p : List K} {n : K} (hp : Greatest dep p n) : ¬Before dep n n := by
  intro h
  obtain ⟨q, hq, hlt⟩ := h p hp.1
  exact absurd (lt_of_lt_of_le hlt (hp.2 q hq)) (lt_irrefl _)

/-! ## One turn -/

theorem foldl_release (current : K) {cs : List K} (hcs : cs.Nodup) (d : Dict K (List K))
    (queue : List K) :
    (∀ n, members (cs.foldl (release current) (d, queue)).1 n =
        if n ∈ cs then (members d n).erase current else members d n) ∧
      (cs.foldl (release current) (d, queue)).2 =
        queue ++ cs.filter fun c => (members d c).erase current = [] := by
  induction cs generalizing d queue with
  | nil => simp
  | cons c cs ih =>
    obtain ⟨hc, hcs⟩ := List.nodup_cons.1 hcs
    have hstep : release current (d, queue) c = (discardMember d c current,
        if (members d c).erase current = [] then queue ++ [c] else queue) := by
      unfold release
      simp only [members_discardMember, if_pos]
    obtain ⟨hm, hq⟩ := ih hcs (discardMember d c current)
      (if (members d c).erase current = [] then queue ++ [c] else queue)
    rw [List.foldl_cons, hstep]
    refine ⟨fun n => ?_, ?_⟩
    · rw [hm n, members_discardMember]
      by_cases hnc : n = c
      · subst hnc
        simp [hc]
      · simp [hnc]
    · have hrest : (cs.filter fun a => (members (discardMember d c current) a).erase current = []) =
          cs.filter fun a => (members d a).erase current = [] := by
        refine List.filter_congr fun a ha => ?_
        have hac : a ≠ c := fun h => hc (h ▸ ha)
        rw [members_discardMember, if_neg hac]
      rw [hq, hrest]
      by_cases hnil : (members d c).erase current = []
      · rw [if_pos hnil, List.filter_cons_of_pos (by simpa using hnil), List.append_assoc,
          List.singleton_append]
      · rw [if_neg hnil, List.filter_cons_of_neg (by simpa using hnil)]

/-! ## The loop -/

/-- The two dictionaries describe one graph on the nodes. -/
structure Linked (nodes : List K) (dependencies children : Dict K (List K)) : Prop where
  nodup : nodes.Nodup
  dependencies_nodup : ∀ n, (members dependencies n).Nodup
  children_nodup : ∀ n, (members children n).Nodup
  mem_children : ∀ m n, n ∈ members children m ↔ m ∈ members dependencies n
  child_mem : ∀ m n, m ∈ members dependencies n → n ∈ nodes

/-- `m` is a dependency of `n`. -/
def DependsOn (dependencies : Dict K (List K)) (m n : K) : Prop := m ∈ members dependencies n

/-- The greatest chains of two nodes, compared. -/
def Lower (dep : K → K → Prop) (m n : K) : Prop :=
  ∃ p q, Greatest dep p m ∧ Greatest dep q n ∧ rank p < rank q

/-- What holds before every turn, of the nodes that left the queue and of those in it. -/
structure Ordered (nodes : List K) (dependencies left : Dict K (List K)) (queue order : List K) :
    Prop where
  rising : (order ++ queue).Pairwise (Lower (DependsOn dependencies))
  greatest : ∀ n ∈ order ++ queue, ∃ p, Greatest (DependsOn dependencies) p n
  known : ∀ n ∈ order ++ queue, n ∈ nodes
  met : ∀ n ∈ order ++ queue, ∀ m ∈ members dependencies n, m ∈ order
  complete : ∀ n ∈ nodes, (∀ m ∈ members dependencies n, m ∈ order) → n ∈ order ++ queue
  left_eq : ∀ n, members left n = (members dependencies n).filter (· ∉ order)

variable {nodes : List K} {dependencies children left : Dict K (List K)} {queue order : List K}

theorem greatest_unique {n : K} (hp : Greatest dep p n) (hq : Greatest dep q n) : rank p = rank q :=
  le_antisymm (hq.2 p hp.1) (hp.2 q hq.1)

theorem Lower.before (h : Lower dep m n) : Before dep m n := by
  obtain ⟨p, q, hp, hq, hlt⟩ := h
  exact before_of_greatest hp hq.1 hlt

theorem Lower.trans {l m n : K} (hlm : Lower dep l m) (hmn : Lower dep m n) : Lower dep l n := by
  obtain ⟨p, q, hp, hq, hpq⟩ := hlm
  obtain ⟨_, r, hq', hr, hqr⟩ := hmn
  exact ⟨p, r, hp, hr, lt_trans (lt_of_lt_of_eq hpq (greatest_unique hq hq')) hqr⟩

theorem Lower.ne (h : Lower dep m n) : m ≠ n := by
  rintro rfl
  obtain ⟨p, q, hp, hq, hlt⟩ := h
  exact absurd hlt (not_lt_of_ge (hp.2 q hq.1))

theorem Ordered.nodup (h : Ordered nodes dependencies left queue order) :
    (order ++ queue).Nodup :=
  h.rising.imp Lower.ne

theorem ordered_init (hl : Linked nodes dependencies children) :
    Ordered nodes dependencies dependencies
      (sorted (nodes.filter fun n => members dependencies n = [])) [] := by
  have hroot : ∀ n, n ∈ sorted (nodes.filter fun n => members dependencies n = []) ↔
      n ∈ nodes ∧ members dependencies n = [] := by
    intro n
    rw [mem_sorted, List.mem_filter]
    simp
  have hgreatest : ∀ n, members dependencies n = [] → Greatest (DependsOn dependencies) [n] n := by
    intro n hn
    refine ⟨.single n, fun q hq => ?_⟩
    rcases chain_cases hq with rfl | ⟨_, m, -, hm, -⟩
    · exact le_refl _
    · unfold DependsOn at hm
      rw [hn] at hm
      exact absurd hm List.not_mem_nil
  refine ⟨?_, fun n hn => ?_, fun n hn => ?_, fun n hn m hm => ?_, fun n hn hmet => ?_, fun n => ?_⟩
  · have hlt := sorted_pairwise (hl.nodup.filter fun n => decide (members dependencies n = []))
    refine List.Pairwise.imp_of_mem (fun {a b} ha hb hab => ?_) hlt
    exact ⟨[a], [b], hgreatest a ((hroot a).1 ha).2, hgreatest b ((hroot b).1 hb).2,
      rank_snoc_lt_snoc [] hab⟩
  · exact ⟨[n], hgreatest n ((hroot n).1 hn).2⟩
  · exact ((hroot n).1 hn).1
  · rw [((hroot n).1 hn).2] at hm
    exact absurd hm List.not_mem_nil
  · refine (hroot n).2 ⟨hn, List.eq_nil_iff_forall_not_mem.2 fun m hm => ?_⟩
    exact absurd (hmet m hm) List.not_mem_nil
  · simp

section Turn

variable {current : K} (hl : Linked nodes dependencies children)
  (h : Ordered nodes dependencies left (current :: queue) order)

include h

theorem greatest_released {p : List K} (hp : Greatest (DependsOn dependencies) p current) {c : K}
    (hc : current ∈ members dependencies c)
    (hmet : ∀ m ∈ members dependencies c, m ∈ order ++ [current]) :
    Greatest (DependsOn dependencies) (p ++ [c]) c := by
  refine ⟨.snoc hp.1 hc, fun q hq => ?_⟩
  rcases chain_cases hq with rfl | ⟨q, m, hqm, hm, rfl⟩
  · exact le_of_lt (rank_single_lt_snoc hp.1 c c)
  · rcases List.mem_append.1 (hmet m hm) with hm' | hm'
    · have hlow : Lower (DependsOn dependencies) m current :=
        (List.pairwise_append.1 h.rising).2.2 m hm' current List.mem_cons_self
      obtain ⟨_, _, hpm, hpc, hlt⟩ := hlow
      have hqp : rank q < rank p :=
        lt_of_le_of_lt (hpm.2 q hqm) (lt_of_lt_of_eq hlt (greatest_unique hpc hp))
      exact le_of_lt (rank_snoc_lt c c hqp)
    · rw [List.mem_singleton] at hm'
      subst hm'
      rcases eq_or_lt_of_le (hp.2 q hqm) with heq | hlt
      · have hqp : q = p := congrArg Prod.snd (toLex.injective heq)
        rw [hqp]
      · exact le_of_lt (rank_snoc_lt c c hlt)

theorem lower_released {p : List K} (hp : Greatest (DependsOn dependencies) p current) {b c : K}
    (hb : b ∈ queue) (hc : Greatest (DependsOn dependencies) (p ++ [c]) c) :
    Lower (DependsOn dependencies) b c := by
  obtain ⟨q, hq⟩ := h.greatest b (by simp [hb])
  refine ⟨q, p ++ [c], hq, hc, ?_⟩
  rcases chain_cases hq.1 with rfl | ⟨q, m, hqm, hm, rfl⟩
  · exact rank_single_lt_snoc hp.1 b c
  · have hmo : m ∈ order := h.met b (by simp [hb]) m hm
    obtain ⟨_, _, hpm, hpc, hlt⟩ :=
      (List.pairwise_append.1 h.rising).2.2 m hmo current List.mem_cons_self
    have hqp : rank q < rank p :=
      lt_of_le_of_lt (hpm.2 q hqm) (lt_of_lt_of_eq hlt (greatest_unique hpc hp))
    exact rank_snoc_lt b c hqp

include hl

theorem mem_released {c : K} :
    c ∈ (sorted (members children current)).filter
        (fun c => (members left c).erase current = []) ↔
      current ∈ members dependencies c ∧ ∀ m ∈ members dependencies c, m ∈ order ++ [current] := by
  rw [List.mem_filter, mem_sorted, hl.mem_children, decide_eq_true_iff]
  refine and_congr_right fun _ => ?_
  rw [h.left_eq, ((hl.dependencies_nodup c).filter _).erase_eq_filter, List.filter_filter,
    List.filter_eq_nil_iff]
  refine forall₂_congr fun m _ => ?_
  simp only [bne_iff_ne, ne_eq, decide_not, Bool.and_eq_true, Bool.not_eq_eq_eq_not, Bool.not_true,
    decide_eq_false_iff_not, List.mem_append, List.mem_singleton]
  tauto

theorem ordered_turn :
    Ordered nodes dependencies
      ((sorted (members children current)).foldl (release current) (left, queue)).1
      ((sorted (members children current)).foldl (release current) (left, queue)).2
      (order ++ [current]) := by
  have hsorted : (sorted (members children current)).Nodup :=
    ((members children current).perm_insertionSort _).nodup_iff.2 (hl.children_nodup current)
  obtain ⟨hleft, hqueue⟩ := foldl_release current hsorted left queue
  rw [hqueue]
  set released := (sorted (members children current)).filter
    (fun c => (members left c).erase current = []) with hreleased
  have hmem : ∀ c, c ∈ released ↔ current ∈ members dependencies c ∧
      ∀ m ∈ members dependencies c, m ∈ order ++ [current] := fun c => mem_released hl h
  obtain ⟨p, hp⟩ := h.greatest current (by simp)
  have hgreatest : ∀ c ∈ released, Greatest (DependsOn dependencies) (p ++ [c]) c := fun c hc =>
    greatest_released h hp ((hmem c).1 hc).1 ((hmem c).1 hc).2
  have happend : (order ++ [current]) ++ (queue ++ released) =
      (order ++ current :: queue) ++ released := by simp
  have hold : ∀ n, n ∈ (order ++ [current]) ++ (queue ++ released) ↔
      n ∈ order ++ current :: queue ∨ n ∈ released := by
    intro n
    rw [happend, List.mem_append]
  refine ⟨?_, fun n hn => ?_, fun n hn => ?_, fun n hn m hm => ?_, fun n hn hmet => ?_, fun n => ?_⟩
  · rw [happend, List.pairwise_append]
    refine ⟨h.rising, ?_, fun a ha c hc => ?_⟩
    · have hlt := (sorted_pairwise (hl.children_nodup current)).filter
        fun c => decide ((members left c).erase current = [])
      exact hlt.imp_of_mem fun {a b} ha hb hab =>
        ⟨p ++ [a], p ++ [b], hgreatest a ha, hgreatest b hb, rank_snoc_lt_snoc p hab⟩
    · have hcur : Lower (DependsOn dependencies) current c :=
        ⟨p, p ++ [c], hp, hgreatest c hc, rank_lt_snoc p c⟩
      rcases List.mem_append.1 ha with ha | ha
      · exact ((List.pairwise_append.1 h.rising).2.2 a ha current List.mem_cons_self).trans hcur
      · rcases List.mem_cons.1 ha with rfl | ha
        · exact hcur
        · exact lower_released h hp ha (hgreatest c hc)
  · rcases (hold n).1 hn with hn | hn
    · exact h.greatest n hn
    · exact ⟨p ++ [n], hgreatest n hn⟩
  · rcases (hold n).1 hn with hn | hn
    · exact h.known n hn
    · exact hl.child_mem current n ((hmem n).1 hn).1
  · rcases (hold n).1 hn with hn | hn
    · exact List.mem_append_left _ (h.met n hn m hm)
    · exact ((hmem n).1 hn).2 m hm
  · refine (hold n).2 ?_
    by_cases hc : current ∈ members dependencies n
    · exact .inr ((hmem n).2 ⟨hc, hmet⟩)
    · refine .inl (h.complete n hn fun m hm => ?_)
      rcases List.mem_append.1 (hmet m hm) with hmo | hmo
      · exact hmo
      · exact absurd (List.mem_singleton.1 hmo ▸ hm) hc
  · have hchild : n ∈ sorted (members children current) ↔ current ∈ members dependencies n := by
      rw [mem_sorted, hl.mem_children]
    rw [hleft, h.left_eq]
    by_cases hc : current ∈ members dependencies n
    · rw [if_pos (hchild.2 hc), ((hl.dependencies_nodup n).filter _).erase_eq_filter,
        List.filter_filter]
      refine List.filter_congr fun m _ => ?_
      by_cases hmc : m = current <;> simp [hmc]
    · rw [if_neg fun hm => hc (hchild.1 hm)]
      refine List.filter_congr fun m hm => ?_
      have hne : m ≠ current := fun heq => hc (heq ▸ hm)
      simp [hne]

end Turn

section

variable (hl : Linked nodes dependencies children)
include hl

theorem ordered_loop (fuel : Nat)
    (h : Ordered nodes dependencies left queue order) (hfuel : nodes.length < order.length + fuel) :
    ∃ left', Ordered nodes dependencies left' [] (kahnLoop children fuel left queue order) := by
  induction fuel generalizing left queue order with
  | zero =>
    have hsub := (List.subperm_of_subset h.nodup h.known).length_le
    rw [List.length_append] at hsub
    omega
  | succ _ ih =>
    cases queue with
    | nil => exact ⟨left, h⟩
    | cons =>
      exact ih (ordered_turn hl h) (by rw [List.length_append, List.length_singleton]; omega)

/-- **Kahn's algorithm**: the nodes come in the order of their greatest chains, each after all its
dependencies, and every node whose dependencies all come is there. -/
theorem kahn_sound :
    ∃ left, Ordered nodes dependencies left [] (kahn nodes dependencies children) :=
  ordered_loop hl _ (ordered_init hl) (by simp)

theorem kahn_nodup : (kahn nodes dependencies children).Nodup := by
  obtain ⟨_, h⟩ := kahn_sound hl
  simpa using h.nodup

theorem kahn_perm (hlen : (kahn nodes dependencies children).length = nodes.length) :
    (kahn nodes dependencies children).Perm nodes := by
  obtain ⟨_, h⟩ := kahn_sound hl
  have hsub : (kahn nodes dependencies children) ⊆ nodes :=
    fun n hn => h.known n (by simpa using hn)
  exact (List.subperm_of_subset (kahn_nodup hl) hsub).perm_of_length_le hlen.ge

/-- `m` comes before `n` **iff** every chain that ends in `m` is below one that ends in `n`. -/
theorem precedes_iff {pre post : List K}
    (hsplit : kahn nodes dependencies children = pre ++ n :: post)
    (hm : m ∈ kahn nodes dependencies children) :
    m ∈ pre ↔ Before (DependsOn dependencies) m n := by
  obtain ⟨_, h⟩ := kahn_sound hl
  have hrising := h.rising
  rw [List.append_nil, hsplit, List.pairwise_append, List.pairwise_cons] at hrising
  obtain ⟨-, ⟨hpost, -⟩, hcross⟩ := hrising
  constructor
  · exact fun hpre => (hcross m hpre n List.mem_cons_self).before
  · intro hbefore
    have hno : ∀ a, a = n ∨ Lower (DependsOn dependencies) n a →
        ¬Before (DependsOn dependencies) a n := by
      intro a ha hlt
      obtain ⟨p, hp⟩ := h.greatest n (by rw [hsplit]; simp)
      rcases ha with rfl | ha
      · exact not_before_self hp hlt
      · exact not_before_self hp (ha.before.trans hlt)
    rw [hsplit, List.mem_append, List.mem_cons] at hm
    rcases hm with hm | rfl | hm
    · exact hm
    · exact absurd hbefore (hno m (.inl rfl))
    · exact absurd hbefore (hno m (.inr (hpost m hm)))

end

end Scenara.Core

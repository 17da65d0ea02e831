import Scenara.Index.Agreed

/-!
# Searching indexes

Model of `SearchService.text` and `SearchService.portrait_image` (`platform/search.py`) over the
index store in memory.

What the state store, the profile resolver and the encoder answer is given with the call (`Context`,
`PortraitRequest.encoded`).
-/

namespace Scenara.Search

open Scenara.Core
open Index (IndexDefinition IndexHit IndexSourceRef Store)

/-! ## Requests -/

/-- `MediaKind`. -/
inductive MediaKind where
  | image | video | document | stream
  deriving DecidableEq

/-- The fields of a `MediaAsset` that are read. -/
structure MediaAsset where
  kind : MediaKind
  filename : Option String
  deletedAt : Option ℚ

/-- A `limit`, from 1 to 200. -/
abbrev Limit := {n : Nat // 1 ≤ n ∧ n ≤ 200}

/-- `SearchTextRequest`. -/
structure SearchTextRequest where
  query : String
  profileId : Option String
  domains : List String
  mediaKinds : List MediaKind
  limit : Limit

/-- `PortraitEmbedding`. -/
structure PortraitEmbedding where
  embedding : List Scalar
  featureSpaceId : String
  modelId : String
  modelVersion : String

/-- The arguments of `portrait_image`, with what the image is encoded to. -/
structure PortraitRequest where
  encoded : PortraitEmbedding
  featureSpaceId : Option String
  profileId : Option String
  mediaKinds : List MediaKind
  limit : Limit
  threshold : Option ℚ

/-- What the searches read. -/
structure Context where
  tenantId : String
  projectId : String
  store : Store
  valid : Index.Valid store
  /-- `get_asset`, in the project. -/
  getAsset : String → Option MediaAsset
  /-- The name of what `get_source` returns, in the project. -/
  getSource : String → Option String
  /-- The weights of a profile of `profile_resolver`, if there is one. -/
  getSearchProfile : Option (String → Option (ℚ × ℚ))
  casefold : String → String
  geometry : Geometry

/-- What a search raises. -/
inductive Error where
  | valueError (message : String)
  | index (e : Index.Error)
  deriving DecidableEq

/-- `SearchResultHit`. -/
structure SearchResultHit where
  recordId : String
  indexId : String
  domain : String
  source : IndexSourceRef
  score : ℚ
  distance : Option ℚ
  textSnippet : Option String
  metadata : List (String × Json)
  mediaKind : Option MediaKind
  resourceName : Option String

namespace Context

variable (c : Context)

/-! ## Hits -/

/-- The asset of a hit, if it is not deleted. -/
def assetOf (hit : IndexHit) : Option MediaAsset :=
  match hit.source.assetId with
  | none | some "" => none
  | some assetId => (c.getAsset assetId).filter fun asset => asset.deletedAt = none

/-- The name of the source of a hit. -/
def sourceOf (hit : IndexHit) : Option String :=
  match hit.metadata.lookup "source_id" with
  | some (.str "") => none
  | some (.str sourceId) => c.getSource sourceId
  | _ => none

/-- The media kind of a hit, and the name of its asset or source. -/
def mediaOf (hit : IndexHit) : Option MediaKind × Option String :=
  match c.assetOf hit with
  | some asset => (some asset.kind, asset.filename)
  | none =>
    match c.sourceOf hit with
    | some name => (some .stream, some name)
    | none =>
      if hit.source.ptsMs.isSome then (some .video, none)
      else if hit.source.pageNumber.isSome then (some .document, none)
      else (none, none)

/-- `_enrich`. -/
def enrich (hit : IndexHit) : SearchResultHit where
  recordId := hit.recordId
  indexId := hit.indexId
  domain := hit.domain
  source := hit.source
  score := hit.score
  distance := hit.distance
  textSnippet := hit.textSnippet
  metadata := hit.metadata
  mediaKind := (c.mediaOf hit).1
  resourceName := (c.mediaOf hit).2

/-- The enriched hit, with the weight of the profile. -/
def weigh (weight : ℚ) (hit : IndexHit) : SearchResultHit :=
  { c.enrich hit with score := (c.enrich hit).score * weight }

/-- The media filter lets the hit pass. -/
def wanted (mediaKinds : List MediaKind) (hit : SearchResultHit) : Bool :=
  mediaKinds.isEmpty || hit.mediaKind.any (· ∈ mediaKinds)

/-- What is kept of the hits of an index. -/
def keep (weight : ℚ) (mediaKinds : List MediaKind) (hits : List IndexHit) : List SearchResultHit :=
  (hits.map (c.weigh weight)).filter (wanted mediaKinds)

/-- `(-score, distance, record_id)`. -/
def before (x y : SearchResultHit) : Prop :=
  y.score < x.score ∨ (x.score = y.score ∧ (x.distance.getD 0 < y.distance.getD 0 ∨
    (x.distance.getD 0 = y.distance.getD 0 ∧ x.recordId ≤ y.recordId)))
  deriving Decidable

/-- `_sort_hits`. -/
def sortHits (hits : List SearchResultHit) : List SearchResultHit := hits.insertionSort before

/-- `_profile`: `exact_weight` and `vector_weight`. -/
def profile (profileId : Option String) : Except Error (ℚ × ℚ) :=
  match profileId, c.getSearchProfile with
  | some profileId, some getSearchProfile =>
    match getSearchProfile profileId with
    | none => .error (.valueError "search ranking profile not found")
    | some weights => .ok weights
  | _, _ => .ok (1, 1)

/-! ## Indexes -/

/-- `list_indexes`. -/
def listIndexes : List IndexDefinition :=
  (c.store.indexes.entries.map Prod.snd).insertionSort fun x y => x.indexId ≤ y.indexId

/-- `index_id.startswith("result.")`. -/
def isResult (indexId : String) : Bool := "result.".toList.isPrefixOf indexId.toList

/-- `value.replace("/", ".")`. -/
def safe (value : String) :
    String := String.ofList (value.toList.map fun ch => if ch = '/' then '.' else ch)

/-- The indexes that are searched for a text. -/
def textIndexes (request : SearchTextRequest) : List String :=
  (c.listIndexes.filter fun definition => isResult definition.indexId &&
    (request.domains.isEmpty || definition.domain ∈ request.domains) &&
      definition.recordKind ≠ .vector).map IndexDefinition.indexId

/-- The text of the item is added unless it is there. -/
def addCandidate (ids : List String) (indexId : String) : List String :=
  if indexId ∈ ids then ids else ids ++ [indexId]

/-- `selected_space`. -/
def selectedSpace (request : PortraitRequest) : String :=
  match request.featureSpaceId with
  | none | some "" => request.encoded.featureSpaceId
  | some featureSpaceId => featureSpaceId

/-- `candidate_ids`. -/
def candidateIds (request : PortraitRequest) : List String :=
  let safeSpace := safe (selectedSpace request)
  c.listIndexes.foldl (fun ids definition =>
    if definition.recordKind = .vector ∧ isResult definition.indexId = true ∧
        safe definition.indexId = "result." ++ safeSpace then
      addCandidate ids definition.indexId
    else ids) (addCandidate ["result." ++ selectedSpace request] ("result." ++ safeSpace))

/-- The candidates that are searched: `searched_indexes`, once all are. -/
def portraitIndexes (request : PortraitRequest) : List String :=
  (c.candidateIds request).filter fun indexId =>
    (c.store.indexes.get? indexId).any fun definition => definition.recordKind = .vector

/-- `_validate_vector_contract`. -/
def validateVectorContract (encoded : PortraitEmbedding) (definition : IndexDefinition) :
    Except Error Unit :=
  if definition.vectorDimension ≠ some encoded.embedding.length then
    .error (.index (.indexStoreError
      "query embedding dimension does not match the result index contract"))
  else if definition.vectorModelId ≠ some encoded.modelId then
    .error (.index (.indexStoreError
      "query embedding model does not match the result index contract"))
  else if definition.vectorModelVersion ≠ some encoded.modelVersion then
    .error (.index (.indexStoreError
      "query embedding model version does not match the result index contract"))
  else .ok ()

/-! ## Searches -/

/-- A turn of the loop of `text`. -/
def textHitsOf (request : SearchTextRequest) (weight : ℚ) (indexId : String) :
    Except Error (List SearchResultHit) :=
  match c.store.queryText c.casefold c.tenantId c.projectId indexId request.query 200 with
  | .error e => .error (.index e)
  | .ok hits => .ok (c.keep weight request.mediaKinds hits)

/-- `text`: the hits. -/
def text (request : SearchTextRequest) : Except Error (List SearchResultHit) := do
  let weights ← c.profile request.profileId
  let hits ← gather (c.textHitsOf request weights.1) (c.textIndexes request)
  return (sortHits hits).take request.limit.val

/-- A turn of the loop of `portrait_image`. -/
def portraitHitsOf (request : PortraitRequest) (weight : ℚ) (indexId : String) :
    Except Error (List SearchResultHit) :=
  match c.store.indexes.get? indexId with
  | none => .ok []
  | some definition =>
    if definition.recordKind ≠ .vector then .ok []
    else do
      validateVectorContract request.encoded definition
      match c.store.queryVector c.geometry c.tenantId c.projectId indexId request.encoded.embedding
        (min 200 request.limit.val : Nat) request.threshold with
      | .error e => .error (.index e)
      | .ok hits => .ok (c.keep weight request.mediaKinds hits)

/-- `portrait_image`: the hits. -/
def portraitImage (request : PortraitRequest) : Except Error (List SearchResultHit) := do
  let weights ← c.profile request.profileId
  let hits ← gather (c.portraitHitsOf request weights.2) (c.candidateIds request)
  return (sortHits hits).take request.limit.val

end Context

end Scenara.Search

import Scenara.Core.Dict
import Scenara.Core.Json
import Scenara.Core.Transition

/-!
# The store of the Data service

Model of `DataStore` (`scenara_data/app.py`). A record is the JSON object that the service keeps and
answers with.

* `DataStore.save`, `DataStore.emit`: as in the source. `DataStore.create` is the `save` of a new
  item: what was created, and under which key, is noted for the statements.
-/

namespace Scenara.DataService

open Scenara.Core

/-! ## Records -/

/-- An item: a JSON object. -/
abbrev Record := Dict String Doc

/-- `item.get(field)`. -/
def get (r : Record) (field : String) : Doc := (r.get? field).getD .null

@[simp] theorem get_insert (r : Record) (field a : String) (v : Doc) :
    get (r.insert field v) a = if a = field then v else get r a := by
  unfold get
  rw [Dict.get?_insert]
  split <;> rfl

@[simp] theorem get_empty (field : String) : get (.empty : Record) field = .null := rfl

/-- The object that is written out. -/
def record (fields : List (String × Doc)) : Record := .ofList fields

/-- `None`, or a text. -/
def optional : Option String → Doc
  | some s => .str s
  | none => .null

/-- `d == text`, for `None` or a text. -/
def is (d : Doc) (text : Option String) : Bool := d.same (optional text)

theorem is_iff {d : Doc} {text : Option String} : is d text = true ↔ d = optional text := by
  unfold is
  cases text <;> cases d <;> simp [optional, Doc.same]

/-- `bool(d)`. -/
def truthy : Doc → Bool
  | .null => false
  | .bool b => b
  | .num n => n.value ≠ 0
  | .str s => s ≠ ""
  | .arr items => !items.isEmpty
  | .obj fields => !fields.isEmpty

/-! ## Digests -/

/-- `[0-9a-f]` -/
def isHex (c : Char) : Bool := c.isDigit || ('a' ≤ c && c ≤ 'f')

/-- `[0-9a-f]{64}` -/
def isSha256 (s : String) : Bool := s.length = 64 && s.toList.all isHex

/-- What the service takes from elsewhere. -/
structure Setting where
  /-- `uuid4().hex`, call by call. -/
  ids : Fresh String
  str : Doc → String
  str_str : ∀ s, str (.str s) = s
  str_null : str .null = "None"
  int : Doc → Option ℤ
  int_int : ∀ n : Nat, int (.int n) = some (n : ℤ)
  /-- `hashlib.sha256(text.encode()).hexdigest()`. -/
  sha256 : String → String
  sha256_hex : ∀ s, isSha256 (sha256 s)
  /-- `json.dumps(value, sort_keys=True)`. -/
  dumps : Doc → String

attribute [simp] Setting.str_str Setting.str_null Setting.int_int

/-- A setting, for runs that are written out. -/
def plain : Setting where
  ids := .counted
  str
    | .str s => s
    | .null => "None"
    | _ => "?"
  str_str _ := rfl
  str_null := rfl
  int
    | .num n => some n.value.num
    | _ => none
  int_int n := by simp [Doc.int, value_ofNat]
  sha256 _ := String.ofList (List.replicate 64 '0')
  sha256_hex _ := by decide
  dumps _ := "[]"

/-! ## The store -/

/-- The maps of a `DataStore`. -/
inductive Kind where
  | datasets | versions | intakes | annotations | quality | lineage | outbox
  deriving DecidableEq

/-- The key of a record. -/
structure Key where
  tenantId : String
  projectId : String
  recordId : String
  deriving DecidableEq

/-- What a record is of. -/
inductive Entity where
  | dataset | version | manifest | sample | task | annotated | provider | quality | lineage | event
  deriving DecidableEq

/-- The map that it is kept in. -/
def Entity.kind : Entity → Kind
  | .dataset => .datasets
  | .version => .versions
  | .manifest | .sample => .intakes
  | .task | .annotated | .provider => .annotations
  | .quality => .quality
  | .lineage => .lineage
  | .event => .outbox

/-- What the record of a map is, by its fields. -/
def entityOf (kind : Kind) (r : Record) : Entity :=
  match kind with
  | .datasets => .dataset
  | .versions => .version
  | .intakes => if (r.get? "manifest_id").isSome then .manifest else .sample
  | .annotations =>
    if (r.get? "annotation_id").isSome then .annotated
    else if (r.get? "provider_id").isSome then .provider
    else .task
  | .quality => .quality
  | .lineage => .lineage
  | .outbox => .event

/-- A record was created. -/
structure Creation where
  entity : Entity
  key : Key
  /-- The header `Idempotency-Key` of the request. -/
  idempotencyKey : Option String

/-- `DataStore`. -/
structure DataStore where
  records : Kind → Dict Key Record
  created : List Creation
  drawn : Nat

namespace DataStore

/-- `DataStore()`. -/
def empty : DataStore := ⟨fun _ => .empty, [], 0⟩

variable (setting : Setting)

/-- The key of an item. -/
def keyOf (item : Record) (recordId : String) : Key :=
  ⟨setting.str (get item "tenant_id"), setting.str (get item "project_id"), recordId⟩

/-- `save`. -/
def save (s : DataStore) (kind : Kind) (item : Record) (recordId : String) : DataStore :=
  { s with
    records := Function.update s.records kind
      ((s.records kind).insert (keyOf setting item recordId) item) }

/-- `save` of a new item. -/
def create (s : DataStore) (entity : Entity) (item : Record) (recordId : String)
    (idempotencyKey : Option String) : DataStore :=
  { s.save setting entity.kind item recordId with
    created := s.created ++ [⟨entity, keyOf setting item recordId, idempotencyKey⟩] }

/-- `uuid4().hex`. -/
def uuid (s : DataStore) : String := setting.ids.draw s.drawn

/-- An id is drawn. -/
def draw (s : DataStore) : DataStore := { s with drawn := s.drawn + 1 }

variable {setting} {s : DataStore} {kind kind' : Kind} {item : Record} {recordId : String} {k : Key}
  {r : Record}

@[simp] theorem draw_records : s.draw.records = s.records := rfl

theorem get?_save : ((s.save setting kind item recordId).records kind').get? k =
    if kind' = kind ∧ k = keyOf setting item recordId then some item
      else (s.records kind').get? k := by
  unfold save
  by_cases hkind : kind' = kind
  · subst hkind
    simp only [Function.update_self, Dict.get?_insert, true_and]
  · simp [hkind]

@[simp] theorem get?_create {entity : Entity} {idempotencyKey : Option String} :
    ((s.create setting entity item recordId idempotencyKey).records kind').get? k =
      if kind' = entity.kind ∧ k = keyOf setting item recordId then some item
      else (s.records kind').get? k := get?_save

end DataStore

/-! ## What updates keep -/

/-- The fields by which records are found and told apart. -/
structure Identity where
  tenantId : Option Doc
  projectId : Option Doc
  idempotencyKey : Option Doc
  manifestId : Option Doc
  annotationId : Option Doc
  providerId : Option Doc
  datasetId : Option Doc
  version : Option Doc

/-- The fields that say whose record it is. -/
def identity (r : Record) : Identity where
  tenantId := r.get? "tenant_id"
  projectId := r.get? "project_id"
  idempotencyKey := r.get? "idempotency_key"
  manifestId := r.get? "manifest_id"
  annotationId := r.get? "annotation_id"
  providerId := r.get? "provider_id"
  datasetId := r.get? "dataset_id"
  version := r.get? "version"

/-- The names of those fields. -/
def identityFields : List String :=
  ["tenant_id", "project_id", "idempotency_key", "manifest_id", "annotation_id", "provider_id",
    "dataset_id", "version"]

theorem identity_insert {r : Record} {field : String} (v : Doc) (h : field ∉ identityFields) :
    identity (r.insert field v) = identity r := by
  have hkeep : ∀ name ∈ identityFields, (r.insert field v).get? name = r.get? name :=
    fun name hname =>
    Dict.get?_insert_of_ne r v fun heq => h (heq ▸ hname)
  unfold identity
  rw [hkeep "tenant_id" (by decide), hkeep "project_id" (by decide),
    hkeep "idempotency_key" (by decide),
    hkeep "manifest_id" (by decide), hkeep "annotation_id" (by decide),
      hkeep "provider_id" (by decide),
    hkeep "dataset_id" (by decide), hkeep "version" (by decide)]

variable {r r' : Record}

theorem entityOf_congr (kind : Kind) (h : identity r = identity r') :
    entityOf kind r = entityOf kind r' := by
  unfold entityOf
  rw [show r.get? "manifest_id" = r'.get? "manifest_id" from congrArg Identity.manifestId h,
    show r.get? "annotation_id" = r'.get? "annotation_id" from congrArg Identity.annotationId h,
    show r.get? "provider_id" = r'.get? "provider_id" from congrArg Identity.providerId h]

section

variable (h : identity r = identity r')
include h

theorem get_tenant_congr : get r "tenant_id" = get r' "tenant_id" := by
  unfold get
  rw [show r.get? "tenant_id" = r'.get? "tenant_id" from congrArg Identity.tenantId h]

theorem get_project_congr : get r "project_id" = get r' "project_id" := by
  unfold get
  rw [show r.get? "project_id" = r'.get? "project_id" from congrArg Identity.projectId h]

theorem get_idempotencyKey_congr : get r "idempotency_key" = get r' "idempotency_key" := by
  unfold get
  rw [show r.get? "idempotency_key" = r'.get? "idempotency_key"
    from congrArg Identity.idempotencyKey h]

theorem get_datasetId_congr : get r "dataset_id" = get r' "dataset_id" := by
  unfold get
  rw [show r.get? "dataset_id" = r'.get? "dataset_id" from congrArg Identity.datasetId h]

end

end Scenara.DataService

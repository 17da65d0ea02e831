import Scenara.Core.FileSystem
import Scenara.Core.Transition

/-!
# The local object store

Model of `LocalObjectStore` (`infrastructure/object_store.py`): `put` without `overwrite`, `get`,
`stat`, `exists`, `delete` and their helpers, on a file system that makes one system call a step;
and of `validate_object_key` (`platform/objects.py`).

* A key is the path that it splits into; its components are too short for a limit of the file
  system. `os.open`, a write of some of the bytes, a read of a whole file and `unlink` are steps.
* A declared digest that does not match raises before the first step. `json` and SHA-256 are a
  `Codec`.
* `kept` is what a caller may count on: the bytes of the last `put` of the key that returned, until
  a `delete` of the key.
-/

namespace Scenara.ObjectStore

open Scenara.Core

variable {α D : Type}

/-! ## Keys and metadata -/

/-- `SAFE_COMPONENT.fullmatch`. -/
def safeComponent (part : String) : Bool :=
  match part.toList with
  | [] => false
  | c :: rest =>
    c.isAlphanum && decide (rest.length ≤ 127) && rest.all fun c => c.isAlphanum ||
      c ∈ ['_', '.', '-']

/-- `validate_object_key`. -/
def validateObjectKey (key : FileName) : Bool := key.dir.all safeComponent && safeComponent key.name

/-- The path of `_metadata_path`; `_path` raises when it is no valid key. -/
def metadataPath (key : FileName) : FileName := { key with name := key.name ++ ".metadata.json" }

/-- `ObjectMetadata`, and `retention_category` in it. -/
structure Metadata (D : Type) where
  sizeBytes : Nat
  sha256 : D
  contentType : String
  retentionCategory : Option String
  deriving DecidableEq

/-- SHA-256 and the metadata documents. `load` is the `try` block of `_read_metadata`; `none` is an
exception that it catches. -/
structure Codec (α D : Type) where
  sha256 : List α → D
  dump : Metadata D → List α
  load : List α → Option (Metadata D)
  load_dump : ∀ m, load (dump m) = some m
  /-- A document that is cut short is no JSON. -/
  load_cut : ∀ m w, w <+: dump m → w ≠ dump m → load w = none

/-! ## Calls -/

/-- The arguments of a `put`. -/
structure Upload (α : Type) where
  data : List α
  contentType : String
  retentionCategory : Option String
  deriving DecidableEq

/-- The calls of the store. -/
inductive Op (α : Type) where
  | put (upload : Upload α)
  | get
  | stat
  | exist
  | delete
  deriving DecidableEq

/-- What a call raises. -/
inductive Error where
  | objectAlreadyExists
  | invalidObjectKey
  | file (error : FileError)
  deriving DecidableEq

/-- What a call ends with. -/
inductive Outcome (α D : Type) where
  /-- `put` has returned. -/
  | stored (metadata : Metadata D)
  | bytes (data : List α)
  | metadata (metadata : Metadata D)
  | flag (value : Bool)
  | raised (error : Error)
  deriving DecidableEq

/-- The next system call of a call. -/
inductive Phase (α D : Type) where
  /-- `path.parent.mkdir`. -/
  | preparing
  /-- `path.exists()`, of `put`. -/
  | looking
  | opening
  /-- `_write_fd`: what is yet to be written. -/
  | writing (fd : Nat) (rest : List α)
  /-- `_write_metadata`, at `os.open`. -/
  | describing
  | recording (fd : Nat) (rest : List α)
  /-- `_read_metadata`. -/
  | comparing
  /-- `_sha256_file`. -/
  | hashing
  | reading
  | testing
  /-- `path.exists()`, of `delete`. -/
  | probing
  | unlinking
  | unlinkingMetadata
  | done (outcome : Outcome α D)
  | dead
  deriving DecidableEq

/-- A call, and where it stands. -/
structure Call (α D : Type) where
  op : Op α
  key : FileName
  phase : Phase α D
  deriving DecidableEq

/-- The first system call. -/
def Op.first : Op α → Phase α D
  | .put _ => .preparing
  | .get => .reading
  | .stat => .comparing
  | .exist => .testing
  | .delete => .probing

variable [DecidableEq D]

/-- The metadata of the object of a `put`. -/
def Upload.metadata (codec : Codec α D) (upload : Upload α) : Metadata D :=
  ⟨upload.data.length, codec.sha256 upload.data, upload.contentType, upload.retentionCategory⟩

/-- `_existing_or_raise` of a `put`, or `stat`: the metadata is there. -/
def Call.answer (codec : Codec α D) (c : Call α D) (metadata : Metadata D) : Phase α D :=
  match c.op with
  | .put upload =>
    if metadata.sha256 = codec.sha256 upload.data then .done (.stored metadata)
    else .done (.raised .objectAlreadyExists)
  | _ => .done (.metadata metadata)

/-- The call raises. -/
def raised (error : FileError) : Phase α D := .done (.raised (.file error))

/-- One system call, and what comes next. A write takes `n` bytes. -/
def Call.go (codec : Codec α D) (d : Disk α) (n : Nat) (c : Call α D) :
    Option (Disk α × Phase α D) :=
  match c.phase, c.op with
  | .preparing, _ =>
    match d.mkdir c.key.dir with
    | .ok d => some (d, .looking)
    | .error e => some (d, raised e)
  | .looking, _ => some (d, if d.isFile c.key || d.isDir c.key then .comparing else .opening)
  | .opening, .put upload =>
    match d.create c.key with
    | .ok (fd, d) => some (d, .writing fd upload.data)
    | .error _ => some (d, .comparing)
  | .writing _ [], _ => some (d, .describing)
  | .writing fd (a :: rest), _ =>
    if n = 0 then none
    else some (d.append fd ((a :: rest).take n), .writing fd ((a :: rest).drop n))
  | .describing, .put upload =>
    if validateObjectKey (metadataPath c.key) then
      match d.create (metadataPath c.key) with
      | .ok (fd, d) => some (d, .recording fd (codec.dump (upload.metadata codec)))
      | .error _ => some (d, .done (.stored (upload.metadata codec)))
    else some (d, .done (.raised .invalidObjectKey))
  | .recording _ [], .put upload => some (d, .done (.stored (upload.metadata codec)))
  | .recording fd (a :: rest), _ =>
    if n = 0 then none
    else some (d.append fd ((a :: rest).take n), .recording fd ((a :: rest).drop n))
  | .comparing, _ =>
    if validateObjectKey (metadataPath c.key) then
      match d.read (metadataPath c.key) with
      | .ok document =>
        match codec.load document with
        | some metadata => some (d, c.answer codec metadata)
        | none => some (d, .hashing)
      | .error .fileNotFound => some (d, .hashing)
      | .error e => some (d, raised e)
    else some (d, .done (.raised .invalidObjectKey))
  | .hashing, _ =>
    match d.read c.key with
    | .ok data =>
      some (d, c.answer codec ⟨data.length, codec.sha256 data, "application/octet-stream", none⟩)
    | .error e => some (d, raised e)
  | .reading, _ =>
    match d.read c.key with
    | .ok data => some (d, .done (.bytes data))
    | .error e => some (d, raised e)
  | .testing, _ => some (d, .done (.flag (d.isFile c.key)))
  | .probing, _ => some (d, if d.isFile c.key || d.isDir c.key then .unlinking
      else .done (.flag false))
  | .unlinking, _ =>
    match d.unlink c.key with
    | .ok d => some (d, .unlinkingMetadata)
    | .error e => some (d, raised e)
  | .unlinkingMetadata, _ =>
    if validateObjectKey (metadataPath c.key) then
      match d.unlink (metadataPath c.key) with
      | .ok d => some (d, .done (.flag true))
      | .error .fileNotFound => some (d, .done (.flag true))
      | .error e => some (d, raised e)
    else some (d, .done (.raised .invalidObjectKey))
  | _, _ => none

/-! ## The system -/

/-- The disk, the calls and what was stored. -/
structure State (α D : Type) where
  disk : Disk α
  calls : List (Call α D)
  kept : Dict FileName (List α)

/-- What a caller may count on, when the call goes on to `phase`. -/
def Call.keeps (c : Call α D) (phase : Phase α D) (kept : Dict FileName (List α)) :
    Dict FileName (List α) :=
  match c.op, phase with
  | .put upload, .done (.stored _) => kept.insert c.key upload.data
  | _, .unlinkingMetadata => kept.erase c.key
  | _, _ => kept

/-- A call goes on. -/
def State.next (x : State α D) (i : Nat) (c : Call α D) (disk : Disk α) (phase : Phase α D) :
    State α D where
  disk := disk
  calls := x.calls.set i { c with phase }
  kept := c.keeps phase x.kept

/-- The process dies: a call that is over stays so. -/
def Call.crash (c : Call α D) : Call α D :=
  match c.phase with
  | .done _ => c
  | _ => { c with phase := .dead }

/-- One step. -/
inductive Act (α : Type) where
  | call (op : Op α) (key : FileName)
  /-- The `i`-th call goes on. -/
  | go (i n : Nat)
  | crash

/-- One step. -/
def step (codec : Codec α D) (x : State α D) : Act α → Option (State α D)
  | .call op key =>
    if validateObjectKey key then some { x with calls := x.calls ++ [⟨op, key, op.first⟩] }
      else none
  | .go i n =>
    match x.calls[i]? with
    | some c =>
      match c.go codec x.disk n with
      | some (disk, phase) => some (x.next i c disk phase)
      | none => none
    | none => none
  | .crash => some { x with calls := x.calls.map Call.crash }

/-- An empty disk. -/
def init : State α D := ⟨Disk.empty, [], Dict.empty⟩

end Scenara.ObjectStore

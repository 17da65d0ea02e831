import Scenara.Core.Dict

/-!
# A file system

Names point to inodes, and an open file is known by its inode: what is appended to it no longer
shows once its name has been unlinked. Directories are never removed.

* `Disk.create` is the exclusive create, `Disk.append` appends to an open file.
* `Disk.content`: what a name points to. `Disk.Own`: an inode that no other name points to.
-/

namespace Scenara.Core

/-- A name in a directory. -/
structure FileName where
  dir : List String
  name : String
  deriving DecidableEq

/-- The path, as the directory that it would be. -/
def FileName.full (p : FileName) : List String := p.dir ++ [p.name]

/-- `FileExistsError`, `FileNotFoundError`, `IsADirectoryError`, `NotADirectoryError`. -/
inductive FileError where
  | fileExists
  | fileNotFound
  | isADirectory
  | notADirectory
  deriving DecidableEq

/-- Directories, names and what they stand for. -/
structure Disk (α : Type*) where
  /-- The directories that were made, each with its parents. -/
  dirs : List (List String)
  names : Dict FileName Nat
  inodes : List (List α)

namespace Disk

variable {α : Type*} {d d' : Disk α} {p q : FileName} {fd : Nat} {bytes w : List α}
    {dir : List String}

/-- Nothing but the root. -/
def empty : Disk α := ⟨[], Dict.empty, []⟩

/-- There is such a file. -/
def isFile (d : Disk α) (p : FileName) : Bool := (d.names.get? p).isSome

/-- There is such a directory. -/
def isDir (d : Disk α) (p : FileName) : Bool := d.dirs.any fun dir => decide (p.full <+: dir)

/-- A file stands where a directory is needed. -/
def blocked (d : Disk α) (dir : List String) : Bool :=
  d.names.entries.any fun e => decide (e.1.full <+: dir)

/-- What the name points to. -/
def content (d : Disk α) (p : FileName) :
    Option (List α) := (d.names.get? p).bind fun fd => d.inodes[fd]?

/-- A new, empty file under the name. -/
def link (d : Disk α) (p : FileName) : Disk α :=
  { d with names := d.names.insert p d.inodes.length, inodes := d.inodes ++ [[]] }

/-- The name is gone. -/
def erase (d : Disk α) (p : FileName) : Disk α := { d with names := d.names.erase p }

/-! ## System calls -/

/-- `mkdir` with `parents` and `exist_ok`. -/
def mkdir (d : Disk α) (dir : List String) : Except FileError (Disk α) :=
  if d.blocked dir then .error .notADirectory else .ok { d with dirs := d.dirs ++ [dir] }

/-- `os.open` with `O_CREAT | O_EXCL`, the directory there: the open file. -/
def create (d : Disk α) (p : FileName) : Except FileError (Nat × Disk α) :=
  if d.isFile p || d.isDir p then .error .fileExists else .ok (d.inodes.length, d.link p)

/-- A write to an open file. -/
def append (d : Disk α) (fd : Nat) (bytes : List α) : Disk α :=
  { d with inodes := d.inodes.modify fd (· ++ bytes) }

/-- `read_bytes`. -/
def read (d : Disk α) (p : FileName) : Except FileError (List α) :=
  if d.blocked p.dir then .error .notADirectory
  else if d.isDir p then .error .isADirectory
  else
    match d.content p with
    | some bytes => .ok bytes
    | none => .error .fileNotFound

/-- `unlink`. -/
def unlink (d : Disk α) (p : FileName) : Except FileError (Disk α) :=
  if d.blocked p.dir then .error .notADirectory
  else if d.isDir p then .error .isADirectory
  else if d.isFile p then .ok (d.erase p)
  else .error .fileNotFound

/-! ## Contents -/

/-- Names point to inodes that there are. -/
def Bounded (d : Disk α) : Prop := ∀ p fd, d.names.get? p = some fd → fd < d.inodes.length

/-- No name but `p` points to the inode. -/
def Own (d : Disk α) (p : FileName) (fd : Nat) : Prop :=
  fd < d.inodes.length ∧ ∀ q, d.names.get? q = some fd → q = p

theorem content_of_name (h : d.names.get? p = some fd) : d.content p = d.inodes[fd]? := by
  rw [content, h, Option.bind_some]

theorem content_of_none (h : d.names.get? p = none) : d.content p = none := by
  rw [content, h, Option.bind_none]

theorem Bounded.content (hd : d.Bounded) (h : d.names.get? p = some fd) :
    ∃ w, d.content p = some w :=
  ⟨_, (content_of_name h).trans (List.getElem?_eq_getElem (hd p fd h))⟩

theorem Bounded.content_isSome (hd : d.Bounded) (h : d.isFile p = true) : d.content p ≠ none := by
  obtain ⟨_, hfd⟩ := Option.isSome_iff_exists.1 h
  obtain ⟨w, hw⟩ := hd.content hfd
  rw [hw]
  exact Option.some_ne_none w

theorem name_of_not_isFile (h : d.isFile p = false) : d.names.get? p = none := by
  cases hfd : d.names.get? p with
  | none => rfl
  | some =>
    simp [isFile, hfd] at h

/-! ## A new file -/

theorem names_link_self : (d.link p).names.get? p = some d.inodes.length :=
  Dict.get?_insert_self _ _ _

theorem names_link_other (h : q ≠ p) : (d.link p).names.get? q = d.names.get? q :=
  Dict.get?_insert_of_ne _ _ h

theorem content_link : (d.link p).content p = some [] := by
  rw [content_of_name names_link_self]
  exact List.getElem?_concat_length

theorem content_link_other (hd : d.Bounded) (h : q ≠ p) : (d.link p).content q = d.content q := by
  rw [content, content, names_link_other h]
  cases hfd : d.names.get? q with
  | none => rfl
  | some fd => exact List.getElem?_append_left (hd q fd hfd)

theorem Bounded.link (hd : d.Bounded) : (d.link p).Bounded := by
  intro q fd h
  have hlength : (d.link p).inodes.length = d.inodes.length + 1 := List.length_append
  rw [hlength]
  by_cases hq : q = p
  · rw [hq, names_link_self] at h
    cases h
    exact Nat.lt_succ_self _
  · rw [names_link_other hq] at h
    exact Nat.lt_succ_of_lt (hd q fd h)

theorem Bounded.own_link (hd : d.Bounded) : (d.link p).Own p d.inodes.length := by
  refine ⟨hd.link p _ names_link_self, fun q h => ?_⟩
  by_contra hq
  rw [names_link_other hq] at h
  exact absurd (hd q _ h) (Nat.lt_irrefl _)

theorem Own.link (h : d.Own q fd) : (d.link p).Own q fd := by
  have hlength : (d.link p).inodes.length = d.inodes.length + 1 := List.length_append
  refine ⟨hlength ▸ Nat.lt_succ_of_lt h.1, fun r hr => ?_⟩
  by_cases hp : r = p
  · rw [hp, names_link_self] at hr
    cases hr
    exact absurd h.1 (Nat.lt_irrefl _)
  · rw [names_link_other hp] at hr
    exact h.2 r hr

/-! ## A write -/

theorem content_append (hfd : d.names.get? p = some fd) (hw : d.content p = some w) :
    (d.append fd bytes).content p = some (w ++ bytes) := by
  rw [content_of_name hfd] at hw
  have hname : (d.append fd bytes).names.get? p = some fd := hfd
  rw [content_of_name hname, append, List.getElem?_modify_eq, hw]
  rfl

theorem content_append_of_ne (h : d.names.get? q ≠ some fd) :
    (d.append fd bytes).content q = d.content q := by
  cases hname : d.names.get? q with
  | none => rw [content_of_none hname, content_of_none (d := d.append fd bytes) hname]
  | some fd' =>
    have hne : fd ≠ fd' := by
      rintro rfl
      exact h hname
    rw [content_of_name hname, content_of_name (d := d.append fd bytes) hname]
    exact List.getElem?_modify_ne _ _ hne

theorem content_append_other (h : d.Own p fd) (hq : q ≠ p) :
    (d.append fd bytes).content q = d.content q :=
  content_append_of_ne fun hname => hq (h.2 q hname)

theorem Bounded.append (hd : d.Bounded) : (d.append fd bytes).Bounded := by
  intro p fd' h
  have hlength : (d.append fd bytes).inodes.length = d.inodes.length := List.length_modify _ _ _
  rw [hlength]
  exact hd p fd' h

theorem Own.append {fd' : Nat} (h : d.Own q fd') : (d.append fd bytes).Own q fd' := by
  have hlength : (d.append fd bytes).inodes.length = d.inodes.length := List.length_modify _ _ _
  exact ⟨hlength ▸ h.1, h.2⟩

/-! ## A name that goes -/

theorem names_erase_self : (d.erase p).names.get? p = none := Dict.get?_erase_self _ _

theorem names_erase_other (h : q ≠ p) : (d.erase p).names.get? q = d.names.get? q :=
  Dict.get?_erase_of_ne _ h

theorem content_erase : (d.erase p).content p = none := content_of_none names_erase_self

theorem content_erase_other (h : q ≠ p) : (d.erase p).content q = d.content q := by
  rw [content, content, names_erase_other h]
  rfl

theorem name_of_erase (h : (d.erase p).names.get? q = some fd) : d.names.get? q = some fd := by
  by_cases hq : q = p
  · simp [hq, names_erase_self] at h
  · rwa [names_erase_other hq] at h

theorem Bounded.erase (hd : d.Bounded) :
    (d.erase p).Bounded := fun q fd h => hd q fd (name_of_erase h)

theorem Own.erase (h : d.Own q fd) : (d.erase p).Own q fd :=
  ⟨h.1, fun r hr => h.2 r (name_of_erase hr)⟩

/-! ## What the calls do -/

/-- No directory stands at the path, and no file where its directory is. -/
structure Clear (d : Disk α) (p : FileName) : Prop where
  blocked : d.blocked p.dir = false
  isDir : d.isDir p = false

theorem Clear.create (h : d.Clear p) :
    d.create p = if d.isFile p then .error .fileExists else .ok (d.inodes.length, d.link p) := by
  rw [Disk.create, h.isDir, Bool.or_false]

theorem Clear.read (h : d.Clear p) :
    d.read p = match d.content p with
      | some bytes => .ok bytes
      | none => .error .fileNotFound := by
  rw [Disk.read, h.blocked, h.isDir]
  rfl

theorem Clear.unlink (h : d.Clear p) :
    d.unlink p = if d.isFile p then .ok (d.erase p) else .error .fileNotFound := by
  rw [Disk.unlink, h.blocked, h.isDir]
  rfl

end Disk

end Scenara.Core

import ContainerdRs.Lib.FileTree
import ContainerdRs.CoreTypes

/-!
# Layer application (`apply_layer`, `unpack_rootfs`)

A layer is a stream of tar entries.  `classify` reads a whiteout off the entry's name; a whiteout
deletes in the target what its path names, any other entry is unpacked by the `tar` crate.
`safe_join` looks at the text of a path; the deletions follow the links in the tree.

The `tar` crate, the decompressors and the order of `read_dir` are not part of the repository:
`Host` collects them.
-/

set_option autoImplicit false

namespace ContainerdRs.Snapshots

open FileTree

/-! ## Paths -/

/-- A file name: text, or bytes that are not UTF-8. -/
inductive OsName where
  | utf8 (s : String)
  | other (b : Bytes)
  deriving DecidableEq, Repr

/-- `OsStr::to_str`. -/
def OsName.toStr : OsName → Option String
  | .utf8 s => some s
  | .other _ => none

/-- A path as text: what stands between its slashes, and whether it starts with one. -/
structure PathBuf where
  absolute : Bool
  parts : List (PathPart OsName)
  deriving DecidableEq, Repr

/-- `std::path::Component`. -/
inductive Component where
  | rootDir
  | curDir
  | parentDir
  | normal (n : OsName)
  deriving DecidableEq, Repr

/-- A part behind the first one: doubled slashes and `.` are no components. -/
def Component.ofPart : PathPart OsName → Option Component
  | .empty => none
  | .dot => none
  | .dotdot => some .parentDir
  | .name n => some (.normal n)

/-- A component as part of a path. -/
def Component.toPart : Component → PathPart OsName
  | .rootDir => .empty
  | .curDir => .dot
  | .parentDir => .dotdot
  | .normal n => .name n

/-- `Path::components`. -/
def PathBuf.components (p : PathBuf) : List Component :=
  if p.absolute then .rootDir :: p.parts.filterMap Component.ofPart
  else
    match p.parts with
    | .dot :: rest => .curDir :: rest.filterMap Component.ofPart
    | parts => parts.filterMap Component.ofPart

/-- The path of some components. -/
def PathBuf.ofComponents (cs : List Component) : PathBuf :=
  ⟨cs.head? = some .rootDir, cs.map Component.toPart⟩

/-- `Path::file_name`. -/
def PathBuf.fileName (p : PathBuf) : Option OsName :=
  match p.components.getLast? with
  | some (.normal n) => some n
  | _ => none

/-- `Path::parent` of a path that has a file name. -/
def PathBuf.parent (p : PathBuf) : PathBuf := .ofComponents p.components.dropLast

/-- A text without slashes as a part of a path. -/
def partOfText (s : String) : PathPart OsName :=
  if s = "" then .empty
  else if s = "." then .dot
  else if s = ".." then .dotdot
  else .name (.utf8 s)

/-- `Path::join` with a text without slashes. -/
def PathBuf.joinText (p : PathBuf) (s : String) : PathBuf :=
  { p with parts := p.parts ++ [partOfText s] }

/-! ## Whiteouts -/

/-- `Compression`. -/
inductive Compression where
  | none
  | gzip
  | zstd
  deriving DecidableEq, Repr

/-- `Compression::detect`. -/
def Compression.detect (bytes : Bytes) : Compression :=
  if [0x1f, 0x8b] <+: bytes then .gzip
  else if [0x28, 0xb5, 0x2f, 0xfd] <+: bytes then .zstd
  else .none

/-- `Whiteout`. -/
inductive Whiteout where
  | none
  | remove (rel : PathBuf)
  | opaqueDir (rel : PathBuf)
  deriving DecidableEq, Repr

/-- `WHITEOUT_PREFIX`. -/
abbrev whiteoutPrefix : String := ".wh."

/-- `OPAQUE_MARKER`. -/
abbrev opaqueMarker : String := ".wh..wh..opq"

/-- `str::strip_prefix(WHITEOUT_PREFIX)`. -/
def stripWhiteout (s : String) : Option String :=
  if whiteoutPrefix.toList <+: s.toList then some (String.ofList (s.toList.drop 4)) else none

/-- `classify`. -/
def classify (path : PathBuf) : Whiteout :=
  match path.fileName.bind OsName.toStr with
  | none => .none
  | some fileName =>
    if fileName = opaqueMarker then .opaqueDir path.parent
    else
      match stripWhiteout fileName with
      | some stripped => .remove (path.parent.joinText stripped)
      | none => .none

/-- A component `safe_join` lets pass. -/
def Component.isSafe : Component → Bool
  | .normal _ => true
  | .curDir => true
  | _ => false

/-- `safe_join`: a relative path without `..` is appended to the target. -/
def safeJoin (target : List (PathPart OsName)) (rel : PathBuf) : Option (List (PathPart OsName)) :=
  if rel.components.all Component.isSafe then some (target ++ rel.parts) else none

/-! ## Application -/

/-- The file system. -/
abbrev Fs := FileTree OsName Bytes

/-- A tar entry: its path, and header and data. -/
structure TarEntry (β : Type) where
  path : PathBuf
  body : β

/-- What lies outside the repository. -/
structure Host (β : Type) where
  /-- `Entry::unpack_in` and the tree it leaves, also when it fails. -/
  unpackIn : List (PathPart OsName) → TarEntry β → Fs → Except String Unit × Fs
  /-- `read_dir` of the directory at a location: its names in some order. -/
  readDir : Fs → List OsName → Except String (List OsName)
  /-- `decompress` and the entries of the archive; the stream can break off with an error. -/
  entries : Compression → Bytes → Except String (List (Except String (TarEntry β)))

/-- `remove_path`; its errors are dropped. -/
def removePath (t : Fs) (p : List (PathPart OsName)) : Fs :=
  if t.isDir p then t.removeDirAll p else t.removeFile p

/-- `apply_layer`, the children of an opaque directory. -/
def removeChildren (dir : List (PathPart OsName)) (t : Fs) (names : List OsName) : Fs :=
  names.foldl (fun t n => removePath t (dir ++ [.name n])) t

variable {β : Type}

/-- `apply_layer`, the arm of `Whiteout::Opaque` with the directory joined. -/
def clearDir (H : Host β) (dir : List (PathPart OsName)) (t : Fs) : Except String Unit × Fs :=
  match t.resolve true dir with
  | none => (.ok (), t)
  | some l =>
    if t.isDirAt l then
      match H.readDir t l with
      | .error e => (.error e, t)
      | .ok names => (.ok (), removeChildren dir t names)
    else (.ok (), t)

/-- `apply_layer`, one entry. -/
def applyEntry (H : Host β) (target : List (PathPart OsName)) (e : TarEntry β) (t : Fs) :
    Except String Unit × Fs :=
  match classify e.path with
  | .none => H.unpackIn target e t
  | .remove rel =>
    match safeJoin target rel with
    | some victim => (.ok (), removePath t victim)
    | none => (.ok (), t)
  | .opaqueDir rel =>
    match safeJoin target rel with
    | some dir => clearDir H dir t
    | none => (.ok (), t)

/-- `apply_layer`, the loop over the entries. -/
def applyEntries (H : Host β) (target : List (PathPart OsName)) :
    List (Except String (TarEntry β)) → Fs → Except String Unit × Fs
  | [], t => (.ok (), t)
  | .error x :: _, t => (.error x, t)
  | .ok e :: es, t =>
    match applyEntry H target e t with
    | (.error x, t') => (.error x, t')
    | (.ok _, t') => applyEntries H target es t'

/-- `apply_layer`. -/
def applyLayer (H : Host β) (target : List (PathPart OsName)) (blob : Bytes)
    (compression : Compression) (t : Fs) : Except String Unit × Fs :=
  match H.entries compression blob with
  | .error x => (.error x, t)
  | .ok es => applyEntries H target es t

/-- The errors of `unpack_rootfs`: `bad layer digest {ld}: {e}`, `read layer {ld}: {e}`,
    `unpack layer {ld}: {e}`. -/
inductive UnpackError where
  | badDigest (ld : String) (e : DigestError)
  | readLayer (ld e : String)
  | unpackLayer (ld e : String)
  deriving DecidableEq, Repr

/-- `unpack_rootfs`: the layers one after another; `read` is `content.read`. -/
def unpackRootfs (H : Host β) (read : Digest → Except String Bytes)
    (rootfs : List (PathPart OsName)) : List String → Fs → Except UnpackError Unit × Fs
  | [], t => (.ok (), t)
  | ld :: lds, t =>
    match Digest.parse ld with
    | .error e => (.error (.badDigest ld e), t)
    | .ok digest =>
      match read digest with
      | .error e => (.error (.readLayer ld e), t)
      | .ok bytes =>
        match applyLayer H rootfs bytes (Compression.detect bytes) t with
        | (.error e, t') => (.error (.unpackLayer ld e), t')
        | (.ok _, t') => unpackRootfs H read rootfs lds t'

end ContainerdRs.Snapshots

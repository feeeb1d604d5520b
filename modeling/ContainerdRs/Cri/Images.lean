import ContainerdRs.Images.Gc
import ContainerdRs.Lib.Transition
import ContainerdRs.Metadata.Store

/-!
# The image service (`crates/cri/src/server.rs`)

References, the two lookups, `pull_image` and `remove_image`, each request run to its end before
the next one starts.  `Faults` holds the errors of the metadata calls of one request.

* `normalizeImageRef_idem` — normalising a reference twice changes nothing.
* `pullImage_ok`, `removeImage_images`, `imageStep_images` — what a request does to the image table.
-/

set_option autoImplicit false

namespace ContainerdRs.Cri

open Images Metadata Separators

/-! ## References -/

/-- `repo_name`: drop the `:tag` of the last path segment. -/
def repoName (reference : String) : String :=
  match rcut '/' reference.toList with
  | some (dir, seg) =>
    match rcut ':' seg with
    | some (name, _) => String.ofList (dir ++ '/' :: name)
    | none => reference
  | none =>
    match rcut ':' reference.toList with
    | some (name, _) => String.ofList name
    | none => reference

/-- `is_digest_ref`. -/
def isDigestRef (reference : String) : Bool := decide ('@' ∈ reference.toList)

/-- `normalize_image_ref`. -/
def normalizeImageRef (reference : String) : String :=
  if isDigestRef reference ∨ repoName reference ≠ reference then reference
  else reference ++ ":latest"

theorem ofList_ne_of_length {l : List Char} {s : String} (h : l.length < s.toList.length) :
    String.ofList l ≠ s := by
  rintro rfl
  rw [String.toList_ofList] at h
  omega

/-- A reference ending in `:latest` has a tag. -/
theorem repoName_latest (r : String) : repoName (r ++ ":latest") ≠ r ++ ":latest" := by
  have hcolon : (r ++ ":latest").toList = r.toList ++ ':' :: "latest".toList := by
    rw [String.toList_append]
    rfl
  have hno : ':' ∉ "latest".toList := by decide
  have hlen : 0 < (':' :: "latest".toList).length := by decide
  unfold repoName
  rw [hcolon]
  cases hd : rcut '/' r.toList with
  | none =>
    have hn : rcut '/' (r.toList ++ ':' :: "latest".toList) = none := by
      rw [rcut_eq_none] at hd ⊢
      simp [hd]
    rw [hn, rcut_append _ _ _ hno]
    exact ofList_ne_of_length (by rw [hcolon, List.length_append]; omega)
  | some p =>
    obtain ⟨dir, seg⟩ := p
    obtain ⟨hr, hseg⟩ := rcut_eq_some hd
    have hs : rcut '/' (r.toList ++ ':' :: "latest".toList) =
        some (dir, seg ++ ':' :: "latest".toList) := by
      rw [hr, List.append_assoc, List.cons_append]
      exact rcut_append _ _ _ (by simp [hseg])
    rw [hs]
    dsimp only
    rw [rcut_append _ _ _ hno]
    refine ofList_ne_of_length ?_
    rw [hcolon, hr]
    simp only [List.length_append, List.length_cons] at hlen ⊢
    omega

theorem normalizeImageRef_idem (r : String) :
    normalizeImageRef (normalizeImageRef r) = normalizeImageRef r := by
  by_cases h : isDigestRef r ∨ repoName r ≠ r
  · have : normalizeImageRef r = r := by simp only [normalizeImageRef, if_pos h]
    rw [this, this]
  · have : normalizeImageRef r = r ++ ":latest" := by simp only [normalizeImageRef, if_neg h]
    rw [this]
    simp [normalizeImageRef, repoName_latest]

theorem isDigestRef_normalizeImageRef (r : String) :
    isDigestRef (normalizeImageRef r) = isDigestRef r := by
  unfold normalizeImageRef
  split
  · rfl
  · simp [isDigestRef, String.toList_append]

/-! ## Lookups -/

/-- The namespace of the CRI runtime. -/
def ns : String := "k8s.io"

/-- The match of `ImageSvc::find_image`. -/
def matchesKey (key : String) (r : ImageRecord) : Bool :=
  r.imageId == key
    || r.repoTags.any (fun t => t == key || t == normalizeImageRef key)
    || r.repoDigests.any (fun d => d == key)

/-- `ImageSvc::find_image`. -/
def ImageSvc.findImage (images : Table ImageRecord) (key : String) : Option ImageRecord :=
  match get images ns key with
  | some rec => some rec
  | none => (list images ns).find? (matchesKey key)

/-- `RuntimeSvc::find_image`. -/
def RuntimeSvc.findImage (images : Table ImageRecord) (imageRef : String) : Option ImageRecord :=
  (list images ns).find? fun r => matchesKey imageRef r || r.name == imageRef

/-! ## Pull and remove -/

/-- Errors of the metadata calls of one request. -/
structure Faults where
  find : Option String
  get : Option String
  put : Option String
  delete : Option String
  list : Option String

/-- No metadata call fails. -/
def Faults.none : Faults := ⟨.none, .none, .none, .none, .none⟩

/-- Error answers of the image service. -/
inductive ImageStatus where
  | invalidArgument (message : String)
  | unauthenticated (reference : String) (e : Images.Error)
  | pullFailed (reference : String) (e : Images.Error)
  | internal (message : String)

/-- Successful answers. -/
inductive Reply where
  | pulled (imageRef : String)
  | removed

/-- The image table of the metadata store, content store and snapshot directories. -/
structure ImageState (Tree : Type) where
  images : Table ImageRecord
  stores : Stores Tree

variable {Tree : Type}

/-- The repoDigest a pull adds. -/
def digestRef (reference : String) (pulled : PulledImage) : Option String :=
  if isDigestRef reference then some reference
  else pulled.manifestDigest.map fun d => repoName reference ++ "@" ++ d.toString

/-- The repoTag a pull adds. -/
def tagRef (reference : String) : Option String :=
  if isDigestRef reference then none else some (normalizeImageRef reference)

/-- The record of an image that is not stored yet. -/
def newRecord (reference : String) (pulled : PulledImage) : ImageRecord where
  name := (tagRef reference).getD reference
  targetDigest := (pulled.manifestDigest.map (·.toString)).getD ""
  imageId := pulled.imageId.toString
  repoTags := []
  repoDigests := []
  size := pulled.size
  layerDigests := pulled.layerDigests.map (·.toString)
  chainIds := pulled.chainIds.map (·.toString)
  user := pulled.user

/-- Append unless it is there. -/
def pushNew (x : Option String) (l : List String) : List String :=
  match x with
  | none => l
  | some x => if x ∈ l then l else l ++ [x]

/-- The record a pull stores: the one found under the image id, or a new one, with the pulled
    tag and digest. -/
def pullRecord (existing : Option ImageRecord) (reference : String) (pulled : PulledImage) :
    ImageRecord :=
  let record := existing.getD (newRecord reference pulled)
  { record with
    repoTags := pushNew (tagRef reference) record.repoTags
    repoDigests := pushNew (digestRef reference pulled) record.repoDigests }

/-- `pull_image`. -/
def pullImage (h : Host Tree) (a : Answer) (f : Faults) (reference : String)
    (s : ImageState Tree) : Except ImageStatus Reply × ImageState Tree :=
  if reference = "" then (.error (.invalidArgument "image reference required"), s)
  else
    match pullWithOptions h a reference s.stores with
    | (.error e, stores) =>
      let s := { s with stores := stores }
      if e.isAuthError then (.error (.unauthenticated reference e), s)
      else (.error (.pullFailed reference e), s)
    | (.ok pulled, stores) =>
      let s := { s with stores := stores }
      let imageId := pulled.imageId.toString
      match f.get, f.put with
      | some e, _ => (.error (.internal e), s)
      | none, some e => (.error (.internal e), s)
      | none, none =>
        let record := pullRecord (get s.images ns imageId) reference pulled
        (.ok (.pulled imageId), { s with images := put s.images ns imageId record })

/-- `remove_image`. -/
def removeImage (f : Faults) (key : String) (s : ImageState Tree) :
    Except ImageStatus Reply × ImageState Tree :=
  match f.find with
  | some e => (.error (.internal e), s)
  | none =>
    match ImageSvc.findImage s.images key with
    | none => (.ok .removed, s)
    | some rec =>
      match f.delete with
      | some e => (.error (.internal e), s)
      | none =>
        let s := { s with images := (delete s.images ns rec.imageId).2 }
        match f.list with
        | some e => (.error (.internal e), s)
        | none => (.ok .removed, { s with stores := (reclaim s.stores rec (list s.images ns)).2 })

/-- A complete request. -/
inductive ImageRequest where
  | pull (reference : String) (a : Answer) (f : Faults)
  | remove (key : String) (f : Faults)

/-- The answer to a request and the state after it. -/
def handle (h : Host Tree) (s : ImageState Tree) :
    ImageRequest → Except ImageStatus Reply × ImageState Tree
  | .pull reference a f => pullImage h a f reference s
  | .remove key f => removeImage f key s

/-- Requests one after another. -/
def imageStep (h : Host Tree) (s : ImageState Tree) (r : ImageRequest) :
    Option (ImageState Tree) := some (handle h s r).2

/-! ## What a request changes -/

theorem mem_pushNew {x : Option String} {l : List String} {y : String} :
    y ∈ pushNew x l ↔ y ∈ l ∨ x = some y := by
  unfold pushNew
  split
  · simp
  · rename_i z
    split
    · rename_i hz
      constructor
      · exact Or.inl
      · rintro (hy | hy)
        · exact hy
        · cases hy
          exact hz
    · simp [eq_comm]

/-- A successful pull: what was pulled, and the table and stores after it. -/
theorem pullImage_ok {h : Host Tree} {a : Answer} {f : Faults} {reference : String}
    {s s' : ImageState Tree} {r : Reply} (hp : pullImage h a f reference s = (.ok r, s')) :
    ∃ pulled, pullWithOptions h a reference s.stores = (.ok pulled, s'.stores) ∧
      r = .pulled pulled.imageId.toString ∧
      s'.images = put s.images ns pulled.imageId.toString
        (pullRecord (get s.images ns pulled.imageId.toString) reference pulled) := by
  unfold pullImage at hp
  split at hp
  · cases hp
  · split at hp
    · dsimp only at hp
      split at hp <;> cases hp
    · rename_i pulled stores hw
      dsimp only at hp
      split at hp
      · cases hp
      · cases hp
      · cases hp
        exact ⟨pulled, hw, rfl, rfl⟩

/-- A failed pull leaves the image table alone. -/
theorem pullImage_error {h : Host Tree} {a : Answer} {f : Faults} {reference : String}
    {s s' : ImageState Tree} {e : ImageStatus} (hp : pullImage h a f reference s = (.error e, s')) :
    s'.images = s.images := by
  unfold pullImage at hp
  split at hp
  · cases hp
    rfl
  · split at hp
    · dsimp only at hp
      split at hp <;> cases hp <;> rfl
    · dsimp only at hp
      split at hp
      · cases hp; rfl
      · cases hp; rfl
      · cases hp

/-- A removal leaves the table alone or deletes the record it found. -/
theorem removeImage_images (f : Faults) (key : String) (s : ImageState Tree) :
    (removeImage f key s).2.images = s.images ∨
      ∃ rec, ImageSvc.findImage s.images key = some rec ∧
        (removeImage f key s).2.images = (delete s.images ns rec.imageId).2 := by
  unfold removeImage
  split
  · exact Or.inl rfl
  · split
    · exact Or.inl rfl
    · rename_i rec hf
      split
      · exact Or.inl rfl
      · refine Or.inr ⟨rec, hf, ?_⟩
        dsimp only
        split <;> rfl

/-- A request leaves the table alone, deletes a record, or puts the record of an image it pulled. -/
theorem imageStep_images {h : Host Tree} {s s' : ImageState Tree} {r : ImageRequest}
    (hstep : imageStep h s r = some s') :
    s'.images = s.images ∨ (∃ id, s'.images = (delete s.images ns id).2) ∨
      ∃ reference a f pulled, r = .pull reference a f ∧
        (handle h s r).1 = .ok (.pulled pulled.imageId.toString) ∧
        s'.images = put s.images ns pulled.imageId.toString
          (pullRecord (get s.images ns pulled.imageId.toString) reference pulled) := by
  cases hstep
  cases r with
  | remove key f =>
    rcases removeImage_images f key s with himg | ⟨rec, -, himg⟩
    · exact Or.inl himg
    · exact Or.inr (Or.inl ⟨rec.imageId, himg⟩)
  | pull reference a f =>
    rw [handle]
    rcases hp : pullImage h a f reference s with ⟨e | reply, s'⟩
    · exact Or.inl (pullImage_error hp)
    · obtain ⟨pulled, -, rfl, himg⟩ := pullImage_ok hp
      exact Or.inr (Or.inr ⟨reference, a, f, pulled, rfl, rfl, himg⟩)

/-! ## An image of one empty layer -/

/-- The sha256 of the empty layer. -/
def emptyLayerDigest : Digest := emptyDigest

/-- The config of an image whose one layer is empty. -/
def oneLayerConfig : Bytes :=
  ("\x7b\"rootfs\":\x7b\"diff_ids\":[\"" ++ emptyLayerDigest.toString ++
    "\"]\x7d\x7d").toUTF8.data.toList

/-- The sha256 of `oneLayerConfig`. -/
def oneLayerDigest : Digest :=
  ⟨"a6f6d510e0c877d10f3682aab51cd49558b30deab0abfd97306386150a1a382a", by decide, by decide⟩

end ContainerdRs.Cri

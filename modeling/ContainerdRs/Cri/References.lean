import ContainerdRs.Cri.LookupsAgree

/-!
# Image references (`repo_name`, `normalize_image_ref`)

A reference is `[host[:port]/]path[:tag]`.  The last `/` and the last `:` behind it tell the tag
from a port.  A reference without a tag is stored and looked up with `:latest`.

* `Reference` — a well-formed reference.
* `repoName_name`, `repoName_tagged` — what `repo_name` strips.
* `findImage_latest` — a lookup without the tag finds what a lookup with `:latest` finds.
* `reference_normalisation` — the tag is stripped, normal forms, both spellings.
-/

set_option autoImplicit false

namespace ContainerdRs.Cri

open Images Metadata Separators Transition

variable {Tree : Type}

/-! ## Well-formed references -/

/-- `host[:port]`. -/
structure Registry where
  host : String
  port : Option String

def Registry.text (g : Registry) : String :=
  match g.port with
  | none => g.host
  | some port => g.host ++ ":" ++ port

/-- `[host[:port]/]path[:tag]`, without a digest. -/
structure Reference where
  registry : Option Registry
  path : String
  tag : Option String
  registry_plain : ∀ g ∈ registry, '/' ∉ g.text.toList ∧ '@' ∉ g.text.toList
  path_plain : ':' ∉ path.toList ∧ '@' ∉ path.toList
  tag_plain : ∀ t ∈ tag, '/' ∉ t.toList ∧ ':' ∉ t.toList ∧ '@' ∉ t.toList

namespace Reference

/-- The reference without its tag. -/
def name (r : Reference) : String :=
  match r.registry with
  | none => r.path
  | some g => g.text ++ "/" ++ r.path

def text (r : Reference) : String :=
  match r.tag with
  | none => r.name
  | some t => r.name ++ ":" ++ t

end Reference

/-! ## The scan of `repo_name` -/

/-- No `:` behind the last `/`. -/
def Untagged (cs : List Char) : Prop :=
  ('/' ∉ cs ∧ ':' ∉ cs) ∨ ∃ dir seg, cs = dir ++ '/' :: seg ∧ '/' ∉ seg ∧ ':' ∉ seg

theorem repoName_untagged {s : String} (h : Untagged s.toList) : repoName s = s := by
  unfold repoName
  rcases h with ⟨hslash, hcolon⟩ | ⟨dir, seg, hs, hslash, hcolon⟩
  · rw [rcut_eq_none.2 hslash, rcut_eq_none.2 hcolon]
  · rw [hs, rcut_append _ _ _ hslash]
    dsimp only
    rw [rcut_eq_none.2 hcolon]

theorem repoName_tagged {s t : String} (h : Untagged s.toList) (hslash : '/' ∉ t.toList)
    (hcolon : ':' ∉ t.toList) : repoName (s ++ ":" ++ t) = s := by
  have hlist : (s ++ ":" ++ t).toList = s.toList ++ ':' :: t.toList := by
    rw [String.toList_append, String.toList_append, List.append_assoc]
    rfl
  unfold repoName
  rw [hlist]
  rcases h with ⟨hs, -⟩ | ⟨dir, seg, hs, hseg, -⟩
  · have hnone : '/' ∉ s.toList ++ ':' :: t.toList := by simp [hs, hslash]
    rw [rcut_eq_none.2 hnone, rcut_append _ _ _ hcolon]
    exact String.ofList_toList
  · have hlast : '/' ∉ seg ++ ':' :: t.toList := by simp [hseg, hslash]
    rw [hs, List.append_assoc, List.cons_append, rcut_append _ _ _ hlast]
    dsimp only
    rw [rcut_append _ _ _ hcolon]
    dsimp only
    rw [← hs, String.ofList_toList]

namespace Reference

/-- The port of a registry stands before a `/`, and a path has no `:`. -/
theorem untagged_name (r : Reference) : Untagged r.name.toList := by
  have hcolon := r.path_plain.1
  cases hcut : rcut '/' r.path.toList with
  | some p =>
    obtain ⟨hpath, hseg⟩ := rcut_eq_some hcut
    have hplain : ':' ∉ p.2 := by
      intro h
      rw [hpath] at hcolon
      exact hcolon (List.mem_append_right _ (List.mem_cons_of_mem _ h))
    right
    unfold name
    cases r.registry with
    | none => exact ⟨p.1, p.2, hpath, hseg, hplain⟩
    | some g =>
      refine ⟨(g.text ++ "/").toList ++ p.1, p.2, ?_, hseg, hplain⟩
      dsimp only
      rw [String.toList_append, hpath, List.append_assoc]
  | none =>
    have hslash := rcut_eq_none.1 hcut
    unfold name
    cases r.registry with
    | none => exact Or.inl ⟨hslash, hcolon⟩
    | some g =>
      refine Or.inr ⟨g.text.toList, r.path.toList, ?_, hslash, hcolon⟩
      dsimp only
      rw [String.toList_append, String.toList_append, List.append_assoc]
      rfl

/-- `repo_name` strips exactly the tag. -/
theorem repoName_text (r : Reference) : repoName r.text = r.name := by
  unfold text
  cases htag : r.tag with
  | none => exact repoName_untagged r.untagged_name
  | some t =>
    obtain ⟨hslash, hcolon, -⟩ := r.tag_plain t htag
    exact repoName_tagged r.untagged_name hslash hcolon

example : repoName "host:5000/img" = "host:5000/img" ∧
    repoName "host:5000/img:v2" = "host:5000/img" := by decide

theorem isDigestRef_text (r : Reference) : isDigestRef r.text = false := by
  have hname : '@' ∉ r.name.toList := by
    unfold name
    cases hg : r.registry with
    | none => exact r.path_plain.2
    | some g =>
      have hplain := (r.registry_plain g hg).2
      dsimp only
      rw [String.toList_append, String.toList_append]
      simp [hplain, r.path_plain.2]
  unfold isDigestRef text
  cases htag : r.tag with
  | none => simp [hname]
  | some t =>
    have hplain := (r.tag_plain t htag).2.2
    simp [String.toList_append, hname, hplain]

/-- A reference without a tag gets `:latest`. -/
theorem normalizeImageRef_text {r : Reference} (h : r.tag = none) :
    normalizeImageRef r.text = r.text ++ ":latest" := by
  have hsame : repoName r.text = r.text := by
    rw [repoName_text, text, h]
  rw [normalizeImageRef, if_neg]
  simp [isDigestRef_text, hsame]

end Reference

/-! ## Lookups -/

theorem normalizeImageRef_latest (s : String) :
    normalizeImageRef (s ++ ":latest") = s ++ ":latest" := by
  rw [normalizeImageRef, if_pos (Or.inr (repoName_latest s))]

theorem ne_append_latest (s : String) : s ≠ s ++ ":latest" := by
  intro h
  have hlen := congrArg (fun t => t.toList.length) h
  simp only [String.toList_append, List.length_append] at hlen
  have hpos : 0 < ":latest".toList.length := by decide
  omega

/-- A reference that gets `:latest` is no image id, with the tag or without. -/
theorem get_eq_none_of_latest {images : Table ImageRecord} (hi : RecordsInv images) {s : String}
    (h : normalizeImageRef s = s ++ ":latest") :
    get images ns s = none ∧ get images ns (s ++ ":latest") = none := by
  have hno : ∀ d : Digest, s ≠ d.toString := by
    rintro d rfl
    rw [normalizeImageRef_digest] at h
    exact ne_append_latest _ h
  have hnone : ∀ key, (∀ d : Digest, key ≠ d.toString) → get images ns key = none := by
    intro key hkey
    cases hget : get images ns key with
    | none => rfl
    | some rec =>
      obtain ⟨d, hd⟩ := (hi key rec hget).isId
      exact absurd hd (hkey d)
  refine ⟨hnone s hno, hnone _ ?_⟩
  intro d hd
  rw [← h] at hd
  exact hno d (normalizeImageRef_eq_digest hd)

/-- Both spellings match the same records. -/
theorem matchesKey_latest {images : Table ImageRecord} (hi : RecordsInv images) {s : String}
    (h : normalizeImageRef s = s ++ ":latest") {id : String} {r : ImageRecord}
    (hget : get images ns id = some r) :
    matchesKey s r = matchesKey (s ++ ":latest") r := by
  obtain ⟨hs, hlatest⟩ := get_eq_none_of_latest hi h
  have hne : ∀ key, get images ns key = none → id ≠ key := by
    rintro key hkey rfl
    rw [hget] at hkey
    cases hkey
  have hdigest : isDigestRef (s ++ ":latest") = isDigestRef s := by
    rw [← h, isDigestRef_normalizeImageRef]
  have hplain : isDigestRef s = false := by
    cases hd : isDigestRef s with
    | false => rfl
    | true =>
      rw [normalizeImageRef, if_pos (Or.inl hd)] at h
      exact absurd h (ne_append_latest s)
  rw [Bool.eq_iff_iff, matchesKey_iff (hi id r hget), matchesKey_iff (hi id r hget), hdigest,
    hplain, normalizeImageRef_latest, h]
  simp [hne s hs, hne _ hlatest]

/-- Both spellings find the same record. -/
theorem findImage_latest {images : Table ImageRecord} (hi : RecordsInv images) {s : String}
    (h : normalizeImageRef s = s ++ ":latest") :
    ImageSvc.findImage images s = ImageSvc.findImage images (s ++ ":latest") ∧
      RuntimeSvc.findImage images s = RuntimeSvc.findImage images (s ++ ":latest") := by
  obtain ⟨hs, hlatest⟩ := get_eq_none_of_latest hi h
  have hscan : scanImages images s = scanImages images (s ++ ":latest") := by
    unfold scanImages
    apply List.find?_congr
    intro r hr
    obtain ⟨id, hget⟩ := mem_list.1 hr
    exact matchesKey_latest hi h hget
  refine ⟨?_, ?_⟩
  · rw [ImageSvc.findImage, hs, ImageSvc.findImage, hlatest]
    exact hscan
  · rw [RuntimeSvc.findImage_eq hi, RuntimeSvc.findImage_eq hi, hscan]

/-- Every sequence of requests leaves records under their ids. -/
theorem recordsInv_of_run {h : Host Tree} {s₀ s : ImageState Tree}
    (h₀ : s₀.images = OrdMap.empty) {ls : List ImageRequest}
    (hrun : run (imageStep h) s₀ ls = some s) : RecordsInv s.images := by
  have hinit : RecordsInv s₀.images := by
    rw [h₀]
    exact lookupInv_empty.records
  have hstep : ∀ (s : ImageState Tree) (r : ImageRequest) (s' : ImageState Tree),
      RecordsInv s.images → True → imageStep h s r = some s' → RecordsInv s'.images :=
    fun _ _ _ hi _ hstep => recordsInv_step hi hstep
  exact run_invariant hstep ls s₀ s hinit (fun _ _ => trivial) hrun

/-- **Reference normalisation**: `repo_name` strips exactly the tag of a well-formed reference;
    normalising any text twice changes nothing and gives a digest or a tag; a well-formed
    reference without a tag and the same with `:latest` are normalised to one reference, and after
    any sequence of requests they find the same image. -/
theorem reference_normalisation :
    (∀ r : Reference, repoName r.text = r.name) ∧
    (∀ s, normalizeImageRef (normalizeImageRef s) = normalizeImageRef s ∧
      (isDigestRef (normalizeImageRef s) = true ∨
        repoName (normalizeImageRef s) ≠ normalizeImageRef s)) ∧
    (∀ r : Reference, r.tag = none →
      normalizeImageRef r.text = normalizeImageRef (r.text ++ ":latest")) ∧
    ∀ (r : Reference), r.tag = none → ∀ (Tree : Type) (h : Host Tree) (s₀ s : ImageState Tree)
      (ls : List ImageRequest), s₀.images = OrdMap.empty → run (imageStep h) s₀ ls = some s →
      ImageSvc.findImage s.images r.text = ImageSvc.findImage s.images (r.text ++ ":latest") ∧
        RuntimeSvc.findImage s.images r.text =
          RuntimeSvc.findImage s.images (r.text ++ ":latest") := by
  refine ⟨Reference.repoName_text, ?_, ?_, ?_⟩
  · intro s
    refine ⟨normalizeImageRef_idem s, ?_⟩
    by_cases hs : isDigestRef s = true ∨ repoName s ≠ s
    · have hsame : normalizeImageRef s = s := if_pos hs
      rw [hsame]
      exact hs
    · have hlatest : normalizeImageRef s = s ++ ":latest" := if_neg hs
      rw [hlatest]
      exact Or.inr (repoName_latest s)
  · intro r htag
    rw [Reference.normalizeImageRef_text htag, normalizeImageRef_latest]
  · intro r htag Tree h s₀ s ls h₀ hrun
    exact findImage_latest (recordsInv_of_run h₀ hrun) (Reference.normalizeImageRef_text htag)

end ContainerdRs.Cri

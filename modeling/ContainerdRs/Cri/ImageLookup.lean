import ContainerdRs.Cri.Images

/-!
# Lookups after a pull

A pull adds its tag to the record of the image it got and leaves the other records alone, so a
tag that moved stays on the record it was on before; a lookup scans the records in key order and
takes the first match.

* `LookupInv` — what holds of the image table in every run.
* `matchesKey_iff` — what a lookup matches, given the invariant; both lookups match the same.
* `pulled_image_found_iff` — over every sequence of requests: both lookups find the pulled image
  right after each pull and no tag is on two records, exactly when no pull meets another record
  that already answers to its reference.
* `moved_tag_stays` — the run in which a tag moves.
-/

set_option autoImplicit false

namespace ContainerdRs.Cri

open Images Metadata Transition

variable {Tree : Type}

/-- No repo tag is carried by two records. -/
def TagsUnique (images : Table ImageRecord) : Prop :=
  ∀ id id' r r' t, get images ns id = some r → get images ns id' = some r' →
    t ∈ r.repoTags → t ∈ r'.repoTags → id = id'

/-- Facts about one stored record. -/
structure RecordInv (id : String) (r : ImageRecord) : Prop where
  keyed : r.imageId = id
  isId : ∃ d : Digest, id = d.toString
  tags : ∀ t ∈ r.repoTags, isDigestRef t = false ∧ normalizeImageRef t = t
  digests : ∀ d ∈ r.repoDigests, isDigestRef d = true
  named : r.name ∈ r.repoTags ∨ r.name ∈ r.repoDigests

/-- Every stored record is keyed by its image id, and its tags and digests are told apart by
    the `@`. -/
def RecordsInv (images : Table ImageRecord) : Prop :=
  ∀ id r, get images ns id = some r → RecordInv id r

/-- The invariant of the image table. -/
structure LookupInv (images : Table ImageRecord) : Prop where
  records : RecordsInv images
  unique : TagsUnique images

/-- What a reference matches: the image id, and a digest or the normalised tag. -/
theorem matchesKey_iff {id key : String} {r : ImageRecord} (hr : RecordInv id r) :
    matchesKey key r = true ↔ id = key ∨
      (isDigestRef key = true ∧ key ∈ r.repoDigests) ∨
      (isDigestRef key = false ∧ normalizeImageRef key ∈ r.repoTags) := by
  simp only [matchesKey, Bool.or_eq_true, List.any_eq_true, beq_iff_eq, hr.keyed, or_assoc]
  refine or_congr_right ?_
  constructor
  · rintro (⟨t, ht, rfl | rfl⟩ | ⟨d, hd, rfl⟩)
    · right
      obtain ⟨h1, h2⟩ := hr.tags t ht
      exact ⟨h1, h2.symm ▸ ht⟩
    · right
      have h1 := (hr.tags _ ht).1
      rw [isDigestRef_normalizeImageRef] at h1
      exact ⟨h1, ht⟩
    · left
      exact ⟨hr.digests d hd, hd⟩
  · rintro (⟨-, hd⟩ | ⟨-, ht⟩)
    · exact Or.inr ⟨key, hd, rfl⟩
    · exact Or.inl ⟨_, ht, Or.inr rfl⟩

/-- The name adds nothing to the match: it is a tag or a digest of the record. -/
theorem matches_name {id key : String} {r : ImageRecord} (hr : RecordInv id r) :
    (matchesKey key r || r.name == key) = matchesKey key r := by
  by_cases hn : r.name = key
  · subst hn
    have hm : matchesKey r.name r = true := by
      rw [matchesKey_iff hr]
      right
      rcases hr.named with ht | hd
      · right
        obtain ⟨h1, h2⟩ := hr.tags _ ht
        exact ⟨h1, h2.symm ▸ ht⟩
      · left
        exact ⟨hr.digests _ hd, hd⟩
    simp [hm]
  · simp [hn]

/-- The scan of `ImageSvc::find_image`. -/
def scanImages (images : Table ImageRecord) (key : String) : Option ImageRecord :=
  (list images ns).find? (matchesKey key)

/-- Both lookups scan for the same records. -/
theorem RuntimeSvc.findImage_eq {images : Table ImageRecord} (hi : RecordsInv images)
    (key : String) : RuntimeSvc.findImage images key = scanImages images key := by
  unfold RuntimeSvc.findImage
  apply List.find?_congr
  intro r hr
  obtain ⟨id, hg⟩ := mem_list.1 hr
  exact matches_name (hi id r hg)

/-! ## One pull -/

/-- A lookup of `reference` gives the record of image `X`. -/
def FoundBy (find : Table ImageRecord → String → Option ImageRecord)
    (images : Table ImageRecord) (reference X : String) : Prop :=
  ∃ r, find images reference = some r ∧ r.imageId = X

/-- The condition on a pull of `reference` that gets image `X`, on the table before it: no other
    image has the reference as its id, carries its tag, or carries the digest reference under a
    smaller key. -/
def PullSafe (images : Table ImageRecord) (reference X : String) : Prop :=
  (∀ r, get images ns reference = some r → reference = X) ∧
    ∀ id r, get images ns id = some r → id ≠ X →
      (isDigestRef reference = false → normalizeImageRef reference ∉ r.repoTags) ∧
        (isDigestRef reference = true → reference ∈ r.repoDigests → key ns X < key ns id)

theorem pullRecord_imageId {existing : Option ImageRecord} {reference : String}
    {pulled : PulledImage} (he : ∀ r ∈ existing, r.imageId = pulled.imageId.toString) :
    (pullRecord existing reference pulled).imageId = pulled.imageId.toString := by
  cases existing with
  | none => rfl
  | some r => exact he r rfl

/-- The stored record carries the tag or digest it was pulled by. -/
theorem pullRecord_carries (existing : Option ImageRecord) (reference : String)
    (pulled : PulledImage) :
    (isDigestRef reference = true →
        reference ∈ (pullRecord existing reference pulled).repoDigests) ∧
      (isDigestRef reference = false →
        normalizeImageRef reference ∈ (pullRecord existing reference pulled).repoTags) := by
  constructor
  · intro h
    simp [pullRecord, mem_pushNew, digestRef, h]
  · intro h
    simp [pullRecord, mem_pushNew, tagRef, h]

theorem mem_pullRecord_tags {existing : Option ImageRecord} {reference t : String}
    {pulled : PulledImage} (h : t ∈ (pullRecord existing reference pulled).repoTags) :
    (∃ r ∈ existing, t ∈ r.repoTags) ∨
      (isDigestRef reference = false ∧ t = normalizeImageRef reference) := by
  simp only [pullRecord, mem_pushNew, tagRef, Option.ite_none_left_eq_some,
    Bool.not_eq_true, Option.some.injEq] at h
  rcases h with h | ⟨h1, h2⟩
  · cases existing with
    | none => cases h
    | some r => exact Or.inl ⟨r, rfl, h⟩
  · exact Or.inr ⟨h1, h2.symm⟩

theorem pullRecord_inv {existing : Option ImageRecord} {reference : String}
    {pulled : PulledImage} (he : ∀ r ∈ existing, RecordInv pulled.imageId.toString r) :
    RecordInv pulled.imageId.toString (pullRecord existing reference pulled) := by
  refine ⟨pullRecord_imageId fun r hr => (he r hr).keyed, ⟨_, rfl⟩, ?_, ?_, ?_⟩
  · intro t ht
    rcases mem_pullRecord_tags ht with ⟨r, hr, ht⟩ | ⟨hd, rfl⟩
    · exact (he r hr).tags t ht
    · exact ⟨by rw [isDigestRef_normalizeImageRef, hd], normalizeImageRef_idem reference⟩
  · intro d hd
    simp only [pullRecord, mem_pushNew, digestRef] at hd
    rcases hd with hd | hd
    · cases existing with
      | none => cases hd
      | some r => exact (he r rfl).digests d hd
    · split at hd
      · cases hd
        assumption
      · obtain ⟨m, -, rfl⟩ := Option.map_eq_some_iff.1 hd
        simp [isDigestRef, String.toList_append]
  · cases existing with
    | some r =>
      rcases (he r rfl).named with h | h
      · exact Or.inl (mem_pushNew.2 (Or.inl h))
      · exact Or.inr (mem_pushNew.2 (Or.inl h))
    | none =>
      obtain ⟨h1, h2⟩ := pullRecord_carries none reference pulled
      cases hd : isDigestRef reference with
      | true =>
        right
        have hname : (pullRecord none reference pulled).name = reference := by
          simp [pullRecord, newRecord, tagRef, hd]
        rw [hname]
        exact h1 hd
      | false =>
        left
        have hname : (pullRecord none reference pulled).name = normalizeImageRef reference := by
          simp [pullRecord, newRecord, tagRef, hd]
        rw [hname]
        exact h2 hd

theorem recordsInv_put {images : Table ImageRecord} {id : String} {v : ImageRecord}
    (hi : RecordsInv images) (hv : RecordInv id v) : RecordsInv (put images ns id v) := by
  intro id' r hr
  rw [get_put] at hr
  split at hr
  · rename_i h
    cases hr
    exact h ▸ hv
  · exact hi id' r hr

section Put

variable {images : Table ImageRecord} {reference : String} {pulled : PulledImage}

/-- The table after a pull. -/
def pullTable (images : Table ImageRecord) (reference : String) (pulled : PulledImage) :
    Table ImageRecord :=
  put images ns pulled.imageId.toString
    (pullRecord (get images ns pulled.imageId.toString) reference pulled)

theorem pullTable_records (reference : String) (pulled : PulledImage) (hi : RecordsInv images) :
    RecordsInv (pullTable images reference pulled) :=
  recordsInv_put hi (pullRecord_inv fun r hr => hi _ r hr)

theorem get_pullTable_self :
    get (pullTable images reference pulled) ns pulled.imageId.toString =
      some (pullRecord (get images ns pulled.imageId.toString) reference pulled) := by
  rw [pullTable, get_put, if_pos rfl]

theorem get_pullTable_other {id : String} (h : id ≠ pulled.imageId.toString) :
    get (pullTable images reference pulled) ns id = get images ns id := by
  rw [pullTable, get_put, if_neg h]

/-- The pulled record itself answers to the reference. -/
theorem matchesKey_pulled (hi : RecordsInv images) :
    matchesKey reference (pullRecord (get images ns pulled.imageId.toString) reference pulled) =
      true := by
  have hr : RecordInv pulled.imageId.toString
      (pullRecord (get images ns pulled.imageId.toString) reference pulled) :=
    pullRecord_inv fun r hr => hi _ r hr
  obtain ⟨h1, h2⟩ :=
    pullRecord_carries (get images ns pulled.imageId.toString) reference pulled
  rw [matchesKey_iff hr]
  right
  cases hd : isDigestRef reference with
  | true => exact Or.inl ⟨rfl, h1 hd⟩
  | false => exact Or.inr ⟨rfl, h2 hd⟩

/-- The scan finds the pulled image exactly when no match stands before it. -/
theorem scan_pulled_iff (hi : RecordsInv images) :
    FoundBy scanImages (pullTable images reference pulled) reference
        pulled.imageId.toString ↔
      ∀ id r, get images ns id = some r → id ≠ pulled.imageId.toString →
        matchesKey reference r = true →
          key ns pulled.imageId.toString ≤ key ns id := by
  have hi' := pullTable_records reference pulled hi
  constructor
  · rintro ⟨v, hv, hid⟩ id r hg hne hm
    obtain ⟨id₀, hg₀, -, hmin⟩ := list_find?.1 hv
    have hid₀ : id₀ = pulled.imageId.toString := (hi' id₀ v hg₀).keyed.symm.trans hid
    rw [← hid₀]
    exact hmin id r (by rw [get_pullTable_other hne]; exact hg) hm
  · intro h
    refine ⟨_, list_find?.2 ⟨_, get_pullTable_self, matchesKey_pulled hi, ?_⟩,
      (hi' _ _ get_pullTable_self).keyed⟩
    intro id r hg hm
    by_cases hne : id = pulled.imageId.toString
    · rw [hne]
    · rw [get_pullTable_other hne] at hg
      exact h id r hg hne hm

/-- With the condition, only records behind the pulled one answer to the reference. -/
theorem PullSafe.key_le (hi : RecordsInv images)
    (hs : PullSafe images reference pulled.imageId.toString) {id : String} {r : ImageRecord}
    (hg : get images ns id = some r) (hne : id ≠ pulled.imageId.toString)
    (hm : matchesKey reference r = true) : key ns pulled.imageId.toString ≤ key ns id := by
  obtain ⟨htag, hdig⟩ := hs.2 id r hg hne
  rcases (matchesKey_iff (hi id r hg)).1 hm with rfl | ⟨h1, h2⟩ | ⟨h1, h2⟩
  · exact absurd (hs.1 r hg) hne
  · exact le_of_lt (hdig h1 h2)
  · exact absurd h2 (htag h1)

theorem pullTable_unique (hi : LookupInv images)
    (hs : PullSafe images reference pulled.imageId.toString) :
    TagsUnique (pullTable images reference pulled) := by
  -- the pulled record against any other one
  have key : ∀ id r t, id ≠ pulled.imageId.toString → get images ns id = some r →
      t ∈ r.repoTags →
      t ∉ (pullRecord (get images ns pulled.imageId.toString) reference pulled).repoTags := by
    intro id r t hne hg ht ht'
    rcases mem_pullRecord_tags ht' with ⟨r', hr', ht'⟩ | ⟨hd, rfl⟩
    · exact hne (hi.unique id _ r r' t hg hr' ht ht')
    · exact (hs.2 id r hg hne).1 hd ht
  intro id id' r r' t hg hg' ht ht'
  by_cases h : id = pulled.imageId.toString
  · by_cases h' : id' = pulled.imageId.toString
    · rw [h, h']
    · rw [h, get_pullTable_self] at hg
      rw [get_pullTable_other h'] at hg'
      cases hg
      exact absurd ht (key id' r' t h' hg' ht')
  · rw [get_pullTable_other h] at hg
    by_cases h' : id' = pulled.imageId.toString
    · rw [h', get_pullTable_self] at hg'
      cases hg'
      exact absurd ht' (key id r t h hg ht)
    · rw [get_pullTable_other h'] at hg'
      exact hi.unique id id' r r' t hg hg' ht ht'

/-- **One pull**: both lookups find the image and tags stay unique exactly under `PullSafe`. -/
theorem pull_found_iff (hi : LookupInv images) :
    (TagsUnique (pullTable images reference pulled) ∧
      FoundBy ImageSvc.findImage (pullTable images reference pulled) reference
        pulled.imageId.toString ∧
      FoundBy RuntimeSvc.findImage (pullTable images reference pulled) reference
        pulled.imageId.toString) ↔
      PullSafe images reference pulled.imageId.toString := by
  have hi' := pullTable_records reference pulled hi.records
  constructor
  · rintro ⟨hu, ⟨v, hv, hid⟩, hrun⟩
    refine ⟨fun r hg => ?_, fun id r hg hne => ⟨fun hd ht => ?_, fun hd hr => ?_⟩⟩
    · by_contra hne
      rw [ImageSvc.findImage, get_pullTable_other hne, hg] at hv
      cases hv
      exact hne ((hi.records _ _ hg).keyed.symm.trans hid)
    · refine hne (hu id _ r _ _ ?_ get_pullTable_self ht ((pullRecord_carries _ _ _).2 hd))
      rw [get_pullTable_other hne]
      exact hg
    · have hm : matchesKey reference r = true :=
        (matchesKey_iff (hi.records id r hg)).2 (Or.inr (Or.inl ⟨hd, hr⟩))
      have hscan : FoundBy scanImages (pullTable images reference pulled) reference
          pulled.imageId.toString := by
        obtain ⟨w, hw, hwid⟩ := hrun
        exact ⟨w, by rw [← RuntimeSvc.findImage_eq hi']; exact hw, hwid⟩
      have hle := (scan_pulled_iff hi.records).1 hscan id r hg hne hm
      exact lt_of_le_of_ne hle fun h => hne (key_inj.1 h).symm
  · intro hs
    have hscan := (scan_pulled_iff hi.records).2 fun id r hg hne hm =>
      hs.key_le hi.records hg hne hm
    refine ⟨pullTable_unique hi hs, ?_, ?_⟩
    · obtain ⟨w, hw, hwid⟩ := hscan
      by_cases href : reference = pulled.imageId.toString
      · refine ⟨_, ?_, (hi' _ _ get_pullTable_self).keyed⟩
        have hself : get (pullTable images reference pulled) ns reference =
            some (pullRecord (get images ns pulled.imageId.toString) reference pulled) := by
          nth_rewrite 2 [href]
          exact get_pullTable_self
        simp only [ImageSvc.findImage, hself]
      · have hnone : get images ns reference = none := by
          cases hg : get images ns reference with
          | none => rfl
          | some r => exact absurd (hs.1 r hg) href
        refine ⟨w, ?_, hwid⟩
        simp only [ImageSvc.findImage, get_pullTable_other href, hnone]
        exact hw
    · obtain ⟨w, hw, hwid⟩ := hscan
      exact ⟨w, by rw [RuntimeSvc.findImage_eq hi']; exact hw, hwid⟩

end Put

/-! ## Sequences of requests -/

/-- After a request: tags are unique and, if it pulled `X`, both lookups find `X`. -/
def FoundAfter (h : Host Tree) (x : ImageState Tree × ImageRequest × ImageState Tree) : Prop :=
  TagsUnique x.2.2.images ∧
    match x.2.1 with
    | .pull reference a f =>
      ∀ X, (handle h x.1 (.pull reference a f)).1 = .ok (.pulled X) →
        FoundBy ImageSvc.findImage x.2.2.images reference X ∧
          FoundBy RuntimeSvc.findImage x.2.2.images reference X
    | .remove _ _ => True

/-- The condition on a request, on the state before it. -/
def RequestSafe (h : Host Tree) (s : ImageState Tree) : ImageRequest → Prop
  | .pull reference a f =>
    ∀ X, (handle h s (.pull reference a f)).1 = .ok (.pulled X) → PullSafe s.images reference X
  | .remove _ _ => True

theorem lookupInv_delete {images : Table ImageRecord} (hi : LookupInv images) (id : String) :
    LookupInv (delete images ns id).2 where
  records := fun id' r hg => hi.records id' r (get_of_get_delete hg)
  unique := fun i i' r r' t hg hg' =>
    hi.unique i i' r r' t (get_of_get_delete hg) (get_of_get_delete hg')

theorem lookupInv_step {h : Host Tree} {s s' : ImageState Tree} {r : ImageRequest}
    (hi : LookupInv s.images) (hs : RequestSafe h s r) (hstep : imageStep h s r = some s') :
    LookupInv s'.images := by
  rcases imageStep_images hstep with himg | ⟨id, himg⟩ | ⟨reference, a, f, pulled, rfl, hok, himg⟩
  · rw [himg]
    exact hi
  · rw [himg]
    exact lookupInv_delete hi id
  · have hsafe := hs pulled.imageId.toString hok
    rw [himg]
    exact ⟨pullTable_records reference pulled hi.records, pullTable_unique hi hsafe⟩

/-- Every request leaves records under their ids. -/
theorem recordsInv_step {h : Host Tree} {s s' : ImageState Tree} {r : ImageRequest}
    (hi : RecordsInv s.images) (hstep : imageStep h s r = some s') : RecordsInv s'.images := by
  rcases imageStep_images hstep with himg | ⟨id, himg⟩ | ⟨reference, a, f, pulled, -, -, himg⟩
  · rw [himg]
    exact hi
  · rw [himg]
    exact fun id' r hg => hi id' r (get_of_get_delete hg)
  · rw [himg]
    exact pullTable_records reference pulled hi

theorem foundAfter_iff {h : Host Tree} {s s' : ImageState Tree} {r : ImageRequest}
    (hi : LookupInv s.images) (hstep : imageStep h s r = some s') :
    FoundAfter h (s, r, s') ↔ RequestSafe h s r := by
  cases hstep
  cases r with
  | remove key f =>
    have hsafe : RequestSafe h s (.remove key f) := trivial
    have hafter : LookupInv (handle h s (.remove key f)).2.images := lookupInv_step hi hsafe rfl
    exact iff_of_true ⟨hafter.unique, trivial⟩ trivial
  | pull reference a f =>
    cases hp : pullImage h a f reference s with
    | mk reply s' =>
      cases reply with
      | error e =>
        simp [FoundAfter, RequestSafe, handle, hp, pullImage_error hp, hi.unique]
      | ok reply =>
        obtain ⟨pulled, -, rfl, himg⟩ := pullImage_ok hp
        simp only [FoundAfter, RequestSafe, handle, hp, himg, Except.ok.injEq, Reply.pulled.injEq,
          forall_eq']
        exact pull_found_iff hi

theorem lookupInv_empty : LookupInv OrdMap.empty :=
  ⟨fun _ _ hg => by simp at hg, fun _ _ _ _ _ hg => by simp at hg⟩

theorem pullSafe_empty (reference X : String) : PullSafe OrdMap.empty reference X :=
  ⟨fun _ hg => by simp at hg, fun _ _ hg => by simp at hg⟩

/-- **Lookups along every sequence of requests** from an empty image table. -/
theorem pulled_image_found_iff (h : Host Tree) {s₀ : ImageState Tree}
    (h₀ : s₀.images = OrdMap.empty) (ls : List ImageRequest) :
    (∀ x ∈ steps (imageStep h) s₀ ls, FoundAfter h x) ↔
      ∀ x ∈ steps (imageStep h) s₀ ls, RequestSafe h x.1 x.2.1 := by
  have hinv : LookupInv s₀.images := h₀ ▸ lookupInv_empty
  have hstep : ∀ s l s', LookupInv s.images → RequestSafe h s l → imageStep h s l = some s' →
      LookupInv s'.images := fun _ _ _ hi hs h => lookupInv_step hi hs h
  exact forall_steps_iff hstep (fun _ _ _ hi h => foundAfter_iff hi h) ls s₀ hinv

/-- The config of an image without layers. -/
def rootConfig : Bytes := "\x7b\"rootfs\":\x7b\"diff_ids\":[]\x7d\x7d".toUTF8.data.toList

/-- The same image with another user. -/
def userConfig : Bytes :=
  "\x7b\"config\":\x7b\"User\":\"1\"\x7d,\"rootfs\":\x7b\"diff_ids\":[]\x7d\x7d".toUTF8.data.toList

/-- The sha256 of `rootConfig`. -/
def rootDigest : Digest :=
  ⟨"1af042414ee4ede82dfd34a3741d6a3de03264be0511e5fec59a7b15ad6cf625", by decide, by decide⟩

/-- The sha256 of `userConfig`. -/
def userDigest : Digest :=
  ⟨"7f280c3c2a3eec34596bb67c1aa11999e900ee9f08634b7712abc1315dc8165f", by decide, by decide⟩

/-- The code of a pull, on these two configs. -/
def configHost : Host Unit where
  sha256 b := if b = rootConfig then rootDigest else userDigest
  parseConfig b := .ok ⟨[], if b = userConfig then "1" else ""⟩
  computeDiffId _ _ := .error (.io "no layer")
  emptyDir := ()
  populated _ := false
  applyLayer _ _ _ := ((), none)

/-- The registry serves an image without layers. -/
def serves (config : Bytes) : Answer :=
  ⟨none, .ok ([], "", config), fun _ => .error (.io "no layer")⟩

/-- Nothing pulled yet. -/
def noImages : ImageState Unit := ⟨OrdMap.empty, ⟨OrdMap.empty, OrdMap.empty⟩⟩

/-- The first pull of a reference is found. -/
theorem first_pull_found :
    noImages.images = OrdMap.empty ∧
    ∀ x ∈ steps (imageStep configHost) noImages [.pull "busybox" (serves rootConfig) .none],
      FoundAfter configHost x := by
  have h₀ : noImages.images = OrdMap.empty := rfl
  refine ⟨h₀, (pulled_image_found_iff configHost h₀ _).2 ?_⟩
  intro x hx
  simp only [steps, imageStep, List.mem_singleton] at hx
  subst hx
  intro X _
  exact pullSafe_empty "busybox" X

/-- `busybox` resolves to one image, then to another: the tag is on both records, and the
    lookups return the first image. -/
theorem moved_tag_stays :
    ¬ ∀ (h : Host Unit) (s₀ : ImageState Unit) (ls : List ImageRequest),
      s₀.images = OrdMap.empty → ∀ x ∈ steps (imageStep h) s₀ ls, FoundAfter h x := by
  intro h
  have hx := h configHost noImages
    [.pull "busybox" (serves rootConfig) .none, .pull "busybox" (serves userConfig) .none] rfl
  simp only [steps, imageStep, List.forall_mem_cons] at hx
  obtain ⟨-, ⟨-, hfound⟩, -⟩ := hx
  have hid : (handle configHost
      (handle configHost noImages (.pull "busybox" (serves rootConfig) .none)).2
      (.pull "busybox" (serves userConfig) .none)).1 = .ok (.pulled userDigest.toString) := rfl
  obtain ⟨-, r, hr, hrid⟩ := hfound _ hid
  have hfirst : (RuntimeSvc.findImage (handle configHost
      (handle configHost noImages (.pull "busybox" (serves rootConfig) .none)).2
      (.pull "busybox" (serves userConfig) .none)).2.images "busybox").map (·.imageId) =
        some rootDigest.toString := rfl
  rw [hr, Option.map_some, hrid] at hfirst
  exact absurd hfirst (by decide)

end ContainerdRs.Cri

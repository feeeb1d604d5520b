import ContainerdRs.Cri.ImageLookup
import ContainerdRs.Digests

/-!
# The two image lookups agree

`ImageSvc::find_image` gets the record stored under the key before it scans;
`RuntimeSvc::find_image` only scans, and also matches the name.  The scan meets the record under
an image id first, unless a smaller record carries that id as a tag; a tag is a normalised
reference, so this needs a pull by an image id.

* `normalizeImageRef_eq_digest` — only an image id normalises to an image id.
* `findImage_agree` — the lookups agree when no tag is the id of a stored image.
* `lookups_agree` — they agree after every sequence of requests.
-/

set_option autoImplicit false

namespace ContainerdRs.Cri

open Images Metadata Separators Transition

variable {Tree : Type}

/-! ## Image ids as references -/

theorem isDigestRef_digest (d : Digest) : isDigestRef d.toString = false := by
  have hhex : '@' ∉ d.hex.toList := Digest.not_mem_hex (by decide) d
  rw [isDigestRef, Digest.toList_toString]
  simp [hhex]

/-- An image id counts as a tagged reference. -/
theorem normalizeImageRef_digest (d : Digest) : normalizeImageRef d.toString = d.toString := by
  have hslash : '/' ∉ d.toString.toList := by
    have hhex : '/' ∉ d.hex.toList := Digest.not_mem_hex (by decide) d
    rw [Digest.toList_toString]
    simp [hhex]
  have hname : repoName d.toString = "sha256" := by
    rw [repoName, rcut_eq_none.2 hslash]
    dsimp only
    rw [Digest.toList_toString, rcut_append _ _ _ (Digest.not_mem_hex (by decide) d)]
    rfl
  have hne : repoName d.toString ≠ d.toString := by
    rw [hname]
    intro h
    have hlen := congrArg (fun s => s.toList.length) h
    simp only [Digest.toList_toString, List.length_append, List.length_cons, d.length] at hlen
    omega
  rw [normalizeImageRef, if_pos (Or.inr hne)]

theorem normalizeImageRef_eq_digest {reference : String} {d : Digest}
    (h : normalizeImageRef reference = d.toString) : reference = d.toString := by
  unfold normalizeImageRef at h
  split at h
  · exact h
  · -- the digits of the id would end in `:latest`
    have hlist : reference.toList ++ ":latest".toList = ("sha256:").toList ++ d.hex.toList := by
      rw [← String.toList_append, ← String.toList_append, h]
      rfl
    have hlen : (":latest".toList).length ≤ d.hex.toList.length := by
      rw [d.length]
      decide
    have hsuffix : ":latest".toList <:+ d.hex.toList :=
      List.suffix_of_suffix_length_le ⟨_, hlist⟩ ⟨_, rfl⟩ hlen
    exact absurd (hsuffix.subset (by decide : 't' ∈ ":latest".toList))
      (Digest.not_mem_hex (by decide) d)

/-! ## One table -/

/-- No tag is the id of a stored image. -/
def TagsNoIds (images : Table ImageRecord) : Prop :=
  ∀ id r t, get images ns id = some r → t ∈ r.repoTags → get images ns t = none

/-- The record under an image id is the only one that answers to it. -/
theorem scan_id {images : Table ImageRecord} (hi : RecordsInv images) (htags : TagsNoIds images)
    {key : String} {rec : ImageRecord} (hget : get images ns key = some rec) :
    scanImages images key = some rec := by
  obtain ⟨d, rfl⟩ := (hi key rec hget).isId
  refine list_find?.2 ⟨d.toString, hget, ?_, ?_⟩
  · exact (matchesKey_iff (hi _ rec hget)).2 (Or.inl rfl)
  · intro id r hg hm
    rcases (matchesKey_iff (hi id r hg)).1 hm with rfl | ⟨hat, -⟩ | ⟨-, ht⟩
    · exact le_refl _
    · rw [isDigestRef_digest] at hat
      cases hat
    · rw [normalizeImageRef_digest] at ht
      rw [htags id r _ hg ht] at hget
      cases hget

theorem findImage_agree {images : Table ImageRecord} (hi : RecordsInv images)
    (htags : TagsNoIds images) (key : String) :
    ImageSvc.findImage images key = RuntimeSvc.findImage images key := by
  rw [RuntimeSvc.findImage_eq hi]
  unfold ImageSvc.findImage
  split
  · rename_i rec hget
    exact (scan_id hi htags hget).symm
  · rfl

/-! ## Sequences of requests -/

/-- In a run, `reference` was pulled and gave the image `X`. -/
def PulledIn (h : Host Tree) (s₀ : ImageState Tree) (ls : List ImageRequest)
    (reference X : String) : Prop :=
  ∃ x ∈ steps (imageStep h) s₀ ls, ∃ a f, x.2.1 = .pull reference a f ∧
    (handle h x.1 (.pull reference a f)).1 = .ok (.pulled X)

/-- Ids and tags come from pulls: `Refs` holds of the references, `Ids` of the images. -/
structure FromPulls (Refs Ids : String → Prop) (images : Table ImageRecord) : Prop where
  records : RecordsInv images
  ids : ∀ id r, get images ns id = some r → Ids id
  tags : ∀ id r t, get images ns id = some r → t ∈ r.repoTags →
    ∃ reference, Refs reference ∧ t = normalizeImageRef reference

/-- The condition on a request: a pull is one of those. -/
def KnownPull (h : Host Tree) (Refs Ids : String → Prop) (s : ImageState Tree)
    (l : ImageRequest) : Prop :=
  ∀ reference a f X, l = .pull reference a f →
    (handle h s (.pull reference a f)).1 = .ok (.pulled X) → Refs reference ∧ Ids X

theorem fromPulls_delete {Refs Ids : String → Prop} {images : Table ImageRecord}
    (hi : FromPulls Refs Ids images) (id : String) :
    FromPulls Refs Ids (delete images ns id).2 where
  records := fun id' r hg => hi.records id' r (get_of_get_delete hg)
  ids := fun id' r hg => hi.ids id' r (get_of_get_delete hg)
  tags := fun id' r t hg ht => hi.tags id' r t (get_of_get_delete hg) ht

theorem fromPulls_put {Refs Ids : String → Prop} {images : Table ImageRecord}
    (hi : FromPulls Refs Ids images) {reference : String} {pulled : PulledImage}
    (href : Refs reference) (hid : Ids pulled.imageId.toString) :
    FromPulls Refs Ids (pullTable images reference pulled) where
  records := pullTable_records reference pulled hi.records
  ids := by
    intro id r hg
    by_cases h : id = pulled.imageId.toString
    · rw [h]
      exact hid
    · rw [get_pullTable_other h] at hg
      exact hi.ids id r hg
  tags := by
    intro id r t hg ht
    by_cases h : id = pulled.imageId.toString
    · rw [h, get_pullTable_self] at hg
      cases hg
      rcases mem_pullRecord_tags ht with ⟨r', hr', ht'⟩ | ⟨-, rfl⟩
      · exact hi.tags _ r' t hr' ht'
      · exact ⟨reference, href, rfl⟩
    · rw [get_pullTable_other h] at hg
      exact hi.tags id r t hg ht

theorem fromPulls_step {h : Host Tree} {Refs Ids : String → Prop} {s s' : ImageState Tree}
    {l : ImageRequest} (hi : FromPulls Refs Ids s.images) (hl : KnownPull h Refs Ids s l)
    (hstep : imageStep h s l = some s') : FromPulls Refs Ids s'.images := by
  rcases imageStep_images hstep with himg | ⟨id, himg⟩ | ⟨reference, a, f, pulled, rfl, hok, himg⟩
  · rw [himg]
    exact hi
  · rw [himg]
    exact fromPulls_delete hi id
  · obtain ⟨href, hid⟩ := hl reference a f pulled.imageId.toString rfl hok
    rw [himg]
    exact fromPulls_put hi href hid

/-- **The lookups agree** after every sequence of requests in which no reference that was pulled is
    the id of an image that was pulled. -/
theorem lookups_agree (h : Host Tree) {s₀ s : ImageState Tree} (h₀ : s₀.images = OrdMap.empty)
    {ls : List ImageRequest}
    (hrefs : ∀ reference X reference' X', PulledIn h s₀ ls reference X →
      PulledIn h s₀ ls reference' X' → reference ≠ X')
    (hrun : run (imageStep h) s₀ ls = some s) (key : String) :
    ImageSvc.findImage s.images key = RuntimeSvc.findImage s.images key := by
  let Refs : String → Prop := fun reference => ∃ X, PulledIn h s₀ ls reference X
  let Ids : String → Prop := fun X => ∃ reference, PulledIn h s₀ ls reference X
  have hinit : FromPulls Refs Ids s₀.images := by
    rw [h₀]
    exact ⟨fun _ _ hg => by simp at hg, fun _ _ hg => by simp at hg, fun _ _ _ hg => by simp at hg⟩
  have hknown : ∀ x ∈ steps (imageStep h) s₀ ls, KnownPull h Refs Ids x.1 x.2.1 := by
    intro x hx reference a f X hl hok
    have hpulled : PulledIn h s₀ ls reference X := ⟨x, hx, a, f, hl, hok⟩
    exact ⟨⟨X, hpulled⟩, ⟨reference, hpulled⟩⟩
  have hi : FromPulls Refs Ids s.images :=
    run_invariant (fun _ _ _ hi hok hstep => fromPulls_step hi hok hstep) ls s₀ s hinit hknown hrun
  refine findImage_agree hi.records ?_ key
  intro id r t hg ht
  obtain ⟨reference, ⟨X, hpulled⟩, rfl⟩ := hi.tags id r t hg ht
  cases hget : get s.images ns (normalizeImageRef reference) with
  | none => rfl
  | some rec =>
    -- a stored id is a digest, so it is the reference itself
    obtain ⟨reference', hpulled'⟩ := hi.ids _ rec hget
    obtain ⟨d, hd⟩ := (hi.records _ rec hget).isId
    have hsame := normalizeImageRef_eq_digest hd
    rw [hd, ← hsame] at hpulled'
    exact absurd rfl (hrefs reference X reference' reference hpulled hpulled')

/-- After a pull, the lookups agree on the image id. -/
theorem first_pull_agree :
    ∃ s, run (imageStep configHost) noImages [.pull "busybox" (serves rootConfig) .none] = some s ∧
      ImageSvc.findImage s.images rootDigest.toString =
        RuntimeSvc.findImage s.images rootDigest.toString := by
  have hpulled : ∀ reference X, PulledIn configHost noImages
      [.pull "busybox" (serves rootConfig) .none] reference X →
        reference = "busybox" ∧ X = rootDigest.toString := by
    rintro reference X ⟨x, hx, a, f, hl, hok⟩
    simp only [steps, imageStep, List.mem_singleton] at hx
    subst hx
    cases hl
    cases hok
    exact ⟨rfl, rfl⟩
  have hrefs : ∀ reference X reference' X', PulledIn configHost noImages
      [.pull "busybox" (serves rootConfig) .none] reference X → PulledIn configHost noImages
        [.pull "busybox" (serves rootConfig) .none] reference' X' → reference ≠ X' := by
    intro reference X reference' X' h h' heq
    rw [(hpulled _ _ h).1, (hpulled _ _ h').2] at heq
    exact absurd heq (by decide)
  exact ⟨_, rfl, lookups_agree configHost rfl hrefs rfl _⟩

end ContainerdRs.Cri

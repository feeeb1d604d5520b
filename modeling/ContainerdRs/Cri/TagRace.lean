import ContainerdRs.Cri.ImageRace

/-!
# Concurrent pulls of one image

Pulls under different names that resolve to one image id share one record, which is to carry the
tags and digests of all of them.  Each pull reads the record, adds its own tag and digest and
writes the record back; the lock that it holds is that of its name, not that of the image id.

* `completedPulls` — the pulls of a run that have returned `Ok`.
* `pull_step_keeps` — one step of a pull loses no tag, if it is safe.
* `no_lost_tags` — over every run of pulls: the records carry all that was pulled.
* `interleaved_pulls_lose_tag` — two pulls that both read before either writes.
-/

set_option autoImplicit false

namespace ContainerdRs.Cri.Race

open Images Metadata Transition

/-! ## What is promised -/

/-- A step of a pull. -/
def Label.IsPull : Label → Prop
  | .removeImage _ => False
  | .deleteRecord _ => False
  | .listLive _ => False
  | .reclaimBlob _ _ => False
  | _ => True

instance : DecidablePred Label.IsPull
  | .removeImage _ | .deleteRecord _ | .listLive _ | .reclaimBlob _ _ => isFalse id
  | .pullImage _ | .commitConfig _ _ | .commitLayer _ | .checkLayer _ _ | .unpackLayer _ _ _
  | .readRecord _ | .putRecord _ | .fail _ => isTrue trivial

/-- The reference and the image of a pull that returns `Ok` in this step. -/
def completes : St × Label × St → Option (String × PulledImage)
  | (s, .putRecord t, _) =>
    match s.tasks[t]? with
    | some (.putRecord reference img _) => some (reference, img)
    | _ => none
  | _ => none

/-- The pulls of a run that have returned `Ok`, in order. -/
def completedPulls (s : St) (ls : List Label) : List (String × PulledImage) :=
  (steps step s ls).filterMap completes

/-- The record carries the tag and the digest of a pull. -/
structure Carries (r : ImageRecord) (pull : String × PulledImage) : Prop where
  tag : ∀ tag, tagRef pull.1 = some tag → tag ∈ r.repoTags
  digest : ∀ digest, digestRef pull.1 pull.2 = some digest → digest ∈ r.repoDigests

/-- The record carries the tag or the digest of a pull. -/
def CarriesOne (r : ImageRecord) (pull : String × PulledImage) : Prop :=
  (∃ tag, tagRef pull.1 = some tag ∧ tag ∈ r.repoTags) ∨
    ∃ digest, digestRef pull.1 pull.2 = some digest ∧ digest ∈ r.repoDigests

/-- A pull has a tag or a digest. -/
theorem Carries.one {r : ImageRecord} {pull : String × PulledImage} (h : Carries r pull) :
    CarriesOne r pull := by
  by_cases hdigest : isDigestRef pull.1 = true
  · have hd : digestRef pull.1 pull.2 = some pull.1 := if_pos hdigest
    exact .inr ⟨pull.1, hd, h.digest pull.1 hd⟩
  · have ht : tagRef pull.1 = some (normalizeImageRef pull.1) := if_neg hdigest
    exact .inl ⟨_, ht, h.tag _ ht⟩

/-- Every record stays, with all its tags and digests. -/
def Keeps (images images' : Table ImageRecord) : Prop :=
  ∀ id r, get images ns id = some r →
    ∃ r', get images' ns id = some r' ∧ r.repoTags ⊆ r'.repoTags ∧ r.repoDigests ⊆ r'.repoDigests

/-- **No lost tags**: at the end of a run the records carry what they carried before it, and the
    tag and the digest of every pull that has returned `Ok` in it. -/
structure NoLostTags (s₀ : St) (ls : List Label) (s : St) : Prop where
  before : Keeps s₀.images s.images
  completed : ∀ pull ∈ completedPulls s₀ ls,
    ∃ r, get s.images ns pull.2.imageId.toString = some r ∧ Carries r pull

/-! ## The condition -/

/-- What the record that a pull has read carries. -/
def readTags (existing : Option ImageRecord) : List String := existing.elim [] (·.repoTags)

def readDigests (existing : Option ImageRecord) : List String := existing.elim [] (·.repoDigests)

/-- The condition on a step, on the state before it: when a pull writes its record back, the
    stored one carries nothing beyond what the pull has read and its own tag and digest. -/
def TagSafe (s : St) : Label → Prop
  | .putRecord t => ∀ reference img existing,
      s.tasks[t]? = some (.putRecord reference img existing) →
      ∀ r, get s.images ns img.imageId.toString = some r →
        (∀ tag ∈ r.repoTags, tag ∈ readTags existing ∨ tagRef reference = some tag) ∧
        ∀ digest ∈ r.repoDigests,
          digest ∈ readDigests existing ∨ digestRef reference img = some digest
  | _ => True

/-! ## One step -/

theorem Keeps.refl (images : Table ImageRecord) : Keeps images images :=
  fun _ r hr => ⟨r, hr, List.Subset.refl _, List.Subset.refl _⟩

theorem Keeps.trans {a b c : Table ImageRecord} (hab : Keeps a b) (hbc : Keeps b c) :
    Keeps a c := by
  intro id r hr
  obtain ⟨r₁, hr₁, htags₁, hdigests₁⟩ := hab id r hr
  obtain ⟨r₂, hr₂, htags₂, hdigests₂⟩ := hbc id r₁ hr₁
  exact ⟨r₂, hr₂, List.Subset.trans htags₁ htags₂, List.Subset.trans hdigests₁ hdigests₂⟩

/-- A record that carries a pull still does after `Keeps`. -/
theorem Keeps.carries {a b : Table ImageRecord} (h : Keeps a b) {pull : String × PulledImage}
    (hcarries : ∃ r, get a ns pull.2.imageId.toString = some r ∧ Carries r pull) :
    ∃ r, get b ns pull.2.imageId.toString = some r ∧ Carries r pull := by
  obtain ⟨r, hr, hc⟩ := hcarries
  obtain ⟨r', hr', htags, hdigests⟩ := h _ r hr
  exact ⟨r', hr', fun tag ht => htags (hc.tag tag ht), fun d hd => hdigests (hc.digest d hd)⟩

/-- The record that a pull writes has what it has read, and its own tag and digest. -/
theorem mem_pullRecord_repoTags {existing : Option ImageRecord} {reference tag : String}
    {img : PulledImage} :
    tag ∈ (pullRecord existing reference img).repoTags ↔
      tag ∈ readTags existing ∨ tagRef reference = some tag := by
  simp only [pullRecord, mem_pushNew]
  cases existing <;> rfl

theorem mem_pullRecord_repoDigests {existing : Option ImageRecord} {reference digest : String}
    {img : PulledImage} :
    digest ∈ (pullRecord existing reference img).repoDigests ↔
      digest ∈ readDigests existing ∨ digestRef reference img = some digest := by
  simp only [pullRecord, mem_pushNew]
  cases existing <;> rfl

/-- The steps of a pull that leave the image table alone. -/
theorem images_of_step {s s' : St} {l : Label} (hpull : l.IsPull) (hput : ∀ t, l ≠ .putRecord t)
    (h : step s l = some s') : s'.images = s.images := by
  cases l with
  | putRecord t => exact absurd rfl (hput t)
  | removeImage key | deleteRecord t | listLive t | reclaimBlob t ok => exact hpull.elim
  | pullImage reference =>
    simp only [step] at h
    split at h <;> cases h
    rfl
  | commitConfig t img =>
    simp only [step] at h
    split at h <;> cases h
    rfl
  | commitLayer t =>
    simp only [step] at h
    split at h
    · split at h <;> cases h
      rfl
    · cases h
  | checkLayer t ok | unpackLayer t already ok =>
    simp only [step] at h
    split at h
    · split at h <;> cases h <;> rfl
    · cases h
  | readRecord t =>
    simp only [step] at h
    split at h
    · split at h <;> cases h
      rfl
    · cases h
  | fail t =>
    simp only [step] at h
    split at h <;> cases h
    rfl

/-- What the last step of a pull does to the image table. -/
theorem step_putRecord {s s' : St} {t : Nat} (h : step s (.putRecord t) = some s') :
    ∃ reference img existing, s.tasks[t]? = some (.putRecord reference img existing) ∧
      s'.images = put s.images ns img.imageId.toString (pullRecord existing reference img) := by
  simp only [step] at h
  split at h
  · rename_i reference img existing htask
    cases h
    exact ⟨reference, img, existing, htask, rfl⟩
  · cases h

/-- One step of a pull, if it is safe: nothing is lost, and a pull that returns is carried. -/
theorem pull_step_keeps {s s' : St} {l : Label} (hpull : l.IsPull) (hsafe : TagSafe s l)
    (h : step s l = some s') :
    Keeps s.images s'.images ∧ ∀ pull, completes (s, l, s') = some pull →
      ∃ r, get s'.images ns pull.2.imageId.toString = some r ∧ Carries r pull := by
  by_cases hput : ∃ t, l = .putRecord t
  · obtain ⟨t, rfl⟩ := hput
    obtain ⟨reference, img, existing, htask, himages⟩ := step_putRecord h
    rw [himages]
    constructor
    · intro id r hr
      by_cases hid : id = img.imageId.toString
      · subst hid
        obtain ⟨htags, hdigests⟩ := hsafe reference img existing htask r hr
        refine ⟨pullRecord existing reference img, by rw [get_put, if_pos rfl], ?_, ?_⟩
        · intro tag htag
          exact mem_pullRecord_repoTags.2 (htags tag htag)
        · intro digest hdigest
          exact mem_pullRecord_repoDigests.2 (hdigests digest hdigest)
      · exact ⟨r, by rw [get_put, if_neg hid, hr], List.Subset.refl _, List.Subset.refl _⟩
    · intro pull hpull
      simp only [completes, htask, Option.some.injEq] at hpull
      subst hpull
      refine ⟨pullRecord existing reference img, by rw [get_put, if_pos rfl], ?_, ?_⟩
      · intro tag htag
        exact mem_pullRecord_repoTags.2 (.inr htag)
      · intro digest hdigest
        exact mem_pullRecord_repoDigests.2 (.inr hdigest)
  · have hne : ∀ t, l ≠ .putRecord t := fun t ht => hput ⟨t, ht⟩
    rw [images_of_step hpull hne h]
    refine ⟨Keeps.refl _, ?_⟩
    intro pull hcompletes
    cases l with
    | putRecord t => exact absurd rfl (hne t)
    | _ => cases hcompletes

/-! ## Runs -/

theorem completedPulls_cons {s s₁ : St} {l : Label} (ls : List Label) (h : step s l = some s₁) :
    completedPulls s (l :: ls) = (completes (s, l, s₁)).toList ++ completedPulls s₁ ls := by
  rw [completedPulls, steps_cons ls h, List.filterMap_cons]
  cases completes (s, l, s₁) <;> rfl

/-- **No lost tags.**  In every run of concurrent pulls, on any image table, in which each pull
    writes back a record that still has all that is stored, the records carry at the end the tags
    and digests of all pulls that have returned `Ok`, and all that they carried before. -/
theorem no_lost_tags : ∀ (ls : List Label) (s₀ s : St), (∀ l ∈ ls, l.IsPull) →
    (∀ x ∈ steps step s₀ ls, TagSafe x.1 x.2.1) → run step s₀ ls = some s → NoLostTags s₀ ls s
  | [], s₀, s, _, _, hrun => by
    simp only [run, Option.some.injEq] at hrun
    subst hrun
    refine ⟨Keeps.refl _, ?_⟩
    intro pull hpull
    cases hpull
  | l :: ls, s₀, s, hpulls, hsafe, hrun => by
    obtain ⟨s₁, hstep, hrun⟩ := run_cons_some hrun
    rw [steps_cons ls hstep, List.forall_mem_cons] at hsafe
    obtain ⟨hkeeps, hcompletes⟩ := pull_step_keeps (hpulls l List.mem_cons_self) hsafe.1 hstep
    have hrest := no_lost_tags ls s₁ s (fun x hx => hpulls x (List.mem_cons_of_mem _ hx))
      hsafe.2 hrun
    refine ⟨hkeeps.trans hrest.before, ?_⟩
    intro pull hpull
    rw [completedPulls_cons ls hstep, List.mem_append, Option.mem_toList] at hpull
    rcases hpull with hpull | hpull
    · exact hrest.before.carries (hcompletes pull hpull)
    · exact hrest.completed pull hpull

/-- Two pulls of one image, one after the other. -/
def pullsInTurn : List Label :=
  .pullImage "a" :: (pullLabels 0 rootImage ++ [Label.readRecord 0, Label.putRecord 0,
    Label.pullImage "b"] ++ pullLabels 1 rootImage ++ [Label.readRecord 1, Label.putRecord 1])

/-- The record carries both names. -/
theorem pulls_in_turn_kept :
    ∃ s, run step emptyNode pullsInTurn = some s ∧ NoLostTags emptyNode pullsInTurn s ∧
      (completedPulls emptyNode pullsInTurn).map (·.1) = ["a", "b"] := by
  refine ⟨_, rfl, no_lost_tags pullsInTurn emptyNode _ (by decide) ?_ rfl, by decide +kernel⟩
  · simp only [pullsInTurn, pullLabels, List.cons_append, List.nil_append]
    iterate 14 rw [steps_cons _ rfl]
    simp only [steps, List.forall_mem_cons]
    refine ⟨trivial, trivial, trivial, trivial, trivial, trivial, ?_, trivial, trivial, trivial,
      trivial, trivial, trivial, ?_, by simp⟩
    · rintro reference img existing ⟨⟩ r hr
      cases hr
    · -- the second pull has read what the first has stored
      rintro reference img existing ⟨⟩ r hr
      cases hr
      exact ⟨fun tag htag => .inl htag, fun digest hdigest => .inl hdigest⟩

/-- Both pulls read the record before either writes it. -/
def interleavedPulls : List Label :=
  [Label.pullImage "a", Label.pullImage "b"] ++ pullLabels 0 rootImage ++ pullLabels 1 rootImage ++
    [Label.readRecord 0, Label.readRecord 1, Label.putRecord 0, Label.putRecord 1]

/-- **The first name is lost**, though both pulls have returned `Ok`. -/
theorem interleaved_pulls_lose_tag :
    ¬ ∀ (s₀ s : St) (ls : List Label), s₀.images = OrdMap.empty → s₀.tasks = [] →
      (∀ l ∈ ls, l.IsPull) → run step s₀ ls = some s →
      (∀ task ∈ s.tasks, task.lock = none) →
      ∀ pull ∈ completedPulls s₀ ls,
        ∃ r, get s.images ns pull.2.imageId.toString = some r ∧ CarriesOne r pull := by
  intro h
  have hrun : (run step emptyNode interleavedPulls).map (fun s =>
      ((get s.images ns rootImage.imageId.toString).map fun r => (r.repoTags, r.repoDigests),
        s.tasks.map (·.lock))) =
      some (some (["b:latest"], []), [none, none]) := by
    decide +kernel
  obtain ⟨s, hs, hmap⟩ := Option.map_eq_some_iff.1 hrun
  simp only [Prod.mk.injEq] at hmap
  obtain ⟨r, hr, htags⟩ := Option.map_eq_some_iff.1 hmap.1
  simp only [Prod.mk.injEq] at htags
  have hlocks : ∀ task ∈ s.tasks, task.lock = none := by
    intro task htask
    have hmem : task.lock ∈ s.tasks.map (·.lock) := List.mem_map_of_mem htask
    rw [hmap.2] at hmem
    simpa using hmem
  have hfirst : ("a", rootImage) ∈ completedPulls emptyNode interleavedPulls :=
    List.mem_of_getElem? (i := 0) rfl
  obtain ⟨r', hr', hcarries⟩ := h emptyNode s interleavedPulls rfl rfl (by decide) hs hlocks
    _ hfirst
  rw [hr] at hr'
  cases hr'
  rcases hcarries with ⟨tag, htag, hmem⟩ | ⟨digest, -, hmem⟩
  · rw [htags.1] at hmem
    have htag : some "a:latest" = some tag := htag
    cases htag
    exact absurd hmem (by decide)
  · rw [htags.2] at hmem
    cases hmem

end ContainerdRs.Cri.Race

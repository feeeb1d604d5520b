import ContainerdRs.Content.Reads
import ContainerdRs.Cri.CreateFromImage

/-!
# `unpack_rootfs` while the content store is in use

`create_container` takes no lock on the layers of its image: between two layers, and in the middle
of one, other requests remove blobs and store blobs.  The task of `unpack_rootfs` runs next to all
of them.

* `applyLayers` — the layers of given blobs, one after another.
* `applyLayers_oci_iff` — the tree that they leave, against the image specification.
* `Unpacking` — the layers that are through were blobs with the digests asked for.
* `raced_unpack` — so is the root file system of a call that succeeds; a call that cannot read a
  layer met an I/O error, or its blob was not there when it was opened.
-/

set_option autoImplicit false

namespace ContainerdRs.Cri.UnpackRace

open Content.Reads Snapshots FileTree Transition
open Content (Opened StoreInv emptyStore)
open Create (Archive)

/-! ## The task -/

/-- Where `unpack_rootfs` stands. -/
inductive Stage where
  | next (rest : List String)
  /-- `content.read` of the layer `ld`, with the reader `r`. -/
  | reading (ld : String) (rest : List String) (r : Nat)
  | returned (result : Except UnpackError Unit)
  deriving DecidableEq

/-- The store in use, and the task. -/
structure St where
  reads : Content.Reads.St
  rootfs : Fs
  stage : Stage

/-- A call of `content.read`, or a step of another task (`other`), or a step of the loop. -/
inductive Label where
  | other (l : Content.Reads.Label)
  | openLayer
  | openFailed (e : String)
  | apply

section task

variable {β : Type} (sha256 : Bytes → Digest) (pid : Nat) (H : Snapshots.Host β)
  (target : List (PathPart OsName))

/-- The loop goes on to the next layer; `opening` is how `File::open` goes. -/
def openNext (opening : Digest → Content.Reads.Label) (s : St) : Option St :=
  match s.stage with
  | .next [] => some { s with stage := .returned (.ok ()) }
  | .next (ld :: rest) =>
    match Digest.parse ld with
    | .error e => some { s with stage := .returned (.error (.badDigest ld e)) }
    | .ok digest =>
      (Content.Reads.step sha256 pid s.reads (opening digest)).map fun t =>
        { s with reads := t, stage := .reading ld rest s.reads.readers.length }
  | .reading .. | .returned _ => none

/-- `content.read` has returned: `apply_layer`. -/
def applyRead (s : St) : Option St :=
  match s.stage with
  | .reading ld rest r =>
    match s.reads.readers[r]? with
    | some (.finished _ bytes) =>
      match applyLayer H target bytes (Compression.detect bytes) s.rootfs with
      | (.error e, t) =>
        some { s with rootfs := t, stage := .returned (.error (.unpackLayer ld e)) }
      | (.ok _, t) => some { s with rootfs := t, stage := .next rest }
    | some (.failed _ e) => some { s with stage := .returned (.error (.readLayer ld e)) }
    | some (.opened ..) | none => none
  | .next _ | .returned _ => none

/-- One step. -/
def step (s : St) : Label → Option St
  | .other l => (Content.Reads.step sha256 pid s.reads l).map fun t => { s with reads := t }
  | .openLayer => openNext sha256 pid .openBlob s
  | .openFailed e => openNext sha256 pid (.openFailed · e) s
  | .apply => applyRead H target s

end task

/-- The call arrives. -/
def start (store : Content.St) (layers : List String) (rootfs : Fs) : St :=
  ⟨⟨store, []⟩, rootfs, .next layers⟩

/-! ## The layers of given blobs -/

variable {β : Type} {sha256 : Bytes → Digest} {pid : Nat} {H : Snapshots.Host β}
  {target : List (PathPart OsName)}

/-- `apply_layer` for the blobs in turn. -/
def applyLayers (H : Snapshots.Host β) (target : List (PathPart OsName)) :
    List Bytes → Fs → Except String Unit × Fs
  | [], t => (.ok (), t)
  | bytes :: contents, t =>
    match applyLayer H target bytes (Compression.detect bytes) t with
    | (.error e, t') => (.error e, t')
    | (.ok _, t') => applyLayers H target contents t'

theorem applyLayers_snoc {bytes : Bytes} {t₁ t₂ : Fs} {u : Unit}
    (happly : applyLayer H target bytes (Compression.detect bytes) t₁ = (.ok u, t₂)) :
    ∀ {contents : List Bytes} {t : Fs}, applyLayers H target contents t = (.ok (), t₁) →
      applyLayers H target (contents ++ [bytes]) t = (.ok (), t₂)
  | [], t, h => by
    obtain rfl : t = t₁ := by simpa [applyLayers] using h
    simp [applyLayers, happly]
  | b :: contents, t, h => by
    simp only [applyLayers, List.cons_append] at h ⊢
    split at h
    · cases h
    · exact applyLayers_snoc happly h

/-- Archives that are applied without an error leave the merged tree of their streams. -/
theorem applyLayers_view {H : Snapshots.Host EntryBody} {T : List OsName}
    (laws : HostLaws H target T) {contents : List Bytes} {items : List (List Item)}
    (harchive : List.Forall₂ (Archive H) contents items) : ∀ {t t' : Fs}, Rooted t target T →
      applyLayers H target contents t = (.ok (), t') →
      view T t' = items.foldl streamLayer (view T t) := by
  induction harchive with
  | nil =>
    intro t t' _ h
    obtain rfl : t = t' := by simpa [applyLayers] using h
    rfl
  | @cons bytes layer contents items hentries _ ih =>
    intro t t' hrooted h
    unfold Archive at hentries
    by_cases hc : Clashes (view T t) layer
    · obtain ⟨e, t₁, hfail⟩ := applyEntries_clash laws layer t hrooted hc
      have hlayer : applyLayer H target bytes (Compression.detect bytes) t = (.error e, t₁) := by
        simp only [applyLayer, hentries, hfail]
      simp [applyLayers, hlayer] at h
    · obtain ⟨t₁, hrun, hrooted₁, hview⟩ := applyEntries_refines laws layer t hrooted hc
      have hlayer : applyLayer H target bytes (Compression.detect bytes) t = (.ok (), t₁) := by
        simp only [applyLayer, hentries, hrun]
      simp only [applyLayers, hlayer] at h
      rw [List.foldl_cons, ← hview]
      exact ih hrooted₁ h

/-- Into an empty root file system: the tree of the image specification, exactly when every path
    that a layer loses to one of its own markers is set by a later layer. -/
theorem applyLayers_oci_iff {H : Snapshots.Host EntryBody} {T : List OsName}
    (laws : HostLaws H target T) {contents : List Bytes} {items : List (List Item)}
    (harchive : List.Forall₂ (Archive H) contents items) {t t' : Fs} (hrooted : Rooted t target T)
    (hempty : ∀ q, q ≠ [] → t.get? (T ++ q) = none)
    (happly : applyLayers H target contents t = (.ok (), t')) :
    (∀ q, t'.get? (T ++ q) = ociTree items q) ↔ ∀ q, Snapshots.Recovered items q := by
  have hroot : view T t = emptyRoot := by
    funext q
    by_cases hq : q = []
    · subst hq
      simpa [view, emptyRoot] using hrooted.plain.root
    · simp [view, emptyRoot, hq, hempty q hq]
  have hview := applyLayers_view laws harchive hrooted happly
  rw [hroot] at hview
  refine forall_congr' fun q => ?_
  rw [← streamTree_eq_iff, streamTree, ← hview]
  rfl

/-! ## The invariant -/

/-- The blob has the digest of the layer. -/
def Verified (sha256 : Bytes → Digest) (ld : String) (bytes : Bytes) : Prop :=
  ∃ digest, Digest.parse ld = .ok digest ∧ sha256 bytes = digest

section run

variable (sha256 pid H target)

/-- After some steps of the run the blob of `digest` was not there, and the task opened it then. -/
def Missing (s₀ : St) (ls : List Label) (digest : Digest) : Prop :=
  ∃ ls₁ ls₂ s₁, ls = ls₁ ++ .openLayer :: ls₂ ∧
    run (step sha256 pid H target) s₀ ls₁ = some s₁ ∧ Content.read s₁.reads.store digest = none

/-- Why `content.read` fails. -/
def Unreadable (s₀ : St) (ls : List Label) (digest : Digest) (e : String) : Prop :=
  .openFailed e ∈ ls ∨ (∃ r, .other (.readFailed r e) ∈ ls) ∨
    e = Content.Reads.notFound ∧ Missing sha256 pid H target s₀ ls digest

/-- The layers in front of `rest` are in the root file system. -/
def Unpacked (layers rest : List String) (t₀ t : Fs) : Prop :=
  ∃ done contents, layers = done ++ rest ∧ List.Forall₂ (Verified sha256) done contents ∧
    applyLayers H target contents t₀ = (.ok (), t)

/-- What the task has done, by where it stands. -/
inductive Unpacking (layers : List String) (s₀ : St) (ls : List Label) (s : St) : Stage → Prop
  | next {rest : List String} (done : Unpacked sha256 H target layers rest s₀.rootfs s.rootfs) :
      Unpacking layers s₀ ls s (.next rest)
  | reading {ld : String} {rest : List String} {r : Nat} {digest : Digest} {reader : Reader}
      (done : Unpacked sha256 H target layers (ld :: rest) s₀.rootfs s.rootfs)
      (parsed : Digest.parse ld = .ok digest) (here : s.reads.readers[r]? = some reader)
      (began : (∃ b, sha256 b = digest ∧ Began s.reads.store.fs digest b reader) ∨
        ∃ e, reader = .failed digest e)
      (why : ∀ e, reader = .failed digest e → Unreadable sha256 pid H target s₀ ls digest e) :
      Unpacking layers s₀ ls s (.reading ld rest r)
  | succeeded (done : Unpacked sha256 H target layers [] s₀.rootfs s.rootfs) :
      Unpacking layers s₀ ls s (.returned (.ok ()))
  | badDigest {ld : String} {e : DigestError} : Unpacking layers s₀ ls s
      (.returned (.error (.badDigest ld e)))
  | unpackLayer {ld e : String} : Unpacking layers s₀ ls s (.returned (.error (.unpackLayer ld e)))
  | readLayer {ld e : String} {digest : Digest} (parsed : Digest.parse ld = .ok digest)
      (why : Unreadable sha256 pid H target s₀ ls digest e) :
      Unpacking layers s₀ ls s (.returned (.error (.readLayer ld e)))

end run

variable {layers : List String} {s₀ s s' : St} {ls : List Label} {l : Label}

theorem Unreadable.snoc {digest : Digest} {e : String}
    (h : Unreadable sha256 pid H target s₀ ls digest e) (l : Label) :
    Unreadable sha256 pid H target s₀ (ls ++ [l]) digest e := by
  rcases h with h | ⟨r, h⟩ | ⟨rfl, ls₁, ls₂, s₁, rfl, hrun, hgone⟩
  · exact .inl (List.mem_append_left _ h)
  · exact .inr (.inl ⟨r, List.mem_append_left _ h⟩)
  · exact .inr (.inr ⟨rfl, ls₁, ls₂ ++ [l], s₁, by simp, hrun, hgone⟩)

/-- The layer that has been applied is one of those in front. -/
theorem Unpacked.snoc {ld : String} {rest : List String} {t₀ t t' : Fs} {bytes : Bytes} {u : Unit}
    (h : Unpacked sha256 H target layers (ld :: rest) t₀ t) (hv : Verified sha256 ld bytes)
    (happly : applyLayer H target bytes (Compression.detect bytes) t = (.ok u, t')) :
    Unpacked sha256 H target layers rest t₀ t' := by
  obtain ⟨done, contents, rfl, hverified, hdone⟩ := h
  refine ⟨done ++ [ld], contents ++ [bytes], by simp, ?_, applyLayers_snoc happly hdone⟩
  exact List.rel_append hverified (.cons hv .nil)

/-! ## Steps -/

/-- What `File::open` leaves: a reader of the blob that is there, or a call that has failed. -/
theorem opened_reader {s : Content.Reads.St} (hi : StoreInv sha256 pid s.store) (digest : Digest) :
    (∃ b i, Content.Reads.openBlob s.store.fs digest = .opened digest i [] ∧ sha256 b = digest ∧
        Began s.store.fs digest b (.opened digest i [])) ∨
      Content.Reads.openBlob s.store.fs digest = .failed digest Content.Reads.notFound ∧
        Content.read s.store digest = none := by
  cases hd : s.store.fs.dirent (.blob digest.hex) with
  | none =>
    exact .inr ⟨by simp [Content.Reads.openBlob, hd], by simp [Content.read, InodeFs.read, hd]⟩
  | some i =>
    refine .inl ⟨s.store.fs.data i, i, by simp [Content.Reads.openBlob, hd],
      Digest.hex_injective (hi.blobs _ i hd), ?_⟩
    exact .opened (held_of_blob hi.wf hd) rfl List.nil_prefix

/-- The task opens its next layer. -/
theorem openNext_unpacking {opening : Digest → Content.Reads.Label}
    (h : Unpacking sha256 pid H target layers s₀ ls s s.stage)
    (hstep : openNext sha256 pid opening s = some s')
    (hopening : ∀ digest t, Content.Reads.step sha256 pid s.reads (opening digest) = some t →
      ∃ reader, t.readers[s.reads.readers.length]? = some reader ∧
        ((∃ b, sha256 b = digest ∧ Began t.store.fs digest b reader) ∨
          ∃ e, reader = .failed digest e) ∧
        ∀ e, reader = .failed digest e →
          Unreadable sha256 pid H target s₀ (ls ++ [l]) digest e) :
    Unpacking sha256 pid H target layers s₀ (ls ++ [l]) s' s'.stage := by
  unfold openNext at hstep
  cases hstage : s.stage with
  | next rest =>
    rw [hstage] at h hstep
    obtain ⟨hdone⟩ := h
    cases rest with
    | nil =>
      cases hstep
      exact .succeeded hdone
    | cons ld rest =>
      dsimp only at hstep
      cases hparse : Digest.parse ld with
      | error e =>
        rw [hparse] at hstep
        cases hstep
        exact .badDigest
      | ok digest =>
        rw [hparse] at hstep
        obtain ⟨t, ht, rfl⟩ := Option.map_eq_some_iff.1 hstep
        obtain ⟨reader, hreader, hbegan, hwhy⟩ := hopening digest t ht
        exact .reading hdone hparse hreader hbegan hwhy
  | reading ld rest r =>
    rw [hstage] at hstep
    cases hstep
  | returned result =>
    rw [hstage] at hstep
    cases hstep

/-- Another task moves, or the call of `content.read` goes on. -/
theorem other_unpacking {l : Content.Reads.Label} {t : Content.Reads.St} {stage : Stage}
    (hi : StoreInv sha256 pid s.reads.store)
    (h : Unpacking sha256 pid H target layers s₀ ls s stage)
    (hstep : Content.Reads.step sha256 pid s.reads l = some t) :
    Unpacking sha256 pid H target layers s₀ (ls ++ [.other l]) { s with reads := t } stage := by
  cases h with
  | next done => exact .next done
  | succeeded done => exact .succeeded done
  | badDigest => exact .badDigest
  | unpackLayer => exact .unpackLayer
  | readLayer parsed why => exact .readLayer parsed (why.snoc _)
  | @reading ld rest r digest reader done parsed here began why =>
    rcases began with ⟨b, hb, hbegan⟩ | ⟨e, rfl⟩
    · obtain ⟨reader', hreader', hbegan', hown⟩ := step_began hi here hbegan hstep
      refine .reading done parsed hreader' (.inl ⟨b, hb, hbegan'⟩) fun e he => ?_
      rcases hown e he with hold | rfl
      · exact (why e hold).snoc _
      · exact .inr (.inl ⟨r, by simp⟩)
    · refine .reading done parsed (step_failed here hstep) (.inr ⟨e, rfl⟩) fun e' he' => ?_
      exact (why e' he').snoc _

/-- `content.read` has returned. -/
theorem applyRead_unpacking (h : Unpacking sha256 pid H target layers s₀ ls s s.stage)
    (hstep : applyRead H target s = some s') :
    Unpacking sha256 pid H target layers s₀ (ls ++ [l]) s' s'.stage := by
  unfold applyRead at hstep
  cases hstage : s.stage with
  | next rest =>
    rw [hstage] at hstep
    cases hstep
  | returned result =>
    rw [hstage] at hstep
    cases hstep
  | reading ld rest r =>
    rw [hstage] at h hstep
    cases h with
    | @reading _ _ _ digest reader done parsed here began why =>
      simp only [here] at hstep
      cases reader with
      | opened d i got => cases hstep
      | failed d e =>
        cases hstep
        obtain rfl : d = digest := by
          rcases began with ⟨b, -, hbegan⟩ | ⟨e', he'⟩
          · cases hbegan
            rfl
          · cases he'
            rfl
        exact .readLayer parsed ((why e rfl).snoc _)
      | finished d bytes =>
        have hv : Verified sha256 ld bytes := by
          rcases began with ⟨b, hb, hbegan⟩ | ⟨e', he'⟩
          · cases hbegan
            exact ⟨digest, parsed, hb⟩
          · cases he'
        cases happly : applyLayer H target bytes (Compression.detect bytes) s.rootfs with
        | mk answer t =>
          simp only [happly] at hstep
          cases answer with
          | error e =>
            cases hstep
            exact .unpackLayer
          | ok u =>
            cases hstep
            exact .next (done.snoc hv happly)

theorem openNext_store {opening : Digest → Content.Reads.Label}
    (hi : StoreInv sha256 pid s.reads.store) (hstep : openNext sha256 pid opening s = some s') :
    StoreInv sha256 pid s'.reads.store := by
  unfold openNext at hstep
  split at hstep
  · cases hstep
    exact hi
  · split at hstep
    · cases hstep
      exact hi
    · obtain ⟨t, ht, rfl⟩ := Option.map_eq_some_iff.1 hstep
      exact step_store hi ht
  · cases hstep
  · cases hstep

theorem applyRead_store (hi : StoreInv sha256 pid s.reads.store)
    (hstep : applyRead H target s = some s') : StoreInv sha256 pid s'.reads.store := by
  unfold applyRead at hstep
  split at hstep
  · split at hstep
    · split at hstep <;> cases hstep <;> exact hi
    · cases hstep
      exact hi
    · cases hstep
    · cases hstep
  · cases hstep
  · cases hstep

/-- **Every step keeps what the task has done.** -/
theorem step_unpacking (hrun : run (step sha256 pid H target) s₀ ls = some s)
    (hi : StoreInv sha256 pid s.reads.store)
    (h : Unpacking sha256 pid H target layers s₀ ls s s.stage)
    (hstep : step sha256 pid H target s l = some s') :
    StoreInv sha256 pid s'.reads.store ∧
      Unpacking sha256 pid H target layers s₀ (ls ++ [l]) s' s'.stage := by
  cases l with
  | other cl =>
    obtain ⟨t, ht, rfl⟩ := Option.map_eq_some_iff.1 hstep
    exact ⟨step_store hi ht, other_unpacking hi h ht⟩
  | apply => exact ⟨applyRead_store hi hstep, applyRead_unpacking h hstep⟩
  | openLayer =>
    refine ⟨openNext_store hi hstep, openNext_unpacking h hstep fun digest t ht => ?_⟩
    cases ht
    refine ⟨_, List.getElem?_concat_length, ?_⟩
    rcases opened_reader hi digest with ⟨b, i, hopened, hb, hbegan⟩ | ⟨hfailed, hgone⟩
    · rw [hopened]
      exact ⟨.inl ⟨b, hb, hbegan⟩, fun e he => by cases he⟩
    · rw [hfailed]
      refine ⟨.inr ⟨_, rfl⟩, fun e he => ?_⟩
      cases he
      exact .inr (.inr ⟨rfl, ls, [], s, by simp, hrun, hgone⟩)
  | openFailed e =>
    refine ⟨openNext_store hi hstep, openNext_unpacking h hstep fun digest t ht => ?_⟩
    cases ht
    refine ⟨_, List.getElem?_concat_length, .inr ⟨e, rfl⟩, fun e' he' => ?_⟩
    cases he'
    exact .inl (by simp)

/-- The layers that a run has applied, for every order of the steps. -/
theorem run_unpacking {store : Content.St} (h₀ : Opened sha256 store) {t₀ : Fs}
    (hrun : run (step sha256 pid H target) (start store layers t₀) ls = some s) :
    StoreInv sha256 pid s.reads.store ∧
      Unpacking sha256 pid H target layers (start store layers t₀) ls s s.stage := by
  induction ls using List.reverseRecOn generalizing s with
  | nil =>
    cases hrun
    exact ⟨h₀.inv sha256 pid, .next ⟨[], [], rfl, .nil, rfl⟩⟩
  | append_singleton ls l ih =>
    obtain ⟨mid, hmid, hlast⟩ := run_append_some hrun
    obtain ⟨t, hstep, hrest⟩ := run_cons_some hlast
    cases hrest
    obtain ⟨hi, h⟩ := ih hmid
    exact step_unpacking hmid hi h hstep

/-- **`unpack_rootfs` in any company.**  In every interleaving of the call with writers, removals
    and other readers: when it succeeds, the root file system is made of blobs with the digests of
    the layers, and if it was empty and free of links, it is the tree of the image specification
    exactly when every path that a layer loses to its own markers is set by a later layer.  When
    it cannot read a layer, a call of its own failed, or the blob was not there at its open. -/
theorem raced_unpack {H : Snapshots.Host EntryBody} {T : List OsName} (laws : HostLaws H target T)
    {store : Content.St} (h₀ : Opened sha256 store) {t₀ : Fs} (hrooted : Rooted t₀ target T)
    (hempty : ∀ q, q ≠ [] → t₀.get? (T ++ q) = none)
    (hrun : run (step sha256 pid H target) (start store layers t₀) ls = some s) :
    (s.stage = .returned (.ok ()) → ∃ contents,
      List.Forall₂ (Verified sha256) layers contents ∧
      ∀ items, List.Forall₂ (Archive H) contents items →
        ((∀ q, s.rootfs.get? (T ++ q) = ociTree items q) ↔ ∀ q, Snapshots.Recovered items q)) ∧
    ∀ ld e, s.stage = .returned (.error (.readLayer ld e)) → ∃ digest,
      Digest.parse ld = .ok digest ∧
      Unreadable sha256 pid H target (start store layers t₀) ls digest e := by
  obtain ⟨-, h⟩ := run_unpacking h₀ hrun
  refine ⟨fun hdone => ?_, fun ld e hfailed => ?_⟩
  · rw [hdone] at h
    obtain ⟨done, contents, rfl, hverified, happly⟩ :
        Unpacked sha256 H target layers [] t₀ s.rootfs := by
      cases h with
      | succeeded done => exact done
    rw [List.append_nil]
    exact ⟨contents, hverified, fun items harchive =>
      applyLayers_oci_iff laws harchive hrooted hempty happly⟩
  · rw [hfailed] at h
    cases h with
    | readLayer parsed why => exact ⟨_, parsed, why⟩

/-- The only layer is removed while it is read. -/
def removedWhileRead : List Label :=
  (Content.Reads.storedEmpty.map .other) ++ .openLayer ::
    (Content.Reads.removedSchedule.map .other) ++ [.apply, .openLayer]

theorem removed_layer_unpacked : ∃ s contents,
    run (step (fun _ => emptyDigest) 1 (tarHost [] clearThenFile) [])
      (start emptyStore [emptyDigest.toString] Create.emptyRootfs) removedWhileRead = some s ∧
    s.stage = .returned (.ok ()) ∧ Content.read s.reads.store emptyDigest = none ∧
    List.Forall₂ (Verified fun _ => emptyDigest) [emptyDigest.toString] contents ∧
    ∀ items, List.Forall₂ (Archive (tarHost [] clearThenFile)) contents items →
      ((∀ q, s.rootfs.get? ([] ++ q) = ociTree items q) ↔ ∀ q, Snapshots.Recovered items q) := by
  have hall : (run (step (fun _ => emptyDigest) 1 (tarHost [] clearThenFile) [])
      (start emptyStore [emptyDigest.toString] Create.emptyRootfs) removedWhileRead).map
        (fun s => (s.stage, Content.read s.reads.store emptyDigest)) =
      some (.returned (.ok ()), none) := by rfl
  obtain ⟨s, hrun, hs⟩ := Option.map_eq_some_iff.1 hall
  obtain ⟨hdone, hgone⟩ := Prod.mk.inj hs
  obtain ⟨contents, hverified, htree⟩ := (raced_unpack (tarHost_laws [] [] clearThenFile)
    Content.opened_emptyStore Create.emptyRootfs_rooted
    (fun q hq => Create.emptyRootfs_get? hq) hrun).1 hdone
  exact ⟨s, contents, hrun, hdone, hgone, hverified, htree⟩

end ContainerdRs.Cri.UnpackRace

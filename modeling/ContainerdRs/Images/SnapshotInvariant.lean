import ContainerdRs.Images.PullIntegrity

/-!
# The invariant of the snapshot directories

A snapshot directory that has an entry is taken as complete; its extraction is one write after
another, and the lock of a pull is that of its reference.  So a directory is left incomplete by an
extraction that is cut off between its first and its last write, and is taken for complete by the
next pull, or by a pull of another reference that looks at it in between.

`content` names for each chainID the layer it stands for.

* `Complete` — what a pull that returns `Ok` promises; `Safe` — the condition on a step.
* `SnapInv` — a directory that no pull is filling is empty or complete; one that is being filled is
  filled by one pull and holds what that pull has written; layers behind a pull are complete.
* `SnapInv.set` — the one place where a step's effect on the other pulls is argued.
-/

set_option autoImplicit false

namespace ContainerdRs.Images.Concurrent

open Snapshots Transition

variable {Tree Op : Type}

/-! ## What is promised -/

/-- **Every snapshot of the image is complete**: it holds exactly what `apply_layer` makes of its
    layer in an empty directory. -/
def Complete (c : Code Tree Op) (s : Stores Tree) (m : Manifest) (img : PulledImage) : Prop :=
  ∀ (i : Nat) d expected chainId, m.layers[i]? = some d →
    img.layerDigests[i]? = some expected → img.chainIds[i]? = some chainId →
    ∃ blob tree, s.blobs.get? expected.hex = some blob ∧
      s.snapshots.get? chainId.hex = some tree ∧
      applyLayer c c.emptyDir blob (.fromMediaType d.mediaType) = (tree, none)

/-- The image of a pull that returns `Ok` with this step, which leads to `s'`. -/
def returned (s' : St Tree Op) : Label → Option (Manifest × PulledImage)
  | .act t _ =>
    match s'.tasks[t]? with
    | some (.pulled m img) => some (m, img)
    | _ => none
  | .pull _ | .restart => none

/-! ## The condition -/

/-- The pull is filling this directory, or about to. -/
def Task.Fills (chainId : Digest) : Task Op → Prop
  | .layer _ _ l .creating => l.chainId = chainId
  | .layer _ _ l (.unpacking _) => l.chainId = chainId
  | _ => False

/-- The pull is in flight and this snapshot is behind it. -/
def Task.Passed (c : Code Tree Op) (chainId : Digest) : Task Op → Prop
  | .layer p done _ _ => ∃ (j : Nat) (d : Descriptor) (diffId : Digest),
      j < done.length ∧ (p.turns c)[j]? = some (d, diffId, chainId)
  | _ => False

/-- The pull can be cut off: it is not between the first and the last write of an extraction. -/
def Task.Whole (c : Code Tree Op) (s : Stores Tree) : Task Op → Prop
  | .layer _ _ l (.unpacking todo) => todo = [] ∨ dirOf c s l.chainId = c.emptyDir
  | _ => True

/-- The condition on a step, on the state before it. -/
def Safe (c : Code Tree Op) (content : Digest → Bytes) (s : St Tree Op) : Label → Prop
  | .act t .check => ∀ p done l, s.tasks[t]? = some (.layer p done l .checking) →
      ∀ blob bytes, s.stores.blobs.get? l.expected.hex = some blob →
        decompress c.decoders blob (.fromMediaType l.descriptor.mediaType) = .ok ⟨bytes, none⟩ →
        c.sha256 bytes = l.diffId → bytes = content l.chainId
  | .act t .readDir => ∀ p done l, s.tasks[t]? = some (.layer p done l .looking) →
      (∀ task ∈ s.tasks, ¬ task.Fills l.chainId) ∧
        (dirOf c s.stores l.chainId = c.emptyDir → ∀ task ∈ s.tasks, ¬ task.Passed c l.chainId)
  | .act t .write => ∀ p done l op todo,
      s.tasks[t]? = some (.layer p done l (.unpacking (op :: todo))) →
      (c.write op (dirOf c s.stores l.chainId)).2 ≠ none →
        (c.write op (dirOf c s.stores l.chainId)).1 = c.emptyDir
  | .act t (.fail _) => ∀ task, s.tasks[t]? = some task → task.Whole c s.stores
  | .restart => ∀ task ∈ s.tasks, task.Whole c s.stores
  | _ => True

/-! ## The invariant -/

/-- What a chainID stands for. -/
def fullSnapshot (c : Code Tree Op) (content : Digest → Bytes) (chainId : Digest) :
    Tree × Option String :=
  applyWrites c (c.tarWrites ⟨content chainId, none⟩) c.emptyDir

/-- The directory is there and complete. -/
def Delivered (c : Code Tree Op) (content : Digest → Bytes) (s : Stores Tree) (chainId : Digest) :
    Prop :=
  ∃ tree, s.snapshots.get? chainId.hex = some tree ∧ fullSnapshot c content chainId = (tree, none)

/-- The stored blob of the layer decompresses to what its chainID stands for. -/
def LayerContent (c : Code Tree Op) (content : Digest → Bytes) (blobs : OrdMap String Bytes)
    (d : Descriptor) (expected chainId : Digest) : Prop :=
  ∃ blob, blobs.get? expected.hex = some blob ∧
    decompress c.decoders blob (.fromMediaType d.mediaType) = .ok ⟨content chainId, none⟩

/-- The layers behind a pull have the content of their chainIDs. -/
def DoneContent (c : Code Tree Op) (content : Digest → Bytes) (blobs : OrdMap String Bytes)
    (p : Plan) (done : List Digest) : Prop :=
  ∀ (j : Nat) d diffId chainId expected, (p.turns c)[j]? = some (d, diffId, chainId) →
    done[j]? = some expected → LayerContent c content blobs d expected chainId

/-- The stages behind the check. -/
def Stage.Checked : Stage Op → Prop
  | .looking | .creating | .unpacking _ => True
  | .streaming _ | .moving _ | .checking => False

def ContentOk (c : Code Tree Op) (content : Digest → Bytes) (blobs : OrdMap String Bytes) :
    Task Op → Prop
  | .layer p done l stage => DoneContent c content blobs p done ∧
      (stage.Checked → LayerContent c content blobs l.descriptor l.expected l.chainId)
  | _ => True

/-- What a pull has written so far is what the directory holds. -/
def FillOk (c : Code Tree Op) (content : Digest → Bytes) (s : Stores Tree) : Task Op → Prop
  | .layer _ _ l .creating => dirOf c s l.chainId = c.emptyDir
  | .layer _ _ l (.unpacking todo) => ∃ tree past, s.snapshots.get? l.chainId.hex = some tree ∧
      c.tarWrites ⟨content l.chainId, none⟩ = past ++ todo ∧
      applyWrites c past c.emptyDir = (tree, none)
  | _ => True

/-- A directory that nobody is filling. -/
def Settled (c : Code Tree Op) (content : Digest → Bytes) (s : Stores Tree) (chainId : Digest) :
    Prop :=
  dirOf c s chainId = c.emptyDir ∨ fullSnapshot c content chainId = (dirOf c s chainId, none)

structure SnapInv (c : Code Tree Op) (content : Digest → Bytes) (s : St Tree Op) : Prop where
  checked : ∀ task ∈ s.tasks, ContentOk c content s.stores.blobs task
  settled : ∀ chainId, (∀ task ∈ s.tasks, ¬ task.Fills chainId) →
    Settled c content s.stores chainId
  filling : ∀ task ∈ s.tasks, FillOk c content s.stores task
  alone : ∀ (t u : Nat) (a b : Task Op) chainId, s.tasks[t]? = some a → s.tasks[u]? = some b →
    a.Fills chainId → b.Fills chainId → t = u
  passed : ∀ task ∈ s.tasks, ∀ chainId, task.Passed c chainId →
    Delivered c content s.stores chainId ∧ ∀ other ∈ s.tasks, ¬ other.Fills chainId

variable {c : Code Tree Op} {content : Digest → Bytes}

/-! ## Frame rules -/

theorem dirOf_congr {s s' : Stores Tree} {chainId : Digest}
    (h : s'.snapshots.get? chainId.hex = s.snapshots.get? chainId.hex) :
    dirOf c s' chainId = dirOf c s chainId := by
  rw [dirOf, dirOf, h]

theorem Settled.congr {s s' : Stores Tree} {chainId : Digest} (hs : Settled c content s chainId)
    (h : s'.snapshots.get? chainId.hex = s.snapshots.get? chainId.hex) :
    Settled c content s' chainId := by
  rw [Settled, dirOf_congr h]
  exact hs

theorem Delivered.congr {s s' : Stores Tree} {chainId : Digest}
    (hs : Delivered c content s chainId)
    (h : s'.snapshots.get? chainId.hex = s.snapshots.get? chainId.hex) :
    Delivered c content s' chainId := by
  rw [Delivered, h]
  exact hs

/-- What a pull has written depends on the directory it fills only. -/
theorem FillOk.congr {s s' : Stores Tree} {task : Task Op} (hf : FillOk c content s task)
    (h : ∀ chainId, task.Fills chainId →
      s'.snapshots.get? chainId.hex = s.snapshots.get? chainId.hex) : FillOk c content s' task := by
  cases task with
  | layer p done l stage =>
    cases stage with
    | creating =>
      have hdir : dirOf c s' l.chainId = dirOf c s l.chainId := dirOf_congr (h l.chainId rfl)
      exact hdir.trans hf
    | unpacking todo =>
      obtain ⟨tree, past, htree, hrest⟩ := hf
      exact ⟨tree, past, (h l.chainId rfl).trans htree, hrest⟩
    | streaming written => trivial
    | moving bytes => trivial
    | checking => trivial
    | looking => trivial
  | resolving reference => trivial
  | storingConfig m => trivial
  | movingConfig m => trivial
  | pulled m img => trivial
  | failed reference e => trivial

theorem LayerContent.extends {blobs blobs' : OrdMap String Bytes} {d : Descriptor}
    {expected chainId : Digest} (h : LayerContent c content blobs d expected chainId)
    (he : Extends blobs blobs') : LayerContent c content blobs' d expected chainId := by
  obtain ⟨blob, hblob, hbytes⟩ := h
  exact ⟨blob, he _ _ hblob, hbytes⟩

theorem ContentOk.extends {blobs blobs' : OrdMap String Bytes} {task : Task Op}
    (h : ContentOk c content blobs task) (he : Extends blobs blobs') :
    ContentOk c content blobs' task := by
  cases task with
  | layer p done l stage =>
    refine ⟨?_, fun hs => (h.2 hs).extends he⟩
    intro j d diffId chainId expected hturn hdone
    exact (h.1 j d diffId chainId expected hturn hdone).extends he
  | resolving reference => trivial
  | storingConfig m => trivial
  | movingConfig m => trivial
  | pulled m img => trivial
  | failed reference e => trivial

/-- One pull moves from `old` to `new`.  It writes only to the directory it fills, it starts to fill
    one only when no pull fills it or has passed it, and it leaves and passes only settled ones. -/
theorem SnapInv.set {s : St Tree Op} (hi : SnapInv c content s) {t : Nat} {old new : Task Op}
    {stores : Stores Tree} (ht : s.tasks[t]? = some old)
    (hblobs : Extends s.stores.blobs stores.blobs)
    (hframe : ∀ chainId, ¬ old.Fills chainId →
      stores.snapshots.get? chainId.hex = s.stores.snapshots.get? chainId.hex)
    (hchecked : ContentOk c content stores.blobs new)
    (hstart : ∀ chainId, new.Fills chainId → old.Fills chainId ∨
      ((∀ task ∈ s.tasks, ¬ task.Fills chainId) ∧ ∀ task ∈ s.tasks, ¬ task.Passed c chainId))
    (hfill : FillOk c content stores new)
    (hleave : ∀ chainId, old.Fills chainId → ¬ new.Fills chainId →
      Settled c content stores chainId)
    (hpass : ∀ chainId, new.Passed c chainId → old.Passed c chainId ∨
      (Delivered c content stores chainId ∧ ¬ new.Fills chainId ∧
        ∀ u task, s.tasks[u]? = some task → u ≠ t → ¬ task.Fills chainId)) :
    SnapInv c content ⟨stores, s.tasks.set t new⟩ := by
  have hlt : t < s.tasks.length := by
    obtain ⟨h, -⟩ := List.getElem?_eq_some_iff.1 ht
    exact h
  have hold : old ∈ s.tasks := List.mem_of_getElem? ht
  -- where a pull has passed, nothing changes: nobody fills it, before and after
  have hkeep : ∀ task ∈ s.tasks, ∀ chainId, task.Passed c chainId →
      Delivered c content stores chainId ∧
        ∀ other ∈ s.tasks.set t new, ¬ other.Fills chainId := by
    intro task htask chainId hp
    obtain ⟨hdelivered, hnone⟩ := hi.passed task htask chainId hp
    refine ⟨hdelivered.congr (hframe chainId (hnone old hold)), ?_⟩
    intro other hother hfills
    rcases mem_set_cases hother with rfl | ⟨u, -, hu⟩
    · rcases hstart chainId hfills with h | ⟨-, h⟩
      · exact hnone old hold h
      · exact h task htask hp
    · exact hnone other (List.mem_of_getElem? hu) hfills
  constructor
  · intro task htask
    rcases mem_set_cases htask with rfl | ⟨u, -, hu⟩
    · exact hchecked
    · exact (hi.checked task (List.mem_of_getElem? hu)).extends hblobs
  · intro chainId hnone
    have hnew : ¬ new.Fills chainId := hnone new (List.mem_set hlt new)
    by_cases hof : old.Fills chainId
    · exact hleave chainId hof hnew
    · refine (hi.settled chainId ?_).congr (hframe chainId hof)
      intro task htask hfills
      obtain ⟨u, hu⟩ := List.mem_iff_getElem?.1 htask
      by_cases hut : u = t
      · subst hut
        rw [ht] at hu
        cases hu
        exact hof hfills
      · exact hnone task (mem_set_other hu hut) hfills
  · intro task htask
    rcases mem_set_cases htask with rfl | ⟨u, hut, hu⟩
    · exact hfill
    · refine (hi.filling task (List.mem_of_getElem? hu)).congr ?_
      intro chainId hfills
      apply hframe
      intro hof
      exact hut (hi.alone u t task old chainId hu ht hfills hof)
  · intro u v a b chainId hu hv ha hb
    rcases getElem?_set_cases hu with ⟨hut, hua⟩ | ⟨-, hua⟩
    · rcases getElem?_set_cases hv with ⟨hvt, -⟩ | ⟨-, hvb⟩
      · rw [hut, hvt]
      · rw [hua] at ha
        rcases hstart chainId ha with hof | ⟨hnone, -⟩
        · rw [hut]
          exact hi.alone t v old b chainId ht hvb hof hb
        · exact absurd hb (hnone b (List.mem_of_getElem? hvb))
    · rcases getElem?_set_cases hv with ⟨hvt, hvb⟩ | ⟨-, hvb⟩
      · rw [hvb] at hb
        rcases hstart chainId hb with hof | ⟨hnone, -⟩
        · rw [hvt]
          exact hi.alone u t a old chainId hua ht ha hof
        · exact absurd ha (hnone a (List.mem_of_getElem? hua))
      · exact hi.alone u v a b chainId hua hvb ha hb
  · intro task htask chainId hp
    rcases mem_set_cases htask with rfl | ⟨u, -, hu⟩
    · rcases hpass chainId hp with hold' | ⟨hdelivered, hnew, hothers⟩
      · exact hkeep old hold chainId hold'
      · refine ⟨hdelivered, ?_⟩
        intro other hother
        rcases mem_set_cases hother with rfl | ⟨u, hut, hu⟩
        · exact hnew
        · exact hothers u other hu hut
    · exact hkeep task (List.mem_of_getElem? hu) chainId hp

theorem fillOk_of_not_fills {s : Stores Tree} {task : Task Op}
    (h : ∀ chainId, ¬ task.Fills chainId) : FillOk c content s task := by
  cases task with
  | layer p done l stage =>
    cases stage with
    | creating => exact absurd rfl (h l.chainId)
    | unpacking todo => exact absurd rfl (h l.chainId)
    | streaming written => trivial
    | moving bytes => trivial
    | checking => trivial
    | looking => trivial
  | resolving reference => trivial
  | storingConfig m => trivial
  | movingConfig m => trivial
  | pulled m img => trivial
  | failed reference e => trivial

/-- A step away from the directories. -/
theorem SnapInv.quiet {s : St Tree Op} (hi : SnapInv c content s) {t : Nat} {old new : Task Op}
    {stores : Stores Tree} (ht : s.tasks[t]? = some old)
    (hblobs : Extends s.stores.blobs stores.blobs)
    (hsnapshots : stores.snapshots = s.stores.snapshots)
    (hchecked : ContentOk c content stores.blobs new) (hold : ∀ chainId, ¬ old.Fills chainId)
    (hnew : ∀ chainId, ¬ new.Fills chainId)
    (hpass : ∀ chainId, new.Passed c chainId → old.Passed c chainId) :
    SnapInv c content ⟨stores, s.tasks.set t new⟩ := by
  refine hi.set ht hblobs ?_ hchecked ?_ (fillOk_of_not_fills hnew) ?_ ?_
  · intro chainId _
    rw [hsnapshots]
  · intro chainId h
    exact absurd h (hnew chainId)
  · intro chainId h
    exact absurd h (hold chainId)
  · intro chainId h
    exact .inl (hpass chainId h)

/-! ## The head of the layer loop -/

/-- What the head of the loop leads to. -/
theorem nextTurn_cases (c : Code Tree Op) (p : Plan) (done : List Digest) :
    (∃ l, nextTurn c p done = .layer p done l (.streaming [])) ∨
    (∃ img, nextTurn c p done = .pulled p.manifest img ∧ img.layerDigests = done ∧
      img.chainIds = chainIds c.sha256 p.diffIds) ∨
    (∃ e, nextTurn c p done = .failed p.manifest.reference e) := by
  unfold nextTurn
  split
  · unfold finish
    split
    · exact .inr (.inr ⟨_, rfl⟩)
    · exact .inr (.inl ⟨_, rfl, rfl, rfl⟩)
  · split
    · exact .inr (.inr ⟨_, rfl⟩)
    · split
      · exact .inr (.inr ⟨_, rfl⟩)
      · exact .inl ⟨_, rfl⟩

theorem nextTurn_not_fills {p : Plan} {done : List Digest} (chainId : Digest) :
    ¬ (nextTurn c p done).Fills chainId := by
  rcases nextTurn_cases c p done with ⟨l, h⟩ | ⟨img, h, -⟩ | ⟨e, h⟩ <;> rw [h] <;> exact id

theorem nextTurn_passed {p : Plan} {done : List Digest} {chainId : Digest}
    (hp : (nextTurn c p done).Passed c chainId) : ∃ (j : Nat) (d : Descriptor) (diffId : Digest),
      j < done.length ∧ (p.turns c)[j]? = some (d, diffId, chainId) := by
  rcases nextTurn_cases c p done with ⟨l, h⟩ | ⟨img, h, -⟩ | ⟨e, h⟩
  · rw [h] at hp
    exact hp
  · rw [h] at hp
    exact hp.elim
  · rw [h] at hp
    exact hp.elim

theorem nextTurn_contentOk {p : Plan} {done : List Digest} {blobs : OrdMap String Bytes}
    (hd : DoneContent c content blobs p done) : ContentOk c content blobs (nextTurn c p done) := by
  rcases nextTurn_cases c p done with ⟨l, h⟩ | ⟨img, h, -⟩ | ⟨e, h⟩
  · rw [h]
    exact ⟨hd, fun hs => hs.elim⟩
  · rw [h]
    trivial
  · rw [h]
    trivial

/-- A pull that returns `Ok` has the layers behind it delivered: its snapshots are complete. -/
theorem nextTurn_complete {p : Plan} {done : List Digest} {s : Stores Tree} {m : Manifest}
    {img : PulledImage} (hd : DoneContent c content s.blobs p done)
    (hdelivered : ∀ (j : Nat) d diffId chainId, j < done.length →
      (p.turns c)[j]? = some (d, diffId, chainId) → Delivered c content s chainId)
    (hpulled : nextTurn c p done = .pulled m img) : Complete c s m img := by
  rcases nextTurn_cases c p done with ⟨l, h⟩ | ⟨img', h, hlayers, hchains⟩ | ⟨e, h⟩
  · rw [h] at hpulled
    cases hpulled
  · rw [h] at hpulled
    cases hpulled
    intro i d expected chainId hi hexpected hchain
    rw [hlayers] at hexpected
    rw [hchains] at hchain
    obtain ⟨hlt, -⟩ := List.getElem?_eq_some_iff.1 hchain
    rw [chainIds_length] at hlt
    have hturn : (p.turns c)[i]? = some (d, _, chainId) :=
      turns_get.2 ⟨hi, List.getElem?_eq_getElem hlt, hchain⟩
    obtain ⟨hdone, -⟩ := List.getElem?_eq_some_iff.1 hexpected
    obtain ⟨tree, htree, hfull⟩ := hdelivered i d _ chainId hdone hturn
    obtain ⟨blob, hblob, hbytes⟩ := hd i d _ chainId expected hturn hexpected
    refine ⟨blob, tree, hblob, htree, ?_⟩
    rw [applyLayer, hbytes]
    exact hfull
  · rw [h] at hpulled
    cases hpulled

/-- The config has been read: the first turn, or the end. -/
theorem readConfig_cases (c : Code Tree Op) (m : Manifest) :
    (∃ p : Plan, p.manifest = m ∧ readConfig c m = nextTurn c p []) ∨
      ∃ e, readConfig c m = .failed m.reference e := by
  unfold readConfig
  split
  · exact .inr ⟨_, rfl⟩
  · split
    · exact .inr ⟨_, rfl⟩
    · split
      · exact .inl ⟨_, rfl, rfl⟩
      · exact .inr ⟨_, rfl⟩

end ContainerdRs.Images.Concurrent

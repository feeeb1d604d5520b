import ContainerdRs.Lib.Overwrite
import ContainerdRs.Snapshots.Containment

/-!
# Merging layers: the image specification and the order of the stream

The image specification applies a layer in two parts: its markers hide what earlier layers left,
then its own entries are laid on top.  `apply_layer` takes the stream as it comes.  Both are
compared here on trees as functions from paths, where every item acts at each path on its own:
it sets it, removes it or leaves it alone.

* `streamTree` — items in stream order; `ociTree` — markers first in each layer.
* `Lost` — a marker stands behind the last entry of its layer that makes a path it hides.
* `streamLayer_eq_iff` — one layer: the two differ exactly at the lost paths.
* `streamTree_eq_iff` — a stack: they differ exactly at the lost paths that no later layer touches.
-/

set_option autoImplicit false

namespace ContainerdRs.Snapshots

open FileTree Overwrite

/-! ## Items of a layer -/

/-- The name of a file or directory: no whiteout. -/
structure PlainName where
  text : String
  plain : stripWhiteout text = none

/-- The name behind `.wh.` in a whiteout: a file name, and not the one of the opaque marker. -/
structure HiddenName where
  text : String
  named : partOfText text = .name (.utf8 text)
  notOpaque : whiteoutPrefix ++ text ≠ opaqueMarker

/-- An item of a layer. -/
inductive Item where
  | file (parent : List String) (name : PlainName) (content : Bytes)
  | dir (parent : List String) (name : PlainName)
  | whiteout (parent : List String) (name : HiddenName)
  | opaqueDir (path : List String)

/-- The path an item is about. -/
def Item.path : Item → List OsName
  | .file parent name _ => location (parent ++ [name.text])
  | .dir parent name => location (parent ++ [name.text])
  | .whiteout parent name => location (parent ++ [name.text])
  | .opaqueDir path => location path

/-- Whiteouts and opaque markers. -/
def Item.isMarker : Item → Bool
  | .whiteout .. => true
  | .opaqueDir _ => true
  | _ => false

/-- A merged tree: what stands at each path below the root file system. -/
abbrev Tree := List OsName → Option (Node OsName Bytes)

/-- What an item does at the path `q`: nothing, or set it.  A file replaces what was at and below
    its path, an entry makes the directories above it, a marker hides. -/
def Item.effect (q : List OsName) (i : Item) : Option (Option (Node OsName Bytes)) :=
  match i with
  | .file _ _ content =>
    if q = i.path then some (some (.file content))
    else if q <+: i.path then some (some .dir)
    else if i.path <+: q then some none
    else none
  | .dir .. => if q <+: i.path then some (some .dir) else none
  | .whiteout .. => if i.path <+: q then some none else none
  | .opaqueDir _ => if i.path <+: q ∧ q ≠ i.path then some none else none

/-- An item applied to a tree. -/
def Item.act (t : Tree) (i : Item) : Tree := fun q => (i.effect q).getD (t q)

/-- An empty root file system. -/
def emptyRoot : Tree := fun q => if q = [] then some .dir else none

/-- A layer in the order of its stream. -/
def streamLayer (t : Tree) (layer : List Item) : Tree := layer.foldl Item.act t

/-- A layer as the image specification has it: markers against the earlier layers, then the
    entries on top. -/
def ociLayer (t : Tree) (layer : List Item) : Tree :=
  streamLayer (streamLayer t (layer.filter fun i => i.isMarker))
    (layer.filter fun i => !i.isMarker)

/-- The layers in the order of their streams. -/
def streamTree (layers : List (List Item)) : Tree := layers.foldl streamLayer emptyRoot

/-- The layers as the image specification has them. -/
def ociTree (layers : List (List Item)) : Tree := layers.foldl ociLayer emptyRoot

/-- Some item of the layer sets `q`. -/
def Touched (layer : List Item) (q : List OsName) : Prop := ∃ i ∈ layer, i.effect q ≠ none

/-- The last entry of the layer that sets `q` makes it, and a marker behind it hides it. -/
def Lost (layer : List Item) (q : List OsName) : Prop :=
  ∃ pre e post, layer = pre ++ e :: post ∧ e.isMarker = false ∧
    (∃ x, e.effect q = some (some x)) ∧
    (∀ i ∈ post, i.isMarker = false → i.effect q = none) ∧
    ∃ m ∈ post, m.isMarker = true ∧ m.effect q ≠ none

/-! ## One layer -/

/-- A marker hides or does nothing. -/
theorem marker_effect {i : Item} (hi : i.isMarker = true) (q : List OsName) :
    i.effect q = none ∨ i.effect q = some none := by
  cases i with
  | file parent name content => simp [Item.isMarker] at hi
  | dir parent name => simp [Item.isMarker] at hi
  | whiteout parent name =>
    simp only [Item.effect]
    split_ifs <;> simp
  | opaqueDir path =>
    simp only [Item.effect]
    split_ifs <;> simp

/-- A layer acts on each path as a list of writers. -/
theorem streamLayer_eq_overwrite (q : List OsName) : ∀ (layer : List Item) (t : Tree),
    streamLayer t layer q = overwrite (Item.effect q) (t q) layer
  | [], t => rfl
  | i :: layer, t => by
    have ih := streamLayer_eq_overwrite q layer (i.act t)
    simpa [streamLayer, overwrite, Item.act] using ih

theorem ociLayer_eq_overwrite (q : List OsName) (layer : List Item) (t : Tree) :
    ociLayer t layer q = overwrite (Item.effect q)
      (overwrite (Item.effect q) (t q) (layer.filter fun i => i.isMarker))
      (layer.filter fun i => !i.isMarker) := by
  rw [ociLayer, streamLayer_eq_overwrite, streamLayer_eq_overwrite]

/-- Touching does not depend on the order. -/
theorem not_touched_filter {layer : List Item} {q : List OsName} (h : ¬ Touched layer q)
    (p : Item → Bool) : ∀ i ∈ layer.filter p, i.effect q = none := by
  intro i hi
  by_contra hne
  exact h ⟨i, List.mem_of_mem_filter hi, hne⟩

theorem untouched_layer {layer : List Item} {q : List OsName} (h : ¬ Touched layer q) (t : Tree) :
    streamLayer t layer q = t q ∧ ociLayer t layer q = t q := by
  constructor
  · rw [streamLayer_eq_overwrite]
    exact overwrite_untouched fun i hi => by_contra fun hne => h ⟨i, hi, hne⟩
  · rw [ociLayer_eq_overwrite, overwrite_untouched (not_touched_filter h _),
      overwrite_untouched (not_touched_filter h _)]

/-- Where only markers touch `q`, it is hidden. -/
theorem markers_hide {items : List Item} {q : List OsName} (v : Option (Node OsName Bytes))
    (hentries : ∀ i ∈ items, i.isMarker = false → i.effect q = none)
    (hsome : ∃ i ∈ items, i.effect q ≠ none) : overwrite (Item.effect q) v items = none := by
  apply overwrite_const (a := none) _ hsome
  intro i hi
  cases hm : i.isMarker with
  | false => exact Or.inl (hentries i hi hm)
  | true => exact marker_effect hm q

/-- The entries of a layer whose last one that sets `q` is `e`. -/
theorem ociLayer_last {pre post : List Item} {e : Item} {q : List OsName}
    {v : Option (Node OsName Bytes)} (he : e.isMarker = false) (hv : e.effect q = some v)
    (hpost : ∀ i ∈ post, i.isMarker = false → i.effect q = none) (t : Tree) :
    ociLayer t (pre ++ e :: post) q = v := by
  have hsplit : (pre ++ e :: post).filter (fun i => !i.isMarker) =
      pre.filter (fun i => !i.isMarker) ++ e :: post.filter (fun i => !i.isMarker) := by
    simp [List.filter_append, he]
  rw [ociLayer_eq_overwrite, hsplit]
  apply overwrite_last hv
  intro i hi
  obtain ⟨hi, hm⟩ := List.mem_filter.mp hi
  exact hpost i hi (by simpa using hm)

/-- At a path that the layer touches, stream order and specification agree unless the path is
    lost, whatever was there before. -/
theorem streamLayer_eq_iff {layer : List Item} {q : List OsName} (ht : Touched layer q)
    (t t' : Tree) : streamLayer t layer q = ociLayer t' layer q ↔ ¬ Lost layer q := by
  rw [streamLayer_eq_overwrite]
  constructor
  · rintro heq ⟨pre, e, post, rfl, he, ⟨x, hx⟩, hpost, m, hm, hmark, hhide⟩
    rw [ociLayer_last he hx hpost, ← List.singleton_append, overwrite_append, overwrite_append,
      markers_hide _ hpost ⟨m, hm, hhide⟩] at heq
    simp at heq
  · intro hlost
    by_cases hentry : ∃ i ∈ layer, i.isMarker = false ∧ i.effect q ≠ none
    · -- the last entry at `q` decides on both sides
      obtain ⟨pre, e, post, rfl, ⟨he, hne⟩, hlast⟩ := exists_last hentry
      obtain ⟨v, hv⟩ := Option.ne_none_iff_exists'.mp hne
      have hpost : ∀ i ∈ post, i.isMarker = false → i.effect q = none := by
        intro i hi hm
        by_contra h
        exact hlast i hi ⟨hm, h⟩
      rw [ociLayer_last he hv hpost]
      by_cases hmark : ∃ m ∈ post, m.effect q ≠ none
      · obtain ⟨m, hm, hhide⟩ := hmark
        have hmm : m.isMarker = true := by
          by_contra h
          exact hhide (hpost m hm (by simpa using h))
        rw [← List.singleton_append, overwrite_append, overwrite_append,
          markers_hide _ hpost ⟨m, hm, hhide⟩]
        cases v with
        | none => rfl
        | some x => exact absurd ⟨pre, e, post, rfl, he, ⟨x, hv⟩, hpost, m, hm, hmm, hhide⟩ hlost
      · exact overwrite_last hv fun i hi => by_contra fun h => hmark ⟨i, hi, h⟩
    · -- only markers touch `q`
      have hnone : ∀ i ∈ layer, i.isMarker = false → i.effect q = none := by
        intro i hi hm
        by_contra h
        exact hentry ⟨i, hi, hm, h⟩
      obtain ⟨m, hm, hhide⟩ := ht
      have hmm : m.isMarker = true := by
        by_contra h
        exact hhide (hnone m hm (by simpa using h))
      have hentries : ∀ i ∈ layer.filter fun i => !i.isMarker, i.effect q = none := by
        intro i hi
        obtain ⟨hi, hm⟩ := List.mem_filter.mp hi
        exact hnone i hi (by simpa using hm)
      rw [ociLayer_eq_overwrite, overwrite_untouched hentries, markers_hide _ hnone ⟨m, hm, hhide⟩,
        markers_hide _ (fun i hi hf => by simp [(List.mem_filter.mp hi).2] at hf)
          ⟨m, List.mem_filter.mpr ⟨hm, hmm⟩, hhide⟩]

/-! ## Stacks of layers -/

theorem lost_touched {layer : List Item} {q : List OsName} (h : Lost layer q) :
    Touched layer q := by
  obtain ⟨pre, e, post, rfl, -, -, -, m, hm, -, hhide⟩ := h
  exact ⟨m, by simp [hm], hhide⟩

/-- Every lost path is set by a later layer. -/
def Recovered (layers : List (List Item)) (q : List OsName) : Prop :=
  ∀ pre layer post, layers = pre ++ layer :: post → Lost layer q → ∃ later ∈ post, Touched later q

/-- One more layer on top that touches `q`. -/
theorem recovered_snoc_touched {layers : List (List Item)} {layer : List Item} {q : List OsName}
    (ht : Touched layer q) : Recovered (layers ++ [layer]) q ↔ ¬ Lost layer q := by
  constructor
  · intro h hlost
    obtain ⟨later, hm, -⟩ := h layers layer [] rfl hlost
    simp at hm
  · intro hlost pre l post heq hl
    rcases List.eq_nil_or_concat' post with rfl | ⟨post', last, rfl⟩
    · obtain ⟨-, h⟩ := List.append_inj' heq rfl
      obtain rfl : layer = l := by simpa using h
      exact absurd hl hlost
    · refine ⟨last, by simp, ?_⟩
      rw [← List.cons_append, ← List.append_assoc] at heq
      obtain ⟨-, h⟩ := List.append_inj' heq rfl
      obtain rfl : layer = last := by simpa using h
      exact ht

/-- One more layer on top that leaves `q` alone. -/
theorem recovered_snoc_untouched {layers : List (List Item)} {layer : List Item} {q : List OsName}
    (ht : ¬ Touched layer q) : Recovered (layers ++ [layer]) q ↔ Recovered layers q := by
  constructor
  · intro h pre l post heq hl
    obtain ⟨later, hm, htl⟩ := h pre l (post ++ [layer]) (by simp [heq]) hl
    rcases List.mem_append.mp hm with hm | hm
    · exact ⟨later, hm, htl⟩
    · obtain rfl := List.mem_singleton.mp hm
      exact absurd htl ht
  · intro h pre l post heq hl
    rcases List.eq_nil_or_concat' post with rfl | ⟨post', last, rfl⟩
    · obtain ⟨-, h'⟩ := List.append_inj' heq rfl
      obtain rfl : layer = l := by simpa using h'
      exact absurd (lost_touched hl) ht
    · rw [← List.cons_append, ← List.append_assoc] at heq
      obtain ⟨rfl, -⟩ := List.append_inj' heq rfl
      obtain ⟨later, hm, htl⟩ := h pre l post' rfl hl
      exact ⟨later, by simp [hm], htl⟩

/-- The two merges agree at a path exactly when each layer that lost it is followed by one that
    sets it again.  Induction on the layers, the last one first. -/
theorem streamTree_eq_iff (layers : List (List Item)) (q : List OsName) :
    streamTree layers q = ociTree layers q ↔ Recovered layers q := by
  induction layers using List.reverseRecOn with
  | nil =>
    refine iff_of_true rfl ?_
    intro pre layer post heq
    simp at heq
  | append_singleton layers layer ih =>
    have hs : streamTree (layers ++ [layer]) q = streamLayer (streamTree layers) layer q := by
      simp [streamTree]
    have ho : ociTree (layers ++ [layer]) q = ociLayer (ociTree layers) layer q := by
      simp [ociTree]
    rw [hs, ho]
    by_cases ht : Touched layer q
    · rw [streamLayer_eq_iff ht, recovered_snoc_touched ht]
    · rw [(untouched_layer ht _).1, (untouched_layer ht _).2, ih, recovered_snoc_untouched ht]

end ContainerdRs.Snapshots

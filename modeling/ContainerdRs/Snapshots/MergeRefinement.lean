import ContainerdRs.Snapshots.Merge

/-!
# `unpack_rootfs` builds the tree of its streams

The layers are streams of files, directories and markers.  Below the root file system there are
no links then, a path of names is a location, and each item does to the tree of the host what it
does to the merged tree.  `tar` refuses an entry that meets a file where it needs a directory, or
a directory where it puts a file (`Clash`).

* `applyEntry_refines` — one item.
* `applyEntries_refines`, `unpackRootfs_refines` — layers and stacks: `unpack_rootfs` succeeds
  when nothing clashes and then leaves `streamTree`, else it fails.
* `unpackRootfs_oci_iff` — so it builds the tree of the image specification exactly when nothing
  clashes and every lost path is set by a later layer.
-/

set_option autoImplicit false

namespace ContainerdRs.Snapshots

open FileTree

/-! ## Items as tar entries -/

/-- The tar entry of an item. -/
def Item.tarEntry : Item → TarEntry EntryBody
  | .file parent name content => ⟨namesPath (parent ++ [name.text]), .file content⟩
  | .dir parent name => ⟨namesPath (parent ++ [name.text]), .dir⟩
  | .whiteout parent name => ⟨namesPath (parent ++ [whiteoutPrefix ++ name.text]), .file []⟩
  | .opaqueDir path => ⟨namesPath (path ++ [opaqueMarker]), .file []⟩

/-- The merged tree below `T`. -/
def view (T : List OsName) (t : Fs) : Tree := fun q => t.get? (T ++ q)

/-- Something that is not a directory stands at `q`. -/
def Blocked (t : Tree) (q : List OsName) : Prop := ∃ x, t q = some x ∧ x.isDir = false

/-- The object an entry puts at its path. -/
def Item.node (i : Item) : Node OsName Bytes := i.tarEntry.body.node

/-- An entry meets something that is no directory above its path, or at its path a directory
    where it puts a file, or the other way round. -/
def Clash (t : Tree) (i : Item) : Prop :=
  i.isMarker = false ∧
    ((∃ q, q <+: i.path ∧ q ≠ i.path ∧ Blocked t q) ∨
      ∃ x, t i.path = some x ∧ x.isDir ≠ i.node.isDir)

/-- Some entry of the stream clashes at its turn. -/
def Clashes : Tree → List Item → Prop
  | _, [] => False
  | t, i :: items => Clash t i ∨ Clashes (i.act t) items

/-- An entry was put at its path, with the missing directories above it, and nothing else was
    changed. -/
structure Laid (T : List OsName) (i : Item) (t t' : Fs) : Prop where
  here : t'.get? (T ++ i.path) = some i.node
  above : ∀ q, q <+: i.path → q ≠ i.path → t'.get? (T ++ q) = some .dir
  rest : ∀ x, (∀ q, q <+: i.path → x ≠ T ++ q) → t'.get? x = t.get? x

/-- What `tar` and `read_dir` do below a root file system without links. -/
structure HostLaws (H : Host EntryBody) (target : List (PathPart OsName)) (T : List OsName) :
    Prop where
  /-- An entry that meets no object of another kind is laid. -/
  lays : ∀ (t : Fs) (i : Item), i.isMarker = false → Rooted t target T → ¬ Clash (view T t) i →
    ∃ t', H.unpackIn target i.tarEntry t = (.ok (), t') ∧ Laid T i t t'
  /-- An entry that meets an object of another kind is an error. -/
  refuses : ∀ (t : Fs) (i : Item), i.isMarker = false → Rooted t target T → Clash (view T t) i →
    ∃ e t', H.unpackIn target i.tarEntry t = (.error e, t')
  /-- A directory is listed completely. -/
  lists : ∀ (t : Fs) (l : List OsName), t.isDirAt l = true →
    ∃ names, H.readDir t l = .ok names ∧ ∀ n, n ∈ names ↔ n ∈ t.children l

/-! ## Classification -/

theorem parts_namesPath (ns : List String) : (namesPath ns).parts = (location ns).map .name := by
  simp [namesPath, location]

theorem components_namesPath (ns : List String) :
    (namesPath ns).components = ns.map fun s => .normal (.utf8 s) := by
  cases ns with
  | nil => rfl
  | cons s ns =>
    simp only [PathBuf.components, namesPath, List.map_cons, List.filterMap_cons,
      Component.ofPart, List.filterMap_map, Function.comp_def, Bool.false_eq_true, if_false]
    simp

theorem ofComponents_names (ns : List String) :
    PathBuf.ofComponents (ns.map fun s => .normal (.utf8 s)) = namesPath ns := by
  cases ns <;> simp [PathBuf.ofComponents, namesPath, Component.toPart]

theorem fileName_namesPath (ns : List String) (s : String) :
    (namesPath (ns ++ [s])).fileName = some (.utf8 s) := by
  simp [PathBuf.fileName, components_namesPath]

theorem parent_namesPath (ns : List String) (s : String) :
    (namesPath (ns ++ [s])).parent = namesPath ns := by
  rw [PathBuf.parent, components_namesPath, List.map_append, List.map_singleton,
    List.dropLast_concat, ofComponents_names]

theorem safeJoin_namesPath (target : List (PathPart OsName)) (ns : List String) :
    safeJoin target (namesPath ns) = some (target ++ (location ns).map .name) := by
  have hsafe : (namesPath ns).components.all Component.isSafe = true := by
    simp [components_namesPath, Component.isSafe]
  rw [safeJoin, if_pos hsafe, parts_namesPath]

/-- An entry with a plain name is no marker. -/
theorem classify_plain (ns : List String) (name : PlainName) :
    classify (namesPath (ns ++ [name.text])) = .none := by
  have hne : name.text ≠ opaqueMarker := by
    intro h
    have hp := name.plain
    rw [h] at hp
    revert hp
    decide
  simp [classify, fileName_namesPath, OsName.toStr, hne, name.plain]

theorem stripWhiteout_append (s : String) : stripWhiteout (whiteoutPrefix ++ s) = some s := by
  have hlen : whiteoutPrefix.toList.length = 4 := by decide
  have hpre : whiteoutPrefix.toList <+: (whiteoutPrefix ++ s).toList := by simp
  rw [stripWhiteout, if_pos hpre, String.toList_append, List.drop_left' hlen, String.ofList_toList]

theorem classify_whiteout (ns : List String) (name : HiddenName) :
    classify (namesPath (ns ++ [whiteoutPrefix ++ name.text])) =
      .remove (namesPath (ns ++ [name.text])) := by
  have hjoin : (namesPath ns).joinText name.text = namesPath (ns ++ [name.text]) := by
    simp [PathBuf.joinText, namesPath, name.named]
  rw [classify, fileName_namesPath]
  simp only [Option.bind_some, OsName.toStr, if_neg name.notOpaque, stripWhiteout_append,
    parent_namesPath, hjoin]

theorem classify_opaque (ns : List String) :
    classify (namesPath (ns ++ [opaqueMarker])) = .opaqueDir (namesPath ns) := by
  rw [classify, fileName_namesPath]
  simp only [Option.bind_some, OsName.toStr, if_true, parent_namesPath]

/-! ## Markers -/

section

variable {H : Host EntryBody} {target : List (PathPart OsName)} {T : List OsName} {t : Fs}

/-- `remove_path` of a path of names takes away the subtree at its location. -/
theorem removePath_names (h : Rooted t target T) {p : List OsName} (hp : p ≠ []) (l : List OsName) :
    (removePath t (target ++ p.map .name)).get? l =
      if T ++ p <+: l then none else t.get? l := by
  unfold removePath FileTree.isDir
  rw [h.resolve_names true hp]
  by_cases hd : t.get? (T ++ p) = some .dir
  · have hdir : t.isDirAt (T ++ p) = true := isDirAt_iff.mpr hd
    simp only [hd, Option.isSome_some, if_true, hdir]
    exact h.removeDirAll_names hp hd l
  · have hfile := h.removeFile_names hp hd l
    have hdir : ¬ t.isDirAt (T ++ p) = true := fun h' => hd (isDirAt_iff.mp h')
    by_cases hs : (t.get? (T ++ p)).isSome = true
    · simp only [if_pos hs, if_neg hdir]
      exact hfile
    · simp only [if_neg hs]
      exact hfile

theorem removePath_rooted (h : Rooted t target T) {p : List OsName} (hp : p ≠ []) :
    Rooted (removePath t (target ++ p.map .name)) target T :=
  h.remove_subtree hp (removePath_names h hp)

/-- Removing children of `d` one after another. -/
theorem removeChildren_names {d : List OsName} : ∀ (names : List OsName) (t : Fs),
    Rooted t target T →
    Rooted (removeChildren (target ++ d.map .name) t names) target T ∧
    ∀ l, (removeChildren (target ++ d.map .name) t names).get? l =
      if ∃ n ∈ names, T ++ (d ++ [n]) <+: l then none else t.get? l
  | [], t, h => ⟨h, fun l => by simp [removeChildren]⟩
  | n :: names, t, h => by
    have hne : d ++ [n] ≠ [] := by simp
    have hpath : (target ++ d.map .name) ++ [.name n] = target ++ (d ++ [n]).map .name := by simp
    have hstep : removeChildren (target ++ d.map .name) t (n :: names) =
        removeChildren (target ++ d.map .name)
          (removePath t (target ++ (d ++ [n]).map .name)) names := by
      rw [← hpath]
      rfl
    obtain ⟨hrooted, hget⟩ := removeChildren_names names _ (removePath_rooted h hne)
    rw [hstep]
    refine ⟨hrooted, fun l => ?_⟩
    rw [hget, removePath_names h hne]
    by_cases hrest : ∃ m ∈ names, T ++ (d ++ [m]) <+: l
    · obtain ⟨m, hm, hl⟩ := hrest
      rw [if_pos ⟨m, hm, hl⟩, if_pos ⟨m, by simp [hm], hl⟩]
    · rw [if_neg hrest]
      simp only [List.exists_mem_cons_iff, hrest, or_false]

/-- An opaque marker on the directory `d` takes away all that is below it. -/
theorem clearDir_names (laws : HostLaws H target T) (h : Rooted t target T) (d : List OsName) :
    ∃ t', clearDir H (target ++ d.map .name) t = (.ok (), t') ∧ Rooted t' target T ∧
      ∀ l, t'.get? l = if T ++ d <+: l ∧ l ≠ T ++ d then none else t.get? l := by
  have hres : t.resolve true (target ++ d.map .name) =
      if (t.get? (T ++ d)).isSome then some (T ++ d) else none := by
    by_cases hd : d = []
    · subst hd
      simp [h.resolve_target, h.plain.root]
    · exact h.resolve_names true hd
  by_cases hdir : t.get? (T ++ d) = some .dir
  · have hat : t.isDirAt (T ++ d) = true := isDirAt_iff.mpr hdir
    obtain ⟨names, hlist, hmem⟩ := laws.lists t _ hat
    obtain ⟨hrooted, hget⟩ := removeChildren_names (d := d) names t h
    refine ⟨_, ?_, hrooted, fun l => ?_⟩
    · simp only [clearDir, hres, hdir, Option.isSome_some, if_true, hat, hlist]
    · rw [hget]
      by_cases hl : T ++ d <+: l ∧ l ≠ T ++ d
      · rw [if_pos hl]
        obtain ⟨⟨r, rfl⟩, hne⟩ := hl
        cases r with
        | nil => simp at hne
        | cons n r =>
          split
          · rfl
          · rename_i hnot
            -- a child that is not listed has nothing below it
            have hn : t.get? (T ++ (d ++ [n])) = none := by
              by_contra hsome
              refine hnot ⟨n, (hmem n).mpr (mem_children.mpr ?_), ⟨r, by simp⟩⟩
              rw [List.append_assoc]
              exact Option.isSome_iff_ne_none.mpr hsome
            by_cases hr : r = []
            · simpa [hr] using hn
            · exact h.plain.nothing_below (p := d ++ [n]) (by simp [hn]) ⟨r, by simp⟩
                (by simpa using hr)
      · rw [if_neg hl, if_neg]
        rintro ⟨n, -, hn⟩
        have hlen := hn.length_le
        refine hl ⟨(List.prefix_append (T ++ d) [n]).trans (by simpa using hn), ?_⟩
        rintro rfl
        simp at hlen
  · refine ⟨t, ?_, h, fun l => ?_⟩
    · have hat : ¬ t.isDirAt (T ++ d) = true := fun h' => hdir (isDirAt_iff.mp h')
      by_cases hs : (t.get? (T ++ d)).isSome = true
      · simp only [clearDir, hres, if_pos hs, if_neg hat]
      · simp only [clearDir, hres, if_neg hs]
    · split
      · rename_i hl
        exact h.plain.nothing_below hdir hl.1 hl.2
      · rfl

/-! ## Entries -/

/-- What an entry does at each path. -/
theorem entry_effect {i : Item} (hi : i.isMarker = false) (q : List OsName) :
    i.effect q =
      if q = i.path then some (some i.node)
      else if q <+: i.path then some (some .dir)
      else if i.node.isDir = false ∧ i.path <+: q then some none
      else none := by
  cases i with
  | file parent name content =>
    simp [Item.effect, Item.node, Item.tarEntry, EntryBody.node, Node.isDir]
  | dir parent name =>
    simp only [Item.effect, Item.node, Item.tarEntry, EntryBody.node, Node.isDir]
    by_cases hq : q = Item.path (.dir parent name)
    · rw [if_pos hq, if_pos (hq ▸ List.prefix_rfl)]
    · simp [hq]
  | whiteout parent name => simp [Item.isMarker] at hi
  | opaqueDir path => simp [Item.isMarker] at hi

theorem entry_node {i : Item} (hi : i.isMarker = false) :
    i.node.isSymlink = false ∧ i.path ≠ [] := by
  cases i with
  | file parent name content =>
    simp [Item.node, Item.tarEntry, EntryBody.node, Node.isSymlink, Item.path, location]
  | dir parent name =>
    simp [Item.node, Item.tarEntry, EntryBody.node, Node.isSymlink, Item.path, location]
  | whiteout parent name => simp [Item.isMarker] at hi
  | opaqueDir path => simp [Item.isMarker] at hi

/-- Where an entry did not clash, a directory at its path stays one. -/
theorem node_of_dir {i : Item} (hi : i.isMarker = false) (hc : ¬ Clash (view T t) i)
    (hd : t.get? (T ++ i.path) = some .dir) : i.node = .dir := by
  by_contra hne
  refine hc ⟨hi, Or.inr ⟨.dir, hd, ?_⟩⟩
  intro hsame
  exact hne (Node.isDir_iff.mp hsame.symm)

/-- Paths that are not above the entry are left alone. -/
theorem Laid.other {i : Item} {t' : Fs} (hlaid : Laid T i t t') {q : List OsName}
    (hq : ¬ q <+: i.path) : t'.get? (T ++ q) = t.get? (T ++ q) := by
  apply hlaid.rest
  rintro q' hq' heq
  rw [List.append_cancel_left heq] at hq
  exact hq hq'

/-- An entry that `tar` laid: the contents stay free of links. -/
theorem Laid.plain {i : Item} {t' : Fs} (hlaid : Laid T i t t') (hi : i.isMarker = false)
    (h : Rooted t target T) (hc : ¬ Clash (view T t) i) : Plain t' T := by
  obtain ⟨hlink, hpath⟩ := entry_node hi
  refine ⟨?_, ?_, ?_⟩
  · simpa using hlaid.above [] List.nil_prefix (Ne.symm hpath)
  · intro q n hs
    by_cases hqn : q ++ [n] <+: i.path
    · refine hlaid.above q ((List.prefix_append q [n]).trans hqn) ?_
      rintro rfl
      have := hqn.length_le
      simp at this
    · rw [hlaid.other hqn] at hs
      have hdir := h.plain.parent q n hs
      by_cases hq : q <+: i.path
      · by_cases heq : q = i.path
        · rw [heq] at hdir ⊢
          rw [hlaid.here, node_of_dir hi hc hdir]
        · exact hlaid.above q hq heq
      · rw [hlaid.other hq, hdir]
  · intro q x hx
    by_cases hq : q <+: i.path
    · by_cases heq : q = i.path
      · rw [heq, hlaid.here, Option.some.injEq] at hx
        rw [← hx, hlink]
      · rw [hlaid.above q hq heq, Option.some.injEq] at hx
        rw [← hx]
        rfl
    · rw [hlaid.other hq] at hx
      exact h.plain.noLinks q x hx

/-- An entry that `tar` laid does what the item does to the merged tree. -/
theorem Laid.view_eq {i : Item} {t' : Fs} (hlaid : Laid T i t t') (hi : i.isMarker = false)
    (h : Rooted t target T) (hc : ¬ Clash (view T t) i) : view T t' = i.act (view T t) := by
  funext q
  unfold Item.act view
  rw [entry_effect hi]
  by_cases heq : q = i.path
  · rw [if_pos heq, heq, hlaid.here]
    rfl
  · rw [if_neg heq]
    by_cases hq : q <+: i.path
    · rw [if_pos hq, hlaid.above q hq heq]
      rfl
    · rw [if_neg hq, hlaid.other hq]
      split
      · -- a file: no directory was at its path, so nothing was below
        rename_i hfile
        have hnd : t.get? (T ++ i.path) ≠ some .dir := by
          intro hd
          have hdir := node_of_dir hi hc hd
          rw [hdir] at hfile
          simp [Node.isDir] at hfile
        exact h.plain.nothing_below hnd ((List.prefix_append_right_inj T).mpr hfile.2)
          fun he => heq (List.append_cancel_left he)
      · rfl

/-- An entry that `tar` laid keeps the root file system in place. -/
theorem Laid.rooted {i : Item} {t' : Fs} (hlaid : Laid T i t t') (hi : i.isMarker = false)
    (h : Rooted t target T) (hc : ¬ Clash (view T t) i) : Rooted t' target T := by
  have hplain := hlaid.plain hi h hc
  refine h.of_plain hplain fun l hl => ?_
  by_cases hT : l = T
  · rw [hT, hplain.root, h.plain.root]
  · apply hlaid.rest
    rintro q - rfl
    exact hT (hl (List.prefix_append T q))

/-! ## Runs -/

/-- A marker applied to the tree of the host. -/
theorem marker_refines (laws : HostLaws H target T) (h : Rooted t target T) {i : Item}
    (hi : i.isMarker = true) :
    ∃ t', applyEntry H target i.tarEntry t = (.ok (), t') ∧ Rooted t' target T ∧
      view T t' = i.act (view T t) := by
  cases i with
  | file parent name content => simp [Item.isMarker] at hi
  | dir parent name => simp [Item.isMarker] at hi
  | whiteout parent name =>
    have hp : (Item.whiteout parent name).path ≠ [] := by simp [Item.path, location]
    refine ⟨removePath t (target ++ (Item.whiteout parent name).path.map .name), ?_,
      removePath_rooted h hp, ?_⟩
    · simp only [applyEntry, Item.tarEntry, classify_whiteout, safeJoin_namesPath]
      rfl
    · funext q
      rw [view, removePath_names h hp]
      simp only [Item.act, Item.effect, List.prefix_append_right_inj, view]
      split_ifs <;> rfl
  | opaqueDir path =>
    obtain ⟨t', hclear, hrooted, hget⟩ := clearDir_names laws h (Item.opaqueDir path).path
    refine ⟨t', ?_, hrooted, ?_⟩
    · simp only [applyEntry, Item.tarEntry, classify_opaque, safeJoin_namesPath]
      exact hclear
    · funext q
      rw [view, hget]
      simp only [Item.act, Item.effect, List.prefix_append_right_inj, view, ne_eq,
        List.append_cancel_left_eq]
      split_ifs <;> rfl

/-- An entry goes to `tar`. -/
theorem applyEntry_entry {i : Item} (hi : i.isMarker = false) (t : Fs) :
    applyEntry H target i.tarEntry t = H.unpackIn target i.tarEntry t := by
  cases i with
  | file parent name content => simp only [applyEntry, Item.tarEntry, classify_plain]
  | dir parent name => simp only [applyEntry, Item.tarEntry, classify_plain]
  | whiteout parent name => simp [Item.isMarker] at hi
  | opaqueDir path => simp [Item.isMarker] at hi

/-- An item that does not clash is applied to the tree of the host as to the merged tree. -/
theorem applyEntry_refines (laws : HostLaws H target T) (h : Rooted t target T) {i : Item}
    (hc : ¬ Clash (view T t) i) :
    ∃ t', applyEntry H target i.tarEntry t = (.ok (), t') ∧ Rooted t' target T ∧
      view T t' = i.act (view T t) := by
  cases hi : i.isMarker with
  | true => exact marker_refines laws h hi
  | false =>
    obtain ⟨t', hstep, hlaid⟩ := laws.lays t i hi h hc
    rw [← applyEntry_entry hi] at hstep
    exact ⟨t', hstep, hlaid.rooted hi h hc, hlaid.view_eq hi h hc⟩

/-- An item that clashes stops the layer. -/
theorem applyEntry_clash (laws : HostLaws H target T) (h : Rooted t target T) {i : Item}
    (hc : Clash (view T t) i) : ∃ e t', applyEntry H target i.tarEntry t = (.error e, t') := by
  rw [applyEntry_entry hc.1]
  exact laws.refuses t i hc.1 h hc

/-- The stream of a layer. -/
def layerStream (items : List Item) : List (Except String (TarEntry EntryBody)) :=
  items.map fun i => .ok i.tarEntry

/-- A layer without clash is applied as `streamLayer`. -/
theorem applyEntries_refines (laws : HostLaws H target T) : ∀ (items : List Item) (t : Fs),
    Rooted t target T → ¬ Clashes (view T t) items →
    ∃ t', applyEntries H target (layerStream items) t = (.ok (), t') ∧ Rooted t' target T ∧
      view T t' = streamLayer (view T t) items
  | [], t, h, _ => ⟨t, rfl, h, rfl⟩
  | i :: items, t, h, hc => by
    obtain ⟨t₁, hstep, h₁, hview₁⟩ := applyEntry_refines laws h fun hi => hc (Or.inl hi)
    have hc₁ : ¬ Clashes (view T t₁) items := by
      rw [hview₁]
      exact fun hrest => hc (Or.inr hrest)
    obtain ⟨t₂, hrun, h₂, hview₂⟩ := applyEntries_refines laws items t₁ h₁ hc₁
    refine ⟨t₂, ?_, h₂, ?_⟩
    · simp only [layerStream, List.map_cons, applyEntries, hstep]
      exact hrun
    · rw [hview₂, hview₁]
      rfl

/-- A layer with a clash fails. -/
theorem applyEntries_clash (laws : HostLaws H target T) : ∀ (items : List Item) (t : Fs),
    Rooted t target T → Clashes (view T t) items →
    ∃ e t', applyEntries H target (layerStream items) t = (.error e, t')
  | [], t, _, hc => hc.elim
  | i :: items, t, h, hc => by
    by_cases hi : Clash (view T t) i
    · obtain ⟨e, t', hstep⟩ := applyEntry_clash laws h hi
      exact ⟨e, t', by simp only [layerStream, List.map_cons, applyEntries, hstep]⟩
    · obtain ⟨t₁, hstep, h₁, hview₁⟩ := applyEntry_refines laws h hi
      have hrest : Clashes (view T t₁) items := by
        rw [hview₁]
        exact hc.resolve_left hi
      obtain ⟨e, t', hrun⟩ := applyEntries_clash laws items t₁ h₁ hrest
      refine ⟨e, t', ?_⟩
      simp only [layerStream, List.map_cons, applyEntries, hstep]
      exact hrun

theorem clashes_append : ∀ (a b : List Item) (t : Tree),
    Clashes t (a ++ b) ↔ Clashes t a ∨ Clashes (streamLayer t a) b
  | [], b, t => by simp [Clashes, streamLayer]
  | i :: a, b, t => by
    rw [List.cons_append, Clashes, Clashes, clashes_append a b, or_assoc]
    rfl

/-- The store holds the layer under its digest. -/
def Serves (H : Host EntryBody) (read : Digest → Except String Bytes) (ld : String)
    (layer : List Item) : Prop :=
  ∃ digest bytes, Digest.parse ld = .ok digest ∧ read digest = .ok bytes ∧
    H.entries (Compression.detect bytes) bytes = .ok (layerStream layer)

/-- `unpack_rootfs` applies the streams of its layers, and fails exactly at a clash. -/
theorem unpackRootfs_refines (laws : HostLaws H target T) {read : Digest → Except String Bytes}
    {lds : List String} {layers : List (List Item)}
    (hserve : List.Forall₂ (Serves H read) lds layers) :
    ∀ t : Fs, Rooted t target T →
      (¬ Clashes (view T t) layers.flatten →
        ∃ t', unpackRootfs H read target lds t = (.ok (), t') ∧
          view T t' = layers.foldl streamLayer (view T t)) ∧
      (Clashes (view T t) layers.flatten →
        ∃ e t', unpackRootfs H read target lds t = (.error e, t')) := by
  induction hserve with
  | nil => exact fun t _ => ⟨fun _ => ⟨t, rfl, rfl⟩, fun hc => hc.elim⟩
  | @cons ld layer lds layers hs _ ih =>
    obtain ⟨digest, bytes, hparse, hread, hentries⟩ := hs
    intro t h
    rw [List.flatten_cons, clashes_append]
    by_cases hc : Clashes (view T t) layer
    · obtain ⟨e, t', hrun⟩ := applyEntries_clash laws layer t h hc
      refine ⟨fun hn => absurd (Or.inl hc) hn, fun _ => ⟨.unpackLayer ld e, t', ?_⟩⟩
      simp only [unpackRootfs, hparse, hread, applyLayer, hentries, hrun]
    · obtain ⟨t₁, hrun, h₁, hview⟩ := applyEntries_refines laws layer t h hc
      have hstep : unpackRootfs H read target (ld :: lds) t =
          unpackRootfs H read target lds t₁ := by
        simp only [unpackRootfs, hparse, hread, applyLayer, hentries, hrun]
      obtain ⟨hok, herr⟩ := ih t₁ h₁
      rw [hstep, ← hview]
      refine ⟨fun hn => ?_, fun hy => herr (hy.resolve_left hc)⟩
      obtain ⟨t', hres, hfinal⟩ := hok fun h' => hn (Or.inr h')
      exact ⟨t', hres, by rw [hfinal, hview]; rfl⟩

/-- Into an empty root file system, `unpack_rootfs` builds the tree of the image specification
    exactly when no entry meets an object of another kind at its turn, and every path that a layer
    loses to one of its own markers is set by a later layer. -/
theorem unpackRootfs_oci_iff (laws : HostLaws H target T) {read : Digest → Except String Bytes}
    {lds : List String} {layers : List (List Item)}
    (hserve : List.Forall₂ (Serves H read) lds layers) (h : Rooted t target T)
    (hempty : ∀ q, q ≠ [] → t.get? (T ++ q) = none) :
    (∃ t', unpackRootfs H read target lds t = (.ok (), t') ∧
        ∀ q, t'.get? (T ++ q) = ociTree layers q) ↔
      ¬ Clashes emptyRoot layers.flatten ∧ ∀ q, Recovered layers q := by
  have hroot : view T t = emptyRoot := by
    funext q
    by_cases hq : q = []
    · subst hq
      simpa [view, emptyRoot] using h.plain.root
    · simp [view, emptyRoot, hq, hempty q hq]
  obtain ⟨hok, herr⟩ := unpackRootfs_refines laws hserve t h
  rw [hroot] at hok herr
  constructor
  · rintro ⟨t', hrun, htree⟩
    have hc : ¬ Clashes emptyRoot layers.flatten := by
      intro hc
      obtain ⟨e, t'', hfail⟩ := herr hc
      rw [hrun] at hfail
      simp at hfail
    refine ⟨hc, fun q => ?_⟩
    obtain ⟨t'', hrun', hview⟩ := hok hc
    obtain rfl : t' = t'' := by
      rw [hrun] at hrun'
      simpa using hrun'
    rw [← streamTree_eq_iff, ← htree q, streamTree, ← hview]
    rfl
  · rintro ⟨hc, hrec⟩
    obtain ⟨t', hrun, hview⟩ := hok hc
    refine ⟨t', hrun, fun q => ?_⟩
    have hq := (streamTree_eq_iff layers q).mpr (hrec q)
    rw [← hq, streamTree, ← hview]
    rfl

end

/-! ## An extractor -/

/-- The names of a path that has only names. -/
def partNames : List (PathPart OsName) → Option (List OsName)
  | [] => some []
  | .name n :: rest => (partNames rest).map (n :: ·)
  | _ :: _ => none

theorem partNames_map : ∀ ns : List OsName, partNames (ns.map .name) = some ns
  | [] => rfl
  | n :: ns => by simp [partNames, partNames_map ns]

/-- `node` at `ns` below `T` meets an object of another kind. -/
def meetsOther (T ns : List OsName) (node : Node OsName Bytes) (t : Fs) : Bool :=
  (ns.inits.any fun q => q ≠ ns ∧ ((t.get? (T ++ q)).any fun x => !x.isDir) = true) ||
    (t.get? (T ++ ns)).any fun x => x.isDir != node.isDir

/-- `node` at `ns` below `T`, with the directories above it. -/
def layNode (T ns : List OsName) (node : Node OsName Bytes) (t : Fs) : Fs :=
  ⟨(T ++ ns, node) :: ((ns.inits.map fun q => (T ++ q, Node.dir)) ++ t.nodes)⟩

/-- `tar` for one layer of files and directories below `T`, and `read_dir`. -/
def tarHost (T : List OsName) (layer : List Item) : Host EntryBody where
  unpackIn _ e t :=
    match partNames e.path.parts with
    | some ns =>
      if meetsOther T ns e.body.node t then (.error "failed to unpack", t)
      else (.ok (), layNode T ns e.body.node t)
    | none => (.ok (), t)
  readDir t l := .ok (t.children l)
  entries _ _ := .ok (layerStream layer)

theorem first?_dirs (T l : List OsName) (es : List (List OsName × Node OsName Bytes)) :
    ∀ qs : List (List OsName), first? l ((qs.map fun q => (T ++ q, Node.dir)) ++ es) =
      if ∃ q ∈ qs, T ++ q = l then some .dir else first? l es
  | [] => by simp
  | q :: qs => by
    rw [List.map_cons, List.cons_append, first?, first?_dirs T l es qs]
    by_cases hq : T ++ q = l
    · rw [if_pos hq, if_pos ⟨q, by simp, hq⟩]
    · rw [if_neg hq]
      simp only [List.exists_mem_cons_iff, hq, false_or]

theorem layNode_get? (T ns : List OsName) (node : Node OsName Bytes) (t : Fs) (l : List OsName) :
    (layNode T ns node t).get? l =
      if T ++ ns = l then some node
      else if ∃ q ∈ ns.inits, T ++ q = l then some .dir
      else t.get? l := by
  rw [get?, layNode, first?, first?_dirs]
  rfl

/-- The check is `Clash`. -/
theorem meetsOther_iff {T : List OsName} {t : Fs} {i : Item} (hi : i.isMarker = false) :
    meetsOther T i.path i.node t = true ↔ Clash (view T t) i := by
  simp only [meetsOther, Clash, hi, Blocked, view, Bool.or_eq_true, List.any_eq_true,
    List.mem_inits, Option.any_eq_true, decide_eq_true_eq, Bool.not_eq_eq_eq_not, Bool.not_true,
    bne_iff_ne, ne_eq, true_and]

theorem entry_parts {i : Item} (hi : i.isMarker = false) :
    partNames i.tarEntry.path.parts = some i.path := by
  cases i with
  | file parent name content =>
    rw [Item.tarEntry, parts_namesPath]
    exact partNames_map _
  | dir parent name =>
    rw [Item.tarEntry, parts_namesPath]
    exact partNames_map _
  | whiteout parent name => simp [Item.isMarker] at hi
  | opaqueDir path => simp [Item.isMarker] at hi

theorem tarHost_laws (T : List OsName) (target : List (PathPart OsName)) (layer : List Item) :
    HostLaws (tarHost T layer) target T where
  lays := by
    intro t i hi _ hc
    have hmeets : ¬ meetsOther T i.path i.node t = true := fun h => hc ((meetsOther_iff hi).mp h)
    refine ⟨layNode T i.path i.node t, ?_, ?_, ?_, ?_⟩
    · simp only [tarHost, entry_parts hi]
      exact if_neg hmeets
    · rw [layNode_get?, if_pos rfl]
    · intro q hq hne
      rw [layNode_get?, if_neg fun he => hne (List.append_cancel_left he).symm,
        if_pos ⟨q, (List.mem_inits q i.path).mpr hq, rfl⟩]
    · intro x hx
      rw [layNode_get?, if_neg fun he => hx _ List.prefix_rfl he.symm, if_neg]
      rintro ⟨q, hq, he⟩
      exact hx q ((List.mem_inits q i.path).mp hq) he.symm
  refuses := by
    intro t i hi _ hc
    refine ⟨"failed to unpack", t, ?_⟩
    simp only [tarHost, entry_parts hi]
    exact if_pos ((meetsOther_iff hi).mpr hc)
  lists := fun t l _ => ⟨t.children l, rfl, fun n => Iff.rfl⟩

theorem hostTree_empty {q : List OsName} (hq : q ≠ []) :
    hostTree.get? (location ["rootfs"] ++ q) = none := by
  simp [hostTree, get?, first?, location, hq]

/-- `/rootfs` of the host is empty and free of links. -/
theorem hostTree_rooted : Rooted hostTree rootfsPath (location ["rootfs"]) where
  plain :=
    { root := by decide
      parent := fun q n hs => by simp [hostTree_empty] at hs
      noLinks := fun q x hx => by
        by_cases hq : q = []
        · subst hq
          have hroot : hostTree.get? (location ["rootfs"] ++ []) = some .dir := by decide
          rw [hroot, Option.some.injEq] at hx
          rw [← hx]
          rfl
        · simp [hostTree_empty hq] at hx }
  anchored := by
    intro t' hout
    have hslash : t'.get? [] = some .dir := by
      rw [hout [] fun h => absurd h (by decide)]
      decide
    have hroot : t'.get? (location ["rootfs"]) = some .dir := by
      rw [hout _ fun _ => rfl]
      decide
    simp only [location, List.map_cons, List.map_nil] at hroot
    simp [resolve, walk, walkParts, rootfsPath, isDirAt, hslash, hroot, Node.isDir, location]

/-- The file name `a`. -/
def nameA : PlainName := ⟨"a", by decide⟩

/-- A layer that clears the root and puts a file there. -/
def clearThenFile : List Item := [.opaqueDir [], .file [] nameA []]

/-- The same with the marker behind the file. -/
def fileThenClear : List Item := [.file [] nameA [], .opaqueDir []]

theorem serves_layer (layer : List Item) :
    List.Forall₂ (Serves (tarHost (location ["rootfs"]) layer) fun _ => .ok [])
      [layerDigest.toString] [layer] :=
  .cons ⟨layerDigest, [], Digest.parse_toString _, rfl, rfl⟩ .nil

/-- With the marker in front, the file is there. -/
theorem clearThenFile_oci : ∃ t',
    unpackRootfs (tarHost (location ["rootfs"]) clearThenFile) (fun _ => .ok []) rootfsPath
      [layerDigest.toString] hostTree = (.ok (), t') ∧
    ∀ q, t'.get? (location ["rootfs"] ++ q) = ociTree [clearThenFile] q := by
  apply (unpackRootfs_oci_iff (tarHost_laws _ _ _) (serves_layer _) hostTree_rooted
    fun q hq => hostTree_empty hq).mpr
  constructor
  · have habsent : Item.act emptyRoot (.opaqueDir []) (location ["a"]) = none := by decide
    have hroot : Item.act emptyRoot (.opaqueDir []) [] = some .dir := by decide
    rintro (⟨hmark, -⟩ | ⟨-, ⟨q, hq, hne, x, hx, hdir⟩ | ⟨x, hx, -⟩⟩ | hnil)
    · simp [Item.isMarker] at hmark
    · -- above the file there is only the root
      obtain rfl : q = [] := by
        have hmem := (List.mem_inits q (location ["a"])).mpr hq
        simp only [location, List.map_cons, List.map_nil, List.inits, List.mem_cons,
          List.not_mem_nil, or_false] at hmem
        exact hmem.resolve_right hne
      rw [hroot, Option.some.injEq] at hx
      rw [← hx] at hdir
      simp [Node.isDir] at hdir
    · rw [show Item.path (.file [] nameA []) = location ["a"] from rfl, habsent] at hx
      simp at hx
    · exact hnil
  · intro q pre layer post heq hlost
    obtain ⟨rfl, rfl, rfl⟩ : pre = [] ∧ layer = clearThenFile ∧ post = [] := by
      cases pre <;> simp_all
    -- the only entry stands behind the marker
    obtain ⟨pre, e, post, heq, he, -, -, m, hm, -⟩ := hlost
    have hlen := congrArg List.length heq
    rcases pre with _ | ⟨x, _ | ⟨y, pre⟩⟩
    · obtain ⟨rfl, -⟩ := List.cons.inj heq
      simp [Item.isMarker] at he
    · obtain ⟨-, rfl⟩ := List.cons.inj (List.cons.inj heq).2
      simp at hm
    · simp only [clearThenFile, List.length_append, List.length_cons, List.length_nil] at hlen
      omega

/-- With the marker behind it, the file is lost. -/
theorem fileThenClear_loses :
    HostLaws (tarHost (location ["rootfs"]) fileThenClear) rootfsPath (location ["rootfs"]) ∧
    Rooted hostTree rootfsPath (location ["rootfs"]) ∧
    List.Forall₂ (Serves (tarHost (location ["rootfs"]) fileThenClear) fun _ => .ok [])
      [layerDigest.toString] [fileThenClear] ∧
    ¬ ∃ t', unpackRootfs (tarHost (location ["rootfs"]) fileThenClear) (fun _ => .ok []) rootfsPath
        [layerDigest.toString] hostTree = (.ok (), t') ∧
      ∀ q, t'.get? (location ["rootfs"] ++ q) = ociTree [fileThenClear] q := by
  refine ⟨tarHost_laws _ _ _, hostTree_rooted, serves_layer _, ?_⟩
  rintro ⟨t', hrun, htree⟩
  have hoci : ociTree [fileThenClear] (location ["a"]) = some (.file []) := by decide
  have hlost : (unpackRootfs (tarHost (location ["rootfs"]) fileThenClear) (fun _ => .ok [])
      rootfsPath [layerDigest.toString] hostTree).2.get?
      (location ["rootfs"] ++ location ["a"]) = none := by
    simp only [unpackRootfs, Digest.parse_toString]
    decide
  rw [hrun] at hlost
  rw [htree, hoci] at hlost
  simp at hlost

end ContainerdRs.Snapshots

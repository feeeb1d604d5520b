import ContainerdRs.Snapshots.MergeRefinement

/-!
# What one whiteout touches (`classify`, `safe_join`, `remove_path`)

A marker `<dir>/.wh.<name>` deletes what `<dir>` joined with `<name>` leads to.  `Path::join` takes
any text: joined with nothing a path gets a trailing slash, joined with `.` it leads to the same
place, and `safe_join` refuses only `..`.

* `classify_marker`, `applyEntry_marker` — what becomes of a marker.
* `Framed` — the entry touches the subtree at `<dir>/<name>` alone.
* `Harmless` — `<dir>` itself is not deleted under the name of one of its entries.
* `whiteout_frame_iff` — when a marker is framed.
* `empty_whiteout_deletes_target` — the marker `.wh.` at the root of a layer.
-/

set_option autoImplicit false

namespace ContainerdRs.Snapshots

open FileTree

variable {β : Type}

/-- The path `<dir>/.wh.<name>`. -/
structure MarkerPath (path : PathBuf) (dir : List OsName) (name : String) : Prop where
  relative : path.absolute = false
  components : path.components =
    dir.map .normal ++ [.normal (.utf8 (whiteoutPrefix ++ name))]
  marker : whiteoutPrefix ++ name ≠ opaqueMarker

/-- `parent.join(name)`. -/
def victimRel (dir : List OsName) (name : String) : PathBuf :=
  ⟨false, dir.map .name ++ [partOfText name]⟩

theorem ofComponents_normal (dir : List OsName) :
    PathBuf.ofComponents (dir.map .normal) = ⟨false, dir.map .name⟩ := by
  cases dir with
  | nil => rfl
  | cons n dir => simp [PathBuf.ofComponents, Component.toPart]

theorem classify_marker {path : PathBuf} {dir : List OsName} {name : String}
    (h : MarkerPath path dir name) : classify path = .remove (victimRel dir name) := by
  have hname : path.fileName = some (.utf8 (whiteoutPrefix ++ name)) := by
    simp [PathBuf.fileName, h.components]
  have hparent : path.parent = ⟨false, dir.map .name⟩ := by
    rw [PathBuf.parent, h.components, List.dropLast_concat, ofComponents_normal]
  rw [classify, hname, hparent]
  simp only [Option.bind_some, OsName.toStr, if_neg h.marker, stripWhiteout_append]
  rfl

/-- `safe_join` refuses `..` only. -/
theorem safeJoin_victim (target : List (PathPart OsName)) (dir : List OsName) (name : String) :
    safeJoin target (victimRel dir name) =
      if partOfText name = .dotdot then none
      else some (target ++ (dir.map .name ++ [partOfText name])) := by
  have hsafe : (victimRel dir name).components.all Component.isSafe = true ↔
      partOfText name ≠ .dotdot := by
    cases dir with
    | nil =>
      unfold victimRel PathBuf.components
      cases partOfText name <;> simp [Component.ofPart, Component.isSafe]
    | cons n dir =>
      unfold victimRel PathBuf.components
      cases partOfText name <;> simp [Component.ofPart, Component.isSafe, List.filterMap_map]
  unfold safeJoin
  by_cases h : partOfText name = .dotdot
  · rw [if_neg (by rw [hsafe]; exact not_not.2 h), if_pos h]
  · rw [if_pos (hsafe.2 h), if_neg h]
    rfl

/-- What becomes of a marker. -/
theorem applyEntry_marker (H : Host β) (target : List (PathPart OsName)) {e : TarEntry β}
    {dir : List OsName} {name : String} (h : MarkerPath e.path dir name) (t : Fs) :
    applyEntry H target e t = (.ok (),
      if partOfText name = .dotdot then t
      else removePath t (target ++ (dir.map .name ++ [partOfText name]))) := by
  rw [applyEntry, classify_marker h]
  dsimp only
  rw [safeJoin_victim]
  by_cases hdotdot : partOfText name = .dotdot
  · rw [if_pos hdotdot, if_pos hdotdot]
  · rw [if_neg hdotdot, if_neg hdotdot]

/-- Every location outside of the subtree at `<dir>/<name>` is as it was; where `<name>` names no
    entry of `<dir>`, every location is. -/
def Framed (T dir : List OsName) (name : String) (t t' : Fs) : Prop :=
  ∀ l, (∀ n, partOfText name = .name n → ¬ T ++ (dir ++ [n]) <+: l) → t'.get? l = t.get? l

/-- An empty name or `.` meets no directory, or an empty one that `rmdir` does not remove. -/
structure Harmless (target : List (PathPart OsName)) (T dir : List OsName) (name : String)
    (t : Fs) : Prop where
  empty : name = "" → t.get? (T ++ dir) = some .dir →
    Bare t (T ++ dir) ∧ t.rmdirPlace (target ++ dir.map .name) ≠ some (T ++ dir)
  dot : name = "." → t.get? (T ++ dir) = some .dir → Bare t (T ++ dir)

section removal

variable {target : List (PathPart OsName)} {T dir : List OsName} {t : Fs}

/-- Without a directory there, nothing is deleted. -/
theorem removePath_stays_absent (h : Rooted t target T) {part : PathPart OsName}
    (hpart : part.Stays) (hd : t.get? (T ++ dir) ≠ some .dir) :
    removePath t (target ++ (dir.map .name ++ [part])) = t := by
  have hdir : ¬ t.isDirAt (T ++ dir) = true := fun h' => hd (isDirAt_iff.1 h')
  unfold removePath FileTree.isDir removeFile
  rw [h.resolve_stays true hpart, h.resolve_stays false hpart, if_neg hdir]
  rfl

/-- Where there is one, `remove_dir_all` gets it. -/
theorem removePath_stays_dir (h : Rooted t target T) {part : PathPart OsName}
    (hpart : part.Stays) (hd : t.get? (T ++ dir) = some .dir) :
    removePath t (target ++ (dir.map .name ++ [part])) =
      t.removeDirAll (target ++ (dir.map .name ++ [part])) := by
  have hdir : t.isDirAt (T ++ dir) = true := isDirAt_iff.2 hd
  unfold removePath FileTree.isDir
  rw [h.resolve_stays true hpart, if_pos hdir]
  simp only [hdir, if_true]

/-- A path that leads to the directory itself leaves everything exactly if there is no directory,
    or an empty one that `rmdir` refuses. -/
theorem removePath_stays_iff (h : Rooted t target T) {part : PathPart OsName}
    (hpart : part.Stays) :
    (∀ l, (removePath t (target ++ (dir.map .name ++ [part]))).get? l = t.get? l) ↔
      (t.get? (T ++ dir) = some .dir → Bare t (T ++ dir) ∧
        t.rmdirPlace (target ++ (dir.map .name ++ [part])) ≠ some (T ++ dir)) := by
  by_cases hd : t.get? (T ++ dir) = some .dir
  · rw [removePath_stays_dir h hpart hd]
    constructor
    · intro hsame _
      have hbare : Bare t (T ++ dir) := by
        intro l hl hne
        rw [← hsame l, h.removeDirAll_below hpart hd hl hne]
      refine ⟨hbare, ?_⟩
      intro hrmdir
      have hgone := hsame (T ++ dir)
      rw [h.removeDirAll_bare hpart hd hbare, if_pos hrmdir, get?_prune, hd,
        if_pos (by simp)] at hgone
      cases hgone
    · intro hsafe l
      obtain ⟨hbare, hrmdir⟩ := hsafe hd
      rw [h.removeDirAll_bare hpart hd hbare, if_neg hrmdir]
  · rw [removePath_stays_absent h hpart hd]
    exact iff_of_true (fun _ => rfl) (fun h' => absurd h' hd)

end removal

theorem partOfText_ne {name : String} (hempty : name ≠ "") (hdot : name ≠ ".")
    (hdotdot : name ≠ "..") : partOfText name = .name (.utf8 name) := by
  unfold partOfText
  rw [if_neg hempty, if_neg hdot, if_neg hdotdot]

theorem framed_iff_same {T dir : List OsName} {name : String} {t t' : Fs}
    (h : ∀ n, partOfText name ≠ .name n) :
    Framed T dir name t t' ↔ ∀ l, t'.get? l = t.get? l :=
  ⟨fun hf l => hf l fun n hn => absurd hn (h n), fun hs l _ => hs l⟩

/-- **A whiteout touches nothing but what it names**, in any target without links, exactly if its
    name is neither empty nor `.`, or the directory of the marker is none, or an empty one that
    `rmdir` does not remove. -/
theorem whiteout_frame_iff (H : Host β) (target : List (PathPart OsName)) (T : List OsName)
    (t : Fs) (h : Rooted t target T) (e : TarEntry β) (dir : List OsName) (name : String)
    (hpath : MarkerPath e.path dir name) :
    Framed T dir name t (applyEntry H target e t).2 ↔ Harmless target T dir name t := by
  rw [applyEntry_marker H target hpath]
  by_cases hempty : name = ""
  · subst hempty
    rw [framed_iff_same (by intro n hn; cases hn), if_neg (by decide)]
    refine (removePath_stays_iff h .empty).trans ?_
    rw [← List.append_assoc, rmdirPlace_slash]
    exact ⟨fun hsafe => ⟨fun _ => hsafe, fun hdot => absurd hdot (by decide)⟩,
      fun hsafe => hsafe.empty rfl⟩
  by_cases hdot : name = "."
  · subst hdot
    rw [framed_iff_same (by intro n hn; cases hn), if_neg (by decide)]
    refine (removePath_stays_iff h .dot).trans ?_
    rw [← List.append_assoc, rmdirPlace_dot]
    constructor
    · intro hsafe
      exact ⟨fun hno => absurd hno (by decide), fun _ hd => (hsafe hd).1⟩
    · intro hsafe hd
      exact ⟨hsafe.dot rfl hd, by simp⟩
  have hharmless : Harmless target T dir name t :=
    ⟨fun h' => absurd h' hempty, fun h' => absurd h' hdot⟩
  refine iff_of_true ?_ hharmless
  by_cases hdotdot : name = ".."
  · subst hdotdot
    rw [if_pos (by decide)]
    intro l _
    rfl
  · rw [partOfText_ne hempty hdot hdotdot, if_neg (by intro h'; cases h')]
    intro l hl
    have hout := hl _ (partOfText_ne hempty hdot hdotdot)
    have hpathNames : dir.map PathPart.name ++ [PathPart.name (OsName.utf8 name)] =
        (dir ++ [OsName.utf8 name]).map .name := by
      rw [List.map_append, List.map_singleton]
    show (removePath t _).get? l = _
    rw [hpathNames, removePath_names h (by simp), if_neg hout]

/-! ## Markers at the root of a layer -/

/-- The marker `.wh.<name>`. -/
def rootMarker (name : String) : TarEntry EntryBody :=
  ⟨namesPath [whiteoutPrefix ++ name], .file []⟩

theorem rootMarker_path {name : String} (h : whiteoutPrefix ++ name ≠ opaqueMarker) :
    MarkerPath (rootMarker name).path [] name :=
  ⟨rfl, components_namesPath _, h⟩

/-- A marker with an ordinary name, in the `/rootfs` of a host. -/
theorem ordinary_whiteout_framed :
    Framed (location ["rootfs"]) [] "a" hostTree
      (applyEntry (layerHost []) rootfsPath (rootMarker "a") hostTree).2 := by
  refine (whiteout_frame_iff _ _ _ _ hostTree_rooted _ [] "a" (rootMarker_path (by decide))).2 ?_
  exact ⟨fun h => absurd h (by decide), fun h => absurd h (by decide)⟩

/-- The marker with an empty name deletes `/rootfs`. -/
theorem empty_whiteout_deletes_target :
    ¬ ∀ (H : Host EntryBody) (target : List (PathPart OsName)) (T : List OsName) (t : Fs),
      Rooted t target T → ∀ (e : TarEntry EntryBody) (dir : List OsName) (name : String),
        MarkerPath e.path dir name → Framed T dir name t (applyEntry H target e t).2 := by
  intro h
  have hframed := h (layerHost []) rootfsPath (location ["rootfs"]) hostTree hostTree_rooted
    (rootMarker "") [] "" (rootMarker_path (by decide))
  have hsame := hframed (location ["rootfs"]) (by intro n hn; cases hn)
  have hgone : (applyEntry (layerHost []) rootfsPath (rootMarker "") hostTree).2.get?
      (location ["rootfs"]) = none := by decide
  have hthere : hostTree.get? (location ["rootfs"]) = some .dir := by decide
  rw [hgone, hthere] at hsame
  cases hsame

end ContainerdRs.Snapshots

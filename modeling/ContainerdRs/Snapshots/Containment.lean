import ContainerdRs.Snapshots.Diff

/-!
# What whiteouts delete

`safe_join` keeps a marker's path below the target as text.  The deletion resolves that path in
the tree, and a link that an earlier entry put there leads out of the target again.

* `removePath_under`, `removeChildren_under` — a deletion stays below the place its path leads to.
* `applyEntry_outside` — one entry, when its marker leads to a place in the target.
* `unpack_deletes_inside` — whole runs: when every marker does so at its turn, all that markers
  delete lies in the target, and what lies outside is as before.
* `link_then_whiteout_escapes` — a layer with a link to `/etc` and a whiteout behind it.
-/

set_option autoImplicit false

namespace ContainerdRs.Snapshots

open FileTree

variable {β : Type}

/-! ## Traces -/

/-- An entry that was handled, and the trees before and after. -/
structure Handled (β : Type) where
  before : Fs
  entry : TarEntry β
  after : Fs

/-- The entries that `applyEntries` handles, up to the first error. -/
def entriesTrace (H : Host β) (target : List (PathPart OsName)) :
    List (Except String (TarEntry β)) → Fs → List (Handled β)
  | [], _ => []
  | .error _ :: _, _ => []
  | .ok e :: es, t =>
    match applyEntry H target e t with
    | (.error _, t') => [⟨t, e, t'⟩]
    | (.ok _, t') => ⟨t, e, t'⟩ :: entriesTrace H target es t'

/-- The entries that `applyLayer` handles. -/
def layerTrace (H : Host β) (target : List (PathPart OsName)) (blob : Bytes)
    (compression : Compression) (t : Fs) : List (Handled β) :=
  match H.entries compression blob with
  | .error _ => []
  | .ok es => entriesTrace H target es t

/-- The entries that `unpackRootfs` handles. -/
def rootfsTrace (H : Host β) (read : Digest → Except String Bytes)
    (rootfs : List (PathPart OsName)) : List String → Fs → List (Handled β)
  | [], _ => []
  | ld :: lds, t =>
    match Digest.parse ld with
    | .error _ => []
    | .ok digest =>
      match read digest with
      | .error _ => []
      | .ok bytes =>
        layerTrace H rootfs bytes (Compression.detect bytes) t ++
          match applyLayer H rootfs bytes (Compression.detect bytes) t with
          | (.error _, _) => []
          | (.ok _, t') => rootfsTrace H read rootfs lds t'

/-! ## Deletions -/

/-- The location lies in the tree that `target` leads to in `t₀`. -/
def InTarget (t₀ : Fs) (target : List (PathPart OsName)) (l : List OsName) : Prop :=
  ∃ T, t₀.resolve true target = some T ∧ T <+: l

theorem InTarget.mono {t₀ : Fs} {target : List (PathPart OsName)} {l x : List OsName}
    (h : InTarget t₀ target l) (hx : l <+: x) : InTarget t₀ target x := by
  obtain ⟨T, hT, hl⟩ := h
  exact ⟨T, hT, hl.trans hx⟩

/-- The place whose contents a marker deletes lies in the target: for a whiteout the place its
    path leads to, without following a link at its end; for an opaque marker the directory. -/
def Contained (t₀ : Fs) (target : List (PathPart OsName)) (t : Fs) (e : TarEntry β) : Prop :=
  match classify e.path with
  | .none => True
  | .remove rel => ∀ victim l, safeJoin target rel = some victim →
      t.resolve false victim = some l → InTarget t₀ target l
  | .opaqueDir rel => ∀ dir l, safeJoin target rel = some dir →
      t.resolve true dir = some l → InTarget t₀ target l

/-- `tar` changes nothing outside the target. -/
def UnpacksInside (H : Host β) (t₀ : Fs) (target : List (PathPart OsName)) : Prop :=
  ∀ e t x, ¬ InTarget t₀ target x → (H.unpackIn target e t).2.get? x = t.get? x

/-- `remove_path` removes at most what lies at and below the place its path leads to. -/
theorem removePath_under (t : Fs) (p : List (PathPart OsName)) :
    removePath t p = t ∨
      ∃ l, t.resolve false p = some l ∧ RemovesUnder t (removePath t p) l := by
  unfold removePath
  split
  · exact removeDirAll_get? t p
  · exact removeFile_get? t p

theorem removePath_sub (t : Fs) (p : List (PathPart OsName)) : Sub (removePath t p) t := by
  intro l x hx
  rcases removePath_under t p with h | ⟨l', -, h⟩
  · rwa [h] at hx
  · rcases h l with h | ⟨h, -⟩
    · rwa [h] at hx
    · simp [h] at hx

/-- Deleting children one after another, each path resolved anew, stays below the directory.

    Only nodes go away, so a child's path leads where it led at first, or nowhere. -/
theorem removeChildren_under {dir : List (PathPart OsName)} {t₀ : Fs} {d : List OsName}
    (hd : t₀.resolve true dir = some d) : ∀ (names : List OsName) (t : Fs), Sub t t₀ →
      RemovesUnder t (removeChildren dir t names) d
  | [], t, _ => fun x => Or.inl rfl
  | n :: names, t, hsub => by
    have hone : RemovesUnder t (removePath t (dir ++ [.name n])) d := by
      rcases removePath_under t (dir ++ [.name n]) with h | ⟨l, hl, h⟩
      · rw [h]
        exact fun x => Or.inl rfl
      · obtain ⟨d', hd', rfl⟩ := resolve_snoc hl
        obtain rfl : d' = d := Option.some.inj ((resolve_sub hsub hd').symm.trans hd)
        intro x
        exact (h x).imp_right fun hx => ⟨hx.1, (List.prefix_append d' [n]).trans hx.2⟩
    exact hone.trans (removeChildren_under hd names _ ((removePath_sub t _).trans hsub))

/-- What a deletion below a place in the target leaves alone. -/
theorem get?_outside {t₀ t t' : Fs} {target : List (PathPart OsName)} {l : List OsName}
    (h : RemovesUnder t t' l) (hl : InTarget t₀ target l) {x : List OsName}
    (hx : ¬ InTarget t₀ target x) : t'.get? x = t.get? x := by
  rcases h x with h | ⟨-, hlx⟩
  · exact h
  · exact absurd (hl.mono hlx) hx

/-- An opaque marker on a directory in the target. -/
theorem clearDir_outside {H : Host β} {t₀ t : Fs} {target dir : List (PathPart OsName)}
    (h : ∀ l, t.resolve true dir = some l → InTarget t₀ target l) {x : List OsName}
    (hx : ¬ InTarget t₀ target x) : (clearDir H dir t).2.get? x = t.get? x := by
  unfold clearDir
  split
  · rfl
  · rename_i l hl
    split
    · split
      · rfl
      · exact get?_outside (removeChildren_under hl _ t (Sub.refl t)) (h l hl) hx
    · rfl

/-- A marker that leads to a place in the target leaves everything outside alone. -/
theorem marker_outside {H : Host β} {t₀ t : Fs} {target : List (PathPart OsName)} {e : TarEntry β}
    (hm : classify e.path ≠ .none) (hc : Contained t₀ target t e) {x : List OsName}
    (hx : ¬ InTarget t₀ target x) : (applyEntry H target e t).2.get? x = t.get? x := by
  unfold Contained at hc
  unfold applyEntry
  split
  · rename_i hnone
    exact absurd hnone hm
  · rename_i rel hrel
    simp only [hrel] at hc
    split
    · rename_i victim hv
      rcases removePath_under t victim with h | ⟨l, hl, h⟩
      · simp only [h]
      · exact get?_outside h (hc victim l hv hl) hx
    · rfl
  · rename_i rel hrel
    simp only [hrel] at hc
    split
    · rename_i dir hdir
      exact clearDir_outside (fun l hl => hc dir l hdir hl) hx
    · rfl

/-- One entry leaves everything outside the target alone. -/
theorem applyEntry_outside {H : Host β} {t₀ t : Fs} {target : List (PathPart OsName)}
    {e : TarEntry β} (hu : UnpacksInside H t₀ target) (hc : Contained t₀ target t e)
    {x : List OsName} (hx : ¬ InTarget t₀ target x) :
    (applyEntry H target e t).2.get? x = t.get? x := by
  by_cases hm : classify e.path = .none
  · unfold applyEntry
    simp only [hm]
    exact hu e t x hx
  · exact marker_outside hm hc hx

/-! ## Whole runs -/

/-- The steps of a layer are steps of `applyEntry`. -/
theorem entriesTrace_step (H : Host β) (target : List (PathPart OsName)) :
    ∀ (es : List (Except String (TarEntry β))) (t : Fs), ∀ s ∈ entriesTrace H target es t,
      s.after = (applyEntry H target s.entry s.before).2
  | [], t, s, hs => by simp [entriesTrace] at hs
  | .error x :: es, t, s, hs => by simp [entriesTrace] at hs
  | .ok e :: es, t, s, hs => by
    rw [entriesTrace] at hs
    split at hs
    · rename_i x t' hstep
      obtain rfl : s = ⟨t, e, t'⟩ := by simpa using hs
      simp [hstep]
    · rename_i u t' hstep
      rcases List.mem_cons.mp hs with rfl | hs
      · simp [hstep]
      · exact entriesTrace_step H target es t' s hs

theorem rootfsTrace_step (H : Host β) (read : Digest → Except String Bytes)
    (rootfs : List (PathPart OsName)) : ∀ (lds : List String) (t : Fs),
      ∀ s ∈ rootfsTrace H read rootfs lds t, s.after = (applyEntry H rootfs s.entry s.before).2
  | [], t, s, hs => by simp [rootfsTrace] at hs
  | ld :: lds, t, s, hs => by
    rw [rootfsTrace] at hs
    split at hs
    · simp at hs
    · split at hs
      · simp at hs
      · rename_i bytes hread
        rcases List.mem_append.mp hs with hs | hs
        · unfold layerTrace at hs
          split at hs
          · simp at hs
          · exact entriesTrace_step H rootfs _ t s hs
        · split at hs
          · simp at hs
          · exact rootfsTrace_step H read rootfs lds _ s hs

/-- A layer whose markers are contained leaves everything outside the target alone. -/
theorem applyEntries_outside {H : Host β} {t₀ : Fs} {target : List (PathPart OsName)}
    (hu : UnpacksInside H t₀ target) {x : List OsName} (hx : ¬ InTarget t₀ target x) :
    ∀ (es : List (Except String (TarEntry β))) (t : Fs),
      (∀ s ∈ entriesTrace H target es t, Contained t₀ target s.before s.entry) →
      (applyEntries H target es t).2.get? x = t.get? x
  | [], t, _ => rfl
  | .error y :: es, t, _ => rfl
  | .ok e :: es, t, hc => by
    rw [entriesTrace] at hc
    rw [applyEntries]
    cases hstep : applyEntry H target e t with
    | mk r t' =>
      have hone : Contained t₀ target t e → t'.get? x = t.get? x := by
        intro h
        rw [← applyEntry_outside hu h hx, hstep]
      cases r with
      | error y =>
        simp only [hstep] at hc ⊢
        exact hone (hc ⟨t, e, t'⟩ (by simp))
      | ok u =>
        simp only [hstep] at hc ⊢
        rw [applyEntries_outside hu hx es t' fun s hs => hc s (by simp [hs])]
        exact hone (hc ⟨t, e, t'⟩ (by simp))

theorem applyLayer_outside {H : Host β} {t₀ : Fs} {target : List (PathPart OsName)}
    (hu : UnpacksInside H t₀ target) {x : List OsName} (hx : ¬ InTarget t₀ target x) (blob : Bytes)
    (compression : Compression) (t : Fs)
    (hc : ∀ s ∈ layerTrace H target blob compression t, Contained t₀ target s.before s.entry) :
    (applyLayer H target blob compression t).2.get? x = t.get? x := by
  unfold applyLayer
  unfold layerTrace at hc
  split
  · rfl
  · rename_i es hes
    simp only [hes] at hc
    exact applyEntries_outside hu hx es t hc

theorem unpackRootfs_outside {H : Host β} {read : Digest → Except String Bytes} {t₀ : Fs}
    {rootfs : List (PathPart OsName)} (hu : UnpacksInside H t₀ rootfs) {x : List OsName}
    (hx : ¬ InTarget t₀ rootfs x) : ∀ (lds : List String) (t : Fs),
      (∀ s ∈ rootfsTrace H read rootfs lds t, Contained t₀ rootfs s.before s.entry) →
      (unpackRootfs H read rootfs lds t).2.get? x = t.get? x
  | [], t, _ => rfl
  | ld :: lds, t, hc => by
    rw [rootfsTrace] at hc
    rw [unpackRootfs]
    split
    · rfl
    · rename_i digest hd
      simp only [hd] at hc
      split
      · rfl
      · rename_i bytes hread
        simp only [hread] at hc
        have hlayer := applyLayer_outside hu hx bytes (Compression.detect bytes) t
          fun s hs => hc s (List.mem_append_left _ hs)
        split
        · rename_i e t' happly
          rw [happly] at hlayer
          exact hlayer
        · rename_i u t' happly
          rw [happly] at hlayer hc
          rw [unpackRootfs_outside hu hx lds t' fun s hs => hc s (List.mem_append_right _ hs)]
          exact hlayer

/-- In every run in which each marker, at its turn, leads to a place in the target, everything a
    marker deletes lies in the target, and nothing outside the target is removed or changed. -/
theorem unpack_deletes_inside (H : Host β) (read : Digest → Except String Bytes)
    (rootfs : List (PathPart OsName)) (lds : List String) (t : Fs)
    (hu : UnpacksInside H t rootfs)
    (hc : ∀ s ∈ rootfsTrace H read rootfs lds t, Contained t rootfs s.before s.entry) :
    (∀ s ∈ rootfsTrace H read rootfs lds t, classify s.entry.path ≠ .none →
      ∀ x, (s.before.get? x).isSome = true → s.after.get? x = none → InTarget t rootfs x) ∧
    (∀ x, ¬ InTarget t rootfs x → (unpackRootfs H read rootfs lds t).2.get? x = t.get? x) := by
  constructor
  · intro s hs hm x hbefore hafter
    by_contra hx
    rw [rootfsTrace_step H read rootfs lds t s hs, marker_outside hm (hc s hs) hx] at hafter
    simp [hafter] at hbefore
  · exact fun x hx => unpackRootfs_outside hu hx lds t hc

/-! ## A host -/

/-- Header and data of a file, a directory or a link. -/
inductive EntryBody where
  | file (content : Bytes)
  | dir
  | symlink (absolute : Bool) (target : List (PathPart OsName))

/-- The object an entry stands for. -/
def EntryBody.node : EntryBody → Node OsName Bytes
  | .file content => .file content
  | .dir => .dir
  | .symlink absolute target => .symlink absolute target

/-- The name in a path of one name. -/
def PathBuf.onlyName : PathBuf → Option OsName
  | ⟨false, [.name n]⟩ => some n
  | _ => none

/-- A path of names. -/
def namesPath (names : List String) : PathBuf := ⟨false, names.map fun s => .name (.utf8 s)⟩

/-- A location. -/
def location (names : List String) : List OsName := names.map .utf8

/-- `/rootfs`. -/
def rootfsPath : List (PathPart OsName) := [.name (.utf8 "rootfs")]

/-- A host with `/etc/passwd` and an empty `/rootfs`. -/
def hostTree : Fs :=
  ⟨[([], .dir), (location ["etc"], .dir), (location ["etc", "passwd"], .file [120]),
    (location ["rootfs"], .dir)]⟩

/-- A layer of the given entries, the ones with a single name unpacked into `/rootfs`. -/
def layerHost (es : List (TarEntry EntryBody)) : Host EntryBody where
  unpackIn _ e t :=
    match e.path.onlyName with
    | some n => (.ok (), t.put (location ["rootfs"] ++ [n]) e.body.node)
    | none => (.ok (), t)
  readDir t l := .ok (t.children l)
  entries _ _ := .ok (es.map .ok)

/-- The digest of the layer. -/
def layerDigest : Digest :=
  ⟨"0000000000000000000000000000000000000000000000000000000000000000", by decide, by decide⟩

theorem hostTree_rootfs : hostTree.resolve true rootfsPath = some (location ["rootfs"]) := by
  decide

theorem layerHost_unpacksInside (es : List (TarEntry EntryBody)) :
    UnpacksInside (layerHost es) hostTree rootfsPath := by
  intro e t x hx
  simp only [layerHost]
  split
  · rename_i n _
    rw [get?_put, if_neg]
    rintro rfl
    exact hx ⟨_, hostTree_rootfs, List.prefix_append ..⟩
  · rfl

/-- A file and, behind it, its whiteout. -/
def fileThenWhiteout : List (TarEntry EntryBody) :=
  [⟨namesPath ["a"], .file []⟩, ⟨namesPath [".wh.a"], .file []⟩]

/-- The file goes, and nothing outside `/rootfs` does. -/
theorem fileThenWhiteout_inside :
    (∀ s ∈ rootfsTrace (layerHost fileThenWhiteout) (fun _ => .ok []) rootfsPath
        [layerDigest.toString] hostTree, classify s.entry.path ≠ .none →
      ∀ x, (s.before.get? x).isSome = true → s.after.get? x = none →
        InTarget hostTree rootfsPath x) ∧
    ∀ x, ¬ InTarget hostTree rootfsPath x →
      (unpackRootfs (layerHost fileThenWhiteout) (fun _ => .ok []) rootfsPath
        [layerDigest.toString] hostTree).2.get? x = hostTree.get? x := by
  refine unpack_deletes_inside _ _ _ _ _ (layerHost_unpacksInside _) ?_
  have htrace : rootfsTrace (layerHost fileThenWhiteout) (fun _ => .ok []) rootfsPath
      [layerDigest.toString] hostTree =
      [⟨hostTree, ⟨namesPath ["a"], .file []⟩, hostTree.put (location ["rootfs", "a"]) (.file [])⟩,
        ⟨hostTree.put (location ["rootfs", "a"]) (.file []), ⟨namesPath [".wh.a"], .file []⟩,
          hostTree⟩] := by
    simp only [rootfsTrace, Digest.parse_toString]
    rfl
  have hfile : classify (namesPath ["a"]) = .none := by decide
  have hmark : classify (namesPath [".wh.a"]) = .remove (namesPath ["a"]) := by decide
  have hjoin : safeJoin rootfsPath (namesPath ["a"]) =
      some [.name (.utf8 "rootfs"), .name (.utf8 "a")] := by decide
  have hplace : (hostTree.put (location ["rootfs", "a"]) (.file [])).resolve false
      [.name (.utf8 "rootfs"), .name (.utf8 "a")] = some (location ["rootfs", "a"]) := by decide
  rw [htrace]
  intro s hs
  rcases List.mem_cons.mp hs with rfl | hs
  · simp [Contained, hfile]
  · obtain rfl := List.mem_singleton.mp hs
    simp only [Contained, hmark]
    intro victim l hv hl
    rw [hjoin, Option.some.injEq] at hv
    subst hv
    rw [hplace, Option.some.injEq] at hl
    subst hl
    exact ⟨_, hostTree_rootfs, List.prefix_append (location ["rootfs"]) (location ["a"])⟩

/-- A link to `/etc` and a whiteout behind it. -/
def linkThenWhiteout : List (TarEntry EntryBody) :=
  [⟨namesPath ["a"], .symlink true [.name (.utf8 "etc")]⟩,
    ⟨namesPath ["a", ".wh.passwd"], .file []⟩]

/-- It deletes `/etc/passwd`. -/
theorem link_then_whiteout_escapes :
    UnpacksInside (layerHost linkThenWhiteout) hostTree rootfsPath ∧
    ∃ s ∈ rootfsTrace (layerHost linkThenWhiteout) (fun _ => .ok []) rootfsPath
        [layerDigest.toString] hostTree,
      classify s.entry.path ≠ .none ∧
      (s.before.get? (location ["etc", "passwd"])).isSome = true ∧
      s.after.get? (location ["etc", "passwd"]) = none ∧
      ¬ InTarget hostTree rootfsPath (location ["etc", "passwd"]) := by
  refine ⟨layerHost_unpacksInside _, ?_⟩
  have hout : ¬ InTarget hostTree rootfsPath (location ["etc", "passwd"]) := by
    rintro ⟨T, hT, hx⟩
    rw [hostTree_rootfs, Option.some.injEq] at hT
    subst hT
    revert hx
    decide
  obtain ⟨linked, hlinked⟩ : ∃ t, t = hostTree.put (location ["rootfs", "a"])
      (.symlink true [.name (.utf8 "etc")]) := ⟨_, rfl⟩
  have hmark : classify (namesPath ["a", ".wh.passwd"]) ≠ .none := by decide
  refine ⟨⟨linked, ⟨namesPath ["a", ".wh.passwd"], .file []⟩,
    linked.prune (· = location ["etc", "passwd"])⟩, ?_, hmark, ?_, ?_, hout⟩
  · simp only [rootfsTrace, Digest.parse_toString, hlinked]
    exact List.mem_cons_of_mem _ (List.mem_singleton.mpr rfl)
  · rw [hlinked]
    decide
  · rw [hlinked]
    decide

end ContainerdRs.Snapshots

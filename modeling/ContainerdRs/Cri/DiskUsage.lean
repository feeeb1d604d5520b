import ContainerdRs.Lib.TreeWalk
import ContainerdRs.Content.Atomic
import ContainerdRs.Cri.Lifecycle

/-!
# What the image file system uses (`image_fs_info`)

`image_fs_info` adds up the blobs of the content store (`Store::total_size`) and the regular files
of the snapshots (`dir_size`).  What cannot be read counts nothing, but for a failed entry of the
blobs; the sums are in `u64`.

* `dirSizeFrom_eq` — `dir_size` is a sum over the walk through what can be read.
* `totalSize_eq` — `total_size` is a sum over the blobs.
* `image_usage_exact` — what is reported after a run of the content store.
-/

set_option autoImplicit false

namespace ContainerdRs.Cri.DiskUsage

open FileTree Content Transition

/-- `+=` on a `u64`, which wraps around. -/
def add64 (a b : Nat) : Nat := (a + b) % 2 ^ 64

/-! ## `dir_size` -/

variable {ν γ : Type} [DecidableEq ν]

/-- What the file system answers to `dir_size`. -/
structure Reader (ν γ : Type) where
  /-- `read_dir`: the names in the order they come in. -/
  names : List ν → List ν
  /-- The length of a file. -/
  len : γ → Nat
  readDirFails : List ν → Bool
  /-- The entry for a place, or its type, cannot be read. -/
  entryFails : List ν → Bool
  metadataFails : List ν → Bool

/-- `dir_size`, at most `depth` levels down. -/
def dirSizeFrom (t : FileTree ν γ) (r : Reader ν γ) : Nat → List ν → Nat
  | 0, _ => 0
  | depth + 1, l =>
    if !t.isDirAt l || r.readDirFails l then 0
    else
      (r.names l).foldl
        (fun total n =>
          if r.entryFails (l ++ [n]) then total
          else
            match t.get? (l ++ [n]) with
            | some .dir => add64 total (dirSizeFrom t r depth (l ++ [n]))
            | some (.file c) =>
              if r.metadataFails (l ++ [n]) then total else add64 total (r.len c)
            | _ => total)
        0

/-- `dir_size`. -/
def dirSize (t : FileTree ν γ) (r : Reader ν γ) (l : List ν) : Nat := dirSizeFrom t r t.height l

/-- The length of a regular file. -/
def fileLen (t : FileTree ν γ) (len : γ → Nat) (x : List ν) : Nat :=
  match t.get? x with
  | some (.file c) => len c
  | _ => 0

/-- What a place adds to the sum. -/
def weight (t : FileTree ν γ) (r : Reader ν γ) (x : List ν) : Nat :=
  if r.metadataFails x then 0 else fileLen t r.len x

/-- The names in a directory that are read. -/
def Reader.read (r : Reader ν γ) (l : List ν) : List ν :=
  if r.readDirFails l then [] else (r.names l).filter fun n => !r.entryFails (l ++ [n])

variable {t : FileTree ν γ} {r : Reader ν γ}

/-- A loop of additions. -/
theorem foldl_add64 {α : Type} {f : Nat → α → Nat} {w : α → Nat}
    (hf : ∀ total a, total < 2 ^ 64 → f total a = (total + w a) % 2 ^ 64) : ∀ (xs : List α)
    (total : Nat), total < 2 ^ 64 → xs.foldl f total = (total + (xs.map w).sum) % 2 ^ 64
  | [], total, h => by
    rw [List.map_nil, List.sum_nil, Nat.add_zero, Nat.mod_eq_of_lt h]
    rfl
  | x :: xs, total, h => by
    have hlt : f total x < 2 ^ 64 := by
      rw [hf total x h]
      exact Nat.mod_lt _ (by decide)
    rw [List.foldl_cons, foldl_add64 hf xs _ hlt, hf total x h, List.map_cons, List.sum_cons]
    omega

theorem weight_dir {x : List ν} (h : t.get? x = some .dir) : weight t r x = 0 := by
  rw [weight, fileLen, h]
  split <;> rfl

theorem visit_leaf {names : List ν → List ν} {x : List ν} (h : t.get? x ≠ some .dir)
    (depth : Nat) : visit t names (depth + 1) x = [x] := by
  have hno : ¬ t.isDirAt x = true := fun hdir => h (isDirAt_iff.1 hdir)
  rw [visit, if_neg hno]

omit [DecidableEq ν] in
theorem sum_flatMap_filter {β : Type} {p : ν → Bool} {g : ν → List β} {w : β → Nat} :
    ∀ ns : List ν, (((ns.filter p).flatMap g).map w).sum =
      (ns.map fun n => if p n then ((g n).map w).sum else 0).sum
  | [] => rfl
  | n :: ns => by
    have ih := sum_flatMap_filter (p := p) (g := g) (w := w) ns
    by_cases hp : p n
    · simp [hp, ih]
    · simp [hp, ih]

/-- **`dir_size` is a sum over the walk.** -/
theorem dirSizeFrom_eq (t : FileTree ν γ) (r : Reader ν γ) : ∀ (depth : Nat) {l : List ν},
    t.get? l = some .dir → dirSizeFrom t r depth l =
      ((visit t r.read (depth + 1) l).map (weight t r)).sum % 2 ^ 64 := by
  intro depth
  induction depth with
  | zero =>
    intro l hl
    have hchildren : ∀ ns : List ν, (ns.flatMap fun n => visit t r.read 0 (l ++ [n])) = [] := by
      intro ns
      simp [visit]
    rw [visit, hchildren, ite_self, List.map_singleton, List.sum_singleton, weight_dir hl]
    rfl
  | succ depth ih =>
    intro l hl
    have hdir := isDirAt_iff.2 hl
    rw [visit, List.map_cons, List.sum_cons, weight_dir hl, Nat.zero_add, if_pos hdir, dirSizeFrom,
      hdir, Reader.read]
    by_cases hread : r.readDirFails l
    · simp [hread]
    · simp only [hread, Bool.not_true, Bool.or_false, Bool.false_eq_true, if_false]
      rw [sum_flatMap_filter, foldl_add64 ?_ _ 0 (by decide), Nat.zero_add]
      -- one entry
      intro total n htotal
      have hskip : ∀ {w : Nat}, w = 0 → total = (total + w) % 2 ^ 64 := by
        rintro _ rfl
        exact (Nat.mod_eq_of_lt htotal).symm
      by_cases hentry : r.entryFails (l ++ [n])
      · simp only [hentry, if_true, Bool.not_true, Bool.false_eq_true, if_false]
        exact hskip rfl
      · simp only [hentry, Bool.false_eq_true, if_false, Bool.not_false, if_true]
        cases hnode : t.get? (l ++ [n]) with
        | none =>
          rw [visit_leaf (by simp [hnode])]
          exact hskip (by simp [weight, fileLen, hnode])
        | some node =>
          cases node with
          | dir =>
            dsimp only
            rw [ih hnode, add64, Nat.add_mod_mod]
          | file c =>
            rw [visit_leaf (by simp [hnode])]
            dsimp only
            split
            · rename_i hmeta
              exact hskip (by simp [weight, hmeta])
            · rename_i hmeta
              rw [add64, List.map_singleton, List.sum_singleton, weight, if_neg hmeta, fileLen,
                hnode]
          | symlink a target =>
            rw [visit_leaf (by simp [hnode])]
            exact hskip (by simp [weight, fileLen, hnode])

/-- Nothing fails. -/
structure Reader.Quiet (r : Reader ν γ) : Prop where
  readDir : ∀ l, r.readDirFails l = false
  entry : ∀ x, r.entryFails x = false
  metadata : ∀ x, r.metadataFails x = false

/-- **`dir_size` counts every regular file** below the directory, each name once, and nothing
    else. -/
theorem dirSize_eq {l : List ν} (h : Walkable t r.names l) (hdir : t.get? l = some .dir)
    (hquiet : r.Quiet) {files : Finset (List ν)}
    (hfiles : ∀ x, x ∈ files ↔ l <+: x ∧ ∃ c, t.get? x = some (.file c)) :
    dirSize t r l = (∑ x ∈ files, fileLen t r.len x) % 2 ^ 64 := by
  have hread : r.read = r.names := by
    funext l
    simp [Reader.read, hquiet.readDir, hquiet.entry]
  have hweight : weight t r = fileLen t r.len := by
    funext x
    rw [weight, hquiet.metadata, if_neg Bool.false_ne_true]
  rw [dirSize, dirSizeFrom_eq t r _ hdir, hread, hweight, h.sum_visit (Nat.le_succ _)]
  · intro x hx
    obtain ⟨hpre, c, hc⟩ := (hfiles x).1 hx
    exact ⟨hpre, by rw [hc]; rfl⟩
  · intro x hpre _ hno
    rw [fileLen]
    split
    · rename_i c hc
      exact absurd ((hfiles x).2 ⟨hpre, c, hc⟩) hno
    · rfl

/-! ## `Store::total_size` -/

/-- `Store::total_size`, one entry.  A blob whose metadata cannot be read, or that is gone, is
    passed over. -/
def addBlob (fs : InodeFs StorePath UInt8) (metadataFails : String → Bool) (total : Nat)
    (entry : Except String String) : Except String Nat := do
  let hex ← entry
  if metadataFails hex then return total
  match fs.read (.blob hex) with
  | some bytes => return add64 total bytes.length
  | none => return total

/-- `Store::total_size`.  `entries` is what `blobs/sha256` lists, if it is a directory. -/
def totalSize (fs : InodeFs StorePath UInt8) (entries : Option (List (Except String String)))
    (metadataFails : String → Bool) : Except String Nat :=
  match entries with
  | none => .ok 0
  | some entries => entries.foldlM (addBlob fs metadataFails) 0

/-- The length of a blob. -/
def blobLen (m : Blobs) (hex : String) : Nat := ((m hex).map List.length).getD 0

theorem addBlob_ok (s : Content.St) {total : Nat} (h : total < 2 ^ 64) (hex : String) :
    addBlob s.fs (fun _ => false) total (.ok hex) =
      .ok ((total + blobLen (view s) hex) % 2 ^ 64) := by
  rw [blobLen, view]
  cases hread : s.fs.read (.blob hex) with
  | none =>
    rw [Option.map_none, Option.getD_none, Nat.add_zero, Nat.mod_eq_of_lt h]
    simp only [addBlob, bind, Except.bind, hread]
    rfl
  | some bytes =>
    rw [Option.map_some, Option.getD_some]
    simp only [addBlob, bind, Except.bind, hread]
    rfl

theorem foldlM_addBlob (s : Content.St) : ∀ (names : List String) {total : Nat}, total < 2 ^ 64 →
    (names.map Except.ok).foldlM (addBlob s.fs fun _ => false) total =
      .ok ((total + (names.map (blobLen (view s))).sum) % 2 ^ 64)
  | [], total, h => by
    rw [List.map_nil, List.map_nil, List.sum_nil, Nat.add_zero, Nat.mod_eq_of_lt h]
    rfl
  | hex :: names, total, h => by
    have hlt : (total + blobLen (view s) hex) % 2 ^ 64 < 2 ^ 64 := Nat.mod_lt _ (by decide)
    rw [List.map_cons, List.foldlM_cons, addBlob_ok s h hex, List.map_cons, List.sum_cons]
    show (names.map Except.ok).foldlM (addBlob s.fs fun _ => false) _ = _
    rw [foldlM_addBlob s names hlt, Nat.mod_add_mod, Nat.add_assoc]

/-- **`total_size` counts every blob** that is listed, and no staging file. -/
theorem totalSize_eq (s : Content.St) {names : List String} (hnodup : names.Nodup) :
    totalSize s.fs (some (names.map .ok)) (fun _ => false) =
      .ok ((∑ hex ∈ names.toFinset, blobLen (view s) hex) % 2 ^ 64) := by
  rw [totalSize, foldlM_addBlob s names (by decide), Nat.zero_add, List.sum_toFinset _ hnodup]

/-! ## `image_fs_info` -/

/-- `image_fs_info`, the bytes used. -/
def imageFsInfo (fs : InodeFs StorePath UInt8) (entries : Option (List (Except String String)))
    (metadataFails : String → Bool) (t : FileTree ν γ) (r : Reader ν γ) (root : List ν) :
    Except Status Nat :=
  match totalSize fs entries metadataFails with
  | .error e => .error ⟨.internal, e⟩
  | .ok total => .ok (add64 total (dirSize t r root))

/-- A blob has a file exactly when it is in the map. -/
theorem view_isSome (s : Content.St) (hex : String) :
    (view s hex).isSome = s.fs.isFile (.blob hex) := by
  rw [view, InodeFs.read, InodeFs.isFile, Option.isSome_map]

/-- **What is reported.**  After every run of the content store, whatever its tasks have done to
    each other and whichever calls have failed, the bytes used are the lengths of the blobs that
    the map of the store holds and those of the regular files below the snapshots, each counted
    once: nothing for a staging file, a directory or what a link points to.  The sum is in
    `u64`. -/
theorem image_usage_exact {sha256 : Bytes → Digest} {pid : Nat} {s₀ s : Content.St}
    (h₀ : Idle s₀) {ls : List Content.Label}
    (hrun : run (Content.step sha256 pid) s₀ ls = some s) {m : Blobs}
    (hm : run (mapStep sha256) (view s₀) ((effects sha256 pid s₀ ls).map Prod.snd) = some m)
    {stored : Finset String} (hstored : ∀ hex, hex ∈ stored ↔ (m hex).isSome = true)
    {entries : List String} (hnodup : entries.Nodup)
    (hentries : ∀ hex, hex ∈ entries ↔ s.fs.isFile (.blob hex) = true)
    {root : List ν} (hwalk : Walkable t r.names root) (hdir : t.get? root = some .dir)
    (hquiet : r.Quiet) {files : Finset (List ν)}
    (hfiles : ∀ x, x ∈ files ↔ root <+: x ∧ ∃ c, t.get? x = some (.file c)) :
    imageFsInfo s.fs (some (entries.map .ok)) (fun _ => false) t r root =
      .ok ((∑ hex ∈ stored, blobLen m hex + ∑ x ∈ files, fileLen t r.len x) % 2 ^ 64) := by
  have hview := view_run (h₀.inv sha256 pid) hrun
  obtain rfl : view s = m := Option.some.inj (hview.symm.trans hm)
  have hsame : entries.toFinset = stored := by
    ext hex
    rw [List.mem_toFinset, hentries, hstored, view_isSome]
  rw [imageFsInfo, totalSize_eq s hnodup, dirSize_eq hwalk hdir hquiet hfiles, hsame]
  show Except.ok (add64 _ _) = _
  rw [add64, ← Nat.add_mod]

/-- A blob of three bytes is stored, and another writer is at work. -/
def storedBlob : List Content.Label :=
  [.openWriter "a", .create 0 true, .write 0 [1, 2, 3] 3, .openWriter "b", .create 1 true,
    .write 1 [4] 1, .commit 0 3 emptyDigest true, .verify 0, .probe 0, .createDir 0 true,
    .rename 0 true]

/-- A file of five bytes, and a link to it. -/
def snapshots : FileTree String Nat :=
  ⟨[([], .dir), (["f"], .file 5), (["l"], .symlink false [.name "f"])]⟩

/-- Everything can be read. -/
def reader : Reader String Nat where
  names := snapshots.children
  len := id
  readDirFails _ := false
  entryFails _ := false
  metadataFails _ := false

theorem snapshots_walkable : Walkable snapshots reader.names [] where
  root := rfl
  closed := by
    intro q n hsome
    rw [List.nil_append] at hsome ⊢
    cases q with
    | nil => rfl
    | cons m q =>
      -- nothing stands as deep as this
      simp [snapshots, get?, first?] at hsome
  listing := listing_children _

theorem storedBlob_used : ∃ s, run (Content.step (fun _ => emptyDigest) 1) emptyStore storedBlob =
      some s ∧
    imageFsInfo s.fs (some [.ok emptyDigest.hex]) (fun _ => false) snapshots reader [] =
      .ok 8 := by
  have hsome : (run (Content.step (fun _ => emptyDigest) 1) emptyStore storedBlob).isSome =
      true := by decide +kernel
  obtain ⟨s, hs⟩ := Option.isSome_iff_exists.1 hsome
  have heffects : (effects (fun _ => emptyDigest) 1 emptyStore storedBlob).map Prod.snd =
      [.put [1, 2, 3]] := by decide +kernel
  have hm : run (mapStep fun _ => emptyDigest) (view emptyStore)
      ((effects (fun _ => emptyDigest) 1 emptyStore storedBlob).map Prod.snd) =
        some (Function.update (view emptyStore) emptyDigest.hex (some [1, 2, 3])) := by
    rw [heffects]
    rfl
  have hidle := opened_emptyStore.idleStore
  have hview := (view_run (hidle.inv (fun _ => emptyDigest) 1) hs).symm.trans hm
  have hstored : ∀ hex, hex ∈ ({emptyDigest.hex} : Finset String) ↔
      (Function.update (view emptyStore) emptyDigest.hex (some [1, 2, 3]) hex).isSome = true := by
    intro hex
    rw [Finset.mem_singleton, Function.update_apply]
    split
    · simp [*]
    · simp [*, view, InodeFs.read, emptyStore]
  have hentries : ∀ hex, hex ∈ [emptyDigest.hex] ↔ s.fs.isFile (.blob hex) = true := by
    intro hex
    rw [← view_isSome, Option.some.inj hview, ← hstored, List.mem_singleton, Finset.mem_singleton]
  have hfiles : ∀ x, x ∈ ({["f"]} : Finset (List String)) ↔
      [] <+: x ∧ ∃ c, snapshots.get? x = some (.file c) := by
    intro x
    rw [Finset.mem_singleton]
    constructor
    · rintro rfl
      exact ⟨List.nil_prefix, 5, rfl⟩
    · rintro ⟨-, c, hc⟩
      by_contra hx
      simp only [snapshots, get?, first?] at hc
      split_ifs at hc <;> simp_all
  refine ⟨s, hs, ?_⟩
  rw [show [Except.ok emptyDigest.hex] = [emptyDigest.hex].map Except.ok from rfl,
    image_usage_exact hidle hs hm hstored (List.nodup_singleton _) hentries snapshots_walkable rfl
      ⟨fun _ => rfl, fun _ => rfl, fun _ => rfl⟩ hfiles,
    Finset.sum_singleton, Finset.sum_singleton, blobLen, Function.update_self]
  rfl

end ContainerdRs.Cri.DiskUsage

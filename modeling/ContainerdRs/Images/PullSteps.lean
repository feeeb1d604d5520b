import ContainerdRs.Images.Pull
import ContainerdRs.Snapshots.Codec
import ContainerdRs.Lib.Transition

/-!
# Concurrent pulls, step by step (`pull_with_options` under `pull_locks`)

Any number of pulls run at once on one content store and one directory of snapshots; only pulls of
one reference wait for each other.  A pull moves in the steps in which others can see it: a commit
looks for the blob and then renames, a layer is checked, its snapshot directory is looked at,
created and filled with one write after another.  The registry is free in what it sends and in how
it cuts it into chunks; every pull can fail before each of its steps, and a restart of the daemon
cuts all of them off.  What a pull has stored by then stays.

* `Task`, `move` — one pull and what it does next; `step` — all of them together.
* `Code.host` — the functions of `pullWithOptions`, from the same code.
* `step_cases` — what one step can be.
-/

set_option autoImplicit false

namespace ContainerdRs.Images.Concurrent

open Snapshots

/-! ## The code of a pull -/

/-- What a pull calls.  `Tree` is the content of a snapshot's `fs` directory, `Op` one write of an
    extraction. -/
structure Code (Tree Op : Type) where
  sha256 : Bytes → Digest
  /-- `serde_json::from_slice::<ImageConfigJson>`. -/
  parseConfig : Bytes → Except String ImageConfigJson
  decoders : Decoders
  /-- The writes of `apply_layer` for the entries of the archive, in order.  Where the stream breaks
      off or is no archive, there is a write that fails. -/
  tarWrites : Stream → List Op
  emptyDir : Tree
  /-- One write: the directory afterwards, and the error if it failed. -/
  write : Op → Tree → Tree × Option String

variable {Tree Op : Type}

/-- `apply_layer`, the loop: it stops at the first error. -/
def applyWrites (c : Code Tree Op) : List Op → Tree → Tree × Option String
  | [], tree => (tree, none)
  | op :: ops, tree =>
    match c.write op tree with
    | (tree', some e) => (tree', some e)
    | (tree', none) => applyWrites c ops tree'

/-- `apply_layer`. -/
def applyLayer (c : Code Tree Op) (tree : Tree) (blob : Bytes) (compression : Compression) :
    Tree × Option String :=
  match decompress c.decoders blob compression with
  | .error e => (tree, some e)
  | .ok stream => applyWrites c (c.tarWrites stream) tree

/-- `compute_diff_id_reader`, with the error of a pull. -/
def computeDiffId (c : Code Tree Op) (blob : Bytes) (mediaType : String) : Except Error Digest :=
  match computeDiffIdReader c.decoders c.sha256 blob (.fromMediaType mediaType) with
  | .error e => .error (.io e)
  | .ok digest => .ok digest

/-- The code of one uninterrupted pull. -/
def Code.host [DecidableEq Tree] (c : Code Tree Op) : Host Tree where
  sha256 := c.sha256
  parseConfig := c.parseConfig
  computeDiffId := computeDiffId c
  emptyDir := c.emptyDir
  populated tree := decide (tree ≠ c.emptyDir)
  applyLayer tree blob mediaType := applyLayer c tree blob (.fromMediaType mediaType)

/-! ## Pulls in flight -/

/-- What the registry has sent for a reference. -/
structure Manifest where
  reference : String
  layers : List Descriptor
  manifestDigest : String
  config : Bytes

/-- An image whose config has been read: as many diffIDs as layers. -/
structure Plan where
  manifest : Manifest
  diffIds : List Digest
  user : String
  count : diffIds.length = manifest.layers.length

/-- One turn of the layer loop. -/
structure Layer where
  descriptor : Descriptor
  expected : Digest
  diffId : Digest
  chainId : Digest

/-- How far a turn has come. -/
inductive Stage (Op : Type) where
  /-- The writer is open and has got these bytes. -/
  | streaming (written : Bytes)
  /-- `commit` has found no blob of that digest. -/
  | moving (bytes : Bytes)
  /-- The blob is committed, its diffID not computed yet. -/
  | checking
  /-- The diffID is right. -/
  | looking
  /-- The snapshot directory had no entry. -/
  | creating
  /-- `apply_layer`, with the writes that are left. -/
  | unpacking (todo : List Op)

/-- A pull; `done` are the digests of the layers behind it. -/
inductive Task (Op : Type) where
  | resolving (reference : String)
  | storingConfig (m : Manifest)
  | movingConfig (m : Manifest)
  | layer (p : Plan) (done : List Digest) (l : Layer) (stage : Stage Op)
  | pulled (m : Manifest) (img : PulledImage)
  | failed (reference : String) (e : Error)

/-- The reference of a pull that holds its lock. -/
def Task.lock : Task Op → Option String
  | .resolving reference => some reference
  | .storingConfig m | .movingConfig m => some m.reference
  | .layer p _ _ _ => some p.manifest.reference
  | .pulled _ _ | .failed _ _ => none

/-- The content store, the snapshots and all pulls. -/
structure St (Tree Op : Type) where
  stores : Stores Tree
  tasks : List (Task Op)

/-- What a pull does next; `fail` is an error of the system, or the end of the request. -/
inductive Action where
  | resolve (layers : List Descriptor) (manifestDigest : String) (config : Bytes)
  | probeConfig
  | renameConfig
  | chunk (bytes : Bytes)
  | commit
  | rename
  | check
  | readDir
  | createDir
  | write
  | fail (e : Error)

inductive Label where
  | pull (reference : String)
  | act (t : Nat) (a : Action)
  | restart

/-! ## The steps of one pull -/

/-- Descriptors with their diffIDs and chainIDs. -/
def Plan.turns (c : Code Tree Op) (p : Plan) : List (Descriptor × Digest × Digest) :=
  p.manifest.layers.zip (p.diffIds.zip (chainIds c.sha256 p.diffIds))

/-- Behind the last layer. -/
def finish (c : Code Tree Op) (p : Plan) (done : List Digest) : Task Op :=
  match parseManifestDigest p.manifest.manifestDigest with
  | .error e => .failed p.manifest.reference (.digest e)
  | .ok manifestDigest =>
    .pulled p.manifest
      { reference := p.manifest.reference
        imageId := c.sha256 p.manifest.config
        manifestDigest := manifestDigest
        size := p.manifest.config.length + (p.manifest.layers.map fun d => d.size.toNat).sum
        diffIds := p.diffIds
        chainIds := chainIds c.sha256 p.diffIds
        layerDigests := done
        user := p.user }

/-- The head of the layer loop. -/
def nextTurn (c : Code Tree Op) (p : Plan) (done : List Digest) : Task Op :=
  match (p.turns c)[done.length]? with
  | none => finish c p done
  | some (d, diffId, chainId) =>
    match Digest.parse d.digest with
    | .error e => .failed p.manifest.reference (.digest e)
    | .ok expected =>
      if d.size < 0 then
        .failed p.manifest.reference (.reference p.manifest.reference
          ("layer " ++ toString done.length ++ " has negative size " ++ toString d.size))
      else .layer p done ⟨d, expected, diffId, chainId⟩ (.streaming [])

/-- Behind the config blob: the config is parsed and the layers are counted. -/
def readConfig (c : Code Tree Op) (m : Manifest) : Task Op :=
  match c.parseConfig m.config with
  | .error e => .failed m.reference (.config e)
  | .ok config =>
    match parseDigests config.diffIds with
    | .error e => .failed m.reference (.digest e)
    | .ok diffIds =>
      if h : diffIds.length = m.layers.length then nextTurn c ⟨m, diffIds, config.user, h⟩ []
      else .failed m.reference (.layerCountMismatch diffIds.length m.layers.length)

/-- `Writer::commit` up to the rename: size, digest, and whether the blob is there. -/
def commitLayer (c : Code Tree Op) (s : Stores Tree) (p : Plan) (done : List Digest) (l : Layer)
    (written : Bytes) : Task Op :=
  if written.length ≠ l.descriptor.size.toNat then
    .failed p.manifest.reference
      (.content (.sizeMismatch l.descriptor.size.toNat written.length))
  else if c.sha256 written ≠ l.expected then
    .failed p.manifest.reference (.content (.digestMismatch l.expected (c.sha256 written)))
  else if (s.blobs.get? l.expected.hex).isSome then .layer p done l .checking
  else .layer p done l (.moving written)

/-- The diffID of the stored blob. -/
def checkLayer (c : Code Tree Op) (s : Stores Tree) (p : Plan) (done : List Digest) (l : Layer) :
    Task Op :=
  match s.blobs.get? l.expected.hex with
  | none => .failed p.manifest.reference (.io "not found")
  | some stored =>
    match computeDiffId c stored l.descriptor.mediaType with
    | .error e => .failed p.manifest.reference e
    | .ok computed =>
      if computed ≠ l.diffId then
        .failed p.manifest.reference (.diffIdMismatch done.length l.diffId computed)
      else .layer p done l .looking

/-- The content of a snapshot's directory; one that does not exist has none. -/
def dirOf (c : Code Tree Op) (s : Stores Tree) (chainId : Digest) : Tree :=
  (s.snapshots.get? chainId.hex).getD c.emptyDir

/-- `create_dir_all`. -/
def createDir (c : Code Tree Op) (s : Stores Tree) (chainId : Digest) : Stores Tree :=
  { s with snapshots := s.snapshots.insert chainId.hex (dirOf c s chainId) }

/-- `apply_layer`, up to its first entry. -/
def openLayer (c : Code Tree Op) (s : Stores Tree) (p : Plan) (done : List Digest) (l : Layer) :
    Task Op :=
  match s.blobs.get? l.expected.hex with
  | none => .failed p.manifest.reference (.io "not found")
  | some stored =>
    match decompress c.decoders stored (.fromMediaType l.descriptor.mediaType) with
    | .error e => .failed p.manifest.reference (.unpack e)
    | .ok stream => .layer p done l (.unpacking (c.tarWrites stream))

/-- `apply_layer`, one write. -/
def writeEntry (c : Code Tree Op) (s : Stores Tree) (p : Plan) (done : List Digest) (l : Layer) :
    List Op → Stores Tree × Task Op
  | [] => (s, nextTurn c p (done ++ [l.expected]))
  | op :: todo =>
    let r := c.write op (dirOf c s l.chainId)
    ({ s with snapshots := s.snapshots.insert l.chainId.hex r.1 },
      match r.2 with
      | none => .layer p done l (.unpacking todo)
      | some e => .failed p.manifest.reference (.unpack e))

variable [DecidableEq Tree]

/-- `read_dir().next().is_some()`: a directory with entries is taken as it is. -/
def lookAtDir (c : Code Tree Op) (s : Stores Tree) (p : Plan) (done : List Digest) (l : Layer) :
    Task Op :=
  if dirOf c s l.chainId ≠ c.emptyDir then nextTurn c p (done ++ [l.expected])
  else .layer p done l .creating

/-- One step of one pull; `none` when the pull is not at that point. -/
def move (c : Code Tree Op) (s : Stores Tree) (task : Task Op) :
    Action → Option (Stores Tree × Task Op)
  | .resolve layers manifestDigest config =>
    match task with
    | .resolving reference =>
      some (s, .storingConfig ⟨reference, layers, manifestDigest, config⟩)
    | _ => none
  | .probeConfig =>
    match task with
    | .storingConfig m =>
      if (s.blobs.get? (c.sha256 m.config).hex).isSome then some (s, readConfig c m)
      else some (s, .movingConfig m)
    | _ => none
  | .renameConfig =>
    match task with
    | .movingConfig m =>
      some ({ s with blobs := s.blobs.insert (c.sha256 m.config).hex m.config }, readConfig c m)
    | _ => none
  | .chunk bytes =>
    match task with
    | .layer p done l (.streaming written) =>
      some (s, .layer p done l (.streaming (written ++ bytes)))
    | _ => none
  | .commit =>
    match task with
    | .layer p done l (.streaming written) => some (s, commitLayer c s p done l written)
    | _ => none
  | .rename =>
    match task with
    | .layer p done l (.moving bytes) =>
      some ({ s with blobs := s.blobs.insert l.expected.hex bytes }, .layer p done l .checking)
    | _ => none
  | .check =>
    match task with
    | .layer p done l .checking => some (s, checkLayer c s p done l)
    | _ => none
  | .readDir =>
    match task with
    | .layer p done l .looking => some (s, lookAtDir c s p done l)
    | _ => none
  | .createDir =>
    match task with
    | .layer p done l .creating => some (createDir c s l.chainId, openLayer c s p done l)
    | _ => none
  | .write =>
    match task with
    | .layer p done l (.unpacking todo) => some (writeEntry c s p done l todo)
    | _ => none
  | .fail e =>
    match task.lock with
    | some reference => some (s, .failed reference e)
    | none => none

/-- A pull that the end of the daemon cuts off. -/
def Task.cut (task : Task Op) : Task Op :=
  match task.lock with
  | some reference => .failed reference (.io "interrupted")
  | none => task

/-- One step; `none` when it is not possible.  A pull starts when the lock of its reference is
    free. -/
def step (c : Code Tree Op) (s : St Tree Op) : Label → Option (St Tree Op)
  | .pull reference =>
    if s.tasks.all (fun task => decide (task.lock ≠ some reference)) then
      some { s with tasks := s.tasks ++ [.resolving reference] }
    else none
  | .act t a =>
    match s.tasks[t]? with
    | none => none
    | some task =>
      match move c s.stores task a with
      | none => none
      | some (stores, task') => some ⟨stores, s.tasks.set t task'⟩
  | .restart => some { s with tasks := s.tasks.map Task.cut }

theorem step_act {c : Code Tree Op} {s : St Tree Op} {t : Nat} {task task' : Task Op} {a : Action}
    {stores : Stores Tree} (ht : s.tasks[t]? = some task)
    (hm : move c s.stores task a = some (stores, task')) :
    step c s (.act t a) = some ⟨stores, s.tasks.set t task'⟩ := by
  simp only [step, ht, hm]

/-- What one step can be. -/
theorem step_cases {c : Code Tree Op} {s s' : St Tree Op} {l : Label} (h : step c s l = some s') :
    (∃ reference, l = .pull reference ∧
      s' = { s with tasks := s.tasks ++ [.resolving reference] }) ∨
    (∃ t a task stores task', l = .act t a ∧ s.tasks[t]? = some task ∧
      move c s.stores task a = some (stores, task') ∧ s' = ⟨stores, s.tasks.set t task'⟩) ∨
    (l = .restart ∧ s' = { s with tasks := s.tasks.map Task.cut }) := by
  cases l with
  | pull reference =>
    simp only [step] at h
    split at h
    · cases h
      exact .inl ⟨reference, rfl, rfl⟩
    · cases h
  | act t a =>
    simp only [step] at h
    cases ht : s.tasks[t]? with
    | none => simp only [ht] at h; cases h
    | some task =>
      simp only [ht] at h
      cases hm : move c s.stores task a with
      | none => simp only [hm] at h; cases h
      | some r =>
        simp only [hm] at h
        cases h
        exact .inr (.inl ⟨t, a, task, r.1, r.2, rfl, ht, hm, rfl⟩)
  | restart =>
    cases h
    exact .inr (.inr ⟨rfl, rfl⟩)

end ContainerdRs.Images.Concurrent

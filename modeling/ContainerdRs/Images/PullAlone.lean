import Mathlib.Logic.Relation
import ContainerdRs.Images.PullSteps

/-!
# An uninterrupted pull is a run of the steps

`pullWithOptions` is `pull_with_options` as one call, `move` the same code step by step.  A call on
the stores as they are is what the steps of one pull lead to when no other pull moves in between:
the same result and the same stores, in success and in failure.

* `Moves` — the steps of one pull, one after another.
* `unpack_alone`, `layer_alone`, `layers_alone` — the parts of the code, bottom up.
* `pull_alone` — the whole call, as a run of the system.
-/

set_option autoImplicit false

namespace ContainerdRs.Images.Concurrent

open Snapshots Transition Relation

variable {Tree Op : Type} [DecidableEq Tree]

/-- Steps of one pull, one after another. -/
def Moves (c : Code Tree Op) : Stores Tree × Task Op → Stores Tree × Task Op → Prop :=
  ReflTransGen fun x y => ∃ a, move c x.1 x.2 a = some y

variable {c : Code Tree Op}

theorem Moves.head {s : Stores Tree} {task : Task Op} {a : Action} {y z : Stores Tree × Task Op}
    (h : move c s task a = some y) (hz : Moves c y z) : Moves c (s, task) z :=
  ReflTransGen.head ⟨a, h⟩ hz

theorem Moves.one {s : Stores Tree} {task : Task Op} {a : Action} {y : Stores Tree × Task Op}
    (h : move c s task a = some y) : Moves c (s, task) y :=
  ReflTransGen.single ⟨a, h⟩

theorem Moves.trans {x y z : Stores Tree × Task Op} (h : Moves c x y) (hz : Moves c y z) :
    Moves c x z :=
  ReflTransGen.trans h hz

/-- The pull at place `t` moves, and the others stay. -/
theorem Moves.run {s : St Tree Op} {t : Nat} {task : Task Op} {z : Stores Tree × Task Op}
    (hm : Moves c (s.stores, task) z) (ht : s.tasks[t]? = some task) :
    ∃ ls, Transition.run (step c) s ls = some ⟨z.1, s.tasks.set t z.2⟩ := by
  have hlt : t < s.tasks.length := by
    obtain ⟨h, -⟩ := List.getElem?_eq_some_iff.1 ht
    exact h
  induction hm with
  | refl =>
    refine ⟨[], ?_⟩
    have hset : s.tasks.set t task = s.tasks := by
      obtain ⟨h, hget⟩ := List.getElem?_eq_some_iff.1 ht
      rw [← hget, List.set_getElem_self]
    rw [hset]
    rfl
  | @tail y z hy hz ih =>
    obtain ⟨ls, hls⟩ := ih
    obtain ⟨a, ha⟩ := hz
    refine ⟨ls ++ [.act t a], ?_⟩
    rw [run_append hls]
    have hget : (s.tasks.set t y.2)[t]? = some y.2 := List.getElem?_set_self hlt
    simp only [Transition.run, step_act (s := ⟨y.1, s.tasks.set t y.2⟩) hget ha, List.set_set]

/-! ## The snapshot -/

/-- Where a turn goes on behind the check of its layer. -/
def afterLayer (c : Code Tree Op) (p : Plan) (done : List Digest) :
    Except Error Digest → Task Op
  | .ok layer => nextTurn c p (done ++ [layer])
  | .error e => .failed p.manifest.reference e

/-- The result of an extraction, for the layer. -/
def unpackResult (layer : Digest) : Option String → Except Error Digest
  | none => .ok layer
  | some e => .error (.unpack e)

/-- The writes of an extraction. -/
theorem writes_alone {p : Plan} {done : List Digest} {l : Layer} {blobs : OrdMap String Bytes}
    {dirs : OrdMap String Tree} : ∀ (todo : List Op) (tree tree' : Tree) (e : Option String),
      applyWrites c todo tree = (tree', e) →
      Moves c (⟨blobs, dirs.insert l.chainId.hex tree⟩, .layer p done l (.unpacking todo))
        (⟨blobs, dirs.insert l.chainId.hex tree'⟩,
          afterLayer c p done (unpackResult l.expected e))
  | [], tree, tree', e, h => by
    cases h
    exact .one (a := .write) rfl
  | op :: todo, tree, tree', e, h => by
    have hdir : dirOf c ⟨blobs, dirs.insert l.chainId.hex tree⟩ l.chainId = tree := by
      simp [dirOf, OrdMap.get?_insert]
    rw [applyWrites] at h
    cases hw : c.write op tree with
    | mk tree₁ e₁ =>
      rw [hw] at h
      cases e₁ with
      | some e₁ =>
        cases h
        refine .one (a := .write) ?_
        simp only [move, writeEntry, hdir, hw, OrdMap.insert_insert, unpackResult, afterLayer]
      | none =>
        refine .head (a := .write) ?_ (writes_alone todo tree₁ tree' e h)
        simp only [move, writeEntry, hdir, hw, OrdMap.insert_insert]

/-- From the look at the directory to the end of the extraction. -/
theorem unpack_alone {s s' : Stores Tree} {r : Except Error Unit} {l : Layer} {stored : Bytes}
    (p : Plan) (done : List Digest) (hstored : s.blobs.get? l.expected.hex = some stored)
    (h : unpackSnapshot c.host s l.chainId stored l.descriptor.mediaType = (r, s')) :
    Moves c (s, .layer p done l .looking)
      (s', afterLayer c p done (r.map fun _ => l.expected)) := by
  have hpopulated : ((s.snapshots.get? l.chainId.hex).isSome ∧
      c.host.populated ((s.snapshots.get? l.chainId.hex).getD c.host.emptyDir)) ↔
        dirOf c s l.chainId ≠ c.emptyDir := by
    show _ ∧ decide ((s.snapshots.get? l.chainId.hex).getD c.emptyDir ≠ c.emptyDir) = true ↔
      (s.snapshots.get? l.chainId.hex).getD c.emptyDir ≠ c.emptyDir
    rw [decide_eq_true_iff]
    refine and_iff_right_of_imp ?_
    intro hne
    cases hget : s.snapshots.get? l.chainId.hex with
    | none =>
      rw [hget] at hne
      exact absurd rfl hne
    | some tree => rfl
  unfold unpackSnapshot at h
  by_cases hp : dirOf c s l.chainId ≠ c.emptyDir
  · rw [if_pos (hpopulated.2 hp)] at h
    cases h
    refine .one (a := .readDir) ?_
    simp only [move, lookAtDir, if_pos hp]
    rfl
  · rw [if_neg (fun hn => hp (hpopulated.1 hn))] at h
    have hempty : dirOf c s l.chainId = c.emptyDir := not_not.1 hp
    have happly : c.host.applyLayer ((s.snapshots.get? l.chainId.hex).getD c.host.emptyDir) stored
        l.descriptor.mediaType =
          applyLayer c (dirOf c s l.chainId) stored (.fromMediaType l.descriptor.mediaType) := rfl
    dsimp only at h
    rw [happly] at h
    refine .head (a := .readDir) (y := (s, .layer p done l .creating)) ?_ ?_
    · simp only [move, lookAtDir, if_neg hp]
    · have hcreate : createDir c s l.chainId =
          ⟨s.blobs, s.snapshots.insert l.chainId.hex (dirOf c s l.chainId)⟩ := rfl
      cases hd : decompress c.decoders stored (.fromMediaType l.descriptor.mediaType) with
      | error e =>
        have hlayer : applyLayer c (dirOf c s l.chainId) stored
            (.fromMediaType l.descriptor.mediaType) = (dirOf c s l.chainId, some e) := by
          simp only [applyLayer, hd]
        rw [hlayer] at h
        cases h
        refine .one (a := .createDir) ?_
        simp only [move, openLayer, hstored, hd, hcreate]
        rfl
      | ok stream =>
        have hopen : openLayer c s p done l =
            .layer p done l (.unpacking (c.tarWrites stream)) := by
          simp only [openLayer, hstored, hd]
        refine .head (a := .createDir)
          (y := (createDir c s l.chainId, openLayer c s p done l)) rfl ?_
        rw [hopen, hcreate]
        cases hw : applyWrites c (c.tarWrites stream) (dirOf c s l.chainId) with
        | mk tree e =>
          have hlayer : applyLayer c (dirOf c s l.chainId) stored
              (.fromMediaType l.descriptor.mediaType) = (tree, e) := by
            simp only [applyLayer, hd, hw]
          have hmoves : Moves c
              (⟨s.blobs, s.snapshots.insert l.chainId.hex (dirOf c s l.chainId)⟩,
                .layer p done l (.unpacking (c.tarWrites stream)))
              (⟨s.blobs, s.snapshots.insert l.chainId.hex tree⟩,
                afterLayer c p done (unpackResult l.expected e)) := writes_alone _ _ _ _ hw
          rw [hlayer] at h
          cases e with
          | none =>
            cases h
            exact hmoves
          | some e =>
            cases h
            exact hmoves

/-! ## The layers -/

/-- Where a turn goes on behind its commit. -/
def afterCommit (s : Stores Tree) (p : Plan) (done : List Digest) (l : Layer) :
    Except Content.Error (OrdMap String Bytes) → Stores Tree × Task Op
  | .ok blobs => ({ s with blobs := blobs }, .layer p done l .checking)
  | .error e => (s, .failed p.manifest.reference (.content e))

/-- The commit of a layer. -/
theorem commit_alone (s : Stores Tree) (p : Plan) (done : List Digest) (l : Layer) (bytes : Bytes) :
    Moves c (s, .layer p done l (.streaming bytes))
      (afterCommit s p done l
        (commitBlob c.host s.blobs bytes l.descriptor.size.toNat l.expected)) := by
  have hcommit : move c s (.layer p done l (.streaming bytes)) .commit =
      some (s, commitLayer c s p done l bytes) := rfl
  unfold commitBlob
  unfold commitLayer at hcommit
  show Moves c _ (afterCommit s p done l
    (if bytes.length ≠ l.descriptor.size.toNat then _
     else if c.sha256 bytes ≠ l.expected then _ else _))
  by_cases hsize : bytes.length ≠ l.descriptor.size.toNat
  · rw [if_pos hsize] at hcommit ⊢
    exact .one hcommit
  by_cases hdigest : c.sha256 bytes ≠ l.expected
  · rw [if_neg hsize, if_pos hdigest] at hcommit ⊢
    exact .one hcommit
  by_cases hthere : (s.blobs.get? l.expected.hex).isSome
  · rw [if_neg hsize, if_neg hdigest, if_pos hthere] at hcommit ⊢
    exact .one hcommit
  · rw [if_neg hsize, if_neg hdigest, if_neg hthere] at hcommit ⊢
    exact .head hcommit (.one (a := .rename) rfl)

/-- One turn of the layer loop. -/
theorem layer_alone {s s' : Stores Tree} {a : Answer} {p : Plan} {done : List Digest}
    {d : Descriptor} {diffId chainId : Digest} {r : Except Error Digest}
    (hturn : (p.turns c)[done.length]? = some (d, diffId, chainId))
    (h : pullLayer c.host a p.manifest.reference done.length d diffId chainId s = (r, s')) :
    Moves c (s, nextTurn c p done) (s', afterLayer c p done r) := by
  unfold pullLayer at h
  simp only [nextTurn, hturn]
  cases hexpected : Digest.parse d.digest with
  | error e =>
    simp only [hexpected] at h
    cases h
    exact .refl
  | ok expected =>
    simp only [hexpected] at h
    split_ifs at h ⊢ with hsize
    · cases h
      exact .refl
    · cases hblob : a.blob done.length with
      | error e =>
        simp only [hblob] at h
        cases h
        exact .one (a := .fail e) rfl
      | ok bytes =>
        simp only [hblob] at h
        refine .head (a := .chunk bytes) rfl ?_
        have hmoves := commit_alone (c := c) s p done ⟨d, expected, diffId, chainId⟩ bytes
        refine hmoves.trans ?_
        dsimp only
        cases hcommit : commitBlob c.host s.blobs bytes d.size.toNat expected with
        | error e =>
          simp only [hcommit] at h
          cases h
          exact .refl
        | ok blobs =>
          simp only [hcommit] at h
          cases hstored : blobs.get? expected.hex with
          | none =>
            simp only [hstored] at h
            cases h
            refine .one (a := .check) ?_
            simp only [move, checkLayer, hstored, afterLayer]
          | some stored =>
            simp only [hstored] at h
            cases hcomputed : computeDiffId c stored d.mediaType with
            | error e =>
              simp only [Code.host, hcomputed] at h
              cases h
              refine .one (a := .check) ?_
              simp only [move, checkLayer, hstored, hcomputed, afterLayer]
            | ok computed =>
              have hhost : c.host.computeDiffId stored d.mediaType = .ok computed := hcomputed
              simp only [hhost] at h
              split_ifs at h with hdiff
              · cases h
                refine .one (a := .check) ?_
                simp only [move, checkLayer, hstored, hcomputed, if_pos hdiff, afterLayer]
              · refine .head (a := .check) (y := (⟨blobs, s.snapshots⟩,
                  .layer p done ⟨d, expected, diffId, chainId⟩ .looking)) ?_ ?_
                · simp only [move, checkLayer, hstored, hcomputed, if_neg hdiff]
                · cases hunpack : unpackSnapshot c.host ⟨blobs, s.snapshots⟩ chainId stored
                    d.mediaType with
                  | mk r₁ s₁ =>
                    simp only [hunpack] at h
                    have hmoves := unpack_alone (s := ⟨blobs, s.snapshots⟩)
                      (l := ⟨d, expected, diffId, chainId⟩) p done hstored hunpack
                    cases r₁ with
                    | error e =>
                      cases h
                      exact hmoves
                    | ok u =>
                      cases h
                      exact hmoves

/-- Where a pull ends behind its layers. -/
def afterLayers (c : Code Tree Op) (p : Plan) (done : List Digest) :
    Except Error (List Digest) → Task Op
  | .ok layers => finish c p (done ++ layers)
  | .error e => .failed p.manifest.reference e

/-- The layer loop, from any of its turns on. -/
theorem layers_alone {a : Answer} {p : Plan} :
    ∀ (turns : List (Descriptor × Digest × Digest)) (done : List Digest) {s s' : Stores Tree}
      {r : Except Error (List Digest)}, (p.turns c).drop done.length = turns →
      pullLayers c.host a p.manifest.reference done.length turns s = (r, s') →
      Moves c (s, nextTurn c p done) (s', afterLayers c p done r)
  | [], done, s, s', r, hturns, h => by
    cases h
    have hend : (p.turns c)[done.length]? = none := by
      rw [List.getElem?_eq_none_iff]
      exact List.drop_eq_nil_iff.1 hturns
    simp only [nextTurn, hend, afterLayers, List.append_nil]
    exact .refl
  | (d, diffId, chainId) :: turns, done, s, s', r, hturns, h => by
    have hturn : (p.turns c)[done.length]? = some (d, diffId, chainId) := by
      rw [← List.head?_drop, hturns]
      rfl
    unfold pullLayers at h
    cases hlayer : pullLayer c.host a p.manifest.reference done.length d diffId chainId s with
    | mk r₁ s₁ =>
      simp only [hlayer] at h
      have hmoves := layer_alone hturn hlayer
      cases r₁ with
      | error e =>
        cases h
        exact hmoves
      | ok layer =>
        refine hmoves.trans ?_
        have hrest : (p.turns c).drop (done ++ [layer]).length = turns := by
          rw [List.length_append, List.length_singleton, ← List.tail_drop, hturns]
          rfl
        cases hlayers : pullLayers c.host a p.manifest.reference (done.length + 1) turns s₁ with
        | mk r₂ s₂ =>
          simp only [hlayers] at h
          have hlayers' : pullLayers c.host a p.manifest.reference (done ++ [layer]).length turns
              s₁ = (r₂, s₂) := by
            rw [List.length_append, List.length_singleton]
            exact hlayers
          have ih := layers_alone turns (done ++ [layer]) hrest hlayers'
          cases r₂ with
          | error e =>
            cases h
            exact ih
          | ok layers =>
            cases h
            rw [afterLayers, List.append_assoc] at ih
            exact ih

/-! ## The whole call -/

/-- What a pull that has ended returns. -/
def Task.result : Task Op → Option (Except Error PulledImage)
  | .pulled _ img => some (.ok img)
  | .failed _ e => some (.error e)
  | _ => none

/-- The config blob. -/
theorem config_alone {m : Manifest} {s : Stores Tree} {blobs : OrdMap String Bytes}
    (h : commitBlob c.host s.blobs m.config m.config.length (c.sha256 m.config) = .ok blobs) :
    Moves c (s, .storingConfig m) ({ s with blobs := blobs }, readConfig c m) := by
  have hdigest : ¬ c.host.sha256 m.config ≠ c.sha256 m.config := not_not.2 rfl
  unfold commitBlob at h
  rw [if_neg (not_not.2 rfl), if_neg hdigest] at h
  split_ifs at h with hthere
  · cases h
    refine .one (a := .probeConfig) ?_
    simp only [move, if_pos hthere]
  · cases h
    refine .head (a := .probeConfig) (y := (s, .movingConfig m)) ?_ (.one (a := .renameConfig) rfl)
    simp only [move, if_neg hthere]

/-- The steps behind the lock. -/
theorem call_alone {s stores : Stores Tree} {a : Answer} {reference : String}
    {r : Except Error PulledImage}
    (h : pullWithOptions c.host a reference s = (r, stores)) :
    ∃ task, Moves c (s, .resolving reference) (stores, task) ∧ task.result = some r := by
  unfold pullWithOptions at h
  cases hparse : a.parseError with
  | some e =>
    simp only [hparse] at h
    cases h
    exact ⟨_, .one (a := .fail _) rfl, rfl⟩
  | none =>
    simp only [hparse] at h
    cases hmanifest : a.manifest with
    | error e =>
      simp only [hmanifest] at h
      cases h
      exact ⟨_, .one (a := .fail _) rfl, rfl⟩
    | ok answer =>
      obtain ⟨layers, manifestDigest, config⟩ := answer
      simp only [hmanifest] at h
      have hresolve : move c s (.resolving reference) (.resolve layers manifestDigest config) =
          some (s, .storingConfig ⟨reference, layers, manifestDigest, config⟩) := rfl
      cases hcommit : commitBlob c.host s.blobs config config.length (c.host.sha256 config) with
      | error e =>
        simp only [hcommit] at h
        cases h
        exact ⟨_, .head hresolve (.one (a := .fail _) rfl), rfl⟩
      | ok blobs =>
        simp only [hcommit] at h
        have hstored := Moves.head hresolve (config_alone hcommit)
        cases hconfig : c.parseConfig config with
        | error e =>
          have hhost : c.host.parseConfig config = .error e := hconfig
          simp only [hhost] at h
          cases h
          refine ⟨_, hstored, ?_⟩
          simp only [readConfig, hconfig, Task.result]
        | ok parsed =>
          have hhost : c.host.parseConfig config = .ok parsed := hconfig
          simp only [hhost] at h
          cases hdiffIds : parseDigests parsed.diffIds with
          | error e =>
            simp only [hdiffIds] at h
            cases h
            refine ⟨_, hstored, ?_⟩
            simp only [readConfig, hconfig, hdiffIds, Task.result]
          | ok diffIds =>
            simp only [hdiffIds] at h
            by_cases hcount : diffIds.length = layers.length
            · rw [if_neg (not_not.2 hcount)] at h
              have hread : readConfig c ⟨reference, layers, manifestDigest, config⟩ =
                  nextTurn c ⟨⟨reference, layers, manifestDigest, config⟩, diffIds, parsed.user,
                    hcount⟩ [] := by
                simp only [readConfig, hconfig, hdiffIds, dif_pos hcount]
              rw [hread] at hstored
              cases hlayers : pullLayers c.host a reference 0
                  (layers.zip (diffIds.zip (chainIds c.host.sha256 diffIds)))
                  ⟨blobs, s.snapshots⟩ with
              | mk r₁ s₁ =>
                simp only [hlayers] at h
                have hmoves := layers_alone (p := ⟨⟨reference, layers, manifestDigest, config⟩,
                  diffIds, parsed.user, hcount⟩) _ [] rfl hlayers
                cases r₁ with
                | error e =>
                  cases h
                  exact ⟨_, hstored.trans hmoves, rfl⟩
                | ok layerDigests =>
                  cases hdigest : parseManifestDigest manifestDigest with
                  | error e =>
                    simp only [hdigest] at h
                    cases h
                    refine ⟨_, hstored.trans hmoves, ?_⟩
                    simp only [afterLayers, finish, hdigest, Task.result]
                  | ok digest =>
                    simp only [hdigest] at h
                    cases h
                    refine ⟨_, hstored.trans hmoves, ?_⟩
                    simp only [afterLayers, finish, hdigest, Task.result]
                    rfl
            · rw [if_pos hcount] at h
              cases h
              refine ⟨_, hstored, ?_⟩
              simp only [readConfig, hconfig, hdiffIds, dif_neg hcount, Task.result]

/-- **A pull that nobody disturbs** is a run of the steps, with the call's result and stores. -/
theorem pull_alone {s : St Tree Op} {a : Answer} {reference : String}
    {r : Except Error PulledImage} {stores : Stores Tree}
    (hlock : ∀ task ∈ s.tasks, task.lock ≠ some reference)
    (h : pullWithOptions c.host a reference s.stores = (r, stores)) :
    ∃ ls task, run (step c) s (.pull reference :: ls) = some ⟨stores, s.tasks ++ [task]⟩ ∧
      task.result = some r := by
  obtain ⟨task, hmoves, hresult⟩ := call_alone h
  have hstart : step c s (.pull reference) =
      some { s with tasks := s.tasks ++ [.resolving reference] } := by
    simp only [step]
    rw [if_pos]
    rw [List.all_eq_true]
    intro task ht
    exact decide_eq_true (hlock task ht)
  have hget : (s.tasks ++ [Task.resolving reference])[s.tasks.length]? =
      some (.resolving reference) := List.getElem?_concat_length
  obtain ⟨ls, hls⟩ := Moves.run (s := ⟨s.stores, s.tasks ++ [.resolving reference]⟩) hmoves hget
  refine ⟨ls, task, ?_, hresult⟩
  simp only [run, hstart]
  rw [hls, List.set_append_right _ _ (Nat.le_refl _), Nat.sub_self]
  rfl

end ContainerdRs.Images.Concurrent

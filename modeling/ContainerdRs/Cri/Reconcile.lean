import ContainerdRs.Cri.Images
import ContainerdRs.Runtime.Crun

/-!
# The restart pass (`reconcile`, `crates/cri/src/server.rs`)

`reconcile` lists the containers, probes each `Running` one with `crun state` and writes what it
finds; whatever it does not re-adopt it hands to `crun delete --force` first.  The pass is the list
of its actions, the deletes and the writes, in order.

crun is a `World`: what `crun state` answers for each id, and whether a delete goes through.

* `reconcile_filter` — what the pass does for one container, by its record and its probe.
* `reconcile_spares_iff` — when only containers that are not alive are deleted.
* `failed_probe_kills` — a probe that fails once.
-/

set_option autoImplicit false

namespace ContainerdRs.Cri

open ContainerState Metadata Runtime.Crun

/-- The container table.  Every handler writes a record under its own id. -/
structure ContainerStore where
  table : Table ContainerRecord
  keyed : ∀ id r, get table ns id = some r → r.id = id

/-- `Store::get` of a container. -/
def ContainerStore.get (t : ContainerStore) (id : String) : Option ContainerRecord :=
  Metadata.get t.table ns id

/-- `Store::list` of the containers. -/
def ContainerStore.list (t : ContainerStore) : List ContainerRecord := Metadata.list t.table ns

/-- `Store::put` of a container under its id. -/
def ContainerStore.put (t : ContainerStore) (r : ContainerRecord) : ContainerStore where
  table := Metadata.put t.table ns r.id r
  keyed := by
    intro id r' h
    rw [get_put] at h
    split at h
    · rename_i hid
      cases h
      exact hid.symm
    · exact t.keyed id r' h

theorem ContainerStore.get_put (t : ContainerStore) (r : ContainerRecord) (id : String) :
    (t.put r).get id = if id = r.id then some r else t.get id :=
  Metadata.get_put

/-- What crun knows. -/
structure World where
  /-- The outcome of `crun state`. -/
  state : String → Except String Output
  /-- A `crun delete --force` of the id goes through. -/
  deletes : String → Bool

/-- `crun state` of a container it does not know. -/
def unknownToCrun : Except String Output := .ok ⟨false, []⟩

/-- `crun delete --force`. -/
def World.delete (w : World) (id : String) : World :=
  if w.deletes id then { w with state := Function.update w.state id unknownToCrun } else w

/-- A step of the pass that leaves a mark. -/
inductive Action where
  | delete (id : String)
  | put (r : ContainerRecord)

/-- The container an action is about. -/
def Action.key : Action → String
  | .delete id => id
  | .put r => r.id

/-- `ReconcileReport`. -/
structure ReconcileReport where
  sandboxes : Nat
  containers : Nat
  readopted : Nat
  reaped : Nat
  markedUnknown : Nat
  deriving DecidableEq, Repr

/-- The counter of the arm that was taken. -/
def ReconcileReport.tally (rep : ReconcileReport) : Option RuntimeState → ReconcileReport
  | some st =>
    if st.isRunning then { rep with readopted := rep.readopted + 1 }
    else { rep with reaped := rep.reaped + 1 }
  | none => { rep with markedUnknown := rep.markedUnknown + 1 }

/-- The answers of the metadata store and the clock during one pass. -/
structure ReconcileEnv where
  sandboxesErr : Option String
  containersErr : Option String
  putErr : String → Option String
  now : String → UInt64

/-- A pass in which the metadata store does not fail. -/
def ReconcileEnv.ok (now : String → UInt64) : ReconcileEnv := ⟨none, none, fun _ => none, now⟩

section Pass

variable (fromSlice : Bytes → Option Json) (crunRoot : String)

/-- The answers that `reconcileRecord` and `reconcileEffects` look at. -/
def probeEnv (now : UInt64) (out : Except String Output) : Env :=
  { Env.quiet with probe := known (probe fromSlice out), now := now }

/-- The delete of one turn of the loop, if it makes one. -/
def reap (now : UInt64) (out : Except String Output) (id : String) : List Action :=
  (reconcileEffects (probeEnv fromSlice now out)).map fun _ => .delete id

/-- The record one turn of the loop stores. -/
def settled (now : UInt64) (out : Except String Output) (c : ContainerRecord) : ContainerRecord :=
  reconcileRecord ⟨c.id, crunRoot, ""⟩ (probeEnv fromSlice now out) c

/-- `reconcile`, the loop: its actions, and the report. -/
def reconcileLoop (env : ReconcileEnv) :
    List ContainerRecord → World → ReconcileReport → List Action × Except String ReconcileReport
  | [], _, rep => ([], .ok rep)
  | c :: cs, w, rep =>
    if c.state ≠ running then reconcileLoop env cs w rep
    else
      let out := w.state c.id
      let reaped := reap fromSlice (env.now c.id) out c.id
      match env.putErr c.id with
      | some e => (reaped, .error e)
      | none =>
        -- what was deleted is gone for the probes that follow
        let w' := if reaped = [] then w else w.delete c.id
        let rest := reconcileLoop env cs w' (rep.tally (known (probe fromSlice out)))
        (reaped ++ .put (settled fromSlice crunRoot (env.now c.id) out c) :: rest.1, rest.2)

/-- `reconcile`. -/
def reconcile (env : ReconcileEnv) (sandboxes : Table SandboxRecord) (t : ContainerStore)
    (w : World) : List Action × Except String ReconcileReport :=
  match env.sandboxesErr, env.containersErr with
  | some e, _ => ([], .error e)
  | none, some e => ([], .error e)
  | none, none =>
    reconcileLoop fromSlice crunRoot env t.list w
      ⟨(list sandboxes ns).length, t.list.length, 0, 0, 0⟩

end Pass

/-! ## One container of the pass -/

section Loop

variable {fromSlice : Bytes → Option Json} {crunRoot : String} {env : ReconcileEnv}

theorem World.delete_state (w : World) (id id' : String) :
    (w.delete id).state id' = if id' = id ∧ w.deletes id then unknownToCrun else w.state id' := by
  unfold World.delete
  by_cases hd : w.deletes id = true
  · simp only [hd, if_true, and_true, Function.update_apply]
  · simp [hd]

@[simp] theorem World.delete_deletes (w : World) (id : String) :
    (w.delete id).deletes = w.deletes := by
  unfold World.delete
  split <;> rfl

/-- Records that are listed together have different ids. -/
theorem ContainerStore.list_pairwise (t : ContainerStore) :
    t.list.Pairwise fun a b => a.id ≠ b.id := by
  have hkey : ∀ e ∈ t.table.entries.filter (fun e => startsWith e.1 (ns ++ "/")),
      e.1 = key ns e.2.id := by
    intro e he
    obtain ⟨hmem, hns⟩ := List.mem_filter.1 he
    obtain ⟨id, hid⟩ := startsWith_iff.1 hns
    have hget : Metadata.get t.table ns id = some e.2 :=
      OrdMap.get?_eq_some.2 (by rw [← hid]; exact hmem)
    rw [t.keyed id e.2 hget]
    exact hid
  refine List.pairwise_map.2 ?_
  refine (t.table.sorted.filter _).imp_of_mem ?_
  intro a b ha hb hlt hid
  have hlt' : a.1 < b.1 := hlt
  rw [hkey a ha, hkey b hb, hid] at hlt'
  exact lt_irrefl _ hlt'

/-- The record with an id, from the list. -/
theorem ContainerStore.find_list (t : ContainerStore) (id : String) :
    t.list.find? (fun c => c.id = id) = t.get id := by
  cases hget : t.get id with
  | none =>
    rw [List.find?_eq_none]
    intro c hc hid
    obtain ⟨id', hget'⟩ := mem_list.1 hc
    have hc' := t.keyed id' c hget'
    simp only [decide_eq_true_eq] at hid
    rw [← hid, hc'] at hget
    exact Option.some_ne_none c (hget'.symm.trans hget)
  | some c =>
    refine list_find?.2 ⟨id, hget, by simp [t.keyed id c hget], ?_⟩
    intro id' v' hv' hid
    simp only [decide_eq_true_eq] at hid
    rw [← t.keyed id' v' hv', hid]

/-- The delete of a turn does not reach the containers behind it. -/
theorem reap_state_ne {w : World} {reaped : List Action} {id id' : String} (h : id' ≠ id) :
    (if reaped = [] then w else w.delete id).state id' = w.state id' := by
  split
  · rfl
  · rw [World.delete_state, if_neg fun hd => h hd.1]

/-- What the pass does for one container whose record is `record`. -/
def turn (fromSlice : Bytes → Option Json) (crunRoot : String) (now : String → UInt64)
    (out : Except String Output) : Option ContainerRecord → List Action
  | some c =>
    if c.state = running then
      reap fromSlice (now c.id) out c.id ++ [.put (settled fromSlice crunRoot (now c.id) out c)]
    else []
  | none => []

@[simp] theorem settled_id (now : UInt64) (out : Except String Output) (c : ContainerRecord) :
    (settled fromSlice crunRoot now out c).id = c.id := by
  unfold settled reconcileRecord
  split
  · split <;> rfl
  · rfl

theorem filter_reap (now : UInt64) (out : Except String Output) (id id' : String) :
    (reap fromSlice now out id).filter (fun a => a.key = id') =
      if id = id' then reap fromSlice now out id else [] := by
  unfold reap
  split
  · rename_i h
    simp [Action.key, h]
  · rename_i h
    simp [Action.key, h]

/-- The actions on one id, out of a pass without metadata errors. -/
theorem reconcileLoop_filter (hput : ∀ id, env.putErr id = none) (id : String) :
    ∀ (cs : List ContainerRecord) (w : World) (rep : ReconcileReport),
      cs.Pairwise (fun a b => a.id ≠ b.id) →
      (reconcileLoop fromSlice crunRoot env cs w rep).1.filter (fun a => a.key = id) =
        turn fromSlice crunRoot env.now (w.state id) (cs.find? fun c => c.id = id)
  | [], _, _, _ => rfl
  | c :: cs, w, rep, hcs => by
    obtain ⟨hne, hcs⟩ := List.pairwise_cons.1 hcs
    rw [reconcileLoop]
    by_cases hid : c.id = id
    · -- nothing further down is about this id
      have hnone : cs.find? (fun c => c.id = id) = none := by
        rw [List.find?_eq_none]
        intro c' hc'
        simpa [← hid] using (hne c' hc').symm
      have hfind : (c :: cs).find? (fun c => c.id = id) = some c := by simp [hid]
      rw [hfind]
      split
      · rename_i hstate
        rw [reconcileLoop_filter hput id cs w rep hcs, hnone]
        exact (if_neg hstate).symm
      · rename_i hstate
        rw [hput]
        dsimp only
        rw [List.filter_append, filter_reap, if_pos hid, List.filter_cons,
          if_pos (by simpa [Action.key] using hid), reconcileLoop_filter hput id cs _ _ hcs, hnone]
        subst hid
        exact (if_pos (not_not.1 hstate)).symm
    · have hfind : (c :: cs).find? (fun c => c.id = id) = cs.find? fun c => c.id = id := by
        simp [hid]
      rw [hfind]
      split
      · exact reconcileLoop_filter hput id cs w rep hcs
      · rw [hput]
        dsimp only
        rw [List.filter_append, filter_reap, if_neg hid, List.filter_cons,
          if_neg (by simpa [Action.key] using hid), reconcileLoop_filter hput id cs _ _ hcs,
          reap_state_ne (Ne.symm hid)]
        rfl

/-- What the pass does for one container, by its record and its probe. -/
theorem reconcile_filter (now : String → UInt64) (sandboxes : Table SandboxRecord)
    (t : ContainerStore) (w : World) (id : String) :
    (reconcile fromSlice crunRoot (.ok now) sandboxes t w).1.filter (fun a => a.key = id) =
      turn fromSlice crunRoot now (w.state id) (t.get id) := by
  have hput : ∀ id, (ReconcileEnv.ok now).putErr id = none := fun _ => rfl
  rw [← t.find_list]
  exact reconcileLoop_filter hput id t.list w _ t.list_pairwise

/-- The `Running` records the loop comes to: it returns at the first write that fails. -/
def reached (putErr : String → Option String) : List ContainerRecord → List ContainerRecord
  | [] => []
  | c :: cs =>
    if c.state ≠ running then reached putErr cs
    else
      match putErr c.id with
      | some _ => [c]
      | none => c :: reached putErr cs

theorem mem_reached {putErr : String → Option String} : ∀ {cs : List ContainerRecord}
    {c : ContainerRecord}, c ∈ reached putErr cs → c ∈ cs
  | [], _, h => by cases h
  | c' :: cs, c, h => by
    rw [reached] at h
    split at h
    · exact List.mem_cons_of_mem _ (mem_reached h)
    · split at h
      · rw [List.mem_singleton.1 h]
        exact List.mem_cons_self
      · rcases List.mem_cons.1 h with rfl | h
        · exact List.mem_cons_self
        · exact List.mem_cons_of_mem _ (mem_reached h)

theorem delete_mem_reap {now : UInt64} {out : Except String Output} {id id' : String} :
    .delete id ∈ reap fromSlice now out id' ↔ id' = id ∧ reap fromSlice now out id' ≠ [] := by
  simp only [reap, List.mem_map, Action.delete.injEq, ne_eq, List.map_eq_nil_iff]
  constructor
  · rintro ⟨e, he, rfl⟩
    exact ⟨rfl, List.ne_nil_of_mem he⟩
  · rintro ⟨rfl, h⟩
    obtain ⟨e, he⟩ := List.exists_mem_of_ne_nil _ h
    exact ⟨e, he, rfl⟩

/-- The containers the pass deletes. -/
theorem delete_mem_reconcileLoop {id : String} :
    ∀ (cs : List ContainerRecord) (w : World) (rep : ReconcileReport),
      cs.Pairwise (fun a b => a.id ≠ b.id) →
      (.delete id ∈ (reconcileLoop fromSlice crunRoot env cs w rep).1 ↔
        ∃ c ∈ reached env.putErr cs, c.id = id ∧
          reap fromSlice (env.now c.id) (w.state c.id) c.id ≠ [])
  | [], _, _, _ => by simp [reconcileLoop, reached]
  | c :: cs, w, rep, hcs => by
    obtain ⟨hne, hcs⟩ := List.pairwise_cons.1 hcs
    rw [reconcileLoop, reached]
    split
    · exact delete_mem_reconcileLoop cs w rep hcs
    · split
      · simp only [List.mem_singleton, exists_eq_left]
        exact delete_mem_reap
      · -- the turns that follow still see the probes of the beginning
        have hrest : ∀ w' : World, (∀ c' ∈ cs, w'.state c'.id = w.state c'.id) →
            ((∃ c' ∈ reached env.putErr cs, c'.id = id ∧
                reap fromSlice (env.now c'.id) (w'.state c'.id) c'.id ≠ []) ↔
              ∃ c' ∈ reached env.putErr cs, c'.id = id ∧
                reap fromSlice (env.now c'.id) (w.state c'.id) c'.id ≠ []) := by
          intro w' hw
          refine exists_congr fun c' => and_congr_right fun hc' => ?_
          rw [hw c' (mem_reached hc')]
        dsimp only
        rw [List.mem_append, List.mem_cons, delete_mem_reconcileLoop cs _ _ hcs,
          hrest _ fun c' hc' => reap_state_ne (hne c' hc').symm, delete_mem_reap]
        simp only [reduceCtorEq, false_or, List.mem_cons, exists_eq_or_imp]

end Loop

/-! ## Live containers -/

section Alive

variable {fromSlice : Bytes → Option Json} {crunRoot : String} {env : ReconcileEnv}
  {sandboxes : Table SandboxRecord} {t : ContainerStore} {w : World} {alive : String → Prop}

/-- Only a container that a probe shows running is left alone. -/
theorem reap_eq_nil {now : UInt64} {out : Except String Output} {id : String} :
    reap fromSlice now out id = [] ↔
      ∃ st, known (probe fromSlice out) = some st ∧ st.isRunning = true := by
  simp only [reap, List.map_eq_nil_iff, reconcileEffects, probeEnv]
  cases known (probe fromSlice out) with
  | none => simp
  | some st => cases h : st.isRunning <;> simp [h]

/-- Everything else is deleted. -/
theorem reap_of_dead {now : UInt64} {out : Except String Output} {id : String}
    (h : ∀ st, known (probe fromSlice out) = some st → st.isRunning = false) :
    reap fromSlice now out id = [.delete id] := by
  simp only [reap, reconcileEffects, probeEnv]
  cases hk : known (probe fromSlice out) with
  | none => rfl
  | some st => simp [h st hk]

/-- What is assumed of crun: when `crun state` succeeds, its status is `running` exactly if the
    init process is alive. -/
def Faithful (fromSlice : Bytes → Option Json) (w : World) (alive : String → Prop) : Prop :=
  ∀ id st, known (probe fromSlice (w.state id)) = some st → (st.isRunning = true ↔ alive id)

/-- The `Running` records the pass comes to. -/
def visited (env : ReconcileEnv) (t : ContainerStore) : List ContainerRecord :=
  match env.sandboxesErr, env.containersErr with
  | none, none => reached env.putErr t.list
  | _, _ => []

theorem delete_mem_reconcile {id : String} :
    .delete id ∈ (reconcile fromSlice crunRoot env sandboxes t w).1 ↔
      ∃ c ∈ visited env t, c.id = id ∧
        reap fromSlice (env.now c.id) (w.state c.id) c.id ≠ [] := by
  unfold reconcile visited
  cases env.sandboxesErr with
  | some e => simp
  | none =>
    cases env.containersErr with
    | some e => simp
    | none => exact delete_mem_reconcileLoop _ _ _ t.list_pairwise

/-- **Reconcile and live containers.**  The pass issues `crun delete --force` only for containers
    that are not alive exactly if, for every live container it comes to, `crun state` was spawned,
    succeeded and printed state JSON. -/
theorem reconcile_spares_iff (hcrun : Faithful fromSlice w alive) :
    (∀ id, .delete id ∈ (reconcile fromSlice crunRoot env sandboxes t w).1 → ¬ alive id) ↔
      ∀ c ∈ visited env t, alive c.id →
        ∃ o, w.state c.id = .ok o ∧ o.success = true ∧
          (parseState fromSlice o.stdout).isSome := by
  constructor
  · intro h c hc halive
    by_contra hprobe
    refine h c.id (delete_mem_reconcile.2 ⟨c, hc, rfl, ?_⟩) halive
    intro hnil
    obtain ⟨st, hst, -⟩ := reap_eq_nil.1 hnil
    obtain ⟨o, ho, hsuccess, hparse⟩ := probe_eq_some.1 hst
    exact hprobe ⟨o, ho, hsuccess, by rw [hparse]; rfl⟩
  · intro h id hdel halive
    obtain ⟨c, hc, rfl, hreap⟩ := delete_mem_reconcile.1 hdel
    obtain ⟨o, ho, hsuccess, hparse⟩ := h c hc halive
    obtain ⟨st, hst⟩ := Option.isSome_iff_exists.1 hparse
    have hprobe : known (probe fromSlice (w.state c.id)) = some st :=
      probe_eq_some.2 ⟨o, ho, hsuccess, hst⟩
    exact hreap (reap_eq_nil.2 ⟨st, hprobe, (hcrun c.id st hprobe).2 halive⟩)

end Alive

/-- A store with one container that runs. -/
def oneRunning : ContainerStore :=
  ContainerStore.put ⟨OrdMap.empty, by simp⟩
    { id := "c1", sandboxId := "s1", state := running, logPath := "", startedAt := some 1,
      finishedAt := none, exitCode := none, reason := none, resources := none,
      crunRoot := some "/run/crun", bundleDir := some "/run/c1", pid := some 4242, stdin := false }

/-- What `crun state` prints for it, running and stopped. -/
def runningText : Bytes := "\x7b\"status\":\"running\",\"pid\":4242\x7d".toUTF8.data.toList

def stoppedText : Bytes := "\x7b\"status\":\"stopped\",\"pid\":0\x7d".toUTF8.data.toList

/-- `serde_json::from_slice` on these texts. -/
def textSlice (b : Bytes) : Option Json :=
  if b = runningText then some (.obj [("status", .str "running"), ("pid", .int 4242)])
  else if b = stoppedText then some (.obj [("status", .str "stopped"), ("pid", .int 0)])
  else none

/-- crun answers for "c1" with `out` and knows no other container; deletes go through. -/
def oneWorld (out : Except String Output) : World where
  state := fun id => if id = "c1" then out else unknownToCrun
  deletes := fun _ => true

theorem oneWorld_known {out : Except String Output} {id : String} {st : RuntimeState}
    (h : known (probe textSlice ((oneWorld out).state id)) = some st) :
    id = "c1" ∧ known (probe textSlice out) = some st := by
  by_cases hid : id = "c1"
  · refine ⟨hid, ?_⟩
    simpa [oneWorld, hid] using h
  · simp [oneWorld, hid, unknownToCrun, probe, known] at h

theorem known_running :
    known (probe textSlice (.ok ⟨true, runningText⟩)) = some ⟨"running", some 4242⟩ := by
  have hslice : textSlice runningText =
      some (.obj [("status", .str "running"), ("pid", .int 4242)]) := if_pos rfl
  simp only [probe, known, Bool.not_true, Bool.false_eq_true, if_false, parseState, hslice]
  rfl

/-- A pass that finds its container running leaves it alone. -/
theorem running_container_spared :
    Faithful textSlice (oneWorld (.ok ⟨true, runningText⟩)) (· = "c1") ∧
    ∀ id, .delete id ∈ (reconcile textSlice "/run/crun" (.ok fun _ => 7) OrdMap.empty oneRunning
      (oneWorld (.ok ⟨true, runningText⟩))).1 → ¬ id = "c1" := by
  have hcrun : Faithful textSlice (oneWorld (.ok ⟨true, runningText⟩)) (· = "c1") := by
    intro id st hst
    obtain ⟨hid, hrunning⟩ := oneWorld_known hst
    rw [known_running, Option.some.injEq] at hrunning
    subst hrunning
    exact iff_of_true rfl hid
  refine ⟨hcrun, (reconcile_spares_iff hcrun).2 ?_⟩
  rintro c - (hc : c.id = "c1")
  obtain ⟨o, ho, hs, hp⟩ := probe_eq_some.1 known_running
  exact ⟨o, by rw [hc]; exact ho, hs, by rw [hp]; rfl⟩

/-- `crun state` fails once for a container that is alive: it is killed. -/
theorem failed_probe_kills :
    ¬ ∀ (fromSlice : Bytes → Option Json) (env : ReconcileEnv) (t : ContainerStore) (w : World)
        (alive : String → Prop), Faithful fromSlice w alive →
      ∀ id, .delete id ∈ (reconcile fromSlice "/run/crun" env OrdMap.empty t w).1 → ¬ alive id := by
  intro h
  have hcrun : Faithful textSlice (oneWorld (.ok ⟨false, []⟩)) (· = "c1") := by
    intro id st hst
    obtain ⟨-, hst⟩ := oneWorld_known hst
    cases hst
  exact h textSlice (.ok fun _ => 7) oneRunning _ _ hcrun "c1" List.mem_cons_self rfl

end ContainerdRs.Cri

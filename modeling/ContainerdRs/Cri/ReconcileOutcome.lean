import ContainerdRs.Cri.ReconcileCrash

/-!
# What a restart pass leaves behind

`reconcile` over any records and any containers of crun, with a metadata store that does not fail:
the record of every container afterwards, the report, and a second pass.

* `after_get` — the record of one container after the pass.
* `reconcileLoop_report` — the report, as a tally over the `Running` records.
* `settled_settled` — a record that was re-adopted is re-adopted as it is.
* `reconcile_outcome` — the pass, and the pass that follows it.
-/

set_option autoImplicit false

namespace ContainerdRs.Cri

open ContainerState Metadata Runtime.Crun Restart

/-- What crun knows of the containers: `crun state` fails for those it does not know, and for the
    others prints their state. -/
structure Tells (fromSlice : Bytes → Option Json) (w : World)
    (crun : String → Option RuntimeState) : Prop where
  of_known : ∀ id st, crun id = some st →
    ∃ o, w.state id = .ok o ∧ o.success = true ∧ parseState fromSlice o.stdout = some st
  of_unknown : ∀ id, crun id = none → ∀ o, w.state id = .ok o → o.success = false

/-- What becomes of a record that was `Running`, by what crun knows of the container. -/
structure Outcome (crunRoot : String) (now : UInt64) (st : Option RuntimeState)
    (c c' : ContainerRecord) : Prop where
  readopted : ∀ s, st = some s → s.isRunning = true →
    c' = { c with crunRoot := some crunRoot, pid := s.pid.or c.pid }
  reaped : ∀ s, st = some s → s.isRunning = false →
    c' = { c with
      state := exited
      finishedAt := c.finishedAt.or (some now)
      exitCode := c.exitCode.or (some (-1))
      reason := if c.exitCode = none then some "Unknown" else c.reason }
  markedUnknown : st = none → c' = { c with state := unknown }

/-- The records after a pass. -/
structure Recovered (crunRoot : String) (now : String → UInt64)
    (crun : String → Option RuntimeState) (t t' : ContainerStore) : Prop where
  absent : ∀ id, t.get id = none → t'.get id = none
  others : ∀ id c, t.get id = some c → c.state ≠ running → t'.get id = some c
  running : ∀ id c, t.get id = some c → c.state = running →
    ∃ c', t'.get id = some c' ∧ Outcome crunRoot (now id) (crun id) c c'

/-- A `Running` record whose container crun describes by `p`. -/
def runningWith (crun : String → Option RuntimeState) (p : Option RuntimeState → Bool)
    (c : ContainerRecord) : Bool :=
  decide (c.state = running) && p (crun c.id)

/-- The report counts every `Running` record, each under its outcome. -/
structure Counts (crun : String → Option RuntimeState) (cs : List ContainerRecord)
    (rep : ReconcileReport) : Prop where
  readopted : rep.readopted = cs.countP (runningWith crun fun st => st.any (·.isRunning))
  reaped : rep.reaped = cs.countP (runningWith crun fun st => st.any fun s => !s.isRunning)
  markedUnknown : rep.markedUnknown = cs.countP (runningWith crun Option.isNone)
  total : rep.readopted + rep.reaped + rep.markedUnknown =
    (cs.filter fun c => c.state = running).length

section

variable (fromSlice : Bytes → Option Json) (crunRoot : String) (now : String → UInt64)
  (sandboxes : Table SandboxRecord)

/-- The records when the pass is over. -/
def after (t : ContainerStore) (w : World) : ContainerStore :=
  ((reconcilePass fromSlice crunRoot now sandboxes).complete ⟨w, t⟩).store

/-- What crun knows after the pass: the containers the pass deletes are gone, the others are as
    they were. -/
structure LeftBehind (t : ContainerStore) (w : World) (crun crun' : String → Option RuntimeState) :
    Prop where
  deleted : ∀ id,
    .delete id ∈ (reconcile fromSlice crunRoot (.ok now) sandboxes t w).1 → crun' id = none
  others : ∀ id,
    .delete id ∉ (reconcile fromSlice crunRoot (.ok now) sandboxes t w).1 → crun' id = crun id

end

section Outcome

variable {fromSlice : Bytes → Option Json} {crunRoot : String} {env : ReconcileEnv}
  {now : String → UInt64} {sandboxes : Table SandboxRecord} {t : ContainerStore} {w : World}
  {crun : String → Option RuntimeState}

theorem Tells.known_probe (h : Tells fromSlice w crun) (id : String) :
    known (probe fromSlice (w.state id)) = crun id := by
  cases hid : crun id with
  | some st => exact probe_eq_some.2 (h.of_known id st hid)
  | none =>
    rw [Option.eq_none_iff_forall_ne_some]
    intro st hst
    obtain ⟨o, ho, hsuccess, -⟩ := probe_eq_some.1 hst
    exact Bool.false_ne_true ((h.of_unknown id hid o ho).symm.trans hsuccess)

/-! ## The records -/

/-- The record of one container after the pass. -/
theorem after_get (id : String) :
    (after fromSlice crunRoot now sandboxes t w).get id =
      (t.get id).map fun c =>
        if c.state = running then settled fromSlice crunRoot (now c.id) (w.state id) c else c :=
  calc (after fromSlice crunRoot now sandboxes t w).get id
      = ((reconcilePass fromSlice crunRoot now sandboxes).settle
          (Host.cell ⟨w, t⟩ id)).record :=
        congrArg Cell.record
          (Pass.cell_complete (reconcilePass fromSlice crunRoot now sandboxes) ⟨w, t⟩ id)
    _ = _ := settle_record _

theorem settled_outcome (h : Tells fromSlice w crun) (id : String) (time : UInt64)
    (c : ContainerRecord) :
    Outcome crunRoot time (crun id) c (settled fromSlice crunRoot time (w.state id) c) := by
  have hprobe := h.known_probe id
  constructor
  · intro s hs hrun
    simp only [settled, reconcileRecord, probeEnv, hprobe, hs, hrun, if_true]
    cases s.pid <;> rfl
  · intro s hs hrun
    simp only [settled, reconcileRecord, probeEnv, hprobe, hs, hrun, Bool.false_eq_true, if_false]
    cases c.finishedAt <;> cases c.exitCode <;> rfl
  · intro hnone
    simp only [settled, reconcileRecord, probeEnv, hprobe, hnone]

theorem recovered_after (h : Tells fromSlice w crun) :
    Recovered crunRoot now crun t (after fromSlice crunRoot now sandboxes t w) := by
  constructor
  · intro id hget
    rw [after_get, hget]
    rfl
  · intro id c hget hstate
    rw [after_get, hget]
    exact congrArg some (if_neg hstate)
  · intro id c hget hstate
    refine ⟨settled fromSlice crunRoot (now id) (w.state id) c, ?_, settled_outcome h id _ c⟩
    rw [after_get, hget]
    apply congrArg some
    dsimp only
    rw [if_pos hstate, t.keyed id c hget]

/-! ## The report -/

/-- The report after the turns for some `Running` records. -/
def ReconcileReport.tallyAll (crun : String → Option RuntimeState) (rep : ReconcileReport)
    (cs : List ContainerRecord) : ReconcileReport :=
  cs.foldl (fun rep c => rep.tally (crun c.id)) rep

theorem reconcileLoop_report (hput : ∀ id, env.putErr id = none) :
    ∀ (cs : List ContainerRecord) (w : World) (rep : ReconcileReport),
      cs.Pairwise (fun a b => a.id ≠ b.id) →
      (∀ c ∈ cs, known (probe fromSlice (w.state c.id)) = crun c.id) →
      (reconcileLoop fromSlice crunRoot env cs w rep).2 =
        .ok (rep.tallyAll crun (cs.filter fun c => c.state = running))
  | [], _, _, _, _ => rfl
  | c :: cs, w, rep, hcs, hw => by
    obtain ⟨hne, hcs⟩ := List.pairwise_cons.1 hcs
    obtain ⟨hc, hw⟩ := List.forall_mem_cons.1 hw
    rw [reconcileLoop]
    split
    · rename_i hstate
      rw [List.filter_cons_of_neg (by simpa using hstate)]
      exact reconcileLoop_report hput cs w rep hcs hw
    · rename_i hstate
      rw [List.filter_cons_of_pos (by simpa using hstate), hput]
      dsimp only
      rw [hc]
      apply reconcileLoop_report hput cs _ _ hcs
      intro c' hc'
      rw [reap_state_ne (hne c' hc').symm]
      exact hw c' hc'

/-- One turn counts its record once. -/
theorem tally_counts (rep : ReconcileReport) (st : Option RuntimeState) :
    (rep.tally st).readopted = rep.readopted + (st.any (·.isRunning)).toNat ∧
    (rep.tally st).reaped = rep.reaped + (st.any fun s => !s.isRunning).toNat ∧
    (rep.tally st).markedUnknown = rep.markedUnknown + st.isNone.toNat := by
  cases st with
  | none => exact ⟨rfl, rfl, rfl⟩
  | some s => cases h : s.isRunning <;> simp [ReconcileReport.tally, h]

theorem tallyAll_counts (crun : String → Option RuntimeState) (cs : List ContainerRecord)
    (rep : ReconcileReport) :
    (rep.tallyAll crun cs).readopted =
        rep.readopted + cs.countP (fun c => (crun c.id).any (·.isRunning)) ∧
    (rep.tallyAll crun cs).reaped =
        rep.reaped + cs.countP (fun c => (crun c.id).any fun s => !s.isRunning) ∧
    (rep.tallyAll crun cs).markedUnknown =
        rep.markedUnknown + cs.countP (fun c => (crun c.id).isNone) := by
  induction cs generalizing rep with
  | nil => exact ⟨rfl, rfl, rfl⟩
  | cons c cs ih =>
    obtain ⟨hreadopted, hreaped, hunknown⟩ := ih (rep.tally (crun c.id))
    obtain ⟨hturn, hturn', hturn''⟩ := tally_counts rep (crun c.id)
    have htoNat : ∀ b : Bool, b.toNat = if b then 1 else 0 := by decide
    refine ⟨hreadopted.trans ?_, hreaped.trans ?_, hunknown.trans ?_⟩
    · rw [hturn, List.countP_cons, htoNat]
      omega
    · rw [hturn', List.countP_cons, htoNat]
      omega
    · rw [hturn'', List.countP_cons, htoNat]
      omega

/-- Every `Running` record is counted, once. -/
theorem tallyAll_total (cs : List ContainerRecord) (rep : ReconcileReport) :
    (rep.tallyAll crun cs).readopted + (rep.tallyAll crun cs).reaped +
        (rep.tallyAll crun cs).markedUnknown =
      rep.readopted + rep.reaped + rep.markedUnknown + cs.length := by
  induction cs generalizing rep with
  | nil => rfl
  | cons c cs ih =>
    have hturn : (rep.tally (crun c.id)).readopted + (rep.tally (crun c.id)).reaped +
        (rep.tally (crun c.id)).markedUnknown =
          rep.readopted + rep.reaped + rep.markedUnknown + 1 := by
      unfold ReconcileReport.tally
      split
      · split <;> dsimp only <;> omega
      · rfl
    have hrest := ih (rep.tally (crun c.id))
    rw [List.length_cons]
    exact hrest.trans (by omega)

theorem reconcile_report (h : Tells fromSlice w crun) :
    ∃ rep, (reconcile fromSlice crunRoot (.ok now) sandboxes t w).2 = .ok rep ∧
      Counts crun t.list rep := by
  have hput : ∀ id, (ReconcileEnv.ok now).putErr id = none := fun _ => rfl
  have hrunning : ∀ p : Option RuntimeState → Bool,
      (t.list.filter fun c => c.state = running).countP (fun c => p (crun c.id)) =
        t.list.countP (runningWith crun p) := by
    intro p
    rw [List.countP_filter]
    refine List.countP_congr fun c _ => ?_
    simp [runningWith, and_comm]
  refine ⟨_, reconcileLoop_report hput t.list w _ t.list_pairwise fun c _ => h.known_probe c.id, ?_⟩
  obtain ⟨hreadopted, hreaped, hunknown⟩ := tallyAll_counts crun
    (t.list.filter fun c => c.state = running)
    ⟨(list sandboxes ns).length, t.list.length, 0, 0, 0⟩
  refine ⟨?_, ?_, ?_, ?_⟩
  · rw [hreadopted, Nat.zero_add]
    exact hrunning _
  · rw [hreaped, Nat.zero_add]
    exact hrunning _
  · rw [hunknown, Nat.zero_add]
    exact hrunning _
  · rw [tallyAll_total]
    exact Nat.zero_add _

/-! ## The second pass -/

/-- A container that crun reports running is not deleted. -/
theorem not_deleted_of_running (h : Tells fromSlice w crun) {id : String} {s : RuntimeState}
    (hs : crun id = some s) (hrun : s.isRunning = true) :
    .delete id ∉ (reconcile fromSlice crunRoot env sandboxes t w).1 := by
  intro hdel
  obtain ⟨c, -, rfl, hreap⟩ := delete_mem_reconcile.1 hdel
  exact hreap (reap_eq_nil.2 ⟨s, (h.known_probe c.id).trans hs, hrun⟩)

/-- A record that the pass leaves `Running` was re-adopted. -/
theorem Outcome.running_again {time : UInt64} {st : Option RuntimeState} {c c' : ContainerRecord}
    (h : Outcome crunRoot time st c c') (hrunning : c'.state = running) :
    ∃ s, st = some s ∧ s.isRunning = true := by
  cases st with
  | none =>
    rw [h.markedUnknown rfl] at hrunning
    cases hrunning
  | some s =>
    refine ⟨s, rfl, ?_⟩
    by_contra hdead
    rw [h.reaped s rfl (by simpa using hdead)] at hrunning
    cases hrunning

/-- A record that was re-adopted is re-adopted as it is. -/
theorem Outcome.again {time time' : UInt64} {st : Option RuntimeState} {c c' c'' : ContainerRecord}
    {s : RuntimeState} (hs : st = some s) (hrun : s.isRunning = true)
    (h : Outcome crunRoot time st c c') (h' : Outcome crunRoot time' st c' c'') : c'' = c' := by
  rw [h'.readopted s hs hrun, h.readopted s hs hrun]
  cases s.pid <;> rfl

theorem after_after {now' : String → UInt64} {sandboxes' : Table SandboxRecord} {w' : World}
    {crun' : String → Option RuntimeState} (h : Tells fromSlice w crun)
    (h' : Tells fromSlice w' crun')
    (hleft : LeftBehind fromSlice crunRoot now sandboxes t w crun crun') (id : String) :
    (after fromSlice crunRoot now' sandboxes' (after fromSlice crunRoot now sandboxes t w) w').get
        id =
      (after fromSlice crunRoot now sandboxes t w).get id := by
  have hfirst : Recovered crunRoot now crun t (after fromSlice crunRoot now sandboxes t w) :=
    recovered_after h
  have hsecond : Recovered crunRoot now' crun' (after fromSlice crunRoot now sandboxes t w)
      (after fromSlice crunRoot now' sandboxes' (after fromSlice crunRoot now sandboxes t w) w') :=
    recovered_after h'
  cases hget' : (after fromSlice crunRoot now sandboxes t w).get id with
  | none => exact hsecond.absent id hget'
  | some c' =>
    by_cases hrunning' : c'.state = running
    · -- what is still `Running` was so before, and crun said so
      cases hget : t.get id with
      | none =>
        rw [hfirst.absent id hget] at hget'
        cases hget'
      | some c =>
        have hrunning : c.state = running := by
          by_contra hstate
          rw [hfirst.others id c hget hstate, Option.some.injEq] at hget'
          exact hstate (hget' ▸ hrunning')
        obtain ⟨r, hr, houtcome⟩ := hfirst.running id c hget hrunning
        obtain rfl : r = c' := Option.some.inj (hr.symm.trans hget')
        obtain ⟨s, hs, hrun⟩ := houtcome.running_again hrunning'
        have hsame : crun' id = crun id := hleft.others id (not_deleted_of_running h hs hrun)
        obtain ⟨r', hr', houtcome'⟩ := hsecond.running id r hget' hrunning'
        rw [hsame] at houtcome'
        rw [hr', houtcome.again hs hrun houtcome']
    · exact hsecond.others id c' hget' hrunning'

/-- **The outcome of a pass.**  Whatever crun knows of the containers, a pass completes; it changes
    the `Running` records only, each by what crun says of its container, and counts each of them
    once.  A second pass, over what the first one left in crun, changes nothing. -/
theorem reconcile_outcome (h : Tells fromSlice w crun) :
    (∃ rep, (reconcile fromSlice crunRoot (.ok now) sandboxes t w).2 = .ok rep ∧
      Counts crun t.list rep) ∧
    Recovered crunRoot now crun t (after fromSlice crunRoot now sandboxes t w) ∧
    ∀ (now' : String → UInt64) (sandboxes' : Table SandboxRecord) (w' : World)
      (crun' : String → Option RuntimeState), Tells fromSlice w' crun' →
      LeftBehind fromSlice crunRoot now sandboxes t w crun crun' → ∀ id,
      (after fromSlice crunRoot now' sandboxes'
          (after fromSlice crunRoot now sandboxes t w) w').get id =
        (after fromSlice crunRoot now sandboxes t w).get id :=
  ⟨reconcile_report h, recovered_after h, fun _ _ _ _ h' hleft id => after_after h h' hleft id⟩

end Outcome

/-- What crun knows when it holds one container that has stopped. -/
def stoppedCrun (id : String) : Option RuntimeState :=
  if id = "c1" then some ⟨"stopped", none⟩ else none

theorem tells_stopped : Tells textSlice (oneWorld (.ok ⟨true, stoppedText⟩)) stoppedCrun := by
  constructor
  · intro id st hst
    simp only [stoppedCrun, Option.ite_none_right_eq_some, Option.some.injEq] at hst
    obtain ⟨hid, rfl⟩ := hst
    refine ⟨⟨true, stoppedText⟩, if_pos hid, rfl, ?_⟩
    have hslice : textSlice stoppedText =
        some (.obj [("status", .str "stopped"), ("pid", .int 0)]) :=
      (if_neg (by decide)).trans (if_pos rfl)
    simp only [parseState, hslice]
    rfl
  · intro id hid o ho
    have hne : id ≠ "c1" := fun hc => by simp [stoppedCrun, hc] at hid
    simp only [oneWorld, if_neg hne, unknownToCrun, Except.ok.injEq] at ho
    rw [← ho]

theorem tells_empty : Tells textSlice (oneWorld unknownToCrun) fun _ => none := by
  constructor
  · intro id st hst
    cases hst
  · intro id _ o ho
    simp only [oneWorld, ite_self, unknownToCrun, Except.ok.injEq] at ho
    rw [← ho]

theorem stopped_leaves_nothing : LeftBehind textSlice "/run/crun" (fun _ => 7) OrdMap.empty
    oneRunning (oneWorld (.ok ⟨true, stoppedText⟩)) stoppedCrun fun _ => none := by
  constructor
  · intro id _
    rfl
  · intro id hid
    have hne : id ≠ "c1" := by
      rintro rfl
      refine hid (delete_mem_reconcile.2 ⟨_, List.mem_cons_self, rfl, ?_⟩)
      intro hnil
      obtain ⟨s, hs, hrun⟩ := reap_eq_nil.1 hnil
      have hstopped : some s = some ⟨"stopped", none⟩ :=
        hs.symm.trans (tells_stopped.known_probe "c1")
      cases hstopped
      exact absurd hrun (by decide)
    exact (if_neg hne).symm

/-- A container that stopped while the daemon was down, and the pass after its delete. -/
theorem stopped_recovered :
    Recovered "/run/crun" (fun _ => 7) stoppedCrun oneRunning
      (after textSlice "/run/crun" (fun _ => 7) OrdMap.empty oneRunning
        (oneWorld (.ok ⟨true, stoppedText⟩))) ∧
    ∀ id, (after textSlice "/run/crun" (fun _ => 8) OrdMap.empty
        (after textSlice "/run/crun" (fun _ => 7) OrdMap.empty oneRunning
          (oneWorld (.ok ⟨true, stoppedText⟩))) (oneWorld unknownToCrun)).get id =
      (after textSlice "/run/crun" (fun _ => 7) OrdMap.empty oneRunning
        (oneWorld (.ok ⟨true, stoppedText⟩))).get id := by
  obtain ⟨-, hrecovered, hagain⟩ := reconcile_outcome tells_stopped
  exact ⟨hrecovered, hagain _ _ _ _ tells_empty stopped_leaves_nothing⟩

end ContainerdRs.Cri

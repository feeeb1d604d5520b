import ContainerdRs.Lib.Restart
import ContainerdRs.Cri.Reconcile

/-!
# Interrupted restart passes

The documentation of `reconcile` calls it idempotent and crash-safe: running it again converges.
A pass is cut after any of its actions and run again from the start, over the records and the
crun state that are left.  Both are followed container by container: a container is a cell with its
record and what crun knows of it.

* `cell_action` — an action changes the cell of its container.
* `unwritten_take_iff` — the actions a cut leaves behind, by the place of the cut.
* `settle_after` — a second pass over a cell in which the first has begun.
* `crash_safe_iff` — when the records are those of one uninterrupted pass.
* `crash_loses_exit` — a crash between a delete and its write.
-/

set_option autoImplicit false

namespace ContainerdRs.Cri

open ContainerState Metadata Runtime.Crun Restart

/-- What the pass works on. -/
structure Host where
  crun : World
  store : ContainerStore

/-- One container of it. -/
structure Cell where
  out : Except String Output
  deletes : Bool
  record : Option ContainerRecord

def Host.cell (h : Host) (id : String) : Cell :=
  ⟨h.crun.state id, h.crun.deletes id, h.store.get id⟩

/-- Carry out an action. -/
def Host.act (h : Host) : Action → Host
  | .delete id => { h with crun := h.crun.delete id }
  | .put r => { h with store := h.store.put r }

/-- An action on its own cell. -/
def Cell.act (x : Cell) : Action → Cell
  | .delete _ => if x.deletes then { x with out := unknownToCrun } else x
  | .put r => { x with record := some r }

theorem cell_action (h : Host) (a : Action) (id : String) :
    (h.act a).cell id = if a.key = id then (h.cell id).act a else h.cell id := by
  cases a with
  | delete id' =>
    show (⟨(h.crun.delete id').state id, (h.crun.delete id').deletes id, h.store.get id⟩ : Cell) =
      if id' = id then (h.cell id).act (.delete id') else h.cell id
    rw [World.delete_state, World.delete_deletes]
    by_cases hid : id' = id
    · subst hid
      rw [if_pos rfl, Cell.act]
      by_cases hd : h.crun.deletes id' = true
      · rw [if_pos ⟨rfl, hd⟩]
        exact (if_pos hd).symm
      · rw [if_neg fun h' => hd h'.2]
        exact (if_neg hd).symm
    · rw [if_neg hid, if_neg fun h' => hid h'.1.symm]
      rfl
  | put r =>
    show (⟨h.crun.state id, h.crun.deletes id, (h.store.put r).get id⟩ : Cell) =
      if r.id = id then (h.cell id).act (.put r) else h.cell id
    rw [ContainerStore.get_put]
    by_cases hid : r.id = id
    · rw [if_pos hid, if_pos hid.symm]
      rfl
    · rw [if_neg hid, if_neg (Ne.symm hid)]
      rfl

section

variable (fromSlice : Bytes → Option Json) (crunRoot : String) (now : String → UInt64)
  (sandboxes : Table SandboxRecord)

/-- `reconcile` with a metadata store that does not fail, as a pass over the containers. -/
def reconcilePass : Pass Host String Cell Action where
  cell := Host.cell
  key := Action.key
  step := Host.act
  stepCell := Cell.act
  plan := fun h => (reconcile fromSlice crunRoot (.ok now) sandboxes h.store h.crun).1
  cellPlan := fun x => turn fromSlice crunRoot now x.out x.record
  cell_step := cell_action
  plan_filter := fun h id => reconcile_filter now sandboxes h.store h.crun id

end

/-! ## Where a pass can be cut -/

section Cut

variable {fromSlice : Bytes → Option Json} {crunRoot : String} {env : ReconcileEnv}

/-- A probe finds the container running. -/
def live (fromSlice : Bytes → Option Json) (w : World) (c : ContainerRecord) : Bool :=
  (known (probe fromSlice (w.state c.id))).any (·.isRunning)

/-- The container whose delete is the last of the first `n` actions, its write still to come: a
    `Running` record takes one action if its container is found running, else two. -/
def cutAt (fromSlice : Bytes → Option Json) (w : World) :
    List ContainerRecord → Nat → Option ContainerRecord
  | [], _ => none
  | c :: cs, n =>
    if c.state ≠ running then cutAt fromSlice w cs n
    else
      match live fromSlice w c, n with
      | _, 0 => none
      | true, n + 1 => cutAt fromSlice w cs n
      | false, 1 => some c
      | false, n + 2 => cutAt fromSlice w cs n

theorem live_iff {w : World} {c : ContainerRecord} :
    live fromSlice w c = true ↔
      ∃ st, known (probe fromSlice (w.state c.id)) = some st ∧ st.isRunning = true := by
  rw [live, Option.any_eq_true]

theorem mem_of_cutAt {w : World} {r : ContainerRecord} : ∀ {cs : List ContainerRecord} {n : Nat},
    cutAt fromSlice w cs n = some r → r ∈ cs
  | [], _, h => by cases h
  | c :: cs, n, h => by
    unfold cutAt at h
    split at h
    · exact List.mem_cons_of_mem _ (mem_of_cutAt h)
    · split at h
      · cases h
      · exact List.mem_cons_of_mem _ (mem_of_cutAt h)
      · cases h
        exact List.mem_cons_self
      · exact List.mem_cons_of_mem _ (mem_of_cutAt h)

/-- Only the probes of the containers in the list count. -/
theorem cutAt_congr {w w' : World} : ∀ {cs : List ContainerRecord} (n : Nat),
    (∀ c ∈ cs, w'.state c.id = w.state c.id) → cutAt fromSlice w' cs n = cutAt fromSlice w cs n
  | [], _, _ => rfl
  | c :: cs, n, h => by
    have hlive : live fromSlice w' c = live fromSlice w c := by
      rw [live, live, h c List.mem_cons_self]
    have hrest : ∀ m, cutAt fromSlice w' cs m = cutAt fromSlice w cs m :=
      fun m => cutAt_congr m fun c' hc' => h c' (List.mem_cons_of_mem _ hc')
    simp only [cutAt, hlive, hrest]

/-- The container was deleted and its record not written. -/
def Unwritten (id : String) (done : List Action) : Prop :=
  .delete id ∈ done ∧ ∀ r, .put r ∈ done → r.id ≠ id

theorem not_unwritten_nil (id : String) : ¬ Unwritten id [] := by
  simp [Unwritten]

theorem unwritten_delete {id id' : String} : Unwritten id [.delete id'] ↔ id' = id := by
  simp [Unwritten, eq_comm]

theorem unwritten_put {id : String} {r : ContainerRecord} {done : List Action} :
    Unwritten id (.put r :: done) ↔ r.id ≠ id ∧ Unwritten id done := by
  simp only [Unwritten, List.mem_cons, reduceCtorEq, false_or, Action.put.injEq, forall_eq_or_imp]
  tauto

/-- A turn with a delete that is over. -/
theorem unwritten_delete_put {id id' : String} {r : ContainerRecord} {done : List Action}
    (hr : r.id = id') :
    Unwritten id (.delete id' :: .put r :: done) ↔ id' ≠ id ∧ Unwritten id done := by
  subst hr
  simp only [Unwritten, List.mem_cons, reduceCtorEq, false_or, Action.put.injEq,
    Action.delete.injEq, forall_eq_or_imp]
  constructor
  · rintro ⟨hdel | hdel, hid, hputs⟩
    · exact absurd hdel.symm hid
    · exact ⟨hid, hdel, hputs⟩
  · rintro ⟨hid, hdel, hputs⟩
    exact ⟨.inr hdel, hid, hputs⟩

theorem dead_of_not_live {out : Except String Output}
    (h : ¬ ∃ st, known (probe fromSlice out) = some st ∧ st.isRunning = true) :
    ∀ st, known (probe fromSlice out) = some st → st.isRunning = false := by
  intro st hst
  by_contra hrun
  exact h ⟨st, hst, by simpa using hrun⟩

/-- The first `n` actions of a pass leave a deleted container unwritten exactly if they are cut
    at it. -/
theorem unwritten_take_iff (hput : ∀ id, env.putErr id = none) (id : String) :
    ∀ (cs : List ContainerRecord) (w : World) (rep : ReconcileReport) (n : Nat),
      cs.Pairwise (fun a b => a.id ≠ b.id) →
      (Unwritten id ((reconcileLoop fromSlice crunRoot env cs w rep).1.take n) ↔
        ∃ c, cutAt fromSlice w cs n = some c ∧ c.id = id)
  | [], _, _, n, _ => by simp [reconcileLoop, cutAt, not_unwritten_nil]
  | c :: cs, w, rep, n, hcs => by
    obtain ⟨hne, hcs⟩ := List.pairwise_cons.1 hcs
    rw [reconcileLoop]
    unfold cutAt
    split
    · exact unwritten_take_iff hput id cs w rep n hcs
    · rw [hput]
      dsimp only
      -- a turn that is over: the cut is at another container
      have hover : ∀ (w' : World) (rep' : ReconcileReport) (n : Nat),
          (∀ c' ∈ cs, w'.state c'.id = w.state c'.id) →
          ((c.id ≠ id ∧
              Unwritten id ((reconcileLoop fromSlice crunRoot env cs w' rep').1.take n)) ↔
            ∃ c', cutAt fromSlice w cs n = some c' ∧ c'.id = id) := by
        intro w' rep' n hw
        rw [unwritten_take_iff hput id cs w' rep' n hcs, cutAt_congr n hw]
        refine and_iff_right_of_imp ?_
        rintro ⟨c', hc', rfl⟩
        exact hne c' (mem_of_cutAt hc')
      cases hlive : live fromSlice w c with
      | true =>
        rw [reap_eq_nil.2 (live_iff.1 hlive)]
        cases n with
        | zero => simp [not_unwritten_nil]
        | succ n =>
          rw [List.nil_append, List.take_succ_cons, unwritten_put, settled_id]
          exact hover _ _ n fun _ _ => rfl
      | false =>
        have hdead : ∀ st, known (probe fromSlice (w.state c.id)) = some st →
            st.isRunning = false :=
          dead_of_not_live fun h => Bool.false_ne_true (hlive.symm.trans (live_iff.2 h))
        rw [reap_of_dead hdead]
        rcases n with _ | _ | n
        · simp [not_unwritten_nil]
        · simp [unwritten_delete]
        · rw [List.singleton_append, List.take_succ_cons, List.take_succ_cons,
            unwritten_delete_put (settled_id _ _ _)]
          refine hover _ _ n ?_
          intro c' hc'
          exact reap_state_ne (hne c' hc').symm

end Cut

/-! ## One container -/

section Cell

variable {fromSlice : Bytes → Option Json} {crunRoot : String} {now now' : String → UInt64}
  {sandboxes : Table SandboxRecord}

/-- The fields of a record that are compared: all that the pass writes but the time. -/
def shown (r : ContainerRecord) :
    ContainerState × Option Int × Option String × Option Int × Option String :=
  (r.state, r.exitCode, r.reason, r.pid, r.crunRoot)

/-- What crun has to say about a cell. -/
def Cell.known (fromSlice : Bytes → Option Json) (x : Cell) : Option RuntimeState :=
  Runtime.Crun.known (probe fromSlice x.out)

/-- The record a pass leaves. -/
theorem settle_record (x : Cell) :
    ((reconcilePass fromSlice crunRoot now sandboxes).settle x).record =
      x.record.map fun c =>
        if c.state = running then settled fromSlice crunRoot (now c.id) x.out c else c := by
  obtain ⟨out, deletes, _ | c⟩ := x
  · rfl
  · show (List.foldl Cell.act _ (turn fromSlice crunRoot now out (some c))).record = _
    simp only [turn, Option.map_some]
    split
    · rw [List.foldl_append]
      rfl
    · rfl

/-- A record that a pass leaves `Running` looks the same after another one. -/
theorem shown_settled_again {out : Except String Output} {c : ContainerRecord} {st : RuntimeState}
    (hst : Runtime.Crun.known (probe fromSlice out) = some st) (hrun : st.isRunning = true)
    (t t' : UInt64) :
    shown (settled fromSlice crunRoot t' out (settled fromSlice crunRoot t out c)) =
      shown (settled fromSlice crunRoot t out c) := by
  simp only [settled, reconcileRecord, probeEnv, hst, hrun, if_true, shown]
  cases st.pid <;> simp

/-- The time is not shown. -/
theorem shown_settled_now {out : Except String Output} {c : ContainerRecord} (t t' : UInt64) :
    shown (settled fromSlice crunRoot t out c) = shown (settled fromSlice crunRoot t' out c) := by
  simp only [settled, reconcileRecord, probeEnv]
  split
  · split <;> rfl
  · rfl

/-- Only the answer of crun counts. -/
theorem settled_congr {out out' : Except String Output} {c : ContainerRecord} {t : UInt64}
    (h : Runtime.Crun.known (probe fromSlice out) = Runtime.Crun.known (probe fromSlice out')) :
    settled fromSlice crunRoot t out c = settled fromSlice crunRoot t out' c := by
  simp only [settled, probeEnv, h]

/-- What is not running is not `Running` afterwards. -/
theorem settled_state_ne {out : Except String Output} {c : ContainerRecord} {t : UInt64}
    (h : ∀ st, Runtime.Crun.known (probe fromSlice out) = some st → st.isRunning = false) :
    (settled fromSlice crunRoot t out c).state ≠ running := by
  simp only [settled, reconcileRecord, probeEnv]
  split
  · rename_i st hst
    simp [h st hst]
  · simp

/-- The first pass was cut between the delete and the write of a container that crun knew to be
    dead, and the delete went through. -/
def Cell.Torn (fromSlice : Bytes → Option Json) (x : Cell) (done : List Action) : Prop :=
  (∃ id, done = [.delete id]) ∧ x.deletes = true ∧
    ∃ st, x.known fromSlice = some st ∧ st.isRunning = false

/-- A cell that the first pass has not touched. -/
theorem settle_untouched (x : Cell) :
    ((reconcilePass fromSlice crunRoot now' sandboxes).settle x).record.map shown =
      ((reconcilePass fromSlice crunRoot now sandboxes).settle x).record.map shown := by
  rw [settle_record, settle_record, Option.map_map, Option.map_map]
  congr 1
  funext c
  show shown (if c.state = running then _ else c) = shown (if c.state = running then _ else c)
  split
  · exact shown_settled_now _ _
  · rfl

theorem prefix_pair {α : Type} {a b : α} {l : List α} (h : l <+: [a, b]) :
    l = [] ∨ l = [a] ∨ l = [a, b] := by
  rcases List.prefix_cons_iff.1 h with hnil | ⟨l₁, rfl, h₁⟩
  · exact .inl hnil
  · rcases List.prefix_cons_iff.1 h₁ with rfl | ⟨l₂, rfl, h₂⟩
    · exact .inr (.inl rfl)
    · rw [List.prefix_nil.1 h₂]
      exact .inr (.inr rfl)

/-- How far a turn can have come: it has not begun, it has made its delete, or its write. -/
theorem prefix_turn {out : Except String Output} {record : Option ContainerRecord}
    {done : List Action} (h : done <+: turn fromSlice crunRoot now out record) :
    done = [] ∨ (∃ id, done = [.delete id]) ∨
      ∃ c, record = some c ∧ .put (settled fromSlice crunRoot (now c.id) out c) ∈ done := by
  cases record with
  | none => exact .inl (List.prefix_nil.1 h)
  | some c =>
    simp only [turn] at h
    split at h
    · by_cases hlive : ∃ st, Runtime.Crun.known (probe fromSlice out) = some st ∧
          st.isRunning = true
      · rw [reap_eq_nil.2 hlive, List.nil_append] at h
        rcases List.prefix_cons_iff.1 h with hnil | ⟨l, rfl, -⟩
        · exact .inl hnil
        · exact .inr (.inr ⟨c, rfl, List.mem_cons_self⟩)
      · rw [reap_of_dead (dead_of_not_live hlive)] at h
        rcases prefix_pair h with hnil | rfl | rfl
        · exact .inl hnil
        · exact .inr (.inl ⟨_, rfl⟩)
        · exact .inr (.inr ⟨c, rfl, List.mem_cons_of_mem _ List.mem_cons_self⟩)
    · exact .inl (List.prefix_nil.1 h)

/-- A cell whose delete was carried out, and nothing more. -/
theorem settle_deleted {out : Except String Output} {deletes : Bool} {c : ContainerRecord}
    (hstate : c.state = running)
    (hdead : ∀ st, Runtime.Crun.known (probe fromSlice out) = some st → st.isRunning = false) :
    ((reconcilePass fromSlice crunRoot now' sandboxes).settle
          (Cell.act ⟨out, deletes, some c⟩ (.delete c.id))).record.map shown =
        ((reconcilePass fromSlice crunRoot now sandboxes).settle
          ⟨out, deletes, some c⟩).record.map shown ↔
      ¬ (⟨out, deletes, some c⟩ : Cell).Torn fromSlice [.delete c.id] := by
  cases deletes with
  | false => exact iff_of_true (settle_untouched _) fun htorn => Bool.false_ne_true htorn.2.1
  | true =>
    rw [settle_record, settle_record]
    show (some (if c.state = running then _ else c)).map shown =
      (some (if c.state = running then _ else c)).map shown ↔ _
    rw [if_pos hstate, if_pos hstate]
    cases hk : Runtime.Crun.known (probe fromSlice out) with
    | none =>
      have hsame : settled fromSlice crunRoot (now' c.id) unknownToCrun c =
          settled fromSlice crunRoot (now' c.id) out c := settled_congr hk.symm
      refine iff_of_true (congrArg some ?_) ?_
      · exact (congrArg shown hsame).trans (shown_settled_now _ _)
      · rintro ⟨-, -, st, hst, -⟩
        exact Option.some_ne_none st (hst.symm.trans hk)
    | some st =>
      -- `Unknown` where one pass gives `Exited`
      refine iff_of_false (fun hsame => ?_) (not_not.2 ⟨⟨_, rfl⟩, rfl, st, hk, hdead st hk⟩)
      have hshown := congrArg Prod.fst (Option.some.inj hsame)
      have hunknown :
          (settled fromSlice crunRoot (now' c.id) unknownToCrun c).state = unknown := rfl
      have hexited : (settled fromSlice crunRoot (now c.id) out c).state = exited := by
        simp [settled, reconcileRecord, probeEnv, hk, hdead st hk]
      have hstates : (settled fromSlice crunRoot (now' c.id) unknownToCrun c).state =
        (settled fromSlice crunRoot (now c.id) out c).state := hshown
      rw [hunknown, hexited] at hstates
      cases hstates

/-- A cell for which the first pass has done everything. -/
theorem settle_written {x : Cell} {c : ContainerRecord} (hrec : x.record = some c)
    (hstate : c.state = running) (y : Cell)
    (hy : y.record = some (settled fromSlice crunRoot (now c.id) x.out c))
    (hagain : (settled fromSlice crunRoot (now c.id) x.out c).state = running →
      y.out = x.out ∧ ∃ st, x.known fromSlice = some st ∧ st.isRunning = true) :
    ((reconcilePass fromSlice crunRoot now' sandboxes).settle y).record.map shown =
      ((reconcilePass fromSlice crunRoot now sandboxes).settle x).record.map shown := by
  rw [settle_record, settle_record, hy, hrec]
  refine congrArg some ?_
  dsimp only
  rw [if_pos hstate]
  split
  · rename_i hrun
    obtain ⟨hout, st, hst, hstrun⟩ := hagain hrun
    rw [hout]
    exact shown_settled_again hst hstrun _ _
  · rfl

/-- A second pass over a cell in which the first has begun. -/
theorem settle_after {x : Cell} {done : List Action}
    (hdone : done <+: turn fromSlice crunRoot now x.out x.record) :
    ((reconcilePass fromSlice crunRoot now' sandboxes).settle
          (done.foldl Cell.act x)).record.map shown =
        ((reconcilePass fromSlice crunRoot now sandboxes).settle x).record.map shown ↔
      ¬ x.Torn fromSlice done := by
  have huntouched : done = [] → (((reconcilePass fromSlice crunRoot now' sandboxes).settle
          (done.foldl Cell.act x)).record.map shown =
        ((reconcilePass fromSlice crunRoot now sandboxes).settle x).record.map shown ↔
      ¬ x.Torn fromSlice done) := by
    rintro rfl
    exact iff_of_true (settle_untouched x) (by simp [Cell.Torn])
  obtain ⟨out, deletes, _ | c⟩ := x
  · exact huntouched (List.prefix_nil.1 hdone)
  by_cases hstate : c.state = running
  · simp only [turn, hstate, if_true] at hdone
    by_cases hlive : ∃ st, Runtime.Crun.known (probe fromSlice out) = some st ∧ st.isRunning = true
    · -- re-adopted: one write
      rw [reap_eq_nil.2 hlive, List.nil_append] at hdone
      rcases List.prefix_cons_iff.1 hdone with hnil | ⟨l, rfl, hl⟩
      · exact huntouched hnil
      · rw [List.prefix_nil.1 hl]
        refine iff_of_true (settle_written rfl hstate _ rfl fun _ => ⟨rfl, hlive⟩) ?_
        simp [Cell.Torn]
    · have hdead := dead_of_not_live hlive
      rw [reap_of_dead hdead] at hdone
      rcases prefix_pair hdone with hnil | rfl | rfl
      · exact huntouched hnil
      · exact settle_deleted hstate hdead
      · refine iff_of_true (settle_written rfl hstate _ rfl fun hrun => ?_) (by simp [Cell.Torn])
        exact absurd hrun (settled_state_ne hdead)
  · simp only [turn, hstate, if_false] at hdone
    exact huntouched (List.prefix_nil.1 hdone)

end Cell

/-! ## The whole pass -/

section Crash

variable (fromSlice : Bytes → Option Json) (crunRoot : String) (now now' : String → UInt64)
  (sandboxes : Table SandboxRecord)

/-- The records of both look the same. -/
def SameRecords (h h' : Host) : Prop :=
  ∀ id, (h.store.get id).map shown = (h'.store.get id).map shown

/-- The pass is cut after `n` actions behind the delete of a container, its write still to come;
    crun knew the container not to be running, and the delete went through. -/
def CutBehindDelete (h : Host) (n : Nat) : Prop :=
  ∃ c st, cutAt fromSlice h.crun h.store.list n = some c ∧ h.crun.deletes c.id = true ∧
    known (probe fromSlice (h.crun.state c.id)) = some st ∧ st.isRunning = false

/-- The cut, in the cell of the container. -/
theorem cutBehindDelete_iff (h : Host) (n : Nat) :
    CutBehindDelete fromSlice h n ↔
      ∃ id, (h.cell id).Torn fromSlice
        ((reconcilePass fromSlice crunRoot now sandboxes).done h n id) := by
  have hput : ∀ id, (ReconcileEnv.ok now).putErr id = none := fun _ => rfl
  have hcut : ∀ id,
      Unwritten id ((reconcile fromSlice crunRoot (.ok now) sandboxes h.store h.crun).1.take n) ↔
        ∃ c, cutAt fromSlice h.crun h.store.list n = some c ∧ c.id = id :=
    fun id => unwritten_take_iff hput id h.store.list h.crun _ n h.store.list_pairwise
  have hmem : ∀ {a : Action} {id : String},
      a ∈ (reconcilePass fromSlice crunRoot now sandboxes).done h n id ↔
        a ∈ (reconcile fromSlice crunRoot (.ok now) sandboxes h.store h.crun).1.take n ∧
          a.key = id := by
    intro a id
    simp only [Pass.done, List.mem_filter, decide_eq_true_eq]
    exact Iff.rfl
  constructor
  · rintro ⟨c, st, hc, hdeletes, hst, hrun⟩
    obtain ⟨hdel, hputs⟩ := (hcut c.id).2 ⟨c, hc, rfl⟩
    refine ⟨c.id, ?_, hdeletes, st, hst, hrun⟩
    have hdel' : .delete c.id ∈ (reconcilePass fromSlice crunRoot now sandboxes).done h n c.id :=
      hmem.2 ⟨hdel, rfl⟩
    rcases prefix_turn (Pass.done_prefix (reconcilePass fromSlice crunRoot now sandboxes) h n c.id)
      with hnil | hone | ⟨r, hget, hwritten⟩
    · rw [hnil] at hdel'
      cases hdel'
    · exact hone
    · refine absurd ?_ (hputs _ (hmem.1 hwritten).1)
      rw [settled_id]
      exact h.store.keyed c.id r hget
  · rintro ⟨id, ⟨id', hdone⟩, hdeletes, st, hst, hrun⟩
    have hdel := hmem.1 (hdone ▸ List.mem_cons_self : .delete id' ∈ _)
    obtain rfl : id' = id := hdel.2
    obtain ⟨c, hc, rfl⟩ : ∃ c, cutAt fromSlice h.crun h.store.list n = some c ∧ c.id = id' := by
      refine (hcut id').1 ⟨hdel.1, ?_⟩
      intro r hr hid
      have hput' := hmem.2 ⟨hr, hid⟩
      rw [hdone] at hput'
      simp at hput'
    exact ⟨c, st, hc, hdeletes, hst, hrun⟩

/-- **Crash safety.**  A pass that is interrupted after its `n`-th action and run again leaves the
    records of one uninterrupted pass exactly if it was not cut between the delete and the write of
    a container that crun knew not to be running. -/
theorem crash_safe_iff (h : Host) (n : Nat) :
    SameRecords
        ((reconcilePass fromSlice crunRoot now' sandboxes).complete
          ((reconcilePass fromSlice crunRoot now sandboxes).interrupted h n))
        ((reconcilePass fromSlice crunRoot now sandboxes).complete h) ↔
      ¬ CutBehindDelete fromSlice h n := by
  rw [cutBehindDelete_iff fromSlice crunRoot now sandboxes, not_exists]
  refine forall_congr' fun id => ?_
  have hrerun : ((reconcilePass fromSlice crunRoot now' sandboxes).complete
      ((reconcilePass fromSlice crunRoot now sandboxes).interrupted h n)).cell id =
        (reconcilePass fromSlice crunRoot now' sandboxes).settle
          (((reconcilePass fromSlice crunRoot now sandboxes).done h n id).foldl Cell.act
            (h.cell id)) :=
    (Pass.cell_complete (reconcilePass fromSlice crunRoot now' sandboxes) _ id).trans
      (congrArg _ (Pass.cell_interrupted (reconcilePass fromSlice crunRoot now sandboxes) h n id))
  have hwhole : ((reconcilePass fromSlice crunRoot now sandboxes).complete h).cell id =
      (reconcilePass fromSlice crunRoot now sandboxes).settle (h.cell id) :=
    Pass.cell_complete (reconcilePass fromSlice crunRoot now sandboxes) h id
  show (Host.cell _ id).record.map shown = (Host.cell _ id).record.map shown ↔ _
  rw [hrerun, hwhole]
  exact settle_after (Pass.done_prefix (reconcilePass fromSlice crunRoot now sandboxes) h n id)

end Crash

/-- The container of `oneRunning` has stopped while the daemon was down. -/
def oneStopped : Host := ⟨oneWorld (.ok ⟨true, stoppedText⟩), oneRunning⟩

/-- A crash behind the delete: the second pass finds nothing and records `Unknown` for a container
    that one pass records as `Exited`. -/
theorem crash_loses_exit :
    ¬ ∀ (fromSlice : Bytes → Option Json) (now now' : String → UInt64) (h : Host) (n : Nat),
      SameRecords
        ((reconcilePass fromSlice "/run/crun" now' OrdMap.empty).complete
          ((reconcilePass fromSlice "/run/crun" now OrdMap.empty).interrupted h n))
        ((reconcilePass fromSlice "/run/crun" now OrdMap.empty).complete h) := by
  intro h
  have hsame := h textSlice (fun _ => 7) (fun _ => 8) oneStopped 1 "c1"
  revert hsame
  decide

end ContainerdRs.Cri

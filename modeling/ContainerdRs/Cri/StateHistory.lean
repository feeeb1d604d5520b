import ContainerdRs.Cri.Moves

/-!
# The states a container record goes through

`ContainerState::can_transition_to` declares the legal changes of a stored record; no handler
calls it.  The handlers read a whole record, wait for crun and write the record back, so a
`put` can meet a record that has moved on since the `get`.

* `legal_snoc_iff` — when one more stored state keeps a history legal.
* `advance_stored` — the record each task stores, if any.
* `stored_states_legal_iff` — over every run: the history stays legal exactly when no stale
  `put` revives an exited container or takes a record back to `Created`.
* `start_after_stop_revives` — the run in which it does not.
-/

set_option autoImplicit false

namespace ContainerdRs.Cri

open ContainerState Transition

/-- The states stored by a trace. -/
def storedStates (es : List Effect) : List ContainerState :=
  es.filterMap fun
    | .put r => some r.state
    | _ => none

/-- All states the record has had: the initial one and the stored ones. -/
def history (first : ContainerState) (trace : List Effect) : List ContainerState :=
  first :: storedStates trace

/-- Every change is a declared transition, and nothing comes back from `Exited`. -/
structure LegalHistory (h : List ContainerState) : Prop where
  chain : h.IsChain fun a b => a.canTransitionTo b = true
  settled : h.Pairwise fun a b => a = exited → b ≠ running ∧ b ≠ created

theorem LegalHistory.singleton (a : ContainerState) : LegalHistory [a] :=
  ⟨List.IsChain.singleton a, List.pairwise_singleton _ _⟩

theorem LegalHistory.snoc {h : List ContainerState} {a b : ContainerState} :
    LegalHistory ((h ++ [a]) ++ [b]) ↔
      LegalHistory (h ++ [a]) ∧ a.canTransitionTo b = true ∧
        (exited ∈ h ++ [a] → b ≠ running ∧ b ≠ created) := by
  constructor
  · rintro ⟨hc, hp⟩
    rw [List.isChain_append] at hc
    rw [List.pairwise_append] at hp
    refine ⟨⟨hc.1, hp.1⟩, hc.2.2 a (by simp) b (by simp), ?_⟩
    intro he
    exact hp.2.2 exited he b (by simp) rfl
  · rintro ⟨⟨hc, hp⟩, hab, hs⟩
    refine ⟨?_, ?_⟩
    · rw [List.isChain_append]
      refine ⟨hc, List.IsChain.singleton b, ?_⟩
      intro x hx y hy
      simp at hx hy
      subst hx hy
      exact hab
    · rw [List.pairwise_append]
      refine ⟨hp, List.pairwise_singleton _ _, ?_⟩
      intro x hx y hy hxe
      simp at hy
      subst hxe hy
      exact hs hx

/-- When a further state `b` keeps the history legal. -/
def Storable (h : List ContainerState) (last : ContainerState) : ContainerState → Prop
  | .created => last = created
  | .running => exited ∉ h
  | .exited => True
  | .unknown => True

/-- One more stored state. -/
theorem legal_snoc_iff {h : List ContainerState} {a : ContainerState}
    (hl : LegalHistory (h ++ [a])) (b : ContainerState) :
    LegalHistory ((h ++ [a]) ++ [b]) ↔ Storable (h ++ [a]) a b := by
  rw [LegalHistory.snoc]
  cases b with
  | created =>
    rw [canTransitionTo_created]
    constructor
    · exact fun h => h.2.1
    · rintro rfl
      refine ⟨hl, rfl, fun he => ?_⟩
      rcases List.mem_append.1 he with he | he
      · have := (List.pairwise_append.1 hl.settled).2.2 exited he created (by simp) rfl
        exact absurd rfl this.2
      · simp at he
  | running =>
    rw [canTransitionTo_running]
    constructor
    · intro h he
      exact (h.2.2 he).1 rfl
    · intro he
      refine ⟨hl, ?_, fun h => absurd h he⟩
      rintro rfl
      exact he (by simp)
  | exited => simp [hl, canTransitionTo_exited, Storable]
  | unknown => simp [hl, canTransitionTo_unknown, Storable]

theorem storedStates_append (es es' : List Effect) :
    storedStates (es ++ es') = storedStates es ++ storedStates es' :=
  List.filterMap_append

/-! ## What a move stores -/

/-- The tasks of a run without `RemoveContainer`, with what `reconcile` knows of its copy. -/
def Task.Sound : Task → Prop
  | .reconcile c => c.state = running
  | .reconcilePut c => c.state ≠ created
  | .remove => False
  | .removeRecord => False
  | .removeEnd => False
  | _ => True

theorem reconcileRecord_state (c : Ctx) (env : Env) {r : ContainerRecord}
    (h : r.state = running) : (reconcileRecord c env r).state ≠ created := by
  unfold reconcileRecord
  split
  · split
    · simp [h]
    · simp
  · simp

theorem storedStates_eq (es : List Effect) :
    storedStates es = (storedRecords es).map (·.state) := by
  rw [storedStates, storedRecords, List.map_filterMap]
  congr 1
  funext e
  cases e <;> rfl

/-- A sound task goes on to a sound one: `reconcile` has read `Running`. -/
theorem advance_sound {c : Ctx} {env : Env} {record : Option ContainerRecord} {task : Task}
    {m : Move} (hs : task.Sound) (h : advance c env record task = some m) : m.next.Sound := by
  have hnext := (advance_does h).next
  cases task with
  | reconcile rec =>
    cases h
    exact reconcileRecord_state c env hs
  | remove | removeRecord | removeEnd => exact absurd hs id
  | _ =>
    generalize m.next = next at hnext
    cases hnext <;> trivial

/-- **What a move does**: it stores the record `stores` names and no other, leaves the entry
    alone otherwise, and keeps the tasks sound. -/
theorem advance_stored {c : Ctx} {env : Env} {record : Option ContainerRecord} {task : Task}
    {m : Move} (hs : task.Sound) (h : advance c env record task = some m) :
    storedStates m.effects = ((stores c env task).map (·.state)).toList ∧
      applyEffects record m.effects = (stores c env task).or record ∧
      m.next.Sound ∧ ∀ t ∈ m.spawn, t.Sound := by
  have hdoes := advance_does h
  refine ⟨?_, ?_, advance_sound hs h, ?_⟩
  · rw [storedStates_eq, hdoes.puts]
    cases stores c env task <;> rfl
  · rw [hdoes.entry, entryAfter_of_ne]
    rintro rfl
    exact hs
  · intro t ht
    rw [(hdoes.spawn t ht).1]
    trivial

theorem begin_sound (c : Ctx) (env : Env) (record : Option ContainerRecord) {r : Request}
    (hr : r ≠ .removeContainer) : (begin c env record r).Sound := by
  cases r with
  | removeContainer => exact absurd rfl hr
  | reconcile =>
    simp only [begin]
    split
    · trivial
    · trivial
    · split
      · trivial
      · rename_i h; exact not_not.1 h
  | startContainer | stopContainer _ =>
    simp only [begin]
    split
    · trivial
    · trivial
    · split <;> trivial
  | updateContainerResources _ =>
    simp only [begin]
    split <;> trivial

/-! ## Runs -/

variable (c : Ctx) (first : ContainerState)

/-- The condition on a step, on the state before it: a `put` of `Running` (by `StartContainer`,
    a re-adopting `reconcile`, or an update that read `Running`) does not follow a stored
    `Exited`, and an update that read `Created` finds the record still `Created`. -/
def PutSafe (s : St) : Label → Prop
  | .move t env =>
    match s.tasks[t]? with
    | some (.start _) =>
      env.configJson = true → env.ioErr = none → env.metaErr = none →
        exited ∉ history first s.trace
    | some (.update rec (some _)) =>
      env.crunErr = none → env.metaErr = none →
        (rec.state = running → exited ∉ history first s.trace) ∧
          (rec.state = created → s.record.map (·.state) = some created)
    | some (.reconcilePut rec) =>
      env.metaErr = none → rec.state = running → exited ∉ history first s.trace
    | _ => True
  | _ => True

/-- The label brings no `RemoveContainer`. -/
def Label.NoRemove : Label → Prop
  | .request r _ => r ≠ .removeContainer
  | _ => True

/-- The record is there and carries the last state of a legal history. -/
structure HistoryInv (s : St) : Prop where
  legal : LegalHistory (history first s.trace)
  current : ∃ h a, history first s.trace = h ++ [a] ∧ s.record.map (·.state) = some a
  sound : ∀ t ∈ s.tasks, t.Sound

/-- The condition says exactly that the stored state, if any, extends the history legally. -/
theorem putSafe_move_iff {s : St} {t : Nat} {env : Env} {task : Task} {h : List ContainerState}
    {a : ContainerState} (ht : s.tasks[t]? = some task) (hs : task.Sound)
    (hh : history first s.trace = h ++ [a]) (hr : s.record.map (·.state) = some a) :
    PutSafe first s (.move t env) ↔
      ∀ r, stores c env task = some r → Storable (h ++ [a]) a r.state := by
  simp only [PutSafe, ht, hh, hr]
  cases task with
  | start rec =>
    simp only [stores, Option.ite_none_right_eq_some, Option.some.injEq]
    constructor
    · rintro hp r ⟨⟨h1, h2, h3⟩, rfl⟩
      exact hp h1 h2 h3
    · intro hp h1 h2 h3
      exact hp _ ⟨⟨h1, h2, h3⟩, rfl⟩
  | update rec linux =>
    cases linux with
    | none => simp [stores]
    | some l =>
      simp only [stores, Option.ite_none_right_eq_some, Option.some.injEq]
      constructor
      · rintro hp r ⟨⟨h1, h2⟩, rfl⟩
        obtain ⟨hp1, hp2⟩ := hp h1 h2
        cases hst : rec.state with
        | created => exact hp2 hst
        | running => exact hp1 hst
        | exited | unknown => trivial
      · intro hp h1 h2
        have hp := hp _ ⟨⟨h1, h2⟩, rfl⟩
        refine ⟨fun hst => ?_, fun hst => ?_⟩
        · rw [hst] at hp
          exact hp
        · rw [hst] at hp
          exact hp
  | reconcilePut rec =>
    simp only [stores, Option.ite_none_right_eq_some, Option.some.injEq]
    constructor
    · rintro hp r ⟨h1, rfl⟩
      cases hst : rec.state with
      | created => exact absurd hst hs
      | running => exact hp h1 hst
      | exited | unknown => trivial
    · intro hp h1 hst
      have hp := hp _ ⟨h1, rfl⟩
      rw [hst] at hp
      exact hp
  | superviseExit code r =>
    simp only [stores, Option.ite_none_right_eq_some, Option.some.injEq, true_iff]
    rintro r' ⟨-, rfl⟩
    trivial
  | stopForce updated =>
    simp only [stores, Option.ite_none_right_eq_some, Option.some.injEq, true_iff]
    rintro r' ⟨-, rfl⟩
    trivial
  | _ => simp [stores]

/-- One step: with the invariant, the next history is legal exactly under `PutSafe`. -/
theorem legal_step_iff {s s' : St} {l : Label} (hi : HistoryInv first s)
    (h : step c s l = some s') :
    LegalHistory (history first s'.trace) ↔ PutSafe first s l := by
  cases l with
  | request r env => cases h; exact ⟨fun _ => trivial, fun _ => hi.legal⟩
  | restart => cases h; exact ⟨fun _ => trivial, fun _ => hi.legal⟩
  | move t env =>
    simp only [step] at h
    split at h
    · cases h
    · rename_i task ht
      obtain ⟨m, hm, rfl⟩ := Option.map_eq_some_iff.1 h
      obtain ⟨hst, a, hh, hr⟩ := hi.current
      have hsound := hi.sound task (List.mem_of_getElem? ht)
      obtain ⟨hput, -, -, -⟩ := advance_stored hsound hm
      rw [putSafe_move_iff c first ht hsound hh hr]
      have hhist : history first (s.take t m).trace =
          history first s.trace ++ ((stores c env task).map (·.state)).toList := by
        simp [history, St.take, storedStates_append, hput]
      rw [hhist, hh]
      have hl := hi.legal
      rw [hh] at hl
      cases hso : stores c env task with
      | none => simpa using hl
      | some r => simpa using legal_snoc_iff hl r.state

theorem historyInv_step {s s' : St} {l : Label} (hi : HistoryInv first s)
    (hok : PutSafe first s l ∧ l.NoRemove) (h : step c s l = some s') : HistoryInv first s' := by
  have hlegal := (legal_step_iff c first hi h).2 hok.1
  cases l with
  | request r env =>
    cases h
    refine ⟨hlegal, hi.current, fun t ht => ?_⟩
    rcases List.mem_append.1 ht with ht | ht
    · exact hi.sound t ht
    · rw [List.mem_singleton.1 ht]
      exact begin_sound c env s.record hok.2
  | restart => cases h; exact ⟨hlegal, hi.current, by simp⟩
  | move t env =>
    simp only [step] at h
    split at h
    · cases h
    · rename_i task ht
      obtain ⟨m, hm, rfl⟩ := Option.map_eq_some_iff.1 h
      have hsound := hi.sound task (List.mem_of_getElem? ht)
      obtain ⟨hput, hrec, hnext, hspawn⟩ := advance_stored hsound hm
      refine ⟨hlegal, ?_, fun t' ht' => ?_⟩
      · obtain ⟨hst, a, hh, hr⟩ := hi.current
        simp only [St.take, history, storedStates_append, hput, hrec]
        cases hso : stores c env task with
        | none => exact ⟨hst, a, by simpa [history] using hh, by simpa using hr⟩
        | some r => exact ⟨history first s.trace, r.state, by simp [history], by simp⟩
      · rcases List.mem_append.1 ht' with ht' | ht'
        · rcases List.mem_or_eq_of_mem_set ht' with ht' | rfl
          · exact hi.sound t' ht'
          · exact hnext
        · exact hspawn t' ht'

/-- **Stored states along every run** of the lifecycle handlers on a stored container: the
    history is legal after every step exactly when every step meets `PutSafe`. -/
theorem stored_states_legal_iff {c : Ctx} {s₀ : St} {r₀ : ContainerRecord}
    (hrec : s₀.record = some r₀) (htasks : s₀.tasks = []) (htrace : s₀.trace = [])
    {ls : List Label} (hls : ∀ l ∈ ls, l.NoRemove) :
    (∀ x ∈ steps (step c) s₀ ls, LegalHistory (history r₀.state x.2.2.trace)) ↔
      ∀ x ∈ steps (step c) s₀ ls, PutSafe r₀.state x.1 x.2.1 := by
  have hinv : HistoryInv r₀.state s₀ := by
    refine ⟨?_, ⟨[], r₀.state, ?_, ?_⟩, ?_⟩
    · rw [htrace]
      exact LegalHistory.singleton _
    · rw [htrace]
      rfl
    · rw [hrec]
      rfl
    · rw [htasks]
      simp
  have hno : ∀ x ∈ steps (step c) s₀ ls, x.2.1.NoRemove := fun x hx =>
    hls _ (label_mem_of_mem_steps ls s₀ x hx)
  have hstep : ∀ s (l : Label) s', HistoryInv r₀.state s → l.NoRemove → PutSafe r₀.state s l →
      step c s l = some s' → HistoryInv r₀.state s' :=
    fun s l s' hi hl hok h => historyInv_step c r₀.state hi ⟨hok, hl⟩ h
  exact forall_steps_iff_of hstep (fun s l s' hi _ h => legal_step_iff c r₀.state hi h) ls s₀ hinv
    hno

/-- A container that was just created. -/
def createdRecord : ContainerRecord where
  id := "c1"
  sandboxId := "s1"
  state := created
  logPath := ""
  startedAt := none
  finishedAt := none
  exitCode := none
  reason := none
  resources := none
  crunRoot := none
  bundleDir := none
  pid := none
  stdin := false

/-- `StartContainer`, up to the exit of the container. -/
def startThenExit : List Label :=
  [.request .startContainer .quiet, .move 0 .quiet, .move 1 .quiet, .move 1 .quiet]

/-- A start that nobody disturbs: `Created`, `Running`, `Exited`. -/
theorem start_then_exit_legal :
    (∀ l ∈ startThenExit, l.NoRemove) ∧
    ∀ x ∈ steps (step ⟨"c1", "/run/crun", "/run/c1"⟩) ⟨some createdRecord, [], []⟩ startThenExit,
      LegalHistory (history created x.2.2.trace) := by
  have hrec : (⟨some createdRecord, [], []⟩ : St).record = some createdRecord := rfl
  have hkept : ∀ l ∈ startThenExit, l.NoRemove := by simp [startThenExit, Label.NoRemove]
  refine ⟨hkept, (stored_states_legal_iff hrec rfl rfl hkept).2 ?_⟩
  · simp [startThenExit, steps, step, begin, advance, Env.quiet, PutSafe, history, storedStates,
      St.take, createdRecord, Move.goto, applyEffects, Effect.apply, startRecord]

/-- `StopContainer` with timeout 0 runs between the `get` and the `put` of `StartContainer`. -/
def startOverStop : List Label :=
  [.request .startContainer .quiet, .request (.stopContainer 0) .quiet, .move 1 .quiet,
    .move 1 .quiet, .move 1 .quiet, .move 1 .quiet, .move 1 .quiet, .move 0 .quiet]

/-- The stored states need not be legal: `StartContainer` stores `Running` over `Exited`. -/
theorem start_after_stop_revives :
    ¬ ∀ (c : Ctx) (s₀ : St) (r₀ : ContainerRecord) (ls : List Label),
      s₀.record = some r₀ → s₀.tasks = [] → s₀.trace = [] → (∀ l ∈ ls, l.NoRemove) →
        ∀ x ∈ steps (step c) s₀ ls, LegalHistory (history r₀.state x.2.2.trace) := by
  intro h
  have hrun : ∃ x ∈ steps (step ⟨"c1", "/run/crun", "/run/c1"⟩) ⟨some createdRecord, [], []⟩
      startOverStop, history created x.2.2.trace = [created, exited, running] := by decide
  obtain ⟨x, hx, hh⟩ := hrun
  have hl := h _ _ createdRecord startOverStop rfl rfl rfl
    (by simp [startOverStop, Label.NoRemove]) x hx
  rw [show createdRecord.state = created from rfl, hh] at hl
  have := hl.settled
  simp at this

end ContainerdRs.Cri

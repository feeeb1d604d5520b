import ContainerdRs.Cri.PodSteps

/-!
# Namespace holders

A sandbox with a shared PID or IPC namespace has a holder process, which its record names by pid.
`stop_pod_sandbox` and `remove_pod_sandbox` kill that pid, and `create_container` writes it into
`/proc/<pid>/ns/pid` and `/proc/<pid>/ns/ipc`; none of them looks whether the process is still the
holder.  The record outlives the process: over restarts, reboots and the reuse of pids.

* `HolderInv` — every pid that is carried is that of the holder it stands for, or a request is
  about to clear it.
* `holderInv_step` — one step keeps it, if it is safe.
* `holders_safe` — over every run: the pids that are killed and joined are holders.
* `stop_kills_unrelated_process` — a stop after the pid has been given out again.
-/

set_option autoImplicit false

namespace ContainerdRs.Cri.Pod

open Metadata Transition

/-! ## What is used -/

/-- The sandbox a request is about. -/
def Task.sandbox : Task → String
  | .run rec => rec.id
  | .demote rec _ => rec.id
  | .stop id _ => id
  | .stopPut id _ _ => id
  | .remove id _ => id
  | .removeDelete id _ => id
  | .create req _ => req.podSandboxId
  | .returned _ => ""

/-- The pids that a step passes to `kill_holder` or writes into a join path, each with the sandbox
    it does so for. -/
def used (s : St) : Label → List (String × Int)
  | .move t env =>
    match s.tasks[t]? with
    | none => []
    | some task =>
      match advance env s.sandboxes task with
      | none => []
      | some m => (m.kill.toList ++ m.joins).map fun p => (task.sandbox, p)
  | _ => []

/-- **Holder safety** of a step: what it uses is, at that moment, the holder of that sandbox. -/
def UsesHolders (s : St) (l : Label) : Prop :=
  ∀ u ∈ used s l, s.procs u.2 = some (.holder u.1)

/-! ## The condition -/

/-- The request carries `p` as the holder of sandbox `id`: in the copy it has read, or in the
    record it is going to store. -/
def Task.Carries (id : String) (p : Int) : Task → Prop
  | .run rec => rec.id = id ∧ rec.pidHolderPid = some p
  | .demote rec existing => (rec.id = id ∧ rec.pidHolderPid = some p) ∨
      ∃ other ∈ existing, superseded rec other = true ∧ other.id = id ∧
        other.pidHolderPid = some p
  | .stop id' rec => id' = id ∧ rec.pidHolderPid = some p
  | .remove id' rec => id' = id ∧ rec.bind (·.pidHolderPid) = some p
  | .create req sandbox => req.podSandboxId = id ∧ p ∈ joinPids sandbox
  | _ => False

/-- The request has killed `p` and is about to clear it from the record of sandbox `id`. -/
def Task.Clears (id : String) (p : Int) : Task → Prop
  | .stopPut id' _ killed => id' = id ∧ killed = some p
  | .removeDelete id' killed => id' = id ∧ killed = some p
  | _ => False

def Clearing (s : St) (id : String) (p : Int) : Prop := ∃ task ∈ s.tasks, task.Clears id p

/-- The record of sandbox `id` names `p`. -/
def Records (s : St) (id : String) (p : Int) : Prop :=
  ∃ rec, get s.sandboxes ns id = some rec ∧ rec.pidHolderPid = some p

/-- No request is about to clear the record of `id`. -/
def Settled (s : St) (id : String) : Prop := ∀ p, Records s id p → ¬ Clearing s id p

/-- Only request `t` carries `p`. -/
def Sole (s : St) (t : Nat) (p : Int) : Prop :=
  ∀ t' task id, t' ≠ t → s.tasks[t']? = some task → ¬ task.Carries id p

/-- The condition on the step of a request: it kills a pid that no other request carries; it lists
    no record that is about to be cleared; and the write that clears a record goes through. -/
def MoveSafe (s : St) (t : Nat) (env : PodEnv) : Task → Prop
  | .run rec => ∀ other ∈ listed env s.sandboxes, superseded rec other = true → Settled s other.id
  | .stop _ rec => ∀ p, rec.pidHolderPid = some p → Sole s t p
  | .remove _ rec => ∀ p, rec.bind (·.pidHolderPid) = some p → Sole s t p
  | .stopPut id _ killed => env.putErr ≠ none → ∀ p, killed = some p → ¬ Records s id p
  | .removeDelete id killed => env.deleteErr ≠ none → ∀ p, killed = some p → ¬ Records s id p
  | _ => True

/-- The condition on a step, on the state before it.  A process ends, other than by `kill_holder`,
    only if no record and no request in flight carries its pid; a restart does not come between
    the kill and the write of a request; a request reads no record in between these. -/
def HolderSafe (s : St) : Label → Prop
  | .move t env => ∀ task, s.tasks[t]? = some task → MoveSafe s t env task
  | .stopPodSandbox id env => env.getErr = none → Settled s id
  | .removePodSandbox id env => env.getErr = none → Settled s id
  | .createContainer req env => env.getErr = none → Settled s req.podSandboxId
  | .ends p => (∀ id, Records s id p → Clearing s id p) ∧
      ∀ task ∈ s.tasks, ∀ id, ¬ task.Carries id p
  | .restart => ∀ id, Settled s id
  | .reboot => ∀ id p, ¬ Records s id p
  | .runPodSandbox _ _ => True
  | .starts _ => True

/-! ## The invariant -/

structure HolderInv (s : St) : Prop where
  keyed : Keyed s
  stored : ∀ id p, Records s id p → s.procs p = some (.holder id) ∨ Clearing s id p
  carried : ∀ task ∈ s.tasks, ∀ id p, task.Carries id p → s.procs p = some (.holder id)

theorem holderInv_start (procs : Int → Option Proc) : HolderInv (St.start procs) where
  keyed := keyed_start procs
  stored := by
    rintro id p ⟨rec, h, -⟩
    cases h
  carried := by
    intro task h
    cases h

/-- What a read record names is the holder. -/
theorem HolderInv.holder {s : St} (hi : HolderInv s) {id : String} {p : Int}
    (hsettled : Settled s id) (h : Records s id p) : s.procs p = some (.holder id) :=
  (hi.stored id p h).resolve_right (hsettled p h)

/-- A request begins. -/
theorem HolderInv.push {s : St} (hi : HolderInv s) {task : Task}
    (hcarried : ∀ id p, task.Carries id p → s.procs p = some (.holder id)) (hkeyed : task.Keyed) :
    HolderInv (s.push task) where
  keyed := hi.keyed.push hkeyed
  stored := by
    intro id p h
    rcases hi.stored id p h with h | ⟨task', hmem, hclears⟩
    · exact .inl h
    · exact .inr ⟨task', mem_push.2 (.inl hmem), hclears⟩
  carried := by
    intro task' hmem
    rcases mem_push.1 hmem with hmem | rfl
    · exact hi.carried task' hmem
    · exact hcarried

/-- A process is not touched when a free pid is given out. -/
theorem update_of_free {procs : Int → Option Proc} {p q : Int} {proc v : Proc}
    (hfree : procs p = none) (h : procs q = some proc) :
    Function.update procs p (some v) q = some proc := by
  have hne : q ≠ p := by
    rintro rfl
    rw [hfree] at h
    cases h
  rw [Function.update_of_ne hne, h]

/-- A pid that is free is given out. -/
theorem HolderInv.spawn {s : St} (hi : HolderInv s) {p : Int} (hfree : s.procs p = none)
    (v : Proc) : HolderInv { s with procs := Function.update s.procs p (some v) } where
  keyed := hi.keyed.on _
  stored := by
    intro id q hrecords
    rcases hi.stored id q hrecords with h | h
    · exact .inl (update_of_free hfree h)
    · exact .inr h
  carried := by
    intro task hmem id q hcarries
    exact update_of_free hfree (hi.carried task hmem id q hcarries)

/-! ## The step of a request -/

/-- What a step has to bring along, for the invariant to be kept: its next place is sound, it
    kills the holder of a record it is about to clear, which no other request carries; what it
    writes is sound; and where it was about to clear a record, that is done. -/
structure KeepsHolders (s : St) (t : Nat) (task : Task) (m : Move) : Prop where
  next : ∀ id p, m.next.Carries id p → m.kill = none ∧ s.procs p = some (.holder id)
  sole : ∀ p, m.kill = some p → Sole s t p
  kills : ∀ p, m.kill = some p → ∃ id, s.procs p = some (.holder id) ∧ m.next.Clears id p
  writes : ∀ id rec, m.write = some (.put id rec) → m.kill = none ∧
    ∀ p, rec.pidHolderPid = some p → s.procs p = some (.holder id)
  clears : ∀ id p, task.Clears id p → ¬ Records (s.take t m) id p

theorem kill_of_ne {procs : Int → Option Proc} {k : Option Int} {p : Int} (h : k ≠ some p) :
    kill procs k p = procs p := by
  cases k with
  | none => rfl
  | some q => exact Function.update_of_ne (fun hpq => h (congrArg some hpq.symm)) _ _

theorem HolderInv.take {s : St} (hi : HolderInv s) {t : Nat} {task : Task} {m : Move}
    (htask : s.tasks[t]? = some task) (hkeyed : Keyed (s.take t m))
    (hk : KeepsHolders s t task m) : HolderInv (s.take t m) := by
  have hlt : t < s.tasks.length := (List.getElem?_eq_some_iff.1 htask).1
  have hnext : m.next ∈ (s.take t m).tasks := List.mem_set hlt _
  refine ⟨hkeyed, ?_, ?_⟩
  · intro id p h
    obtain ⟨rec, hrec, hp⟩ := h
    rcases get_applyWrite hrec with hw | hold
    · obtain ⟨hnone, hholder⟩ := hk.writes id rec hw
      refine .inl ?_
      show kill s.procs m.kill p = _
      rw [hnone]
      exact hholder p hp
    · rcases hi.stored id p ⟨rec, hold, hp⟩ with hholder | ⟨task', hmem, hclears⟩
      · by_cases hkill : m.kill = some p
        · -- the holder is killed: the request that does so clears the record
          obtain ⟨id', hholder', hclears⟩ := hk.kills p hkill
          rw [hholder] at hholder'
          cases hholder'
          exact .inr ⟨m.next, hnext, hclears⟩
        · exact .inl ((kill_of_ne hkill).trans hholder)
      · obtain ⟨t', ht'⟩ := List.getElem?_of_mem hmem
        by_cases htt : t' = t
        · subst htt
          rw [htask] at ht'
          cases ht'
          exact absurd ⟨rec, hrec, hp⟩ (hk.clears id p hclears)
        · exact .inr ⟨task', mem_set_other ht' htt, hclears⟩
  · intro task' hmem id p hcarries
    rcases mem_take_others hmem with ⟨t', hne, ht'⟩ | rfl
    · have hkill : m.kill ≠ some p := fun h => hk.sole p h t' task' id hne ht' hcarries
      exact (kill_of_ne hkill).trans (hi.carried task' (List.mem_of_getElem? ht') id p hcarries)
    · obtain ⟨hnone, hholder⟩ := hk.next id p hcarries
      show kill s.procs m.kill p = _
      rw [hnone]
      exact hholder

theorem records_take_of_none {s : St} {t : Nat} {m : Move} {id : String} {p : Int}
    (hw : m.write = none) : Records (s.take t m) id p ↔ Records s id p := by
  simp only [Records, St.take, hw, applyWrite]

/-- A request returns without a write: then it was not about to clear a record. -/
theorem keepsHolders_returned {s : St} {t : Nat} {task : Task} {answer : Answer}
    {joins : List Int} (hclears : ∀ id p, task.Clears id p → ¬ Records s id p) :
    KeepsHolders s t task { next := .returned answer, joins := joins } where
  next := by simp [Task.Carries]
  sole := by simp
  kills := by simp
  writes := by simp
  clears id p h := by
    rw [records_take_of_none rfl]
    exact hclears id p h

/-- Every step of a request that is safe keeps the holders. -/
theorem keepsHolders_of_safe {s : St} (hi : HolderInv s) {t : Nat} {env : PodEnv} {task : Task}
    {m : Move} (htask : s.tasks[t]? = some task) (hm : advance env s.sandboxes task = some m)
    (hsafe : MoveSafe s t env task) : KeepsHolders s t task m := by
  have hmem : task ∈ s.tasks := List.mem_of_getElem? htask
  have hcarried := hi.carried task hmem
  have hkeyed := hi.keyed.copies task hmem
  cases task with
  | run rec =>
    cases hm
    refine ⟨?_, by simp, by simp, by simp, by simp [Task.Clears]⟩
    rintro id p (hrec | ⟨other, hother, hsup, rfl, hp⟩)
    · exact ⟨rfl, hcarried id p hrec⟩
    · -- a record that is listed is stored under its id, and nobody is about to clear it
      have hlisted : other ∈ list s.sandboxes ns := by
        unfold listed at hother
        split at hother
        · cases hother
        · exact hother
      obtain ⟨id, hget⟩ := mem_list.1 hlisted
      have hid := hi.keyed.stored id other hget
      subst hid
      exact ⟨rfl, hi.holder (hsafe other hother hsup) ⟨other, hget, hp⟩⟩
  | demote rec existing =>
    cases existing with
    | nil =>
      have hwrites : ∀ p, rec.pidHolderPid = some p → s.procs p = some (.holder rec.id) :=
        fun p hp => hcarried rec.id p (.inl ⟨rfl, hp⟩)
      simp only [advance] at hm
      split at hm
      · cases hm
        exact keepsHolders_returned (by simp [Task.Clears])
      · cases hm
        refine ⟨by simp [Task.Carries], by simp, by simp, ?_, by simp [Task.Clears]⟩
        intro id rec' hw
        cases hw
        exact ⟨rfl, hwrites⟩
    | cons other existing =>
      have hnext : ∀ id p, (Task.demote rec existing).Carries id p →
          s.procs p = some (.holder id) := by
        rintro id p (hrec | ⟨o, ho, hsup, hid, hp⟩)
        · exact hcarried id p (.inl hrec)
        · exact hcarried id p (.inr ⟨o, List.mem_cons_of_mem _ ho, hsup, hid, hp⟩)
      simp only [advance] at hm
      split at hm
      · rename_i hdemotes
        cases hm
        refine ⟨fun id p h => ⟨rfl, hnext id p h⟩, by simp, by simp, ?_,
          by simp [Task.Clears]⟩
        intro id rec' hw
        cases hw
        have hsup : superseded rec other = true := (Bool.and_eq_true_iff.1 hdemotes).1
        exact ⟨rfl, fun p hp =>
          hcarried other.id p (.inr ⟨other, List.mem_cons_self, hsup, rfl, hp⟩)⟩
      · cases hm
        exact ⟨fun id p h => ⟨rfl, hnext id p h⟩, by simp, by simp, by simp,
          by simp [Task.Clears]⟩
  | stop id rec =>
    cases hm
    refine ⟨by simp [Task.Carries], hsafe, ?_, by simp, by simp [Task.Clears]⟩
    intro p hp
    exact ⟨id, hcarried id p ⟨rfl, hp⟩, rfl, hp⟩
  | remove id rec =>
    cases hm
    refine ⟨by simp [Task.Carries], hsafe, ?_, by simp, by simp [Task.Clears]⟩
    intro p hp
    exact ⟨id, hcarried id p ⟨rfl, hp⟩, rfl, hp⟩
  | stopPut id rec killed =>
    simp only [advance] at hm
    split at hm
    · rename_i e he
      cases hm
      apply keepsHolders_returned
      rintro _ p ⟨rfl, hp⟩
      exact hsafe (by simp [he]) p hp
    · cases hm
      obtain ⟨-, -, hnone⟩ := hkeyed
      refine ⟨by simp [Task.Carries], by simp, by simp, ?_, ?_⟩
      · intro id' rec' hw
        cases hw
        exact ⟨rfl, fun p hp => by simp [hnone] at hp⟩
      · rintro _ p ⟨rfl, -⟩ ⟨rec', hget, hp⟩
        have hrec : some rec = some rec' := by simpa [St.take, get_apply_put] using hget
        cases hrec
        simp [hnone] at hp
  | removeDelete id killed =>
    simp only [advance] at hm
    split at hm
    · rename_i e he
      cases hm
      apply keepsHolders_returned
      rintro _ p ⟨rfl, hp⟩
      exact hsafe (by simp [he]) p hp
    · cases hm
      refine ⟨by simp [Task.Carries], by simp, by simp, by simp, ?_⟩
      rintro _ p ⟨rfl, -⟩ ⟨rec', hget, hp⟩
      simp [St.take, get_apply_delete] at hget
  | create req sandbox =>
    simp only [advance] at hm
    split at hm <;> cases hm <;> exact keepsHolders_returned (by simp [Task.Clears])
  | returned a => cases hm

/-! ## Runs -/

/-- A request that begins reads a record of which the holder is there. -/
theorem HolderInv.read {s : St} (hi : HolderInv s) {id : String} {rec : SandboxRecord}
    (hsettled : Settled s id) (hget : get s.sandboxes ns id = some rec) :
    ∀ p, rec.pidHolderPid = some p → s.procs p = some (.holder id) :=
  fun _ hp => hi.holder hsettled ⟨rec, hget, hp⟩

theorem mem_joinPids {sandbox : SandboxRecord} {p : Int} (h : p ∈ joinPids sandbox) :
    sandbox.pidHolderPid = some p := by
  simp only [joinPids, pidNsPid, ipcNsPid, List.mem_append, Option.mem_toList] at h
  rcases h with h | h
  · split at h
    · exact h
    · cases h
  · split at h
    · exact h
    · cases h

/-- One step keeps the invariant, if it is safe. -/
theorem holderInv_step {s s' : St} {l : Label} (hi : HolderInv s) (hsafe : HolderSafe s l)
    (h : step s l = some s') : HolderInv s' := by
  cases l with
  | runPodSandbox config env =>
    rcases step_run h with ⟨e, rfl⟩ | ⟨rec, -, hbegin⟩
    · exact hi.push (by simp [Task.Carries]) trivial
    · rcases begin_cases hbegin with ⟨hnone, rfl⟩ | ⟨p, hp, hfree, rfl⟩
      · exact hi.push (by simp [Task.Carries, hnone]) trivial
      · refine (hi.spawn hfree (.holder rec.id)).push ?_ trivial
        rintro id q ⟨rfl, hq⟩
        rw [hp] at hq
        cases hq
        exact Function.update_self _ _ _
  | stopPodSandbox id env =>
    cases h
    unfold stopBegin
    split
    · exact hi.push (by simp [Task.Carries]) trivial
    · exact hi.push (by simp [Task.Carries]) trivial
    · rename_i rec hok hget
      refine hi.push ?_ (hi.keyed.stored id rec hget)
      rintro _ p ⟨rfl, hp⟩
      exact hi.read (hsafe hok) hget p hp
  | removePodSandbox id env =>
    cases h
    unfold removeBegin
    split
    · exact hi.push (by simp [Task.Carries]) trivial
    · rename_i hok
      refine hi.push ?_ trivial
      rintro _ p ⟨rfl, hp⟩
      obtain ⟨rec, hget, hp⟩ := Option.bind_eq_some_iff.1 hp
      exact hi.read (hsafe hok) hget p hp
  | createContainer req env =>
    cases h
    unfold createBegin
    split
    · exact hi.push (by simp [Task.Carries]) trivial
    · exact hi.push (by simp [Task.Carries]) trivial
    · rename_i sandbox hok hget
      refine hi.push ?_ trivial
      rintro _ p ⟨rfl, hp⟩
      exact hi.read (hsafe hok) hget p (mem_joinPids hp)
  | move t env =>
    obtain ⟨task, m, htask, hm, rfl⟩ := step_move h
    exact hi.take htask (keyed_step hi.keyed h)
      (keepsHolders_of_safe hi htask hm (hsafe task htask))
  | ends p =>
    cases h
    obtain ⟨hrecords, htasks⟩ := hsafe
    refine ⟨hi.keyed.on _, ?_, ?_⟩
    · intro id q hq
      by_cases hpq : q = p
      · subst hpq
        exact .inr (hrecords id hq)
      · rcases hi.stored id q hq with h | h
        · exact .inl ((Function.update_of_ne hpq _ _).trans h)
        · exact .inr h
    · intro task hmem id q hcarries
      have hpq : q ≠ p := by
        rintro rfl
        exact htasks task hmem id hcarries
      exact (Function.update_of_ne hpq _ _).trans (hi.carried task hmem id q hcarries)
  | starts p =>
    simp only [step] at h
    split at h
    · rename_i hfree
      cases h
      exact hi.spawn hfree .other
    · cases h
  | restart =>
    have hkeyed := keyed_step hi.keyed h
    cases h
    refine ⟨hkeyed, ?_, by simp⟩
    intro id p hrecords
    exact .inl (hi.holder (hsafe id) hrecords)
  | reboot =>
    have hkeyed := keyed_step hi.keyed h
    cases h
    exact ⟨hkeyed, fun id p hrecords => absurd hrecords (hsafe id p), by simp⟩

/-- A pid is used by a request that carries it. -/
theorem used_carried {s : St} {l : Label} {u : String × Int} (h : u ∈ used s l) :
    ∃ task ∈ s.tasks, task.Carries u.1 u.2 := by
  cases l with
  | move t env =>
    simp only [used] at h
    split at h
    · cases h
    · rename_i task htask
      refine ⟨task, List.mem_of_getElem? htask, ?_⟩
      split at h
      · cases h
      · rename_i m hm
        obtain ⟨p, hp, rfl⟩ := List.mem_map.1 h
        cases task with
        | run rec => cases hm; simp at hp
        | demote rec existing =>
          cases existing with
          | nil =>
            simp only [advance] at hm
            split at hm <;> cases hm <;> simp at hp
          | cons other existing =>
            simp only [advance] at hm
            split at hm <;> cases hm <;> simp at hp
        | stop id rec =>
          cases hm
          exact ⟨rfl, by simpa using hp⟩
        | remove id rec =>
          cases hm
          exact ⟨rfl, by simpa using hp⟩
        | stopPut id rec killed =>
          simp only [advance] at hm
          split at hm <;> cases hm <;> simp at hp
        | removeDelete id killed =>
          simp only [advance] at hm
          split at hm <;> cases hm <;> simp at hp
        | create req sandbox =>
          have hjoins : p ∈ createJoins env req sandbox := by
            simp only [advance] at hm
            split at hm <;> cases hm <;> simpa using hp
          unfold createJoins at hjoins
          split at hjoins
          · exact ⟨rfl, hjoins⟩
          · cases hjoins
        | returned a => cases hm
  | _ => cases h

/-- **Holder safety.**  In every run whose steps are safe, from empty stores and on any host, each
    pid that is passed to `kill_holder` or written into a join path is at that step the holder
    that was spawned for that sandbox. -/
theorem holders_safe (procs : Int → Option Proc) (ls : List Label)
    (hsafe : ∀ x ∈ steps step (St.start procs) ls, HolderSafe x.1 x.2.1) :
    ∀ x ∈ steps step (St.start procs) ls, UsesHolders x.1 x.2.1 := by
  intro x hx u hu
  have hinv := steps_invariant (fun s l s' hi hok h => holderInv_step hi hok h) ls
    (St.start procs) (holderInv_start procs) hsafe x hx
  obtain ⟨task, hmem, hcarries⟩ := used_carried hu
  exact hinv.1.carried task hmem u.1 u.2 hcarries

/-- A pod whose containers share a PID namespace. -/
def sharedPod : PodSandboxConfig where
  metadata := some { name := "web", uid := "u1", podNamespace := "default" }
  logDirectory := ""
  namespaceOptions := some ⟨modeNode, modePod, modeNode, none⟩

/-- It is run; its holder gets pid 100. -/
def runShared : List Label :=
  [.runPodSandbox (some sharedPod) { PodEnv.quiet "p1" with holder := some 100 },
    .move 0 (.quiet ""), .move 0 (.quiet "")]

/-- The pod is stopped while its holder lives: the holder is killed. -/
theorem stop_kills_holder :
    let ls := runShared ++ [.stopPodSandbox "p1" (.quiet ""), .move 1 (.quiet ""),
      .move 1 (.quiet "")]
    (∀ x ∈ steps step (St.start fun _ => none) ls, UsesHolders x.1 x.2.1) ∧
      ∃ x ∈ steps step (St.start fun _ => none) ls, used x.1 x.2.1 = [("p1", 100)] := by
  refine ⟨holders_safe _ _ ?_, ?_⟩
  · rw [runShared, List.cons_append, List.cons_append, List.singleton_append]
    iterate 6 rw [steps_cons _ rfl]
    simp only [steps, List.forall_mem_cons]
    refine ⟨trivial, ?_, ?_, ?_, ?_, ?_, by simp⟩
    · rintro _ ⟨⟩ other hother
      cases hother
    · rintro _ ⟨⟩
      trivial
    · rintro - p - ⟨task, hmem, hclears⟩
      cases List.mem_singleton.1 hmem
      exact hclears
    · -- the request before the stop has returned
      rintro _ ⟨⟩ p - (_ | _ | t') task id hne ht hcarries
      · cases ht
        exact hcarries
      · exact hne rfl
      · cases ht
    · rintro _ ⟨⟩ h
      exact absurd rfl h
  · exact ⟨_, List.mem_of_getElem? (i := 4) rfl, rfl⟩

/-- The holder dies, the kernel gives its pid to another process, and the pod is stopped. -/
def stopReused : List Label :=
  runShared ++ [.ends 100, .starts 100, .stopPodSandbox "p1" (.quiet ""), .move 1 (.quiet "")]

/-- **The other process is killed.** -/
theorem stop_kills_unrelated_process :
    ¬ ∀ (procs : Int → Option Proc) (ls : List Label),
      ∀ x ∈ steps step (St.start procs) ls, UsesHolders x.1 x.2.1 := by
  intro h
  have hlast : ∃ x ∈ steps step (St.start fun _ => none) stopReused,
      used x.1 x.2.1 = [("p1", 100)] ∧ x.1.procs 100 = some .other :=
    ⟨_, List.mem_of_getElem? (i := 6) rfl, rfl, rfl⟩
  obtain ⟨x, hx, hused, hother⟩ := hlast
  have hholder := h _ stopReused x hx ("p1", 100) (by rw [hused]; exact List.mem_cons_self)
  rw [hother] at hholder
  cases hholder

end ContainerdRs.Cri.Pod

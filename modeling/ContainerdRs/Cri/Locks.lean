import Mathlib.Logic.Relation
import ContainerdRs.Lib.FairLock
import ContainerdRs.Lib.Transition

/-!
# Serialising requests by key (`KeyedLocks`)

`guard` first takes the mutex of its key out of the map, making it if there is none, and then waits
for it; the guard that it returns is held for the critical section.  A request can be dropped at
each `await`.  Nothing is ever taken out of the map.

* `Consistent`, `consistent_step` — one mutex for each key, and at each mutex exactly the requests
  of its key.
* `guard_refines_table` — the registry refines a table of held keys in which a key is given out
  only while nobody holds it.
* `guard_first_come` — a request waits for requests with its own key only, and is overtaken by
  none of them.
-/

set_option autoImplicit false

namespace ContainerdRs.Cri.Locks

open Transition FairLock

/-- How far a call of `guard` has come. -/
inductive Stage where
  /-- It has cloned the mutex `m` of its key. -/
  | cloned (key : String) (m : Nat)
  /-- It waits in `lock_owned`. -/
  | queued (key : String) (m : Nat)
  /-- Its `OwnedMutexGuard` is alive. -/
  | inside (key : String) (m : Nat)
  /-- The guard, or the request, has been dropped. -/
  | over
  deriving DecidableEq, Repr

/-- The key, and the mutex for it. -/
def Stage.place : Stage → Option (String × Nat)
  | .cloned key m | .queued key m | .inside key m => some (key, m)
  | .over => none

/-- `KeyedLocks`, and the calls of `guard`.  Mutexes are numbered in the order in which they are
    made. -/
structure KeyedLocks where
  inner : String → Option Nat
  made : Nat
  mutexes : Nat → Lock Nat
  calls : List Stage

/-- `KeyedLocks::default`. -/
def KeyedLocks.default : KeyedLocks := ⟨fun _ => none, 0, fun _ => .new, []⟩

/-- `map.entry(key).or_default().clone()`, under the lock of the map. -/
def KeyedLocks.entry (s : KeyedLocks) (key : String) : KeyedLocks × Nat :=
  match s.inner key with
  | some m => (s, m)
  | none =>
    ({ s with
        inner := Function.update s.inner key (some s.made)
        made := s.made + 1 }, s.made)

/-- Who moves. -/
inductive Label where
  /-- A call of `guard` takes its mutex out of the map. -/
  | guard (key : String)
  /-- The call `t` asks for it. -/
  | lockOwned (t : Nat)
  /-- The call `t` gets it and returns. -/
  | enter (t : Nat)
  /-- The guard of `t` is dropped. -/
  | drop (t : Nat)
  /-- The request of `t` is dropped while it waits. -/
  | cancel (t : Nat)
  deriving DecidableEq, Repr

/-- A call has moved on, and its mutex with it. -/
def KeyedLocks.move (s : KeyedLocks) (t : Nat) (stage : Stage) (m : Nat) (l : Lock Nat) :
    KeyedLocks :=
  { s with mutexes := Function.update s.mutexes m l, calls := s.calls.set t stage }

/-- One step of `guard`, or of what happens to the guard. -/
def step (s : KeyedLocks) : Label → Option KeyedLocks
  | .guard key =>
    let (s1, m) := s.entry key
    some { s1 with calls := s1.calls ++ [.cloned key m] }
  | .lockOwned t =>
    match s.calls[t]? with
    | some (.cloned key m) => some (s.move t (.queued key m) m ((s.mutexes m).request t))
    | _ => none
  | .enter t =>
    match s.calls[t]? with
    | some (.queued key m) =>
      match (s.mutexes m).grant with
      | some (u, l) => if u = t then some (s.move t (.inside key m) m l) else none
      | none => none
    | _ => none
  | .drop t =>
    match s.calls[t]? with
    | some (.inside _ m) => some (s.move t .over m (s.mutexes m).release)
    | _ => none
  | .cancel t =>
    match s.calls[t]? with
    | some (.cloned _ m) => some (s.move t .over m (s.mutexes m))
    | some (.queued _ m) => some (s.move t .over m ((s.mutexes m).cancel t))
    | _ => none

/-! ## The invariant -/

/-- The map has one mutex for each key, and at a mutex wait and stand the calls for its key. -/
structure Consistent (s : KeyedLocks) : Prop where
  injective : ∀ key key' m, s.inner key = some m → s.inner key' = some m → key = key'
  made : ∀ key m, s.inner key = some m → m < s.made
  filed : ∀ (t : Nat) (stage : Stage) key m, s.calls[t]? = some stage →
    stage.place = some (key, m) → s.inner key = some m
  queue : ∀ m t, t ∈ (s.mutexes m).queue ↔ ∃ key, s.calls[t]? = some (.queued key m)
  holder : ∀ m t, (s.mutexes m).holder = some t ↔ ∃ key, s.calls[t]? = some (.inside key m)
  nodup : ∀ m, (s.mutexes m).queue.Nodup

theorem consistent_default : Consistent .default := by
  constructor <;> simp [KeyedLocks.default, Lock.new]

variable {s s' : KeyedLocks}

/-- A mutex that is not made yet has nobody. -/
theorem Consistent.unmade (h : Consistent s) {t : Nat} {stage : Stage} {key : String} {m : Nat}
    (ht : s.calls[t]? = some stage) (hplace : stage.place = some (key, m)) : m < s.made :=
  h.made key m (h.filed t stage key m ht hplace)

/-- The map step. -/
theorem Consistent.entry (h : Consistent s) (key : String) :
    Consistent (s.entry key).1 ∧ (s.entry key).1.inner key = some (s.entry key).2 := by
  unfold KeyedLocks.entry
  cases hkey : s.inner key with
  | some m => exact ⟨h, hkey⟩
  | none =>
    have hother : ∀ k m, Function.update s.inner key (some s.made) k = some m →
        (k = key ∧ m = s.made) ∨ (k ≠ key ∧ s.inner k = some m) := by
      intro k m hk
      by_cases hkk : k = key
      · subst hkk
        rw [Function.update_self, Option.some.injEq] at hk
        exact .inl ⟨rfl, hk.symm⟩
      · rw [Function.update_of_ne hkk] at hk
        exact .inr ⟨hkk, hk⟩
    refine ⟨⟨?_, ?_, ?_, h.queue, h.holder, h.nodup⟩, Function.update_self ..⟩
    · intro k k' m hk hk'
      obtain ⟨hkk, hm⟩ | ⟨-, hk⟩ := hother k m hk
      · obtain ⟨hkk', -⟩ | ⟨-, hk'⟩ := hother k' m hk'
        · exact hkk.trans hkk'.symm
        · exact absurd (h.made k' m hk') (by omega)
      · obtain ⟨-, hm⟩ | ⟨-, hk'⟩ := hother k' m hk'
        · exact absurd (h.made k m hk) (by omega)
        · exact h.injective k k' m hk hk'
    · intro k m hk
      rcases hother k m hk with ⟨-, rfl⟩ | ⟨-, hk⟩
      · exact Nat.lt_succ_self _
      · exact Nat.lt_succ_of_lt (h.made k m hk)
    · intro t stage k m ht hplace
      have hfiled := h.filed t stage k m ht hplace
      have hne : k ≠ key := by
        rintro rfl
        rw [hkey] at hfiled
        cases hfiled
      show Function.update s.inner key (some s.made) k = some m
      rw [Function.update_of_ne hne]
      exact hfiled

/-- A new call that stands at no mutex yet. -/
theorem Consistent.push (h : Consistent s) {key : String} {m : Nat} (hm : s.inner key = some m) :
    Consistent { s with calls := s.calls ++ [.cloned key m] } := by
  have hold : ∀ (t : Nat) (stage : Stage), stage ≠ .cloned key m →
      ((s.calls ++ [Stage.cloned key m])[t]? = some stage ↔ s.calls[t]? = some stage) := by
    intro t stage hne
    constructor
    · intro ht
      rcases getElem?_push_cases ht with ⟨-, rfl⟩ | ht
      · exact absurd rfl hne
      · exact ht
    · exact getElem?_push_other
  refine ⟨h.injective, h.made, ?_, ?_, ?_, h.nodup⟩
  · intro t stage k m' ht hplace
    rcases getElem?_push_cases ht with ⟨-, rfl⟩ | ht
    · simp only [Stage.place, Option.some.injEq, Prod.mk.injEq] at hplace
      obtain ⟨rfl, rfl⟩ := hplace
      exact hm
    · exact h.filed t stage k m' ht hplace
  · intro m' t
    rw [h.queue m' t]
    exact exists_congr fun k => (hold t _ (by simp)).symm
  · intro m' t
    rw [h.holder m' t]
    exact exists_congr fun k => (hold t _ (by simp)).symm

/-- Where a call has moved on at its mutex `m`: who stands at a mutex in the stage `mk`, provided
    that the others stand as before. -/
theorem stands_move {t : Nat} {old new : Stage} {key : String} {m : Nat}
    (ht : s.calls[t]? = some old) (hold : old.place = some (key, m))
    (hnew : new.place = some (key, m) ∨ new = .over) {mk : String → Nat → Stage}
    (hmk : ∀ k m, (mk k m).place = some (k, m)) {P Q : Nat → Nat → Prop}
    (hP : ∀ m u, P m u ↔ ∃ k, s.calls[u]? = some (mk k m))
    (haway : ∀ m' u, m' ≠ m → (Q m' u ↔ P m' u))
    (hat : ∀ u, Q m u ↔ (u ≠ t ∧ P m u) ∨ (u = t ∧ new = mk key m)) (m' u : Nat) :
    Q m' u ↔ ∃ k, (s.calls.set t new)[u]? = some (mk k m') := by
  have hset : (s.calls.set t new)[t]? = some new :=
    List.getElem?_set_self (List.getElem?_eq_some_iff.1 ht).1
  have hkey : ∀ k, new = mk k m' → k = key ∧ m' = m := by
    rintro k rfl
    rcases hnew with hnew | hnew
    · rw [hmk, Option.some.injEq, Prod.mk.injEq] at hnew
      exact hnew
    · have := hmk k m'
      rw [hnew] at this
      cases this
  by_cases hu : u = t
  · subst hu
    rw [hset]
    by_cases hm : m' = m
    · subst hm
      rw [hat u]
      constructor
      · rintro (⟨hne, -⟩ | ⟨-, rfl⟩)
        · exact absurd rfl hne
        · exact ⟨key, rfl⟩
      · rintro ⟨k, hk⟩
        obtain rfl := Option.some.inj hk
        exact .inr ⟨rfl, by rw [(hkey k rfl).1]⟩
    · rw [haway m' u hm, hP m' u, ht]
      constructor
      · rintro ⟨k, hk⟩
        obtain rfl := Option.some.inj hk
        rw [hmk, Option.some.injEq, Prod.mk.injEq] at hold
        exact absurd hold.2 hm
      · rintro ⟨k, hk⟩
        exact absurd (hkey k (Option.some.inj hk)).2 hm
  · rw [List.getElem?_set_ne (Ne.symm hu), ← hP m' u]
    by_cases hm : m' = m
    · subst hm
      rw [hat u]
      simp [hu]
    · exact haway m' u hm

/-- A call moves on; at its mutex, everybody else stands as before. -/
theorem Consistent.move (h : Consistent s) {t : Nat} {old new : Stage} {key : String} {m : Nat}
    {l : Lock Nat} (ht : s.calls[t]? = some old) (hold : old.place = some (key, m))
    (hnew : new.place = some (key, m) ∨ new = .over)
    (hqueue : ∀ u, u ∈ l.queue ↔ (u ≠ t ∧ u ∈ (s.mutexes m).queue) ∨
      (u = t ∧ new = .queued key m))
    (hholder : ∀ u, l.holder = some u ↔ (u ≠ t ∧ (s.mutexes m).holder = some u) ∨
      (u = t ∧ new = .inside key m))
    (hnodup : l.queue.Nodup) : Consistent (s.move t new m l) := by
  have hat : (s.move t new m l).mutexes m = l := Function.update_self ..
  have haway : ∀ m', m' ≠ m → (s.move t new m l).mutexes m' = s.mutexes m' := fun m' hm =>
    Function.update_of_ne hm ..
  refine ⟨h.injective, h.made, ?_, ?_, ?_, ?_⟩
  · intro u stage k m' hu hplace
    rcases getElem?_set_cases hu with ⟨-, rfl⟩ | ⟨-, hu⟩
    · rcases hnew with hnew | rfl
      · rw [hnew, Option.some.injEq, Prod.mk.injEq] at hplace
        obtain ⟨rfl, rfl⟩ := hplace
        exact h.filed t old key m ht hold
      · cases hplace
    · exact h.filed u stage k m' hu hplace
  · apply stands_move ht hold hnew (fun _ _ => rfl) h.queue
    · intro m' u hm
      rw [haway m' hm]
    · intro u
      rw [hat]
      exact hqueue u
  · apply stands_move ht hold hnew (fun _ _ => rfl) h.holder
    · intro m' u hm
      rw [haway m' hm]
    · intro u
      rw [hat]
      exact hholder u
  · intro m'
    by_cases hm : m' = m
    · subst hm
      rw [hat]
      exact hnodup
    · rw [haway m' hm]
      exact h.nodup m'

/-- **Every step keeps the invariant.** -/
theorem consistent_step {label : Label} (h : Consistent s) (hstep : step s label = some s') :
    Consistent s' := by
  cases label with
  | guard key =>
    simp only [step, Option.some.injEq] at hstep
    subst hstep
    obtain ⟨hcons, hkey⟩ := h.entry key
    exact hcons.push hkey
  | lockOwned t =>
    simp only [step] at hstep
    split at hstep
    · rename_i key m ht
      cases hstep
      have hout : t ∉ (s.mutexes m).queue := by
        rw [h.queue, ht]
        rintro ⟨k, hk⟩
        cases hk
      have hfree : (s.mutexes m).holder ≠ some t := by
        rw [Ne, h.holder, ht]
        rintro ⟨k, hk⟩
        cases hk
      apply h.move ht rfl (.inl rfl)
      · intro u
        by_cases hu : u = t
        · simp [Lock.request, hu]
        · simp [Lock.request, hu]
      · intro u
        by_cases hu : u = t
        · simp [Lock.request, hu, hfree]
        · simp [Lock.request, hu]
      · exact List.nodup_append.2 ⟨h.nodup m, by simp, by
          intro a ha b hb
          rw [List.mem_singleton.1 hb]
          rintro rfl
          exact hout ha⟩
    · cases hstep
  | enter t =>
    simp only [step] at hstep
    split at hstep
    · rename_i key m ht
      split at hstep
      · rename_i u l hgrant
        split_ifs at hstep with hu
        subst hu
        cases hstep
        obtain ⟨hfree, hqueue, hholder⟩ := grant_some hgrant
        have hnodup := h.nodup m
        rw [hqueue, List.nodup_cons] at hnodup
        apply h.move ht rfl (.inl rfl)
        · intro v
          rw [hqueue]
          by_cases hv : v = u
          · subst hv
            simp [hnodup.1]
          · simp [hv]
        · intro v
          rw [hholder, hfree]
          simp [eq_comm]
        · exact hnodup.2
      · cases hstep
    · cases hstep
  | drop t =>
    simp only [step] at hstep
    split at hstep
    · rename_i key m ht
      cases hstep
      have hheld : (s.mutexes m).holder = some t := (h.holder m t).2 ⟨key, ht⟩
      have hout : t ∉ (s.mutexes m).queue := by
        rw [h.queue, ht]
        rintro ⟨k, hk⟩
        cases hk
      apply h.move ht rfl (.inr rfl)
      · intro u
        by_cases hu : u = t
        · simp [Lock.release, hu, hout]
        · simp [Lock.release, hu]
      · intro u
        simp only [Lock.release, hheld, Option.some.injEq]
        grind
      · exact h.nodup m
    · cases hstep
  | cancel t =>
    simp only [step] at hstep
    split at hstep
    · rename_i key m ht
      cases hstep
      have hout : t ∉ (s.mutexes m).queue := by
        rw [h.queue, ht]
        rintro ⟨k, hk⟩
        cases hk
      have hfree : (s.mutexes m).holder ≠ some t := by
        rw [Ne, h.holder, ht]
        rintro ⟨k, hk⟩
        cases hk
      apply h.move ht rfl (.inr rfl)
      · intro u
        by_cases hu : u = t
        · simp [hu, hout]
        · simp [hu]
      · intro u
        by_cases hu : u = t
        · simp [hu, hfree]
        · simp [hu]
      · exact h.nodup m
    · rename_i key m ht
      cases hstep
      have hfree : (s.mutexes m).holder ≠ some t := by
        rw [Ne, h.holder, ht]
        rintro ⟨k, hk⟩
        cases hk
      apply h.move ht rfl (.inr rfl)
      · intro u
        simp [Lock.cancel, and_comm]
      · intro u
        by_cases hu : u = t
        · simp [Lock.cancel, hu, hfree]
        · simp [Lock.cancel, hu]
      · exact (h.nodup m).filter _
    · cases hstep

theorem consistent_run {ls : List Label} (hrun : run step .default ls = some s) : Consistent s :=
  run_keeps (fun _ _ _ h hstep => consistent_step h hstep) consistent_default hrun

/-! ## Mutual exclusion -/

/-- The key for which the call `t` has the guard. -/
def KeyedLocks.held (s : KeyedLocks) (t : Nat) : Option String :=
  match s.calls[t]? with
  | some (.inside key _) => some key
  | _ => none

/-- The table of held keys that the callers of `guard` have in mind: a key that somebody holds is
    not given out. -/
inductive TableStep (held held' : Nat → Option String) : Prop
  | take (t : Nat) (key : String) (hout : held t = none) (hfree : ∀ u, held u ≠ some key)
      (h : held' = Function.update held t (some key))
  | give (t : Nat) (key : String) (hheld : held t = some key)
      (h : held' = Function.update held t none)

theorem held_eq_some {t : Nat} {key : String} :
    s.held t = some key ↔ ∃ m, s.calls[t]? = some (.inside key m) := by
  unfold KeyedLocks.held
  split
  · rename_i k m ht
    rw [ht]
    simp
  · rename_i hno
    constructor
    · intro h
      cases h
    · rintro ⟨m, ht⟩
      exact absurd ht (hno key m)

/-- The key of the guard that a stage stands for. -/
def Stage.guard : Stage → Option String
  | .inside key _ => some key
  | _ => none

theorem held_move {t : Nat} {old new : Stage} (ht : s.calls[t]? = some old) (m : Nat)
    (l : Lock Nat) : (s.move t new m l).held = Function.update s.held t new.guard := by
  funext u
  by_cases hu : u = t
  · subst hu
    have hset : (s.calls.set u new)[u]? = some new :=
      List.getElem?_set_self (List.getElem?_eq_some_iff.1 ht).1
    rw [Function.update_self, KeyedLocks.held, KeyedLocks.move, hset]
    cases new <;> rfl
  · rw [Function.update_of_ne hu, KeyedLocks.held, KeyedLocks.move, KeyedLocks.held,
      List.getElem?_set_ne (Ne.symm hu)]

/-- Two guards with one key are one. -/
theorem Consistent.exclusive (h : Consistent s) {t u : Nat} {key : String}
    (ht : s.held t = some key) (hu : s.held u = some key) : t = u := by
  obtain ⟨m, ht⟩ := held_eq_some.1 ht
  obtain ⟨m', hu⟩ := held_eq_some.1 hu
  have hm : m = m' := by
    have h1 := h.filed t _ key m ht rfl
    rw [h.filed u _ key m' hu rfl, Option.some.injEq] at h1
    exact h1.symm
  subst hm
  have hholder := (h.holder m t).2 ⟨key, ht⟩
  rw [(h.holder m u).2 ⟨key, hu⟩, Option.some.injEq] at hholder
  exact hholder.symm

/-- A stage without a guard is left, or taken up: the table of held keys stays as it is. -/
theorem held_move_same {t : Nat} {old new : Stage} (ht : s.calls[t]? = some old) (m : Nat)
    (l : Lock Nat) (hold : old.guard = none) (hnew : new.guard = none) :
    (s.move t new m l).held = s.held := by
  have hnone : s.held t = none := by
    unfold KeyedLocks.held
    rw [ht]
    cases old <;> first | rfl | cases hold
  rw [held_move ht, hnew, ← hnone, Function.update_eq_self]

/-- A step of the registry is a step of the table, or none. -/
theorem held_step {label : Label} (h : Consistent s) (hstep : step s label = some s') :
    s'.held = s.held ∨ TableStep s.held s'.held := by
  cases label with
  | guard key =>
    simp only [step, Option.some.injEq] at hstep
    subst hstep
    left
    have hcalls : (s.entry key).1.calls = s.calls := by
      unfold KeyedLocks.entry
      split <;> rfl
    funext t
    simp only [KeyedLocks.held, hcalls]
    rcases Nat.lt_trichotomy t s.calls.length with hlt | rfl | hgt
    · rw [List.getElem?_append_left hlt]
    · simp
    · rw [List.getElem?_eq_none (by simp; omega), List.getElem?_eq_none (by omega)]
  | lockOwned t =>
    simp only [step] at hstep
    split at hstep
    · rename_i key m ht
      cases hstep
      exact .inl (held_move_same ht _ _ rfl rfl)
    · cases hstep
  | enter t =>
    simp only [step] at hstep
    split at hstep
    · rename_i key m ht
      split at hstep
      · rename_i u l hgrant
        split_ifs at hstep with hu
        subst hu
        cases hstep
        refine .inr (.take u key ?_ ?_ (held_move ht m l))
        · unfold KeyedLocks.held
          rw [ht]
        · -- who holds the key stands at the mutex of the key, which is free
          intro v hv
          obtain ⟨m', hv⟩ := held_eq_some.1 hv
          have hm := h.filed v _ key m' hv rfl
          rw [h.filed u _ key m ht rfl, Option.some.injEq] at hm
          subst hm
          have hholder := (h.holder m v).2 ⟨key, hv⟩
          rw [(grant_some hgrant).1] at hholder
          cases hholder
      · cases hstep
    · cases hstep
  | drop t =>
    simp only [step] at hstep
    split at hstep
    · rename_i key m ht
      cases hstep
      exact .inr (.give t key (held_eq_some.2 ⟨m, ht⟩) (held_move ht m _))
    · cases hstep
  | cancel t =>
    simp only [step] at hstep
    split at hstep
    · rename_i key m ht
      cases hstep
      exact .inl (held_move_same ht _ _ rfl rfl)
    · rename_i key m ht
      cases hstep
      exact .inl (held_move_same ht _ _ rfl rfl)
    · cases hstep

theorem held_run : ∀ {ls : List Label} {s s' : KeyedLocks}, Consistent s →
    run step s ls = some s' → Relation.ReflTransGen TableStep s.held s'.held
  | [], s, s', _, hrun => by
    simp only [run, Option.some.injEq] at hrun
    rw [hrun]
  | label :: ls, s, s', h, hrun => by
    obtain ⟨t, hstep, hrest⟩ := run_cons_some hrun
    have ih := held_run (consistent_step h hstep) hrest
    rcases held_step h hstep with hsame | htable
    · rwa [← hsame]
    · exact .head htable ih

/-- The transition lets a call with this key in. -/
def enters (key : String) (x : KeyedLocks × Label × KeyedLocks) : Bool :=
  match x.2.1 with
  | .enter u => x.2.2.held u == some key
  | _ => false

/-- The calls that wait in front of the call `t`. -/
def KeyedLocks.ahead (s : KeyedLocks) (t : Nat) : Nat :=
  match s.calls[t]? with
  | some (.queued _ m) => (s.mutexes m).ahead t
  | _ => 0

theorem ahead_queued {t : Nat} {key : String} {m : Nat}
    (ht : s.calls[t]? = some (.queued key m)) : s.ahead t = (s.mutexes m).ahead t := by
  rw [KeyedLocks.ahead, ht]

/-- A call waits, and another one moves on: the mutex of the waiting call is the same, or the other
    one stands at it too. -/
theorem ahead_move {t u : Nat} {new : Stage} {key : String} {m m' : Nat} {l : Lock Nat}
    (ht : s.calls[t]? = some (.queued key m)) (hne : t ≠ u) :
    (s.move u new m' l).calls[t]? = some (.queued key m) ∧
      (s.move u new m' l).ahead t =
        if m = m' then l.ahead t else (s.mutexes m).ahead t := by
  have hcalls : (s.move u new m' l).calls[t]? = some (.queued key m) :=
    getElem?_set_other ht hne
  refine ⟨hcalls, ?_⟩
  rw [ahead_queued hcalls]
  split_ifs with hm
  · subst hm
    simp [KeyedLocks.move]
  · simp [KeyedLocks.move, Function.update_of_ne hm]

/-- Another call moves on without getting in. -/
theorem ahead_move_le {t u : Nat} {new : Stage} {key : String} {m m' : Nat} {l : Lock Nat}
    (ht : s.calls[t]? = some (.queued key m)) (hne : t ≠ u)
    (hl : m = m' → l.ahead t ≤ (s.mutexes m).ahead t) :
    (s.move u new m' l).calls[t]? = some (.queued key m) ∧
      (s.move u new m' l).ahead t + 0 ≤ (s.mutexes m).ahead t := by
  refine ⟨(ahead_move ht hne).1, ?_⟩
  rw [(ahead_move ht hne).2]
  split_ifs with hm
  · exact hl hm
  · exact Nat.le_refl _

/-- A waiting call is still waiting, and each call with its key that gets in brings it forward. -/
theorem ahead_step {t : Nat} {key : String} {m : Nat} {label : Label} (h : Consistent s)
    (ht : s.calls[t]? = some (.queued key m)) (henter : label ≠ .enter t)
    (hcancel : label ≠ .cancel t) (hstep : step s label = some s') :
    s'.calls[t]? = some (.queued key m) ∧
      s'.ahead t + (if enters key (s, label, s') then 1 else 0) ≤ s.ahead t := by
  have hwaits : t ∈ (s.mutexes m).queue := (h.queue m t).2 ⟨key, ht⟩
  rw [ahead_queued ht]
  cases label with
  | guard k =>
    simp only [step, Option.some.injEq] at hstep
    subst hstep
    have hcalls : (s.entry k).1.calls = s.calls := by
      unfold KeyedLocks.entry
      split <;> rfl
    have hmutexes : (s.entry k).1.mutexes = s.mutexes := by
      unfold KeyedLocks.entry
      split <;> rfl
    have ht' : ((s.entry k).1.calls ++ [Stage.cloned k (s.entry k).2])[t]? =
        some (.queued key m) := getElem?_push_other (hcalls ▸ ht)
    refine ⟨ht', ?_⟩
    rw [ahead_queued ht', hmutexes]
    simp [enters]
  | lockOwned u =>
    simp only [step] at hstep
    split at hstep
    · rename_i k m' hu
      cases hstep
      have hne : t ≠ u := by
        rintro rfl
        rw [ht] at hu
        cases hu
      apply ahead_move_le ht hne
      rintro rfl
      exact Nat.le_of_eq (ahead_request hwaits)
    · cases hstep
  | enter u =>
    have hne : t ≠ u := fun htu => henter (by rw [htu])
    simp only [step] at hstep
    split at hstep
    · rename_i k m' hu
      split at hstep
      · rename_i v l hgrant
        split_ifs at hstep with hv
        subst hv
        cases hstep
        refine ⟨(ahead_move ht hne).1, ?_⟩
        rw [(ahead_move ht hne).2]
        by_cases hm : m = m'
        · subst hm
          have hforward := ahead_grant hgrant hne
          split_ifs <;> omega
        · -- a call that gets in at another mutex has another key
          have hother : enters key (s, .enter v, s.move v (.inside k m') m' l) = false := by
            simp only [enters, held_move hu, Function.update_self, Stage.guard]
            rw [beq_eq_false_iff_ne]
            rintro ⟨⟩
            have hsame := h.filed v _ key m' hu rfl
            rw [h.filed t _ key m ht rfl, Option.some.injEq] at hsame
            exact hm hsame
          rw [hother, if_neg hm]
          exact Nat.le_refl _
      · cases hstep
    · cases hstep
  | drop u =>
    simp only [step] at hstep
    split at hstep
    · rename_i k m' hu
      cases hstep
      have hne : t ≠ u := by
        rintro rfl
        rw [ht] at hu
        cases hu
      apply ahead_move_le ht hne
      rintro rfl
      exact Nat.le_refl _
    · cases hstep
  | cancel u =>
    have hne : t ≠ u := fun htu => hcancel (by rw [htu])
    simp only [step] at hstep
    split at hstep
    · rename_i k m' hu
      cases hstep
      apply ahead_move_le ht hne
      rintro rfl
      exact Nat.le_refl _
    · rename_i k m' hu
      cases hstep
      apply ahead_move_le ht hne
      rintro rfl
      exact ahead_cancel _ hne
    · cases hstep

/-- **First come, first served, key by key.**  While a call waits, either a call with its key has
    the guard or one with its key can get it at once; and as long as it waits, no more calls with
    its key get in than waited in front of it. -/
theorem guard_first_come (ls : List Label) (s : KeyedLocks)
    (hrun : run step .default ls = some s) (t : Nat) (key : String) (m : Nat)
    (ht : s.calls[t]? = some (.queued key m)) :
    ((∃ u, s.held u = some key) ∨
      ∃ u, s.calls[u]? = some (.queued key m) ∧ (step s (.enter u)).isSome) ∧
    ∀ (ls' : List Label) (s' : KeyedLocks), run step s ls' = some s' → .enter t ∉ ls' →
      .cancel t ∉ ls' → (steps step s ls').countP (enters key) ≤ s.ahead t := by
  have h := consistent_run hrun
  have hwaits : t ∈ (s.mutexes m).queue := (h.queue m t).2 ⟨key, ht⟩
  have hkey : ∀ {u : Nat} {stage : Stage} {k : String}, s.calls[u]? = some stage →
      stage.place = some (k, m) → k = key := fun hu hplace =>
    h.injective _ _ m (h.filed _ _ _ m hu hplace) (h.filed t _ key m ht rfl)
  constructor
  · cases hholder : (s.mutexes m).holder with
    | some u =>
      obtain ⟨k, hu⟩ := (h.holder m u).1 hholder
      obtain rfl := hkey hu rfl
      exact .inl ⟨u, held_eq_some.2 ⟨m, hu⟩⟩
    | none =>
      obtain ⟨u, l, hgrant, hmem⟩ := grant_of_free hholder hwaits
      obtain ⟨k, hu⟩ := (h.queue m u).1 hmem
      obtain rfl := hkey hu rfl
      refine .inr ⟨u, hu, ?_⟩
      simp [step, hu, hgrant]
  · intro ls' s' hrun' henter hcancel
    have hlabel : ∀ x ∈ steps step s ls', x.2.1 ≠ .enter t ∧ x.2.1 ≠ .cancel t := by
      intro x hx
      have hmem := label_mem_of_mem_steps ls' s x hx
      exact ⟨fun he => henter (he ▸ hmem), fun hc => hcancel (hc ▸ hmem)⟩
    have hkeep : ∀ (x : KeyedLocks) (label : Label) (x' : KeyedLocks),
        (Consistent x ∧ x.calls[t]? = some (.queued key m)) →
        (label ≠ .enter t ∧ label ≠ .cancel t) → step x label = some x' →
        (Consistent x' ∧ x'.calls[t]? = some (.queued key m)) := by
      intro x label x' hx hok hstep
      exact ⟨consistent_step hx.1 hstep, (ahead_step hx.1 hx.2 hok.1 hok.2 hstep).1⟩
    have hforward : ∀ x ∈ steps step s ls',
        x.2.2.ahead t + (if enters key x then 1 else 0) ≤ x.1.ahead t := by
      intro x hx
      obtain ⟨⟨hcons, hqueued⟩, -⟩ := steps_invariant hkeep ls' s ⟨h, ht⟩ hlabel x hx
      exact (ahead_step hcons hqueued (hlabel x hx).1 (hlabel x hx).2
        (step_of_mem_steps ls' s x hx)).2
    have hcount := countP_steps_le (fun x => x.ahead t) (enters key) hrun' hforward
    omega

/-- Two pulls of one reference and one of another; the second pull of the first waits. -/
def threePulls : List Label :=
  [.guard "a", .lockOwned 0, .enter 0, .guard "a", .guard "b", .lockOwned 1, .lockOwned 2, .enter 2]

theorem threePulls_first_come : ∃ s, run step .default threePulls = some s ∧ s.ahead 1 = 0 ∧
    ∀ (ls' : List Label) (s' : KeyedLocks), run step s ls' = some s' → .enter 1 ∉ ls' →
      .cancel 1 ∉ ls' → (steps step s ls').countP (enters "a") ≤ s.ahead 1 := by
  obtain ⟨s, hs⟩ : ∃ s, run step .default threePulls = some s := ⟨_, rfl⟩
  have ht : s.calls[1]? = some (.queued "a" 0) := by
    cases hs
    rfl
  have hahead : s.ahead 1 = 0 := by
    cases hs
    rfl
  exact ⟨s, hs, hahead, (guard_first_come _ s hs 1 "a" 0 ht).2⟩

end ContainerdRs.Cri.Locks

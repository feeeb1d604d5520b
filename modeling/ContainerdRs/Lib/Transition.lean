/-!
# Labelled transition systems and their runs

A system is a step function `step : σ → ℓ → Option σ`: the label names the party that moves and
carries every choice the environment makes (scheduling, results of system calls); `none` means
that the label is not enabled.  A *schedule* is a list of labels.

* `run` — execute a schedule; `steps` — the transitions `(source, label, target)` it takes;
  `Trace` — both at once, for a schedule put together from parts.
* `run_invariant` — a property kept by every step that meets a side condition holds at the end
  of every run whose steps all meet it; `steps_invariant` — and on both sides of every step.
* `forall_steps_iff` — where one step satisfies `P` exactly when it meets `Ok`, a whole run
  does too; `forall_steps_iff_of` — along runs whose steps are known to meet a third condition.
* `countP_steps_le` — steps that use up a rank are no more than the rank.
* `getElem?_set_cases`, `mem_set_cases`, `getElem?_push_cases` — where the state holds a list of
  parties: who is there after one of them has moved, or another has arrived.
-/

set_option autoImplicit false

namespace Transition

variable {σ ℓ : Type}

/-- Execute a schedule. -/
def run (step : σ → ℓ → Option σ) : σ → List ℓ → Option σ
  | s, [] => some s
  | s, l :: ls =>
    match step s l with
    | none => none
    | some s' => run step s' ls

/-- The transitions a schedule takes, in order (up to the first label that is not enabled). -/
def steps (step : σ → ℓ → Option σ) : σ → List ℓ → List (σ × ℓ × σ)
  | _, [] => []
  | s, l :: ls =>
    match step s l with
    | none => []
    | some s' => (s, l, s') :: steps step s' ls

variable {step : σ → ℓ → Option σ}

theorem run_cons_some {s s' : σ} {l : ℓ} {ls : List ℓ} (h : run step s (l :: ls) = some s') :
    ∃ t, step s l = some t ∧ run step t ls = some s' := by
  simp only [run] at h
  split at h
  · cases h
  · rename_i t ht; exact ⟨t, ht, h⟩

/-- A schedule runs in two parts. -/
theorem run_append : ∀ {ls : List ℓ} {s t : σ} {ls' : List ℓ}, run step s ls = some t →
    run step s (ls ++ ls') = run step t ls'
  | [], s, t, ls', h => by
    simp only [run, Option.some.injEq] at h
    rw [h, List.nil_append]
  | l :: ls, s, t, ls', h => by
    obtain ⟨u, hu, hr⟩ := run_cons_some h
    rw [List.cons_append, run, hu]
    exact run_append hr

theorem run_append_some : ∀ {ls ls' : List ℓ} {s s' : σ}, run step s (ls ++ ls') = some s' →
    ∃ t, run step s ls = some t ∧ run step t ls' = some s'
  | [], _, s, _, h => ⟨s, rfl, h⟩
  | l :: ls, ls', s, s', h => by
    obtain ⟨u, hu, hr⟩ := run_cons_some h
    obtain ⟨t, ht, hr'⟩ := run_append_some hr
    refine ⟨t, ?_, hr'⟩
    rw [run, hu]
    exact ht

theorem steps_cons {s t : σ} {l : ℓ} (ls : List ℓ) (h : step s l = some t) :
    steps step s (l :: ls) = (s, l, t) :: steps step t ls := by
  simp [steps, h]

/-- The schedule runs to `t`, by the transitions `xs`. -/
structure Trace (step : σ → ℓ → Option σ) (s : σ) (ls : List ℓ) (t : σ) (xs : List (σ × ℓ × σ)) :
    Prop where
  run : run step s ls = some t
  steps : steps step s ls = xs

theorem Trace.nil (s : σ) : Trace step s [] s [] := ⟨rfl, rfl⟩

theorem Trace.cons {s s' t : σ} {l : ℓ} {ls : List ℓ} {xs : List (σ × ℓ × σ)}
    (h : step s l = some s') (ht : Trace step s' ls t xs) :
    Trace step s (l :: ls) t ((s, l, s') :: xs) := by
  constructor
  · rw [Transition.run, h]
    exact ht.run
  · rw [steps_cons ls h, ht.steps]

theorem Trace.append {ls' : List ℓ} {t u : σ} {ys : List (σ × ℓ × σ)}
    (ht' : Trace step t ls' u ys) : ∀ {ls : List ℓ} {s : σ} {xs : List (σ × ℓ × σ)},
      Trace step s ls t xs → Trace step s (ls ++ ls') u (xs ++ ys)
  | [], s, xs, ht => by
    obtain ⟨hrun, rfl⟩ := ht
    cases hrun
    exact ht'
  | l :: ls, s, xs, ht => by
    obtain ⟨hrun, rfl⟩ := ht
    obtain ⟨s', hs, hrun'⟩ := run_cons_some hrun
    rw [steps_cons ls hs]
    exact Trace.cons hs (Trace.append ht' ⟨hrun', rfl⟩)

/-- Every recorded transition is a step of the system. -/
theorem step_of_mem_steps : ∀ (ls : List ℓ) (s : σ) (x : σ × ℓ × σ), x ∈ steps step s ls →
    step x.1 x.2.1 = some x.2.2
  | [], _, _, h => by cases h
  | l :: ls, s, x, h => by
    simp only [steps] at h
    split at h
    · cases h
    · rename_i t ht
      rcases List.mem_cons.1 h with rfl | h
      · exact ht
      · exact step_of_mem_steps ls t x h

/-- Every recorded transition carries a label of the schedule. -/
theorem label_mem_of_mem_steps : ∀ (ls : List ℓ) (s : σ) (x : σ × ℓ × σ), x ∈ steps step s ls →
    x.2.1 ∈ ls
  | [], _, _, h => by cases h
  | l :: ls, s, x, h => by
    simp only [steps] at h
    split at h
    · cases h
    · rename_i t ht
      rcases List.mem_cons.1 h with rfl | h
      · exact List.mem_cons_self
      · exact List.mem_cons_of_mem _ (label_mem_of_mem_steps ls t x h)

variable {Inv : σ → Prop} {Ok : σ → ℓ → Prop}

/-- **Invariants along a run** whose steps all meet `Ok`. -/
theorem run_invariant (hstep : ∀ s l s', Inv s → Ok s l → step s l = some s' → Inv s') :
    ∀ (ls : List ℓ) (s s' : σ), Inv s → (∀ x ∈ steps step s ls, Ok x.1 x.2.1) →
      run step s ls = some s' → Inv s'
  | [], s, s', hi, _, h => by
    simp only [run, Option.some.injEq] at h
    exact h ▸ hi
  | l :: ls, s, s', hi, hok, h => by
    obtain ⟨t, ht, hr⟩ := run_cons_some h
    rw [steps_cons ls ht] at hok
    have hok1 := hok _ List.mem_cons_self
    exact run_invariant hstep ls t s' (hstep s l t hi hok1 ht)
      (fun x hx => hok x (List.mem_cons_of_mem _ hx)) hr

/-- An invariant that every step keeps. -/
theorem run_keeps (hstep : ∀ s l s', Inv s → step s l = some s' → Inv s') {ls : List ℓ}
    {s s' : σ} (hi : Inv s) (h : run step s ls = some s') : Inv s' := by
  have hkeep : ∀ s l s', Inv s → True → step s l = some s' → Inv s' :=
    fun s l s' hs _ hl => hstep s l s' hs hl
  exact run_invariant hkeep ls s s' hi (fun _ _ => trivial) h

/-- The invariant holds before and after every step of such a run. -/
theorem steps_invariant (hstep : ∀ s l s', Inv s → Ok s l → step s l = some s' → Inv s') :
    ∀ (ls : List ℓ) (s : σ), Inv s → (∀ x ∈ steps step s ls, Ok x.1 x.2.1) →
      ∀ x ∈ steps step s ls, Inv x.1 ∧ Inv x.2.2
  | [], _, _, _, _, h => by cases h
  | l :: ls, s, hi, hok, x, hx => by
    simp only [steps] at hx
    split at hx
    · cases hx
    · rename_i t ht
      rw [steps_cons ls ht] at hok
      have hit := hstep s l t hi (hok _ List.mem_cons_self) ht
      rcases List.mem_cons.1 hx with rfl | hx
      · exact ⟨hi, hit⟩
      · exact steps_invariant hstep ls t hit (fun y hy => hok y (List.mem_cons_of_mem _ hy)) x hx

/-- A run satisfies `P` step by step exactly when all its steps meet `Ok`, provided the two
    agree on each single step out of a state with the invariant. -/
theorem forall_steps_iff {P : σ × ℓ × σ → Prop}
    (hstep : ∀ s l s', Inv s → Ok s l → step s l = some s' → Inv s')
    (hiff : ∀ s l s', Inv s → step s l = some s' → (P (s, l, s') ↔ Ok s l)) :
    ∀ (ls : List ℓ) (s : σ), Inv s →
      ((∀ x ∈ steps step s ls, P x) ↔ ∀ x ∈ steps step s ls, Ok x.1 x.2.1)
  | [], _, _ => by simp [steps]
  | l :: ls, s, hi => by
    cases ht : step s l with
    | none => simp [steps, ht]
    | some t =>
      rw [steps_cons ls ht]
      simp only [List.forall_mem_cons]
      have h1 := hiff s l t hi ht
      constructor
      · rintro ⟨hp, hps⟩
        have hok := h1.1 hp
        exact ⟨hok, (forall_steps_iff hstep hiff ls t (hstep s l t hi hok ht)).1 hps⟩
      · rintro ⟨hok, hoks⟩
        exact ⟨h1.2 hok, (forall_steps_iff hstep hiff ls t (hstep s l t hi hok ht)).2 hoks⟩

/-- The same along a run whose steps are known to meet a condition of their own. -/
theorem forall_steps_iff_of {P : σ × ℓ × σ → Prop} {Known : σ → ℓ → Prop}
    (hstep : ∀ s l s', Inv s → Known s l → Ok s l → step s l = some s' → Inv s')
    (hiff : ∀ s l s', Inv s → Known s l → step s l = some s' → (P (s, l, s') ↔ Ok s l))
    (ls : List ℓ) (s : σ) (hi : Inv s) (hknown : ∀ x ∈ steps step s ls, Known x.1 x.2.1) :
    (∀ x ∈ steps step s ls, P x) ↔ ∀ x ∈ steps step s ls, Ok x.1 x.2.1 := by
  have hstep' : ∀ s l s', Inv s → (Ok s l ∧ Known s l) → step s l = some s' → Inv s' :=
    fun s l s' hi hok h => hstep s l s' hi hok.2 hok.1 h
  have key : (∀ x ∈ steps step s ls, P x ∧ Known x.1 x.2.1) ↔
      ∀ x ∈ steps step s ls, Ok x.1 x.2.1 ∧ Known x.1 x.2.1 :=
    forall_steps_iff hstep' (fun s l s' hi h => and_congr_left fun hk => hiff s l s' hi hk h) ls s
      hi
  constructor
  · intro h x hx
    exact (key.1 (fun y hy => ⟨h y hy, hknown y hy⟩) x hx).1
  · intro h x hx
    exact (key.2 (fun y hy => ⟨h y hy, hknown y hy⟩) x hx).1

/-- **Counting steps**: where no step adds to `rank` and a marked one takes from it, a run has no
    more marked steps than `rank` at its start. -/
theorem countP_steps_le (rank : σ → Nat) (marked : σ × ℓ × σ → Bool) :
    ∀ {ls : List ℓ} {s s' : σ}, run step s ls = some s' →
      (∀ x ∈ steps step s ls, rank x.2.2 + (if marked x then 1 else 0) ≤ rank x.1) →
      (steps step s ls).countP marked + rank s' ≤ rank s
  | [], s, s', h, _ => by
    simp only [run, Option.some.injEq] at h
    simp [steps, h]
  | l :: ls, s, s', h, hrank => by
    obtain ⟨t, ht, hr⟩ := run_cons_some h
    rw [steps_cons ls ht] at hrank ⊢
    have hhead := hrank _ List.mem_cons_self
    have ih := countP_steps_le rank marked hr fun x hx => hrank x (List.mem_cons_of_mem _ hx)
    rw [List.countP_cons]
    dsimp only at hhead
    omega

/-! ## A list of parties, one of which moves -/

section parties

variable {α : Type} {parties : List α} {t u : Nat} {new x : α}

/-- The party at a place is the one that has moved, or one from before at another place. -/
theorem getElem?_set_cases (h : (parties.set t new)[u]? = some x) :
    (u = t ∧ x = new) ∨ (u ≠ t ∧ parties[u]? = some x) := by
  rw [List.getElem?_set] at h
  split at h
  · rename_i htu
    split at h
    · exact .inl ⟨htu.symm, (Option.some.inj h).symm⟩
    · cases h
  · rename_i htu
    exact .inr ⟨fun hut => htu hut.symm, h⟩

/-- The party at a place is the one that has arrived, or one from before. -/
theorem getElem?_push_cases (h : (parties ++ [new])[u]? = some x) :
    (u = parties.length ∧ x = new) ∨ parties[u]? = some x := by
  rcases Nat.lt_or_ge u parties.length with hlt | hge
  · rw [List.getElem?_append_left hlt] at h
    exact .inr h
  · rw [List.getElem?_append_right hge] at h
    cases hk : u - parties.length with
    | zero =>
      rw [hk] at h
      exact .inl ⟨by omega, (Option.some.inj h).symm⟩
    | succ k =>
      rw [hk] at h
      cases h

/-- Who was there before an arrival is there after it. -/
theorem getElem?_push_other (h : parties[u]? = some x) : (parties ++ [new])[u]? = some x := by
  rw [List.getElem?_append_left (List.getElem?_eq_some_iff.1 h).1]
  exact h

theorem mem_set_cases (h : x ∈ parties.set t new) :
    x = new ∨ ∃ u, u ≠ t ∧ parties[u]? = some x := by
  obtain ⟨u, hu⟩ := List.getElem?_of_mem h
  rcases getElem?_set_cases hu with ⟨-, hx⟩ | ⟨hne, hu⟩
  · exact .inl hx
  · exact .inr ⟨u, hne, hu⟩

/-- The others stand where they stood. -/
theorem getElem?_set_other (h : parties[u]? = some x) (hne : u ≠ t) :
    (parties.set t new)[u]? = some x := by
  rw [List.getElem?_set_ne (Ne.symm hne)]
  exact h

theorem mem_set_other (h : parties[u]? = some x) (hne : u ≠ t) : x ∈ parties.set t new :=
  List.mem_of_getElem? (getElem?_set_other h hne)

end parties

end Transition

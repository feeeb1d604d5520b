import Mathlib.Tactic.Basic

/-!
# Computations that can fail, over a state that failure leaves as it is

`Fallible ε σ α` is `ExceptT ε (StateM σ) α`: when a step fails the steps before it have taken
place, and nothing undoes them but what the program itself does.

* `exec` — result and final state; `exec_bind_ok`, `exec_bind_error` — one step after another;
  `exec_bind_some`, `exec_check_some` — the steps of what has succeeded.
* `Keeps P x` — whether `x` succeeds or fails, `P` stays true of the state.
* `RollsBack R x s` — if `x` fails from `s`, it leaves a state with `R`.
* `rollsBack_bind`, `rollsBack_check`, `succeeds_bind` — through a sequence of steps.
* `WorksThrough step xs x` — `x` does `step` for the first of `xs`, and for all when it succeeds;
  `worksThrough_forM` — a loop over lists of things to do.
* `rollsBack_iff_succeeds` — once something is held that no later step lets go of, there is
  nothing left but to succeed.
-/

set_option autoImplicit false

/-- A computation over the state `σ` that can fail with an `ε`. -/
abbrev Fallible (ε σ : Type) := ExceptT ε (StateM σ)

namespace Fallible

variable {ε σ α β : Type}

/-- The result of a computation, and the state it leaves. -/
def exec (x : Fallible ε σ α) (s : σ) : Except ε α × σ := x s

/-- A check of something other than the state. -/
def check (r : Except ε α) : Fallible ε σ α := fun s => (r, s)

/-- A step of the outside world. -/
def act (f : σ → Except ε α × σ) : Fallible ε σ α := f

/-- A step that cannot fail. -/
def change (f : σ → σ) : Fallible ε σ Unit := fun s => (.ok (), f s)

variable {x : Fallible ε σ α} {f : α → Fallible ε σ β} {s t : σ} {a : α} {e : ε}

@[simp] theorem exec_pure (a : α) (s : σ) : exec (pure a : Fallible ε σ α) s = (.ok a, s) := rfl

@[simp] theorem exec_check (r : Except ε α) (s : σ) : exec (check r) s = (r, s) := rfl

@[simp] theorem exec_act (f : σ → Except ε α × σ) (s : σ) : exec (act f) s = f s := rfl

@[simp] theorem exec_change (f : σ → σ) (s : σ) :
    exec (change f : Fallible ε σ Unit) s = (.ok (), f s) := rfl

theorem exec_bind_ok (h : exec x s = (.ok a, t)) : exec (x >>= f) s = exec (f a) t := by
  simp only [exec, bind, ExceptT.bind, ExceptT.mk, StateT.bind]
  rw [show x s = (.ok a, t) from h]
  rfl

theorem exec_bind_error (h : exec x s = (.error e, t)) : exec (x >>= f) s = (.error e, t) := by
  simp only [exec, bind, ExceptT.bind, ExceptT.mk, StateT.bind]
  rw [show x s = (.error e, t) from h]
  rfl

/-- What succeeds has succeeded step by step. -/
theorem exec_bind_some {b : β} (h : exec (x >>= f) s = (.ok b, t)) :
    ∃ a u, exec x s = (.ok a, u) ∧ exec (f a) u = (.ok b, t) := by
  rcases hx : exec x s with ⟨e | a, u⟩
  · rw [exec_bind_error hx] at h
    cases h
  · rw [exec_bind_ok hx] at h
    exact ⟨a, u, rfl, h⟩

theorem exec_check_some {b : β} {r : Except ε α} (h : exec (check r >>= f) s = (.ok b, t)) :
    ∃ a, r = .ok a ∧ exec (f a) s = (.ok b, t) := by
  obtain ⟨a, u, hx, hf⟩ := exec_bind_some h
  cases hx
  exact ⟨a, rfl, hf⟩

/-- The results follow each other as those of `Except`. -/
theorem exec_bind_fst :
    (exec (x >>= f) s).1 = (exec x s).1 >>= fun a => (exec (f a) (exec x s).2).1 := by
  rcases h : exec x s with ⟨_ | a, t⟩
  · rw [exec_bind_error h]
    rfl
  · rw [exec_bind_ok h]
    rfl

/-- The computation succeeds. -/
def Succeeds (x : Fallible ε σ α) (s : σ) : Prop := ∃ a, (exec x s).1 = .ok a

/-- `P` stays true of the state. -/
def Keeps (P : σ → Prop) (x : Fallible ε σ α) : Prop := ∀ s, P s → P (exec x s).2

/-- What a failure leaves. -/
def RollsBack (R : σ → Prop) (x : Fallible ε σ α) (s : σ) : Prop :=
  ∀ e, (exec x s).1 = .error e → R (exec x s).2

section keeps

variable {P : σ → Prop}

theorem Keeps.pure (a : α) : Keeps P (pure a : Fallible ε σ α) := fun _ h => h

theorem Keeps.check (r : Except ε α) : Keeps P (check r : Fallible ε σ α) := fun _ h => h

theorem Keeps.bind (hx : Keeps P x) (hf : ∀ a, Keeps P (f a)) : Keeps P (x >>= f) := by
  intro s hs
  have ht := hx s hs
  rcases h : exec x s with ⟨_ | a, t⟩
  · rw [exec_bind_error h]
    rw [h] at ht
    exact ht
  · rw [exec_bind_ok h]
    rw [h] at ht
    exact hf a t ht

end keeps

/-- Both steps succeed. -/
theorem succeeds_bind :
    Succeeds (x >>= f) s ↔ ∃ a, (exec x s).1 = .ok a ∧ Succeeds (f a) (exec x s).2 := by
  unfold Succeeds
  rcases h : exec x s with ⟨_ | a, t⟩
  · simp [exec_bind_error h]
  · simp [exec_bind_ok h]

section worksThrough

variable {γ : Type} {step : σ → γ → σ} {xs ys : List γ} {x y : Fallible ε σ Unit}

/-- `x` does the steps for a first part of `xs`, and for all of it if it succeeds. -/
def WorksThrough (step : σ → γ → σ) (xs : List γ) (x : Fallible ε σ Unit) : Prop :=
  ∀ s, ∃ done, done <+: xs ∧ (exec x s).2 = done.foldl step s ∧
    ((exec x s).1 = .ok () → done = xs)

theorem worksThrough_pure (step : σ → γ → σ) :
    WorksThrough step [] (pure () : Fallible ε σ Unit) :=
  fun _ => ⟨[], List.prefix_refl _, rfl, fun _ => rfl⟩

/-- A check that may stop it. -/
theorem WorksThrough.check (hx : WorksThrough step xs x) (r : Except ε Unit) :
    WorksThrough step xs (check r >>= fun _ => x) := by
  intro s
  cases r with
  | error e =>
    rw [exec_bind_error (exec_check (.error e) s)]
    refine ⟨[], List.nil_prefix, rfl, fun h => ?_⟩
    cases h
  | ok u =>
    rw [exec_bind_ok (exec_check (.ok u) s)]
    exact hx s

theorem WorksThrough.bind (hx : WorksThrough step xs x) (hy : WorksThrough step ys y) :
    WorksThrough step (xs ++ ys) (x >>= fun _ => y) := by
  intro s
  obtain ⟨done, hpre, hstate, hall⟩ := hx s
  rcases h : exec x s with ⟨e | u, t⟩
  · rw [h] at hstate
    rw [exec_bind_error h]
    refine ⟨done, hpre.trans (List.prefix_append xs ys), hstate, fun hok => ?_⟩
    cases hok
  · rw [h] at hstate hall
    obtain rfl : done = xs := hall rfl
    obtain ⟨done', hpre', hstate', hall'⟩ := hy t
    rw [exec_bind_ok h]
    refine ⟨done ++ done', (List.prefix_append_right_inj done).2 hpre', ?_, fun hok => ?_⟩
    · rw [hstate', show t = done.foldl step s from hstate, List.foldl_append]
    · rw [hall' hok]

/-- A loop, each round of which has a list of things to do. -/
theorem worksThrough_forM {items : β → List γ} {f : β → Fallible ε σ Unit}
    (hf : ∀ b, WorksThrough step (items b) (f b)) : ∀ bs : List β,
    WorksThrough step (bs.flatMap items) (bs.forM f)
  | [] => worksThrough_pure step
  | b :: bs => by
    rw [List.flatMap_cons]
    exact (hf b).bind (worksThrough_forM hf bs)

end worksThrough

section rollsBack

variable {R P : σ → Prop}

/-- One step after another. -/
theorem rollsBack_bind :
    RollsBack R (x >>= f) s ↔
      RollsBack R x s ∧ ∀ a, (exec x s).1 = .ok a → RollsBack R (f a) (exec x s).2 := by
  unfold RollsBack
  rcases h : exec x s with ⟨_ | a, t⟩
  · simp [exec_bind_error h]
  · simp [exec_bind_ok h]

/-- A check first. -/
theorem rollsBack_check (hR : R s) {r : Except ε α} :
    RollsBack R (check r >>= f) s ↔ ∀ a, r = .ok a → RollsBack R (f a) s := by
  rw [rollsBack_bind]
  exact ⟨fun h => h.2, fun h => ⟨fun _ _ => hR, h⟩⟩

/-- Something is held that no step lets go of. -/
theorem rollsBack_iff_succeeds (hx : Keeps P x) (hs : P s) (hR : ∀ t, P t → ¬ R t) :
    RollsBack R x s ↔ Succeeds x s := by
  constructor
  · intro h
    cases hres : (exec x s).1 with
    | error e => exact absurd (h e hres) (hR _ (hx s hs))
    | ok a => exact ⟨a, hres⟩
  · rintro ⟨a, ha⟩ e he
    rw [ha] at he
    cases he

end rollsBack

end Fallible

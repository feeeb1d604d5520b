/-!
# Parsing a stream that arrives in chunks

A `Machine` looks at the front of a buffer and says that it needs more input, that it has taken
some symbols and goes on, or that it stops.  `drain` runs it on one buffer until it needs more
or stops; `feed` appends the chunks of a stream one after another and drains after each.

The laws of a machine are those of a parser with a length prefix: it takes something when it
goes on, it leaves its state alone when it needs more, and input behind what decided an answer
does not change the answer.

* `drain_append` — draining a longer buffer continues where the shorter one was left.
* `drain_invariant` — what every item keeps holds at the end.
* `feed_eq_drain` — chunk by chunk, or all at once: the same state, the same number of symbols
  taken, the same stop.
-/

set_option autoImplicit false

namespace Incremental

variable {σ α ε : Type}

/-- One look at the front of a buffer. -/
inductive Answer (σ ε : Type) where
  | more (s : σ)
  /-- `n` symbols taken; go on. -/
  | next (n : Nat) (s : σ)
  /-- `n` symbols taken; the run is over. -/
  | stop (e : ε) (n : Nat) (s : σ)

/-- An incremental parser with what it does with its items. -/
structure Machine (σ α ε : Type) where
  look : σ → List α → Answer σ ε
  idle : ∀ {s s' : σ} {buf : List α}, look s buf = .more s' → s' = s
  progress : ∀ {s s' : σ} {buf : List α} {n : Nat}, look s buf = .next n s' →
    0 < n ∧ n ≤ buf.length
  stable : ∀ {s : σ} {buf : List α}, (∀ s', look s buf ≠ .more s') →
    ∀ rest, look s (buf ++ rest) = look s buf

/-- The end of a run: the state, the symbols taken, and the stop unless more input is needed. -/
structure Outcome (σ ε : Type) where
  state : σ
  taken : Nat
  stop : Option ε

/-- The outcome of a run that has taken `n` symbols before. -/
def Outcome.after (n : Nat) (o : Outcome σ ε) : Outcome σ ε := { o with taken := n + o.taken }

variable (M : Machine σ α ε)

/-- Take items from the buffer as long as they are complete. -/
def drain (s : σ) (buf : List α) : Outcome σ ε :=
  match _h : M.look s buf with
  | .more s' => ⟨s', 0, none⟩
  | .stop e n s' => ⟨s', n, some e⟩
  | .next n s' => (drain s' (buf.drop n)).after n
  termination_by buf.length
  decreasing_by
    have := M.progress _h
    rw [List.length_drop]
    omega

/-- Drain, then append the next chunk and go on; the stream ends with the chunks. -/
def feed : σ → List α → List (List α) → Outcome σ ε
  | s, buf, [] => drain M s buf
  | s, buf, chunk :: chunks =>
    match drain M s buf with
    | ⟨s', n, some e⟩ => ⟨s', n, some e⟩
    | ⟨s', n, none⟩ => (feed s' (buf.drop n ++ chunk) chunks).after n

variable {M}

theorem drain_more {s s' : σ} {buf : List α} (h : M.look s buf = .more s') :
    drain M s buf = ⟨s', 0, none⟩ := by
  rw [drain]
  split <;> simp_all

theorem drain_stop {s s' : σ} {buf : List α} {e : ε} {n : Nat}
    (h : M.look s buf = .stop e n s') : drain M s buf = ⟨s', n, some e⟩ := by
  rw [drain]
  split <;> simp_all

theorem drain_next {s s' : σ} {buf : List α} {n : Nat} (h : M.look s buf = .next n s') :
    drain M s buf = (drain M s' (buf.drop n)).after n := by
  rw [drain]
  split <;> simp_all

/-- A property of the state that every item keeps gives a property of where the drain ends. -/
theorem drain_invariant {P Q : σ → Prop}
    (hnext : ∀ s buf n s', P s → M.look s buf = .next n s' → P s')
    (hmore : ∀ s buf s', P s → M.look s buf = .more s' → Q s')
    (hstop : ∀ s buf e n s', P s → M.look s buf = .stop e n s' → Q s') (s : σ)
    (buf : List α) (hs : P s) : Q (drain M s buf).state := by
  induction hk : buf.length using Nat.strongRecOn generalizing s buf with
  | ind k ih =>
    subst hk
    cases h : M.look s buf with
    | more s' =>
      rw [drain_more h]
      exact hmore s buf s' hs h
    | stop e n s' =>
      rw [drain_stop h]
      exact hstop s buf e n s' hs h
    | next n s' =>
      have hp := M.progress h
      rw [drain_next h]
      exact ih (buf.drop n).length (by rw [List.length_drop]; omega) s' _
        (hnext s buf n s' hs h) rfl

/-- **Draining a longer buffer** goes on where the shorter one was left, unless the run stopped
    there. -/
theorem drain_append (s : σ) (buf rest : List α) :
    drain M s (buf ++ rest) =
      match drain M s buf with
      | ⟨s', n, some e⟩ => ⟨s', n, some e⟩
      | ⟨s', n, none⟩ => (drain M s' (buf.drop n ++ rest)).after n := by
  induction hk : buf.length using Nat.strongRecOn generalizing s buf with
  | ind k ih =>
    subst hk
    cases h : M.look s buf with
    | more s' =>
      obtain rfl := M.idle h
      simp [drain_more h, Outcome.after]
    | stop e n s' =>
      have hst : M.look s (buf ++ rest) = .stop e n s' := by
        rw [M.stable (by simp [h]), h]
      simp only [drain_stop h, drain_stop hst]
    | next n s' =>
      have hp := M.progress h
      have hst : M.look s (buf ++ rest) = .next n s' := by
        rw [M.stable (by simp [h]), h]
      have ih := ih (buf.drop n).length (by rw [List.length_drop]; omega) s' (buf.drop n) rfl
      rw [drain_next h, drain_next hst, List.drop_append_of_le_length hp.2, ih]
      cases ho : drain M s' (buf.drop n) with
      | mk s'' m stop =>
        cases stop with
        | some e => rfl
        | none => simp [Outcome.after, List.drop_drop, Nat.add_assoc]

/-- **Chunking does not matter**: feeding chunk by chunk is draining the whole stream. -/
theorem feed_eq_drain : ∀ (chunks : List (List α)) (s : σ) (buf : List α),
    feed M s buf chunks = drain M s (buf ++ chunks.flatten)
  | [], s, buf => by simp [feed]
  | chunk :: chunks, s, buf => by
    rw [List.flatten_cons, drain_append, feed]
    cases ho : drain M s buf with
    | mk s' n stop =>
      cases stop with
      | some e => rfl
      | none =>
        simp only
        rw [feed_eq_drain chunks, List.append_assoc]

end Incremental

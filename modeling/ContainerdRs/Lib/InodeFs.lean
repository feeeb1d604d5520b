import Mathlib.Logic.Function.Basic

/-!
# A flat file system with inodes

Directory entries name inodes, inodes hold contents, and an open handle is an inode: a write
through a handle reaches the file under whatever name it has by then.  `rename` replaces its
destination atomically.

* `WellFormed` — no two names share an inode (no hard links), and the allocator is ahead of
  every inode in use.
* `createFile_wellFormed`, `append_wellFormed`, `unlink_wellFormed`, `rename_wellFormed` — each
  operation keeps it.
* `Untouched` — a name keeps its inode and the inode its contents; one lemma for each operation
  says which names it leaves untouched.
-/

set_option autoImplicit false

/-- A flat file system over the path names `P` and the content units `β`. -/
structure InodeFs (P β : Type) where
  dirent : P → Option Nat
  data : Nat → List β
  next : Nat

namespace InodeFs

variable {P β : Type} [DecidableEq P]

/-- `open(O_CREAT | O_TRUNC)`: the handle and the new state. -/
def createFile (fs : InodeFs P β) (p : P) : Nat × InodeFs P β :=
  match fs.dirent p with
  | some i => (i, { fs with data := Function.update fs.data i [] })
  | none =>
    (fs.next, { dirent := Function.update fs.dirent p (some fs.next)
                data := Function.update fs.data fs.next []
                next := fs.next + 1 })

/-- `write(2)` at the end of the file behind handle `i`. -/
def append (fs : InodeFs P β) (i : Nat) (bs : List β) : InodeFs P β :=
  { fs with data := Function.update fs.data i (fs.data i ++ bs) }

/-- `write(2)` at offset `off` of the file behind handle `i`: what stands there is overwritten, a
    hole before it reads as `zero`. -/
def writeAt (fs : InodeFs P β) (zero : β) (i off : Nat) (bs : List β) : InodeFs P β :=
  { fs with
    data := Function.update fs.data i
      ((fs.data i).take off ++ List.replicate (off - (fs.data i).length) zero ++ bs ++
        (fs.data i).drop (off + bs.length)) }

/-- `unlink(2)`. -/
def unlink (fs : InodeFs P β) (p : P) : InodeFs P β :=
  { fs with dirent := Function.update fs.dirent p none }

/-- `rename(2)`; nothing happens when the source is missing. -/
def rename (fs : InodeFs P β) (p q : P) : InodeFs P β :=
  match fs.dirent p with
  | none => fs
  | some i => { fs with dirent := Function.update (Function.update fs.dirent p none) q (some i) }

/-- `stat(2)` says that `p` is a file. -/
def isFile (fs : InodeFs P β) (p : P) : Bool := (fs.dirent p).isSome

/-- The contents of the file at `p`. -/
def read (fs : InodeFs P β) (p : P) : Option (List β) := (fs.dirent p).map fs.data

/-- No hard links, and the next inode is unused. -/
structure WellFormed (fs : InodeFs P β) : Prop where
  inj : ∀ p q i, fs.dirent p = some i → fs.dirent q = some i → p = q
  fresh : ∀ p i, fs.dirent p = some i → i < fs.next

/-- `p` names the same inode, with the same contents, in `fs'` as in `fs`. -/
def Untouched (fs fs' : InodeFs P β) (p : P) : Prop :=
  ∀ i, fs.dirent p = some i → fs'.dirent p = some i ∧ fs'.data i = fs.data i

variable {fs : InodeFs P β}

/-! ## Create -/

theorem createFile_dirent_self (p : P) :
    (fs.createFile p).2.dirent p = some (fs.createFile p).1 := by
  unfold createFile
  split
  · assumption
  · simp

theorem createFile_dirent_ne {p q : P} (h : q ≠ p) :
    (fs.createFile p).2.dirent q = fs.dirent q := by
  unfold createFile
  split
  · rfl
  · simp [h]

theorem createFile_data_self (p : P) : (fs.createFile p).2.data (fs.createFile p).1 = [] := by
  unfold createFile
  split <;> simp

/-- The file was there, or it gets the next inode. -/
theorem createFile_fst (p : P) :
    fs.dirent p = some (fs.createFile p).1 ∨ (fs.createFile p).1 = fs.next := by
  unfold createFile
  split
  · rename_i i hi
    exact .inl hi
  · exact .inr rfl

theorem createFile_data_ne (p : P) {j : Nat} (h : j ≠ (fs.createFile p).1) :
    (fs.createFile p).2.data j = fs.data j := by
  unfold createFile at h ⊢
  split <;> simp_all

theorem createFile_next_le (p : P) : fs.next ≤ (fs.createFile p).2.next := by
  unfold createFile
  split <;> simp

theorem createFile_wellFormed (h : fs.WellFormed) (p : P) : (fs.createFile p).2.WellFormed := by
  unfold createFile
  split
  · exact ⟨h.inj, h.fresh⟩
  · constructor
    · intro a b i ha hb
      by_cases hap : a = p <;> by_cases hbp : b = p
      · rw [hap, hbp]
      · simp only [hap, hbp, Function.update_self, ne_eq, not_false_eq_true,
          Function.update_of_ne, Option.some.injEq] at ha hb
        have := h.fresh b i hb; omega
      · simp only [hap, hbp, Function.update_self, ne_eq, not_false_eq_true,
          Function.update_of_ne, Option.some.injEq] at ha hb
        have := h.fresh a i ha; omega
      · simp only [hap, hbp, ne_eq, not_false_eq_true, Function.update_of_ne] at ha hb
        exact h.inj a b i ha hb
    · intro a i ha
      by_cases hap : a = p
      · simp only [hap, Function.update_self, Option.some.injEq] at ha
        simp only; omega
      · simp only [hap, ne_eq, not_false_eq_true, Function.update_of_ne] at ha
        have := h.fresh a i ha
        simp only; omega

theorem createFile_fst_lt (h : fs.WellFormed) (p : P) :
    (fs.createFile p).1 < (fs.createFile p).2.next :=
  (createFile_wellFormed h p).fresh p _ (createFile_dirent_self p)

theorem createFile_untouched (h : fs.WellFormed) {p q : P} (hq : q ≠ p) :
    fs.Untouched (fs.createFile p).2 q := by
  intro i hi
  refine ⟨by rw [createFile_dirent_ne hq, hi], ?_⟩
  unfold createFile
  split
  · rename_i j hj
    have : i ≠ j := fun e => hq (h.inj q p i hi (e ▸ hj))
    simp [this]
  · have := h.fresh q i hi
    have hne : i ≠ fs.next := by omega
    simp [hne]

/-! ## Write -/

omit [DecidableEq P] in
theorem append_wellFormed (h : fs.WellFormed) (i : Nat) (bs : List β) :
    (fs.append i bs).WellFormed := ⟨h.inj, h.fresh⟩

omit [DecidableEq P] in
theorem append_data_self (i : Nat) (bs : List β) : (fs.append i bs).data i = fs.data i ++ bs := by
  simp [append]

omit [DecidableEq P] in
theorem append_untouched (h : fs.WellFormed) {p q : P} {i : Nat} (hi : fs.dirent p = some i)
    (hq : q ≠ p) (bs : List β) : fs.Untouched (fs.append i bs) q := by
  intro j hj
  have : j ≠ i := fun e => hq (h.inj q p j hj (e ▸ hi))
  exact ⟨hj, by simp [append, this]⟩

omit [DecidableEq P] in
theorem writeAt_data_ne (zero : β) {i j : Nat} (h : j ≠ i) (off : Nat) (bs : List β) :
    (fs.writeAt zero i off bs).data j = fs.data j := by
  simp [writeAt, h]

omit [DecidableEq P] in
/-- At the end of the file the two writes agree. -/
theorem writeAt_length (zero : β) (i : Nat) (bs : List β) :
    fs.writeAt zero i (fs.data i).length bs = fs.append i bs := by
  have hdrop : (fs.data i).drop ((fs.data i).length + bs.length) = [] :=
    List.drop_eq_nil_of_le (Nat.le_add_right _ _)
  simp [writeAt, append, hdrop]

omit [DecidableEq P] in
/-- Everywhere else the file does not get longer by what was written. -/
theorem writeAt_length_ne (zero : β) {i off : Nat} (h : off ≠ (fs.data i).length) {bs : List β}
    (hbs : bs ≠ []) :
    ((fs.writeAt zero i off bs).data i).length ≠ (fs.data i).length + bs.length := by
  have hpos := List.length_pos_iff.2 hbs
  simp only [writeAt, Function.update_self, List.length_append, List.length_take,
    List.length_replicate, List.length_drop]
  omega

/-! ## Unlink -/

theorem unlink_wellFormed (h : fs.WellFormed) (p : P) : (fs.unlink p).WellFormed := by
  have hsub : ∀ q i, (fs.unlink p).dirent q = some i → fs.dirent q = some i := by
    intro q i hq
    by_cases e : q = p
    · simp [unlink, e] at hq
    · simpa [unlink, e] using hq
  exact ⟨fun a b i ha hb => h.inj a b i (hsub a i ha) (hsub b i hb),
    fun a i ha => h.fresh a i (hsub a i ha)⟩

theorem unlink_dirent {p q : P} {i : Nat} (h : (fs.unlink p).dirent q = some i) :
    fs.dirent q = some i := by
  by_cases e : q = p
  · simp [unlink, e] at h
  · simpa [unlink, e] using h

theorem unlink_untouched {p q : P} (hq : q ≠ p) : fs.Untouched (fs.unlink p) q := by
  intro i hi
  exact ⟨by simp [unlink, hq, hi], rfl⟩

theorem unlink_dirent_ne {p q : P} (h : q ≠ p) : (fs.unlink p).dirent q = fs.dirent q := by
  simp [unlink, h]

theorem unlink_isFile_self (p : P) : (fs.unlink p).isFile p = false := by
  simp [unlink, isFile]

/-! ## Rename -/

theorem rename_dirent_ne {p q r : P} (hp : r ≠ p) (hq : r ≠ q) :
    (fs.rename p q).dirent r = fs.dirent r := by
  unfold rename
  split
  · rfl
  · simp [hp, hq]

/-- The old name is gone. -/
theorem rename_isFile_source {p q : P} (h : p ≠ q) : (fs.rename p q).isFile p = false := by
  unfold rename isFile
  split
  · rename_i hnone
    rw [hnone]
    rfl
  · simp [h]

/-- The file is there under its new name. -/
theorem rename_isFile_target {p q : P} (h : fs.isFile p = true) :
    (fs.rename p q).isFile q = true := by
  obtain ⟨i, hi⟩ := Option.isSome_iff_exists.1 h
  simp [rename, isFile, hi]

theorem rename_dirent {p q r : P} {i j : Nat} (hi : fs.dirent p = some i)
    (h : (fs.rename p q).dirent r = some j) :
    (r = q ∧ j = i) ∨ (r ≠ q ∧ r ≠ p ∧ fs.dirent r = some j) := by
  simp only [rename, hi] at h
  by_cases hrq : r = q
  · simp only [hrq, Function.update_self, Option.some.injEq] at h
    exact Or.inl ⟨hrq, h.symm⟩
  · by_cases hrp : r = p
    · subst hrp
      rw [Function.update_of_ne hrq, Function.update_self] at h
      cases h
    · simp only [ne_eq, hrq, not_false_eq_true, Function.update_of_ne, hrp] at h
      exact Or.inr ⟨hrq, hrp, h⟩

theorem rename_next (p q : P) : (fs.rename p q).next = fs.next := by
  unfold rename; split <;> rfl

theorem rename_wellFormed (h : fs.WellFormed) (p q : P) : (fs.rename p q).WellFormed := by
  cases hi : fs.dirent p with
  | none => unfold rename; rw [hi]; exact h
  | some i =>
    constructor
    · intro a b j ha hb
      rcases rename_dirent hi ha with ⟨ha, hj⟩ | ⟨_, hap, ha⟩ <;>
        rcases rename_dirent hi hb with ⟨hb, hj'⟩ | ⟨_, hbp, hb⟩
      · rw [ha, hb]
      · exact absurd (h.inj b p j hb (hj ▸ hi)) hbp
      · exact absurd (h.inj a p j ha (hj' ▸ hi)) hap
      · exact h.inj a b j ha hb
    · intro a j ha
      rw [rename_next]
      rcases rename_dirent hi ha with ⟨_, hj⟩ | ⟨_, _, ha⟩
      · rw [hj]; exact h.fresh p i hi
      · exact h.fresh a j ha

theorem rename_data (p q : P) : (fs.rename p q).data = fs.data := by
  unfold rename; split <;> rfl

theorem rename_untouched {p q r : P} (hp : r ≠ p) (hq : r ≠ q) :
    fs.Untouched (fs.rename p q) r := by
  intro i hi
  refine ⟨?_, by rw [rename_data]⟩
  unfold rename
  split
  · exact hi
  · simp [hp, hq, hi]

end InodeFs

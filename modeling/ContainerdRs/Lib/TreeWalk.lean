import ContainerdRs.Lib.FileTree

/-!
# Walks through a file tree

A recursive program visits a place and then, where a directory stands, what the directory lists, in
whatever order.  It follows no link.

* `Listing` — the names that the directories list.
* `visit` — the places visited, in their order, `depth` levels down from a place.
* `mem_visit`, `nodup_visit` — they are what stands at and below the place, each once.
* `Walkable.mem_visit` — `height` levels are enough.
* `Walkable.sum_visit` — a sum over the walk is one over what stands there.
-/

set_option autoImplicit false

namespace FileTree

variable {ν γ : Type} [DecidableEq ν]

/-- Each directory lists the names in it once, in some order. -/
structure Listing (t : FileTree ν γ) (names : List ν → List ν) : Prop where
  nodup : ∀ l, (names l).Nodup
  mem : ∀ l n, n ∈ names l ↔ (t.get? (l ++ [n])).isSome = true

/-- At and below `l`, what has a name in something has it in a directory. -/
def Closed (t : FileTree ν γ) (l : List ν) : Prop :=
  ∀ q n, (t.get? (l ++ q ++ [n])).isSome = true → t.get? (l ++ q) = some .dir

/-- The places visited from `l` on. -/
def visit (t : FileTree ν γ) (names : List ν → List ν) : Nat → List ν → List (List ν)
  | 0, _ => []
  | depth + 1, l =>
    l :: if t.isDirAt l then (names l).flatMap fun n => visit t names depth (l ++ [n]) else []

/-- No place is as deep as this. -/
def height (t : FileTree ν γ) : Nat := (t.nodes.map fun e => e.1.length).foldr max 0 + 1

variable {t : FileTree ν γ} {names : List ν → List ν} {l : List ν}

theorem listing_children (t : FileTree ν γ) : Listing t t.children where
  nodup _ := List.nodup_dedup _
  mem _ _ := mem_children

theorem Closed.child (h : Closed t l) (n : ν) : Closed t (l ++ [n]) := by
  intro q m hm
  have := h (n :: q) m (by simpa using hm)
  simpa using this

theorem Plain.closed (h : Plain t l) : Closed t l := by
  intro q n hn
  exact h.parent q n (by simpa using hn)

/-- Only a directory has something below it. -/
theorem Closed.dir_of_below (h : Closed t l) {n : ν} (q : List ν)
    (hs : (t.get? (l ++ n :: q)).isSome = true) :
    t.get? l = some .dir ∧ (t.get? (l ++ [n])).isSome = true := by
  induction q using List.reverseRecOn with
  | nil =>
    refine ⟨?_, hs⟩
    have := h [] n (by simpa using hs)
    simpa using this
  | append_singleton q m ih =>
    have hdir := h (n :: q) m (by simpa using hs)
    refine ih ?_
    rw [hdir]
    rfl

/-! ## What is visited -/

/-- **What is visited** is what stands at and below the place, down to the depth. -/
theorem mem_visit (hn : Listing t names) : ∀ (depth : Nat) {l : List ν}, Closed t l →
    (t.get? l).isSome = true → ∀ {x : List ν}, x ∈ visit t names depth l ↔
      l <+: x ∧ (t.get? x).isSome = true ∧ x.length < l.length + depth := by
  intro depth
  induction depth with
  | zero =>
    intro l hc hl x
    constructor
    · intro hx
      cases hx
    · rintro ⟨hpre, -, hlt⟩
      have := hpre.length_le
      omega
  | succ depth ih =>
    intro l hc hl x
    rw [visit, List.mem_cons]
    constructor
    · rintro (rfl | hx)
      · exact ⟨List.prefix_refl _, hl, by omega⟩
      · split at hx
        · obtain ⟨n, hmem, hx⟩ := List.mem_flatMap.1 hx
          have hchild := (hn.mem l n).1 hmem
          obtain ⟨hpre, hsome, hlt⟩ := (ih (hc.child n) hchild).1 hx
          rw [List.length_append, List.length_singleton] at hlt
          exact ⟨(List.prefix_append l [n]).trans hpre, hsome, by omega⟩
        · cases hx
    · rintro ⟨⟨q, rfl⟩, hsome, hlt⟩
      cases q with
      | nil => simp
      | cons n q =>
        right
        obtain ⟨hdir, hchild⟩ := hc.dir_of_below q hsome
        rw [if_pos (isDirAt_iff.2 hdir)]
        refine List.mem_flatMap.2 ⟨n, (hn.mem l n).2 hchild, ?_⟩
        refine (ih (hc.child n) hchild).2 ⟨⟨q, by simp⟩, hsome, ?_⟩
        simp only [List.length_append, List.length_cons, List.length_nil] at hlt ⊢
        omega

/-- What is visited stands at or below the place. -/
theorem prefix_of_mem_visit : ∀ (depth : Nat) {l x : List ν}, x ∈ visit t names depth l → l <+: x
  | 0, _, _, hx => by cases hx
  | depth + 1, l, x, hx => by
    rw [visit, List.mem_cons] at hx
    rcases hx with rfl | hx
    · exact List.prefix_refl _
    · split at hx
      · obtain ⟨n, -, hx⟩ := List.mem_flatMap.1 hx
        exact (List.prefix_append l [n]).trans (prefix_of_mem_visit depth hx)
      · cases hx

/-- **Nothing is visited twice.** -/
theorem nodup_visit (hn : Listing t names) : ∀ (depth : Nat) (l : List ν),
    (visit t names depth l).Nodup
  | 0, _ => List.nodup_nil
  | depth + 1, l => by
    rw [visit, List.nodup_cons]
    constructor
    · intro hmem
      split at hmem
      · obtain ⟨n, -, hx⟩ := List.mem_flatMap.1 hmem
        have hlen := (prefix_of_mem_visit depth hx).length_le
        rw [List.length_append, List.length_singleton] at hlen
        omega
      · cases hmem
    · split
      · rw [List.nodup_flatMap]
        refine ⟨fun n _ => nodup_visit hn depth (l ++ [n]), ?_⟩
        refine (hn.nodup l).imp ?_
        intro n m hne x hx hx'
        -- two names of one directory lead to different places
        have hp := prefix_of_mem_visit depth hx
        have hp' := prefix_of_mem_visit depth hx'
        have heq : l ++ [n] = l ++ [m] :=
          (List.prefix_of_prefix_length_le hp hp' (by simp)).eq_of_length (by simp)
        exact hne (by simpa using heq)
      · exact List.nodup_nil

theorem length_lt_height (h : (t.get? l).isSome = true) : l.length < t.height := by
  obtain ⟨e, he, rfl⟩ := (first?_isSome l t.nodes).1 h
  have hle : ∀ (ns : List Nat) (n : Nat), n ∈ ns → n ≤ ns.foldr max 0 := by
    intro ns
    induction ns with
    | nil => simp
    | cons m ns ih =>
      intro n hmem
      rw [List.foldr_cons]
      rcases List.mem_cons.1 hmem with rfl | hmem
      · exact Nat.le_max_left ..
      · exact (ih n hmem).trans (Nat.le_max_right ..)
  have := hle _ _ (List.mem_map_of_mem (f := fun e : List ν × Node ν γ => e.1.length) he)
  rw [height]
  omega

/-- The place is there, what stands below it stands in directories, and these list it. -/
structure Walkable (t : FileTree ν γ) (names : List ν → List ν) (l : List ν) : Prop where
  root : (t.get? l).isSome = true
  closed : Closed t l
  listing : Listing t names

/-- **The walk ends**: the levels of the tree are enough. -/
theorem Walkable.mem_visit (h : Walkable t names l) {depth : Nat} (hd : t.height ≤ depth)
    {x : List ν} : x ∈ visit t names depth l ↔ l <+: x ∧ (t.get? x).isSome = true := by
  rw [FileTree.mem_visit h.listing depth h.closed h.root]
  constructor
  · rintro ⟨hpre, hsome, -⟩
    exact ⟨hpre, hsome⟩
  · rintro ⟨hpre, hsome⟩
    have := length_lt_height hsome
    exact ⟨hpre, hsome, by omega⟩

/-- The sum of a weight over the walk, when only `places` weigh something. -/
theorem Walkable.sum_visit (h : Walkable t names l) {depth : Nat} (hd : t.height ≤ depth)
    {weight : List ν → Nat} {places : Finset (List ν)}
    (hin : ∀ x ∈ places, l <+: x ∧ (t.get? x).isSome = true)
    (hout : ∀ x, l <+: x → (t.get? x).isSome = true → x ∉ places → weight x = 0) :
    ((visit t names depth l).map weight).sum = ∑ x ∈ places, weight x := by
  rw [← List.sum_toFinset weight (nodup_visit h.listing depth l)]
  symm
  apply Finset.sum_subset
  · intro x hx
    rw [List.mem_toFinset, h.mem_visit hd]
    exact hin x hx
  · intro x hx hplaces
    rw [List.mem_toFinset, h.mem_visit hd] at hx
    exact hout x hx.1 hx.2 hplaces

end FileTree

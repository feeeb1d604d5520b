import Mathlib.Data.List.Basic
import Mathlib.Tactic

/-!
# File trees with symbolic links

A tree is a finite map from locations (lists of names, from the root) to directories, files and
symbolic links.  A path is a list of parts as a system call gets it; `walk` resolves it, following
the links on its way, and fails behind the given number of links.  `removeFile` and `removeDirAll`
are the deletions of a standard library: they follow the links of the directories on the path, and
not a link that the path ends with.

* `get?_put`, `get?_prune` — lookup after an update.
* `walk_sub` — a walk that succeeds in a part of a tree ends at the same place in the tree.
* `walk_snoc` — a path that ends with a name, without following it, leads into the directory the
  rest of the path leads to.
* `removeFile_get?`, `removeDirAll_get?` — a deletion only removes, at and below the place the
  path leads to.
* `Rooted` — a directory whose contents are free of links; there paths of names are locations
  (`Rooted.resolve_names`), also with a slash or a dot behind them (`Rooted.resolve_stays`).
-/

set_option autoImplicit false

namespace FileTree

/-- One part of a path: an empty part (a doubled or trailing slash), `.`, `..` or a name. -/
inductive PathPart (ν : Type) where
  | empty
  | dot
  | dotdot
  | name (n : ν)
  deriving DecidableEq, Repr

/-- What stands at a location. -/
inductive Node (ν γ : Type) where
  | dir
  | file (content : γ)
  | symlink (absolute : Bool) (target : List (PathPart ν))
  deriving DecidableEq, Repr

variable {ν γ : Type}

/-- A directory. -/
def Node.isDir : Node ν γ → Bool
  | .dir => true
  | _ => false

/-- A symbolic link. -/
def Node.isSymlink : Node ν γ → Bool
  | .symlink .. => true
  | _ => false

@[simp] theorem Node.isDir_iff {x : Node ν γ} : x.isDir = true ↔ x = .dir := by
  cases x <;> simp [Node.isDir]

end FileTree

open FileTree in
/-- A finite map from locations to nodes; the first entry of a location counts. -/
structure FileTree (ν γ : Type) where
  nodes : List (List ν × Node ν γ)

namespace FileTree

variable {ν γ : Type} [DecidableEq ν]

/-- The first node listed for a location. -/
def first? (l : List ν) : List (List ν × Node ν γ) → Option (Node ν γ)
  | [] => none
  | e :: es => if e.1 = l then some e.2 else first? l es

/-- The node at a location. -/
def get? (t : FileTree ν γ) (l : List ν) : Option (Node ν γ) := first? l t.nodes

/-- The node at a location is set. -/
def put (t : FileTree ν γ) (l : List ν) (x : Node ν γ) : FileTree ν γ := ⟨(l, x) :: t.nodes⟩

/-- The locations in `p` are removed. -/
def prune (t : FileTree ν γ) (p : List ν → Bool) : FileTree ν γ :=
  ⟨t.nodes.filter fun e => !p e.1⟩

/-- The names in a directory. -/
def children (t : FileTree ν γ) (l : List ν) : List ν :=
  (t.nodes.filterMap fun e =>
    match e.1.getLast? with
    | some n => if e.1.dropLast = l then some n else none
    | none => none).dedup

/-- A directory stands at `l`. -/
def isDirAt (t : FileTree ν γ) (l : List ν) : Bool :=
  match t.get? l with
  | some x => x.isDir
  | none => false

theorem isDirAt_iff {t : FileTree ν γ} {l : List ν} :
    t.isDirAt l = true ↔ t.get? l = some .dir := by
  unfold isDirAt
  cases t.get? l <;> simp

theorem get?_put (t : FileTree ν γ) (l l' : List ν) (x : Node ν γ) :
    (t.put l x).get? l' = if l = l' then some x else t.get? l' := rfl

theorem first?_filter {p : List ν → Bool} (l : List ν) : ∀ es : List (List ν × Node ν γ),
    first? l (es.filter fun e => !p e.1) = if p l then none else first? l es
  | [] => by simp [first?]
  | e :: es => by
    have ih := first?_filter l es (p := p)
    by_cases he : p e.1
    · rw [List.filter_cons_of_neg (by simp [he]), ih, first?]
      by_cases hl : e.1 = l
      · subst hl
        simp [he]
      · rw [if_neg hl]
    · rw [List.filter_cons_of_pos (by simp [he]), first?, first?, ih]
      by_cases hl : e.1 = l
      · subst hl
        simp [he]
      · rw [if_neg hl, if_neg hl]

theorem first?_isSome (l : List ν) : ∀ es : List (List ν × Node ν γ),
    (first? l es).isSome = true ↔ ∃ e ∈ es, e.1 = l
  | [] => by simp [first?]
  | e :: es => by
    rw [first?]
    by_cases hl : e.1 = l
    · simp [hl]
    · rw [if_neg hl, first?_isSome l es]
      simp [hl]

theorem get?_prune (t : FileTree ν γ) (p : List ν → Bool) (l : List ν) :
    (t.prune p).get? l = if p l then none else t.get? l :=
  first?_filter l t.nodes

/-- Where there is nothing, nothing is removed. -/
theorem prune_eq_self {t : FileTree ν γ} {p : List ν → Bool}
    (h : ∀ l, p l = true → t.get? l = none) : t.prune p = t := by
  have hfilter : t.nodes.filter (fun e => !p e.1) = t.nodes := by
    rw [List.filter_eq_self]
    intro e he
    by_contra hp
    have hsome : (t.get? e.1).isSome = true := (first?_isSome e.1 t.nodes).2 ⟨e, he, rfl⟩
    rw [h e.1 (by simpa using hp)] at hsome
    cases hsome
  rw [prune, hfilter]

/-- The names in a directory are those with a node. -/
theorem mem_children {t : FileTree ν γ} {l : List ν} {n : ν} :
    n ∈ t.children l ↔ (t.get? (l ++ [n])).isSome = true := by
  have hkey : ∀ e : List ν × Node ν γ, (match e.1.getLast? with
      | some m => if e.1.dropLast = l then some m else none
      | none => none) = some n ↔ e.1 = l ++ [n] := by
    intro e
    constructor
    · intro h
      split at h
      · rename_i m hm
        split at h
        · rename_i hl
          obtain rfl : m = n := by simpa using h
          rw [← hl]
          exact (List.dropLast_append_getLast? m hm).symm
        · simp at h
      · simp at h
    · intro h
      simp [h]
  rw [get?, first?_isSome, children, List.mem_dedup, List.mem_filterMap]
  simp only [hkey]

/-! ## Resolution -/

/-- The parts `todo` from the directory `cur` on; `jump` goes on behind a link.  A link that the
    path ends with is followed when `follow` says so. -/
def walkParts (t : FileTree ν γ) (follow : Bool)
    (jump : List ν → List (PathPart ν) → Option (List ν)) :
    List ν → List (PathPart ν) → Option (List ν)
  | cur, [] => some cur
  | cur, p :: rest =>
    if t.isDirAt cur then
      match p with
      | .empty => walkParts t follow jump cur rest
      | .dot => walkParts t follow jump cur rest
      | .dotdot => walkParts t follow jump cur.dropLast rest
      | .name n =>
        match t.get? (cur ++ [n]) with
        | none => none
        | some (.symlink absolute target) =>
          if rest.isEmpty && !follow then some (cur ++ [n])
          else jump (if absolute then [] else cur) (target ++ rest)
        | some _ => walkParts t follow jump (cur ++ [n]) rest
    else none

/-- One part of a walk. -/
theorem walkParts_cons (t : FileTree ν γ) (follow : Bool)
    (jump : List ν → List (PathPart ν) → Option (List ν)) (cur : List ν) (p : PathPart ν)
    (rest : List (PathPart ν)) : walkParts t follow jump cur (p :: rest) =
      if t.isDirAt cur then
        match p with
        | .empty => walkParts t follow jump cur rest
        | .dot => walkParts t follow jump cur rest
        | .dotdot => walkParts t follow jump cur.dropLast rest
        | .name n =>
          match t.get? (cur ++ [n]) with
          | none => none
          | some (.symlink absolute target) =>
            if rest.isEmpty && !follow then some (cur ++ [n])
            else jump (if absolute then [] else cur) (target ++ rest)
          | some _ => walkParts t follow jump (cur ++ [n]) rest
      else none := by
  cases p <;> rfl

/-- `walkParts` through at most `links` links. -/
def walk (t : FileTree ν γ) (follow : Bool) : Nat → List ν → List (PathPart ν) → Option (List ν)
  | 0 => walkParts t follow fun _ _ => none
  | links + 1 => walkParts t follow (walk t follow links)

/-- Where a path from the root leads, through 40 links at most. -/
def resolve (t : FileTree ν γ) (follow : Bool) (path : List (PathPart ν)) : Option (List ν) :=
  walk t follow 40 [] path

/-- All nodes of `t'` are in `t`. -/
def Sub (t' t : FileTree ν γ) : Prop := ∀ l x, t'.get? l = some x → t.get? l = some x

theorem Sub.refl (t : FileTree ν γ) : Sub t t := fun _ _ h => h

theorem Sub.trans {t₁ t₂ t₃ : FileTree ν γ} (h₁ : Sub t₁ t₂) (h₂ : Sub t₂ t₃) : Sub t₁ t₃ :=
  fun l x h => h₂ l x (h₁ l x h)

/-- One layer of links of `walk_sub`. -/
theorem walkParts_sub {t' t : FileTree ν γ} (h : Sub t' t) (follow : Bool)
    {jump' jump : List ν → List (PathPart ν) → Option (List ν)}
    (hjump : ∀ cur todo l, jump' cur todo = some l → jump cur todo = some l) :
    ∀ (todo : List (PathPart ν)) (cur l : List ν), walkParts t' follow jump' cur todo = some l →
      walkParts t follow jump cur todo = some l
  | [], cur, l, hw => hw
  | p :: rest, cur, l, hw => by
    have ih := walkParts_sub h follow hjump rest
    rw [walkParts_cons] at hw ⊢
    by_cases hd : t'.isDirAt cur = true
    · have hd' : t.isDirAt cur = true := isDirAt_iff.mpr (h cur .dir (isDirAt_iff.mp hd))
      rw [if_pos hd] at hw
      rw [if_pos hd']
      cases p with
      | empty => exact ih cur l hw
      | dot => exact ih cur l hw
      | dotdot => exact ih cur.dropLast l hw
      | name n =>
        cases hg : t'.get? (cur ++ [n]) with
        | none => simp [hg] at hw
        | some x =>
          have hg' := h _ x hg
          cases x with
          | dir =>
            simp only [hg, hg'] at hw ⊢
            exact ih _ l hw
          | file c =>
            simp only [hg, hg'] at hw ⊢
            exact ih _ l hw
          | symlink absolute target =>
            simp only [hg, hg'] at hw ⊢
            split_ifs at hw ⊢
            · exact hw
            · exact hjump _ _ l hw
            · exact hjump _ _ l hw
    · rw [if_neg hd] at hw
      simp at hw

/-- A walk that succeeds in a part of a tree ends at the same place in the tree. -/
theorem walk_sub {t' t : FileTree ν γ} (h : Sub t' t) {follow : Bool} : ∀ (links : Nat)
    (cur : List ν) (todo : List (PathPart ν)) (l : List ν), walk t' follow links cur todo = some l →
      walk t follow links cur todo = some l
  | 0, cur, todo, l, hw => walkParts_sub h follow (by simp) todo cur l hw
  | links + 1, cur, todo, l, hw => walkParts_sub h follow (walk_sub h links) todo cur l hw

theorem resolve_sub {t' t : FileTree ν γ} (h : Sub t' t) {follow : Bool} {path : List (PathPart ν)}
    {l : List ν} (hw : t'.resolve follow path = some l) : t.resolve follow path = some l :=
  walk_sub h 40 [] path l hw

/-- One layer of links of `walk_snoc`. -/
theorem walkParts_snoc (t : FileTree ν γ) {n : ν}
    {jump' jump : List ν → List (PathPart ν) → Option (List ν)}
    (hjump : ∀ cur todo l, jump' cur (todo ++ [.name n]) = some l →
      ∃ d, jump cur todo = some d ∧ l = d ++ [n]) :
    ∀ (todo : List (PathPart ν)) (cur l : List ν),
      walkParts t false jump' cur (todo ++ [.name n]) = some l →
      ∃ d, walkParts t true jump cur todo = some d ∧ l = d ++ [n]
  | [], cur, l, hw => by
    refine ⟨cur, rfl, ?_⟩
    simp only [List.nil_append, walkParts, List.isEmpty_nil, Bool.not_false, Bool.and_true,
      if_true] at hw
    by_cases hd : t.isDirAt cur = true
    · rw [if_pos hd] at hw
      split at hw
      · simp at hw
      · simpa using hw.symm
      · simpa using hw.symm
    · rw [if_neg hd] at hw
      simp at hw
  | p :: rest, cur, l, hw => by
    have ih := walkParts_snoc t hjump rest
    rw [List.cons_append, walkParts_cons] at hw
    rw [walkParts_cons]
    by_cases hd : t.isDirAt cur = true
    · rw [if_pos hd] at hw ⊢
      cases p with
      | empty => exact ih cur l hw
      | dot => exact ih cur l hw
      | dotdot => exact ih cur.dropLast l hw
      | name m =>
        cases hg : t.get? (cur ++ [m]) with
        | none => simp [hg] at hw
        | some x =>
          cases x with
          | dir =>
            simp only [hg] at hw ⊢
            exact ih _ l hw
          | file c =>
            simp only [hg] at hw ⊢
            exact ih _ l hw
          | symlink absolute target =>
            simp only [hg] at hw ⊢
            rw [if_neg (by simp), ← List.append_assoc] at hw
            rw [if_neg (by simp)]
            exact hjump _ _ l hw
    · rw [if_neg hd] at hw
      simp at hw

/-- A path that ends with a name leads, when that name is not followed, into the directory the
    rest of the path leads to. -/
theorem walk_snoc {t : FileTree ν γ} {n : ν} : ∀ (links : Nat) (cur : List ν)
    (todo : List (PathPart ν)) (l : List ν), walk t false links cur (todo ++ [.name n]) = some l →
      ∃ d, walk t true links cur todo = some d ∧ l = d ++ [n]
  | 0, cur, todo, l, hw => walkParts_snoc t (by simp) todo cur l hw
  | links + 1, cur, todo, l, hw => walkParts_snoc t (walk_snoc links) todo cur l hw

theorem resolve_snoc {t : FileTree ν γ} {n : ν} {path : List (PathPart ν)} {l : List ν}
    (hw : t.resolve false (path ++ [.name n]) = some l) :
    ∃ d, t.resolve true path = some d ∧ l = d ++ [n] :=
  walk_snoc 40 [] path l hw

/-! ## Deletion -/

/-- A path leads to a directory (`Path::is_dir`). -/
def isDir (t : FileTree ν γ) (path : List (PathPart ν)) : Bool :=
  match t.resolve true path with
  | some l => t.isDirAt l
  | none => false

/-- `unlink`: the file or link that the path ends with. -/
def removeFile (t : FileTree ν γ) (path : List (PathPart ν)) : FileTree ν γ :=
  match t.resolve false path with
  | some l => if t.isDirAt l then t else t.prune (· = l)
  | none => t

/-- Where `rmdir` looks: trailing slashes do not count, and the last part is a name. -/
def rmdirPlace (t : FileTree ν γ) (path : List (PathPart ν)) : Option (List ν) :=
  let named := (path.reverse.dropWhile (· = .empty)).reverse
  match named.getLast? with
  | some (.name _) => t.resolve false named
  | _ => none

/-- `remove_dir_all`: a link is unlinked; of a directory all contents are removed, and then the
    directory itself unless the path reaches it in a way `rmdir` refuses (a trailing `.`, or a
    link with a trailing slash). -/
def removeDirAll (t : FileTree ν γ) (path : List (PathPart ν)) : FileTree ν γ :=
  match t.resolve false path with
  | none => t
  | some l =>
    match t.get? l with
    | some (.symlink ..) => t.prune (· = l)
    | some .dir =>
      let cleared := t.prune fun x => decide (l <+: x ∧ x ≠ l)
      if cleared.rmdirPlace path = some l then cleared.prune (· = l) else cleared
    | _ => t

/-- What a deletion of the subtree at `l` may do to a location: nothing, or remove it. -/
def RemovesUnder (t t' : FileTree ν γ) (l : List ν) : Prop :=
  ∀ x, t'.get? x = t.get? x ∨ (t'.get? x = none ∧ l <+: x)

theorem removesUnder_prune {t : FileTree ν γ} {l : List ν} {p : List ν → Bool}
    (hp : ∀ x, p x = true → l <+: x) : RemovesUnder t (t.prune p) l := by
  intro x
  rw [get?_prune]
  split
  · exact Or.inr ⟨rfl, hp x (by assumption)⟩
  · exact Or.inl rfl

theorem RemovesUnder.trans {t₁ t₂ t₃ : FileTree ν γ} {l : List ν} (h₁ : RemovesUnder t₁ t₂ l)
    (h₂ : RemovesUnder t₂ t₃ l) : RemovesUnder t₁ t₃ l := by
  intro x
  rcases h₂ x with h | h
  · rw [h]
    exact h₁ x
  · exact Or.inr h

/-- `remove_file` removes at most the place its path leads to. -/
theorem removeFile_get? (t : FileTree ν γ) (path : List (PathPart ν)) :
    t.removeFile path = t ∨
      ∃ l, t.resolve false path = some l ∧ RemovesUnder t (t.removeFile path) l := by
  unfold removeFile
  split
  · rename_i l hl
    split
    · exact Or.inl rfl
    · refine Or.inr ⟨l, hl, removesUnder_prune fun x hx => ?_⟩
      rw [of_decide_eq_true hx]
  · exact Or.inl rfl

/-- `remove_dir_all` removes at most the place its path leads to and what is below it. -/
theorem removeDirAll_get? (t : FileTree ν γ) (path : List (PathPart ν)) :
    t.removeDirAll path = t ∨
      ∃ l, t.resolve false path = some l ∧ RemovesUnder t (t.removeDirAll path) l := by
  unfold removeDirAll
  split
  · exact Or.inl rfl
  · rename_i l hl
    split
    · refine Or.inr ⟨l, hl, removesUnder_prune fun x hx => ?_⟩
      rw [of_decide_eq_true hx]
    · have hclear : RemovesUnder t (t.prune fun x => decide (l <+: x ∧ x ≠ l)) l :=
        removesUnder_prune fun x hx => (of_decide_eq_true hx).1
      refine Or.inr ⟨l, hl, ?_⟩
      dsimp only
      split
      · refine hclear.trans (removesUnder_prune fun x hx => ?_)
        rw [of_decide_eq_true hx]
      · exact hclear
    · exact Or.inl rfl

/-! ## Trees without links -/

/-- One layer of links of `walk_append`. -/
theorem walkParts_append (t : FileTree ν γ) {follow : Bool} {L : List ν} {q : List (PathPart ν)}
    {r : Option (List ν)} (hne : q ≠ []) (hq : ∀ jump, walkParts t follow jump L q = r)
    {jump jump' : List ν → List (PathPart ν) → Option (List ν)}
    (hjump : ∀ cur todo, jump cur todo = some L → jump' cur (todo ++ q) = r) :
    ∀ (todo : List (PathPart ν)) (cur : List ν), walkParts t true jump cur todo = some L →
      walkParts t follow jump' cur (todo ++ q) = r
  | [], cur, hw => by
    obtain rfl : cur = L := Option.some.inj hw
    exact hq jump'
  | p :: rest, cur, hw => by
    have ih := walkParts_append t hne hq hjump rest
    rw [walkParts_cons] at hw
    rw [List.cons_append, walkParts_cons]
    by_cases hd : t.isDirAt cur = true
    · rw [if_pos hd] at hw ⊢
      cases p with
      | empty => exact ih cur hw
      | dot => exact ih cur hw
      | dotdot => exact ih cur.dropLast hw
      | name n =>
        cases hg : t.get? (cur ++ [n]) with
        | none => simp [hg] at hw
        | some x =>
          cases x with
          | dir =>
            simp only [hg] at hw ⊢
            exact ih _ hw
          | file c =>
            simp only [hg] at hw ⊢
            exact ih _ hw
          | symlink absolute target =>
            simp only [hg] at hw ⊢
            rw [if_neg (by simp)] at hw
            rw [if_neg (by simp [hne]), ← List.append_assoc]
            exact hjump _ _ hw
    · rw [if_neg hd] at hw
      simp at hw

/-- A path is resolved part by part, when behind its first part no link is met. -/
theorem walk_append {t : FileTree ν γ} {follow : Bool} {L : List ν} {q : List (PathPart ν)}
    {r : Option (List ν)} (hne : q ≠ []) (hq : ∀ jump, walkParts t follow jump L q = r) :
    ∀ (links : Nat) (cur : List ν) (todo : List (PathPart ν)),
      walk t true links cur todo = some L → walk t follow links cur (todo ++ q) = r
  | 0, cur, todo, hw => walkParts_append t hne hq (by simp) todo cur hw
  | links + 1, cur, todo, hw => walkParts_append t hne hq (walk_append hne hq links) todo cur hw

/-- Below `T`, a directory, everything stands in a directory and there are no links. -/
structure Plain (t : FileTree ν γ) (T : List ν) : Prop where
  root : t.get? T = some .dir
  parent : ∀ q n, (t.get? (T ++ (q ++ [n]))).isSome = true → t.get? (T ++ q) = some .dir
  noLinks : ∀ q x, t.get? (T ++ q) = some x → x.isSymlink = false

variable {t : FileTree ν γ} {T : List ν}

/-- Above everything that exists there are directories. -/
theorem Plain.dir_above (h : Plain t T) {p : List ν} {n : ν} (q : List ν)
    (hs : (t.get? (T ++ (p ++ n :: q))).isSome = true) : t.get? (T ++ p) = some .dir := by
  induction q using List.reverseRecOn with
  | nil => exact h.parent p n hs
  | append_singleton q m ih =>
    have hs' : (t.get? (T ++ ((p ++ n :: q) ++ [m]))).isSome = true := by simpa using hs
    apply ih
    rw [h.parent _ m hs']
    rfl

/-- Below a place without a directory there is nothing. -/
theorem Plain.nothing_below (h : Plain t T) {p x : List ν} (hp : t.get? (T ++ p) ≠ some .dir)
    (hx : T ++ p <+: x) (hne : x ≠ T ++ p) : t.get? x = none := by
  obtain ⟨r, rfl⟩ := hx
  cases r with
  | nil => simp at hne
  | cons n r =>
    by_contra hsome
    refine hp (h.dir_above (n := n) r ?_)
    rw [← List.append_assoc]
    exact Option.isSome_iff_ne_none.mpr hsome

/-- A path of names below `T` leads to its place when something is there, and nowhere else. -/
theorem Plain.walkParts_names (h : Plain t T) (follow : Bool)
    (jump : List ν → List (PathPart ν) → Option (List ν)) : ∀ (q p : List ν),
      (t.get? (T ++ p)).isSome = true →
      walkParts t follow jump (T ++ p) (q.map .name) =
        if (t.get? (T ++ (p ++ q))).isSome then some (T ++ (p ++ q)) else none
  | [], p, hp => by simp [walkParts, hp]
  | n :: q, p, hp => by
    rw [List.map_cons, walkParts_cons]
    by_cases hd : t.isDirAt (T ++ p) = true
    · rw [if_pos hd]
      cases hg : t.get? (T ++ p ++ [n]) with
      | none =>
        have hnone : t.get? (T ++ (p ++ n :: q)) = none := by
          have hnd : t.get? (T ++ (p ++ [n])) = none := by simpa using hg
          by_cases hq : q = []
          · simpa [hq] using hnd
          · exact h.nothing_below (p := p ++ [n]) (by simp [hnd]) ⟨q, by simp⟩ (by simpa using hq)
        simp only [hg, hnone]
        rfl
      | some x =>
        have hx : x.isSymlink = false := h.noLinks (p ++ [n]) x (by simpa using hg)
        have ih := Plain.walkParts_names h follow jump q (p ++ [n])
          (by rw [← List.append_assoc, hg]; rfl)
        rw [← List.append_assoc, List.append_assoc p, List.singleton_append] at ih
        cases x with
        | dir =>
          simp only [hg]
          exact ih
        | file c =>
          simp only [hg]
          exact ih
        | symlink a l => simp [Node.isSymlink] at hx
    · rw [if_neg hd]
      have hnone : ¬ (t.get? (T ++ (p ++ n :: q))).isSome = true := fun hs =>
        hd (isDirAt_iff.mpr (h.dir_above q hs))
      rw [if_neg hnone]

/-- The path `target` leads to `T`, not through what is below `T`, and below `T` there are no
    links. -/
structure Rooted (t : FileTree ν γ) (target : List (PathPart ν)) (T : List ν) : Prop where
  plain : Plain t T
  anchored : ∀ t' : FileTree ν γ, (∀ l, (T <+: l → l = T) → t'.get? l = t.get? l) →
    t'.resolve true target = some T

variable {target : List (PathPart ν)}

theorem Rooted.resolve_target (h : Rooted t target T) : t.resolve true target = some T :=
  h.anchored t fun _ _ => rfl

/-- A path of names behind `target` is a location below `T`. -/
theorem Rooted.resolve_names (h : Rooted t target T) (follow : Bool) {p : List ν} (hp : p ≠ []) :
    t.resolve follow (target ++ p.map .name) =
      if (t.get? (T ++ p)).isSome then some (T ++ p) else none := by
  refine walk_append (by simpa using hp) (fun jump => ?_) 40 [] target h.resolve_target
  have hw := h.plain.walkParts_names follow jump p [] (by simp [h.plain.root])
  simpa using hw

/-- A change below `T` that keeps it free of links keeps `target` leading there. -/
theorem Rooted.of_plain (h : Rooted t target T) {t' : FileTree ν γ} (hp : Plain t' T)
    (hout : ∀ l, (T <+: l → l = T) → t'.get? l = t.get? l) : Rooted t' target T :=
  ⟨hp, fun t'' h'' => h.anchored t'' fun l hl => (h'' l hl).trans (hout l hl)⟩

/-- Removing whole subtrees below `T`. -/
theorem Rooted.remove (h : Rooted t target T) {t' : FileTree ν γ} {S : List ν → Prop}
    [DecidablePred S] (hS : ∀ l, S l → T <+: l ∧ l ≠ T) (hdown : ∀ l n, S l → S (l ++ [n]))
    (hget : ∀ l, t'.get? l = if S l then none else t.get? l) : Rooted t' target T := by
  have hroot : ¬ S T := fun hT => (hS T hT).2 rfl
  refine h.of_plain ⟨?_, ?_, ?_⟩ ?_
  · rw [hget, if_neg hroot, h.plain.root]
  · intro q n hs
    rw [hget] at hs ⊢
    by_cases hSn : S (T ++ (q ++ [n]))
    · simp [hSn] at hs
    · rw [if_neg hSn] at hs
      have hSq : ¬ S (T ++ q) := fun hq => hSn (by simpa using hdown _ n hq)
      rw [if_neg hSq]
      exact h.plain.parent q n hs
  · intro q x hx
    rw [hget] at hx
    split at hx
    · simp at hx
    · exact h.plain.noLinks q x hx
  · intro l hl
    rw [hget, if_neg]
    exact fun hSl => (hS l hSl).2 (hl (hS l hSl).1)

omit [DecidableEq ν] in
/-- A place strictly below `T` is not `T`. -/
theorem ne_of_append_prefix {l p : List ν} (hp : p ≠ []) (hl : T ++ p <+: l) : l ≠ T := by
  rintro rfl
  have hlen := hl.length_le
  have hpos : 0 < p.length := List.length_pos_iff.mpr hp
  rw [List.length_append] at hlen
  omega

/-- The subtree at `T ++ p`. -/
theorem Rooted.remove_subtree (h : Rooted t target T) {p : List ν} (hp : p ≠ [])
    {t' : FileTree ν γ} (hget : ∀ l, t'.get? l = if T ++ p <+: l then none else t.get? l) :
    Rooted t' target T := by
  apply h.remove _ _ hget
  · intro l hl
    exact ⟨(List.prefix_append T p).trans hl, ne_of_append_prefix hp hl⟩
  · intro l n hl
    exact hl.trans (List.prefix_append l [n])

/-- The place `rmdir` looks at, for a path that ends with a name. -/
theorem rmdirPlace_snoc (t : FileTree ν γ) (path : List (PathPart ν)) (n : ν) :
    t.rmdirPlace (path ++ [.name n]) = t.resolve false (path ++ [.name n]) := by
  simp [rmdirPlace]

/-- `remove_file` of a path of names, where no directory is. -/
theorem Rooted.removeFile_names (h : Rooted t target T) {p : List ν} (hp : p ≠ [])
    (hnd : t.get? (T ++ p) ≠ some .dir) (l : List ν) :
    (t.removeFile (target ++ p.map .name)).get? l = if T ++ p <+: l then none else t.get? l := by
  have hbelow : T ++ p <+: l → l ≠ T ++ p → t.get? l = none := h.plain.nothing_below hnd
  unfold removeFile
  rw [h.resolve_names false hp]
  by_cases hs : (t.get? (T ++ p)).isSome = true
  · rw [if_pos hs]
    have hdir : ¬ t.isDirAt (T ++ p) = true := fun hd => hnd (isDirAt_iff.mp hd)
    simp only [if_neg hdir, get?_prune, decide_eq_true_eq]
    by_cases hl : l = T ++ p
    · simp [hl]
    · rw [if_neg hl]
      split
      · exact hbelow (by assumption) hl
      · rfl
  · rw [if_neg hs]
    simp only
    split
    · rename_i hpre
      by_cases hl : l = T ++ p
      · rw [hl]
        simpa using hs
      · exact hbelow hpre hl
    · rfl

/-- `remove_dir_all` of a path of names, where a directory is. -/
theorem Rooted.removeDirAll_names (h : Rooted t target T) {p : List ν} (hp : p ≠ [])
    (hd : t.get? (T ++ p) = some .dir) (l : List ν) :
    (t.removeDirAll (target ++ p.map .name)).get? l =
      if T ++ p <+: l then none else t.get? l := by
  obtain ⟨cleared, hcleared⟩ : ∃ c, c = t.prune fun x => decide (T ++ p <+: x ∧ x ≠ T ++ p) :=
    ⟨_, rfl⟩
  have hget : ∀ x, cleared.get? x = if T ++ p <+: x ∧ x ≠ T ++ p then none else t.get? x := by
    intro x
    rw [hcleared, get?_prune]
    simp only [decide_eq_true_eq]
  have hrooted : Rooted cleared target T := by
    apply h.remove _ _ hget
    · intro x hx
      exact ⟨(List.prefix_append T p).trans hx.1, ne_of_append_prefix hp hx.1⟩
    · intro x n hx
      refine ⟨hx.1.trans (List.prefix_append x [n]), ?_⟩
      rintro heq
      have hlen := hx.1.length_le
      rw [← heq, List.length_append, List.length_singleton] at hlen
      omega
  have hplace : cleared.rmdirPlace (target ++ p.map .name) = some (T ++ p) := by
    obtain ⟨q, n, rfl⟩ : ∃ q n, p = q ++ [n] := by
      rcases List.eq_nil_or_concat' p with rfl | ⟨q, n, rfl⟩
      · exact absurd rfl hp
      · exact ⟨q, n, rfl⟩
    have hhere : cleared.get? (T ++ (q ++ [n])) = some .dir := by
      rw [hget, if_neg fun hx => hx.2 rfl, hd]
    have hres := hrooted.resolve_names false hp
    rw [hhere] at hres
    rw [List.map_append, List.map_singleton, ← List.append_assoc] at hres ⊢
    rw [rmdirPlace_snoc, hres]
    rfl
  unfold removeDirAll
  rw [h.resolve_names false hp, hd]
  simp only [Option.isSome_some, if_true, hd, ← hcleared, hplace, get?_prune, hget,
    decide_eq_true_eq]
  by_cases hl : l = T ++ p
  · simp [hl]
  · rw [if_neg hl]
    simp only [hl, ne_eq, not_false_eq_true, and_true]

/-! ## Paths that end with a slash or a dot -/

/-- A part that leads nowhere else: a trailing slash, or `.`. -/
inductive PathPart.Stays : PathPart ν → Prop
  | empty : Stays .empty
  | dot : Stays .dot

/-- Behind names below `T` such a part asks for a directory. -/
theorem Plain.walkParts_stays (h : Plain t T) (follow : Bool)
    (jump : List ν → List (PathPart ν) → Option (List ν)) {part : PathPart ν}
    (hpart : part.Stays) : ∀ (q p : List ν), (t.get? (T ++ p)).isSome = true →
      walkParts t follow jump (T ++ p) (q.map .name ++ [part]) =
        if t.isDirAt (T ++ (p ++ q)) then some (T ++ (p ++ q)) else none
  | [], p, _ => by
    rw [List.map_nil, List.nil_append, List.append_nil, walkParts_cons]
    cases hpart <;> rfl
  | n :: q, p, hp => by
    have ih := Plain.walkParts_stays h follow jump hpart q (p ++ [n])
    rw [← List.append_assoc, List.append_assoc p, List.singleton_append] at ih
    rw [List.map_cons, List.cons_append, walkParts_cons]
    by_cases hd : t.isDirAt (T ++ p) = true
    · rw [if_pos hd]
      cases hg : t.get? (T ++ p ++ [n]) with
      | none =>
        have hnone : ¬ t.isDirAt (T ++ (p ++ n :: q)) = true := by
          intro hdir
          have hsome : (t.get? (T ++ ((p ++ [n]) ++ q))).isSome = true := by
            have hget := isDirAt_iff.1 hdir
            simp only [List.append_assoc, List.singleton_append]
            rw [hget]
            rfl
          cases q with
          | nil =>
            rw [List.append_nil, ← List.append_assoc, hg] at hsome
            cases hsome
          | cons m q =>
            have habove := h.dir_above q hsome
            rw [← List.append_assoc, hg] at habove
            cases habove
        simp only [hg, if_neg hnone]
      | some x =>
        have hx : x.isSymlink = false := h.noLinks (p ++ [n]) x (by simpa using hg)
        rw [hg] at ih
        cases x with
        | dir =>
          simp only [hg]
          exact ih rfl
        | file c =>
          simp only [hg]
          exact ih rfl
        | symlink a l => simp [Node.isSymlink] at hx
    · rw [if_neg hd]
      have hnone : ¬ t.isDirAt (T ++ (p ++ n :: q)) = true := by
        intro hdir
        have hsome : (t.get? (T ++ (p ++ n :: q))).isSome = true := by
          rw [isDirAt_iff.1 hdir]
          rfl
        exact hd (isDirAt_iff.2 (h.dir_above q hsome))
      rw [if_neg hnone]

theorem Rooted.resolve_stays (h : Rooted t target T) (follow : Bool) {part : PathPart ν}
    (hpart : part.Stays) (p : List ν) :
    t.resolve follow (target ++ (p.map .name ++ [part])) =
      if t.isDirAt (T ++ p) then some (T ++ p) else none := by
  refine walk_append (by simp) (fun jump => ?_) 40 [] target h.resolve_target
  have hw := h.plain.walkParts_stays follow jump hpart p [] (by simp [h.plain.root])
  simpa using hw

/-- There is nothing below `D`. -/
def Bare (t : FileTree ν γ) (D : List ν) : Prop := ∀ l, D <+: l → l ≠ D → t.get? l = none

/-- `remove_dir_all` of such a path, where a directory is: below it everything goes. -/
theorem Rooted.removeDirAll_below (h : Rooted t target T) {part : PathPart ν}
    (hpart : part.Stays) {p : List ν} (hd : t.get? (T ++ p) = some .dir) {l : List ν}
    (hl : T ++ p <+: l) (hne : l ≠ T ++ p) :
    (t.removeDirAll (target ++ (p.map .name ++ [part]))).get? l = none := by
  have hgone : (t.prune fun x => decide (T ++ p <+: x ∧ x ≠ T ++ p)).get? l = none := by
    rw [get?_prune, if_pos (decide_eq_true ⟨hl, hne⟩)]
  unfold removeDirAll
  rw [h.resolve_stays false hpart, if_pos (isDirAt_iff.2 hd)]
  simp only [hd]
  split
  · rw [get?_prune, hgone]
    exact ite_self _
  · exact hgone

/-- Where nothing is below it, `rmdir` decides. -/
theorem Rooted.removeDirAll_bare (h : Rooted t target T) {part : PathPart ν}
    (hpart : part.Stays) {p : List ν} (hd : t.get? (T ++ p) = some .dir)
    (hbare : Bare t (T ++ p)) :
    t.removeDirAll (target ++ (p.map .name ++ [part])) =
      if t.rmdirPlace (target ++ (p.map .name ++ [part])) = some (T ++ p) then
        t.prune (· = T ++ p)
      else t := by
  have hcleared : (t.prune fun x => decide (T ++ p <+: x ∧ x ≠ T ++ p)) = t := by
    apply prune_eq_self
    intro l hl
    obtain ⟨hpre, hne⟩ := of_decide_eq_true hl
    exact hbare l hpre hne
  unfold removeDirAll
  rw [h.resolve_stays false hpart, if_pos (isDirAt_iff.2 hd)]
  simp only [hd, hcleared]

/-- `rmdir` does not count a trailing slash. -/
theorem rmdirPlace_slash (t : FileTree ν γ) (path : List (PathPart ν)) :
    t.rmdirPlace (path ++ [.empty]) = t.rmdirPlace path := by
  simp [rmdirPlace]

/-- `rmdir` refuses a trailing `.`. -/
theorem rmdirPlace_dot (t : FileTree ν γ) (path : List (PathPart ν)) :
    t.rmdirPlace (path ++ [.dot]) = none := by
  simp [rmdirPlace]

end FileTree

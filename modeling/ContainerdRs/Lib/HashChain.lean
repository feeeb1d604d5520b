import Mathlib.Data.List.Basic
import Mathlib.Data.Set.Basic
import Mathlib.Tactic

/-!
# Hash chains

Items are folded into links: the first link is the first item itself, and every later one is the
hash of the link before it joined with the item.

* `chain_take` — the chain of a prefix is a prefix of the chain.
* `getLast?_chain` — the last link, as a fold.
* `chain_injective` — chains with the same last link are chains of the same items, when the hash
  has no collision among the messages and no item is one of their hashes.
-/

set_option autoImplicit false

namespace HashChain

variable {α μ : Type} (hash : μ → α) (join : α → α → μ)

/-! ## Links and messages -/

/-- The link after `prev`. -/
def next (prev x : α) : α := hash (join prev x)

/-- The links after `prev`, one for each item. -/
def chainFrom (prev : α) : List α → List α
  | [] => []
  | x :: xs => next hash join prev x :: chainFrom (next hash join prev x) xs

/-- The links of a list of items. -/
def chain : List α → List α
  | [] => []
  | x :: xs => x :: chainFrom hash join x xs

/-- The last link after `prev`. -/
def link (prev : α) (xs : List α) : α := xs.foldl (next hash join) prev

/-- The messages that are hashed for the links after `prev`. -/
def messagesFrom (prev : α) : List α → List μ
  | [] => []
  | x :: xs => join prev x :: messagesFrom (next hash join prev x) xs

/-- The messages that are hashed for a list of items. -/
def messages : List α → List μ
  | [] => []
  | x :: xs => messagesFrom hash join x xs

variable {hash join}

/-! ## Prefixes -/

theorem chainFrom_take (prev : α) (xs : List α) (n : Nat) :
    chainFrom hash join prev (xs.take n) = (chainFrom hash join prev xs).take n := by
  induction xs generalizing prev n with
  | nil => simp [chainFrom]
  | cons x xs ih =>
    cases n with
    | zero => rfl
    | succ n => simp [chainFrom, ih]

theorem chain_take (xs : List α) (n : Nat) :
    chain hash join (xs.take n) = (chain hash join xs).take n := by
  cases xs with
  | nil => simp [chain]
  | cons x xs =>
    cases n with
    | zero => rfl
    | succ n => simp [chain, chainFrom_take]

theorem messagesFrom_append (prev : α) (xs ys : List α) :
    messagesFrom hash join prev (xs ++ ys) =
      messagesFrom hash join prev xs ++ messagesFrom hash join (link hash join prev xs) ys := by
  induction xs generalizing prev with
  | nil => rfl
  | cons x xs ih => simp [messagesFrom, ih, link]

/-- A prefix needs no further messages. -/
theorem messages_take_subset (xs : List α) (n : Nat) :
    messages hash join (xs.take n) ⊆ messages hash join xs := by
  cases xs with
  | nil => simp [messages]
  | cons x xs =>
    cases n with
    | zero => simp [messages]
    | succ n =>
      intro m hm
      have hsplit := @messagesFrom_append α μ hash join x (xs.take n) (xs.drop n)
      rw [List.take_append_drop] at hsplit
      rw [messages, hsplit]
      exact List.mem_append_left _ hm

/-! ## The last link -/

theorem link_append (prev x : α) (xs : List α) :
    link hash join prev (xs ++ [x]) = next hash join (link hash join prev xs) x := by
  simp [link]

theorem getLast?_chainFrom (prev : α) (xs : List α) :
    (prev :: chainFrom hash join prev xs).getLast? = some (link hash join prev xs) := by
  induction xs generalizing prev with
  | nil => rfl
  | cons x xs ih =>
    have htail := ih (next hash join prev x)
    rw [chainFrom, List.getLast?_cons_cons, htail]
    rfl

theorem getLast?_chain (x : α) (xs : List α) :
    (chain hash join (x :: xs)).getLast? = some (link hash join x xs) := getLast?_chainFrom x xs

/-- Each later link is the hash of the one before, joined with the item. -/
theorem chainFrom_getElem? {prev x : α} {xs : List α} {i : Nat} (h : xs[i]? = some x) :
    ∃ before, (prev :: chainFrom hash join prev xs)[i]? = some before ∧
      (chainFrom hash join prev xs)[i]? = some (hash (join before x)) := by
  induction xs generalizing prev i with
  | nil => cases h
  | cons y xs ih =>
    cases i with
    | zero =>
      cases h
      exact ⟨prev, rfl, rfl⟩
    | succ i => exact ih h

/-! ## Injectivity -/

variable (hash join)

/-- The hash has no collision among the messages of the two lists, and no item of either list is
    the hash of one of them. -/
structure Separated (a b : List α) : Prop where
  collision : ∀ m ∈ messages hash join a ++ messages hash join b,
    ∀ m' ∈ messages hash join a ++ messages hash join b, hash m = hash m' → m = m'
  items : ∀ x ∈ a ++ b, ∀ m ∈ messages hash join a ++ messages hash join b, x ≠ hash m

variable {hash join}

theorem Separated.symm {a b : List α} (h : Separated hash join a b) :
    Separated hash join b a := by
  refine ⟨?_, ?_⟩
  · intro m hm m' hm'
    exact h.collision m (List.mem_append.2 (List.mem_append.1 hm).symm) m'
      (List.mem_append.2 (List.mem_append.1 hm').symm)
  · intro x hx m hm
    exact h.items x (List.mem_append.2 (List.mem_append.1 hx).symm) m
      (List.mem_append.2 (List.mem_append.1 hm).symm)

theorem Separated.mono {a a' b b' : List α} (h : Separated hash join a b) (ha : a' ⊆ a)
    (hb : b' ⊆ b) (hma : messages hash join a' ⊆ messages hash join a)
    (hmb : messages hash join b' ⊆ messages hash join b) : Separated hash join a' b' := by
  have hitems : a' ++ b' ⊆ a ++ b := List.append_subset.2
    ⟨List.subset_append_of_subset_left _ ha, List.subset_append_of_subset_right _ hb⟩
  have hmessages : messages hash join a' ++ messages hash join b' ⊆
      messages hash join a ++ messages hash join b := List.append_subset.2
    ⟨List.subset_append_of_subset_left _ hma, List.subset_append_of_subset_right _ hmb⟩
  refine ⟨?_, ?_⟩
  · intro m hm m' hm'
    exact h.collision m (hmessages hm) m' (hmessages hm')
  · intro x hx m hm
    exact h.items x (hitems hx) m (hmessages hm)

theorem Separated.take {a b : List α} (h : Separated hash join a b) (n k : Nat) :
    Separated hash join (a.take n) (b.take k) :=
  h.mono (List.take_subset n a) (List.take_subset k b) (messages_take_subset a n)
    (messages_take_subset b k)

theorem mem_messages_append (x y : α) (xs : List α) :
    join (link hash join x xs) y ∈ messages hash join (x :: (xs ++ [y])) := by
  rw [messages, messagesFrom_append]
  exact List.mem_append_right _ List.mem_cons_self

theorem messages_subset_append (x y : α) (xs : List α) :
    messages hash join (x :: xs) ⊆ messages hash join (x :: (xs ++ [y])) := by
  rw [messages, messages, messagesFrom_append]
  exact List.subset_append_left _ _

/-- An item is no link of a longer list. -/
theorem ne_link_append {x y z : α} {ys : List α}
    (h : Separated hash join [x] (y :: (ys ++ [z]))) :
    x ≠ link hash join y (ys ++ [z]) := by
  rw [link_append]
  exact h.items x (by simp) _ (List.mem_append_right _ (mem_messages_append y z ys))

/-- Induction from the end: two longer lists end with the same message, so their last items are
    the same and the lists before them have the same last link; a single item is no hash. -/
theorem link_injective (hjoin : ∀ p x q y, join p x = join q y → p = q ∧ x = y) {x y : α}
    {xs ys : List α} (h : Separated hash join (x :: xs) (y :: ys))
    (hlink : link hash join x xs = link hash join y ys) : x :: xs = y :: ys := by
  induction xs using List.reverseRecOn generalizing ys with
  | nil =>
    cases ys using List.reverseRecOn with
    | nil => exact congrArg (· :: []) hlink
    | append_singleton ys z => exact absurd hlink (ne_link_append h)
  | append_singleton xs a ih =>
    cases ys using List.reverseRecOn with
    | nil => exact absurd hlink.symm (ne_link_append h.symm)
    | append_singleton ys b =>
      rw [link_append, link_append] at hlink
      have hmessage := h.collision _ (List.mem_append_left _ (mem_messages_append x a xs)) _
        (List.mem_append_right _ (mem_messages_append y b ys)) hlink
      obtain ⟨hbefore, rfl⟩ := hjoin _ _ _ _ hmessage
      have hshorter : Separated hash join (x :: xs) (y :: ys) :=
        h.mono (by simp) (by simp) (messages_subset_append x a xs) (messages_subset_append y a ys)
      have hsame := ih hshorter hbefore
      rw [← List.cons_append, hsame, List.cons_append]

/-- **Injectivity**: non-empty lists with the same last link are the same. -/
theorem chain_injective (hjoin : ∀ p x q y, join p x = join q y → p = q ∧ x = y) {a b : List α}
    (ha : a ≠ []) (hb : b ≠ []) (h : Separated hash join a b)
    (hlast : (chain hash join a).getLast? = (chain hash join b).getLast?) : a = b := by
  cases a with
  | nil => exact absurd rfl ha
  | cons x xs =>
    cases b with
    | nil => exact absurd rfl hb
    | cons y ys =>
      rw [getLast?_chain, getLast?_chain] at hlast
      exact link_injective hjoin h (Option.some.inj hlast)

end HashChain

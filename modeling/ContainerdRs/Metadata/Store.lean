import ContainerdRs.Lib.OrdMap

/-!
# The metadata store (`crates/metadata/src/lib.rs`)

One table of the store: an ordered map from the key `<namespace>/<id>` to records.  `list` scans
the whole table and keeps the keys that start with `<namespace>/`, in key order.

* `get_put`, `get_delete` — lookup after an update.
* `mem_list` — `list` returns exactly the records of the namespace.
* `list_find?` — the first listed record with a property is the one of least key.
-/

set_option autoImplicit false

namespace ContainerdRs.Metadata

variable {α : Type}

/-- A table of the database, for records of one kind. -/
abbrev Table (α : Type) := OrdMap String α

/-- `str::starts_with`. -/
def startsWith (s pre : String) : Bool := pre.toList.isPrefixOf s.toList

/-- `key`: `format!("{namespace}/{id}")`. -/
def key (ns id : String) : String := ns ++ "/" ++ id

/-- `Store::put`. -/
def put (t : Table α) (ns id : String) (v : α) : Table α := t.insert (key ns id) v

/-- `Store::get`. -/
def get (t : Table α) (ns id : String) : Option α := t.get? (key ns id)

/-- `Store::delete`: whether the record existed, and the table without it. -/
def delete (t : Table α) (ns id : String) : Bool × Table α :=
  ((t.get? (key ns id)).isSome, t.erase (key ns id))

/-- `Store::list`. -/
def list (t : Table α) (ns : String) : List α :=
  (t.entries.filter fun e => startsWith e.1 (ns ++ "/")).map (·.2)

theorem key_inj {ns id id' : String} : key ns id = key ns id' ↔ id = id' := by
  constructor
  · intro h
    have h := congrArg String.toList h
    simp only [key, String.toList_append] at h
    exact String.toList_inj.1 (List.append_cancel_left h)
  · rintro rfl
    rfl

/-- The keys of a namespace are those of its ids. -/
theorem startsWith_iff {ns k : String} :
    startsWith k (ns ++ "/") = true ↔ ∃ id, k = key ns id := by
  rw [startsWith, List.isPrefixOf_iff_prefix]
  constructor
  · rintro ⟨rest, hr⟩
    refine ⟨String.ofList rest, String.toList_inj.1 ?_⟩
    rw [key, String.toList_append, String.toList_ofList, hr]
  · rintro ⟨id, rfl⟩
    exact ⟨id.toList, by simp [key]⟩

@[simp] theorem get_empty (ns id : String) : get (OrdMap.empty : Table α) ns id = none := rfl

theorem get_put {t : Table α} {ns id id' : String} {v : α} :
    get (put t ns id v) ns id' = if id' = id then some v else get t ns id' := by
  simp only [get, put, OrdMap.get?_insert, key_inj]

theorem get_delete {t : Table α} {ns id id' : String} :
    get (delete t ns id).2 ns id' = if id' = id then none else get t ns id' := by
  simp only [get, delete, OrdMap.get?_erase, key_inj]

/-- What is there after a delete was there before. -/
theorem get_of_get_delete {t : Table α} {ns id id' : String} {v : α}
    (h : get (delete t ns id).2 ns id' = some v) : get t ns id' = some v := by
  rw [get_delete] at h
  split at h
  · cases h
  · exact h

/-- `list` returns the records of the namespace. -/
theorem mem_list {t : Table α} {ns : String} {v : α} :
    v ∈ list t ns ↔ ∃ id, get t ns id = some v := by
  simp only [list, get, List.mem_map, List.mem_filter, startsWith_iff, OrdMap.get?_eq_some]
  constructor
  · rintro ⟨⟨k, w⟩, ⟨hm, id, rfl⟩, rfl⟩
    exact ⟨id, hm⟩
  · rintro ⟨id, hm⟩
    exact ⟨(key ns id, v), ⟨hm, id, rfl⟩, rfl⟩

/-- The first listed record with a property. -/
theorem list_find? {t : Table α} {ns : String} {p : α → Bool} {v : α} :
    (list t ns).find? p = some v ↔
      ∃ id, get t ns id = some v ∧ p v = true ∧
        ∀ id' v', get t ns id' = some v' → p v' = true → key ns id ≤ key ns id' := by
  simp only [list, get, List.find?_map, List.find?_filter, Option.map_eq_some_iff,
    OrdMap.find?_eq_some, OrdMap.get?_eq_some, decide_eq_true_eq,
    Function.comp_apply, startsWith_iff]
  constructor
  · rintro ⟨⟨k, w⟩, ⟨hm, ⟨⟨id, rfl⟩, hp⟩, hmin⟩, rfl⟩
    exact ⟨id, hm, hp, fun id' v' hm' hp' => hmin (key ns id', v') hm' ⟨⟨id', rfl⟩, hp'⟩⟩
  · rintro ⟨id, hm, hp, hmin⟩
    refine ⟨(key ns id, v), ⟨hm, ⟨⟨id, rfl⟩, hp⟩, ?_⟩, rfl⟩
    rintro ⟨k, w⟩ hm' ⟨⟨id', rfl⟩, hp'⟩
    exact hmin id' w hm' hp'

end ContainerdRs.Metadata

import ContainerdRs.CoreTypes
import ContainerdRs.Lib.LatestEntries
import ContainerdRs.Runtime.Bundle

/-!
# The environment of a container (`merge_env`)

The variables of the request go behind those of the image; a request pair drops every entry that
starts with `key=`, the ones of earlier pairs included.  A key without `=` makes this the entries
of one name, the text before the first `=`.

* `entryName_eq_some_iff` — the name of an entry, and what follows it.
* `isPrefixOf_iff_entryName` — the prefix test is a test of the name.
* `mergeEnv_eq` — `merge_env` replaces entries by name.
* `merge_env_exact` — which entries the merged environment has, and in which order.
-/

set_option autoImplicit false

namespace ContainerdRs.Runtime

open LatestEntries

/-- The name of an entry: the text before the first `=`. -/
def entryName (entry : String) : Option String := (splitOnce '=' entry).map Prod.fst

/-- The entry of a request pair. -/
def envEntry (kv : String × String) : String := kv.1 ++ "=" ++ kv.2

/-- The value given last for a key. -/
def lastValue (envs : List (String × String)) (key : String) : Option String :=
  (envs.reverse.find? (fun kv => kv.1 = key)).map Prod.snd

/-- No request key is the name of the entry. -/
def untouched (envs : List (String × String)) (entry : String) : Bool :=
  decide (∀ kv ∈ envs, entryName entry ≠ some kv.1)

theorem toList_envEntry (kv : String × String) :
    (envEntry kv).toList = kv.1.toList ++ '=' :: kv.2.toList := by
  rw [envEntry, String.toList_append, String.toList_append, List.append_assoc]
  rfl

/-- The name stands before the first `=`. -/
theorem entryName_eq_some_iff {entry name : String} : entryName entry = some name ↔
    ∃ value : String, entry.toList = name.toList ++ '=' :: value.toList ∧ '=' ∉ name.toList := by
  unfold entryName
  rw [Option.map_eq_some_iff]
  constructor
  · rintro ⟨⟨_, value⟩, hsplit, rfl⟩
    exact ⟨value, splitOnce_eq_some_iff.1 hsplit⟩
  · rintro ⟨value, hentry⟩
    exact ⟨(name, value), splitOnce_eq_some_iff.2 hentry, rfl⟩

theorem entryName_envEntry {kv : String × String} (h : '=' ∉ kv.1.toList) :
    entryName (envEntry kv) = some kv.1 :=
  entryName_eq_some_iff.2 ⟨kv.2, toList_envEntry kv, h⟩

/-- An entry starts with `key=` exactly when this is its name. -/
theorem isPrefixOf_iff_entryName {key : String} (h : '=' ∉ key.toList) (entry : String) :
    (key ++ "=").toList.isPrefixOf entry.toList = true ↔ entryName entry = some key := by
  have hkey : (key ++ "=").toList = key.toList ++ ['='] := by
    rw [String.toList_append]
    rfl
  rw [List.isPrefixOf_iff_prefix, hkey, entryName_eq_some_iff]
  constructor
  · rintro ⟨rest, hrest⟩
    refine ⟨String.ofList rest, ?_, h⟩
    rw [String.toList_ofList, ← hrest, List.append_assoc]
    rfl
  · rintro ⟨value, hentry, -⟩
    refine ⟨value.toList, ?_⟩
    rw [hentry, List.append_assoc]
    rfl

/-- `merge_env` replaces the entries of the image by those of the request, name by name. -/
theorem mergeEnv_eq {image : ImageConfig} {req : ContainerRequest}
    (h : ∀ kv ∈ req.envs, '=' ∉ kv.1.toList) :
    mergeEnv image req = replaceAll entryName image.env (req.envs.map envEntry) := by
  unfold mergeEnv replaceAll
  generalize image.env = out at *
  generalize req.envs = envs at h
  induction envs generalizing out with
  | nil => rfl
  | cons kv envs ih =>
    have hkey : '=' ∉ kv.1.toList := h kv List.mem_cons_self
    have hone : mergeEnvEntry out kv = replace entryName out (envEntry kv) := by
      have hfilter : out.filter (fun e => !((kv.1 ++ "=").toList.isPrefixOf e.toList)) =
          out.filter (fun e => entryName e ≠ entryName (envEntry kv)) := by
        apply List.filter_congr
        intro e _
        rw [entryName_envEntry hkey, Bool.eq_iff_iff, Bool.not_eq_true', decide_eq_true_eq, Ne,
          ← isPrefixOf_iff_entryName hkey, Bool.not_eq_true]
      rw [mergeEnvEntry, hfilter]
      rfl
    rw [List.foldl_cons, List.map_cons, List.foldl_cons, hone]
    exact ih _ fun kv' hkv' => h kv' (List.mem_cons_of_mem _ hkv')

/-! ## The entries of the request -/

/-- The last entry of a name is that of the value given last. -/
theorem last?_envEntry {envs : List (String × String)} (h : ∀ kv ∈ envs, '=' ∉ kv.1.toList)
    (key : String) : last? entryName (envs.map envEntry) (some key) =
      (lastValue envs key).map fun value => key ++ "=" ++ value := by
  induction envs with
  | nil => rfl
  | cons kv envs ih =>
    have hname := entryName_envEntry (h kv List.mem_cons_self)
    have htail := ih fun kv' hkv' => h kv' (List.mem_cons_of_mem _ hkv')
    have hlast : lastValue (kv :: envs) key =
        (lastValue envs key).or (if kv.1 = key then some kv.2 else none) := by
      rw [lastValue, List.reverse_cons, List.find?_append, lastValue]
      cases hfind : envs.reverse.find? (fun kv => kv.1 = key) with
      | some kv' => rfl
      | none =>
        by_cases hkey : kv.1 = key <;> simp [hkey]
    rw [List.map_cons, last?_cons, htail, hlast, hname]
    cases lastValue envs key with
    | some value => rfl
    | none =>
      by_cases hkey : kv.1 = key
      · subst hkey
        simp [envEntry]
      · simp [hkey]

theorem lastValue_isSome {envs : List (String × String)} {kv : String × String} (h : kv ∈ envs) :
    ∃ value, lastValue envs kv.1 = some value := by
  have hsome : (envs.reverse.find? (fun x => x.1 = kv.1)).isSome = true := by
    rw [List.find?_isSome]
    exact ⟨kv, List.mem_reverse.2 h, by simp⟩
  obtain ⟨x, hx⟩ := Option.isSome_iff_exists.1 hsome
  exact ⟨x.2, by rw [lastValue, hx]; rfl⟩

/-- **Environment merge**: the untouched entries of the image in their order, then entries of the
    request alone; and of each request key there is one entry, with the value given last. -/
theorem merge_env_exact (image : ImageConfig) (req : ContainerRequest)
    (h : ∀ kv ∈ req.envs, '=' ∉ kv.1.toList) :
    (∃ entries, mergeEnv image req = image.env.filter (untouched req.envs) ++ entries ∧
      ∀ e ∈ entries, ∃ key value, lastValue req.envs key = some value ∧ e = key ++ "=" ++ value) ∧
    ∀ kv ∈ req.envs, ∃ value, lastValue req.envs kv.1 = some value ∧
      (mergeEnv image req).filter (fun e => entryName e = some kv.1) = [kv.1 ++ "=" ++ value] := by
  have hmerge : mergeEnv image req = image.env.filter (untouched req.envs) ++
      latest entryName (req.envs.map envEntry) := by
    rw [mergeEnv_eq h, replaceAll_eq]
    congr 1
    apply List.filter_congr
    intro e _
    rw [untouched, decide_eq_decide, List.forall_mem_map]
    exact forall₂_congr fun kv hkv => by rw [entryName_envEntry (h kv hkv)]
  refine ⟨⟨_, hmerge, ?_⟩, ?_⟩
  · intro e he
    have hlast := exists_of_mem_latest he
    obtain ⟨kv, hkv, rfl⟩ := List.mem_map.1 (latest_subset _ he)
    rw [entryName_envEntry (h kv hkv), last?_envEntry h] at hlast
    obtain ⟨value, hvalue, heq⟩ := Option.map_eq_some_iff.1 hlast
    exact ⟨kv.1, value, hvalue, heq.symm⟩
  · intro kv hkv
    obtain ⟨value, hvalue⟩ := lastValue_isSome hkv
    refine ⟨value, hvalue, ?_⟩
    -- none of the untouched entries has the name
    have hold : (image.env.filter (untouched req.envs)).filter
        (fun e => entryName e = some kv.1) = [] := by
      rw [List.filter_eq_nil_iff]
      intro e he
      have hfree := of_decide_eq_true (List.mem_filter.1 he).2 kv hkv
      simpa using hfree
    rw [hmerge, List.filter_append, hold, latest_of_name, last?_envEntry h, hvalue]
    rfl

/-- Keys that are prefixes of one another, and a key given twice. -/
theorem repeated_keys_merged :
    (mergeEnv ⟨["A=0", "HOME", "AB=0"], [], [], none, none⟩
        { ContainerRequest.default with envs := [("A", "1"), ("AB", "2"), ("A", "3")] }).filter
      (fun e => entryName e = some "A") = ["A=3"] := by
  obtain ⟨value, hvalue, hone⟩ := (merge_env_exact ⟨["A=0", "HOME", "AB=0"], [], [], none, none⟩
    { ContainerRequest.default with envs := [("A", "1"), ("AB", "2"), ("A", "3")] }
    (by decide)).2 ("A", "1") (by decide)
  cases hvalue
  exact hone

end ContainerdRs.Runtime

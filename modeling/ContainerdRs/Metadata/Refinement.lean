import ContainerdRs.CoreTypes
import ContainerdRs.Lib.Separators
import ContainerdRs.Metadata.Store

/-!
# The metadata store is a map (`crates/metadata/src/lib.rs`)

The whole database: one table for each kind of record, with the key `<namespace>/<id>` and the
record as JSON bytes.  The encoding is the parameter `Codec`.

* `Db`, `exec` — the database and one call of the store.
* `Records`, `Records.apply`, `Answers` — the map from kind, namespace and id that the store is
  for: what a call makes of it and what it has to answer.
* `apply_last` — an entry of the map is the last put that no delete has followed.
* `store_refines_map` — after every history the store answers as the map does.
-/

set_option autoImplicit false

namespace ContainerdRs.Metadata.Database

/-! ## The database -/

/-- `Kind`. -/
inductive Kind where
  | image
  | container
  | sandbox
  | snapshotRef
  | lease
  deriving DecidableEq, Repr

/-- `Kind::table`: the name of the table. -/
def Kind.table : Kind → String
  | .image => "images"
  | .container => "containers"
  | .sandbox => "sandboxes"
  | .snapshotRef => "snapshot_refs"
  | .lease => "leases"

theorem Kind.table_inj {kind kind' : Kind} : kind.table = kind'.table ↔ kind = kind' := by
  cases kind <;> cases kind' <;> decide

/-- The database: its tables by name. -/
abbrev Db := String → Table Bytes

/-- `Store::open` of a new database. -/
def Db.open : Db := fun _ => .empty

/-- `serde_json`, for the records of each kind. -/
structure Codec (Rec : Kind → Type) where
  toVec : ∀ kind, Rec kind → Except String Bytes
  fromSlice : ∀ kind, Bytes → Except String (Rec kind)

variable {Rec : Kind → Type}

/-- A call of the store. -/
inductive Op (Rec : Kind → Type) where
  | put (kind : Kind) (ns id : String) (value : Rec kind)
  | get (kind : Kind) (ns id : String)
  | delete (kind : Kind) (ns id : String)
  | list (kind : Kind) (ns : String)

/-- The namespace of a call. -/
def Op.ns : Op Rec → String
  | .put _ ns _ _ => ns
  | .get _ ns _ => ns
  | .delete _ ns _ => ns
  | .list _ ns => ns

/-- What a call returns. -/
def Reply : Op Rec → Type
  | .put .. => Except String Unit
  | .get kind .. => Except String (Option (Rec kind))
  | .delete .. => Except String Bool
  | .list kind .. => Except String (List (Rec kind))

/-- One call. -/
def exec (codec : Codec Rec) (db : Db) : (op : Op Rec) → Reply op × Db
  | .put kind ns id value =>
    match codec.toVec kind value with
    | .error e => (.error e, db)
    | .ok bytes =>
      (.ok (), Function.update db kind.table (Metadata.put (db kind.table) ns id bytes))
  | .get kind ns id =>
    match Metadata.get (db kind.table) ns id with
    | some bytes => ((codec.fromSlice kind bytes).map some, db)
    | none => (.ok none, db)
  | .delete kind ns id =>
    let (existed, table) := Metadata.delete (db kind.table) ns id
    (.ok existed, Function.update db kind.table table)
  | .list kind ns => ((Metadata.list (db kind.table) ns).mapM (codec.fromSlice kind), db)

/-- The database after a history of calls. -/
def Db.after (codec : Codec Rec) (db : Db) (ops : List (Op Rec)) : Db :=
  ops.foldl (fun db op => (exec codec db op).2) db

/-! ## The map -/

/-- A map from kind, namespace and id to records. -/
abbrev Records (Rec : Kind → Type) := ∀ kind : Kind, String → String → Option (Rec kind)

/-- The map without an entry. -/
def Records.empty : Records Rec := fun _ _ _ => none

/-- The entry of a key is set, or taken out. -/
def Records.set (m : Records Rec) (kind : Kind) (ns id : String) (v : Option (Rec kind)) :
    Records Rec :=
  Function.update m kind fun ns' id' => if ns' = ns ∧ id' = id then v else m kind ns' id'

/-- What a call makes of the map. -/
def Records.apply (m : Records Rec) : Op Rec → Records Rec
  | .put kind ns id value => m.set kind ns id (some value)
  | .delete kind ns id => m.set kind ns id none
  | _ => m

/-- The values of a kind and a namespace, each once. -/
def Lists (m : Records Rec) (kind : Kind) (ns : String) (values : List (Rec kind)) : Prop :=
  ∃ ids : List String, ids.Nodup ∧ (∀ id, id ∈ ids ↔ (m kind ns id).isSome = true) ∧
    ids.map (m kind ns) = values.map some

/-- What a call has to return. -/
def Answers (m : Records Rec) : (op : Op Rec) → Reply op → Prop
  | .put .., r => r = .ok ()
  | .get kind ns id, r => r = .ok (m kind ns id)
  | .delete kind ns id, r => r = .ok (m kind ns id).isSome
  | .list kind ns, r => ∃ values, r = .ok values ∧ Lists m kind ns values

/-- What a call does to the entry of a key, if anything. -/
def Op.effect (kind : Kind) (ns id : String) : Op Rec → Option (Option (Rec kind))
  | .put kind' ns' id' value =>
    if h : kind' = kind then if ns' = ns ∧ id' = id then some (some (h ▸ value)) else none
    else none
  | .delete kind' ns' id' =>
    if kind' = kind ∧ ns' = ns ∧ id' = id then some none else none
  | _ => none

theorem Records.set_apply (m : Records Rec) (kind kind' : Kind) (ns id ns' id' : String)
    (v : Option (Rec kind)) :
    m.set kind ns id v kind' ns' id' =
      if h : kind = kind' then if ns' = ns ∧ id' = id then h ▸ v else m kind' ns' id'
      else m kind' ns' id' := by
  by_cases h : kind = kind'
  · subst h
    simp [Records.set]
  · rw [Records.set, Function.update_of_ne (Ne.symm h), dif_neg h]

/-- A call changes an entry by its effect. -/
theorem apply_effect (m : Records Rec) (op : Op Rec) (kind : Kind) (ns id : String) :
    m.apply op kind ns id = (op.effect kind ns id).getD (m kind ns id) := by
  cases op with
  | put kind' ns' id' value =>
    rw [Records.apply, Records.set_apply, Op.effect]
    by_cases h : kind' = kind
    · subst h
      by_cases hid : ns' = ns ∧ id' = id
      · simp [hid]
      · rw [dif_pos rfl, dif_pos rfl, if_neg hid, if_neg (by tauto)]
        rfl
    · rw [dif_neg h, dif_neg h]
      rfl
  | delete kind' ns' id' =>
    rw [Records.apply, Records.set_apply, Op.effect]
    by_cases h : kind' = kind
    · subst h
      by_cases hid : ns' = ns ∧ id' = id
      · simp [hid]
      · rw [dif_pos rfl, if_neg (by tauto), if_neg (by tauto)]
        rfl
    · rw [dif_neg h, if_neg (by tauto)]
      rfl
  | get kind' ns' id' => rfl
  | list kind' ns' => rfl

/-- The map after a history of calls. -/
def Records.after (m : Records Rec) (ops : List (Op Rec)) : Records Rec := ops.foldl Records.apply m

/-- An entry is the last put that no delete has followed. -/
theorem apply_last (ops : List (Op Rec)) (kind : Kind) (ns id : String) :
    Records.empty.after ops kind ns id = (ops.filterMap (Op.effect kind ns id)).getLast?.join := by
  induction ops using List.reverseRecOn with
  | nil => rfl
  | append_singleton ops op ih =>
    have hafter : Records.empty.after (ops ++ [op]) = (Records.empty.after ops).apply op := by
      simp [Records.after]
    rw [hafter, apply_effect, ih, List.filterMap_append]
    cases h : op.effect kind ns id with
    | none => simp [h]
    | some v => simp [h]

/-! ## The store answers as the map -/

/-- What is read back is what was written. -/
def RoundTrips (codec : Codec Rec) : Prop :=
  ∀ kind value, ∃ bytes, codec.toVec kind value = .ok bytes ∧ codec.fromSlice kind bytes = .ok value

/-- The database holds the map. -/
def Represents (codec : Codec Rec) (db : Db) (m : Records Rec) : Prop :=
  ∀ kind ns id, '/' ∉ ns.toList →
    (get (db kind.table) ns id).map (codec.fromSlice kind) = (m kind ns id).map .ok

/-- Keys of namespaces without a slash determine the namespace and the id. -/
theorem key_eq_iff {ns ns' id id' : String} (h : '/' ∉ ns.toList) (h' : '/' ∉ ns'.toList) :
    key ns id = key ns' id' ↔ ns = ns' ∧ id = id' := by
  constructor
  · intro heq
    have hcut := congrArg (fun k : String => Separators.cut '/' k.toList) heq
    have hkey : ∀ a b : String, (key a b).toList = a.toList ++ '/' :: b.toList := by
      intro a b
      simp [key]
    simp only [hkey] at hcut
    rw [Separators.cut_append _ _ _ h, Separators.cut_append _ _ _ h'] at hcut
    simp only [Option.some.injEq, Prod.mk.injEq, String.toList_inj] at hcut
    exact hcut
  · rintro ⟨rfl, rfl⟩
    rfl

theorem represents_open (codec : Codec Rec) : Represents codec Db.open Records.empty := by
  intro kind ns id _
  rfl

/-- An entry of one table is set, or taken out. -/
theorem Represents.set {codec : Codec Rec} {db : Db} {m : Records Rec} (h : Represents codec db m)
    {kind : Kind} {ns id : String} (hns : '/' ∉ ns.toList) {table : Table Bytes}
    {v : Option (Rec kind)} {bytes : Option Bytes}
    (htable : ∀ k, table.get? k = if k = key ns id then bytes else (db kind.table).get? k)
    (hbytes : bytes.map (codec.fromSlice kind) = v.map .ok) :
    Represents codec (Function.update db kind.table table) (m.set kind ns id v) := by
  intro kind' ns' id' hns'
  rw [Records.set_apply]
  by_cases hkind : kind = kind'
  · subst hkind
    rw [Function.update_self, dif_pos rfl, get, htable]
    simp only [key_eq_iff hns' hns]
    split
    · exact hbytes
    · exact h kind ns' id' hns'
  · have htable' : kind'.table ≠ kind.table := fun e => hkind (Kind.table_inj.1 e).symm
    rw [Function.update_of_ne htable', dif_neg hkind]
    exact h kind' ns' id' hns'

/-- Each call keeps the correspondence. -/
theorem represents_exec {codec : Codec Rec} (hcodec : RoundTrips codec) {db : Db} {m : Records Rec}
    (h : Represents codec db m) {op : Op Rec} (hns : '/' ∉ op.ns.toList) :
    Represents codec (exec codec db op).2 (m.apply op) := by
  cases op with
  | put kind ns id value =>
    obtain ⟨bytes, henc, hdec⟩ := hcodec kind value
    simp only [exec, henc]
    have htable : ∀ k, (Metadata.put (db kind.table) ns id bytes).get? k =
        if k = key ns id then some bytes else (db kind.table).get? k := fun k => OrdMap.get?_insert
    exact h.set hns htable (congrArg some hdec)
  | delete kind ns id =>
    have htable : ∀ k, (Metadata.delete (db kind.table) ns id).2.get? k =
        if k = key ns id then none else (db kind.table).get? k := fun k => OrdMap.get?_erase
    exact h.set hns htable rfl
  | get kind ns id =>
    simp only [exec]
    split <;> exact h
  | list kind ns => exact h

theorem represents_after {codec : Codec Rec} (hcodec : RoundTrips codec) {ops : List (Op Rec)}
    (hns : ∀ op ∈ ops, '/' ∉ op.ns.toList) :
    Represents codec (Db.open.after codec ops) (Records.empty.after ops) := by
  induction ops using List.reverseRecOn with
  | nil => exact represents_open codec
  | append_singleton ops op ih =>
    rw [Db.after, Records.after, List.foldl_append, List.foldl_append]
    apply represents_exec hcodec
    · exact ih fun o ho => hns o (List.mem_append_left _ ho)
    · exact hns op (by simp)

/-- Entries of a namespace whose records the map has, in the order of the scan. -/
theorem decode_entries {codec : Codec Rec} {m : Records Rec} {kind : Kind} {ns : String}
    {es : List (String × Bytes)}
    (h : ∀ e ∈ es, ∃ id v, e.1 = key ns id ∧ m kind ns id = some v ∧
      codec.fromSlice kind e.2 = .ok v) :
    ∃ (ids : List String) (values : List (Rec kind)), es.map Prod.fst = ids.map (key ns) ∧
      ids.map (m kind ns) = values.map some ∧
      (es.map Prod.snd).mapM (codec.fromSlice kind) = .ok values := by
  induction es with
  | nil => exact ⟨[], [], rfl, rfl, rfl⟩
  | cons e es ih =>
    obtain ⟨id, v, hkey, hm, hdec⟩ := h e List.mem_cons_self
    obtain ⟨ids, values, hkeys, hms, hdecs⟩ := ih fun e he => h e (List.mem_cons_of_mem _ he)
    refine ⟨id :: ids, v :: values, by simp [hkey, hkeys], by simp [hm, hms], ?_⟩
    rw [List.map_cons, List.mapM_cons, hdec, hdecs]
    rfl

theorem lists_list {codec : Codec Rec} {db : Db} {m : Records Rec} (h : Represents codec db m)
    {kind : Kind} {ns : String} (hns : '/' ∉ ns.toList) :
    ∃ values, (list (db kind.table) ns).mapM (codec.fromSlice kind) = .ok values ∧
      Lists m kind ns values := by
  -- a listed entry is one that `get` finds
  have hentry : ∀ {id : String} {bytes : Bytes}, (key ns id, bytes) ∈ (db kind.table).entries ↔
      get (db kind.table) ns id = some bytes := fun {id bytes} => OrdMap.get?_eq_some.symm
  have hes : ∀ e ∈ (db kind.table).entries.filter fun e => startsWith e.1 (ns ++ "/"),
      ∃ id v, e.1 = key ns id ∧ m kind ns id = some v ∧ codec.fromSlice kind e.2 = .ok v := by
    rintro ⟨k, bytes⟩ he
    obtain ⟨hmem, hpre⟩ := List.mem_filter.1 he
    obtain ⟨id, rfl⟩ := startsWith_iff.1 hpre
    have hget := h kind ns id hns
    rw [hentry.1 hmem] at hget
    obtain ⟨v, hv, hdec⟩ := Option.map_eq_some_iff.1 hget.symm
    exact ⟨id, v, rfl, hv, hdec.symm⟩
  obtain ⟨ids, values, hkeys, hms, hdecs⟩ := decode_entries hes
  refine ⟨values, hdecs, ids, ?_, ?_, hms⟩
  · have hsorted := (db kind.table).sorted.filter fun e => startsWith e.1 (ns ++ "/")
    have hnodup : (ids.map (key ns)).Nodup := by
      rw [← hkeys]
      exact (List.pairwise_map.2 hsorted).imp fun hlt => ne_of_lt hlt
    exact hnodup.of_map
  · intro id
    have hmem : id ∈ ids ↔ key ns id ∈ ids.map (key ns) := by
      simp [key_inj]
    have hget := congrArg Option.isSome (h kind ns id hns)
    rw [Option.isSome_map, Option.isSome_map] at hget
    rw [hmem, ← hkeys, ← hget, Option.isSome_iff_exists]
    simp only [← hentry, List.mem_map, List.mem_filter]
    constructor
    · rintro ⟨⟨k, bytes⟩, ⟨he, -⟩, rfl⟩
      exact ⟨bytes, he⟩
    · rintro ⟨bytes, he⟩
      exact ⟨_, ⟨he, startsWith_iff.2 ⟨id, rfl⟩⟩, rfl⟩

/-- Each call answers as the map does. -/
theorem answers_exec {codec : Codec Rec} (hcodec : RoundTrips codec) {db : Db} {m : Records Rec}
    (h : Represents codec db m) {op : Op Rec} (hns : '/' ∉ op.ns.toList) :
    Answers m op (exec codec db op).1 := by
  cases op with
  | put kind ns id value =>
    obtain ⟨bytes, henc, -⟩ := hcodec kind value
    simp only [exec, henc]
    rfl
  | get kind ns id =>
    have hget := h kind ns id hns
    simp only [exec, Answers]
    cases hbytes : get (db kind.table) ns id with
    | none =>
      rw [hbytes] at hget
      rw [Option.map_eq_none_iff.1 hget.symm]
    | some bytes =>
      rw [hbytes] at hget
      obtain ⟨v, hv, hdec⟩ := Option.map_eq_some_iff.1 hget.symm
      show (codec.fromSlice kind bytes).map some = .ok (m kind ns id)
      rw [hv, ← hdec]
      rfl
  | delete kind ns id =>
    have hget := congrArg Option.isSome (h kind ns id hns)
    rw [Option.isSome_map, Option.isSome_map] at hget
    exact congrArg Except.ok hget
  | list kind ns => exact lists_list h hns

/-- **The store is a map.**  After every history of calls in namespaces without a slash, the next
    call returns what the map from kind, namespace and id that the history makes has to answer. -/
theorem store_refines_map (codec : Codec Rec) (hcodec : RoundTrips codec) (ops : List (Op Rec))
    (hops : ∀ op ∈ ops, '/' ∉ op.ns.toList) (op : Op Rec) (hop : '/' ∉ op.ns.toList) :
    Answers (Records.empty.after ops) op (exec codec (Db.open.after codec ops) op).1 :=
  answers_exec hcodec (represents_after hcodec hops) hop

/-- The JSON of a boolean. -/
def jsonBool : Codec fun _ => Bool where
  toVec _ b := .ok (if b then "true" else "false").toUTF8.data.toList
  fromSlice _ bytes :=
    if bytes = "true".toUTF8.data.toList then .ok true
    else if bytes = "false".toUTF8.data.toList then .ok false
    else .error "expected a boolean"

/-- The same id in two tables and two namespaces, and one of them deleted. -/
def slashHistory : List (Op fun _ => Bool) :=
  [.put .image "k8s.io" "a/b" true, .put .container "k8s.io" "a/b" false,
    .put .image "default" "k8s.io/a/b" true, .delete .container "k8s.io" "a/b"]

theorem slashHistory_listed :
    Answers (Records.empty.after slashHistory) (.list .image "k8s.io")
      (exec jsonBool (Db.open.after jsonBool slashHistory) (.list .image "k8s.io")).1 := by
  refine store_refines_map jsonBool ?_ slashHistory (by decide) _ (by decide)
  intro kind b
  cases b
  · exact ⟨_, rfl, rfl⟩
  · exact ⟨_, rfl, rfl⟩

end ContainerdRs.Metadata.Database

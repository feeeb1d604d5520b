import ContainerdRs.Cri.Queries
import ContainerdRs.Cri.Moves
import ContainerdRs.Runtime.Limits

/-!
# Reported and programmed resources

The limits of a request take four forms: the initial spec or the flags of `crun update`, which
program the cgroup, and the stored record and `ContainerStatus.resources`, which report them.
An update programs the limits it names; the record takes the whole request.

* `faithful_create_iff`, `faithful_update_iff` — when one request leaves the report as it should.
* `reported_resources_iff` — over every sequence of updates: when it reports what is programmed.
* `partial_update_hides_limit` — an update of one limit makes another one disappear.
-/

set_option autoImplicit false

namespace ContainerdRs.Cri

open ContainerdRs.Runtime Transition

/-! ## The conversions -/

/-- `v1::HugepageLimit`. -/
structure HugepageLimit where
  pageSize : String
  limit : UInt64

/-- `v1::LinuxContainerResources`, with the fields that only `cri_resources` reads.  The numbers
    that are cast are of type `i64`. -/
structure CriResources extends LinuxContainerResources where
  hugepageLimits : List HugepageLimit
  unified : OrdMap String String
  cpuPeriod_lt : cpuPeriod < 2 ^ 63
  cpuShares_lt : cpuShares < 2 ^ 63

/-- `n as u64`. -/
def asU64 (n : Int) : UInt64 := UInt64.ofNat (n % 2 ^ 64).toNat

/-- `cri_resources`. -/
def criResources (r : CriResources) : Runtime.Resources where
  cpuShares := if 0 < r.cpuShares then some (asU64 r.cpuShares) else none
  cpuQuota := if r.cpuQuota ≠ 0 then some r.cpuQuota else none
  cpuPeriod := if 0 < r.cpuPeriod then some (asU64 r.cpuPeriod) else none
  memoryLimit := if 0 < r.memoryLimitInBytes then some r.memoryLimitInBytes else none
  cpusetCpus := if r.cpusetCpus ≠ "" then some r.cpusetCpus else none
  cpusetMems := if r.cpusetMems ≠ "" then some r.cpusetMems else none
  hugepageLimits := (r.hugepageLimits.filter fun h => 0 < h.limit && h.pageSize != "").map
    fun h => (h.pageSize, h.limit)
  unified := r.unified

/-- `linux.map(cri_resources).unwrap_or_default()`. -/
def requestedResources (linux : Option CriResources) : Runtime.Resources :=
  (linux.map criResources).getD .default

/-- `Path::file_name`. -/
def fileName (path : String) : Option String :=
  match ((path.toList.splitOn '/').filter fun c => c ≠ [] ∧ c ≠ ['.']).getLast? with
  | none => none
  | some c => if c = ['.', '.'] then none else some (String.ofList c)

/-- `cgroups_path`. -/
def cgroupsPath (cgroupParent id : String) : String :=
  let base := (fileName cgroupParent).getD ""
  if ".slice".toList.isSuffixOf base.toList then base ++ ":cri-containerd:" ++ id
  -- `trim_end_matches('/')`
  else String.ofList (cgroupParent.toList.rdropWhile (· = '/')) ++ "/" ++ id

/-- `create_container`, `ContainerRequest::cgroup_path`. -/
def requestCgroupPath (cgroupParent id : String) : Option String :=
  if cgroupParent ≠ "" then some (cgroupsPath cgroupParent id) else none

theorem cgroupsPath_ne_empty (cgroupParent id : String) : cgroupsPath cgroupParent id ≠ "" := by
  intro h
  have hlist := congrArg String.toList h
  unfold cgroupsPath at hlist
  dsimp only at hlist
  split at hlist <;> simp at hlist

/-! ## A container and its limits -/

/-- What is programmed for a container, and the resources in its record. -/
structure Resourced where
  limits : Limits
  resources : Option ResourcesRecord

/-- The container after `create_container` with the given spec. -/
def createdWith {Seccomp : Type} (spec : Spec Seccomp) (linux : Option CriResources) :
    Resourced where
  limits := spec.limits?.getD .unset
  resources := linux.map fun r => resourcesRecord r.toLinuxContainerResources

/-- `update_container_resources`, when it succeeds. -/
def updateResources (s : Resourced) (linux : Option CriResources) : Option Resourced :=
  some
    { limits := program s.limits (updateFlags (requestedResources linux))
      resources :=
        match linux with
        | some r => some (resourcesRecord r.toLinuxContainerResources)
        | none => s.resources }

/-- The record is the one that the handler of `Lifecycle` stores. -/
theorem stores_updateResources {c : Ctx} {env : Env} {rec rec' : ContainerRecord}
    {linux : Option CriResources} {limits : Limits} {s' : Resourced}
    (hstores : stores c env (.update rec (linux.map (·.toLinuxContainerResources))) = some rec')
    (h : updateResources ⟨limits, rec.resources⟩ linux = some s') :
    s'.resources = rec'.resources := by
  cases h
  cases linux with
  | none => cases hstores
  | some r =>
    simp only [Option.map_some, stores, Option.ite_none_right_eq_some, Option.some.injEq] at hstores
    obtain ⟨-, rfl⟩ := hstores
    rfl

/-! ## The promise -/

/-- A number in a status: `0` means unset. -/
def shownInt (n : Int) : Option Int := if n = 0 then none else some n

/-- A text in a status: the empty one means unset. -/
def shownStr (s : String) : Option String := if s = "" then none else some s

/-- The message without any field set. -/
def noResources : LinuxContainerResources := ⟨0, 0, 0, 0, "", ""⟩

/-- `ContainerStatus.resources.linux`; an absent message shows nothing. -/
def reported (s : Resourced) : LinuxContainerResources :=
  (s.resources.map recordToCriResources).getD noResources

/-- It is what `container_status` answers. -/
theorem containerStatus_resources {c : Ctx} {rec : ContainerRecord} {status : ContainerStatus}
    {limits : Limits} (h : containerStatus c none (some rec) = .ok status) :
    reported ⟨limits, rec.resources⟩ = status.resources.getD noResources := by
  cases h
  rfl

/-- **The report is faithful**: every limit that is shown has the value last programmed, and no
    limit that is programmed is reported as unset.  Hugepage limits and unified entries are never
    shown, so none may be programmed. -/
structure ReportFaithful (s : Resourced) : Prop where
  cpuPeriod : s.limits.cpuPeriod = shownInt (reported s).cpuPeriod
  cpuQuota : s.limits.cpuQuota = shownInt (reported s).cpuQuota
  cpuShares : s.limits.cpuShares = shownInt (reported s).cpuShares
  memoryLimit : s.limits.memoryLimit = shownInt (reported s).memoryLimitInBytes
  cpusetCpus : s.limits.cpusetCpus = shownStr (reported s).cpusetCpus
  cpusetMems : s.limits.cpusetMems = shownStr (reported s).cpusetMems
  hugepageLimits : s.limits.hugepageLimits = []
  unified : s.limits.unified.entries = []

/-! ## The condition -/

/-- The numbers for which only a positive one is a limit are not negative. -/
def NonNegative (r : CriResources) : Prop :=
  0 ≤ r.cpuPeriod ∧ 0 ≤ r.cpuShares ∧ 0 ≤ r.memoryLimitInBytes

/-- The condition on a creation: no negative number, no hugepage limit and no unified entry. -/
def CreateFaithful (linux : Option CriResources) : Prop :=
  ∀ r, linux = some r → NonNegative r ∧
    (∀ h ∈ r.hugepageLimits, h.limit = 0 ∨ h.pageSize = "") ∧ r.unified.entries = []

/-- The update names every limit that is already programmed. -/
structure NamesAll (limits : Limits) (r : CriResources) : Prop where
  cpuPeriod : r.cpuPeriod = 0 → limits.cpuPeriod = none
  cpuQuota : r.cpuQuota = 0 → limits.cpuQuota = none
  cpuShares : r.cpuShares = 0 → limits.cpuShares = none
  memoryLimit : r.memoryLimitInBytes = 0 → limits.memoryLimit = none
  cpusetCpus : r.cpusetCpus = "" → limits.cpusetCpus = none
  cpusetMems : r.cpusetMems = "" → limits.cpusetMems = none

/-- The condition on an update, on the limits programmed before it. -/
def UpdateFaithful (s : Resourced) (linux : Option CriResources) : Prop :=
  ∀ r, linux = some r → NonNegative r ∧ NamesAll s.limits r

/-! ## One limit -/

/-- The number that is programmed, where only a positive one is a limit. -/
def positive (n : Int) : Option Int := if 0 < n then some n else none

theorem positive_eq_shown_iff {n : Int} : positive n = shownInt n ↔ 0 ≤ n := by
  unfold positive shownInt
  split <;> split <;> simp <;> omega

/-- A number after an update. -/
theorem positive_or_iff {n : Int} {old : Option Int} (hold : ∀ m, old = some m → 0 < m) :
    (positive n).or old = shownInt n ↔ 0 ≤ n ∧ (n = 0 → old = none) := by
  unfold positive shownInt
  by_cases hpos : 0 < n
  · have hne : n ≠ 0 := by omega
    have hle : 0 ≤ n := by omega
    simp [hpos, hne, hle]
  · by_cases hzero : n = 0
    · simp [hzero]
    · have hneg : ¬ 0 ≤ n := by omega
      simp only [hpos, hzero, hneg, if_false, Option.none_or, false_and, iff_false]
      intro h
      exact hpos (hold n h)

theorem shownInt_or_iff {n : Int} {old : Option Int} :
    (shownInt n).or old = shownInt n ↔ (n = 0 → old = none) := by
  unfold shownInt
  by_cases h : n = 0 <;> simp [h]

theorem shownStr_or_iff {s : String} {old : Option String} :
    (shownStr s).or old = shownStr s ↔ (s = "" → old = none) := by
  unfold shownStr
  by_cases h : s = "" <;> simp [h]

/-! ## The limits that a request asks for -/

theorem asU64_toNat {n : Int} (hpos : 0 < n) (hlt : n < 2 ^ 63) : ((asU64 n).toNat : Int) = n := by
  have hmod : (n % 2 ^ 64).toNat < 2 ^ 64 := by omega
  rw [asU64, UInt64.toNat_ofNat_of_lt' hmod]
  omega

theorem map_asU64 {n : Int} (hlt : n < 2 ^ 63) :
    ((if 0 < n then some (asU64 n) else none).map fun x : UInt64 => (x.toNat : Int)) =
      positive n := by
  unfold positive
  split
  · rename_i hpos
    rw [Option.map_some, asU64_toNat hpos hlt]
  · rfl

theorem filter_shownStr (s : String) :
    (if s ≠ "" then some s else none).filter (· ≠ "") = shownStr s := by
  unfold shownStr
  by_cases h : s = "" <;> simp [h]

section Limits

variable (r : CriResources)

@[simp] theorem criResources_cpuPeriod : (criResources r).limits.cpuPeriod = positive r.cpuPeriod :=
  map_asU64 r.cpuPeriod_lt

@[simp] theorem criResources_cpuShares : (criResources r).limits.cpuShares = positive r.cpuShares :=
  map_asU64 r.cpuShares_lt

@[simp] theorem criResources_cpuQuota : (criResources r).limits.cpuQuota = shownInt r.cpuQuota := by
  simp only [Runtime.Resources.limits, criResources, shownInt, ne_eq, ite_not]

@[simp] theorem criResources_memoryLimit :
    (criResources r).limits.memoryLimit = positive r.memoryLimitInBytes := rfl

@[simp] theorem criResources_cpusetCpus :
    (criResources r).limits.cpusetCpus = shownStr r.cpusetCpus :=
  filter_shownStr r.cpusetCpus

@[simp] theorem criResources_cpusetMems :
    (criResources r).limits.cpusetMems = shownStr r.cpusetMems :=
  filter_shownStr r.cpusetMems

theorem criResources_hugepageLimits :
    (criResources r).limits.hugepageLimits = [] ↔
      ∀ h ∈ r.hugepageLimits, h.limit = 0 ∨ h.pageSize = "" := by
  simp only [Runtime.Resources.limits, criResources, List.map_eq_nil_iff, List.filter_eq_nil_iff,
    Bool.and_eq_true, decide_eq_true_eq, bne_iff_ne, not_and, not_not]
  constructor
  · intro h x hx
    by_cases hzero : x.limit = 0
    · exact .inl hzero
    · exact .inr (h x hx (UInt64.pos_iff_ne_zero.2 hzero))
  · intro h x hx hpos
    rcases h x hx with hzero | hempty
    · exact absurd hzero (UInt64.pos_iff_ne_zero.1 hpos)
    · exact hempty

theorem extendMap_entries_nil {m : OrdMap String String} :
    (extendMap .empty m).entries = [] ↔ m.entries = [] := by
  constructor
  · intro h
    by_contra hne
    obtain ⟨entries, e, hsplit⟩ := List.eq_nil_or_concat m.entries |>.resolve_left hne
    -- the last entry is there
    have hmem : (e.1, e.2) ∈ (extendMap .empty m).entries := by
      rw [extendMap, hsplit, List.concat_eq_append, List.foldl_append]
      exact OrdMap.mem_insert.2 (.inl rfl)
    rw [h] at hmem
    cases hmem
  · intro h
    rw [extendMap_nil h]
    rfl

end Limits

/-! ## One request -/

theorem created_limits {Seccomp : Type} {node : Node Seccomp} (hnode : node.Unlimited)
    {image : ImageConfig} {req : ContainerRequest} {cgroupParent id rootfs : String}
    {linux : Option CriResources} {spec : Spec Seccomp} (hparent : cgroupParent ≠ "")
    (hpath : req.cgroupPath = requestCgroupPath cgroupParent id)
    (hresources : req.resources = requestedResources linux)
    (hspec : generateSpec node image req rootfs = .ok spec) :
    (createdWith spec linux).limits = (requestedResources linux).limits := by
  rw [requestCgroupPath, if_pos hparent] at hpath
  have h := limits_generateSpec hnode hpath (cgroupsPath_ne_empty cgroupParent id) hspec
  rw [createdWith, h, Option.getD_some, hresources]

/-- A creation reports what it programs exactly if it meets the condition. -/
theorem faithful_create_iff {s : Resourced} {linux : Option CriResources}
    (hlimits : s.limits = (requestedResources linux).limits)
    (hresources : s.resources = linux.map fun r => resourcesRecord r.toLinuxContainerResources) :
    ReportFaithful s ↔ CreateFaithful linux := by
  cases linux with
  | none =>
    refine iff_of_true ?_ (by simp [CreateFaithful])
    have hunset : s.limits = Limits.unset := hlimits
    have hnothing : reported s = noResources := by rw [reported, hresources]; rfl
    constructor <;> rw [hunset] <;> first | rfl | (rw [hnothing]; rfl)
  | some r =>
    have hreported : reported s = r.toLinuxContainerResources := by
      rw [reported, hresources]
      rfl
    have hlimits : s.limits = (criResources r).limits := hlimits
    have hunified : (criResources r).limits.unified.entries = [] ↔ r.unified.entries = [] :=
      extendMap_entries_nil
    simp only [CreateFaithful, Option.some.injEq, forall_eq', NonNegative]
    constructor
    · intro h
      refine ⟨⟨?_, ?_, ?_⟩, ?_, ?_⟩
      · exact positive_eq_shown_iff.1 (by simpa [hlimits, hreported] using h.cpuPeriod)
      · exact positive_eq_shown_iff.1 (by simpa [hlimits, hreported] using h.cpuShares)
      · exact positive_eq_shown_iff.1 (by simpa [hlimits, hreported] using h.memoryLimit)
      · exact (criResources_hugepageLimits r).1 (hlimits ▸ h.hugepageLimits)
      · exact hunified.1 (hlimits ▸ h.unified)
    · rintro ⟨⟨hperiod, hshares, hmemory⟩, hhuge, hempty⟩
      constructor
      · simpa [hlimits, hreported] using positive_eq_shown_iff.2 hperiod
      · simp [hlimits, hreported]
      · simpa [hlimits, hreported] using positive_eq_shown_iff.2 hshares
      · simpa [hlimits, hreported] using positive_eq_shown_iff.2 hmemory
      · simp [hlimits, hreported]
      · simp [hlimits, hreported]
      · rw [hlimits]
        exact (criResources_hugepageLimits r).2 hhuge
      · rw [hlimits]
        exact hunified.2 hempty

/-- The limits for which only a positive number is one. -/
structure PositiveLimits (limits : Limits) : Prop where
  cpuPeriod : ∀ n, limits.cpuPeriod = some n → 0 < n
  cpuShares : ∀ n, limits.cpuShares = some n → 0 < n
  memoryLimit : ∀ n, limits.memoryLimit = some n → 0 < n

theorem positive_pos {n m : Int} (h : positive n = some m) : 0 < m := by
  unfold positive at h
  split at h
  · cases h
    assumption
  · cases h

theorem positive_or_pos {n m : Int} {old : Option Int} (hold : ∀ m, old = some m → 0 < m)
    (h : (positive n).or old = some m) : 0 < m := by
  rcases Option.or_eq_some_iff.1 h with h | ⟨-, h⟩
  · exact positive_pos h
  · exact hold m h

theorem positive_requested (linux : Option CriResources) :
    PositiveLimits (requestedResources linux).limits := by
  cases linux with
  | none =>
    have hunset : (requestedResources none).limits = Limits.unset := rfl
    rw [hunset]
    constructor <;> simp [Limits.unset]
  | some r =>
    refine ⟨?_, ?_, ?_⟩
    · intro n h
      exact positive_pos ((criResources_cpuPeriod r).symm.trans h)
    · intro n h
      exact positive_pos ((criResources_cpuShares r).symm.trans h)
    · intro n h
      exact positive_pos ((criResources_memoryLimit r).symm.trans h)

/-- An update without a `linux` section does nothing. -/
theorem updateResources_none {s s' : Resourced} (h : updateResources s none = some s') :
    s' = s := by
  cases h
  rfl

theorem positive_update {s s' : Resourced} {linux : Option CriResources}
    (hpos : PositiveLimits s.limits) (h : updateResources s linux = some s') :
    PositiveLimits s'.limits := by
  cases linux with
  | none => exact updateResources_none h ▸ hpos
  | some r =>
    cases h
    have hlimits := program_updateFlags s.limits (criResources r)
    show PositiveLimits (program s.limits (updateFlags (criResources r)))
    rw [hlimits]
    refine ⟨?_, ?_, ?_⟩
    · intro n hn
      exact positive_or_pos hpos.cpuPeriod (by simpa using hn)
    · intro n hn
      exact positive_or_pos hpos.cpuShares (by simpa using hn)
    · intro n hn
      exact positive_or_pos hpos.memoryLimit (by simpa using hn)

/-- An update of a faithful container leaves it so exactly if it meets the condition. -/
theorem faithful_update_iff {s s' : Resourced} {linux : Option CriResources} (hs : ReportFaithful s)
    (hpos : PositiveLimits s.limits) (h : updateResources s linux = some s') :
    ReportFaithful s' ↔ UpdateFaithful s linux := by
  cases linux with
  | none =>
    rw [updateResources_none h]
    exact iff_of_true hs (by simp [UpdateFaithful])
  | some r =>
    cases h
    have hlimits := program_updateFlags s.limits (criResources r)
    simp only [UpdateFaithful, Option.some.injEq, forall_eq', NonNegative]
    constructor
    · rintro ⟨h₁, h₂, h₃, h₄, h₅, h₆, -, -⟩
      simp only [requestedResources, Option.map_some, Option.getD_some, hlimits, reported,
        recordToCriResources, resourcesRecord, criResources_cpuPeriod, criResources_cpuQuota,
        criResources_cpuShares, criResources_memoryLimit, criResources_cpusetCpus,
        criResources_cpusetMems] at h₁ h₂ h₃ h₄ h₅ h₆
      obtain ⟨hperiod, hperiod'⟩ := (positive_or_iff hpos.cpuPeriod).1 h₁
      obtain ⟨hshares, hshares'⟩ := (positive_or_iff hpos.cpuShares).1 h₃
      obtain ⟨hmemory, hmemory'⟩ := (positive_or_iff hpos.memoryLimit).1 h₄
      exact ⟨⟨hperiod, hshares, hmemory⟩, hperiod', shownInt_or_iff.1 h₂, hshares', hmemory',
        shownStr_or_iff.1 h₅, shownStr_or_iff.1 h₆⟩
    · rintro ⟨⟨hperiod, hshares, hmemory⟩, hnames⟩
      constructor <;>
        simp only [requestedResources, Option.map_some, Option.getD_some, hlimits, reported,
          recordToCriResources, resourcesRecord, criResources_cpuPeriod, criResources_cpuQuota,
          criResources_cpuShares, criResources_memoryLimit, criResources_cpusetCpus,
          criResources_cpusetMems]
      · exact (positive_or_iff hpos.cpuPeriod).2 ⟨hperiod, hnames.cpuPeriod⟩
      · exact shownInt_or_iff.2 hnames.cpuQuota
      · exact (positive_or_iff hpos.cpuShares).2 ⟨hshares, hnames.cpuShares⟩
      · exact (positive_or_iff hpos.memoryLimit).2 ⟨hmemory, hnames.memoryLimit⟩
      · exact shownStr_or_iff.2 hnames.cpusetCpus
      · exact shownStr_or_iff.2 hnames.cpusetMems
      · exact hs.hugepageLimits
      · exact hs.unified

/-! ## Sequences of updates -/

/-- **Reported and programmed resources.**  A container is created with a cgroup parent and updated
    any number of times: the report is faithful after the creation and after each update, exactly
    if the creation and each update meet their conditions. -/
theorem reported_resources_iff {Seccomp : Type} {node : Node Seccomp} (hnode : node.Unlimited)
    {image : ImageConfig} {req : ContainerRequest} {cgroupParent id rootfs : String}
    {linux : Option CriResources} {spec : Spec Seccomp} (hparent : cgroupParent ≠ "")
    (hpath : req.cgroupPath = requestCgroupPath cgroupParent id)
    (hresources : req.resources = requestedResources linux)
    (hspec : generateSpec node image req rootfs = .ok spec) (updates : List (Option CriResources)) :
    (ReportFaithful (createdWith spec linux) ∧
        ∀ x ∈ steps updateResources (createdWith spec linux) updates, ReportFaithful x.2.2) ↔
      CreateFaithful linux ∧
        ∀ x ∈ steps updateResources (createdWith spec linux) updates, UpdateFaithful x.1 x.2.1 := by
  have hlimits := created_limits hnode hparent hpath hresources hspec
  have hcreate : ReportFaithful (createdWith spec linux) ↔ CreateFaithful linux :=
    faithful_create_iff hlimits rfl
  have hpos : PositiveLimits (createdWith spec linux).limits := hlimits ▸ positive_requested linux
  have hupdates : ReportFaithful (createdWith spec linux) →
      ((∀ x ∈ steps updateResources (createdWith spec linux) updates, ReportFaithful x.2.2) ↔
        ∀ x ∈ steps updateResources (createdWith spec linux) updates,
          UpdateFaithful x.1 x.2.1) := by
    intro hfaithful
    have hstep : ∀ (s : Resourced) (l : Option CriResources) (s' : Resourced),
        (ReportFaithful s ∧ PositiveLimits s.limits) → UpdateFaithful s l →
          updateResources s l = some s' → (ReportFaithful s' ∧ PositiveLimits s'.limits) :=
      fun s l s' hi hok h => ⟨(faithful_update_iff hi.1 hi.2 h).2 hok, positive_update hi.2 h⟩
    exact forall_steps_iff hstep (fun s l s' hi h => faithful_update_iff hi.1 hi.2 h) updates
      (createdWith spec linux) ⟨hfaithful, hpos⟩
  rw [← hcreate]
  constructor
  · rintro ⟨hfaithful, h⟩
    exact ⟨hfaithful, (hupdates hfaithful).1 h⟩
  · rintro ⟨hfaithful, h⟩
    exact ⟨hfaithful, (hupdates hfaithful).2 h⟩

/-- A request that only asks for the given limits of CPU quota and memory. -/
def quotaAndMemory (cpuQuota memoryLimitInBytes : Int) : CriResources where
  cpuPeriod := 0
  cpuQuota := cpuQuota
  cpuShares := 0
  memoryLimitInBytes := memoryLimitInBytes
  cpusetCpus := ""
  cpusetMems := ""
  hugepageLimits := []
  unified := .empty
  cpuPeriod_lt := by decide
  cpuShares_lt := by decide

/-- A host whose base spec has an empty `linux` section. -/
def bareSpec : Spec Unit where
  process := none
  root := none
  hostname := none
  mounts := none
  linux := some ⟨none, none, none, none, none, none, none, none, none, none, none⟩

def bareNode : Node Unit where
  baseSpec := bareSpec
  rootless := fun _ _ => bareSpec
  runtimeDefault := fun _ => .ok ()
  readProfile := fun _ => .error "not found"
  parseProfile := fun _ => .ok ()
  statDevice := fun _ => .error (.builder "not found")

/-- A container with a limit of 64 MiB, below the parent `/pods`. -/
def limitedRequest : ContainerRequest :=
  { ContainerRequest.default with
    resources := requestedResources (some (quotaAndMemory 0 67108864))
    cgroupPath := requestCgroupPath "/pods" "c1"
    privileged := true }

def limitedSpec : Spec Unit :=
  applyPrivileged (unconfinedSpec bareNode ⟨[], [], [], none, none⟩ limitedRequest "/rootfs")

/-- An update that names the memory limit again is reported as programmed. -/
theorem full_update_reported :
    ReportFaithful (createdWith limitedSpec (some (quotaAndMemory 0 67108864))) ∧
      ∀ x ∈ steps updateResources (createdWith limitedSpec (some (quotaAndMemory 0 67108864)))
        [some (quotaAndMemory 50000 134217728)], ReportFaithful x.2.2 := by
  have hnode : bareNode.Unlimited := ⟨rfl, fun _ _ => rfl⟩
  have hpath : limitedRequest.cgroupPath = requestCgroupPath "/pods" "c1" := rfl
  have hspec : generateSpec bareNode ⟨[], [], [], none, none⟩ limitedRequest "/rootfs" =
      .ok limitedSpec := rfl
  refine (reported_resources_iff hnode (by decide) hpath rfl hspec _).2 ⟨?_, ?_⟩
  · rintro r ⟨⟩
    refine ⟨?_, ?_, rfl⟩
    · unfold NonNegative
      decide
    · intro h hmem
      cases hmem
  · intro x hx
    rw [steps_cons _ rfl] at hx
    cases List.mem_singleton.1 hx
    rintro r ⟨⟩
    refine ⟨?_, ?_⟩
    · unfold NonNegative
      decide
    · constructor <;> first | (intro; rfl) | (intro h; cases h)

/-- **An update of the quota alone** makes the memory limit disappear from the report, though it
    stays programmed. -/
theorem partial_update_hides_limit :
    ¬ ∀ (node : Node Unit) (image : ImageConfig) (req : ContainerRequest)
        (cgroupParent id rootfs : String) (linux : Option CriResources) (spec : Spec Unit)
        (updates : List (Option CriResources)),
      node.Unlimited → cgroupParent ≠ "" → req.cgroupPath = requestCgroupPath cgroupParent id →
      req.resources = requestedResources linux → generateSpec node image req rootfs = .ok spec →
      ∀ x ∈ steps updateResources (createdWith spec linux) updates, ReportFaithful x.2.2 := by
  intro h
  have hfaithful := h bareNode ⟨[], [], [], none, none⟩ limitedRequest "/pods" "c1" "/rootfs"
    (some (quotaAndMemory 0 67108864)) limitedSpec [some (quotaAndMemory 50000 0)]
    ⟨rfl, fun _ _ => rfl⟩ (by decide) rfl rfl rfl _ (List.mem_of_getElem? (i := 0) rfl)
  -- 64 MiB are programmed, and nothing is reported
  have hmemory : some (67108864 : Int) = none := hfaithful.memoryLimit
  cases hmemory

end ContainerdRs.Cri

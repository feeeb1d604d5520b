import Mathlib.Data.Finset.Basic
import Mathlib.Data.Finset.Option
import Mathlib.Data.List.Nodup

/-!
# Capability sets (`crates/runtime/src/bundle.rs`)

Capability names as CRI requests spell them, the default set, and `apply_capabilities`: drops
first, then adds.  A `HashSet<Capability>` is a `Finset`.

* `expand` — the capabilities a list of names stands for.
* `mem_expand` — a capability is named directly or through `ALL`.
* `dropCaps_eq`, `addCaps_eq` — the two loops take away and add exactly these.
-/

set_option autoImplicit false

namespace ContainerdRs.Runtime

/-- `oci_spec::runtime::Capability`. -/
inductive Capability where
  | auditControl
  | auditRead
  | auditWrite
  | blockSuspend
  | bpf
  | checkpointRestore
  | chown
  | dacOverride
  | dacReadSearch
  | fowner
  | fsetid
  | ipcLock
  | ipcOwner
  | kill
  | lease
  | linuxImmutable
  | macAdmin
  | macOverride
  | mknod
  | netAdmin
  | netBindService
  | netBroadcast
  | netRaw
  | perfmon
  | setfcap
  | setgid
  | setpcap
  | setuid
  | sysAdmin
  | sysBoot
  | sysChroot
  | sysModule
  | sysNice
  | sysPacct
  | sysPtrace
  | sysRawio
  | sysResource
  | sysTime
  | sysTtyConfig
  | syslog
  | wakeAlarm
  deriving DecidableEq, Repr

/-- The name `strum` parses: `SCREAMING_SNAKE_CASE` of the variant. -/
def Capability.name : Capability → String
  | .auditControl => "AUDIT_CONTROL"
  | .auditRead => "AUDIT_READ"
  | .auditWrite => "AUDIT_WRITE"
  | .blockSuspend => "BLOCK_SUSPEND"
  | .bpf => "BPF"
  | .checkpointRestore => "CHECKPOINT_RESTORE"
  | .chown => "CHOWN"
  | .dacOverride => "DAC_OVERRIDE"
  | .dacReadSearch => "DAC_READ_SEARCH"
  | .fowner => "FOWNER"
  | .fsetid => "FSETID"
  | .ipcLock => "IPC_LOCK"
  | .ipcOwner => "IPC_OWNER"
  | .kill => "KILL"
  | .lease => "LEASE"
  | .linuxImmutable => "LINUX_IMMUTABLE"
  | .macAdmin => "MAC_ADMIN"
  | .macOverride => "MAC_OVERRIDE"
  | .mknod => "MKNOD"
  | .netAdmin => "NET_ADMIN"
  | .netBindService => "NET_BIND_SERVICE"
  | .netBroadcast => "NET_BROADCAST"
  | .netRaw => "NET_RAW"
  | .perfmon => "PERFMON"
  | .setfcap => "SETFCAP"
  | .setgid => "SETGID"
  | .setpcap => "SETPCAP"
  | .setuid => "SETUID"
  | .sysAdmin => "SYS_ADMIN"
  | .sysBoot => "SYS_BOOT"
  | .sysChroot => "SYS_CHROOT"
  | .sysModule => "SYS_MODULE"
  | .sysNice => "SYS_NICE"
  | .sysPacct => "SYS_PACCT"
  | .sysPtrace => "SYS_PTRACE"
  | .sysRawio => "SYS_RAWIO"
  | .sysResource => "SYS_RESOURCE"
  | .sysTime => "SYS_TIME"
  | .sysTtyConfig => "SYS_TTY_CONFIG"
  | .syslog => "SYSLOG"
  | .wakeAlarm => "WAKE_ALARM"

/-- `all_capabilities`. -/
def allCapabilityList : List Capability :=
  [
    .auditControl, .auditRead, .auditWrite, .blockSuspend, .bpf, .checkpointRestore, .chown,
    .dacOverride, .dacReadSearch, .fowner, .fsetid, .ipcLock, .ipcOwner, .kill, .lease,
    .linuxImmutable, .macAdmin, .macOverride, .mknod, .netAdmin, .netBindService, .netBroadcast,
    .netRaw, .perfmon, .setfcap, .setgid, .setpcap, .setuid, .sysAdmin, .sysBoot, .sysChroot,
    .sysModule, .sysNice, .sysPacct, .sysPtrace, .sysRawio, .sysResource, .sysTime,
    .sysTtyConfig, .syslog, .wakeAlarm]

/-- `all_capabilities`, as a set. -/
def allCapabilities : Finset Capability := allCapabilityList.toFinset

/-- `default_capabilities`. -/
def defaultCapabilities : Finset Capability :=
  [
    .auditWrite, .chown, .dacOverride, .fowner, .fsetid, .kill, .mknod, .netBindService,
    .netRaw, .setfcap, .setgid, .setpcap, .setuid, .sysChroot].toFinset

/-! ## Names -/

/-- `char::is_whitespace`. -/
def isWhitespace (c : Char) : Bool :=
  let n := c.toNat
  decide (0x9 ≤ n ∧ n ≤ 0xd) || decide (n = 0x20) || decide (n = 0x85) || decide (n = 0xa0) ||
    decide (n = 0x1680) || decide (0x2000 ≤ n ∧ n ≤ 0x200a) || decide (n = 0x2028) ||
    decide (n = 0x2029) || decide (n = 0x202f) || decide (n = 0x205f) || decide (n = 0x3000)

/-- `str::trim`. -/
def trim (cs : List Char) : List Char :=
  ((cs.dropWhile isWhitespace).reverse.dropWhile isWhitespace).reverse

/-- `char::to_uppercase`, for the characters whose upper case is ASCII.  The others stay as they
    are: a name with one of them is no capability name in either case. -/
def charToUppercase (c : Char) : List Char :=
  if 'a' ≤ c ∧ c ≤ 'z' then [c.toUpper]
  else
    match c.toNat with
    | 0xdf => ['S', 'S']
    | 0x131 => ['I']
    | 0x17f => ['S']
    | 0xfb00 => ['F', 'F']
    | 0xfb01 => ['F', 'I']
    | 0xfb02 => ['F', 'L']
    | 0xfb03 => ['F', 'F', 'I']
    | 0xfb04 => ['F', 'F', 'L']
    | 0xfb05 => ['S', 'T']
    | 0xfb06 => ['S', 'T']
    | _ => [c]

/-- `strip_prefix("CAP_")` as long as it succeeds. -/
def stripCap : List Char → List Char
  | 'C' :: 'A' :: 'P' :: '_' :: rest => stripCap rest
  | cs => cs

/-- The key a name is looked up by: trimmed, in upper case, without `CAP_` prefixes. -/
def capKey (name : String) : String :=
  String.ofList (stripCap ((trim name.toList).flatMap charToUppercase))

/-- `parse_cap`. -/
def parseCap (name : String) : Option Capability :=
  if capKey name = "ALL" then none
  else allCapabilityList.find? fun c => c.name = capKey name

/-- The capabilities one name stands for. -/
def named (name : String) : Finset Capability :=
  if capKey name = "ALL" then allCapabilities else (parseCap name).toFinset

/-- The capabilities a list of names stands for. -/
def expand : List String → Finset Capability
  | [] => ∅
  | name :: names => named name ∪ expand names

/-! ## The loops of `apply_capabilities` -/

/-- One turn of the drop loop. -/
def dropCap (capSet : Finset Capability) (name : String) : Finset Capability :=
  if capKey name = "ALL" then ∅
  else
    match parseCap name with
    | some cap => capSet.erase cap
    | none => capSet

/-- One turn of the add loop. -/
def addCap (capSet : Finset Capability) (name : String) : Finset Capability :=
  if capKey name = "ALL" then capSet ∪ allCapabilities
  else
    match parseCap name with
    | some cap => insert cap capSet
    | none => capSet

theorem mem_allCapabilities (c : Capability) : c ∈ allCapabilities := by
  cases c <;> decide

theorem name_injective {c d : Capability} (h : c.name = d.name) : c = d := by
  have hnodup : (allCapabilityList.map Capability.name).Nodup := by decide
  exact List.inj_on_of_nodup_map hnodup (List.mem_toFinset.1 (mem_allCapabilities c))
    (List.mem_toFinset.1 (mem_allCapabilities d)) h

theorem parseCap_eq_some {name : String} {c : Capability} (hall : capKey name ≠ "ALL") :
    parseCap name = some c ↔ capKey name = c.name := by
  unfold parseCap
  rw [if_neg hall]
  constructor
  · intro h
    have hc : c.name = capKey name := by simpa using List.find?_some h
    exact hc.symm
  · intro h
    cases hf : allCapabilityList.find? fun d => d.name = capKey name with
    | none =>
      have hmem : c ∈ allCapabilityList := List.mem_toFinset.1 (mem_allCapabilities c)
      exact absurd h.symm (by simpa using List.find?_eq_none.1 hf c hmem)
    | some d =>
      have hd : d.name = capKey name := by simpa using List.find?_some hf
      rw [name_injective (hd.trans h)]

theorem mem_named {name : String} {c : Capability} :
    c ∈ named name ↔ capKey name = "ALL" ∨ capKey name = c.name := by
  unfold named
  split
  · rename_i hall
    exact iff_of_true (mem_allCapabilities c) (Or.inl hall)
  · rename_i hall
    rw [Option.mem_toFinset, Option.mem_def, parseCap_eq_some hall]
    exact (or_iff_right hall).symm

/-- The capabilities of a list: those named in it, and all of them for `ALL`.  Other names stand
    for nothing. -/
theorem mem_expand {names : List String} {c : Capability} :
    c ∈ expand names ↔ ∃ n ∈ names, capKey n = "ALL" ∨ capKey n = c.name := by
  induction names with
  | nil => simp [expand]
  | cons n names ih => simp [expand, mem_named, ih]

theorem dropCap_eq (capSet : Finset Capability) (name : String) :
    dropCap capSet name = capSet \ named name := by
  unfold dropCap named
  split
  · rw [eq_comm, Finset.sdiff_eq_empty_iff_subset]
    exact fun c _ => mem_allCapabilities c
  · cases parseCap name with
    | none => simp
    | some cap => simp [Finset.sdiff_singleton_eq_erase]

theorem addCap_eq (capSet : Finset Capability) (name : String) :
    addCap capSet name = capSet ∪ named name := by
  unfold addCap named
  split
  · rfl
  · cases parseCap name with
    | none => simp
    | some cap =>
      ext x
      simp

theorem dropCaps_eq : ∀ (drop : List String) (capSet : Finset Capability),
    drop.foldl dropCap capSet = capSet \ expand drop
  | [], capSet => by simp [expand]
  | name :: drop, capSet => by
    rw [List.foldl_cons, dropCaps_eq drop, dropCap_eq, expand, sdiff_sdiff_left,
      Finset.sup_eq_union]

theorem addCaps_eq : ∀ (add : List String) (capSet : Finset Capability),
    add.foldl addCap capSet = capSet ∪ expand add
  | [], capSet => by simp [expand]
  | name :: add, capSet => by
    rw [List.foldl_cons, addCaps_eq add, addCap_eq, expand, Finset.union_assoc]

theorem named_subset_expand : ∀ {names : List String} {name : String}, name ∈ names →
    named name ⊆ expand names
  | _ :: _, _, List.Mem.head _ => Finset.subset_union_left
  | _ :: _, _, List.Mem.tail _ h =>
    Finset.Subset.trans (named_subset_expand h) Finset.subset_union_right

/-- More names stand for more capabilities. -/
theorem expand_mono : ∀ {names names' : List String}, (∀ n ∈ names, n ∈ names') →
    expand names ⊆ expand names'
  | [], _, _ => Finset.empty_subset _
  | n :: names, names', h => by
    apply Finset.union_subset
    · exact named_subset_expand (h n List.mem_cons_self)
    · exact expand_mono fun m hm => h m (List.mem_cons_of_mem _ hm)

/-- Order and repetition of names do not matter. -/
theorem expand_congr {names names' : List String} (h : ∀ n, n ∈ names ↔ n ∈ names') :
    expand names = expand names' :=
  Finset.Subset.antisymm (expand_mono fun n => (h n).1) (expand_mono fun n => (h n).2)

end ContainerdRs.Runtime

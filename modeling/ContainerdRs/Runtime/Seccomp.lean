import ContainerdRs.Lib.GatedRules
import ContainerdRs.Runtime.CapabilitySets

/-!
# The default seccomp profile (`crates/runtime/src/seccomp.rs`)

The bundled profile lists blocks of system calls with conditions on the architecture and on the
capabilities of the container; `runtime_default` keeps the blocks whose conditions match.

* `allows_iff_permits` — what the resolved profile allows, as rules gated by the capabilities.
* `runtimeDefault_mono` — more capabilities allow more.
* `runtime_default_monotone` — the same for the specs of two requests.
-/

set_option autoImplicit false

namespace ContainerdRs.Runtime

/-! ## The resolved profile -/

/-- `LinuxSeccompAction`. -/
inductive LinuxSeccompAction where
  | scmpActKill
  | scmpActKillThread
  | scmpActKillProcess
  | scmpActTrap
  | scmpActErrno
  | scmpActNotify
  | scmpActTrace
  | scmpActLog
  | scmpActAllow
  deriving DecidableEq, Repr

/-- `LinuxSeccompOperator`. -/
inductive LinuxSeccompOperator where
  | scmpCmpNe
  | scmpCmpLt
  | scmpCmpLe
  | scmpCmpEq
  | scmpCmpGe
  | scmpCmpGt
  | scmpCmpMaskedEq
  deriving DecidableEq, Repr

/-- `Arch`, as far as the profile names them. -/
inductive Arch where
  | scmpArchX86
  | scmpArchX8664
  | scmpArchX32
  | scmpArchArm
  | scmpArchAarch64
  | scmpArchMips
  | scmpArchMips64
  | scmpArchMips64n32
  | scmpArchMipsel
  | scmpArchMipsel64
  | scmpArchMipsel64n32
  | scmpArchS390
  | scmpArchS390x
  | scmpArchRiscv64
  deriving DecidableEq, Repr

/-- `LinuxSeccompArg`. -/
structure LinuxSeccompArg where
  index : Nat
  value : UInt64
  valueTwo : Option UInt64
  op : LinuxSeccompOperator
  deriving DecidableEq, Repr

/-- `LinuxSyscall`. -/
structure LinuxSyscall where
  names : List String
  action : LinuxSeccompAction
  errnoRet : Option UInt32
  args : Option (List LinuxSeccompArg)
  deriving DecidableEq, Repr

/-- `LinuxSeccomp`. -/
structure LinuxSeccomp where
  defaultAction : LinuxSeccompAction
  defaultErrnoRet : Option UInt32
  architectures : Option (List Arch)
  syscalls : Option (List LinuxSyscall)
  deriving DecidableEq, Repr

/-- A system call with the values of its arguments. -/
structure SystemCall where
  name : String
  args : Nat → UInt64

/-- The comparison of libseccomp. -/
def LinuxSeccompArg.holds (a : LinuxSeccompArg) (v : UInt64) : Bool :=
  match a.op with
  | .scmpCmpNe => v ≠ a.value
  | .scmpCmpLt => v < a.value
  | .scmpCmpLe => v ≤ a.value
  | .scmpCmpEq => v = a.value
  | .scmpCmpGe => a.value ≤ v
  | .scmpCmpGt => a.value < v
  | .scmpCmpMaskedEq => v &&& a.value = a.valueTwo.getD 0

/-- Every condition on the arguments holds of the call. -/
def ArgsHold (args : List LinuxSeccompArg) (call : SystemCall) : Prop :=
  ∀ a ∈ args, a.holds (call.args a.index) = true

instance (args : List LinuxSeccompArg) (call : SystemCall) : Decidable (ArgsHold args call) :=
  inferInstanceAs (Decidable (∀ a ∈ args, _ = true))

/-- The block names the call and its conditions hold. -/
def LinuxSyscall.Matches (b : LinuxSyscall) (call : SystemCall) : Prop :=
  call.name ∈ b.names ∧ ArgsHold (b.args.getD []) call

instance (b : LinuxSyscall) (call : SystemCall) : Decidable (b.Matches call) :=
  inferInstanceAs (Decidable (_ ∧ _))

/-- Some block with action ALLOW matches and no other block does. -/
def LinuxSeccomp.Allows (profile : LinuxSeccomp) (call : SystemCall) : Prop :=
  (∃ b ∈ profile.syscalls.getD [], b.action = .scmpActAllow ∧ b.Matches call) ∧
    ¬ ∃ b ∈ profile.syscalls.getD [], b.action ≠ .scmpActAllow ∧ b.Matches call

instance (profile : LinuxSeccomp) (call : SystemCall) : Decidable (profile.Allows call) :=
  inferInstanceAs (Decidable ((∃ b ∈ _, _ ∧ _) ∧ ¬ ∃ b ∈ _, _ ∧ _))

/-! ## The bundled profile -/

/-- `Filter`: the conditions of a block. -/
structure Filter where
  caps : List String := []
  arches : List String := []
  minKernel : Option String := none
  deriving DecidableEq, Repr

/-- `SyscallBlock`.  Actions, operators and architectures stand for the names that `oci-spec`
    reads as these. -/
structure SyscallBlock where
  names : List String
  action : LinuxSeccompAction
  errnoRet : Option UInt32 := none
  args : List LinuxSeccompArg := []
  includes : Filter := {}
  excludes : Filter := {}
  deriving DecidableEq, Repr

/-- `ArchMapEntry`. -/
structure ArchMapEntry where
  architecture : Arch
  subArchitectures : Option (List Arch)
  deriving DecidableEq, Repr

/-- `DockerProfile`. -/
structure DockerProfile where
  defaultAction : LinuxSeccompAction
  defaultErrnoRet : Option UInt32
  archMap : List ArchMapEntry
  syscalls : List SyscallBlock
  deriving DecidableEq, Repr

/-- The names that every container may use. -/
def baseSyscalls : List String :=
  ["accept", "accept4", "access", "adjtimex", "alarm", "bind", "brk", "cachestat", "capget",
   "capset", "chdir", "chmod", "chown", "chown32", "clock_adjtime", "clock_adjtime64",
   "clock_getres", "clock_getres_time64", "clock_gettime", "clock_gettime64", "clock_nanosleep",
   "clock_nanosleep_time64", "close", "close_range", "connect", "copy_file_range", "creat", "dup",
   "dup2", "dup3", "epoll_create", "epoll_create1", "epoll_ctl", "epoll_ctl_old", "epoll_pwait",
   "epoll_pwait2", "epoll_wait", "epoll_wait_old", "eventfd", "eventfd2", "execve", "execveat",
   "exit", "exit_group", "faccessat", "faccessat2", "fadvise64", "fadvise64_64", "fallocate",
   "fanotify_mark", "fchdir", "fchmod", "fchmodat", "fchmodat2", "fchown", "fchown32", "fchownat",
   "fcntl", "fcntl64", "fdatasync", "fgetxattr", "flistxattr", "flock", "fork", "fremovexattr",
   "fsetxattr", "fstat", "fstat64", "fstatat64", "fstatfs", "fstatfs64", "fsync", "ftruncate",
   "ftruncate64", "futex", "futex_requeue", "futex_time64", "futex_wait", "futex_waitv",
   "futex_wake", "futimesat", "getcpu", "getcwd", "getdents", "getdents64", "getegid",
   "getegid32", "geteuid", "geteuid32", "getgid", "getgid32", "getgroups", "getgroups32",
   "getitimer", "getpeername", "getpgid", "getpgrp", "getpid", "getppid", "getpriority",
   "getrandom", "getresgid", "getresgid32", "getresuid", "getresuid32", "getrlimit",
   "get_robust_list", "getrusage", "getsid", "getsockname", "getsockopt", "get_thread_area",
   "gettid", "gettimeofday", "getuid", "getuid32", "getxattr", "inotify_add_watch",
   "inotify_init", "inotify_init1", "inotify_rm_watch", "io_cancel", "ioctl", "io_destroy",
   "io_getevents", "io_pgetevents", "io_pgetevents_time64", "ioprio_get", "ioprio_set",
   "io_setup", "io_submit", "ipc", "kill", "landlock_add_rule", "landlock_create_ruleset",
   "landlock_restrict_self", "lchown", "lchown32", "lgetxattr", "link", "linkat", "listen",
   "listxattr", "llistxattr", "_llseek", "lremovexattr", "lseek", "lsetxattr", "lstat", "lstat64",
   "madvise", "map_shadow_stack", "membarrier", "memfd_create", "memfd_secret", "mincore",
   "mkdir", "mkdirat", "mknod", "mknodat", "mlock", "mlock2", "mlockall", "mmap", "mmap2",
   "mprotect", "mq_getsetattr", "mq_notify", "mq_open", "mq_timedreceive",
   "mq_timedreceive_time64", "mq_timedsend", "mq_timedsend_time64", "mq_unlink", "mremap",
   "msgctl", "msgget", "msgrcv", "msgsnd", "msync", "munlock", "munlockall", "munmap",
   "name_to_handle_at", "nanosleep", "newfstatat", "_newselect", "open", "openat", "openat2",
   "pause", "pidfd_open", "pidfd_send_signal", "pipe", "pipe2", "pkey_alloc", "pkey_free",
   "pkey_mprotect", "poll", "ppoll", "ppoll_time64", "prctl", "pread64", "preadv", "preadv2",
   "prlimit64", "process_mrelease", "pselect6", "pselect6_time64", "pwrite64", "pwritev",
   "pwritev2", "read", "readahead", "readlink", "readlinkat", "readv", "recv", "recvfrom",
   "recvmmsg", "recvmmsg_time64", "recvmsg", "remap_file_pages", "removexattr", "rename",
   "renameat", "renameat2", "restart_syscall", "rmdir", "rseq", "rt_sigaction", "rt_sigpending",
   "rt_sigprocmask", "rt_sigqueueinfo", "rt_sigreturn", "rt_sigsuspend", "rt_sigtimedwait",
   "rt_sigtimedwait_time64", "rt_tgsigqueueinfo", "sched_getaffinity", "sched_getattr",
   "sched_getparam", "sched_get_priority_max", "sched_get_priority_min", "sched_getscheduler",
   "sched_rr_get_interval", "sched_rr_get_interval_time64", "sched_setaffinity", "sched_setattr",
   "sched_setparam", "sched_setscheduler", "sched_yield", "seccomp", "select", "semctl", "semget",
   "semop", "semtimedop", "semtimedop_time64", "send", "sendfile", "sendfile64", "sendmmsg",
   "sendmsg", "sendto", "setfsgid", "setfsgid32", "setfsuid", "setfsuid32", "setgid", "setgid32",
   "setgroups", "setgroups32", "setitimer", "setpgid", "setpriority", "setregid", "setregid32",
   "setresgid", "setresgid32", "setresuid", "setresuid32", "setreuid", "setreuid32", "setrlimit",
   "set_robust_list", "setsid", "setsockopt", "set_thread_area", "set_tid_address", "setuid",
   "setuid32", "setxattr", "shmat", "shmctl", "shmdt", "shmget", "shutdown", "sigaltstack",
   "signalfd", "signalfd4", "sigprocmask", "sigreturn", "socketcall", "socketpair", "splice",
   "stat", "stat64", "statfs", "statfs64", "statx", "symlink", "symlinkat", "sync",
   "sync_file_range", "syncfs", "sysinfo", "tee", "tgkill", "time", "timer_create",
   "timer_delete", "timer_getoverrun", "timer_gettime", "timer_gettime64", "timer_settime",
   "timer_settime64", "timerfd_create", "timerfd_gettime", "timerfd_gettime64", "timerfd_settime",
   "timerfd_settime64", "times", "tkill", "truncate", "truncate64", "ugetrlimit", "umask",
   "uname", "unlink", "unlinkat", "utime", "utimensat", "utimensat_time64", "utimes", "vfork",
   "vmsplice", "wait4", "waitid", "waitpid", "write", "writev"]

/-- `default_profile.json`. -/
def defaultProfile : DockerProfile where
  defaultAction := .scmpActErrno
  defaultErrnoRet := some 1
  archMap := [
    ⟨.scmpArchX8664, some [.scmpArchX86, .scmpArchX32]⟩,
    ⟨.scmpArchAarch64, some [.scmpArchArm]⟩,
    ⟨.scmpArchMips64, some [.scmpArchMips, .scmpArchMips64n32]⟩,
    ⟨.scmpArchMips64n32, some [.scmpArchMips, .scmpArchMips64]⟩,
    ⟨.scmpArchMipsel64, some [.scmpArchMipsel, .scmpArchMipsel64n32]⟩,
    ⟨.scmpArchMipsel64n32, some [.scmpArchMipsel, .scmpArchMipsel64]⟩,
    ⟨.scmpArchS390x, some [.scmpArchS390]⟩,
    ⟨.scmpArchRiscv64, none⟩]
  syscalls := [
    { names := baseSyscalls
      action := .scmpActAllow },
    { names := ["process_vm_readv", "process_vm_writev", "ptrace"]
      action := .scmpActAllow, includes := { minKernel := some "4.8" } },
    { names := ["socket"]
      action := .scmpActAllow, args := [⟨0, 40, none, .scmpCmpNe⟩] },
    { names := ["personality"]
      action := .scmpActAllow, args := [⟨0, 0, none, .scmpCmpEq⟩] },
    { names := ["personality"]
      action := .scmpActAllow, args := [⟨0, 8, none, .scmpCmpEq⟩] },
    { names := ["personality"]
      action := .scmpActAllow, args := [⟨0, 131072, none, .scmpCmpEq⟩] },
    { names := ["personality"]
      action := .scmpActAllow, args := [⟨0, 131080, none, .scmpCmpEq⟩] },
    { names := ["personality"]
      action := .scmpActAllow, args := [⟨0, 4294967295, none, .scmpCmpEq⟩] },
    { names := ["sync_file_range2", "swapcontext"]
      action := .scmpActAllow, includes := { arches := ["ppc64le"] } },
    { names := ["arm_fadvise64_64", "arm_sync_file_range", "sync_file_range2", "breakpoint",
       "cacheflush", "set_tls"]
      action := .scmpActAllow, includes := { arches := ["arm", "arm64"] } },
    { names := ["arch_prctl"]
      action := .scmpActAllow, includes := { arches := ["amd64", "x32"] } },
    { names := ["modify_ldt"]
      action := .scmpActAllow, includes := { arches := ["amd64", "x32", "x86"] } },
    { names := ["s390_pci_mmio_read", "s390_pci_mmio_write", "s390_runtime_instr"]
      action := .scmpActAllow, includes := { arches := ["s390", "s390x"] } },
    { names := ["riscv_flush_icache"]
      action := .scmpActAllow, includes := { arches := ["riscv64"] } },
    { names := ["open_by_handle_at"]
      action := .scmpActAllow, includes := { caps := ["CAP_DAC_READ_SEARCH"] } },
    { names := ["bpf", "clone", "clone3", "fanotify_init", "fsconfig", "fsmount", "fsopen",
       "fspick", "lookup_dcookie", "mount", "mount_setattr", "move_mount", "open_tree",
       "perf_event_open", "quotactl", "quotactl_fd", "setdomainname", "sethostname", "setns",
       "syslog", "umount", "umount2", "unshare"]
      action := .scmpActAllow, includes := { caps := ["CAP_SYS_ADMIN"] } },
    { names := ["clone"]
      action := .scmpActAllow, args := [⟨0, 2114060288, none, .scmpCmpMaskedEq⟩]
      excludes := { caps := ["CAP_SYS_ADMIN"], arches := ["s390", "s390x"] } },
    { names := ["clone"]
      action := .scmpActAllow, args := [⟨1, 2114060288, none, .scmpCmpMaskedEq⟩]
      includes := { arches := ["s390", "s390x"] }, excludes := { caps := ["CAP_SYS_ADMIN"] } },
    { names := ["clone3"]
      action := .scmpActErrno, errnoRet := some 38, excludes := { caps := ["CAP_SYS_ADMIN"] } },
    { names := ["reboot"]
      action := .scmpActAllow, includes := { caps := ["CAP_SYS_BOOT"] } },
    { names := ["chroot"]
      action := .scmpActAllow, includes := { caps := ["CAP_SYS_CHROOT"] } },
    { names := ["delete_module", "init_module", "finit_module"]
      action := .scmpActAllow, includes := { caps := ["CAP_SYS_MODULE"] } },
    { names := ["acct"]
      action := .scmpActAllow, includes := { caps := ["CAP_SYS_PACCT"] } },
    { names := ["kcmp", "pidfd_getfd", "process_madvise", "process_vm_readv", "process_vm_writev",
       "ptrace"]
      action := .scmpActAllow, includes := { caps := ["CAP_SYS_PTRACE"] } },
    { names := ["iopl", "ioperm"]
      action := .scmpActAllow, includes := { caps := ["CAP_SYS_RAWIO"] } },
    { names := ["settimeofday", "stime", "clock_settime", "clock_settime64"]
      action := .scmpActAllow, includes := { caps := ["CAP_SYS_TIME"] } },
    { names := ["vhangup"]
      action := .scmpActAllow, includes := { caps := ["CAP_SYS_TTY_CONFIG"] } },
    { names := ["get_mempolicy", "mbind", "set_mempolicy", "set_mempolicy_home_node"]
      action := .scmpActAllow, includes := { caps := ["CAP_SYS_NICE"] } },
    { names := ["syslog"]
      action := .scmpActAllow, includes := { caps := ["CAP_SYSLOG"] } },
    { names := ["bpf"]
      action := .scmpActAllow, includes := { caps := ["CAP_BPF"] } },
    { names := ["perf_event_open"]
      action := .scmpActAllow, includes := { caps := ["CAP_PERFMON"] } }]

/-! ## Resolution -/

/-- `host_arch`, for a value of `std::env::consts::ARCH`. -/
def hostArch (arch : String) : Option (String × Arch) :=
  if arch = "x86_64" then some ("amd64", .scmpArchX8664)
  else if arch = "aarch64" then some ("arm64", .scmpArchAarch64)
  else none

/-- `cap_matches`. -/
def capMatches (effectiveCaps : Finset String) (names : List String) : Bool :=
  names.any (· ∈ effectiveCaps)

/-- `arch_matches`. -/
def archMatches (goarch : Option String) (names : List String) : Bool :=
  goarch.any fun a => names.any (· = a)

/-- Whether the loop of `runtime_default` keeps a block: excludes first, then includes; a minimal
    kernel counts as reached. -/
def SyscallBlock.kept (b : SyscallBlock) (goarch : Option String)
    (effectiveCaps : Finset String) : Bool :=
  if !b.excludes.arches.isEmpty && archMatches goarch b.excludes.arches then false
  else if !b.excludes.caps.isEmpty && capMatches effectiveCaps b.excludes.caps then false
  else if !b.includes.arches.isEmpty && !archMatches goarch b.includes.arches then false
  else if !b.includes.caps.isEmpty && !capMatches effectiveCaps b.includes.caps then false
  else b.excludes.minKernel.isNone

/-- The entry of a kept block. -/
def SyscallBlock.entry (b : SyscallBlock) : LinuxSyscall where
  names := b.names
  action := b.action
  errnoRet := b.errnoRet
  args := if b.args.isEmpty then none else some b.args

/-- The host's architecture and its sub-architectures, from the profile's map. -/
def DockerProfile.architectures (profile : DockerProfile) (host : Option (String × Arch)) :
    List Arch :=
  match host with
  | none => []
  | some (_, scmp) =>
    match profile.archMap.find? (·.architecture = scmp) with
    | none => []
    | some e => e.architecture :: e.subArchitectures.getD []

/-- A profile for one architecture and one set of capabilities. -/
def DockerProfile.resolve (profile : DockerProfile) (arch : String)
    (effectiveCaps : Finset String) : LinuxSeccomp where
  defaultAction := profile.defaultAction
  defaultErrnoRet := profile.defaultErrnoRet
  architectures := some (profile.architectures (hostArch arch))
  syscalls := some ((profile.syscalls.filter fun b =>
    b.kept ((hostArch arch).map (·.1)) effectiveCaps).map (·.entry))

/-- `runtime_default`.  The bundled profile is well formed. -/
def runtimeDefault (arch : String) (effectiveCaps : Finset String) : Except String LinuxSeccomp :=
  .ok (defaultProfile.resolve arch effectiveCaps)

/-! ## The blocks as gated rules -/

/-- The blocks of a profile, gated by the capabilities. -/
def DockerProfile.rules (profile : DockerProfile) (arch : String) :
    GatedRules (Finset String) SyscallBlock SystemCall where
  rules := profile.syscalls
  on caps b := b.kept ((hostArch arch).map (·.1)) caps = true
  allow b := b.action = .scmpActAllow
  applies b call := call.name ∈ b.names ∧ ArgsHold b.args call

theorem entry_matches (b : SyscallBlock) (call : SystemCall) :
    b.entry.Matches call ↔ call.name ∈ b.names ∧ ArgsHold b.args call := by
  simp only [LinuxSyscall.Matches, SyscallBlock.entry]
  split
  · rename_i hempty
    rw [List.isEmpty_iff.1 hempty, Option.getD_none]
  · rw [Option.getD_some]

/-- A resolved profile allows what the gated rules permit. -/
theorem allows_iff_permits (profile : DockerProfile) (arch : String) (caps : Finset String)
    (call : SystemCall) :
    (profile.resolve arch caps).Allows call ↔ (profile.rules arch).Permits caps call := by
  simp only [LinuxSeccomp.Allows, DockerProfile.resolve, Option.getD_some, List.mem_map,
    List.mem_filter]
  constructor
  · rintro ⟨⟨_, ⟨b, ⟨hb, hon⟩, rfl⟩, hallow, hmatch⟩, hdeny⟩
    refine ⟨⟨b, hb, hon, hallow, (entry_matches b call).1 hmatch⟩, ?_⟩
    intro d hd hon' happ
    by_contra hno
    exact hdeny ⟨_, ⟨d, ⟨hd, hon'⟩, rfl⟩, hno, (entry_matches d call).2 happ⟩
  · rintro ⟨⟨b, hb, hon, hallow, happ⟩, hdeny⟩
    refine ⟨⟨_, ⟨b, ⟨hb, hon⟩, rfl⟩, hallow, (entry_matches b call).2 happ⟩, ?_⟩
    rintro ⟨_, ⟨d, ⟨hd, hon'⟩, rfl⟩, hno, hmatch⟩
    exact hno (hdeny d hd hon' ((entry_matches d call).1 hmatch))

theorem capMatches_mono {caps caps' : Finset String} (hle : caps ≤ caps') {names : List String}
    (h : capMatches caps names = true) : capMatches caps' names = true := by
  simp only [capMatches, List.any_eq_true, decide_eq_true_eq] at h ⊢
  obtain ⟨c, hc, hmem⟩ := h
  exact ⟨c, hc, hle hmem⟩

/-- What `kept` asks of the capabilities, and the rest. -/
theorem kept_iff (b : SyscallBlock) (goarch : Option String) (caps : Finset String) :
    b.kept goarch caps = true ↔
      ((b.excludes.arches = [] ∨ archMatches goarch b.excludes.arches = false) ∧
        (b.includes.arches = [] ∨ archMatches goarch b.includes.arches = true) ∧
        b.excludes.minKernel = none) ∧
      (b.excludes.caps = [] ∨ capMatches caps b.excludes.caps = false) ∧
      (b.includes.caps = [] ∨ capMatches caps b.includes.caps = true) := by
  simp only [SyscallBlock.kept, Bool.if_false_left, Bool.and_eq_true, Bool.not_eq_true',
    decide_eq_false_iff_not, not_and_or, Bool.not_eq_false, Bool.not_eq_true, List.isEmpty_iff,
    Option.isNone_iff_eq_none]
  exact ⟨fun ⟨h₁, h₂, h₃, h₄, h₅⟩ => ⟨⟨h₁, h₃, h₅⟩, h₂, h₄⟩,
    fun ⟨⟨h₁, h₃, h₅⟩, h₂, h₄⟩ => ⟨h₁, h₂, h₃, h₄, h₅⟩⟩

/-- A deny block asks for no capability, and the calls of an allow block that a capability excludes
    are allowed without conditions to whoever holds that capability. -/
def DockerProfile.Balanced (profile : DockerProfile) : Prop :=
  (∀ b ∈ profile.syscalls, b.action ≠ .scmpActAllow → b.includes.caps = []) ∧
    ∀ b ∈ profile.syscalls, b.action = .scmpActAllow → ∀ c ∈ b.excludes.caps, ∀ n ∈ b.names,
      ∃ d ∈ profile.syscalls, c ∈ d.includes.caps ∧ n ∈ d.names ∧ d.action = .scmpActAllow ∧
        d.args = [] ∧ d.includes.arches = [] ∧ d.excludes = {}

instance (profile : DockerProfile) : Decidable profile.Balanced :=
  inferInstanceAs (Decidable (_ ∧ _))

theorem defaultProfile_balanced : defaultProfile.Balanced := by decide

theorem DockerProfile.Balanced.compensated {profile : DockerProfile} (h : profile.Balanced)
    (arch : String) : (profile.rules arch).Compensated where
  deny := by
    intro b hb hdeny caps caps' hle hon'
    have hon := (kept_iff b _ caps').1 hon'
    refine (kept_iff b _ caps).2 ⟨hon.1, ?_, Or.inl (h.1 b hb hdeny)⟩
    rcases hon.2.1 with hnil | hex
    · exact Or.inl hnil
    · refine Or.inr (Bool.eq_false_iff.2 fun hm => ?_)
      rw [capMatches_mono hle hm] at hex
      cases hex
  cover := by
    intro b hb hallow caps caps' hle hon hoff call happ
    have hon := (kept_iff b _ caps).1 hon
    -- only an excluded capability can switch the block off
    have hex : capMatches caps' b.excludes.caps = true := by
      by_contra hno
      refine hoff ((kept_iff b _ caps').2 ⟨hon.1, Or.inr (Bool.eq_false_iff.2 hno), ?_⟩)
      exact hon.2.2.imp_right (capMatches_mono hle)
    obtain ⟨c, hc, hmem⟩ := List.any_eq_true.1 hex
    obtain ⟨d, hd, hdc, hdn, hda, hargs, harches, hexcl⟩ := h.2 b hb hallow c hc _ happ.1
    have hcap : capMatches caps' d.includes.caps = true := List.any_eq_true.2 ⟨c, hdc, hmem⟩
    refine ⟨d, hd, (kept_iff d _ caps').2 ?_, hda, hdn, ?_⟩
    · rw [hexcl]
      exact ⟨⟨Or.inl rfl, Or.inl harches, rfl⟩, Or.inl rfl, Or.inr hcap⟩
    · rw [hargs]
      intro a ha
      cases ha

/-- More capabilities allow more, on every architecture. -/
theorem runtimeDefault_mono (arch : String) {caps caps' : Finset String} (hle : caps ⊆ caps')
    {call : SystemCall} (h : (defaultProfile.resolve arch caps).Allows call) :
    (defaultProfile.resolve arch caps').Allows call := by
  rw [allows_iff_permits] at h ⊢
  exact (defaultProfile_balanced.compensated arch).permits_mono hle call h

/-! ## The profile of a container -/

variable {Seccomp : Type}

/-- The seccomp profile of a spec. -/
def Spec.seccomp? (spec : Spec Seccomp) : Option Seccomp := spec.linux.bind (·.seccomp)

theorem mapLinux_seccomp {spec : Spec Seccomp} {f : Linux Seccomp → Linux Seccomp}
    (h : ∀ linux, (f linux).seccomp = linux.seccomp) :
    (spec.mapLinux f).seccomp? = spec.seccomp? := by
  unfold Spec.seccomp? Spec.mapLinux
  cases spec.linux with
  | none => rfl
  | some linux => exact h linux

theorem applySysctls_seccomp (spec : Spec Seccomp) (sysctls : OrdMap String String) :
    (applySysctls spec sysctls).seccomp? = spec.seccomp? := by
  unfold applySysctls
  split
  · rfl
  · exact mapLinux_seccomp fun _ => rfl

theorem applyDevices_seccomp {node : Node Seccomp} {spec spec' : Spec Seccomp}
    {devices : List DeviceRequest} (h : applyDevices node spec devices = .ok spec') :
    spec'.seccomp? = spec.seccomp? := by
  rcases applyDevices_cases h with rfl | ⟨nodes, allow, rfl⟩
  · rfl
  · exact mapLinux_seccomp fun _ => rfl

/-- The security step resolves the default profile for the capabilities it leaves. -/
theorem applySecurity_seccomp {node : Node Seccomp} {spec spec' : Spec Seccomp}
    {req : ContainerRequest} (hdefault : req.seccomp = .runtimeDefault)
    (h : applySecurity node spec req = .ok spec') {profile : Seccomp}
    (hprofile : spec'.seccomp? = some profile) :
    node.runtimeDefault (effectiveCapabilities spec') = .ok profile := by
  rcases applySecurity_cases h with ⟨hnone, rfl⟩ | ⟨linux, seccomp, -, hresolve, rfl⟩
  · rw [Spec.seccomp?, Spec.mapProcess, hnone] at hprofile
    cases hprofile
  · rw [hdefault, resolveSeccomp] at hresolve
    split at hresolve
    · rename_i resolved hrun
      cases hresolve
      cases hprofile
      exact hrun
    · cases hresolve

theorem seccomp_generateSpec {node : Node Seccomp} {image : ImageConfig}
    {req : ContainerRequest} {rootfs : String} {spec : Spec Seccomp}
    (hpriv : req.privileged = false) (hdefault : req.seccomp = .runtimeDefault)
    (h : generateSpec node image req rootfs = .ok spec) {profile : Seccomp}
    (hprofile : spec.seccomp? = some profile) :
    node.runtimeDefault (effectiveCapabilities spec) = .ok profile := by
  obtain ⟨secure, final, hsecurity, hdevices, rfl⟩ := generateSpec_confined hpriv h
  rw [applySysctls_seccomp, applyDevices_seccomp hdevices] at hprofile
  have hprocess : (applySysctls final req.sysctls).process = secure.process := by
    rw [applySysctls_process, applyDevices_process hdevices]
  have hresolved := applySecurity_seccomp hdefault hsecurity hprofile
  unfold effectiveCapabilities boundingSet at hresolved ⊢
  rw [hprocess]
  exact hresolved

/-- A non-privileged container's effective capabilities are the requested ones. -/
theorem effectiveCapabilities_generateSpec {node : Node Seccomp} {image : ImageConfig}
    {req : ContainerRequest} {rootfs : String} {spec : Spec Seccomp}
    (hpriv : req.privileged = false) (h : generateSpec node image req rootfs = .ok spec) :
    effectiveCapabilities spec =
      (requestedCaps req.addCapabilities req.dropCapabilities).image fun c => "CAP_" ++ c.name := by
  have hcaps := capSets_generateSpec hpriv h
  unfold processCaps at hcaps
  simp only [effectiveCapabilities, boundingSet, hcaps, buildCaps, Option.bind_some,
    Option.getD_some]

/-- More added and fewer dropped names are one way to more effective capabilities. -/
theorem effectiveCapabilities_mono {node node' : Node Seccomp} {image image' : ImageConfig}
    {req req' : ContainerRequest} {rootfs rootfs' : String} {spec spec' : Spec Seccomp}
    (hpriv : req.privileged = false) (hpriv' : req'.privileged = false)
    (h : generateSpec node image req rootfs = .ok spec)
    (h' : generateSpec node' image' req' rootfs' = .ok spec')
    (hle : requestedCaps req.addCapabilities req.dropCapabilities ⊆
      requestedCaps req'.addCapabilities req'.dropCapabilities) :
    effectiveCapabilities spec ⊆ effectiveCapabilities spec' := by
  rw [effectiveCapabilities_generateSpec hpriv h, effectiveCapabilities_generateSpec hpriv' h']
  exact Finset.image_subset_image hle

/-- A node whose default profile is the bundled one. -/
def Node.onArch (node : Node LinuxSeccomp) (arch : String) : Node LinuxSeccomp :=
  { node with runtimeDefault := Runtime.runtimeDefault arch }

/-- **RuntimeDefault is monotone.**  Of two non-privileged requests for the default profile, the one
    with more capabilities may make every call that the other one may make. -/
theorem runtime_default_monotone {node node' : Node LinuxSeccomp} {arch : String}
    {image image' : ImageConfig} {req req' : ContainerRequest} {rootfs rootfs' : String}
    {spec spec' : Spec LinuxSeccomp} {profile profile' : LinuxSeccomp}
    (hpriv : req.privileged = false) (hpriv' : req'.privileged = false)
    (hdefault : req.seccomp = .runtimeDefault) (hdefault' : req'.seccomp = .runtimeDefault)
    (h : generateSpec (node.onArch arch) image req rootfs = .ok spec)
    (h' : generateSpec (node'.onArch arch) image' req' rootfs' = .ok spec')
    (hprofile : spec.seccomp? = some profile) (hprofile' : spec'.seccomp? = some profile')
    (hcaps : effectiveCapabilities spec ⊆ effectiveCapabilities spec') (call : SystemCall)
    (hallows : profile.Allows call) : profile'.Allows call := by
  cases seccomp_generateSpec hpriv hdefault h hprofile
  cases seccomp_generateSpec hpriv' hdefault' h' hprofile'
  exact runtimeDefault_mono arch hcaps hallows

/-- A node without profile files and devices. -/
def seccompNode : Node LinuxSeccomp where
  baseSpec :=
    { process := none, root := none, hostname := none, mounts := none
      linux := some ⟨none, none, none, none, none, none, none, none, none, none, none⟩ }
  rootless _ _ := ⟨none, none, none, none, none⟩
  runtimeDefault _ := .error "not resolved"
  readProfile _ := .error "not found"
  parseProfile _ := .error "not a profile"
  statDevice path := .error (.builder ("device not found on node: " ++ path))

/-- A request for the default profile. -/
def confinedRequest (add : List String) : ContainerRequest :=
  { ContainerRequest.default with seccomp := .runtimeDefault, addCapabilities := add }

/-- `clone` without flags. -/
def plainClone : SystemCall := ⟨"clone", fun _ => 0⟩

/-- `CAP_SYS_ADMIN` switches the filtered `clone` off, and the call stays allowed. -/
theorem sys_admin_clone :
    ∃ spec profile, generateSpec (seccompNode.onArch "x86_64") plainImage
        (confinedRequest ["SYS_ADMIN"]) "/rootfs" = .ok spec ∧
      spec.seccomp? = some profile ∧ profile.Allows plainClone := by
  obtain ⟨spec, h, hprofile⟩ : ∃ spec, generateSpec (seccompNode.onArch "x86_64") plainImage
      (confinedRequest []) "/rootfs" = .ok spec ∧ spec.seccomp?.isSome := ⟨_, rfl, rfl⟩
  obtain ⟨spec', h', hprofile'⟩ : ∃ spec', generateSpec (seccompNode.onArch "x86_64") plainImage
      (confinedRequest ["SYS_ADMIN"]) "/rootfs" = .ok spec' ∧ spec'.seccomp?.isSome :=
    ⟨_, rfl, rfl⟩
  obtain ⟨profile, hprofile⟩ := Option.isSome_iff_exists.1 hprofile
  obtain ⟨profile', hprofile'⟩ := Option.isSome_iff_exists.1 hprofile'
  have hcaps : effectiveCapabilities spec ⊆ effectiveCapabilities spec' :=
    effectiveCapabilities_mono rfl rfl h h' (by decide)
  have hallows : profile.Allows plainClone := by
    cases seccomp_generateSpec rfl rfl h hprofile
    rw [effectiveCapabilities_generateSpec rfl h]
    decide
  exact ⟨spec', profile', h', hprofile', runtime_default_monotone rfl rfl rfl rfl h h' hprofile
    hprofile' hcaps plainClone hallows⟩

end ContainerdRs.Runtime

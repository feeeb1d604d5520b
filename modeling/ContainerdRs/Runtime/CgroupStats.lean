import ContainerdRs.Lib.Words
import ContainerdRs.Runtime.Bundle

/-!
# Samples of a cgroup (`crates/runtime/src/cgroup.rs`)

`read_stats` reads the files that the kernel keeps in the directory of a cgroup: `cpu.stat`,
`memory.stat` and `memory.events` have a line for each counter, `io.stat` one for each device, and
`memory.current` is a number.  What is missing or does not parse reads as 0.

* `parseFlatKeyed_flatKeyed`, `sumIoField_ioStat`, `readSingle_number` — each reader finds what the
  kernel has written.
* `read_stats_exact` — the sample of a cgroup.
-/

set_option autoImplicit false

namespace ContainerdRs.Runtime.Cgroup

open Words

/-! ## The readers -/

/-- `\n`. -/
def newline (c : Char) : Bool := decide (c = '\n')

/-- A line without the `\r` of a `\r\n`. -/
def stripCr (l : List Char) : List Char := if l.getLast? = some '\r' then l.dropLast else l

/-- `str::lines`: an empty rest is no line. -/
def lines (cs : List Char) : List (List Char) :=
  let parts := cs.splitOnP newline
  parts.dropLast.map stripCr ++ (parts.getLast?.toList.filter fun l => !l.isEmpty)

/-- `str::parse::<u64>`: an optional `+`, then digits, within 64 bits. -/
def parseU64 (cs : List Char) : Option Nat :=
  let digits := match cs with
    | '+' :: rest => rest
    | _ => cs
  match digitsValue digits with
  | some n => if n < 2 ^ 64 then some n else none
  | none => none

/-- `parse_flat_keyed`, the words of one line. -/
def keyed (key : List Char) : List (List Char) → Option Nat
  | k :: v :: _ => if k = key then parseU64 v else none
  | _ => none

/-- `parse_flat_keyed`. -/
def parseFlatKeyed (content key : List Char) : Option Nat :=
  (lines content).findSome? fun line => keyed key (words isWhitespace line)

/-- `str::strip_prefix`. -/
def stripPrefix (pre cs : List Char) : Option (List Char) :=
  if pre.isPrefixOf cs then some (cs.drop pre.length) else none

/-- `sum_io_field`, one token. -/
def fieldValue (field tok : List Char) : Option Nat :=
  ((stripPrefix field tok).bind (stripPrefix ['='])).bind parseU64

/-- `sum_io_field`; the sum of `u64`s wraps around. -/
def sumIoField (content field : List Char) : Nat :=
  (((lines content).flatMap (words isWhitespace)).filterMap (fieldValue field)).sum % 2 ^ 64

/-- The files of a directory, as far as they are there and text. -/
abbrev Dir := String → Option (List Char)

/-- `read_single`. -/
def readSingle (dir : Dir) (file : String) : Nat :=
  ((dir file).bind fun s => parseU64 (trim s)).getD 0

/-- `read_flat_keyed`. -/
def readFlatKeyed (dir : Dir) (file key : String) : Nat :=
  ((dir file).bind fun s => parseFlatKeyed s key.toList).getD 0

/-- `CgroupStats`. -/
structure CgroupStats where
  cpuUsageNanos : Nat
  memoryCurrentBytes : Nat
  memoryAnonBytes : Nat
  ioRbytes : Nat
  ioWbytes : Nat
  oomKill : Nat
  deriving DecidableEq, Repr

/-- `read_stats`. -/
def readStats (dir : Dir) : CgroupStats :=
  let ioStat := (dir "io.stat").getD []
  { cpuUsageNanos := min (readFlatKeyed dir "cpu.stat" "usage_usec" * 1000) (2 ^ 64 - 1)
    memoryCurrentBytes := readSingle dir "memory.current"
    memoryAnonBytes := readFlatKeyed dir "memory.stat" "anon"
    ioRbytes := sumIoField ioStat "rbytes".toList
    ioWbytes := sumIoField ioStat "wbytes".toList
    oomKill := readFlatKeyed dir "memory.events" "oom_kill" }

/-- `was_oom_killed`. -/
def wasOomKilled (dir : Dir) : Bool :=
  decide (0 < readFlatKeyed dir "memory.events" "oom_kill")

/-! ## What the kernel writes -/

/-- The name of a counter or a device. -/
structure Name where
  text : List Char
  word : IsWord isWhitespace text
  noEq : '=' ∉ text

/-- A number in decimal. -/
def decimal (n : UInt64) : List Char := Nat.toDigits 10 n.toNat

/-- A file of lines of words. -/
def table (rows : List (List (List Char))) : List Char := ended '\n' (rows.map (join ' '))

/-- A file with a line for each counter. -/
def flatKeyed (counters : List (Name × UInt64)) : List Char :=
  table (counters.map fun c => [c.1.text, decimal c.2])

/-- A device: its number, and its counters. -/
def deviceWords (d : Name × List (Name × UInt64)) : List (List Char) :=
  d.1.text :: d.2.map fun c => c.1.text ++ '=' :: decimal c.2

/-- `io.stat`. -/
def ioStat (devices : List (Name × List (Name × UInt64))) : List Char :=
  table (devices.map deviceWords)

/-- The counters of a cgroup, each file with them if it is there. -/
structure Counters where
  cpu : Option (List (Name × UInt64))
  memory : Option UInt64
  memoryStat : Option (List (Name × UInt64))
  memoryEvents : Option (List (Name × UInt64))
  io : Option (List (Name × List (Name × UInt64)))

/-- Its directory. -/
def Counters.dir (g : Counters) : Dir
  | "cpu.stat" => g.cpu.map flatKeyed
  | "memory.current" => g.memory.map fun n => decimal n ++ ['\n']
  | "memory.stat" => g.memoryStat.map flatKeyed
  | "memory.events" => g.memoryEvents.map flatKeyed
  | "io.stat" => g.io.map ioStat
  | _ => none

/-- The counter of a name, the first one if there are more, or 0. -/
def counter (counters : Option (List (Name × UInt64))) (key : String) : Nat :=
  match (counters.getD []).find? fun c => c.1.text = key.toList with
  | some c => c.2.toNat
  | none => 0

/-- The sum of a counter over the devices. -/
def total (devices : Option (List (Name × List (Name × UInt64)))) (field : String) : Nat :=
  ((devices.getD []).map fun d =>
    (d.2.map fun c => if c.1.text = field.toList then c.2.toNat else 0).sum).sum

/-! ## Decimal numbers -/

theorem isWhitespace_of_isDigit {c : Char} (h : c.isDigit = true) : isWhitespace c = false := by
  simp only [Char.isDigit, Bool.and_eq_true, decide_eq_true_eq, ge_iff_le, UInt32.le_iff_toNat_le]
    at h
  have h1 : 48 ≤ c.toNat := h.1
  have h2 : c.toNat ≤ 57 := h.2
  simp only [isWhitespace, Bool.or_eq_false_iff, decide_eq_false_iff_not]
  omega

theorem decimal_word (n : UInt64) : IsWord isWhitespace (decimal n) where
  ne_nil := Nat.toDigits_ne_nil
  clean c hc := isWhitespace_of_isDigit (Nat.isDigit_of_mem_toDigits (by decide) (by decide) hc)

theorem parseU64_decimal (n : UInt64) : parseU64 (decimal n) = some n.toNat := by
  have hdigit : ∀ c ∈ decimal n, c.isDigit = true := fun c hc =>
    Nat.isDigit_of_mem_toDigits (by decide) (by decide) hc
  have hvalue : digitsValue (decimal n) = some n.toNat := by
    unfold digitsValue
    split
    · rename_i hnil
      exact absurd hnil Nat.toDigits_ne_nil
    · rw [if_pos]
      · rw [Option.some.injEq]
        exact (Nat.ofDigitChars_eq_foldl.symm).trans Nat.ofDigitChars_ten_toDigits
      · rw [List.all_eq_true]
        intro c hc
        have h := hdigit c hc
        simp only [Char.isDigit, Bool.and_eq_true, decide_eq_true_eq, ge_iff_le] at h
        rw [decide_eq_true_eq]
        exact h
  have hlt : n.toNat < 2 ^ 64 := n.toNat_lt
  unfold parseU64
  split
  · rename_i rest hplus
    have h := hdigit '+' (by rw [hplus]; exact List.mem_cons_self)
    cases h
  · simp only [hvalue]
    rw [if_pos hlt]

/-! ## Lines of words -/

theorem isWhitespace_space : isWhitespace ' ' = true := by decide

/-- A line of words. -/
theorem clean_join : ∀ {ws : List (List Char)}, (∀ w ∈ ws, IsWord isWhitespace w) →
    ∀ c ∈ join ' ' ws, isWhitespace c = false ∨ c = ' '
  | [], _, c, hc => by cases hc
  | [w], h, c, hc => .inl ((h w List.mem_cons_self).clean c hc)
  | w :: w' :: ws, h, c, hc => by
    rw [join, List.mem_append, List.mem_cons] at hc
    · rcases hc with hc | rfl | hc
      · exact .inl ((h w List.mem_cons_self).clean c hc)
      · exact .inr rfl
      · exact clean_join (fun v hv => h v (List.mem_cons_of_mem w hv)) c hc
    · exact List.cons_ne_nil _ _

theorem lines_table {rows : List (List (List Char))}
    (h : ∀ ws ∈ rows, ∀ w ∈ ws, IsWord isWhitespace w) :
    lines (table rows) = rows.map (join ' ') := by
  have hclean : ∀ l ∈ rows.map (join ' '), ∀ c ∈ l, isWhitespace c = false ∨ c = ' ' := by
    intro l hl c hc
    obtain ⟨ws, hws, rfl⟩ := List.mem_map.1 hl
    exact clean_join (h ws hws) c hc
  have hsplit : (ended '\n' (rows.map (join ' '))).splitOnP newline =
      rows.map (join ' ') ++ [[]] := by
    refine ended_splitOnP (by decide) fun l hl c hc => ?_
    rcases hclean l hl c hc with hspace | rfl
    · rw [newline, decide_eq_false_iff_not]
      rintro rfl
      cases hspace
    · rfl
  have hstrip : ∀ l ∈ rows.map (join ' '), stripCr l = l := by
    intro l hl
    rw [stripCr, if_neg]
    intro hlast
    rcases hclean l hl '\r' (List.mem_of_getLast? hlast) with hspace | hspace
    · cases hspace
    · cases hspace
  rw [lines, table, hsplit]
  simp only [List.dropLast_concat, List.getLast?_concat]
  rw [List.map_congr_left hstrip, List.map_id']
  exact List.append_nil _

/-- The words of the file are those that were written. -/
theorem words_table {rows : List (List (List Char))}
    (h : ∀ ws ∈ rows, ∀ w ∈ ws, IsWord isWhitespace w) :
    (lines (table rows)).map (words isWhitespace) = rows := by
  rw [lines_table h, List.map_map]
  have hid : ∀ ws ∈ rows, (words isWhitespace ∘ join ' ') ws = ws := fun ws hws =>
    words_join isWhitespace_space (h ws hws)
  rw [List.map_congr_left hid, List.map_id']

/-! ## What the readers find -/

/-- **A counter** is found under its whole name. -/
theorem parseFlatKeyed_flatKeyed (counters : List (Name × UInt64)) (key : List Char) :
    parseFlatKeyed (flatKeyed counters) key =
      (counters.find? fun c => c.1.text = key).map fun c => c.2.toNat := by
  have hwords : ∀ ws ∈ counters.map (fun c => [c.1.text, decimal c.2]),
      ∀ w ∈ ws, IsWord isWhitespace w := by
    intro ws hws w hw
    obtain ⟨c, -, rfl⟩ := List.mem_map.1 hws
    rcases List.mem_cons.1 hw with rfl | hw
    · exact c.1.word
    · rw [List.mem_singleton.1 hw]
      exact decimal_word c.2
  have hrows : parseFlatKeyed (flatKeyed counters) key =
      ((lines (flatKeyed counters)).map (words isWhitespace)).findSome? (keyed key) := by
    rw [List.findSome?_map]
    rfl
  rw [hrows, flatKeyed, words_table hwords]
  clear hrows hwords
  induction counters with
  | nil => rfl
  | cons c counters ih =>
    rw [List.map_cons, List.findSome?_cons, List.find?_cons]
    by_cases hkey : c.1.text = key
    · simp [keyed, hkey, parseU64_decimal]
    · simpa [keyed, hkey] using ih

/-- A token is `field=value`. -/
theorem stripped_iff {field tok v : List Char} :
    (stripPrefix field tok).bind (stripPrefix ['=']) = some v ↔ tok = field ++ '=' :: v := by
  have hstrip : ∀ {pre cs rest : List Char}, stripPrefix pre cs = some rest ↔
      cs = pre ++ rest := by
    intro pre cs rest
    rw [stripPrefix, Option.ite_none_right_eq_some, List.isPrefixOf_iff_prefix, Option.some.injEq]
    constructor
    · rintro ⟨⟨r, rfl⟩, rfl⟩
      rw [List.drop_left]
    · rintro rfl
      exact ⟨List.prefix_append pre rest, List.drop_left⟩
  rw [Option.bind_eq_some_iff]
  constructor
  · rintro ⟨rest, hrest, hv⟩
    rw [hstrip.1 hrest, hstrip.1 hv, List.singleton_append]
  · rintro rfl
    exact ⟨'=' :: v, hstrip.2 rfl, hstrip.2 rfl⟩

/-- A token without `=` has no value. -/
theorem fieldValue_plain {field tok : List Char} (h : '=' ∉ tok) : fieldValue field tok = none := by
  rw [fieldValue, Option.bind_eq_none_iff]
  intro v hv
  rw [stripped_iff.1 hv] at h
  exact absurd (by simp) h

theorem fieldValue_counter {field : List Char} (hfield : '=' ∉ field) (c : Name × UInt64) :
    fieldValue field (c.1.text ++ '=' :: decimal c.2) =
      if c.1.text = field then some c.2.toNat else none := by
  by_cases hkey : c.1.text = field
  · have hv : (stripPrefix field (c.1.text ++ '=' :: decimal c.2)).bind (stripPrefix ['=']) =
        some (decimal c.2) := stripped_iff.2 (by rw [hkey])
    rw [if_pos hkey, fieldValue, hv, Option.bind_some, parseU64_decimal]
  · rw [if_neg hkey, fieldValue, Option.bind_eq_none_iff]
    intro v hv
    have hcut := congrArg (Separators.cut '=') (stripped_iff.1 hv)
    rw [Separators.cut_append '=' _ _ c.1.noEq, Separators.cut_append '=' _ _ hfield,
      Option.some.injEq, Prod.mk.injEq] at hcut
    exact absurd hcut.1 hkey

/-- **A field** is added up over the devices, and nothing else is. -/
theorem sumIoField_ioStat (devices : List (Name × List (Name × UInt64))) {field : List Char}
    (hfield : '=' ∉ field) :
    sumIoField (ioStat devices) field = ((devices.map fun d =>
      (d.2.map fun c => if c.1.text = field then c.2.toNat else 0).sum).sum) % 2 ^ 64 := by
  have hwords : ∀ ws ∈ devices.map deviceWords, ∀ w ∈ ws, IsWord isWhitespace w := by
    intro ws hws w hw
    obtain ⟨d, -, rfl⟩ := List.mem_map.1 hws
    rcases List.mem_cons.1 hw with rfl | hw
    · exact d.1.word
    · obtain ⟨c, -, rfl⟩ := List.mem_map.1 hw
      refine ⟨by simp, fun x hx => ?_⟩
      rcases List.mem_append.1 hx with hx | hx
      · exact c.1.word.clean x hx
      · rcases List.mem_cons.1 hx with rfl | hx
        · decide
        · exact (decimal_word c.2).clean x hx
  have htokens : (lines (ioStat devices)).flatMap (words isWhitespace) =
      (devices.map deviceWords).flatten := by
    rw [List.flatMap_def, ioStat, words_table hwords]
  rw [sumIoField, htokens]
  congr 1
  clear htokens hwords
  induction devices with
  | nil => rfl
  | cons d devices ih =>
    have hcounters : ∀ cs : List (Name × UInt64),
        ((cs.map fun c => c.1.text ++ '=' :: decimal c.2).filterMap (fieldValue field)).sum =
          (cs.map fun c => if c.1.text = field then c.2.toNat else 0).sum := by
      intro cs
      induction cs with
      | nil => rfl
      | cons c cs ih =>
        rw [List.map_cons, List.filterMap_cons, fieldValue_counter hfield, List.map_cons,
          List.sum_cons, ← ih]
        by_cases hkey : c.1.text = field
        · simp [hkey]
        · simp [hkey]
    rw [List.map_cons, List.flatten_cons, List.filterMap_append, List.sum_append, ih, deviceWords,
      List.filterMap_cons_none (fieldValue_plain d.1.noEq), hcounters, List.map_cons,
      List.sum_cons]

theorem trim_line (n : UInt64) : trim (decimal n ++ ['\n']) = decimal n := by
  have hclean := (decimal_word n).clean
  have hkeep : ∀ l : List Char, (∀ c ∈ l, isWhitespace c = false) →
      l.dropWhile isWhitespace = l := by
    intro l hl
    cases l with
    | nil => rfl
    | cons c l => rw [List.dropWhile_cons_of_neg (by simp [hl c List.mem_cons_self])]
  have hfront : (decimal n ++ ['\n']).dropWhile isWhitespace = decimal n ++ ['\n'] := by
    obtain ⟨c, l, hl⟩ := List.exists_cons_of_ne_nil (decimal_word n).ne_nil
    rw [hl] at hclean ⊢
    rw [List.cons_append, List.dropWhile_cons_of_neg (by simp [hclean c List.mem_cons_self])]
  have hback : (decimal n ++ ['\n']).reverse.dropWhile isWhitespace = (decimal n).reverse := by
    rw [List.reverse_append, List.reverse_singleton, List.singleton_append,
      List.dropWhile_cons_of_pos (by decide)]
    exact hkeep _ fun c hc => hclean c (List.mem_reverse.1 hc)
  rw [trim, hfront, hback, List.reverse_reverse]

/-! ## The sample -/

theorem readFlatKeyed_counter {dir : Dir} {file : String}
    {counters : Option (List (Name × UInt64))} (hfile : dir file = counters.map flatKeyed)
    (key : String) : readFlatKeyed dir file key = counter counters key := by
  rw [readFlatKeyed, hfile, counter]
  cases counters with
  | none => rfl
  | some counters =>
    rw [Option.map_some, Option.bind_some, parseFlatKeyed_flatKeyed, Option.getD_some]
    cases counters.find? fun c => c.1.text = key.toList <;> rfl

theorem sumIoField_total (g : Counters) {field : String} (hfield : '=' ∉ field.toList) :
    sumIoField ((g.dir "io.stat").getD []) field.toList = total g.io field % 2 ^ 64 := by
  rw [show g.dir "io.stat" = g.io.map ioStat from rfl, total]
  cases g.io with
  | none => rfl
  | some devices => exact sumIoField_ioStat devices hfield

theorem readSingle_memory (g : Counters) :
    readSingle g.dir "memory.current" = (g.memory.map UInt64.toNat).getD 0 := by
  rw [readSingle, show g.dir "memory.current" = g.memory.map _ from rfl]
  cases g.memory with
  | none => rfl
  | some n =>
    rw [Option.map_some, Option.bind_some, trim_line, parseU64_decimal]
    rfl

/-- **The sample of a cgroup.**  Whatever counters and devices there are, in whatever order and
    with whatever other names, and whichever files are missing, `read_stats` gives the counters
    that it is about: the CPU time in nanoseconds, capped, the sums over the devices in `u64`, and
    0 for what is not there; and `was_oom_killed` says whether the kernel has counted a kill. -/
theorem read_stats_exact (g : Counters) :
    readStats g.dir =
      { cpuUsageNanos := min (counter g.cpu "usage_usec" * 1000) (2 ^ 64 - 1)
        memoryCurrentBytes := (g.memory.map UInt64.toNat).getD 0
        memoryAnonBytes := counter g.memoryStat "anon"
        ioRbytes := total g.io "rbytes" % 2 ^ 64
        ioWbytes := total g.io "wbytes" % 2 ^ 64
        oomKill := counter g.memoryEvents "oom_kill" } ∧
      (wasOomKilled g.dir = true ↔ 0 < counter g.memoryEvents "oom_kill") := by
  have hcpu : readFlatKeyed g.dir "cpu.stat" "usage_usec" = counter g.cpu "usage_usec" :=
    readFlatKeyed_counter rfl "usage_usec"
  have hanon : readFlatKeyed g.dir "memory.stat" "anon" = counter g.memoryStat "anon" :=
    readFlatKeyed_counter rfl "anon"
  have hevents : readFlatKeyed g.dir "memory.events" "oom_kill" =
      counter g.memoryEvents "oom_kill" :=
    readFlatKeyed_counter rfl "oom_kill"
  constructor
  · rw [readStats, hcpu, hanon, hevents, readSingle_memory, sumIoField_total g (by decide),
      sumIoField_total g (by decide)]
  · rw [wasOomKilled, hevents, decide_eq_true_eq]

end ContainerdRs.Runtime.Cgroup

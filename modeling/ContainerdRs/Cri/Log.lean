import Mathlib.Data.List.Chain
import ContainerdRs.CoreTypes

/-!
# Container logs (`cri_log_line`, `pump_stream`)

The pump reads a container's output stream in chunks and writes each chunk to the log file as
CRI lines `<time> <stream> <P|F> <content>`.  `cri_log_line` keeps no state between chunks.
`decodeLog` reads such a file back as the kubelet does: an `F` line gives its content and a
newline, a `P` line its content alone.

* `pumpStream_log` — the pump appends `criLogLine` of every chunk up to the end of the stream.
* `decodeLog_criLog` — what comes back is each chunk without its blank lines.
* `decodeLog_criLog_flatten` — so, when no read ends just before the newline of a non-empty
  line, the whole stream without its blank lines.
-/

set_option autoImplicit false

namespace ContainerdRs.Cri

open Separators

/-- `b'\n'`. -/
abbrev newline : UInt8 := 10

/-- `b' '`. -/
abbrev space : UInt8 := 32

/-- `humantime::format_rfc3339_nanos`: a text without spaces and newlines. -/
structure Timestamp where
  text : Bytes
  plain : space ∉ text ∧ newline ∉ text

/-- The two output streams. -/
inductive Stream where
  | stdout
  | stderr
  deriving DecidableEq, Repr

/-- `stream.as_bytes()`. -/
def Stream.asBytes : Stream → Bytes
  | .stdout => [115, 116, 100, 111, 117, 116]
  | .stderr => [115, 116, 100, 101, 114, 114]

/-- `F` (the line ended with a newline) or `P` (it did not). -/
inductive LogTag where
  | full
  | part
  deriving DecidableEq, Repr

/-- `b"F"`, `b"P"`. -/
def LogTag.asBytes : LogTag → Bytes
  | .full => [70]
  | .part => [80]

/-- One CRI log line. -/
def logEntry (ts : Timestamp) (stream : Stream) (tag : LogTag) (line : Bytes) : Bytes :=
  ts.text ++ space :: (stream.asBytes ++ space :: (tag.asBytes ++ space :: (line ++ [newline])))

/-- `cri_log_line`: the loop over the rest of the chunk. -/
def criLogLine (ts : Timestamp) (stream : Stream) (data : Bytes) : Bytes :=
  if data = [] then []
  else
    match _h : cut newline data with
    | some (line, next) =>
      -- truly-empty full lines (a lone newline) are skipped
      if line = [] then criLogLine ts stream next
      else logEntry ts stream .full line ++ criLogLine ts stream next
    | none => logEntry ts stream .part data
  termination_by data.length
  decreasing_by all_goals exact length_lt_of_cut _h

/-- One `reader.read`: the clock and the bytes read, or an error. -/
structure Read where
  ts : Timestamp
  result : Except Unit Bytes

/-- `pump_stream`: the log file (`None` when it could not be created) and the frames sent to
    the live bus, after the given reads.  Writes to the file succeed. -/
def pumpStream (stream : Stream) : List Read → Option Bytes → List Bytes → Option Bytes × List Bytes
  | [], log, live => (log, live)
  | r :: rs, log, live =>
    match r.result with
    | .error _ => (log, live)
    | .ok chunk =>
      if chunk = [] then (log, live)
      else pumpStream stream rs (log.map (· ++ criLogLine r.ts stream chunk)) (live ++ [chunk])

/-- The log of a sequence of chunks. -/
def criLog (stream : Stream) (chunks : List (Timestamp × Bytes)) : Bytes :=
  chunks.flatMap fun c => criLogLine c.1 stream c.2

/-- The chunks a pump gets before end-of-file or an error. -/
def chunksRead : List Read → List (Timestamp × Bytes)
  | [] => []
  | r :: rs =>
    match r.result with
    | .error _ => []
    | .ok chunk => if chunk = [] then [] else (r.ts, chunk) :: chunksRead rs

/-- The pump writes the log of the chunks it reads, and sends each of them to the live bus. -/
theorem pumpStream_log (stream : Stream) : ∀ (rs : List Read) (log : Bytes) (live : List Bytes),
    pumpStream stream rs (some log) live =
      (some (log ++ criLog stream (chunksRead rs)), live ++ (chunksRead rs).map Prod.snd)
  | [], log, live => by simp [pumpStream, chunksRead, criLog]
  | ⟨ts, .error e⟩ :: rs, log, live => by simp [pumpStream, chunksRead, criLog]
  | ⟨ts, .ok chunk⟩ :: rs, log, live => by
    by_cases hc : chunk = []
    · simp [pumpStream, chunksRead, criLog, hc]
    · simp only [pumpStream, chunksRead, hc, if_false, Option.map_some]
      rw [pumpStream_log stream rs]
      simp [criLog]

/-! ## The kubelet's reader -/

/-- Content of one line: what stands behind time, stream and tag. -/
def decodeEntry (line : Bytes) : Option Bytes :=
  match cut space line with
  | none => none
  | some (_, rest) =>
    match cut space rest with
    | none => none
    | some (stream, rest) =>
      if stream = Stream.stdout.asBytes ∨ stream = Stream.stderr.asBytes then
        match cut space rest with
        | none => none
        | some (tag, content) =>
          if tag = LogTag.full.asBytes then some (content ++ [newline])
          else if tag = LogTag.part.asBytes then some content
          else none
      else none

/-- The stream a log file stands for; `none` for a malformed file. -/
def decodeLog (log : Bytes) : Option Bytes :=
  if log = [] then some []
  else
    match _h : cut newline log with
    | none => none
    | some (line, rest) =>
      match decodeEntry line, decodeLog rest with
      | some a, some b => some (a ++ b)
      | _, _ => none
  termination_by log.length
  decreasing_by exact length_lt_of_cut _h

/-- What a line stands for. -/
def LogTag.content : LogTag → Bytes → Bytes
  | .full, line => line ++ [newline]
  | .part, line => line

theorem decodeEntry_line (ts : Timestamp) (stream : Stream) (tag : LogTag) (line : Bytes) :
    decodeEntry (ts.text ++ space :: (stream.asBytes ++ space :: (tag.asBytes ++ space :: line))) =
      some (tag.content line) := by
  have hs : space ∉ stream.asBytes := by cases stream <;> decide
  have ht : space ∉ tag.asBytes := by cases tag <;> decide
  unfold decodeEntry
  rw [cut_append _ _ _ ts.plain.1]
  dsimp only
  rw [cut_append _ _ _ hs]
  dsimp only
  rw [cut_append _ _ _ ht]
  cases stream <;> cases tag <;> rfl

/-- One line at the head of a log. -/
theorem decodeLog_logEntry (ts : Timestamp) (stream : Stream) (tag : LogTag) {line : Bytes}
    (hl : newline ∉ line) (rest : Bytes) :
    decodeLog (logEntry ts stream tag line ++ rest) =
      (decodeLog rest).map (tag.content line ++ ·) := by
  have hs : newline ∉ stream.asBytes := by cases stream <;> decide
  have ht : newline ∉ tag.asBytes := by cases tag <;> decide
  have hsplit : logEntry ts stream tag line ++ rest =
      (ts.text ++ space :: (stream.asBytes ++ space :: (tag.asBytes ++ space :: line))) ++
        newline :: rest := by
    simp [logEntry]
  have hno : newline ∉
      ts.text ++ space :: (stream.asBytes ++ space :: (tag.asBytes ++ space :: line)) := by
    have hns : newline ≠ space := by decide
    simp [ts.plain.2, hs, ht, hl, hns]
  rw [hsplit, decodeLog]
  rw [if_neg (by simp), cut_append _ _ _ hno]
  dsimp only
  rw [decodeEntry_line]
  cases decodeLog rest <;> rfl

/-! ## Blank lines -/

/-- The bytes without blank lines: a newline is dropped when the byte before it is a newline
    too, or when there is none and `atStart` says that a line starts here. -/
def dropBlank : Bool → Bytes → Bytes
  | _, [] => []
  | atStart, b :: bs =>
    if b = newline ∧ atStart = true then dropBlank true bs
    else b :: dropBlank (b == newline) bs

/-- A stream without its blank lines. -/
def withoutBlankLines (data : Bytes) : Bytes := dropBlank true data

theorem dropBlank_line : ∀ {line : Bytes}, newline ∉ line → ∀ (atStart : Bool) (rest : Bytes),
    dropBlank atStart (line ++ rest) = line ++ dropBlank (line.isEmpty && atStart) rest
  | [], _, atStart, rest => by simp
  | b :: line, h, atStart, rest => by
    have hb : b ≠ newline := fun e => h (e ▸ List.mem_cons_self)
    have hl : newline ∉ line := fun h' => h (List.mem_cons_of_mem _ h')
    have ih := dropBlank_line hl (b == newline) rest
    have hb' : (b == newline) = false := by simp [hb]
    rw [hb', Bool.and_false] at ih
    simp [dropBlank, hb, hb', ih]

/-- Reading back one chunk. -/
theorem decodeLog_criLogLine (ts : Timestamp) (stream : Stream) (data rest : Bytes) :
    decodeLog (criLogLine ts stream data ++ rest) =
      (decodeLog rest).map (withoutBlankLines data ++ ·) := by
  fun_induction criLogLine ts stream data with
  | case1 => simp [withoutBlankLines, dropBlank]
  | case2 data hne next hcut ih =>
    obtain ⟨rfl, -⟩ := cut_eq_some hcut
    rw [ih]
    simp [withoutBlankLines, dropBlank]
  | case3 data hne line next hcut hline ih =>
    obtain ⟨rfl, hno⟩ := cut_eq_some hcut
    rw [List.append_assoc, decodeLog_logEntry ts stream .full hno, ih, Option.map_map]
    have hblank : withoutBlankLines (line ++ newline :: next) =
        line ++ newline :: withoutBlankLines next := by
      unfold withoutBlankLines
      rw [dropBlank_line hno]
      simp [dropBlank, hline]
    rw [hblank]
    congr 1
    funext tail
    simp [LogTag.content]
  | case4 data hne hcut =>
    have hno := cut_eq_none.1 hcut
    rw [decodeLog_logEntry ts stream .part hno]
    have hblank : withoutBlankLines data = data := by
      have := dropBlank_line hno true []
      simpa [withoutBlankLines, dropBlank] using this
    rw [hblank]
    rfl

/-- Reading back a log gives each chunk without its blank lines. -/
theorem decodeLog_criLog (stream : Stream) : ∀ chunks : List (Timestamp × Bytes),
    decodeLog (criLog stream chunks) = some (chunks.flatMap fun c => withoutBlankLines c.2)
  | [] => by simp [criLog, decodeLog]
  | c :: chunks => by
    have ih := decodeLog_criLog stream chunks
    simp only [criLog, List.flatMap_cons] at ih ⊢
    rw [decodeLog_criLogLine, ih]
    rfl

/-! ## Chunk boundaries -/

/-- No chunk starts with a newline unless the chunk before it ends with one: no read ends just
    before the newline of a non-empty line. -/
def KeepsNewlines (chunks : List Bytes) : Prop :=
  chunks.IsChain fun c d => d.head? = some newline → c.getLast? = some newline

theorem dropBlank_append : ∀ (c : Bytes) (atStart : Bool) (rest : Bytes),
    dropBlank atStart (c ++ rest) =
      dropBlank atStart c ++
        dropBlank ((c.getLast?.map (· == newline)).getD atStart) rest
  | [], atStart, rest => by simp [dropBlank]
  | b :: c, atStart, rest => by
    have ih := dropBlank_append c (b == newline) rest
    have hlast : ((b :: c).getLast?.map (· == newline)).getD atStart =
        (c.getLast?.map (· == newline)).getD (b == newline) := by
      cases c with
      | nil => simp
      | cons x xs => simp [List.getLast?_cons_cons]; cases hx : (x :: xs).getLast? <;> simp_all
    rw [hlast]
    by_cases hb : b = newline ∧ atStart = true
    · have hb' : (b == newline) = true := by simp [hb.1]
      rw [hb'] at ih
      simp [dropBlank, hb, ih]
    · simp only [dropBlank, List.cons_append, hb, if_false]
      rw [ih]

/-- Away from a newline it does not matter whether a line starts. -/
theorem dropBlank_of_head (atStart : Bool) {rest : Bytes}
    (h : rest.head? = some newline → atStart = true) :
    dropBlank atStart rest = dropBlank true rest := by
  cases rest with
  | nil => rfl
  | cons b bs =>
    by_cases hb : b = newline
    · rw [h (by simp [hb])]
    · simp [dropBlank, hb]

theorem flatMap_withoutBlankLines : ∀ chunks : List Bytes, (∀ c ∈ chunks, c ≠ []) →
    KeepsNewlines chunks → chunks.flatMap withoutBlankLines = withoutBlankLines chunks.flatten
  | [], _, _ => rfl
  | [c], _, _ => by simp
  | c :: d :: chunks, hne, hk => by
    obtain ⟨hcd, hk⟩ := List.isChain_cons_cons.1 hk
    have ih := flatMap_withoutBlankLines (d :: chunks)
      (fun e he => hne e (List.mem_cons_of_mem _ he)) hk
    have hd := hne d (List.mem_cons_of_mem _ List.mem_cons_self)
    have hhead : (d :: chunks).flatten.head? = some newline →
        ((c.getLast?.map (· == newline)).getD true) = true := by
      intro hh
      have hd' : d.head? = some newline := by
        cases d with
        | nil => exact absurd rfl hd
        | cons x xs => simpa using hh
      simp [hcd hd']
    have hflat : (c :: d :: chunks).flatten = c ++ (d :: chunks).flatten := List.flatten_cons
    rw [List.flatMap_cons, ih, hflat]
    unfold withoutBlankLines
    rw [dropBlank_append c, dropBlank_of_head _ hhead]

/-- **Log round trip.**  For every stream and every way the reads split it into non-empty
    chunks, none of which ends just before the newline of a non-empty line, the kubelet reads
    back the stream without its blank lines. -/
theorem decodeLog_criLog_flatten (stream : Stream) (chunks : List (Timestamp × Bytes))
    (hne : ∀ c ∈ chunks, c.2 ≠ []) (hk : KeepsNewlines (chunks.map Prod.snd)) :
    decodeLog (criLog stream chunks) =
      some (withoutBlankLines (chunks.map Prod.snd).flatten) := by
  rw [decodeLog_criLog, ← flatMap_withoutBlankLines _ _ hk]
  · rw [List.flatMap_map]
  · intro c hc
    obtain ⟨p, hp, rfl⟩ := List.mem_map.1 hc
    exact hne p hp

/-- The text of a timestamp. -/
def epoch : Timestamp := ⟨[49, 57, 55, 48], by decide⟩

/-- The chunks `"a\n"` and `"b"`. -/
theorem two_chunks_round_trip :
    decodeLog (criLog .stdout [(epoch, [97, newline]), (epoch, [98])]) =
      some [97, newline, 98] :=
  decodeLog_criLog_flatten .stdout [(epoch, [97, newline]), (epoch, [98])] (by simp)
    (by simp [KeepsNewlines])

/-- The log of a blank line is empty, so the line does not come back. -/
theorem blank_line_lost :
    ¬ ∀ (stream : Stream) (chunks : List (Timestamp × Bytes)), (∀ c ∈ chunks, c.2 ≠ []) →
      decodeLog (criLog stream chunks) = some (chunks.map Prod.snd).flatten := by
  intro h
  have h1 := h .stdout [(epoch, [newline])] (by simp)
  rw [decodeLog_criLog] at h1
  simp [withoutBlankLines, dropBlank] at h1

end ContainerdRs.Cri

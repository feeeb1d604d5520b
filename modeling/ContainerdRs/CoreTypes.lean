import Mathlib.Data.String.Basic
import ContainerdRs.Lib.Separators

/-!
# Content digests (`crates/core-types`)

Model of `core_types::Digest`: the lower-case hex of a sha256 sum, its string form
`sha256:<hex>` (`Display`), the parser (`FromStr`) and the blob path `sha256/<hex>`.

The type carries what the parser checks: exactly 64 lower-case hex digits.  The hash function
itself is not modelled; the modules that hash take `sha256 : Bytes → Digest` as a parameter.

* `parse_toString` — the canonical string form is read back exactly.
-/

set_option autoImplicit false

namespace ContainerdRs

/-- Raw bytes. -/
abbrev Bytes := List UInt8

/-- `str::split_once`: the texts before and after the first `c`. -/
def splitOnce (c : Char) (s : String) : Option (String × String) :=
  (Separators.cut c s.toList).map fun p => (String.ofList p.1, String.ofList p.2)

/-- `u8::is_ascii_hexdigit`. -/
def isAsciiHexdigit (c : Char) : Bool :=
  decide ('0' ≤ c ∧ c ≤ '9') || decide ('a' ≤ c ∧ c ≤ 'f') || decide ('A' ≤ c ∧ c ≤ 'F')

/-- A hex digit as `hex::encode` writes it. -/
def isLowerHex (c : Char) : Bool := decide ('0' ≤ c ∧ c ≤ '9') || decide ('a' ≤ c ∧ c ≤ 'f')

/-- `str::to_ascii_lowercase`. -/
def toAsciiLowercase (s : String) : String := String.ofList (s.toList.map Char.toLower)

/-- `core_types::Error`, as far as the parser raises it. -/
inductive DigestError where
  | invalidDigest (s : String)
  | unsupportedAlgorithm (algo : String)
  | digestLength (expected got : Nat)
  deriving DecidableEq, Repr

/-- `core_types::Digest`. -/
structure Digest where
  hex : String
  length : hex.toList.length = 64
  lower : hex.toList.all isLowerHex = true
  deriving DecidableEq

/-! ## Texts and characters -/

/-- The first part is the one without the separator. -/
theorem splitOnce_eq_some_iff {c : Char} {s a b : String} :
    splitOnce c s = some (a, b) ↔ s.toList = a.toList ++ c :: b.toList ∧ c ∉ a.toList := by
  constructor
  · intro h
    obtain ⟨⟨x, y⟩, hcut, hp⟩ := Option.map_eq_some_iff.1 h
    cases hp
    rw [String.toList_ofList, String.toList_ofList]
    exact Separators.cut_eq_some hcut
  · rintro ⟨hs, hc⟩
    rw [splitOnce, hs, Separators.cut_append _ _ _ hc, Option.map_some, String.ofList_toList,
      String.ofList_toList]

theorem isAsciiHexdigit_of_isLowerHex {c : Char} (h : isLowerHex c = true) :
    isAsciiHexdigit c = true := by
  simp only [isLowerHex, isAsciiHexdigit, Bool.or_eq_true] at h ⊢
  exact Or.inl h

theorem utf8Size_of_isAsciiHexdigit {c : Char} (h : isAsciiHexdigit c = true) :
    c.utf8Size = 1 := by
  rw [Char.utf8Size_eq_one_iff]
  simp only [isAsciiHexdigit, Bool.or_eq_true, decide_eq_true_eq] at h
  have hle : ∀ d : Char, d.val ≤ 127 → c ≤ d → c.val ≤ 127 := fun d hd hc =>
    UInt32.le_trans hc hd
  rcases h with (⟨_, h⟩ | ⟨_, h⟩) | ⟨_, h⟩
  · exact hle '9' (by decide) h
  · exact hle 'f' (by decide) h
  · exact hle 'F' (by decide) h

/-- A text of hex digits has as many bytes as characters. -/
theorem utf8ByteSize_of_hexdigits {s : String} (h : s.toList.all isAsciiHexdigit = true) :
    s.utf8ByteSize = s.toList.length := by
  rw [← String.ofList_toList (s := s), String.utf8ByteSize_ofList, String.toList_ofList]
  generalize s.toList = cs at h
  induction cs with
  | nil => rfl
  | cons c cs ih =>
    simp only [List.all_cons, Bool.and_eq_true] at h
    rw [String.utf8Len_cons, ih h.2, utf8Size_of_isAsciiHexdigit h.1, List.length_cons]

theorem toLower_of_isLowerHex {c : Char} (h : isLowerHex c = true) : c.toLower = c := by
  have hnot : ¬ ('A' ≤ c ∧ c ≤ 'Z') := by
    rintro ⟨h1, h2⟩
    simp only [isLowerHex, Bool.or_eq_true, decide_eq_true_eq] at h
    rcases h with ⟨_, h⟩ | ⟨h, _⟩
    · exact absurd (Char.le_trans h1 h) (by decide)
    · exact absurd (Char.le_trans h h2) (by decide)
  unfold Char.toLower
  rw [dif_neg]
  rintro ⟨h1, h2⟩
  exact hnot ⟨h1, h2⟩

theorem isLowerHex_toLower {c : Char} (h : isAsciiHexdigit c = true) :
    isLowerHex c.toLower = true := by
  by_cases hl : isLowerHex c = true
  · rw [toLower_of_isLowerHex hl]; exact hl
  · simp only [isAsciiHexdigit, isLowerHex, Bool.or_eq_true, decide_eq_true_eq] at h hl
    rcases h with h | ⟨h1, h2⟩
    · exact absurd h hl
    · have h1' : 65 ≤ c.val.toNat := h1
      have h2' : c.val.toNat ≤ 70 := h2
      have hc : c = 'A' ∨ c = 'B' ∨ c = 'C' ∨ c = 'D' ∨ c = 'E' ∨ c = 'F' := by
        simp only [Char.ext_iff, UInt32.ext_iff]
        have : ('A').val.toNat = 65 ∧ ('B').val.toNat = 66 ∧ ('C').val.toNat = 67 ∧
          ('D').val.toNat = 68 ∧ ('E').val.toNat = 69 ∧ ('F').val.toNat = 70 := by decide
        omega
      rcases hc with rfl | rfl | rfl | rfl | rfl | rfl <;> decide

namespace Digest

/-- `Display for Digest`. -/
def toString (d : Digest) : String := "sha256:" ++ d.hex

/-- `Digest::blob_path`. -/
def blobPath (d : Digest) : String := "sha256/" ++ d.hex

/-- `FromStr for Digest`. -/
def parse (s : String) : Except DigestError Digest :=
  match splitOnce ':' s with
  | none => .error (.invalidDigest s)
  | some (algo, hexPart) =>
    if algo ≠ "sha256" then .error (.unsupportedAlgorithm algo)
    else if hlen : hexPart.utf8ByteSize ≠ 64 then
      .error (.digestLength 64 hexPart.utf8ByteSize)
    else if hall : hexPart.toList.all isAsciiHexdigit = true then
      .ok ⟨toAsciiLowercase hexPart,
        by
          rw [toAsciiLowercase, String.toList_ofList, List.length_map,
            ← utf8ByteSize_of_hexdigits hall]
          exact not_not.1 hlen,
        by
          simp only [toAsciiLowercase, String.toList_ofList, List.all_map, List.all_eq_true,
            Function.comp_apply] at hall ⊢
          exact fun c hc => isLowerHex_toLower (hall c hc)⟩
    else .error (.invalidDigest s)

theorem hex_injective {a b : Digest} (h : a.hex = b.hex) : a = b := by
  cases a; cases b; cases h; rfl

theorem toList_toString (d : Digest) :
    d.toString.toList = "sha256".toList ++ ':' :: d.hex.toList := by
  rw [Digest.toString, String.toList_append]
  rfl

theorem splitOnce_toString (d : Digest) :
    splitOnce ':' d.toString = some ("sha256", d.hex) :=
  splitOnce_eq_some_iff.2 ⟨toList_toString d, by decide⟩

/-- **Canonical form**: a digest is read back from its string form. -/
theorem parse_toString (d : Digest) : parse d.toString = .ok d := by
  have hall : d.hex.toList.all isAsciiHexdigit = true := by
    have := d.lower
    rw [List.all_eq_true] at this ⊢
    exact fun c hc => isAsciiHexdigit_of_isLowerHex (this c hc)
  have hlen : d.hex.utf8ByteSize = 64 := by rw [utf8ByteSize_of_hexdigits hall, d.length]
  have hlow : toAsciiLowercase d.hex = d.hex := by
    have hmap : d.hex.toList.map Char.toLower = d.hex.toList := by
      conv_rhs => rw [← List.map_id d.hex.toList]
      refine List.map_congr_left fun c hc => ?_
      exact toLower_of_isLowerHex (List.all_eq_true.1 d.lower c hc)
    rw [toAsciiLowercase, hmap, String.ofList_toList]
  unfold parse
  rw [splitOnce_toString]
  simp only [ne_eq, not_true_eq_false, if_false, hlen, dif_pos hall, dite_false]
  exact congrArg Except.ok (hex_injective hlow)

end Digest

/-- The sha256 of the empty input. -/
def emptyDigest : Digest :=
  ⟨"e3b0c44298fc1c149afbf4c8996fb92427ae41e4649b934ca495991b7852b855", by decide, by decide⟩

end ContainerdRs

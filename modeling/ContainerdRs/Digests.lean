import ContainerdRs.CoreTypes

/-!
# The grammar of digests

What `FromStr for Digest` accepts, and where the blob of a digest lies.  A digest is parsed or
computed; `sha2` and `hex` are not part of the repository, `Hashing` holds what their
documentation says of them.

* `Digest.parse_eq_ok_iff` — the grammar, and the digest that is read.
* `Digest.components_blobPath` — the blob path has two components.
* `digest_grammar` — grammar, canonical form, equality up to case, and blob paths.
-/

set_option autoImplicit false

namespace ContainerdRs

/-! ## Hashing -/

/-- `Sha256::digest` and `hex::encode`: a sum has 32 bytes, a byte is two lower-case digits. -/
structure Hashing where
  sum : Bytes → Vector UInt8 32
  encode : Bytes → String
  encode_length : ∀ bytes, (encode bytes).toList.length = 2 * bytes.length
  encode_lower : ∀ bytes, (encode bytes).toList.all isLowerHex = true

/-- `Digest::sha256`. -/
def Digest.sha256 (H : Hashing) (bytes : Bytes) : Digest where
  hex := H.encode (H.sum bytes).toList
  length := by rw [H.encode_length, Vector.length_toList]
  lower := H.encode_lower _

/-- A half byte as a digit. -/
def hexDigit (n : Nat) : Char := "0123456789abcdef".toList.getD n '0'

/-- The two digits of each byte. -/
def hexChars : Bytes → List Char
  | [] => []
  | b :: bytes => hexDigit (b.toNat / 16) :: hexDigit (b.toNat % 16) :: hexChars bytes

theorem length_hexChars (bytes : Bytes) : (hexChars bytes).length = 2 * bytes.length := by
  induction bytes with
  | nil => rfl
  | cons b bytes ih =>
    simp only [hexChars, List.length_cons, ih]
    omega

theorem isLowerHex_hexDigit (n : Nat) : isLowerHex (hexDigit n) = true := by
  by_cases hn : n < 16
  · have hall : ∀ m < 16, isLowerHex (hexDigit m) = true := by decide
    exact hall n hn
  · have hlen : "0123456789abcdef".toList.length ≤ n := by
      have : "0123456789abcdef".toList.length = 16 := by decide
      omega
    rw [hexDigit, List.getD_eq_getElem?_getD, List.getElem?_eq_none hlen]
    decide

theorem hexChars_lower (bytes : Bytes) : (hexChars bytes).all isLowerHex = true := by
  induction bytes with
  | nil => rfl
  | cons b bytes ih => simp [hexChars, isLowerHex_hexDigit, ih]

/-- Any sum, written in lower-case digits. -/
def Hashing.ofSum (sum : Bytes → Vector UInt8 32) : Hashing where
  sum := sum
  encode bytes := String.ofList (hexChars bytes)
  encode_length bytes := by rw [String.toList_ofList, length_hexChars]
  encode_lower bytes := by rw [String.toList_ofList, hexChars_lower]

namespace Digest

/-! ## The grammar -/

/-- The digits in lower case are those of a digest. -/
theorem exists_hex_eq {h : String} (hlen : h.toList.length = 64)
    (hall : h.toList.all isAsciiHexdigit = true) : ∃ d : Digest, d.hex = toAsciiLowercase h := by
  refine ⟨⟨toAsciiLowercase h, ?_, ?_⟩, rfl⟩
  · rw [toAsciiLowercase, String.toList_ofList, List.length_map, hlen]
  · rw [toAsciiLowercase, String.toList_ofList, List.all_map, List.all_eq_true]
    intro c hc
    exact isLowerHex_toLower (List.all_eq_true.1 hall c hc)

/-- The text is `sha256:` and 64 hex digits; the digest has them in lower case. -/
theorem parse_eq_ok_iff {s : String} {d : Digest} :
    parse s = .ok d ↔ ∃ h, s = "sha256:" ++ h ∧ h.toList.length = 64 ∧
      h.toList.all isAsciiHexdigit = true ∧ d.hex = toAsciiLowercase h := by
  constructor
  · intro hparse
    unfold parse at hparse
    split at hparse
    · cases hparse
    · rename_i algo hexPart hsplit
      -- each check that passes is one part of the grammar
      split at hparse
      · cases hparse
      · rename_i halgo
        split at hparse
        · cases hparse
        · rename_i hlen
          split at hparse
          · rename_i hall
            refine ⟨hexPart, ?_, ?_, hall, ?_⟩
            · have hs := (splitOnce_eq_some_iff.1 hsplit).1
              rw [← String.toList_inj, hs, not_not.1 halgo, String.toList_append]
              rfl
            · rw [← utf8ByteSize_of_hexdigits hall]
              exact not_not.1 hlen
            · cases hparse
              rfl
          · cases hparse
  · rintro ⟨h, rfl, hlen, hall, hhex⟩
    have hsplit : splitOnce ':' ("sha256:" ++ h) = some ("sha256", h) := by
      have hlist : ("sha256:" ++ h).toList = "sha256".toList ++ ':' :: h.toList := by
        rw [String.toList_append]
        rfl
      exact splitOnce_eq_some_iff.2 ⟨hlist, by decide⟩
    have hsize : h.utf8ByteSize = 64 := by rw [utf8ByteSize_of_hexdigits hall, hlen]
    unfold parse
    rw [hsplit]
    simp only [ne_eq, not_true_eq_false, if_false, hsize, dif_pos hall, dite_false]
    exact congrArg Except.ok (hex_injective hhex.symm)

/-- Two texts with the same digest differ in the case of the hex digits only. -/
theorem eq_iff_of_parse {s t : String} {d e : Digest} (hs : parse s = .ok d)
    (ht : parse t = .ok e) :
    d = e ↔ ∃ h k, s = "sha256:" ++ h ∧ t = "sha256:" ++ k ∧
      toAsciiLowercase h = toAsciiLowercase k := by
  obtain ⟨h, hsh, -, -, hd⟩ := parse_eq_ok_iff.1 hs
  obtain ⟨k, htk, -, -, he⟩ := parse_eq_ok_iff.1 ht
  constructor
  · rintro rfl
    exact ⟨h, k, hsh, htk, hd.symm.trans he⟩
  · rintro ⟨h', k', hsh', htk', hcase⟩
    have hh : h = h' := String.append_right_inj "sha256:" |>.1 (hsh.symm.trans hsh')
    have hk : k = k' := String.append_right_inj "sha256:" |>.1 (htk.symm.trans htk')
    apply hex_injective
    rw [hd, he, hh, hk, hcase]

/-! ## Blob paths -/

theorem blobPath_inj {d e : Digest} : d.blobPath = e.blobPath ↔ d = e := by
  constructor
  · intro h
    exact hex_injective (String.append_right_inj "sha256/" |>.1 h)
  · rintro rfl
    rfl

theorem not_mem_hex {c : Char} (h : isLowerHex c = false) (d : Digest) : c ∉ d.hex.toList := by
  intro hc
  rw [List.all_eq_true.1 d.lower c hc] at h
  cases h

end Digest

/-- The components of a relative path. -/
def components (path : String) : List String := (path.toList.splitOn '/').map String.ofList

/-- The component names an entry of the directory it is looked up in. -/
structure IsEntry (name : String) : Prop where
  nonempty : name ≠ ""
  notDot : name ≠ "."
  notDotDot : name ≠ ".."
  noSlash : '/' ∉ name.toList
  noNul : '\x00' ∉ name.toList

namespace Digest

theorem isEntry_hex (d : Digest) : IsEntry d.hex := by
  have hlen : ∀ name : String, name.toList.length ≠ 64 → d.hex ≠ name := by
    rintro name hname rfl
    exact hname d.length
  exact ⟨hlen _ (by decide), hlen _ (by decide), hlen _ (by decide),
    not_mem_hex (by decide) d, not_mem_hex (by decide) d⟩

theorem components_blobPath (d : Digest) : components d.blobPath = ["sha256", d.hex] := by
  have hlist : d.blobPath.toList = "sha256".toList ++ '/' :: d.hex.toList := by
    rw [blobPath, String.toList_append]
    rfl
  have hfirst : "sha256".toList.splitOn '/' = ["sha256".toList] :=
    List.splitOn_eq_singleton (by decide)
  have hlast : d.hex.toList.splitOn '/' = [d.hex.toList] :=
    List.splitOn_eq_singleton (isEntry_hex d).noSlash
  rw [components, hlist, List.splitOn_append_cons_self, hfirst, hlast]
  simp

end Digest

open Digest

/-- **Digests**: the grammar of the parser; parsed and computed digests read back from their
    string form; two texts give one digest, and one blob path, when they differ in the case of
    the hex part only; the blob is an entry of `sha256/`. -/
theorem digest_grammar (H : Hashing) :
    (∀ s, (∃ d, parse s = .ok d) ↔ ∃ h, s = "sha256:" ++ h ∧ h.toList.length = 64 ∧
      ∀ c ∈ h.toList, isAsciiHexdigit c = true) ∧
    (∀ s d, parse s = .ok d → parse d.toString = .ok d) ∧
    (∀ bytes, parse (Digest.sha256 H bytes).toString = .ok (Digest.sha256 H bytes)) ∧
    (∀ s t d e, parse s = .ok d → parse t = .ok e →
      (d = e ↔ ∃ h k, s = "sha256:" ++ h ∧ t = "sha256:" ++ k ∧
        toAsciiLowercase h = toAsciiLowercase k) ∧ (d.blobPath = e.blobPath ↔ d = e)) ∧
    ∀ d : Digest, components d.blobPath = ["sha256", d.hex] ∧ IsEntry d.hex := by
  refine ⟨?_, fun s d _ => parse_toString d, fun bytes => parse_toString _, ?_,
    fun d => ⟨components_blobPath d, isEntry_hex d⟩⟩
  · intro s
    constructor
    · rintro ⟨d, hd⟩
      obtain ⟨h, hs, hlen, hall, -⟩ := parse_eq_ok_iff.1 hd
      exact ⟨h, hs, hlen, List.all_eq_true.1 hall⟩
    · rintro ⟨h, hs, hlen, hall⟩
      have hall' : h.toList.all isAsciiHexdigit = true := List.all_eq_true.2 hall
      obtain ⟨d, hd⟩ := exists_hex_eq hlen hall'
      exact ⟨d, parse_eq_ok_iff.2 ⟨h, hs, hlen, hall', hd⟩⟩
  · intro s t d e hs ht
    exact ⟨eq_iff_of_parse hs ht, blobPath_inj⟩

end ContainerdRs

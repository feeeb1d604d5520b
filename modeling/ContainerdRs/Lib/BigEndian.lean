import Mathlib.Tactic

/-!
# Big-endian numbers

`ofBytes` reads a list of bytes as one big-endian number and `toBytes w` writes a number in `w`
bytes, keeping its low part; reading back gives the number modulo `256 ^ w`.
-/

set_option autoImplicit false

namespace BigEndian

/-- The number a list of bytes stands for, most significant byte first. -/
def ofBytes (bs : List UInt8) : Nat := bs.foldl (fun n b => n * 256 + b.toNat) 0

/-- The low `w` bytes of `v`, most significant byte first. -/
def toBytes : Nat → Nat → List UInt8
  | 0, _ => []
  | w + 1, v => UInt8.ofNat (v / 256 ^ w) :: toBytes w v

@[simp] theorem length_toBytes : ∀ w v, (toBytes w v).length = w
  | 0, _ => rfl
  | w + 1, v => by simp [toBytes, length_toBytes w v]

/-- The fold with a start value shifts that value by the bytes read. -/
theorem foldl_toBytes : ∀ (w v n : Nat),
    (toBytes w v).foldl (fun n b => n * 256 + b.toNat) n = n * 256 ^ w + v % 256 ^ w
  | 0, v, n => by simp [toBytes, Nat.mod_one]
  | w + 1, v, n => by
    simp only [toBytes, List.foldl_cons]
    rw [foldl_toBytes w v]
    have hb : (UInt8.ofNat (v / 256 ^ w)).toNat = v / 256 ^ w % 256 := by simp
    have hm : v % 256 ^ (w + 1) = 256 ^ w * (v / 256 ^ w % 256) + v % 256 ^ w := by
      rw [pow_succ, Nat.mod_mul]; omega
    rw [hb, hm, pow_succ]
    ring

/-- Reading back what was written keeps the low bytes. -/
theorem ofBytes_toBytes (w v : Nat) : ofBytes (toBytes w v) = v % 256 ^ w := by
  simpa [ofBytes] using foldl_toBytes w v 0

/-- The first byte of a number below half the range has its top bit clear. -/
theorem topBit_clear {v : Nat} (w : Nat) (hv : v < 128 * 256 ^ w) :
    UInt8.ofNat (v / 256 ^ w) &&& 0x80 = 0 := by
  have hq : v / 256 ^ w < 128 := Nat.div_lt_of_lt_mul (by rwa [Nat.mul_comm])
  have hclear : ∀ n : Fin 128, UInt8.ofNat n.val &&& 0x80 = 0 := by decide
  exact hclear ⟨_, hq⟩

/-- `x & 0x7fff_ffff` keeps a word below `2^31`. -/
theorem and_low31 {x : UInt32} (hx : x.toNat < 2 ^ 31) : x &&& 0x7fffffff = x := by
  apply UInt32.toNat_inj.mp
  have h31 : (0x7fffffff : UInt32).toNat = 2 ^ 31 - 1 := by decide
  rw [UInt32.toNat_and, h31, Nat.and_two_pow_sub_one_eq_mod, Nat.mod_eq_of_lt hx]

end BigEndian

import Mathlib.Algebra.Order.Ring.Int

/-!
# Fixed-width integers as bytes

Natural numbers and the two signed machine words as a fixed number of bytes, most significant
byte first. The other byte order is the reversed list.
-/

namespace ByteOrder

/-- The number whose base-256 digits the bytes are. -/
def natOfBytes (bs : List UInt8) : Nat := bs.foldl (fun n b ↦ 256 * n + b.toNat) 0

/-- The lowest `w` base-256 digits of a number. -/
def bytesOfNat : Nat → Nat → List UInt8
  | 0, _ => []
  | w + 1, n => bytesOfNat w (n / 256) ++ [UInt8.ofNat n]

@[simp] theorem length_bytesOfNat (w n : Nat) : (bytesOfNat w n).length = w := by
  induction w generalizing n with
  | zero => rfl
  | succ w ih => rw [bytesOfNat, List.length_append, ih, List.length_singleton]

private theorem natOfBytes_append_singleton (bs : List UInt8) (b : UInt8) :
    natOfBytes (bs ++ [b]) = 256 * natOfBytes bs + b.toNat := by
  simp [natOfBytes]

/-- Writing and reading back keeps a number up to the width. -/
theorem natOfBytes_bytesOfNat (w n : Nat) : natOfBytes (bytesOfNat w n) = n % 256 ^ w := by
  induction w generalizing n with
  | zero => rw [Nat.pow_zero, Nat.mod_one]; rfl
  | succ w ih =>
    have hb : (UInt8.ofNat n).toNat = n % 256 := UInt8.toNat_ofNat
    rw [bytesOfNat, natOfBytes_append_singleton, ih, hb, Nat.pow_succ, Nat.mul_comm (256 ^ w),
      Nat.mod_mul]
    omega

private theorem foldl_digits (bs : List UInt8) (n : Nat) :
    bs.foldl (fun n b ↦ 256 * n + b.toNat) n = n * 256 ^ bs.length + natOfBytes bs := by
  induction bs generalizing n with
  | nil => simp [natOfBytes]
  | cons b bs ih =>
    have hcons : natOfBytes (b :: bs) = (256 * 0 + b.toNat) * 256 ^ bs.length + natOfBytes bs :=
      ih (256 * 0 + b.toNat)
    rw [List.foldl_cons, ih, hcons, List.length_cons, Nat.pow_succ]
    grind

/-- The first byte is the leading digit. -/
theorem natOfBytes_cons (b : UInt8) (bs : List UInt8) :
    natOfBytes (b :: bs) = b.toNat * 256 ^ bs.length + natOfBytes bs := by
  rw [natOfBytes, List.foldl_cons, foldl_digits, Nat.mul_zero, Nat.zero_add]

/-- The digits stay below the base. -/
theorem natOfBytes_lt (bs : List UInt8) : natOfBytes bs < 256 ^ bs.length := by
  induction bs with
  | nil => decide
  | cons b bs ih =>
    have hb := b.toNat_lt
    have hm : (b.toNat + 1) * 256 ^ bs.length ≤ 256 * 256 ^ bs.length :=
      Nat.mul_le_mul_right _ (by omega)
    rw [natOfBytes_cons, List.length_cons, Nat.pow_succ]
    grind

/-! ### Signed words -/

/-- The 32-bit word of some bytes. -/
def int32OfBytes (bs : List UInt8) : Int32 := Int32.ofBitVec (BitVec.ofNat 32 (natOfBytes bs))

/-- The four bytes of a 32-bit word. -/
def bytesOfInt32 (x : Int32) : List UInt8 := bytesOfNat 4 x.toBitVec.toNat

/-- The 64-bit word of some bytes. -/
def int64OfBytes (bs : List UInt8) : Int64 := Int64.ofBitVec (BitVec.ofNat 64 (natOfBytes bs))

/-- The eight bytes of a 64-bit word. -/
def bytesOfInt64 (x : Int64) : List UInt8 := bytesOfNat 8 x.toBitVec.toNat

@[simp] theorem length_bytesOfInt32 (x : Int32) : (bytesOfInt32 x).length = 4 :=
  length_bytesOfNat 4 _

@[simp] theorem length_bytesOfInt64 (x : Int64) : (bytesOfInt64 x).length = 8 :=
  length_bytesOfNat 8 _

/-- A 32-bit word is read back. -/
@[simp] theorem int32OfBytes_bytesOfInt32 (x : Int32) : int32OfBytes (bytesOfInt32 x) = x := by
  have hx : x.toBitVec.toNat % 256 ^ 4 = x.toBitVec.toNat := Nat.mod_eq_of_lt x.toBitVec.isLt
  rw [int32OfBytes, bytesOfInt32, natOfBytes_bytesOfNat, hx, BitVec.ofNat_toNat,
    BitVec.setWidth_eq, Int32.ofBitVec_toBitVec]

/-- A 64-bit word is read back. -/
@[simp] theorem int64OfBytes_bytesOfInt64 (x : Int64) : int64OfBytes (bytesOfInt64 x) = x := by
  have hx : x.toBitVec.toNat % 256 ^ 8 = x.toBitVec.toNat := Nat.mod_eq_of_lt x.toBitVec.isLt
  rw [int64OfBytes, bytesOfInt64, natOfBytes_bytesOfNat, hx, BitVec.ofNat_toNat,
    BitVec.setWidth_eq, Int64.ofBitVec_toBitVec]

end ByteOrder

import Mathlib.Data.BitVec

/-!
# Byte orders

Big-endian pairs of bytes and little-endian byte strings of any length. A number
written as bytes is read back.
-/

set_option autoImplicit false

namespace ByteOrder

/-- The 16-bit value of two bytes, most significant byte first. -/
def bigEndian16 (high low : BitVec 8) : BitVec 16 :=
  (high.setWidth 16 <<< 8) ||| low.setWidth 16

def highByte (x : BitVec 16) : BitVec 8 := ((x >>> 8) &&& 0xFF#16).setWidth 8

def lowByte (x : BitVec 16) : BitVec 8 := (x &&& 0xFF#16).setWidth 8

theorem bigEndian16_toNat (high low : BitVec 8) :
    (bigEndian16 high low).toNat = 256 * high.toNat + low.toNat := by
  have hHigh := high.isLt
  have hLow := low.isLt
  rw [bigEndian16, BitVec.toNat_or, BitVec.toNat_shiftLeft, BitVec.toNat_setWidth,
    BitVec.toNat_setWidth, Nat.mod_eq_of_lt (by omega : high.toNat < 2 ^ 16),
    Nat.mod_eq_of_lt (by omega : low.toNat < 2 ^ 16), Nat.shiftLeft_eq,
    Nat.mod_eq_of_lt (by omega : high.toNat * 2 ^ 8 < 2 ^ 16), Nat.mul_comm high.toNat (2 ^ 8),
    ← Nat.two_pow_add_eq_or_of_lt hLow]

theorem highByte_toNat (x : BitVec 16) : (highByte x).toNat = x.toNat / 256 := by
  have hx := x.isLt
  rw [highByte, BitVec.toNat_setWidth, BitVec.toNat_and, BitVec.toNat_ushiftRight,
    Nat.shiftRight_eq_div_pow]
  change (x.toNat / 2 ^ 8 &&& 2 ^ 8 - 1) % 2 ^ 8 = _
  rw [Nat.and_two_pow_sub_one_eq_mod, Nat.mod_mod]
  omega

theorem lowByte_toNat (x : BitVec 16) : (lowByte x).toNat = x.toNat % 256 := by
  rw [lowByte, BitVec.toNat_setWidth, BitVec.toNat_and]
  change (x.toNat &&& 2 ^ 8 - 1) % 2 ^ 8 = _
  rw [Nat.and_two_pow_sub_one_eq_mod, Nat.mod_mod]

@[simp] theorem bigEndian16_high_low (x : BitVec 16) :
    bigEndian16 (highByte x) (lowByte x) = x := by
  apply BitVec.eq_of_toNat_eq
  rw [bigEndian16_toNat, highByte_toNat, lowByte_toNat]
  omega

@[simp] theorem highByte_bigEndian16 (high low : BitVec 8) :
    highByte (bigEndian16 high low) = high := by
  have hLow := low.isLt
  apply BitVec.eq_of_toNat_eq
  rw [highByte_toNat, bigEndian16_toNat]
  omega

@[simp] theorem lowByte_bigEndian16 (high low : BitVec 8) :
    lowByte (bigEndian16 high low) = low := by
  have hLow := low.isLt
  apply BitVec.eq_of_toNat_eq
  rw [lowByte_toNat, bigEndian16_toNat]
  omega

/-- The `n` lowest bytes of `x`, least significant byte first. -/
def littleEndian : Nat → Nat → List (BitVec 8)
  | 0, _ => []
  | n + 1, x => BitVec.ofNat 8 x :: littleEndian n (x / 256)

def ofLittleEndian (bytes : List (BitVec 8)) : Nat :=
  bytes.foldr (fun byte rest => byte.toNat + 256 * rest) 0

@[simp] theorem littleEndian_length (n x : Nat) : (littleEndian n x).length = n := by
  induction n generalizing x with
  | zero => rfl
  | succ n ih => rw [littleEndian, List.length_cons, ih]

theorem ofLittleEndian_littleEndian (n x : Nat) :
    ofLittleEndian (littleEndian n x) = x % 256 ^ n := by
  induction n generalizing x with
  | zero => simp [littleEndian, ofLittleEndian, Nat.mod_one]
  | succ n ih =>
    have hPow : 256 ^ (n + 1) = 256 * 256 ^ n := Nat.pow_succ'
    change (BitVec.ofNat 8 x).toNat + 256 * ofLittleEndian (littleEndian n (x / 256)) = _
    rw [ih, BitVec.toNat_ofNat, hPow, Nat.mod_mul]

theorem littleEndian_ofLittleEndian (bytes : List (BitVec 8)) :
    littleEndian bytes.length (ofLittleEndian bytes) = bytes := by
  induction bytes with
  | nil => rfl
  | cons byte rest ih =>
    have hByte := byte.isLt
    have hFirst : BitVec.ofNat 8 (byte.toNat + 256 * ofLittleEndian rest) = byte := by
      apply BitVec.eq_of_toNat_eq
      rw [BitVec.toNat_ofNat]
      omega
    have hRest : (byte.toNat + 256 * ofLittleEndian rest) / 256 = ofLittleEndian rest := by omega
    change BitVec.ofNat 8 (byte.toNat + 256 * ofLittleEndian rest) ::
      littleEndian rest.length ((byte.toNat + 256 * ofLittleEndian rest) / 256) = _
    rw [hFirst, hRest, ih]

theorem ofLittleEndian_lt (bytes : List (BitVec 8)) : ofLittleEndian bytes < 256 ^ bytes.length := by
  induction bytes with
  | nil => exact Nat.one_pos
  | cons byte rest ih =>
    have hByte := byte.isLt
    change byte.toNat + 256 * ofLittleEndian rest < 256 ^ (rest.length + 1)
    rw [Nat.pow_succ']
    omega

end ByteOrder

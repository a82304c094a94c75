import Mathlib.RingTheory.AdjoinRoot
import Mathlib.Tactic.ComputeDegree
import CounterDroneServer.Generals
import CounterDroneServer.Library.BitPolynomial

/-!
# The checksum as a polynomial remainder

`calculate_crc16` keeps a 16-bit register. One round of its inner loop
multiplies the register by `X` modulo the generator, a byte enters at the upper
half, and the initial value `0xFFFF` travels along.
-/

set_option autoImplicit false

namespace CounterDroneServer.Checksum

open Polynomial BitPolynomial

noncomputable def generator : (ZMod 2)[X] := X ^ 16 + X ^ 12 + X ^ 5 + 1

theorem generator_degree : generator.degree = 16 := by
  unfold generator
  compute_degree!

theorem generator_monic : generator.Monic := by
  unfold generator
  monicity!

noncomputable def word {w : Nat} (x : BitVec w) : (ZMod 2)[X] := ofBits (bitsOf x)

/-- The bits of all bytes, most significant first. -/
def messageBits (data : BytesArray) : List Bool := data.flatMap bitsOf

noncomputable def message (data : BytesArray) : (ZMod 2)[X] := ofBits (messageBits data)

noncomputable def residue (p : (ZMod 2)[X]) : AdjoinRoot generator := AdjoinRoot.mk generator p

theorem residue_eq_iff (p q : (ZMod 2)[X]) : residue p = residue q ↔ generator ∣ p - q :=
  AdjoinRoot.mk_eq_mk

theorem residue_add (p q : (ZMod 2)[X]) : residue (p + q) = residue p + residue q := map_add _ p q

theorem residue_mul (p q : (ZMod 2)[X]) : residue (p * q) = residue p * residue q := map_mul _ p q

theorem word_degree_lt {w : Nat} (x : BitVec w) : (word x).degree < w := by
  have hDegree := degree_ofBits_lt (bitsOf x)
  rwa [bitsOf_length] at hDegree

theorem word_injective {w : Nat} {x y : BitVec w} (hEq : word x = word y) : x = y := by
  apply bitsOf_injective
  exact ofBits_injective (by rw [bitsOf_length, bitsOf_length]) hEq

theorem word_xor {w : Nat} (x y : BitVec w) : word (x ^^^ y) = word x + word y := by
  rw [word, bitsOf_xor, ofBits_xor (by rw [bitsOf_length, bitsOf_length])]
  rfl

@[simp] theorem messageBits_length (data : BytesArray) :
    (messageBits data).length = 8 * data.length := by
  induction data with
  | nil => rfl
  | cons byte rest ih =>
    rw [messageBits, List.flatMap_cons, List.length_append, bitsOf_length]
    change 8 + (messageBits rest).length = _
    rw [ih, List.length_cons]
    ring

theorem message_cons (byte : Byte) (rest : BytesArray) :
    message (byte :: rest) = word byte * X ^ (8 * rest.length) + message rest := by
  have hSplit : messageBits (byte :: rest) = bitsOf byte ++ messageBits rest := List.flatMap_cons
  rw [message, hSplit, ofBits_append, messageBits_length]
  rfl

theorem messageBits_append (front back : BytesArray) :
    messageBits (front ++ back) = messageBits front ++ messageBits back :=
  List.flatMap_append

theorem message_append (front back : BytesArray) :
    message (front ++ back) = message front * X ^ (8 * back.length) + message back := by
  rw [message, messageBits_append, ofBits_append, messageBits_length]
  rfl

theorem messageBits_xor {data error : BytesArray} (hLength : data.length = error.length) :
    messageBits (List.zipWith (· ^^^ ·) data error) =
      List.zipWith xor (messageBits data) (messageBits error) := by
  induction data generalizing error with
  | nil => rfl
  | cons byte rest ih =>
    cases error with
    | nil => cases hLength
    | cons flips error =>
      have hSplit : ∀ (b : Byte) (bytes : BytesArray),
          messageBits (b :: bytes) = bitsOf b ++ messageBits bytes := fun _ _ => List.flatMap_cons
      rw [List.zipWith_cons_cons, hSplit, hSplit, hSplit, ih (Nat.succ.inj hLength), bitsOf_xor,
        List.zipWith_append (by rw [bitsOf_length, bitsOf_length])]

theorem messageBits_injective {data data' : BytesArray} (hLength : data.length = data'.length)
    (hEq : messageBits data = messageBits data') : data = data' := by
  induction data generalizing data' with
  | nil => exact (List.length_eq_zero_iff.mp hLength.symm).symm
  | cons byte rest ih =>
    cases data' with
    | nil => cases hLength
    | cons byte' rest' =>
      obtain ⟨hFirst, hRest⟩ := List.append_inj hEq (by rw [bitsOf_length, bitsOf_length])
      rw [bitsOf_injective hFirst, ih (Nat.succ.inj hLength) hRest]

/-! ## The register -/

/-- The polynomial of the constant `0x1021`: the generator without its leading
power. -/
theorem word_polynomial : word (0x1021#16) = X ^ 12 + X ^ 5 + 1 := by
  have hBits : bitsOf (0x1021#16) = [false, false, false, true, false, false, false, false,
    false, false, true, false, false, false, false, true] := by decide
  rw [word, hBits]
  simp [add_assoc]

theorem top_bit_iff (crc : BitVec 16) : crc &&& 0x8000#16 ≠ 0 ↔ crc.msb = true := by
  have hTop : 0x8000#16 = BitVec.twoPow 16 15 := by decide
  rw [hTop, BitVec.and_twoPow, BitVec.msb_eq_getLsbD_last]
  cases crc.getLsbD (16 - 1) with
  | false => simp
  | true => decide

theorem word_crcBit (crc : BitVec 16) :
    word (crcBit crc) = word (crc <<< 1) + C (bit crc.msb) * (X ^ 12 + X ^ 5 + 1) := by
  unfold crcBit
  split
  · next hTop =>
    rw [(top_bit_iff crc).mp hTop, word_xor, word_polynomial]
    simp [bit]
  · next hTop =>
    have hMsb : crc.msb = false := by
      rw [← Bool.not_eq_true, ← top_bit_iff]
      exact hTop
    simp [hMsb, bit]

theorem residue_crcBit (crc : BitVec 16) : residue (word (crcBit crc)) = residue (word crc * X) := by
  have hShift : word crc * X = C (bit crc.msb) * X ^ 16 + word (crc <<< 1) :=
    ofBits_shiftLeft_one crc
  rw [residue_eq_iff, CharTwo.sub_eq_add, word_crcBit, hShift]
  generalize word (crc <<< 1) = shifted
  refine ⟨C (bit crc.msb), ?_⟩
  calc
    shifted + C (bit crc.msb) * (X ^ 12 + X ^ 5 + 1) + (C (bit crc.msb) * X ^ 16 + shifted) =
        generator * C (bit crc.msb) + (shifted + shifted) := by
      rw [generator]
      ring
    _ = generator * C (bit crc.msb) := by rw [CharTwo.add_self_eq_zero, add_zero]

theorem residue_crcBits (n : Nat) (crc : BitVec 16) :
    residue (word (crcBits n crc)) = residue (word crc * X ^ n) := by
  induction n generalizing crc with
  | zero => rw [crcBits, pow_zero, mul_one]
  | succ n ih =>
    rw [crcBits, ih, residue_mul, residue_crcBit, ← residue_mul, mul_assoc, ← pow_succ']

theorem word_upper (byte : Byte) : word (byte.setWidth 16 <<< 8) = word byte * X ^ 8 := by
  rw [word, bitsOf_setWidth_shiftLeft byte 8, ofBits_append, ofBits_replicate_false, add_zero,
    List.length_replicate]
  rfl

theorem residue_crcByte (crc : BitVec 16) (byte : Byte) :
    residue (word (crcByte crc byte)) = residue (word crc * X ^ 8 + word byte * X ^ 16) := by
  rw [crcByte, residue_crcBits, word_xor, word_upper]
  apply congrArg residue
  ring

theorem residue_foldl (data : BytesArray) (crc : BitVec 16) :
    residue (word (data.foldl crcByte crc)) =
      residue (message data * X ^ 16 + word crc * X ^ (8 * data.length)) := by
  induction data generalizing crc with
  | nil => simp [message, messageBits]
  | cons byte rest ih =>
    rw [List.foldl_cons, ih, residue_add, residue_mul (word (crcByte crc byte)), residue_crcByte,
      ← residue_mul, ← residue_add, message_cons, List.length_cons]
    apply congrArg residue
    ring

theorem word_initial : word (0xFFFF#16) = ∑ i ∈ Finset.range 16, X ^ i := by
  have hBits : bitsOf (0xFFFF#16) = List.replicate 16 true := by decide
  rw [word, hBits, ofBits_replicate_true]

/-- What the checksum of a message is congruent to. -/
theorem residue_calculateCrc16 (data : BytesArray) :
    residue (word (calculateCrc16 data)) =
      residue (message data * X ^ 16 +
        (∑ i ∈ Finset.range 16, X ^ i) * X ^ (8 * data.length)) := by
  rw [calculateCrc16, residue_foldl, word_initial]

/-- The checksum is the remainder of the shifted message with the shifted initial
value. -/
theorem calculateCrc16_remainder (data : BytesArray) :
    word (calculateCrc16 data) =
      (message data * X ^ 16 + (∑ i ∈ Finset.range 16, X ^ i) * X ^ (8 * data.length)) %ₘ
        generator := by
  have hSmall : (word (calculateCrc16 data)).degree < generator.degree := by
    rw [generator_degree]
    exact word_degree_lt _
  rw [← (modByMonic_eq_self_iff generator_monic).mpr hSmall]
  exact modByMonic_eq_of_dvd_sub generator_monic ((residue_eq_iff _ _).mp (residue_calculateCrc16 data))

end CounterDroneServer.Checksum

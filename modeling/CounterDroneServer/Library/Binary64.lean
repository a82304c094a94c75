import Mathlib.Algebra.Order.Ring.Int
import Mathlib.Order.Monotone.Basic

/-!
# The format binary64

A word is a sign, eleven bits of exponent and fifty-two of fraction. Words are
compared by the integers `scaled`: the value of a finite word times `2 ^ 1074`,
and for an infinity an integer beyond all of these.
-/

set_option autoImplicit false

namespace Binary64

def fraction (bits : Nat) : Nat := bits % 2 ^ 52

def exponent (bits : Nat) : Nat := bits / 2 ^ 52

/-- The magnitude that the bits behind the sign stand for. -/
def magnitude (bits : Nat) : Nat :=
  if exponent bits = 0 then fraction bits else (2 ^ 52 + fraction bits) * 2 ^ (exponent bits - 1)

def isNegative (word : BitVec 64) : Bool := 2 ^ 63 ≤ word.toNat

def unsigned (word : BitVec 64) : Nat := word.toNat % 2 ^ 63

/-- The bits behind the sign of an infinity. -/
def infinity : Nat := 2047 * 2 ^ 52

def isNaN (word : BitVec 64) : Bool := infinity < unsigned word

def scaled (word : BitVec 64) : ℤ :=
  if isNegative word then -(magnitude (unsigned word) : ℤ) else magnitude (unsigned word)

/-- What stands for one. -/
def one : Nat := 2 ^ 1074

/-- `x > n` for a double `x` and an integer `n` that a double holds exactly. No
comparison with a NaN holds. -/
def greaterThan (word : BitVec 64) (n : ℤ) : Bool := !isNaN word && n * one < scaled word

theorem magnitude_strictMono : StrictMono magnitude := by
  apply strictMono_nat_of_lt_succ
  intro bits
  by_cases hCarry : fraction bits + 1 = 2 ^ 52
  · have hFraction : fraction (bits + 1) = 0 := by
      unfold fraction at *
      omega
    have hExponent : exponent (bits + 1) = exponent bits + 1 := by
      unfold fraction exponent at *
      omega
    rw [magnitude, magnitude, hFraction, hExponent, if_neg (Nat.succ_ne_zero _), Nat.add_sub_cancel]
    split
    · rename_i hZero
      rw [hZero]
      omega
    · rename_i hNormal
      have hDouble : 2 ^ exponent bits = 2 * 2 ^ (exponent bits - 1) := by
        rw [← Nat.pow_succ', Nat.succ_eq_add_one, Nat.sub_one_add_one hNormal]
      rw [hDouble, Nat.add_zero, ← Nat.mul_assoc]
      exact Nat.mul_lt_mul_of_pos_right (by omega) (Nat.two_pow_pos _)
  · have hFraction : fraction (bits + 1) = fraction bits + 1 := by
      unfold fraction at *
      omega
    have hExponent : exponent (bits + 1) = exponent bits := by
      unfold fraction exponent at *
      omega
    rw [magnitude, magnitude, hFraction, hExponent]
    split
    · exact Nat.lt_succ_self _
    · exact Nat.mul_lt_mul_of_pos_right (Nat.lt_succ_self _) (Nat.two_pow_pos _)

theorem isNegative_iff (word : BitVec 64) : isNegative word = true ↔ 2 ^ 63 ≤ word.toNat :=
  decide_eq_true_iff

/-- The order of the positive words is the order of their bits: above a word of value
`n` are the greater ones up to infinity. -/
theorem greaterThan_iff (word : BitVec 64) {n : Nat} {bits : Nat}
    (hValue : magnitude bits = n * one) :
    greaterThan word n = true ↔ bits < word.toNat ∧ word.toNat ≤ infinity := by
  have hWord := word.isLt
  rw [greaterThan, Bool.and_eq_true, Bool.not_eq_true', decide_eq_true_iff, isNaN,
    decide_eq_false_iff_not, Nat.not_lt, scaled]
  by_cases hSign : 2 ^ 63 ≤ word.toNat
  · rw [if_pos ((isNegative_iff word).mpr hSign)]
    refine iff_of_false ?_ ?_
    · rintro ⟨-, hGreater⟩
      have hNonneg : (0 : ℤ) ≤ n * one := Int.natCast_nonneg (n * one)
      omega
    · rintro ⟨-, hInfinity⟩
      unfold infinity at hInfinity
      omega
  · have hUnsigned : unsigned word = word.toNat := Nat.mod_eq_of_lt (Nat.lt_of_not_le hSign)
    rw [if_neg (fun h => hSign ((isNegative_iff word).mp h)), hUnsigned]
    have hCast : (n : ℤ) * one = magnitude bits := by rw [hValue, Int.natCast_mul]
    rw [hCast, Int.ofNat_lt, magnitude_strictMono.lt_iff_lt]
    exact And.comm

end Binary64

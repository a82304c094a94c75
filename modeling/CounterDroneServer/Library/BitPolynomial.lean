import Mathlib.Algebra.CharP.Two
import Mathlib.Algebra.Field.ZMod
import Mathlib.Algebra.Polynomial.Div

/-!
# Bit strings as polynomials over GF(2)

The first bit of a string is its highest coefficient. Appending is a shift and
an addition, the exclusive or of two strings of one length is their sum.
-/

set_option autoImplicit false

namespace BitPolynomial

open Polynomial

def bit (b : Bool) : ZMod 2 := if b then 1 else 0

theorem bit_xor (a b : Bool) : bit (a ^^ b) = bit a + bit b := by
  cases a <;> cases b <;> decide

theorem bit_injective : Function.Injective bit := by
  intro a b hBits
  cases a <;> cases b <;> first | rfl | exact absurd hBits (by decide)

noncomputable def ofBits : List Bool → (ZMod 2)[X]
  | [] => 0
  | b :: bits => C (bit b) * X ^ bits.length + ofBits bits

@[simp] theorem ofBits_nil : ofBits [] = 0 := rfl

theorem ofBits_cons (b : Bool) (bits : List Bool) :
    ofBits (b :: bits) = C (bit b) * X ^ bits.length + ofBits bits := rfl

@[simp] theorem ofBits_false_cons (bits : List Bool) : ofBits (false :: bits) = ofBits bits := by
  simp [ofBits_cons, bit]

@[simp] theorem ofBits_true_cons (bits : List Bool) :
    ofBits (true :: bits) = X ^ bits.length + ofBits bits := by
  simp [ofBits_cons, bit]

theorem ofBits_append (front back : List Bool) :
    ofBits (front ++ back) = ofBits front * X ^ back.length + ofBits back := by
  induction front with
  | nil => simp
  | cons b bits ih =>
    rw [List.cons_append, ofBits_cons, ofBits_cons, ih, List.length_append, pow_add]
    ring

theorem ofBits_replicate_false (n : Nat) : ofBits (List.replicate n false) = 0 := by
  induction n with
  | zero => rfl
  | succ n ih => rw [List.replicate_succ, ofBits_false_cons, ih]

theorem ofBits_replicate_true (n : Nat) :
    ofBits (List.replicate n true) = ∑ i ∈ Finset.range n, X ^ i := by
  induction n with
  | zero => rfl
  | succ n ih =>
    rw [List.replicate_succ, ofBits_true_cons, ih, List.length_replicate, Finset.sum_range_succ,
      add_comm]

theorem ofBits_xor {bits bits' : List Bool} (hLength : bits.length = bits'.length) :
    ofBits (List.zipWith xor bits bits') = ofBits bits + ofBits bits' := by
  induction bits generalizing bits' with
  | nil =>
    obtain rfl := List.length_eq_zero_iff.mp hLength.symm
    simp
  | cons b bits ih =>
    cases bits' with
    | nil => cases hLength
    | cons b' bits' =>
      have hRest : bits.length = bits'.length := Nat.succ.inj hLength
      rw [List.zipWith_cons_cons, ofBits_cons, ofBits_cons, ofBits_cons, ih hRest, bit_xor, map_add,
        List.length_zipWith, hRest, Nat.min_self]
      ring

theorem degree_ofBits_lt (bits : List Bool) : (ofBits bits).degree < bits.length := by
  induction bits with
  | nil => simp
  | cons b bits ih =>
    rw [ofBits_cons, List.length_cons]
    have hSmall : ((bits.length : ℕ) : WithBot ℕ) < ((bits.length + 1 : ℕ) : WithBot ℕ) := by
      exact_mod_cast Nat.lt_succ_self _
    apply lt_of_le_of_lt (degree_add_le _ _)
    apply max_lt
    · exact lt_of_le_of_lt (degree_C_mul_X_pow_le _ _) hSmall
    · exact ih.trans hSmall

theorem ofBits_injective {bits bits' : List Bool} (hLength : bits.length = bits'.length)
    (hEq : ofBits bits = ofBits bits') : bits = bits' := by
  induction bits generalizing bits' with
  | nil => exact (List.length_eq_zero_iff.mp hLength.symm).symm
  | cons b bits ih =>
    cases bits' with
    | nil => cases hLength
    | cons b' bits' =>
      have hRest : bits.length = bits'.length := Nat.succ.inj hLength
      have hLeading : ∀ (c : Bool) (cs : List Bool), (ofBits (c :: cs)).coeff cs.length = bit c := by
        intro c cs
        rw [ofBits_cons, coeff_add, coeff_C_mul_X_pow, if_pos rfl,
          coeff_eq_zero_of_degree_lt (degree_ofBits_lt cs), add_zero]
      have hFirst : b = b' := by
        apply bit_injective
        rw [← hLeading b bits, ← hLeading b' bits', hEq, hRest]
      subst hFirst
      rw [ofBits_cons, ofBits_cons, hRest] at hEq
      rw [ih hRest (add_left_cancel hEq)]

/-! ## Weights -/

/-- The value at one counts the bits that are set. -/
theorem eval_one_ofBits (bits : List Bool) : (ofBits bits).eval 1 = (bits.count true : ZMod 2) := by
  induction bits with
  | nil => simp
  | cons b bits ih =>
    cases b with
    | false => simp [ih]
    | true =>
      rw [ofBits_true_cons, eval_add, eval_pow, eval_X, one_pow, ih, List.count_cons_self,
        Nat.cast_add, Nat.cast_one, add_comm]

theorem eq_replicate_false_of_count_zero {bits : List Bool} (hCount : bits.count true = 0) :
    bits = List.replicate bits.length false := by
  apply List.eq_replicate_length.mpr
  intro b hMem
  cases b with
  | false => rfl
  | true => exact absurd hMem (List.count_eq_zero.mp hCount)

theorem ofBits_eq_zero_iff (bits : List Bool) : ofBits bits = 0 ↔ bits.count true = 0 := by
  constructor
  · intro hZero
    have hAll : bits = List.replicate bits.length false := by
      apply ofBits_injective (List.length_replicate ..).symm
      rw [hZero, ofBits_replicate_false]
    rw [hAll, List.count_replicate]
    rfl
  · intro hCount
    rw [eq_replicate_false_of_count_zero hCount, ofBits_replicate_false]

/-- The first set bit of a string, and the string behind it. -/
theorem ofBits_of_count_succ {bits : List Bool} {n : Nat} (hCount : bits.count true = n + 1) :
    ∃ rest, rest.count true = n ∧ rest.length < bits.length ∧
      ofBits bits = X ^ rest.length + ofBits rest := by
  induction bits with
  | nil => cases hCount
  | cons b bits ih =>
    cases b with
    | false =>
      obtain ⟨rest, hRest, hShorter, hEq⟩ := ih (by simpa using hCount)
      refine ⟨rest, hRest, Nat.lt_succ_of_lt hShorter, ?_⟩
      rw [ofBits_false_cons, hEq]
    | true =>
      refine ⟨bits, ?_, Nat.lt_succ_self _, ofBits_true_cons bits⟩
      rw [List.count_cons_self] at hCount
      exact Nat.succ.inj hCount

/-! ## Machine words -/

/-- The bits of a word, most significant first. -/
def bitsOf {w : Nat} (x : BitVec w) : List Bool := (List.range w).map x.getMsbD

@[simp] theorem bitsOf_length {w : Nat} (x : BitVec w) : (bitsOf x).length = w := by
  simp [bitsOf]

theorem bitsOf_xor {w : Nat} (x y : BitVec w) :
    bitsOf (x ^^^ y) = List.zipWith xor (bitsOf x) (bitsOf y) := by
  apply List.ext_getElem
  · simp
  · intro i hLeft hRight
    simp [bitsOf]

theorem bitsOf_injective {w : Nat} {x y : BitVec w} (hEq : bitsOf x = bitsOf y) : x = y := by
  apply BitVec.eq_of_getMsbD_eq
  intro i hIndex
  have hBit := congrArg (fun bits => bits[i]?) hEq
  simpa [bitsOf, hIndex] using hBit

/-- Shifting by one multiplies by `X` and drops the most significant bit. -/
theorem ofBits_shiftLeft_one {w : Nat} (x : BitVec (w + 1)) :
    ofBits (bitsOf x) * X = C (bit x.msb) * X ^ (w + 1) + ofBits (bitsOf (x <<< 1)) := by
  have hFirst : bitsOf x = x.msb :: (List.range w).map fun i => x.getMsbD (i + 1) := by
    rw [bitsOf, List.range_succ_eq_map, List.map_cons, List.map_map]
    rfl
  have hLast : bitsOf (x <<< 1) = ((List.range w).map fun i => x.getMsbD (i + 1)) ++ [false] := by
    simp [bitsOf, List.range_succ]
  rw [hFirst, hLast, ofBits_cons, ofBits_append]
  simp only [List.length_map, List.length_range, List.length_singleton, pow_one, ofBits_false_cons,
    ofBits_nil, add_zero]
  ring

/-- A word in the upper part of a wider one. -/
theorem bitsOf_setWidth_shiftLeft {v : Nat} (x : BitVec v) (k : Nat) :
    bitsOf (x.setWidth (v + k) <<< k) = bitsOf x ++ List.replicate k false := by
  apply List.ext_getElem
  · simp
  · intro i hLeft hRight
    simp only [bitsOf_length] at hLeft
    rcases Nat.lt_or_ge i v with hUpper | hLower
    · have hWithin : v + k - 1 - i - k = v - 1 - i := by omega
      have hShifted : ¬v + k - 1 - i < k := by omega
      have hInside : v + k - 1 - i < v + k := by omega
      rw [List.getElem_append_left (by simpa using hUpper)]
      simp [bitsOf, BitVec.getMsbD, hUpper, hLeft, hWithin, hShifted, hInside]
    · have hShifted : v + k - 1 - i < k := by omega
      rw [List.getElem_append_right (by simpa using hLower)]
      simp [bitsOf, BitVec.getMsbD, hLeft, hShifted]

/-- A word in the lower part of a wider one. -/
theorem bitsOf_setWidth {v : Nat} (x : BitVec v) (k : Nat) :
    bitsOf (x.setWidth (k + v)) = List.replicate k false ++ bitsOf x := by
  apply List.ext_getElem
  · simp
  · intro i hLeft hRight
    simp only [bitsOf_length] at hLeft
    rcases Nat.lt_or_ge i k with hUpper | hLower
    · have hAbove : v ≤ k + v - 1 - i := by omega
      rw [List.getElem_append_left (by simpa using hUpper)]
      simp [bitsOf, BitVec.getMsbD, BitVec.getLsbD_of_ge x _ hAbove]
    · have hSame : k + v - 1 - i = v - 1 - (i - k) := by omega
      have hInside : i - k < v := by omega
      have hWithin : v - 1 - (i - k) < k + v := by omega
      rw [List.getElem_append_right (by simpa using hLower)]
      simp [bitsOf, BitVec.getMsbD, hLeft, hSame, hInside, hWithin]

end BitPolynomial

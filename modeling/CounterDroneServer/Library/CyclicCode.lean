import Mathlib.RingTheory.Coprime.Lemmas
import CounterDroneServer.Library.BitPolynomial

/-!
# Errors that a cyclic check detects

A received string passes the check of a generator together with the string sent
exactly if the generator divides their difference. What the generator's factors
say about such differences: their weight, and the bursts among them.
-/

set_option autoImplicit false

namespace CyclicCode

open Polynomial BitPolynomial

variable {g : (ZMod 2)[X]} {error : List Bool}

/-- A generator with the factor `X + 1` misses only errors of even weight. -/
theorem even_count_of_dvd (hParity : X + 1 ∣ g) (hDvd : g ∣ ofBits error) :
    Even (error.count true) := by
  obtain ⟨q, hq⟩ := hParity.trans hDvd
  have hEval := congrArg (eval 1) hq
  rw [eval_one_ofBits, eval_mul, eval_add, eval_X, eval_one, CharTwo.add_self_eq_zero,
    zero_mul] at hEval
  exact (ZMod.natCast_eq_zero_iff_even).mp hEval

theorem dvd_of_dvd_mul_X_pow (hX : IsCoprime g X) {p : (ZMod 2)[X]} {n : Nat}
    (hDvd : g ∣ p * X ^ n) : g ∣ p :=
  (IsCoprime.pow_right hX).dvd_of_dvd_mul_right hDvd

/-- Two flipped bits go undetected only at a multiple of the order of `X`. -/
theorem count_ne_two_of_dvd (hX : IsCoprime g X) {n : Nat}
    (hOrder : ∀ k, 0 < k → k < n → ¬g ∣ X ^ k + 1) (hLength : error.length ≤ n)
    (hDvd : g ∣ ofBits error) : error.count true ≠ 2 := by
  intro hCount
  obtain ⟨behindFirst, hOne, hFirst, hError⟩ := ofBits_of_count_succ hCount
  obtain ⟨behindSecond, hZero, hSecond, hTail⟩ := ofBits_of_count_succ hOne
  have hRest : ofBits behindSecond = 0 := (ofBits_eq_zero_iff behindSecond).mpr hZero
  obtain ⟨k, hk⟩ := Nat.exists_eq_add_of_lt hSecond
  have hSum : ofBits error = (X ^ (k + 1) + 1) * X ^ behindSecond.length := by
    rw [hError, hTail, hRest, hk, add_assoc behindSecond.length, pow_add]
    ring
  rw [hSum] at hDvd
  exact hOrder (k + 1) (Nat.succ_pos k) (by omega) (dvd_of_dvd_mul_X_pow hX hDvd)

theorem four_le_count_of_dvd (hParity : X + 1 ∣ g) (hX : IsCoprime g X) {n : Nat}
    (hOrder : ∀ k, 0 < k → k < n → ¬g ∣ X ^ k + 1) (hLength : error.length ≤ n)
    (hNonzero : error.count true ≠ 0) (hDvd : g ∣ ofBits error) : 4 ≤ error.count true := by
  have hTwo := count_ne_two_of_dvd hX hOrder hLength hDvd
  obtain ⟨half, hHalf⟩ := even_count_of_dvd hParity hDvd
  omega

/-- All bits that are set lie within `width` consecutive positions. -/
def IsBurst (width : Nat) (error : List Bool) : Prop :=
  ∃ start, ∀ i : Nat, error[i]? = some true → start ≤ i ∧ i < start + width

theorem isBurst_append (front back : Nat) (window : List Bool) :
    IsBurst window.length
      (List.replicate front false ++ (window ++ List.replicate back false)) := by
  refine ⟨front, fun i hGet => ?_⟩
  constructor
  · by_contra hBefore
    rw [List.getElem?_append_left (by simpa using hBefore)] at hGet
    simp [List.getElem?_replicate] at hGet
  · by_contra hBehind
    rw [List.getElem?_append_right (by simp; omega),
      List.getElem?_append_right (by simp; omega)] at hGet
    simp [List.getElem?_replicate] at hGet

theorem count_true_eq_zero {bits : List Bool} (h : ∀ i : Nat, bits[i]? ≠ some true) :
    bits.count true = 0 := by
  apply List.count_eq_zero.mpr
  intro hMem
  obtain ⟨i, hGet⟩ := List.mem_iff_getElem?.mp hMem
  exact h i hGet

/-- A burst no wider than the degree goes undetected only if nothing is flipped. -/
theorem count_eq_zero_of_burst (hX : IsCoprime g X) {width : Nat}
    (hDegree : (width : WithBot ℕ) ≤ g.degree) (hBurst : IsBurst width error) (hDvd : g ∣ ofBits error) : error.count true = 0 := by
  obtain ⟨start, hWindow⟩ := hBurst
  have hFront : (error.take start).count true = 0 := by
    apply count_true_eq_zero
    intro i hGet
    rw [List.getElem?_take] at hGet
    split at hGet
    · have := hWindow i hGet
      omega
    · cases hGet
  have hBack : ((error.drop start).drop width).count true = 0 := by
    apply count_true_eq_zero
    intro i hGet
    rw [List.getElem?_drop, List.getElem?_drop] at hGet
    have := hWindow _ hGet
    omega
  have hSplit : error = error.take start ++
      ((error.drop start).take width ++ (error.drop start).drop width) := by
    rw [List.take_append_drop, List.take_append_drop]
  have hInside : ofBits ((error.drop start).take width) = 0 := by
    rw [hSplit, ofBits_append, (ofBits_eq_zero_iff _).mpr hFront, zero_mul, zero_add, ofBits_append,
      (ofBits_eq_zero_iff _).mpr hBack, add_zero] at hDvd
    by_contra hNonzero
    have hSmall : (ofBits ((error.drop start).take width)).degree < g.degree := by
      apply lt_of_lt_of_le (degree_ofBits_lt _)
      apply le_trans _ hDegree
      exact_mod_cast List.length_take_le _ _
    exact hNonzero (eq_zero_of_dvd_of_degree_lt (dvd_of_dvd_mul_X_pow hX hDvd) hSmall)
  rw [hSplit, List.count_append, List.count_append, hFront, hBack,
    (ofBits_eq_zero_iff _).mp hInside]

end CyclicCode

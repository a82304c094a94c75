import Mathlib.Data.Int.Basic

/-!
# The machine type `int`

Thirty-two bits in two's complement. `wrap` is the value that an operation
leaves whose exact result may be out of range.
-/

set_option autoImplicit false

namespace MachineInt

def intMin : ℤ := -2147483648

def intMax : ℤ := 2147483647

def InRange (x : ℤ) : Prop := intMin ≤ x ∧ x ≤ intMax

instance (x : ℤ) : Decidable (InRange x) :=
  inferInstanceAs (Decidable (intMin ≤ x ∧ x ≤ intMax))

def wrap (x : ℤ) : ℤ := (x - intMin) % 4294967296 + intMin

def increment (x : ℤ) : ℤ := wrap (x + 1)

theorem wrap_inRange (x : ℤ) : InRange (wrap x) := by
  simp only [InRange, wrap, intMin, intMax]
  omega

theorem wrap_of_inRange {x : ℤ} (h : InRange x) : wrap x = x := by
  simp only [InRange, wrap, intMin, intMax] at h ⊢
  omega

theorem increment_of_lt {x : ℤ} (hLower : intMin ≤ x) (hUpper : x < intMax) :
    increment x = x + 1 :=
  wrap_of_inRange ⟨by omega, by omega⟩

/-- An increment that leaves no negative value did not overflow. -/
theorem increment_of_nonneg {x : ℤ} (hLower : 0 ≤ x) (hUpper : x ≤ intMax)
    (hNext : 0 ≤ increment x) : increment x = x + 1 := by
  simp only [increment, wrap, intMin, intMax] at hUpper hNext ⊢
  omega

end MachineInt

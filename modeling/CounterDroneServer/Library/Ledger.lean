import Mathlib.Logic.Function.Basic

/-!
# Resources and their holders

Each resource that is in use has one holder, and a holder has at most one resource.
The books agree when what the holders believe to have is exactly what is in use: no
resource is leaked and none is used after its release.
-/

set_option autoImplicit false

namespace Ledger

universe u v

variable {κ : Type u} {η : Type v}

def Agrees (holder : κ → Option η) (held : η → Option κ) : Prop :=
  ∀ k x, holder k = some x ↔ held x = some k

theorem agrees_empty : Agrees (fun _ : κ => (none : Option η)) fun _ => none :=
  fun _ _ => ⟨nofun, nofun⟩

variable {holder : κ → Option η} {held : η → Option κ}

theorem Agrees.none_of_none (h : Agrees holder held) (hNone : ∀ x, held x = none) (k : κ) :
    holder k = none := by
  rw [Option.eq_none_iff_forall_ne_some]
  intro x hHolder
  cases (hNone x).symm.trans ((h k x).mp hHolder)

variable [DecidableEq κ] [DecidableEq η]

/-- A free resource goes to a holder that has none. -/
theorem Agrees.acquire (h : Agrees holder held) {k : κ} {x : η} (hFree : holder k = none)
    (hEmpty : held x = none) :
    Agrees (Function.update holder k (some x)) (Function.update held x (some k)) := by
  intro j y
  rcases eq_or_ne j k with rfl | hResource
  · rw [Function.update_self]
    rcases eq_or_ne y x with rfl | hHolder
    · rw [Function.update_self]
      exact iff_of_true rfl rfl
    · rw [Function.update_of_ne hHolder]
      constructor
      · intro hSame
        exact absurd (Option.some.inj hSame).symm hHolder
      · intro hHeld
        cases hFree.symm.trans ((h j y).mpr hHeld)
  · rw [Function.update_of_ne hResource]
    rcases eq_or_ne y x with rfl | hHolder
    · rw [Function.update_self]
      constructor
      · intro hHeld
        cases hEmpty.symm.trans ((h j y).mp hHeld)
      · intro hSame
        exact absurd (Option.some.inj hSame).symm hResource
    · rw [Function.update_of_ne hHolder]
      exact h j y

/-- A holder gives up what it has. -/
theorem Agrees.release (h : Agrees holder held) {k : κ} {x : η} (hHeld : held x = some k) :
    Agrees (Function.update holder k none) (Function.update held x none) := by
  intro j y
  rcases eq_or_ne j k with rfl | hResource
  · rw [Function.update_self]
    rcases eq_or_ne y x with rfl | hHolder
    · rw [Function.update_self]
      exact ⟨nofun, nofun⟩
    · rw [Function.update_of_ne hHolder]
      constructor
      · exact nofun
      · intro hOther
        have hSame := ((h j y).mpr hOther).symm.trans ((h j x).mpr hHeld)
        exact absurd (Option.some.inj hSame) hHolder
  · rw [Function.update_of_ne hResource]
    rcases eq_or_ne y x with rfl | hHolder
    · rw [Function.update_self]
      constructor
      · intro hOther
        have hSame := ((h j y).mp hOther).symm.trans hHeld
        exact absurd (Option.some.inj hSame) hResource
      · exact nofun
    · rw [Function.update_of_ne hHolder]
      exact h j y

end Ledger

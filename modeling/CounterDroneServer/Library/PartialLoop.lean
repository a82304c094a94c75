import Mathlib.Logic.Basic

/-!
# Loops that need not end

The body of the loop goes on in a new state or returns. A run is bounded by
fuel; more fuel changes no result, so the result does not depend on it.
-/

set_option autoImplicit false

universe u v

structure PartialLoop (σ : Type u) (β : Type v) where
  body : σ → σ ⊕ β

namespace PartialLoop

variable {σ : Type u} {β : Type v} (L : PartialLoop σ β)

def runFuel : Nat → σ → Option β
  | 0, _ => none
  | fuel + 1, s =>
    match L.body s with
    | .inl next => runFuel fuel next
    | .inr result => some result

def Returns (s : σ) (result : β) : Prop := ∃ fuel, L.runFuel fuel s = some result

variable {L} {s next : σ} {result result' : β}

theorem runFuel_mono {fuel fuel' : Nat} (hMore : fuel ≤ fuel')
    (h : L.runFuel fuel s = some result) : L.runFuel fuel' s = some result := by
  induction fuel generalizing s fuel' with
  | zero => cases h
  | succ fuel ih =>
    obtain ⟨fuel', rfl⟩ : ∃ k, fuel' = k + 1 := ⟨fuel' - 1, by omega⟩
    rw [runFuel] at h ⊢
    cases hBody : L.body s with
    | inl next =>
      rw [hBody] at h
      exact ih (Nat.le_of_succ_le_succ hMore) h
    | inr value =>
      rw [hBody] at h
      exact h

theorem Returns.unique (h : L.Returns s result) (h' : L.Returns s result') : result = result' := by
  obtain ⟨fuel, hRun⟩ := h
  obtain ⟨fuel', hRun'⟩ := h'
  have hMore := runFuel_mono (Nat.le_add_right fuel fuel') hRun
  have hMore' := runFuel_mono (Nat.le_add_left fuel' fuel) hRun'
  exact Option.some.inj (hMore.symm.trans hMore')

theorem returns_of_inr (hBody : L.body s = .inr result) : L.Returns s result := by
  refine ⟨1, ?_⟩
  rw [runFuel, hBody]

theorem returns_of_inl (hBody : L.body s = .inl next) (h : L.Returns next result) :
    L.Returns s result := by
  obtain ⟨fuel, hRun⟩ := h
  refine ⟨fuel + 1, ?_⟩
  rw [runFuel, hBody]
  exact hRun

/-- An attempt that may fail is made again, as often as the list has failures. -/
theorem returns_of_attempts {enter attempt done : List Bool → σ}
    (hEnter : ∀ failures, L.body (enter failures) = .inl (attempt failures))
    (hAttempt : ∀ failures, L.body (attempt failures) =
      if failures.headD false then .inl (enter failures.tail) else .inl (done failures.tail))
    (hDone : ∀ failures, L.Returns (done failures) result) (failures : List Bool) :
    L.Returns (enter failures) result := by
  induction failures with
  | nil =>
    apply returns_of_inl (hEnter [])
    exact returns_of_inl (hAttempt []) (hDone [])
  | cons fails failures ih =>
    apply returns_of_inl (hEnter (fails :: failures))
    have hTry := hAttempt (fails :: failures)
    cases fails with
    | true => exact returns_of_inl hTry ih
    | false => exact returns_of_inl hTry (hDone failures)

/-- A loop that keeps a property by going on never returns from a state with it. -/
theorem not_returns (Inv : σ → Prop) (hBody : ∀ s, Inv s → ∃ next, L.body s = .inl next ∧ Inv next)
    (h : Inv s) : ¬L.Returns s result := by
  rintro ⟨fuel, hRun⟩
  induction fuel generalizing s with
  | zero => cases hRun
  | succ fuel ih =>
    obtain ⟨next, hNext, hInv⟩ := hBody s h
    rw [runFuel, hNext] at hRun
    exact ih hInv hRun

end PartialLoop

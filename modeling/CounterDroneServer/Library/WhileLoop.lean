import Mathlib.Logic.Function.Iterate

/-!
# While loops with a variant

A loop is a guard, a body and a rank that the body lowers whenever the guard
holds. The rank bounds the number of rounds, so the loop is run by structural
recursion and still satisfies the usual unrolling equation.
-/

set_option autoImplicit false

universe u v

/-- `while (guard s) s := body s`, together with the variant that ends it. -/
structure WhileLoop (σ : Type u) where
  guard : σ → Bool
  body : σ → σ
  rank : σ → Nat
  rank_body : ∀ s, guard s = true → rank (body s) < rank s

namespace WhileLoop

variable {σ : Type u} {τ : Type v}

/-- At most `fuel` rounds of the loop. -/
def runFuel (L : WhileLoop σ) : Nat → σ → σ
  | 0, s => s
  | fuel + 1, s => if L.guard s then L.runFuel fuel (L.body s) else s

def run (L : WhileLoop σ) (s : σ) : σ := L.runFuel (L.rank s) s

theorem runFuel_eq_of_le (L : WhileLoop σ) (fuel : Nat) (s : σ) (h : L.rank s ≤ fuel) :
    L.runFuel fuel s = L.run s := by
  rw [run]
  generalize hRank : L.rank s = rank at h
  induction rank using Nat.strongRecOn generalizing s fuel with
  | ind rank ih =>
    cases hGuard : L.guard s with
    | false => cases fuel <;> cases rank <;> simp [runFuel, hGuard]
    | true =>
      have hLower := L.rank_body s hGuard
      obtain ⟨rank, rfl⟩ : ∃ k, rank = k + 1 := ⟨rank - 1, by omega⟩
      obtain ⟨fuel, rfl⟩ : ∃ k, fuel = k + 1 := ⟨fuel - 1, by omega⟩
      simp only [runFuel, hGuard, if_true]
      have hFuel := ih (L.rank (L.body s)) (by omega) fuel (L.body s) rfl (by omega)
      have hRankFuel := ih (L.rank (L.body s)) (by omega) rank (L.body s) rfl (by omega)
      rw [hFuel, hRankFuel]

/-- The unrolling equation. -/
theorem run_eq (L : WhileLoop σ) (s : σ) :
    L.run s = if L.guard s then L.run (L.body s) else s := by
  rw [← L.runFuel_eq_of_le (L.rank s + 1) s (by omega), runFuel]
  cases hGuard : L.guard s with
  | false => rfl
  | true =>
    have hLower := L.rank_body s hGuard
    simp only [if_true]
    exact L.runFuel_eq_of_le _ _ (by omega)

theorem run_of_guard (L : WhileLoop σ) {s : σ} (h : L.guard s = true) :
    L.run s = L.run (L.body s) := by
  rw [run_eq, if_pos h]

theorem run_of_not_guard (L : WhileLoop σ) {s : σ} (h : L.guard s = false) : L.run s = s := by
  rw [run_eq, h, if_neg Bool.false_ne_true]

/-- Induction along the rounds of one execution. -/
theorem induction (L : WhileLoop σ) {motive : σ → Prop}
    (stop : ∀ s, L.guard s = false → motive s)
    (round : ∀ s, L.guard s = true → motive (L.body s) → motive s) (s : σ) : motive s := by
  generalize hRank : L.rank s = rank
  induction rank using Nat.strongRecOn generalizing s with
  | ind rank ih =>
    cases hGuard : L.guard s with
    | false => exact stop s hGuard
    | true =>
      have hLower := L.rank_body s hGuard
      exact round s hGuard (ih _ (by omega) (L.body s) rfl)

/-- The loop ends after finitely many rounds, in the state that `run` gives. -/
theorem exists_rounds (L : WhileLoop σ) (s : σ) :
    ∃ rounds, L.guard (L.body^[rounds] s) = false ∧ L.run s = L.body^[rounds] s := by
  induction s using L.induction with
  | stop s hGuard => exact ⟨0, hGuard, L.run_of_not_guard hGuard⟩
  | round s hGuard ih =>
    obtain ⟨rounds, hStop, hRun⟩ := ih
    refine ⟨rounds + 1, hStop, ?_⟩
    rw [L.run_of_guard hGuard, hRun, Function.iterate_succ_apply]

theorem guard_run (L : WhileLoop σ) (s : σ) : L.guard (L.run s) = false := by
  obtain ⟨rounds, hStop, hRun⟩ := L.exists_rounds s
  rw [hRun, hStop]

/-- The invariant rule. -/
theorem run_invariant (L : WhileLoop σ) (Inv : σ → Prop)
    (hBody : ∀ s, L.guard s = true → Inv s → Inv (L.body s)) (s : σ) (h : Inv s) :
    Inv (L.run s) := by
  induction s using L.induction with
  | stop s hGuard => rwa [L.run_of_not_guard hGuard]
  | round s hGuard ih =>
    rw [L.run_of_guard hGuard]
    exact ih (hBody s hGuard h)

/-- Two loops whose rounds correspond under `f` end in corresponding states. -/
theorem run_map (L : WhileLoop σ) (M : WhileLoop τ) (f : σ → τ)
    (hGuard : ∀ s, M.guard (f s) = L.guard s)
    (hBody : ∀ s, L.guard s = true → M.body (f s) = f (L.body s)) (s : σ) :
    M.run (f s) = f (L.run s) := by
  induction s using L.induction with
  | stop s h => rw [L.run_of_not_guard h, M.run_of_not_guard (by rw [hGuard, h])]
  | round s h ih => rw [L.run_of_guard h, M.run_of_guard (by rw [hGuard, h]), hBody s h, ih]

/-- The loop with a record of the states its rounds start in. -/
def observing {γ : Type v} (L : WhileLoop σ) (record : γ → σ → γ) : WhileLoop (σ × γ) where
  guard s := L.guard s.1
  body s := (L.body s.1, record s.2 s.1)
  rank s := L.rank s.1
  rank_body s h := L.rank_body s.1 h

theorem observing_run_fst {γ : Type v} (L : WhileLoop σ) (record : γ → σ → γ) (s : σ × γ) :
    ((L.observing record).run s).1 = L.run s.1 :=
  ((L.observing record).run_map L Prod.fst (fun _ => rfl) (fun _ _ => rfl) s).symm

/-- The potential rule: where each round pays its work out of a potential, the work of
all rounds is paid out of the potential at the start. -/
theorem work_run_le (L : WhileLoop σ) {Inv : σ → Prop} (work potential : σ → Nat)
    (hBody : ∀ s, L.guard s = true → Inv s →
      Inv (L.body s) ∧ work s + potential (L.body s) ≤ potential s)
    (s : σ) (h : Inv s) (spent : Nat) :
    ((L.observing fun spent s => spent + work s).run (s, spent)).2 + potential (L.run s) ≤
      spent + potential s := by
  induction s using L.induction generalizing spent with
  | stop s hGuard =>
    have hStop := (L.observing fun spent s => spent + work s).run_of_not_guard
      (show (L.observing _).guard (s, spent) = false from hGuard)
    exact Nat.le_of_eq (by rw [hStop, L.run_of_not_guard hGuard])
  | round s hGuard ih =>
    obtain ⟨hInv, hPaid⟩ := hBody s hGuard h
    have hRound := (L.observing fun spent s => spent + work s).run_of_guard
      (show (L.observing _).guard (s, spent) = true from hGuard)
    have hRest := ih hInv (spent + work s)
    rw [hRound, L.run_of_guard hGuard]
    exact Nat.le_trans hRest (by omega)

end WhileLoop

import Mathlib.Data.List.Basic
import Mathlib.Logic.Function.Basic

/-!
# Cells of a ring

A ring of `m` cells is used by an unbounded counter modulo `m`. Counters less
than one lap apart use different cells, so the cells between two counters are
determined by their remainders.
-/

set_option autoImplicit false

namespace RingBuffer

universe u

theorem mod_ne_of_lt {m i j : Nat} (hLower : i < j) (hUpper : j < i + m) : i % m ≠ j % m := by
  intro h
  have hDvd : (j - i) % m = 0 := Nat.sub_mod_eq_zero_of_mod_eq h.symm
  rw [Nat.mod_eq_of_lt (by omega)] at hDvd
  omega

theorem mod_eq_iff {m i j : Nat} (hLower : i ≤ j) (hUpper : j < i + m) : i % m = j % m ↔ i = j := by
  constructor
  · intro h
    by_contra hNe
    exact mod_ne_of_lt (Nat.lt_of_le_of_ne hLower hNe) hUpper h
  · exact congrArg (· % m)

/-- The cells are accessed in turn, `count` times so far, and `last` has the number of the
last access to each: a cell whose turn comes was last accessed a lap before. -/
def LapBehind (m count : Nat) (last : Nat → Nat) : Prop :=
  ∀ next, count ≤ next → last (next % m) ≤ next + 1 - m

theorem LapBehind.mono {m count count' : Nat} {last : Nat → Nat} (h : LapBehind m count last)
    (hLater : count ≤ count') : LapBehind m count' last :=
  fun next hNext => h next (Nat.le_trans hLater hNext)

theorem LapBehind.access {m count : Nat} {last : Nat → Nat} (h : LapBehind m count last) :
    LapBehind m (count + 1) (Function.update last (count % m) (count + 1)) := by
  intro next hNext
  by_cases hCell : next % m = count % m
  · rw [hCell, Function.update_self]
    have hLap : ¬next < count + m := fun hNear => mod_ne_of_lt hNext hNear hCell.symm
    omega
  · rw [Function.update_of_ne hCell]
    exact h next (Nat.le_of_succ_le hNext)

theorem distance_mod {m i j : Nat} (hLower : i ≤ j) (hUpper : j < i + m) :
    (j % m + m - i % m) % m = j - i := by
  have hPositive : 0 < m := by omega
  have hi := Nat.mod_lt i hPositive
  have hj := Nat.div_add_mod j m
  have hi' := Nat.div_add_mod i m
  have hShift : j % m + m - i % m + m * (j / m) = (j - i) + m * (i / m + 1) := by
    rw [Nat.mul_add, Nat.mul_one]
    omega
  have h := congrArg (· % m) hShift
  rw [Nat.add_mul_mod_self_left, Nat.add_mul_mod_self_left] at h
  rw [h, Nat.mod_eq_of_lt (by omega)]

/-- The cells from `head` up to `tail` in ring order. -/
def cells (m head tail : Nat) : List Nat :=
  (List.range ((tail + m - head) % m)).map fun i => (head + i) % m

theorem cells_mod {m i j : Nat} (hLower : i ≤ j) (hUpper : j < i + m) :
    cells m (i % m) (j % m) = (List.range (j - i)).map fun k => (i + k) % m := by
  rw [cells, distance_mod hLower hUpper]
  simp only [Nat.mod_add_mod]

theorem mem_cells_mod {m i j : Nat} (hLower : i ≤ j) (hUpper : j < i + m) (c : Nat) :
    c ∈ cells m (i % m) (j % m) ↔ ∃ k, i ≤ k ∧ k < j ∧ k % m = c := by
  rw [cells_mod hLower hUpper, List.mem_map]
  constructor
  · rintro ⟨k, hk, rfl⟩
    rw [List.mem_range] at hk
    exact ⟨i + k, by omega, by omega, rfl⟩
  · rintro ⟨k, hik, hkj, rfl⟩
    refine ⟨k - i, List.mem_range.mpr (by omega), ?_⟩
    rw [Nat.add_sub_cancel' hik]

theorem length_cells_mod {m i j : Nat} (hLower : i ≤ j) (hUpper : j < i + m) :
    (cells m (i % m) (j % m)).length = j - i := by
  rw [cells_mod hLower hUpper, List.length_map, List.length_range]

/-! ## Two cells in place of two counters -/

/-- The counter from `head` up that has `tail` as its remainder. -/
theorem exists_counter {m head tail : Nat} (hHead : head < m) (hTail : tail < m) :
    ∃ j, head ≤ j ∧ j < head + m ∧ j % m = tail := by
  rcases Nat.lt_or_ge tail head with hWrapped | hOrdered
  · refine ⟨tail + m, by omega, by omega, ?_⟩
    rw [Nat.add_mod_right, Nat.mod_eq_of_lt hTail]
  · exact ⟨tail, hOrdered, by omega, Nat.mod_eq_of_lt hTail⟩

theorem exists_counter_of_ne {m head tail : Nat} (hHead : head < m) (hTail : tail < m)
    (hNe : head ≠ tail) : ∃ j, head < j ∧ j < head + m ∧ j % m = tail := by
  obtain ⟨j, hLower, hUpper, rfl⟩ := exists_counter hHead hTail
  refine ⟨j, Nat.lt_of_le_of_ne hLower ?_, hUpper, rfl⟩
  rintro rfl
  exact hNe (Nat.mod_eq_of_lt hHead).symm

section Ends

variable {m head tail : Nat} (hHead : head < m) (hTail : tail < m)

include hHead

theorem cells_self : cells m head head = [] := by
  have h := cells_mod (Nat.le_refl head) (Nat.lt_add_of_pos_right (Nat.zero_lt_of_lt hHead))
  rwa [Nat.mod_eq_of_lt hHead, Nat.sub_self] at h

include hTail

theorem length_cells_lt : (cells m head tail).length < m := by
  obtain ⟨j, hLower, hUpper, rfl⟩ := exists_counter hHead hTail
  have hLength := length_cells_mod hLower hUpper
  rw [Nat.mod_eq_of_lt hHead] at hLength
  omega

theorem cells_eq_cons (hNe : head ≠ tail) :
    cells m head tail = head :: cells m ((head + 1) % m) tail := by
  obtain ⟨j, hLess, hUpper, rfl⟩ := exists_counter_of_ne hHead hTail hNe
  have hAll := cells_mod (Nat.le_of_lt hLess) hUpper
  have hRest := cells_mod hLess (by omega : j < head + 1 + m)
  rw [Nat.mod_eq_of_lt hHead] at hAll
  rw [hAll, hRest, ← Nat.succ_sub_succ j head, Nat.succ_sub hLess, List.range_succ_eq_map,
    List.map_cons, List.map_map, Nat.add_zero, Nat.mod_eq_of_lt hHead]
  congr 1
  apply List.map_congr_left
  intro k _
  rw [Function.comp_apply, Nat.add_succ, Nat.succ_add]

theorem cells_concat (hNe : (tail + 1) % m ≠ head) :
    cells m head ((tail + 1) % m) = cells m head tail ++ [tail] := by
  obtain ⟨j, hLower, hUpper, rfl⟩ := exists_counter hHead hTail
  rw [Nat.mod_add_mod] at hNe ⊢
  have hRoom : j + 1 < head + m := by
    refine Nat.lt_of_le_of_ne hUpper ?_
    intro hLap
    rw [hLap, Nat.add_mod_right, Nat.mod_eq_of_lt hHead] at hNe
    exact hNe rfl
  have hOld := cells_mod hLower hUpper
  have hNew := cells_mod (Nat.le_succ_of_le hLower) hRoom
  rw [Nat.mod_eq_of_lt hHead] at hOld hNew
  rw [hOld, hNew, Nat.succ_sub hLower, List.range_succ, List.map_append, List.map_singleton,
    Nat.add_sub_cancel' hLower]

theorem length_cells_of_full (hNext : (tail + 1) % m = head) :
    (cells m head tail).length + 1 = m := by
  obtain ⟨j, hLower, hUpper, rfl⟩ := exists_counter hHead hTail
  have hLength := length_cells_mod hLower hUpper
  rw [Nat.mod_eq_of_lt hHead] at hLength
  have hLap : ¬j + 1 < head + m := by
    intro hWithin
    apply mod_ne_of_lt (Nat.lt_succ_of_le hLower) hWithin
    rwa [Nat.mod_add_mod, eq_comm, ← Nat.mod_eq_of_lt hHead] at hNext
  omega

theorem tail_notMem_cells : tail ∉ cells m head tail := by
  obtain ⟨j, hLower, hUpper, rfl⟩ := exists_counter hHead hTail
  have hMem := mem_cells_mod hLower hUpper (j % m)
  rw [Nat.mod_eq_of_lt hHead] at hMem
  rw [hMem]
  rintro ⟨k, hk, hkj, hSame⟩
  exact mod_ne_of_lt hkj (by omega) hSame

theorem head_notMem_cells (hNe : head ≠ tail) : head ∉ cells m ((head + 1) % m) tail := by
  obtain ⟨j, hLess, hUpper, rfl⟩ := exists_counter_of_ne hHead hTail hNe
  rw [mem_cells_mod hLess (by omega)]
  rintro ⟨k, hk, hkj, hSame⟩
  rw [← Nat.mod_eq_of_lt hHead] at hSame
  exact mod_ne_of_lt hk (by omega) hSame.symm

end Ends

/-- A list whose entries from `i` to `j` are kept in the cells is read off them. -/
theorem map_cells_eq_drop {α : Type u} {m i : Nat} {xs : List α} (cell : Nat → α)
    (hLower : i ≤ xs.length) (hUpper : xs.length < i + m)
    (hCells : ∀ k, i ≤ k → k < xs.length → xs[k]? = some (cell (k % m))) :
    (cells m (i % m) (xs.length % m)).map cell = xs.drop i := by
  rw [cells_mod hLower hUpper, List.map_map]
  apply List.ext_getElem?
  intro k
  rw [List.getElem?_map, List.getElem?_drop]
  by_cases hk : k < xs.length - i
  · rw [List.getElem?_range hk, hCells (i + k) (by omega) (by omega)]
    rfl
  · rw [List.getElem?_eq_none (by rw [List.length_range]; omega),
      List.getElem?_eq_none (by omega)]
    rfl

theorem prefix_concat_of_getElem? {α : Type u} {front xs : List α} {x : α} (h : front <+: xs)
    (hNext : xs[front.length]? = some x) : front ++ [x] <+: xs := by
  obtain ⟨rest, rfl⟩ := h
  cases rest with
  | nil => simp at hNext
  | cons y rest =>
    rw [List.getElem?_append_right (Nat.le_refl _), Nat.sub_self] at hNext
    cases hNext
    exact ⟨rest, by rw [List.append_assoc]; rfl⟩

end RingBuffer

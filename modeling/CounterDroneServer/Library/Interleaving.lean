import Mathlib.Data.List.Basic

/-!
# Interleavings of a family of lists

A merged list is described by its entries tagged with their source. Projecting
the tagged list to one source gives that source's list, in its own order.
-/

set_option autoImplicit false

namespace Interleaving

universe u v

variable {ι : Type u} {α : Type v}

def tag (i : ι) (xs : List α) : List (ι × α) := xs.map fun x => (i, x)

theorem map_snd_tag (i : ι) (xs : List α) : (tag i xs).map Prod.snd = xs := by
  rw [tag, List.map_map]
  exact List.map_id xs

variable [DecidableEq ι]

def projection (i : ι) (tagged : List (ι × α)) : List α :=
  (tagged.filter fun e => e.1 = i).map Prod.snd

theorem mem_projection_iff (i : ι) (x : α) (tagged : List (ι × α)) :
    x ∈ projection i tagged ↔ (i, x) ∈ tagged := by
  rw [projection, List.mem_map]
  constructor
  · rintro ⟨⟨source, value⟩, hMem, rfl⟩
    obtain ⟨hMem, hSource⟩ := List.mem_filter.mp hMem
    rwa [← of_decide_eq_true hSource]
  · intro hMem
    exact ⟨(i, x), List.mem_filter.mpr ⟨hMem, decide_eq_true rfl⟩, rfl⟩

theorem projection_append (i : ι) (front back : List (ι × α)) :
    projection i (front ++ back) = projection i front ++ projection i back := by
  rw [projection, List.filter_append, List.map_append]
  rfl

theorem projection_tag (i j : ι) (xs : List α) :
    projection i (tag j xs) = if i = j then xs else [] := by
  induction xs with
  | nil => simp [projection, tag]
  | cons x xs ih =>
    have hSplit : tag j (x :: xs) = [(j, x)] ++ tag j xs := rfl
    rw [hSplit, projection_append, ih]
    by_cases hSource : i = j
    · simp [projection, hSource]
    · simp [projection, hSource, Ne.symm hSource]

theorem projection_append_tag_self (i : ι) (tagged : List (ι × α)) (xs : List α) :
    projection i (tagged ++ tag i xs) = projection i tagged ++ xs := by
  rw [projection_append, projection_tag, if_pos rfl]

theorem projection_append_tag_of_ne {i j : ι} (hSource : i ≠ j) (tagged : List (ι × α))
    (xs : List α) : projection i (tagged ++ tag j xs) = projection i tagged := by
  rw [projection_append, projection_tag, if_neg hSource, List.append_nil]

theorem projection_mono (i : ι) {front tagged : List (ι × α)} (h : front <+: tagged) :
    projection i front <+: projection i tagged := by
  obtain ⟨back, rfl⟩ := h
  exact ⟨projection i back, (projection_append i front back).symm⟩

end Interleaving

import Mathlib.Data.List.Basic

/-!
# Keyed histories

A history is a list of entries, each of which has a key. `latest k` is the last
entry of key `k`, what a map holds that overwrites the entry of its key each
time. `SamePerKey` relates histories that list the entries of each key alike.
-/

set_option autoImplicit false

namespace KeyedHistory

universe u v w

variable {κ : Type u} {α : Type v} [DecidableEq κ] (key : α → κ)

def entriesOf (k : κ) (history : List α) : List α := history.filter fun entry => key entry = k

def latest (k : κ) (history : List α) : Option α := (entriesOf key k history).getLast?

def SamePerKey (history history' : List α) : Prop :=
  ∀ k, entriesOf key k history = entriesOf key k history'

@[simp] theorem latest_nil (k : κ) : latest key k [] = none := rfl

theorem latest_append_singleton (k : κ) (history : List α) (entry : α) :
    latest key k (history ++ [entry]) =
      if key entry = k then some entry else latest key k history := by
  rw [latest, entriesOf, List.filter_append]
  split
  · next hKey => simp [hKey]
  · next hKey => simp [hKey, latest, entriesOf]

theorem latest_isSome_iff (k : κ) (history : List α) :
    (latest key k history).isSome ↔ k ∈ history.map key := by
  rw [latest, List.getLast?_isSome, entriesOf, Ne, List.filter_eq_nil_iff, List.mem_map]
  simp

theorem SamePerKey.latest_eq {history history' : List α} (h : SamePerKey key history history')
    (k : κ) : latest key k history = latest key k history' :=
  congrArg List.getLast? (h k)

/-- Neighbours of different keys may change places. -/
theorem samePerKey_swap (front back : List α) {entry entry' : α} (hKeys : key entry ≠ key entry') :
    SamePerKey key (front ++ entry :: entry' :: back) (front ++ entry' :: entry :: back) := by
  intro k
  simp only [entriesOf, List.filter_append, List.filter_cons]
  rcases eq_or_ne (key entry) k with rfl | hEntry
  · simp [hKeys.symm]
  · simp [hEntry]

/-! ## Histories with one entry for each key -/

theorem entriesOf_eq_nil {k : κ} {history : List α} (h : k ∉ history.map key) :
    entriesOf key k history = [] := by
  refine List.filter_eq_nil_iff.mpr fun entry hMem hKey => h ?_
  exact List.mem_map.mpr ⟨entry, hMem, of_decide_eq_true hKey⟩

theorem entriesOf_of_mem {history : List α} (hKeys : (history.map key).Nodup) {entry : α}
    (hMem : entry ∈ history) : entriesOf key (key entry) history = [entry] := by
  induction history with
  | nil => cases hMem
  | cons first rest ih =>
    obtain ⟨hFirst, hRest⟩ := List.nodup_cons.mp hKeys
    rcases List.mem_cons.mp hMem with rfl | hLater
    · rw [entriesOf, List.filter_cons_of_pos (by simp)]
      exact congrArg _ (entriesOf_eq_nil key hFirst)
    · have hKey : key first ≠ key entry := by
        intro hEq
        exact hFirst (hEq ▸ List.mem_map_of_mem hLater)
      rw [entriesOf, List.filter_cons_of_neg (by simpa using hKey)]
      exact ih hRest hLater

/-- What sees the entries of one key only. -/
theorem filterMap_entriesOf {β : Type w} {k : κ} {f : α → Option β}
    (hOther : ∀ entry, key entry ≠ k → f entry = none) (history : List α) :
    history.filterMap f = (entriesOf key k history).filterMap f := by
  rw [entriesOf, List.filterMap_filter]
  refine List.filterMap_congr fun entry _ => ?_
  by_cases hKey : key entry = k
  · simp [hKey]
  · simp [hKey, hOther entry hKey]

end KeyedHistory

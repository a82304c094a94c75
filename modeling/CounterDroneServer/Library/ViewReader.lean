import Mathlib.Data.List.Basic

/-!
# Readers of a view that record what they touch

A view is a window on a buffer that can only lose a prefix. A reader is a
computation on it that fails where it would leave the window; every access is
recorded by the end of its range, an offset from the start of the first view,
also the one that fails.
-/

set_option autoImplicit false

universe u

structure View (β : Type u) where
  offset : Nat := 0
  rest : List β
  touched : List Nat := []

namespace View

variable {β : Type u}

/-- The end of the window. -/
def size (view : View β) : Nat := view.offset + view.rest.length

def touch (view : View β) (n : Nat) : View β :=
  { view with touched := view.touched ++ [view.offset + n] }

end View

structure ViewReader (β α : Type u) where
  run : View β → Option α × View β

namespace ViewReader

variable {β α γ : Type u}

instance : Monad (ViewReader β) where
  pure a := ⟨fun view => (some a, view)⟩
  bind m k := ⟨fun view =>
    match m.run view with
    | (some a, view') => (k a).run view'
    | (none, view') => (none, view')⟩

def readAt (i : Nat) : ViewReader β β := ⟨fun view => (view.rest[i]?, view.touch (i + 1))⟩

def readRange (n : Nat) : ViewReader β (List β) := ⟨fun view =>
  (if n ≤ view.rest.length then some (view.rest.take n) else none, view.touch n)⟩

def removePrefix (n : Nat) : ViewReader β PUnit := ⟨fun view =>
  if n ≤ view.rest.length then
    (some ⟨⟩, { view.touch n with offset := view.offset + n, rest := view.rest.drop n })
  else (none, view.touch n)⟩

@[simp] theorem pure_run (a : α) (view : View β) :
    (pure a : ViewReader β α).run view = (some a, view) := rfl

theorem bind_run_some {m : ViewReader β α} {view view' : View β} {a : α}
    (hRun : m.run view = (some a, view')) (k : α → ViewReader β γ) :
    (m >>= k).run view = (k a).run view' := by
  simp only [bind, hRun]

theorem bind_run_none {m : ViewReader β α} {view view' : View β}
    (hRun : m.run view = (none, view')) (k : α → ViewReader β γ) :
    (m >>= k).run view = (none, view') := by
  simp only [bind, hRun]

theorem removePrefix_run {n : Nat} {view : View β} (hSize : n ≤ view.rest.length) :
    (removePrefix n).run view =
      (some ⟨⟩, ⟨view.offset + n, view.rest.drop n, view.touched ++ [view.offset + n]⟩) :=
  if_pos hSize

theorem removePrefix_run_short {n : Nat} {view : View β} (hShort : ¬n ≤ view.rest.length) :
    (removePrefix n).run view = (none, view.touch n) :=
  if_neg hShort

/-- The bytes at the front of the view, and the view behind them. -/
def takeField (n : Nat) : ViewReader β (List β) := do
  let bytes ← readRange n
  removePrefix n
  return bytes

theorem takeField_run {n : Nat} {view : View β} (hSize : n ≤ view.rest.length) :
    (takeField n).run view = (some (view.rest.take n),
      ⟨view.offset + n, view.rest.drop n,
        view.touched ++ [view.offset + n, view.offset + n]⟩) := by
  simp [takeField, bind, readRange, removePrefix, pure, View.touch, hSize]

/-! ## A failed run has touched something behind the window -/

structure Honest (m : ViewReader β α) : Prop where
  grows : ∀ view, view.touched ⊆ (m.run view).2.touched
  fails : ∀ view, (m.run view).1 = none → ∃ e ∈ (m.run view).2.touched, view.size < e
  size : ∀ view a, (m.run view).1 = some a → (m.run view).2.size = view.size

theorem honest_pure (a : α) : Honest (pure a : ViewReader β α) where
  grows _ := List.Subset.refl _
  fails _ hFails := nomatch hFails
  size _ _ _ := rfl

theorem Honest.bind {m : ViewReader β α} {k : α → ViewReader β γ} (hm : Honest m)
    (hk : ∀ a, Honest (k a)) : Honest (m >>= k) where
  grows view := by
    rcases hRun : m.run view with ⟨_ | a, view'⟩
    · rw [bind_run_none hRun]
      simpa [hRun] using hm.grows view
    · rw [bind_run_some hRun]
      have hFirst : view.touched ⊆ view'.touched := by simpa [hRun] using hm.grows view
      exact List.Subset.trans hFirst ((hk a).grows view')
  fails view hFails := by
    rcases hRun : m.run view with ⟨_ | a, view'⟩
    · rw [bind_run_none hRun]
      simpa [hRun] using hm.fails view
    · rw [bind_run_some hRun] at hFails ⊢
      have hSize : view'.size = view.size := by simpa [hRun] using hm.size view a
      rw [← hSize]
      exact (hk a).fails view' hFails
  size view c hSome := by
    rcases hRun : m.run view with ⟨_ | a, view'⟩
    · rw [bind_run_none hRun] at hSome
      cases hSome
    · rw [bind_run_some hRun] at hSome ⊢
      have hSize : view'.size = view.size := by simpa [hRun] using hm.size view a
      rw [(hk a).size view' c hSome, hSize]

theorem honest_readAt (i : Nat) : Honest (readAt i : ViewReader β β) where
  grows _ := List.subset_append_left _ _
  fails view hFails := by
    have hShort : view.rest.length ≤ i := List.getElem?_eq_none_iff.mp hFails
    refine ⟨view.offset + (i + 1), by simp [readAt, View.touch], ?_⟩
    unfold View.size
    omega
  size _ _ _ := rfl

theorem honest_readRange (n : Nat) : Honest (readRange n : ViewReader β (List β)) where
  grows _ := List.subset_append_left _ _
  fails view hFails := by
    have hShort : ¬n ≤ view.rest.length := by
      intro hSize
      simp [readRange, hSize] at hFails
    refine ⟨view.offset + n, by simp [readRange, View.touch], ?_⟩
    unfold View.size
    omega
  size _ _ _ := rfl

theorem honest_removePrefix (n : Nat) : Honest (removePrefix n : ViewReader β PUnit) where
  grows view := by
    rcases em (n ≤ view.rest.length) with hSize | hShort
    · rw [removePrefix_run hSize]
      exact List.subset_append_left _ _
    · rw [removePrefix_run_short hShort]
      exact List.subset_append_left _ _
  fails view hFails := by
    rcases em (n ≤ view.rest.length) with hSize | hShort
    · rw [removePrefix_run hSize] at hFails
      cases hFails
    · rw [removePrefix_run_short hShort]
      refine ⟨view.offset + n, by simp [View.touch], ?_⟩
      unfold View.size
      omega
  size view a hSome := by
    rcases em (n ≤ view.rest.length) with hSize | hShort
    · rw [removePrefix_run hSize]
      simp only [View.size, List.length_drop]
      omega
    · rw [removePrefix_run_short hShort] at hSome
      cases hSome

theorem honest_takeField (n : Nat) : Honest (takeField n : ViewReader β (List β)) :=
  (honest_readRange n).bind fun _ => (honest_removePrefix n).bind fun _ => honest_pure _

/-! ## The function that a reader computes -/

/-- Without its record a reader is a function that returns what is left. -/
def Computes (m : ViewReader β α) (f : List β → Option (α × List β)) : Prop :=
  ∀ view, f view.rest = (m.run view).1.map fun a => (a, (m.run view).2.rest)

theorem computes_pure (a : α) : Computes (pure a : ViewReader β α) fun rest => some (a, rest) :=
  fun _ => rfl

theorem Computes.congr {m : ViewReader β α} {f f' : List β → Option (α × List β)}
    (h : Computes m f) (hEq : ∀ rest, f' rest = f rest) : Computes m f' :=
  fun view => (hEq view.rest).trans (h view)

theorem Computes.bind {m : ViewReader β α} {f : List β → Option (α × List β)}
    {k : α → ViewReader β γ} {g : α → List β → Option (γ × List β)} (hm : Computes m f)
    (hk : ∀ a, Computes (k a) (g a)) :
    Computes (m >>= k) fun rest => (f rest).bind fun r => g r.1 r.2 := by
  intro view
  rcases hRun : m.run view with ⟨_ | a, view'⟩
  · simp only [hm view, bind_run_none hRun, hRun]
    rfl
  · simp only [hm view, bind_run_some hRun, hRun]
    exact hk a view'

theorem computes_readAt (i : Nat) :
    Computes (readAt i : ViewReader β β) fun rest => rest[i]?.map fun value => (value, rest) :=
  fun _ => rfl

theorem computes_removePrefix (n : Nat) :
    Computes (removePrefix n : ViewReader β PUnit) fun rest =>
      if n ≤ rest.length then some (⟨⟩, rest.drop n) else none := by
  intro view
  dsimp only
  split
  · next hSize => rw [removePrefix_run hSize, Option.map_some]
  · next hShort => rw [removePrefix_run_short hShort, Option.map_none]

theorem computes_takeField (n : Nat) :
    Computes (takeField n : ViewReader β (List β)) fun rest =>
      if n ≤ rest.length then some (rest.take n, rest.drop n) else none := by
  intro view
  dsimp only
  split
  · next hSize =>
    rw [takeField_run hSize]
    rfl
  · next hSize =>
    have hRead : (readRange n).run view = (none, view.touch n) := by simp [readRange, hSize]
    rw [takeField, bind_run_none hRead]
    rfl

/-- The result of a reader on a whole buffer. -/
theorem Computes.result {m : ViewReader β α} {f : List β → Option (α × List β)}
    (h : Computes m f) (buffer : List β) : (m.run { rest := buffer }).1 = (f buffer).map Prod.fst := by
  rw [h { rest := buffer }, Option.map_map]
  exact Option.map_id'.symm

end ViewReader

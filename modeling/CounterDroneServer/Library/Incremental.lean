import Mathlib.Data.List.Basic

/-!
# Incremental scanners

A scanner takes a state and a view and returns the new state with the part of
the view it keeps. It is incremental when scanning a longer view is scanning a
prefix first and then what was kept together with the rest. Such a scanner does
not see how its input is cut.
-/

set_option autoImplicit false

universe u v

structure Incremental (σ : Type u) (α : Type v) where
  scan : σ → List α → σ × List α
  scan_append : ∀ s view tail,
    scan s (view ++ tail) = scan (scan s view).1 ((scan s view).2 ++ tail)

namespace Incremental

variable {σ : Type u} {α : Type v}

def feed (I : Incremental σ α) (q : σ × List α) (chunk : List α) : σ × List α :=
  I.scan q.1 (q.2 ++ chunk)

def feedAll (I : Incremental σ α) (q : σ × List α) (chunks : List (List α)) : σ × List α :=
  chunks.foldl I.feed q

/-- Nothing is left to do for the elements kept so far. -/
def Settled (I : Incremental σ α) (q : σ × List α) : Prop := I.feed q [] = q

theorem feed_append (I : Incremental σ α) (q : σ × List α) (first second : List α) :
    I.feed q (first ++ second) = I.feed (I.feed q first) second := by
  rw [feed, ← List.append_assoc, I.scan_append]
  rfl

theorem settled_feed (I : Incremental σ α) (q : σ × List α) (chunk : List α) :
    I.Settled (I.feed q chunk) := by
  rw [Settled, ← feed_append, List.append_nil]

theorem Settled.feedAll_eq {I : Incremental σ α} {q : σ × List α} (h : I.Settled q)
    (chunks : List (List α)) : I.feedAll q chunks = I.feed q chunks.flatten := by
  induction chunks generalizing q with
  | nil => exact h.symm
  | cons chunk chunks ih =>
    rw [List.flatten_cons, feed_append]
    exact ih (I.settled_feed q chunk)

theorem Settled.feedAll {I : Incremental σ α} {q : σ × List α} (h : I.Settled q)
    (chunks : List (List α)) : I.Settled (I.feedAll q chunks) := by
  rw [h.feedAll_eq]
  exact I.settled_feed q chunks.flatten

end Incremental

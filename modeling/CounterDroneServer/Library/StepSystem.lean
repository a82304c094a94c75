import Mathlib.Algebra.Order.Ring.Int
import Mathlib.Logic.Function.Basic

/-!
# Labelled step systems

A step is a partial function of the state and the action; an action that is
not enabled has no result. `ReachesVia ok` collects the states of those runs all
of whose steps satisfy `ok`, a condition on the state before the step and the
action taken. A state may carry logs of its run, to which a step adds one entry.
-/

set_option autoImplicit false

universe u v w x

structure StepSystem (σ : Type u) (α : Type v) where
  step : σ → α → Option σ

namespace StepSystem

variable {σ : Type u} {α : Type v} (S : StepSystem σ α)

inductive ReachesVia (ok : σ → α → Prop) (init : σ) : σ → Prop
  | refl : ReachesVia ok init init
  | step {s s' : σ} (a : α) (hReaches : ReachesVia ok init s) (hOk : ok s a)
    (hStep : S.step s a = some s') : ReachesVia ok init s'

/-- The states reached by any interleaving. -/
def Reaches (init s : σ) : Prop := S.ReachesVia (fun _ _ => True) init s

theorem reachesVia_refl (ok : σ → α → Prop) (init : σ) : S.ReachesVia ok init init := .refl

variable {S} {ok : σ → α → Prop} {init s : σ}

theorem ReachesVia.invariant (Inv : σ → Prop) (hInit : Inv init)
    (hStep : ∀ {s s' : σ} {a : α}, Inv s → ok s a → S.step s a = some s' → Inv s')
    (h : S.ReachesVia ok init s) : Inv s := by
  induction h with
  | refl => exact hInit
  | step a _ hOk hNext ih => exact hStep ih hOk hNext

theorem Reaches.invariant (Inv : σ → Prop) (hInit : Inv init)
    (hStep : ∀ {s s' : σ} {a : α}, Inv s → S.step s a = some s' → Inv s')
    (h : S.Reaches init s) : Inv s :=
  ReachesVia.invariant Inv hInit (fun hs _ hNext => hStep hs hNext) h

theorem ReachesVia.reaches (h : S.ReachesVia ok init s) : S.Reaches init s := by
  induction h with
  | refl => exact .refl
  | step a _ _ hNext ih => exact ih.step a trivial hNext

/-- The invariant rule where what is known of reachable states may be used. -/
theorem ReachesVia.invariant_of_reaches (Inv : σ → Prop) (hInit : Inv init)
    (hStep : ∀ {s s' : σ} {a : α}, S.Reaches init s → Inv s → ok s a → S.step s a = some s' → Inv s')
    (h : S.ReachesVia ok init s) : Inv s := by
  induction h with
  | refl => exact hInit
  | step a hReaches hOk hNext ih => exact hStep hReaches.reaches ih hOk hNext

/-- Steps that a map takes to steps of another system, or that it does not see, take
runs to runs. -/
theorem ReachesVia.map {τ : Type w} {β : Type x} {T : StepSystem τ β} {ok' : τ → β → Prop}
    (f : σ → τ) (hStep : ∀ {s s' : σ} {a : α}, ok s a → S.step s a = some s' →
      f s' = f s ∨ ∃ b, ok' (f s) b ∧ T.step (f s) b = some (f s'))
    (h : S.ReachesVia ok init s) : T.ReachesVia ok' (f init) (f s) := by
  induction h with
  | refl => exact .refl
  | step a _ hOk hNext ih =>
    rcases hStep hOk hNext with hSame | ⟨b, hOk', hNext'⟩
    · rwa [hSame]
    · exact ih.step b hOk' hNext'

/-- The simulation rule: where each step of one system is one of the other that keeps the
two related, so is each run. -/
theorem Reaches.simulated {τ : Type w} {β : Type x} {T : StepSystem τ β} {R : σ → τ → Prop}
    (hStep : ∀ {s : σ} {t t' : τ} {b : β}, R s t → T.step t b = some t' →
      ∃ a s', S.step s a = some s' ∧ R s' t')
    {init' t : τ} (hInit : R init init') (h : T.Reaches init' t) :
    ∃ s, S.Reaches init s ∧ R s t := by
  induction h with
  | refl => exact ⟨init, .refl, hInit⟩
  | step b _ _ hNext ih =>
    obtain ⟨s, hReach, hRelated⟩ := ih
    obtain ⟨a, s', hNext', hRelated'⟩ := hStep hRelated hNext
    exact ⟨s', .step a hReach trivial hNext', hRelated'⟩

variable (S)

/-- The same system, which also keeps what its steps show. -/
def recording {ε : Type w} (shows : σ → α → σ → List ε) : StepSystem (σ × List ε) α where
  step s a := (S.step s.1 a).map fun next => (next, s.2 ++ shows s.1 a next)

variable {S}

theorem recording_step_cases {ε : Type w} {shows : σ → α → σ → List ε} {s s' : σ × List ε} {a : α}
    (h : (S.recording shows).step s a = some s') :
    S.step s.1 a = some s'.1 ∧ s'.2 = s.2 ++ shows s.1 a s'.1 := by
  obtain ⟨next, hNext, rfl⟩ := Option.map_eq_some_iff.mp h
  exact ⟨hNext, rfl⟩

variable (S)

/-- A schedule executed from a state, if each of its actions is enabled. -/
def runActions : σ → List α → Option σ
  | s, [] => some s
  | s, a :: rest => (S.step s a).bind fun next => runActions next rest

variable {S}

theorem Reaches.runActions {actions : List α} {s' : σ} (h : S.Reaches init s)
    (hRun : S.runActions s actions = some s') : S.Reaches init s' := by
  induction actions generalizing s with
  | nil =>
    cases hRun
    exact h
  | cons a rest ih =>
    obtain ⟨next, hNext, hRest⟩ := Option.bind_eq_some_iff.mp hRun
    exact ih (.step a h trivial hNext) hRest

theorem runActions_concat (s : σ) (actions : List α) (a : α) :
    S.runActions s (actions ++ [a]) = (S.runActions s actions).bind fun next => S.step next a := by
  induction actions generalizing s with
  | nil => exact Option.bind_fun_some (S.step s a)
  | cons b rest ih =>
    rw [List.cons_append, runActions, runActions, Option.bind_assoc]
    exact congrArg _ (funext fun next => ih next)

theorem ReachesVia.exists_runActions (h : S.ReachesVia ok init s) :
    ∃ actions, S.runActions init actions = some s := by
  induction h with
  | refl => exact ⟨[], rfl⟩
  | step a _ _ hNext ih =>
    obtain ⟨actions, hRun⟩ := ih
    exact ⟨actions ++ [a], by rw [runActions_concat, hRun, Option.bind_some, hNext]⟩

/-- The amortized rule: where each action has its price and a potential pays for it, the
potential pays for a schedule. -/
theorem runActions_price_le {Inv : σ → Prop} {ok : α → Prop} (price : α → Int)
    (potential : σ → Int) (hStep : ∀ {s s' : σ} {a : α}, Inv s → ok a → S.step s a = some s' →
      Inv s' ∧ potential s' + price a ≤ potential s)
    {actions : List α} {s s' : σ} (hInv : Inv s) (hOk : ∀ a ∈ actions, ok a)
    (hRun : S.runActions s actions = some s') :
    Inv s' ∧ potential s' + (actions.map price).sum ≤ potential s := by
  induction actions generalizing s with
  | nil =>
    cases hRun
    exact ⟨hInv, by rw [List.map_nil, List.sum_nil]; omega⟩
  | cons a rest ih =>
    obtain ⟨next, hNext, hRest⟩ := Option.bind_eq_some_iff.mp hRun
    obtain ⟨hHere, hLater⟩ := List.forall_mem_cons.mp hOk
    obtain ⟨hInv, hPaid⟩ := hStep hInv hHere hNext
    obtain ⟨hInv, hRestPaid⟩ := ih hInv hLater hRest
    refine ⟨hInv, ?_⟩
    rw [List.map_cons, List.sum_cons]
    omega

/-- Prices that are one for the actions of a kind and give back what those of another
kind return. -/
theorem sum_price_eq {price : α → Int} {counts returns : α → Bool} {k : Int}
    (hPrice : ∀ a, price a = (if counts a then 1 else 0) - k * (if returns a then 1 else 0))
    (actions : List α) :
    (actions.map price).sum = (actions.countP counts : Int) - k * actions.countP returns := by
  induction actions with
  | nil => simp
  | cons a rest ih =>
    rw [List.map_cons, List.sum_cons, ih, hPrice, List.countP_cons, List.countP_cons]
    push_cast
    rw [Int.mul_add]
    omega

/-- The counting rule: where the actions of a kind lower a rank that no other action
raises, a schedule has no more of them than the rank. -/
theorem runActions_countP_le {Inv : σ → Prop} {ok : α → Prop} (counts : α → Bool) (rank : σ → Nat)
    (hStep : ∀ {s s' : σ} {a : α}, Inv s → ok a → S.step s a = some s' →
      Inv s' ∧ rank s' + (if counts a then 1 else 0) ≤ rank s)
    {actions : List α} {s s' : σ} (hInv : Inv s) (hOk : ∀ a ∈ actions, ok a)
    (hRun : S.runActions s actions = some s') : rank s' + actions.countP counts ≤ rank s := by
  have hPrice : ∀ {s s' : σ} {a : α}, Inv s → ok a → S.step s a = some s' →
      Inv s' ∧ (rank s' : Int) + (if counts a then 1 else 0) ≤ rank s := by
    intro s s' a hInv hOk hNext
    obtain ⟨hInv, hLower⟩ := hStep hInv hOk hNext
    refine ⟨hInv, ?_⟩
    split at hLower
    · rw [if_pos (by assumption)]
      omega
    · rw [if_neg (by assumption)]
      omega
  have hSum : (actions.map fun a => if counts a then (1 : Int) else 0).sum =
      actions.countP counts - 0 * actions.countP fun _ => false :=
    sum_price_eq (fun a => by rw [Int.zero_mul, Int.sub_zero]) actions
  obtain ⟨-, hPaid⟩ := runActions_price_le (fun a => if counts a then 1 else 0)
    (fun s => (rank s : Int)) hPrice hInv hOk hRun
  omega

/-- The ranking rule: a schedule whose actions all lower a rank is no longer than the
rank. -/
theorem runActions_length_le {Inv : σ → Prop} {ok : α → Prop} (rank : σ → Nat)
    (hStep : ∀ {s s' : σ} {a : α}, Inv s → ok a → S.step s a = some s' → Inv s' ∧ rank s' < rank s)
    {actions : List α} {s s' : σ} (hInv : Inv s) (hOk : ∀ a ∈ actions, ok a)
    (hRun : S.runActions s actions = some s') : rank s' + actions.length ≤ rank s := by
  have hCount := runActions_countP_le (fun _ => true) rank
    (fun hInv hOk hNext => hStep hInv hOk hNext) hInv hOk hRun
  rwa [List.countP_true] at hCount

/-! ## Logs -/

theorem forall_mem_concat {ε : Type w} {P : ε → Prop} {log : List ε} {e : ε}
    (hOld : ∀ old ∈ log, P old) (hNew : P e) : ∀ x ∈ log ++ [e], P x :=
  List.forall_mem_append.mpr ⟨hOld, List.forall_mem_singleton.mpr hNew⟩

end StepSystem

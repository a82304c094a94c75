import Mathlib.Data.List.Chain

/-!
# The bounded first-in first-out queue

What a bounded queue answers to a sequence of calls, on a list. An
implementation is a relation between the states before and after a call and what
the call returns; it refines the list when every call that is made returns what
the list queue answers.
-/

set_option autoImplicit false

namespace BoundedQueue

universe u v w

inductive Call (T : Type u)
  | push (data : T)
  | pop
  deriving DecidableEq

inductive Result (T : Type u)
  | pushed (accepted : Bool)
  | popped (item : Option T)
  deriving DecidableEq

variable {T : Type u} {σ : Type v} {κ : Type w}

def Call.isPush : Call T → Bool
  | .push _ => true
  | .pop => false

def call (capacity : Nat) : List T → Call T → List T × Result T
  | items, .push data =>
    if items.length = capacity then (items, .pushed false) else (items ++ [data], .pushed true)
  | [], .pop => ([], .popped none)
  | item :: items, .pop => (items, .popped (some item))

def results (capacity : Nat) : List T → List (Call T) → List (Result T)
  | _, [] => []
  | items, c :: calls =>
    (call capacity items c).2 :: results capacity (call capacity items c).1 calls

theorem call_push_full {capacity : Nat} {items : List T} (data : T)
    (hFull : items.length = capacity) : call capacity items (.push data) = (items, .pushed false) :=
  if_pos hFull

theorem call_push_room {capacity : Nat} {items : List T} (data : T)
    (hRoom : items.length < capacity) :
    call capacity items (.push data) = (items ++ [data], .pushed true) :=
  if_neg (Nat.ne_of_lt hRoom)

/-! ## Histories -/

/-- What is stored after some calls. -/
def contents (capacity : Nat) : List T → List (Call T) → List T
  | items, [] => items
  | items, c :: calls => contents capacity (call capacity items c).1 calls

theorem contents_concat (capacity : Nat) (items : List T) (calls : List (Call T)) (c : Call T) :
    contents capacity items (calls ++ [c]) = (call capacity (contents capacity items calls) c).1 := by
  induction calls generalizing items with
  | nil => rfl
  | cons first calls ih => exact ih _

theorem results_concat (capacity : Nat) (items : List T) (calls : List (Call T)) (c : Call T) :
    results capacity items (calls ++ [c]) =
      results capacity items calls ++ [(call capacity (contents capacity items calls) c).2] := by
  induction calls generalizing items with
  | nil => rfl
  | cons first calls ih => exact congrArg (List.cons _) (ih _)

/-- The calls of a history, made one after another on the empty queue, return what the
history says. -/
def Legal (capacity : Nat) (history : List (Call T × Result T)) : Prop :=
  results capacity [] (history.map Prod.fst) = history.map Prod.snd

theorem legal_concat_iff {capacity : Nat} {history : List (Call T × Result T)} {c : Call T}
    {r : Result T} :
    Legal capacity (history ++ [(c, r)]) ↔ Legal capacity history ∧
      (call capacity (contents capacity [] (history.map Prod.fst)) c).2 = r := by
  rw [Legal, List.map_append, List.map_append, List.map_singleton, List.map_singleton,
    results_concat]
  constructor
  · intro h
    obtain ⟨hBefore, hLast⟩ := List.append_inj' h rfl
    exact ⟨hBefore, List.singleton_inj.mp hLast⟩
  · rintro ⟨hBefore, rfl⟩
    exact congrArg (· ++ _) hBefore

def pushedItem : Call T × Result T → Option T
  | (.push data, .pushed true) => some data
  | _ => none

def poppedItem : Call T × Result T → Option T
  | (.pop, .popped item) => item
  | _ => none

def pushedItems (history : List (Call T × Result T)) : List T := history.filterMap pushedItem

def poppedItems (history : List (Call T × Result T)) : List T := history.filterMap poppedItem

/-- What has been pushed has been popped, in this order, or is stored. -/
theorem Legal.pushedItems_eq {capacity : Nat} {history : List (Call T × Result T)}
    (h : Legal capacity history) :
    pushedItems history = poppedItems history ++ contents capacity [] (history.map Prod.fst) := by
  induction history using List.reverseRecOn with
  | nil => rfl
  | append_singleton history last ih =>
    obtain ⟨c, r⟩ := last
    obtain ⟨hBefore, rfl⟩ := legal_concat_iff.mp h
    have hHere := ih hBefore
    rw [pushedItems, poppedItems, List.filterMap_append, List.filterMap_append, List.map_append,
      List.map_singleton, contents_concat, ← pushedItems, ← poppedItems, hHere]
    generalize contents capacity [] (history.map Prod.fst) = items
    cases c with
    | push data =>
      by_cases hFull : items.length = capacity
      · simp [call, hFull, List.filterMap, pushedItem, poppedItem]
      · simp [call, hFull, List.filterMap, pushedItem, poppedItem]
    | pop =>
      cases items with
      | nil => simp [call, List.filterMap, pushedItem, poppedItem]
      | cons item items => simp [call, pushedItem, poppedItem]

/-! ## A queue for one item -/

/-- No push directly follows a push, nor comes first when an item is stored. -/
def Alternates (items : List T) (calls : List (Call T)) : Prop :=
  calls.IsChain (fun c next => ¬(c.isPush = true ∧ next.isPush = true)) ∧
    (items ≠ [] → ∀ c ∈ calls.head?, c.isPush = false)

theorem alternates_cons_iff {items : List T} (hItems : items.length ≤ 1) (c : Call T)
    (calls : List (Call T)) :
    Alternates items (c :: calls) ↔
      (c.isPush = true → items = []) ∧ Alternates (call 1 items c).1 calls := by
  cases c with
  | push data =>
    cases items with
    | nil => simp [Alternates, call, List.isChain_cons, Call.isPush, and_comm]
    | cons item items => simp [Alternates, Call.isPush]
  | pop =>
    match items with
    | [] => simp [Alternates, call, List.isChain_cons, Call.isPush]
    | [item] => simp [Alternates, call, List.isChain_cons, Call.isPush]

/-- The calls made one after another, each from the state that the one before has
left, return these answers. -/
inductive Answers (returns : σ → κ → σ → Result T → Prop) : σ → List κ → List (Result T) → Prop
  | nil (s : σ) : Answers returns s [] []
  | cons {s s' : σ} {c : κ} {calls : List κ} {r : Result T} {answers : List (Result T)}
    (hCall : returns s c s' r) (hRest : Answers returns s' calls answers) :
    Answers returns s (c :: calls) (r :: answers)

/-- The refinement rule. The relation between the states and the lists may depend
on the calls still to come. -/
theorem answers_results {returns : σ → κ → σ → Result T → Prop} (abstract : κ → Call T)
    {capacity : Nat} (Inv : List κ → σ → List T → Prop)
    (hCall : ∀ c calls s items, Inv (c :: calls) s items →
      ∃ s', returns s c s' (call capacity items (abstract c)).2 ∧
        Inv calls s' (call capacity items (abstract c)).1)
    {calls : List κ} {s : σ} {items : List T} (h : Inv calls s items) :
    Answers returns s calls (results capacity items (calls.map abstract)) := by
  induction calls generalizing s items with
  | nil => exact .nil s
  | cons c calls ih =>
    obtain ⟨s', hReturns, hNext⟩ := hCall c calls s items h
    exact .cons hReturns (ih hNext)

end BoundedQueue

import Mathlib.Data.List.Forall2
import Mathlib.Order.BoundedOrder.Lattice
import Mathlib.Order.Nat

/-!
# Release and acquire

Threads share atomic locations and plain cells. A store adds a message to its
location; a load takes any message that is not older than those its thread knows of.
A release store puts what its thread knows into the message and an acquire load
learns it. A plain access that does not know of an earlier one to the same cell,
one of the two a write, is a data race.
-/

set_option autoImplicit false

namespace ReleaseAcquire

universe u v w x

inductive LoadOrder
  | relaxed
  | acquire
  deriving DecidableEq

inductive StoreOrder
  | relaxed
  | release
  deriving DecidableEq

/-- The number of plain accesses known of each thread, and the position of the newest
message known of each location. -/
abbrev View (θ : Type u) (α : Type v) := (θ → Nat) × (α → Nat)

structure Message (θ : Type u) (α : Type v) (ν : Type w) where
  value : ν
  view : View θ α

/-- The messages of a location stand in its modification order. `clock` counts the plain
accesses of each thread; `writes` and `reads` have the last ones to each cell. -/
structure Memory (θ : Type u) (α : Type v) (ν : Type w) (κ : Type x) where
  messages : α → List (Message θ α ν)
  clock : θ → Nat := fun _ => 0
  view : θ → View θ α := fun _ => ⊥
  writes : κ → θ → Nat := fun _ _ => 0
  reads : κ → θ → Nat := fun _ _ => 0

variable {θ : Type u} {α : Type v} {ν : Type w} {κ : Type x}

/-- The memory before the threads start. -/
def Memory.start (values : α → ν) : Memory θ α ν κ := { messages := fun a => [⟨values a, ⊥⟩] }

variable [DecidableEq θ] [DecidableEq α]

namespace View

/-- To know the first `n` accesses of a thread. -/
def ofAccess (t : θ) (n : Nat) : View θ α := (Function.update ⊥ t n, ⊥)

def ofMessage (a : α) (i : Nat) : View θ α := (⊥, Function.update ⊥ a i)

omit [DecidableEq α] in
theorem ofAccess_le {t : θ} {n : Nat} {v : View θ α} : ofAccess t n ≤ v ↔ n ≤ v.1 t := by
  rw [ofAccess, Prod.le_def, update_le_iff]
  exact ⟨fun h => h.1.1, fun h => ⟨⟨h, fun _ _ => Nat.zero_le _⟩, bot_le⟩⟩

omit [DecidableEq θ] in
theorem ofMessage_le {a : α} {i : Nat} {v : View θ α} : ofMessage a i ≤ v ↔ i ≤ v.2 a := by
  rw [ofMessage, Prod.le_def, update_le_iff]
  exact ⟨fun h => h.2.1, fun h => ⟨bot_le, h, fun _ _ => Nat.zero_le _⟩⟩

end View

namespace Memory

variable (m : Memory θ α ν κ)

def learn (t : θ) (v : View θ α) : Memory θ α ν κ :=
  { m with view := Function.update m.view t (m.view t ⊔ v) }

/-- The load that takes the message at position `i`. -/
def load (order : LoadOrder) (t : θ) (a : α) (i : Nat) : Option (ν × Memory θ α ν κ) :=
  if (m.view t).2 a ≤ i then
    (m.messages a)[i]?.map fun message =>
      (message.value,
        m.learn t (View.ofMessage a i ⊔ if order = .acquire then message.view else ⊥))
  else none

/-- The store behind all messages of the location: its only place where the thread knows
the newest one. -/
def store (order : StoreOrder) (t : θ) (a : α) (value : ν) : Memory θ α ν κ :=
  let position : View θ α := View.ofMessage a (m.messages a).length
  { m.learn t position with
    messages := Function.update m.messages a (m.messages a ++
      [⟨value, position ⊔ if order = .release then m.view t else ⊥⟩]) }

variable [DecidableEq κ]

def access (t : θ) : Memory θ α ν κ :=
  { m.learn t (View.ofAccess t (m.clock t + 1)) with
    clock := Function.update m.clock t (m.clock t + 1) }

def read (t : θ) (k : κ) : Memory θ α ν κ :=
  { m.access t with
    reads := Function.update m.reads k (Function.update (m.reads k) t (m.clock t + 1)) }

def write (t : θ) (k : κ) : Memory θ α ν κ :=
  { m.access t with
    writes := Function.update m.writes k (Function.update (m.writes k) t (m.clock t + 1)) }

omit [DecidableEq θ] [DecidableEq α] [DecidableEq κ]

/-- A read of the cell by the thread races with no write. -/
def ReadOrdered (t : θ) (k : κ) : Prop := m.writes k ≤ (m.view t).1

/-- A write of the cell by the thread races with no access. -/
def WriteOrdered (t : θ) (k : κ) : Prop := m.writes k ≤ (m.view t).1 ∧ m.reads k ≤ (m.view t).1

/-- The thread knows the newest message of the location. -/
def Newest (t : θ) (a : α) : Prop := (m.messages a).length ≤ (m.view t).2 a + 1

/-- All that can be known. -/
def now : View θ α := (m.clock, fun a => (m.messages a).length - 1)

/-- Nothing is known that is not there; each thread knows its own accesses and each
message its own position. -/
structure WellFormed : Prop where
  messages_ne_nil : ∀ a, m.messages a ≠ []
  view : ∀ t, m.view t ≤ m.now
  messages : ∀ a, ∀ message ∈ m.messages a, message.view ≤ m.now
  position : ∀ a i (message : Message θ α ν), (m.messages a)[i]? = some message →
    i ≤ message.view.2 a
  own : ∀ t, m.clock t ≤ (m.view t).1 t
  writes : ∀ k, m.writes k ≤ m.clock
  reads : ∀ k, m.reads k ≤ m.clock

variable {m}

theorem wellFormed_start (values : α → ν) :
    (Memory.start values : Memory θ α ν κ).WellFormed where
  messages_ne_nil _ := List.cons_ne_nil _ _
  view _ := bot_le
  messages a message hMem := by
    obtain rfl := List.mem_singleton.mp hMem
    exact bot_le
  position a i message hMessage := by
    have hLength := (List.getElem?_eq_some_iff.mp hMessage).1
    exact Nat.le_trans (Nat.le_of_lt_succ hLength) (Nat.zero_le _)
  own _ := Nat.le_refl 0
  writes _ := le_rfl
  reads _ := le_rfl

theorem WellFormed.clock_eq (h : m.WellFormed) (t : θ) : (m.view t).1 t = m.clock t :=
  Nat.le_antisymm ((h.view t).1 t) (h.own t)

theorem WellFormed.position_lt (h : m.WellFormed) (t : θ) (a : α) :
    (m.view t).2 a < (m.messages a).length := by
  have hPosition : (m.view t).2 a ≤ (m.messages a).length - 1 := (h.view t).2 a
  have hSome := List.length_pos_iff.mpr (h.messages_ne_nil a)
  omega

/-! ## Learning -/

section

variable [DecidableEq θ]

theorem view_learn_self (t : θ) (v : View θ α) : (m.learn t v).view t = m.view t ⊔ v :=
  Function.update_self ..

theorem view_learn_of_ne {t u : θ} (hOther : u ≠ t) (v : View θ α) :
    (m.learn t v).view u = m.view u :=
  Function.update_of_ne hOther ..

theorem view_le_learn (t u : θ) (v : View θ α) : m.view u ≤ (m.learn t v).view u := by
  rcases eq_or_ne u t with rfl | hOther
  · rw [view_learn_self]
    exact le_sup_left
  · rw [view_learn_of_ne hOther]

theorem learn_le {t u : θ} {v w : View θ α} (hView : m.view u ≤ w) (hNew : u = t → v ≤ w) :
    (m.learn t v).view u ≤ w := by
  rcases eq_or_ne u t with rfl | hOther
  · rw [view_learn_self]
    exact sup_le hView (hNew rfl)
  · rwa [view_learn_of_ne hOther]

theorem learn_bot (t : θ) : m.learn t ⊥ = m := by
  unfold learn
  rw [sup_bot_eq, Function.update_eq_self]

theorem Newest.learn {t : θ} {a : α} (h : m.Newest t a) (u : θ) (v : View θ α) :
    (m.learn u v).Newest t a :=
  Nat.le_trans h (Nat.succ_le_succ ((view_le_learn u t v).2 a))

theorem WellFormed.learn (h : m.WellFormed) (t : θ) {v : View θ α} (hKnown : v ≤ m.now) :
    (m.learn t v).WellFormed where
  messages_ne_nil := h.messages_ne_nil
  view u := learn_le (h.view u) fun _ => hKnown
  messages := h.messages
  position := h.position
  own u := (h.own u).trans ((view_le_learn t u v).1 u)
  writes := h.writes
  reads := h.reads

end

/-! ## Loads and stores -/

theorem getElem?_concat {β : Type u} {xs : List β} {x y : β} {i : Nat}
    (h : (xs ++ [x])[i]? = some y) : xs[i]? = some y ∨ i = xs.length ∧ y = x := by
  rcases Nat.lt_or_ge i xs.length with hOld | hNew
  · rw [List.getElem?_append_left hOld] at h
    exact .inl h
  · rw [List.getElem?_append_right hNew] at h
    obtain ⟨hLast, hEq⟩ := List.getElem?_eq_some_iff.mp h
    rw [List.length_singleton] at hLast
    exact .inr ⟨by omega, by rw [← hEq, List.getElem_singleton]⟩

section

variable [DecidableEq θ] [DecidableEq α]

theorem load_cases {order : LoadOrder} {t : θ} {a : α} {i : Nat} {value : ν} {m' : Memory θ α ν κ}
    (hLoad : m.load order t a i = some (value, m')) :
    (m.view t).2 a ≤ i ∧ ∃ message, (m.messages a)[i]? = some message ∧ value = message.value ∧
      m' = m.learn t
        (View.ofMessage a i ⊔ if order = .acquire then message.view else ⊥) := by
  unfold load at hLoad
  split at hLoad
  · rename_i hNotOlder
    obtain ⟨message, hMessage, hResult⟩ := Option.map_eq_some_iff.mp hLoad
    cases hResult
    exact ⟨hNotOlder, message, hMessage, rfl, rfl⟩
  · cases hLoad

omit [DecidableEq θ] in
theorem WellFormed.message_le_now (h : m.WellFormed) {a : α} {i : Nat} {message : Message θ α ν}
    (hMessage : (m.messages a)[i]? = some message) (order : LoadOrder) :
    (View.ofMessage a i ⊔ if order = .acquire then message.view else ⊥) ≤ m.now := by
  apply sup_le
  · rw [View.ofMessage_le]
    have hPosition := (List.getElem?_eq_some_iff.mp hMessage).1
    exact Nat.le_sub_one_of_lt hPosition
  · split
    · exact h.messages a message (List.mem_of_getElem? hMessage)
    · exact bot_le

theorem WellFormed.load (h : m.WellFormed) {order : LoadOrder} {t : θ} {a : α} {i : Nat} {value : ν}
    {m' : Memory θ α ν κ} (hLoad : m.load order t a i = some (value, m')) : m'.WellFormed := by
  obtain ⟨-, message, hMessage, -, rfl⟩ := load_cases hLoad
  exact h.learn t (h.message_le_now hMessage order)

omit [DecidableEq θ] in
theorem WellFormed.ofMessage_le (h : m.WellFormed) {a : α} {i : Nat} {message : Message θ α ν}
    (hMessage : (m.messages a)[i]? = some message) : View.ofMessage a i ≤ message.view :=
  View.ofMessage_le.mpr (h.position a i message hMessage)

/-- An acquire load learns the view of its message, which has the message itself. -/
theorem WellFormed.load_acquire (h : m.WellFormed) {order : LoadOrder} (hAcquire : order = .acquire)
    {t : θ} {a : α} {i : Nat} {value : ν} {m' : Memory θ α ν κ}
    (hLoad : m.load order t a i = some (value, m')) :
    (m.view t).2 a ≤ i ∧ ∃ message, (m.messages a)[i]? = some message ∧ value = message.value ∧
      m' = m.learn t message.view := by
  obtain ⟨hNotOlder, message, hMessage, hValue, hNext⟩ := load_cases hLoad
  refine ⟨hNotOlder, message, hMessage, hValue, ?_⟩
  rw [hNext, if_pos hAcquire, sup_eq_right.mpr (h.ofMessage_le hMessage)]

/-- A thread that knows the newest message loads it, and learns nothing new of the location. -/
theorem Newest.load {order : LoadOrder} {t : θ} {a : α} {i : Nat} {value : ν}
    {m' : Memory θ α ν κ} (hNewest : m.Newest t a)
    (hLoad : m.load order t a i = some (value, m')) :
    i + 1 = (m.messages a).length ∧ ∃ message, (m.messages a)[i]? = some message ∧
      value = message.value ∧ (m' = m.learn t message.view ∨ m' = m) := by
  obtain ⟨hNotOlder, message, hMessage, hValue, hNext⟩ := load_cases hLoad
  have hPosition := (List.getElem?_eq_some_iff.mp hMessage).1
  unfold Newest at hNewest
  have hKnown : View.ofMessage a i ≤ m.view t := View.ofMessage_le.mpr (by omega)
  refine ⟨by omega, message, hMessage, hValue, ?_⟩
  have hLearned : ∀ v, m.learn t (View.ofMessage a i ⊔ v) = m.learn t v := by
    intro v
    unfold Memory.learn
    rw [← sup_assoc, sup_eq_left.mpr hKnown]
  rw [hNext, hLearned]
  split
  · exact .inl rfl
  · exact .inr (learn_bot t)

theorem view_store_self (order : StoreOrder) (t : θ) (a : α) (value : ν) :
    (m.store order t a value).view t = m.view t ⊔ View.ofMessage a (m.messages a).length :=
  view_learn_self ..

theorem view_store_of_ne {t u : θ} (hOther : u ≠ t) (order : StoreOrder) (a : α) (value : ν) :
    (m.store order t a value).view u = m.view u :=
  view_learn_of_ne hOther ..

theorem accesses_store (order : StoreOrder) (t u : θ) (a : α) (value : ν) :
    ((m.store order t a value).view u).1 = (m.view u).1 := by
  rcases eq_or_ne u t with rfl | hOther
  · rw [view_store_self]
    exact sup_bot_eq _
  · rw [view_store_of_ne hOther]

theorem position_store_of_ne {a b : α} (hOther : b ≠ a) (order : StoreOrder) (t u : θ) (value : ν) :
    ((m.store order t a value).view u).2 b = (m.view u).2 b := by
  rcases eq_or_ne u t with rfl | hThread
  · rw [view_store_self]
    change max ((m.view u).2 b) (Function.update (⊥ : α → Nat) a _ b) = _
    rw [Function.update_of_ne hOther]
    exact max_eq_left (Nat.zero_le _)
  · rw [view_store_of_ne hThread]

theorem WellFormed.position_store_self (h : m.WellFormed) (order : StoreOrder) (t : θ) (a : α)
    (value : ν) : ((m.store order t a value).view t).2 a = (m.messages a).length := by
  rw [view_store_self]
  change max ((m.view t).2 a) (Function.update (⊥ : α → Nat) a _ a) = _
  rw [Function.update_self]
  exact max_eq_right (Nat.le_of_lt (h.position_lt t a))

/-- A released message has all that its thread knows after the store. -/
theorem messages_store_self (order : StoreOrder) (t : θ) (a : α) (value : ν) :
    ∃ message : Message θ α ν, (m.store order t a value).messages a = m.messages a ++ [message] ∧
      message.value = value ∧ View.ofMessage a (m.messages a).length ≤ message.view ∧
      message.view ≤ (m.store order t a value).view t ∧
      (order = .release → message.view = (m.store order t a value).view t) := by
  rw [view_store_self, sup_comm]
  refine ⟨_, Function.update_self .., rfl, le_sup_left, ?_, ?_⟩
  · apply sup_le_sup_left
    split
    · exact le_rfl
    · exact bot_le
  · intro hRelease
    rw [if_pos hRelease]

theorem messages_store_of_ne {a b : α} (hOther : b ≠ a) (order : StoreOrder) (t : θ) (value : ν) :
    (m.store order t a value).messages b = m.messages b :=
  Function.update_of_ne hOther ..

theorem length_messages_store (order : StoreOrder) (t : θ) (a : α) (value : ν) :
    ((m.store order t a value).messages a).length = (m.messages a).length + 1 := by
  obtain ⟨message, hMessages, -⟩ := messages_store_self (m := m) order t a value
  rw [hMessages, List.length_append, List.length_singleton]

theorem now_le_store (order : StoreOrder) (t : θ) (a : α) (value : ν) :
    m.now ≤ (m.store order t a value).now := by
  refine ⟨le_rfl, ?_⟩
  intro b
  change (m.messages b).length - 1 ≤ ((m.store order t a value).messages b).length - 1
  rcases eq_or_ne b a with rfl | hOther
  · rw [length_messages_store]
    omega
  · rw [messages_store_of_ne hOther]

theorem ofMessage_le_store (order : StoreOrder) (t : θ) (a : α) (value : ν) :
    View.ofMessage a (m.messages a).length ≤ (m.store order t a value).now := by
  rw [View.ofMessage_le]
  change _ ≤ ((m.store order t a value).messages a).length - 1
  rw [length_messages_store]
  exact Nat.le_refl _

theorem WellFormed.view_store_le (h : m.WellFormed) (order : StoreOrder) (t u : θ) (a : α)
    (value : ν) : (m.store order t a value).view u ≤ (m.store order t a value).now :=
  learn_le ((h.view u).trans (now_le_store order t a value))
    fun _ => ofMessage_le_store order t a value

theorem WellFormed.store (h : m.WellFormed) (order : StoreOrder) (t : θ) (a : α) (value : ν) :
    (m.store order t a value).WellFormed where
  messages_ne_nil b := by
    rcases eq_or_ne b a with rfl | hOther
    · rw [← List.length_pos_iff, length_messages_store]
      exact Nat.succ_pos _
    · rw [messages_store_of_ne hOther]
      exact h.messages_ne_nil b
  view u := h.view_store_le order t u a value
  messages b message hMem := by
    rcases eq_or_ne b a with rfl | hOther
    · obtain ⟨stored, hMessages, -, -, hView, -⟩ := messages_store_self (m := m) order t b value
      rw [hMessages, List.mem_append, List.mem_singleton] at hMem
      rcases hMem with hOld | rfl
      · exact (h.messages b message hOld).trans (now_le_store order t b value)
      · exact hView.trans (h.view_store_le order t t b value)
    · rw [messages_store_of_ne hOther] at hMem
      exact (h.messages b message hMem).trans (now_le_store order t a value)
  position b i message hMessage := by
    rcases eq_or_ne b a with rfl | hOther
    · obtain ⟨stored, hMessages, -, hOwn, -⟩ := messages_store_self (m := m) order t b value
      rw [hMessages] at hMessage
      rcases getElem?_concat hMessage with hOld | ⟨rfl, rfl⟩
      · exact h.position b i message hOld
      · exact View.ofMessage_le.mp hOwn
    · rw [messages_store_of_ne hOther] at hMessage
      exact h.position b i message hMessage
  own u := (h.own u).trans ((view_le_learn t u _).1 u)
  writes := h.writes
  reads := h.reads

theorem newest_store (order : StoreOrder) (t : θ) (a : α) (value : ν) :
    (m.store order t a value).Newest t a := by
  unfold Newest
  rw [length_messages_store, view_store_self]
  have hOwn : View.ofMessage a (m.messages a).length ≤
      m.view t ⊔ View.ofMessage a (m.messages a).length := le_sup_right
  exact Nat.succ_le_succ (View.ofMessage_le.mp hOwn)

theorem Newest.store_of_ne {t u : θ} {a b : α} (h : m.Newest u b) (hOther : b ≠ a)
    (order : StoreOrder) (value : ν) : (m.store order t a value).Newest u b := by
  unfold Newest
  rw [messages_store_of_ne hOther]
  exact h.trans (Nat.succ_le_succ ((view_le_learn t u _).2 b))

end

/-! ## Plain accesses -/

section

variable [DecidableEq θ]

theorem clock_access_self (t : θ) : (m.access t).clock t = m.clock t + 1 :=
  Function.update_self ..

theorem clock_access_of_ne {t u : θ} (hOther : u ≠ t) : (m.access t).clock u = m.clock u :=
  Function.update_of_ne hOther ..

theorem clock_le_access (t : θ) : m.clock ≤ (m.access t).clock := by
  intro u
  rcases eq_or_ne u t with rfl | hOther
  · rw [clock_access_self]
    exact Nat.le_succ _
  · rw [clock_access_of_ne hOther]

theorem now_le_access (t : θ) : m.now ≤ (m.access t).now := ⟨clock_le_access t, le_rfl⟩

theorem WellFormed.access (h : m.WellFormed) (t : θ) : (m.access t).WellFormed where
  messages_ne_nil := h.messages_ne_nil
  view u := learn_le ((h.view u).trans (now_le_access t)) fun _ => by
    rw [View.ofAccess_le]
    exact Nat.le_of_eq (clock_access_self t).symm
  messages a message hMem := (h.messages a message hMem).trans (now_le_access t)
  position := h.position
  own u := by
    rcases eq_or_ne u t with rfl | hOther
    · rw [clock_access_self]
      have hOwn : View.ofAccess u (m.clock u + 1) ≤ (m.access u).view u := by
        change _ ≤ (m.learn u _).view u
        rw [view_learn_self]
        exact le_sup_right
      exact View.ofAccess_le.mp hOwn
    · rw [clock_access_of_ne hOther]
      exact (h.own u).trans ((view_le_learn t u _).1 u)
  writes k := (h.writes k).trans (clock_le_access t)
  reads k := (h.reads k).trans (clock_le_access t)

/-- An access moves no thread along the messages. -/
theorem position_access (t u : θ) (a : α) : ((m.access t).view u).2 a = (m.view u).2 a := by
  change ((m.learn t _).view u).2 a = _
  rcases eq_or_ne u t with rfl | hOther
  · rw [view_learn_self]
    exact max_eq_left (Nat.zero_le _)
  · rw [view_learn_of_ne hOther]

theorem Newest.access {t : θ} {a : α} (h : m.Newest t a) (u : θ) : (m.access u).Newest t a :=
  h.learn u _

variable [DecidableEq κ]

theorem last_update_self (accesses : κ → θ → Nat) (t : θ) (k : κ) (n : Nat) :
    (fun k' => Function.update accesses k (Function.update (accesses k) t n) k' t) =
      Function.update (fun k' => accesses k' t) k n := by
  funext k'
  rcases eq_or_ne k' k with rfl | hOther
  · rw [Function.update_self, Function.update_self, Function.update_self]
  · rw [Function.update_of_ne hOther, Function.update_of_ne hOther]

theorem last_update_of_ne (accesses : κ → θ → Nat) {t u : θ} (hOther : u ≠ t) (k : κ) (n : Nat) :
    (fun k' => Function.update accesses k (Function.update (accesses k) t n) k' u) =
      fun k' => accesses k' u := by
  funext k'
  rcases eq_or_ne k' k with rfl | hCell
  · rw [Function.update_self, Function.update_of_ne hOther]
  · rw [Function.update_of_ne hCell]

/-- The accesses to one cell after one more of a thread. -/
theorem update_access_le {accesses : κ → θ → Nat} {t : θ} {k : κ} {clock : θ → Nat}
    (hOld : ∀ k, accesses k ≤ (m.access t).clock) (hClock : clock = (m.access t).clock) (k' : κ) :
    Function.update accesses k (Function.update (accesses k) t (m.clock t + 1)) k' ≤ clock := by
  subst hClock
  rcases eq_or_ne k' k with rfl | hOther
  · rw [Function.update_self, update_le_iff, clock_access_self]
    exact ⟨Nat.le_refl _, fun u _ => hOld k' u⟩
  · rw [Function.update_of_ne hOther]
    exact hOld k'

theorem WellFormed.read (h : m.WellFormed) (t : θ) (k : κ) : (m.read t k).WellFormed :=
  { h.access t with reads := update_access_le (h.access t).reads rfl }

theorem WellFormed.write (h : m.WellFormed) (t : θ) (k : κ) : (m.write t k).WellFormed :=
  { h.access t with writes := update_access_le (h.access t).writes rfl }

end

/-! ## Weaker orders -/

section

variable {m m' : Memory θ α ν κ}

/-- The same accesses and messages, of which everybody knows less. -/
structure KnowsLess (m m' : Memory θ α ν κ) : Prop where
  clock : m.clock = m'.clock
  writes : m.writes = m'.writes
  reads : m.reads = m'.reads
  view : ∀ t, m.view t ≤ m'.view t
  messages : ∀ a, List.Forall₂ (fun x y : Message θ α ν => x.value = y.value ∧ x.view ≤ y.view)
    (m.messages a) (m'.messages a)

theorem KnowsLess.refl (m : Memory θ α ν κ) : KnowsLess m m where
  clock := rfl
  writes := rfl
  reads := rfl
  view _ := le_rfl
  messages _ := List.forall₂_same.mpr fun _ _ => ⟨rfl, le_rfl⟩

theorem KnowsLess.readOrdered (h : KnowsLess m m') {t : θ} {k : κ} (hOrdered : m.ReadOrdered t k) :
    m'.ReadOrdered t k := by
  unfold ReadOrdered at hOrdered ⊢
  rw [← h.writes]
  exact hOrdered.trans (h.view t).1

theorem KnowsLess.writeOrdered (h : KnowsLess m m') {t : θ} {k : κ}
    (hOrdered : m.WriteOrdered t k) : m'.WriteOrdered t k := by
  unfold WriteOrdered at hOrdered ⊢
  rw [← h.writes, ← h.reads]
  exact ⟨hOrdered.1.trans (h.view t).1, hOrdered.2.trans (h.view t).1⟩

section

variable [DecidableEq θ]

theorem KnowsLess.learn (h : KnowsLess m m') (t : θ) {v v' : View θ α} (hView : v ≤ v') :
    KnowsLess (m.learn t v) (m'.learn t v') :=
  { h with
    view := fun u => by
      rcases eq_or_ne u t with rfl | hOther
      · rw [view_learn_self, view_learn_self]
        exact sup_le_sup (h.view u) hView
      · rw [view_learn_of_ne hOther, view_learn_of_ne hOther]
        exact h.view u }

theorem KnowsLess.access (h : KnowsLess m m') (t : θ) : KnowsLess (m.access t) (m'.access t) :=
  { h.learn t (le_of_eq (by rw [h.clock])) with
    clock := by rw [Memory.access, Memory.access, h.clock] }

variable [DecidableEq κ]

theorem KnowsLess.read (h : KnowsLess m m') (t : θ) (k : κ) :
    KnowsLess (m.read t k) (m'.read t k) :=
  { h.access t with reads := by rw [Memory.read, Memory.read, h.reads, h.clock] }

theorem KnowsLess.write (h : KnowsLess m m') (t : θ) (k : κ) :
    KnowsLess (m.write t k) (m'.write t k) :=
  { h.access t with writes := by rw [Memory.write, Memory.write, h.writes, h.clock] }

end

variable [DecidableEq θ] [DecidableEq α]

/-- Who knows less may load whatever one may load who knows more. -/
theorem KnowsLess.load (h : KnowsLess m m') {order order' : LoadOrder}
    (hOrder : order = .acquire → order' = .acquire) {t : θ} {a : α} {i : Nat} {value : ν}
    {n' : Memory θ α ν κ} (hLoad : m'.load order' t a i = some (value, n')) :
    ∃ n, m.load order t a i = some (value, n) ∧ KnowsLess n n' := by
  obtain ⟨hNotOlder, message', hMessage', rfl, rfl⟩ := load_cases hLoad
  obtain ⟨hIndex', hEq'⟩ := List.getElem?_eq_some_iff.mp hMessage'
  obtain ⟨hLength, hEach⟩ := List.forall₂_iff_get.mp (h.messages a)
  have hIndex : i < (m.messages a).length := hLength ▸ hIndex'
  obtain ⟨hValue, hView⟩ := hEach i hIndex hIndex'
  rw [List.get_eq_getElem, List.get_eq_getElem] at hValue hView
  subst hEq'
  refine ⟨m.learn t (View.ofMessage a i ⊔ if order = .acquire then (m.messages a)[i].view else ⊥),
    ?_, h.learn t ?_⟩
  · have hSeen : (m.view t).2 a ≤ i := ((h.view t).2 a).trans hNotOlder
    rw [Memory.load, if_pos hSeen, List.getElem?_eq_getElem hIndex, Option.map_some, hValue]
  · apply sup_le_sup_left
    split
    · rename_i hAcquire
      rw [if_pos (hOrder hAcquire)]
      exact hView
    · exact bot_le

theorem KnowsLess.store (h : KnowsLess m m') {order order' : StoreOrder}
    (hOrder : order = .release → order' = .release) (t : θ) (a : α) (value : ν) :
    KnowsLess (m.store order t a value) (m'.store order' t a value) where
  clock := h.clock
  writes := h.writes
  reads := h.reads
  view u := by
    have hLength := (h.messages a).length_eq
    exact (h.learn t (le_of_eq (by rw [hLength]))).view u
  messages b := by
    have hLength := (h.messages a).length_eq
    rcases eq_or_ne b a with rfl | hOther
    · change List.Forall₂ _ (Function.update m.messages b _ b) (Function.update m'.messages b _ b)
      rw [Function.update_self, Function.update_self]
      apply List.rel_append (h.messages b)
      refine List.Forall₂.cons ⟨rfl, ?_⟩ .nil
      rw [hLength]
      apply sup_le_sup_left
      split
      · rename_i hRelease
        rw [if_pos (hOrder hRelease)]
        exact h.view t
      · exact bot_le
    · rw [messages_store_of_ne hOther, messages_store_of_ne hOther]
      exact h.messages b

end

end Memory

end ReleaseAcquire

import CounterDroneServer.Library.BoundedQueue
import CounterDroneServer.Library.PartialLoop
import CounterDroneServer.Library.WhileLoop
import CounterDroneServer.LockFree.SPSCFifo

/-!
# The ring between two calls

One thread makes its calls one after another, so a call is a function of the
members. The items are the values of the cells from `m_head` up to `m_tail`;
what a call answers depends on the two indices and the items alone.
-/

set_option autoImplicit false

namespace CounterDroneServer.SPSCQueue

universe u

/-- The members of a queue that no call is using. -/
structure Ring (capacity : Nat) (T : Type u) where
  buffer : Nat → T
  head : Nat
  tail : Nat
  head_lt : head < mCapacity capacity
  tail_lt : tail < mCapacity capacity

inductive Call (T : Type u)
  | push (data : T)
  | pop
  | popAll (outData : List T)

inductive Answer (T : Type u)
  | pushed (accepted : Bool)
  | popped (outData : Option T)
  | drained (outData : List T) (count : Nat)
  deriving DecidableEq

variable {capacity : Nat} {T : Type u}

/-! ## Indices -/

theorem mCapacity_lt (capacity : Nat) : mCapacity capacity < sizeRange :=
  Nat.mod_lt _ (by decide)

theorem nextIndex_eq {index : Nat} (hIndex : index < mCapacity capacity) :
    nextIndex capacity index = (index + 1) % mCapacity capacity := by
  have hRange := mCapacity_lt capacity
  rw [nextIndex, Nat.mod_eq_of_lt (by omega : index + 1 < sizeRange)]

theorem nextIndex_lt {index : Nat} (hIndex : index < mCapacity capacity) :
    nextIndex capacity index < mCapacity capacity :=
  Nat.mod_lt _ (Nat.zero_lt_of_lt hIndex)

theorem cells_next {head tail : Nat} (hHead : head < mCapacity capacity)
    (hTail : tail < mCapacity capacity) (hNe : head ≠ tail) :
    RingBuffer.cells (mCapacity capacity) head tail =
      head :: RingBuffer.cells (mCapacity capacity) (nextIndex capacity head) tail := by
  rw [nextIndex_eq hHead, RingBuffer.cells_eq_cons hHead hTail hNe]

/-! ## The functions -/

namespace Ring

def init [Inhabited T] (hCapacity : capacity < sizeRange - 1) : Ring capacity T where
  buffer _ := default
  head := 0
  tail := 0
  head_lt := mCapacity_eq hCapacity ▸ Nat.succ_pos capacity
  tail_lt := mCapacity_eq hCapacity ▸ Nat.succ_pos capacity

def push (q : Ring capacity T) (data : T) : Ring capacity T × Bool :=
  let nextTail := nextIndex capacity q.tail
  if nextTail = q.head then (q, false)
  else
    ({ q with
      buffer := Function.update q.buffer q.tail data
      tail := nextTail
      tail_lt := nextIndex_lt q.tail_lt }, true)

def advance (q : Ring capacity T) : Ring capacity T :=
  { q with head := nextIndex capacity q.head, head_lt := nextIndex_lt q.head_lt }

/-- `none` is the answer `false`, which leaves the caller's `out_data` alone. -/
def pop (q : Ring capacity T) : Ring capacity T × Option T :=
  if q.head = q.tail then (q, none) else (q.advance, some (q.buffer q.head))

end Ring

/-- `available_items` of `pop_all`, in `size_t` arithmetic. -/
def availableItems (capacity currentHead currentTail : Nat) : Nat :=
  if currentHead ≤ currentTail then (currentTail + sizeRange - currentHead) % sizeRange
  else (mCapacity capacity + sizeRange - currentHead + currentTail) % sizeRange

/-- The buffer and the local variables of `pop_all` in its loop. -/
structure Moving (capacity : Nat) (T : Type u) where
  buffer : Nat → T
  currentHead : Nat
  currentHead_lt : currentHead < mCapacity capacity
  outData : List T
  count : Nat

def moveLoop (movedFrom : T → T) {currentTail : Nat} (hTail : currentTail < mCapacity capacity) :
    WhileLoop (Moving capacity T) where
  guard s := decide (s.currentHead ≠ currentTail)
  body s :=
    { buffer := Function.update s.buffer s.currentHead (movedFrom (s.buffer s.currentHead))
      currentHead := nextIndex capacity s.currentHead
      currentHead_lt := nextIndex_lt s.currentHead_lt
      outData := s.outData ++ [s.buffer s.currentHead]
      count := (s.count + 1) % sizeRange }
  rank s := (RingBuffer.cells (mCapacity capacity) s.currentHead currentTail).length
  rank_body s h := by
    rw [cells_next s.currentHead_lt hTail (of_decide_eq_true h)]
    exact Nat.lt_succ_self _

/-- `reserve` changes no element of the vector. -/
def Ring.popAll (movedFrom : T → T) (q : Ring capacity T) (outData : List T) :
    Ring capacity T × List T × Nat :=
  if q.head = q.tail then (q, outData, 0)
  else
    let moved := (moveLoop movedFrom q.tail_lt).run ⟨q.buffer, q.head, q.head_lt, outData, 0⟩
    ({ q with
      buffer := moved.buffer
      head := moved.currentHead
      head_lt := moved.currentHead_lt }, moved.outData, moved.count)

def Ring.call (movedFrom : T → T) (q : Ring capacity T) : Call T → Ring capacity T × Answer T
  | .push data => ((q.push data).1, .pushed (q.push data).2)
  | .pop => (q.pop.1, .popped q.pop.2)
  | .popAll outData =>
    let result := q.popAll movedFrom outData
    (result.1, .drained result.2.1 result.2.2)

/-- The queue after a sequence of calls. -/
def Ring.after (movedFrom : T → T) (q : Ring capacity T) (calls : List (Call T)) :
    Ring capacity T :=
  calls.foldl (fun q c => (q.call movedFrom c).1) q

def Ring.answers (movedFrom : T → T) : Ring capacity T → List (Call T) → List (Answer T)
  | _, [] => []
  | q, c :: calls => (q.call movedFrom c).2 :: answers movedFrom (q.call movedFrom c).1 calls

/-- `while (pop(item)) values.push_back(item);` -/
def popUntilFalse : PartialLoop (Ring capacity T × List T) (Ring capacity T × List T) where
  body s :=
    match s.1.pop with
    | (q, some item) => .inl (q, s.2 ++ [item])
    | (q, none) => .inr (q, s.2)

/-! ## The items -/

namespace Ring

def items (q : Ring capacity T) : List T :=
  (RingBuffer.cells (mCapacity capacity) q.head q.tail).map q.buffer

theorem length_items_le (q : Ring capacity T) : q.items.length ≤ capacity := by
  have hCells := RingBuffer.length_cells_lt q.head_lt q.tail_lt
  have hSlots : mCapacity capacity ≤ capacity + 1 := Nat.mod_le _ _
  rw [items, List.length_map]
  omega

theorem items_of_empty {q : Ring capacity T} (hEmpty : q.head = q.tail) : q.items = [] := by
  rw [items, ← hEmpty, RingBuffer.cells_self q.head_lt]
  rfl

theorem items_eq_cons {q : Ring capacity T} (hSome : q.head ≠ q.tail) :
    q.items = q.buffer q.head :: q.advance.items := by
  rw [items, cells_next q.head_lt q.tail_lt hSome]
  rfl

theorem push_full {q : Ring capacity T} (hFull : nextIndex capacity q.tail = q.head) (data : T) :
    q.push data = (q, false) :=
  if_pos hFull

theorem push_room {q : Ring capacity T} (hRoom : nextIndex capacity q.tail ≠ q.head) (data : T) :
    (q.push data).2 = true ∧ (q.push data).1.head = q.head ∧
      (q.push data).1.tail = nextIndex capacity q.tail ∧
      (q.push data).1.items = q.items ++ [data] := by
  have hPush : q.push data = _ := if_neg hRoom
  rw [hPush]
  refine ⟨rfl, rfl, rfl, ?_⟩
  -- the cell written is the one kept free behind the tail
  have hFree : q.tail ∉ RingBuffer.cells (mCapacity capacity) q.head q.tail :=
    RingBuffer.tail_notMem_cells q.head_lt q.tail_lt
  rw [nextIndex_eq q.tail_lt] at hRoom
  simp only [items, nextIndex_eq q.tail_lt]
  rw [RingBuffer.cells_concat q.head_lt q.tail_lt hRoom, List.map_append, List.map_singleton,
    Function.update_self]
  congr 1
  apply List.map_congr_left
  intro c hc
  exact Function.update_of_ne (ne_of_mem_of_not_mem hc hFree) _ _

theorem pop_empty {q : Ring capacity T} (hEmpty : q.head = q.tail) : q.pop = (q, none) :=
  if_pos hEmpty

theorem pop_some {q : Ring capacity T} (hSome : q.head ≠ q.tail) :
    q.pop = (q.advance, some (q.buffer q.head)) :=
  if_neg hSome

end Ring

/-! ## The list queue -/

theorem Ring.push_refines (hCapacity : capacity < sizeRange - 1) (q : Ring capacity T) (data : T) :
    BoundedQueue.call capacity q.items (.push data) =
      ((q.push data).1.items, .pushed (q.push data).2) := by
  have hSlots := mCapacity_eq hCapacity
  by_cases hFull : nextIndex capacity q.tail = q.head
  · have hLength : q.items.length = capacity := by
      rw [nextIndex_eq q.tail_lt] at hFull
      have hCells := RingBuffer.length_cells_of_full q.head_lt q.tail_lt hFull
      rw [items, List.length_map]
      omega
    rw [push_full hFull, BoundedQueue.call_push_full data hLength]
  · obtain ⟨hAccepted, -, -, hItems⟩ := push_room hFull data
    have hLength := (q.push data).1.length_items_le
    rw [hItems, List.length_append] at hLength
    rw [BoundedQueue.call_push_room data hLength, hAccepted, hItems]

theorem Ring.pop_refines (q : Ring capacity T) :
    BoundedQueue.call capacity q.items .pop = (q.pop.1.items, .popped q.pop.2) := by
  by_cases hEmpty : q.head = q.tail
  · rw [pop_empty hEmpty, items_of_empty hEmpty]
    rfl
  · rw [pop_some hEmpty, items_eq_cons hEmpty]
    rfl

def Ring.perform (q : Ring capacity T) :
    BoundedQueue.Call T → Ring capacity T × BoundedQueue.Result T
  | .push data => ((q.push data).1, .pushed (q.push data).2)
  | .pop => (q.pop.1, .popped q.pop.2)

def Ring.Performs (q : Ring capacity T) (c : BoundedQueue.Call T) (q' : Ring capacity T)
    (result : BoundedQueue.Result T) : Prop :=
  q.perform c = (q', result)

/-- Pushes and pops of one thread are those of the bounded list queue. -/
theorem Ring.answers_listQueue (hCapacity : capacity < sizeRange - 1) (q : Ring capacity T)
    (calls : List (BoundedQueue.Call T)) :
    BoundedQueue.Answers Ring.Performs q calls (BoundedQueue.results capacity q.items calls) := by
  have hStep : ∀ c (calls : List (BoundedQueue.Call T)) (q : Ring capacity T) items,
      q.items = items → ∃ q', q.Performs c q' (BoundedQueue.call capacity items (id c)).2 ∧
        q'.items = (BoundedQueue.call capacity items (id c)).1 := by
    rintro c - q _ rfl
    cases c with
    | push data =>
      rw [id_eq, q.push_refines hCapacity data]
      exact ⟨_, rfl, rfl⟩
    | pop =>
      rw [id_eq, q.pop_refines]
      exact ⟨_, rfl, rfl⟩
  have hAnswers : BoundedQueue.Answers Ring.Performs q calls
      (BoundedQueue.results capacity q.items (calls.map id)) :=
    BoundedQueue.answers_results id (fun _ q items => Ring.items q = items) hStep rfl
  rwa [List.map_id] at hAnswers

/-! ## The calls in the two threads -/

/-- The members of `q` with the logs of `s`, and no call running. -/
def Ring.quiet (q : Ring capacity T) (s : State T) : State T :=
  { s with buffer := q.buffer, head := q.head, tail := q.tail, producer := .idle, consumer := .idle }

section Runs

variable {movedFrom : T → T} {s₀ s : State T} {q : Ring capacity T}

theorem push_reaches (hReach : (queue capacity movedFrom).Reaches s₀ (q.quiet s)) (data : T) :
    ∃ s', (queue capacity movedFrom).Reaches s₀ ((q.push data).1.quiet s') ∧
      s'.pushReturns = s.pushReturns ++ [((q.push data).2, stored s)] ∧
      s'.handed = s.handed := by
  by_cases hFull : nextIndex capacity q.tail = q.head
  · have hRun : (queue capacity movedFrom).runActions (q.quiet s)
        [.callPush data, .producerLoadTail, .producerLoadHead] =
        some (q.quiet { s with
          storedAtHeadLoad := stored s
          pushReturns := s.pushReturns ++ [(false, stored s)] }) := by
      simp only [StepSystem.runActions, queue, step, producerStep, Ring.quiet, Option.some_or,
        Option.bind_some, if_pos hFull]
      rfl
    rw [Ring.push_full hFull]
    exact ⟨_, hReach.runActions hRun, rfl, rfl⟩
  · have hPush : q.push data = _ := if_neg hFull
    have hRun : (queue capacity movedFrom).runActions (q.quiet s)
        [.callPush data, .producerLoadTail, .producerLoadHead, .writeCell, .storeTail] =
        some ((q.push data).1.quiet { s with
          storedAtHeadLoad := stored s
          pushed := s.pushed ++ [data]
          pushReturns := s.pushReturns ++ [(true, stored s)] }) := by
      rw [hPush]
      simp only [StepSystem.runActions, queue, step, producerStep, Ring.quiet, Option.some_or,
        Option.bind_some, if_neg hFull]
      rfl
    refine ⟨_, hReach.runActions hRun, ?_, rfl⟩
    rw [hPush]

theorem pop_reaches (hReach : (queue capacity movedFrom).Reaches s₀ (q.quiet s)) :
    ∃ s', (queue capacity movedFrom).Reaches s₀ (q.pop.1.quiet s') ∧
      s'.popReturns = s.popReturns ++ [(q.pop.2.isSome, stored s)] ∧
      s'.handed = s.handed ++ q.pop.2.toList := by
  by_cases hEmpty : q.head = q.tail
  · have hRun : (queue capacity movedFrom).runActions (q.quiet s)
        [.callPop, .consumerLoadHead, .consumerLoadTail] =
        some (q.quiet { s with
          storedAtTailLoad := stored s
          popReturns := s.popReturns ++ [(false, stored s)] }) := by
      simp only [StepSystem.runActions, queue, step, producerStep, consumerStep, Ring.quiet,
        Option.none_or, Option.bind_some, if_pos hEmpty]
      rfl
    rw [Ring.pop_empty hEmpty]
    exact ⟨_, hReach.runActions hRun, rfl, (List.append_nil _).symm⟩
  · have hRun : (queue capacity movedFrom).runActions (q.quiet s)
        [.callPop, .consumerLoadHead, .consumerLoadTail, .readCell, .storeHead] =
        some (q.advance.quiet { s with
          storedAtTailLoad := stored s
          handed := s.handed ++ [q.buffer q.head]
          popReturns := s.popReturns ++ [(true, stored s)] }) := by
      simp only [StepSystem.runActions, queue, step, producerStep, consumerStep, Ring.quiet,
        Option.none_or, Option.bind_some, if_neg hEmpty]
      rfl
    rw [Ring.pop_some hEmpty]
    exact ⟨_, hReach.runActions hRun, rfl, rfl⟩

/-- The state of the two threads while `pop_all` moves the values out. -/
def Moving.running (m : Moving capacity T) (currentTail : Nat) (s : State T) : State T :=
  { s with buffer := m.buffer, consumer := .popAllMoving m.currentHead currentTail m.outData m.count }

theorem moveLoop_reaches {currentTail : Nat} (hTail : currentTail < mCapacity capacity)
    (m : Moving capacity T)
    (hReach : (queue capacity movedFrom).Reaches s₀ (m.running currentTail s)) :
    (queue capacity movedFrom).Reaches s₀
      (((moveLoop movedFrom hTail).run m).running currentTail s) := by
  induction m using (moveLoop movedFrom hTail).induction with
  | stop m hGuard => rwa [(moveLoop movedFrom hTail).run_of_not_guard hGuard]
  | round m hGuard ih =>
    have hNe : m.currentHead ≠ currentTail := of_decide_eq_true hGuard
    rw [(moveLoop movedFrom hTail).run_of_guard hGuard]
    refine ih (hReach.step .moveCell trivial ?_)
    simp only [queue, step, producerStep, consumerStep, Moving.running, Option.none_or, if_pos hNe]
    rfl

/-- The values already in the vector steer nothing. -/
theorem moveLoop_run_append (movedFrom : T → T) {currentTail : Nat}
    (hTail : currentTail < mCapacity capacity) (outData : List T) (m : Moving capacity T) :
    (moveLoop movedFrom hTail).run { m with outData := outData ++ m.outData } =
      { (moveLoop movedFrom hTail).run m with
        outData := outData ++ ((moveLoop movedFrom hTail).run m).outData } := by
  refine (moveLoop movedFrom hTail).run_map (moveLoop movedFrom hTail)
    (fun m => { m with outData := outData ++ m.outData }) (fun _ => rfl) ?_ m
  intro m _
  simp only [moveLoop, List.append_assoc]

theorem popAll_reaches (hReach : (queue capacity movedFrom).Reaches s₀ (q.quiet s))
    (outData : List T) :
    ∃ s' taken, (queue capacity movedFrom).Reaches s₀
        ((q.popAll movedFrom outData).1.quiet s') ∧
      (q.popAll movedFrom outData).2.1 = outData ++ taken ∧
      s'.popAllReturns = s.popAllReturns ++ [((q.popAll movedFrom outData).2.2, stored s)] ∧
      s'.handed = s.handed ++ taken := by
  by_cases hEmpty : q.head = q.tail
  · have hRun : (queue capacity movedFrom).runActions (q.quiet s)
        [.callPopAll, .consumerLoadHead, .consumerLoadTail] =
        some (q.quiet { s with
          storedAtTailLoad := stored s
          popAllReturns := s.popAllReturns ++ [(0, stored s)] }) := by
      simp only [StepSystem.runActions, queue, step, producerStep, consumerStep, Ring.quiet,
        Option.none_or, Option.bind_some, if_pos hEmpty]
      rfl
    rw [Ring.popAll, if_pos hEmpty]
    exact ⟨_, [], hReach.runActions hRun, (List.append_nil _).symm, rfl, (List.append_nil _).symm⟩
  · let start : Moving capacity T := ⟨q.buffer, q.head, q.head_lt, [], 0⟩
    have hRun : (queue capacity movedFrom).runActions (q.quiet s)
        [.callPopAll, .consumerLoadHead, .consumerLoadTail] =
        some (start.running q.tail (q.quiet { s with storedAtTailLoad := stored s })) := by
      simp only [StepSystem.runActions, queue, step, producerStep, consumerStep, Ring.quiet,
        Option.none_or, Option.bind_some, if_neg hEmpty]
      rfl
    have hMoved := moveLoop_reaches q.tail_lt start (hReach.runActions hRun)
    have hDone : ((moveLoop movedFrom q.tail_lt).run start).currentHead = q.tail :=
      not_not.mp (of_decide_eq_false ((moveLoop movedFrom q.tail_lt).guard_run start))
    have hAppend := moveLoop_run_append movedFrom q.tail_lt outData start
    simp only [start, List.append_nil] at hAppend
    have hPopAll : q.popAll movedFrom outData = _ := if_neg hEmpty
    rw [hAppend] at hPopAll
    have hStore : (queue capacity movedFrom).runActions
        (((moveLoop movedFrom q.tail_lt).run start).running q.tail
          (q.quiet { s with storedAtTailLoad := stored s })) [.storeHead] =
        some ((q.popAll movedFrom outData).1.quiet { s with
          storedAtTailLoad := stored s
          handed := s.handed ++ ((moveLoop movedFrom q.tail_lt).run start).outData
          popAllReturns := s.popAllReturns ++
            [(((moveLoop movedFrom q.tail_lt).run start).count, stored s)] }) := by
      rw [hPopAll]
      simp only [StepSystem.runActions, queue, step, producerStep, consumerStep, Moving.running,
        Option.none_or, Option.bind_some, if_pos hDone]
      rfl
    refine ⟨_, _, hMoved.runActions hStore, ?_, ?_, rfl⟩
    · rw [hPopAll]
    · rw [hPopAll]

end Runs

/-- Every sequence of calls is a run of the two threads. -/
theorem calls_reach (movedFrom : T → T) {s₀ s : State T} {q : Ring capacity T}
    (hReach : (queue capacity movedFrom).Reaches s₀ (q.quiet s)) (calls : List (Call T)) :
    ∃ s', (queue capacity movedFrom).Reaches s₀ ((q.after movedFrom calls).quiet s') := by
  induction calls generalizing q s with
  | nil => exact ⟨s, hReach⟩
  | cons c calls ih =>
    cases c with
    | push data =>
      obtain ⟨s', hNext, -⟩ := push_reaches hReach data
      exact ih hNext
    | pop =>
      obtain ⟨s', hNext, -⟩ := pop_reaches hReach
      exact ih hNext
    | popAll outData =>
      obtain ⟨s', -, hNext, -⟩ := popAll_reaches hReach outData
      exact ih hNext

/-- In that run the items are the values pushed and not yet handed over. -/
theorem after_items [Inhabited T] (hCapacity : capacity < sizeRange - 1) (movedFrom : T → T)
    (calls : List (Call T)) :
    ∃ s : State T, (queue capacity movedFrom).Reaches init
        (((Ring.init hCapacity).after movedFrom calls).quiet s) ∧
      s.pushed = s.handed ++ ((Ring.init hCapacity).after movedFrom calls).items := by
  have hInit : (queue capacity movedFrom).Reaches (init : State T)
      ((Ring.init hCapacity).quiet init) := .refl
  obtain ⟨s, hReach⟩ := calls_reach movedFrom hInit calls
  exact ⟨s, hReach, ((fifo_of_reaches hCapacity hReach).boundedFifo hCapacity).restInCells rfl⟩

end CounterDroneServer.SPSCQueue

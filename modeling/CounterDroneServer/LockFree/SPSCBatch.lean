import CounterDroneServer.LockFree.SPSCCalls

/-!
# The batch drain

`pop_all` against `pop` called until it returns `false`. Both take the items and
leave the same indices; the buffers they leave differ in cells that no later call
reads.
-/

set_option autoImplicit false

namespace CounterDroneServer.SPSCQueue

universe u

variable {capacity : Nat} {T : Type u}

/-! ## The batch -/

/-- What the loop leaves, when `count` does not overflow. -/
theorem moveLoop_run (movedFrom : T → T) {currentTail : Nat}
    (hTail : currentTail < mCapacity capacity) (s : Moving capacity T)
    (hCount : s.count +
      (RingBuffer.cells (mCapacity capacity) s.currentHead currentTail).length < sizeRange) :
    ((moveLoop movedFrom hTail).run s).currentHead = currentTail ∧
      ((moveLoop movedFrom hTail).run s).outData = s.outData ++
        (RingBuffer.cells (mCapacity capacity) s.currentHead currentTail).map s.buffer ∧
      ((moveLoop movedFrom hTail).run s).count = s.count +
        (RingBuffer.cells (mCapacity capacity) s.currentHead currentTail).length := by
  induction s using (moveLoop movedFrom hTail).induction with
  | stop s hGuard =>
    have hSame : s.currentHead = currentTail := not_not.mp (of_decide_eq_false hGuard)
    rw [(moveLoop movedFrom hTail).run_of_not_guard hGuard, hSame, RingBuffer.cells_self hTail]
    exact ⟨rfl, (List.append_nil _).symm, rfl⟩
  | round s hGuard ih =>
    have hNe : s.currentHead ≠ currentTail := of_decide_eq_true hGuard
    have hFree := RingBuffer.head_notMem_cells s.currentHead_lt hTail hNe
    rw [← nextIndex_eq s.currentHead_lt] at hFree
    rw [cells_next s.currentHead_lt hTail hNe, List.length_cons] at hCount
    have hNext : ((moveLoop movedFrom hTail).body s).count = s.count + 1 :=
      Nat.mod_eq_of_lt (by omega)
    rw [hNext, Nat.add_assoc, Nat.add_comm 1] at ih
    obtain ⟨hHead, hOut, hLength⟩ := ih hCount
    rw [(moveLoop movedFrom hTail).run_of_guard hGuard, cells_next s.currentHead_lt hTail hNe]
    refine ⟨hHead, ?_, hLength⟩
    rw [hOut, List.map_cons, ← List.singleton_append, ← List.append_assoc]
    -- the cell moved from is not among those still to be read
    congr 1
    apply List.map_congr_left
    intro c hc
    exact Function.update_of_ne (ne_of_mem_of_not_mem hc hFree) _ _

theorem availableItems_eq (q : Ring capacity T) :
    availableItems capacity q.head q.tail = q.items.length := by
  have hHead := q.head_lt
  have hTail := q.tail_lt
  have hRange := mCapacity_lt capacity
  rw [availableItems, Ring.items, List.length_map, RingBuffer.cells, List.length_map,
    List.length_range]
  split
  case isTrue hOrdered =>
    rw [show q.tail + sizeRange - q.head = q.tail - q.head + sizeRange by omega,
      show q.tail + mCapacity capacity - q.head = q.tail - q.head + mCapacity capacity by omega,
      Nat.add_mod_right, Nat.add_mod_right, Nat.mod_eq_of_lt (by omega), Nat.mod_eq_of_lt (by omega)]
  case isFalse hWrapped =>
    rw [show mCapacity capacity + sizeRange - q.head + q.tail =
        q.tail + mCapacity capacity - q.head + sizeRange by omega,
      Nat.add_mod_right, Nat.mod_eq_of_lt (by omega), Nat.mod_eq_of_lt (by omega)]

namespace Ring

theorem popAll_eq (movedFrom : T → T) (q : Ring capacity T) (outData : List T) :
    (q.popAll movedFrom outData).1.head = q.tail ∧ (q.popAll movedFrom outData).1.tail = q.tail ∧
      (q.popAll movedFrom outData).2.1 = outData ++ q.items ∧
      (q.popAll movedFrom outData).2.2 = q.items.length := by
  by_cases hEmpty : q.head = q.tail
  · rw [popAll, if_pos hEmpty, items_of_empty hEmpty, List.append_nil]
    exact ⟨hEmpty, rfl, rfl, rfl⟩
  · have hLength := RingBuffer.length_cells_lt q.head_lt q.tail_lt
    have hRange := mCapacity_lt capacity
    obtain ⟨hHead, hOut, hCount⟩ :=
      moveLoop_run movedFrom q.tail_lt ⟨q.buffer, q.head, q.head_lt, outData, 0⟩ (by dsimp only; omega)
    rw [popAll, if_neg hEmpty]
    refine ⟨hHead, rfl, hOut, ?_⟩
    rw [items, List.length_map]
    exact hCount.trans (Nat.zero_add _)

end Ring

/-! ## One by one -/

theorem popUntilFalse_returns (q : Ring capacity T) (outData : List T) :
    ∃ q', popUntilFalse.Returns (q, outData) (q', outData ++ q.items) ∧
      q'.head = q.tail ∧ q'.tail = q.tail := by
  generalize hItems : q.items = items
  induction items generalizing q outData with
  | nil =>
    have hEmpty : q.head = q.tail := by
      by_contra hSome
      rw [Ring.items_eq_cons hSome] at hItems
      cases hItems
    refine ⟨q, PartialLoop.returns_of_inr ?_, hEmpty, rfl⟩
    simp only [popUntilFalse, Ring.pop_empty hEmpty, List.append_nil]
  | cons item items ih =>
    have hSome : q.head ≠ q.tail := by
      intro hEmpty
      rw [Ring.items_of_empty hEmpty] at hItems
      cases hItems
    rw [Ring.items_eq_cons hSome] at hItems
    obtain ⟨rfl, hRest⟩ := List.cons.inj hItems
    obtain ⟨q', hReturns, hHead, hTail⟩ := ih q.advance (outData ++ [q.buffer q.head]) hRest
    rw [List.append_assoc, List.singleton_append] at hReturns
    refine ⟨q', PartialLoop.returns_of_inl ?_ hReturns, hHead, hTail⟩
    simp only [popUntilFalse, Ring.pop_some hSome]

/-! ## What a call can tell apart -/

/-- Two queues with the same indices and the same items. The other cells may
differ, as a moved-from value differs from a copied one. -/
structure SameContent (q q' : Ring capacity T) : Prop where
  head : q.head = q'.head
  tail : q.tail = q'.tail
  items : q.items = q'.items

theorem SameContent.push {q q' : Ring capacity T} (h : SameContent q q') (data : T) :
    (q.push data).2 = (q'.push data).2 ∧ SameContent (q.push data).1 (q'.push data).1 := by
  by_cases hFull : nextIndex capacity q.tail = q.head
  · have hFull' : nextIndex capacity q'.tail = q'.head := by rw [← h.tail, ← h.head, hFull]
    rw [Ring.push_full hFull, Ring.push_full hFull']
    exact ⟨rfl, h⟩
  · have hFull' : nextIndex capacity q'.tail ≠ q'.head := by rwa [← h.tail, ← h.head]
    obtain ⟨hAccepted, hHead, hTail, hItems⟩ := Ring.push_room hFull data
    obtain ⟨hAccepted', hHead', hTail', hItems'⟩ := Ring.push_room hFull' data
    refine ⟨hAccepted.trans hAccepted'.symm, ⟨?_, ?_, ?_⟩⟩
    · rw [hHead, hHead', h.head]
    · rw [hTail, hTail', h.tail]
    · rw [hItems, hItems', h.items]

theorem SameContent.pop {q q' : Ring capacity T} (h : SameContent q q') :
    q.pop.2 = q'.pop.2 ∧ SameContent q.pop.1 q'.pop.1 := by
  by_cases hEmpty : q.head = q.tail
  · have hEmpty' : q'.head = q'.tail := by rw [← h.head, ← h.tail, hEmpty]
    rw [Ring.pop_empty hEmpty, Ring.pop_empty hEmpty']
    exact ⟨rfl, h⟩
  · have hSome' : q'.head ≠ q'.tail := by rwa [← h.head, ← h.tail]
    have hItems := h.items
    rw [Ring.items_eq_cons hEmpty, Ring.items_eq_cons hSome'] at hItems
    obtain ⟨hItem, hRest⟩ := List.cons.inj hItems
    rw [Ring.pop_some hEmpty, Ring.pop_some hSome']
    exact ⟨congrArg some hItem, congrArg (nextIndex capacity) h.head, h.tail, hRest⟩

theorem SameContent.popAll (movedFrom : T → T) {q q' : Ring capacity T} (h : SameContent q q')
    (outData : List T) :
    (q.popAll movedFrom outData).2 = (q'.popAll movedFrom outData).2 ∧
      SameContent (q.popAll movedFrom outData).1 (q'.popAll movedFrom outData).1 := by
  obtain ⟨hHead, hTail, hOut, hCount⟩ := q.popAll_eq movedFrom outData
  obtain ⟨hHead', hTail', hOut', hCount'⟩ := q'.popAll_eq movedFrom outData
  have hSame := h.tail
  refine ⟨Prod.ext ?_ ?_, ⟨?_, ?_, ?_⟩⟩
  · rw [hOut, hOut', h.items]
  · rw [hCount, hCount', h.items]
  · rw [hHead, hHead', h.tail]
  · rw [hTail, hTail', h.tail]
  · rw [Ring.items_of_empty (hHead.trans hTail.symm), Ring.items_of_empty (hHead'.trans hTail'.symm)]

theorem SameContent.call (movedFrom : T → T) {q q' : Ring capacity T} (h : SameContent q q')
    (c : Call T) :
    (q.call movedFrom c).2 = (q'.call movedFrom c).2 ∧
      SameContent (q.call movedFrom c).1 (q'.call movedFrom c).1 := by
  cases c with
  | push data => exact (h.push data).imp_left (congrArg Answer.pushed)
  | pop => exact h.pop.imp_left (congrArg Answer.popped)
  | popAll outData =>
    exact (h.popAll movedFrom outData).imp_left
      (congrArg fun result : List T × Nat => Answer.drained result.1 result.2)

theorem SameContent.calls (movedFrom : T → T) {q q' : Ring capacity T} (h : SameContent q q')
    (calls : List (Call T)) :
    q.answers movedFrom calls = q'.answers movedFrom calls ∧
      SameContent (q.after movedFrom calls) (q'.after movedFrom calls) := by
  induction calls generalizing q q' with
  | nil => exact ⟨rfl, h⟩
  | cons c calls ih =>
    obtain ⟨hAnswer, hNext⟩ := h.call movedFrom c
    obtain ⟨hAnswers, hAfter⟩ := ih hNext
    exact ⟨congrArg₂ List.cons hAnswer hAnswers, hAfter⟩

/-! ## The two drains -/

theorem Ring.popAll_one_by_one (movedFrom : T → T) (q : Ring capacity T) (outData : List T) :
    ∃ q' values, popUntilFalse.Returns (q, []) (q', values) ∧
      (q.popAll movedFrom outData).2.1 = outData ++ values ∧
      (q.popAll movedFrom outData).2.2 = values.length ∧
      SameContent (q.popAll movedFrom outData).1 q' ∧ values = q.items := by
  obtain ⟨hHead, hTail, hOut, hCount⟩ := q.popAll_eq movedFrom outData
  obtain ⟨q', hReturns, hHead', hTail'⟩ := popUntilFalse_returns q []
  refine ⟨q', q.items, hReturns, hOut, hCount, ⟨?_, ?_, ?_⟩, rfl⟩
  · rw [hHead, hHead']
  · rw [hTail, hTail']
  · rw [items_of_empty (hHead.trans hTail.symm), items_of_empty (hHead'.trans hTail'.symm)]

/-- The batch drain equals the one-by-one drain, and no later call can tell which
of the two was made. -/
theorem popAll_eq_popUntilFalse [Inhabited T] (hCapacity : capacity < sizeRange - 1)
    (movedFrom : T → T) (history : List (Call T)) (outData : List T) :
    let q := (Ring.init hCapacity).after movedFrom history
    let batch := q.popAll movedFrom outData
    ∃ q' values, popUntilFalse.Returns (q, []) (q', values) ∧
      batch.2.1 = outData ++ values ∧
      batch.1.head = q'.head ∧ batch.1.tail = q'.tail ∧
      batch.2.2 = values.length ∧ batch.2.2 = availableItems capacity q.head q.tail ∧
      batch.2.2 ≤ capacity ∧
      ∀ calls, batch.1.answers movedFrom calls = q'.answers movedFrom calls ∧
        (batch.1.after movedFrom calls).head = (q'.after movedFrom calls).head ∧
        (batch.1.after movedFrom calls).tail = (q'.after movedFrom calls).tail := by
  intro q batch
  obtain ⟨q', values, hReturns, hOut, hCount, hSame, rfl⟩ := q.popAll_one_by_one movedFrom outData
  refine ⟨q', q.items, hReturns, hOut, hSame.head, hSame.tail, hCount, ?_, ?_, ?_⟩
  · exact hCount.trans (availableItems_eq q).symm
  · exact hCount.trans_le q.length_items_le
  · intro calls
    obtain ⟨hAnswers, hAfter⟩ := hSame.calls movedFrom calls
    exact ⟨hAnswers, hAfter.head, hAfter.tail⟩

/-- Two items that wrap around, and a vector that holds one value already. -/
theorem popAll_eq_popUntilFalse_wrapped :
    let q := (Ring.init (show 2 < sizeRange - 1 by decide)).after (fun _ => 0)
      [.push 1, .push 2, .pop, .push 3]
    q.head = 1 ∧ q.tail = 0 ∧ (q.popAll (fun _ => 0) [9]).2 = ([9, 2, 3], 2) ∧
      ∃ q', popUntilFalse.Returns (q, []) (q', [2, 3]) := by
  intro q
  obtain ⟨q', values, hReturns, hOut, -⟩ := popAll_eq_popUntilFalse
    (show 2 < sizeRange - 1 by decide) (fun _ => 0) [.push 1, .push 2, .pop, .push 3] [9]
  have hValues : [9] ++ [2, 3] = [9] ++ values := hOut
  rw [← List.append_cancel_left hValues] at hReturns
  exact ⟨rfl, rfl, rfl, q', hReturns⟩

end CounterDroneServer.SPSCQueue

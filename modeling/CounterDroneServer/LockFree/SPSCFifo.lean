import CounterDroneServer.LockFree.SPSCQueue

/-!
# The ring is a bounded queue

Both indices are counters modulo `m_capacity`: the number of values handed over
and the number of values pushed, never more than `capacity` apart. Every cell
between the consumer's position and the tail holds the value pushed for it.
-/

set_option autoImplicit false

namespace CounterDroneServer.SPSCQueue

open StepSystem (forall_mem_concat)

universe u

variable {T : Type u}

/-! ## The invariant -/

/-- Values that a running `pop_all` has taken from cells not yet handed over. -/
def ConsumerPc.moved : ConsumerPc T → Nat
  | .popAllMoving _ _ outData _ => outData.length
  | _ => 0

def ProducerOk (capacity : Nat) (s : State T) : ProducerPc T → Prop
  | .idle | .push _ => True
  | .tailLoaded _ currentTail => currentTail = s.tail
  | .writing _ currentTail nextTail => currentTail = s.tail ∧
      nextTail = (s.pushed.length + 1) % (capacity + 1) ∧
      s.pushed.length < s.handed.length + capacity
  | .storing data nextTail => nextTail = (s.pushed.length + 1) % (capacity + 1) ∧
      s.pushed.length < s.handed.length + capacity ∧ s.buffer s.tail = data

def ConsumerOk (capacity : Nat) (s : State T) : ConsumerPc T → Prop
  | .idle | .pop | .popAll => True
  | .popHeadLoaded currentHead | .popAllHeadLoaded currentHead => currentHead = s.head
  | .popReading currentHead => currentHead = s.head ∧ s.handed.length < s.pushed.length
  | .popStoring currentHead outData => currentHead = s.head ∧ s.handed ++ [outData] <+: s.pushed
  | .popAllMoving currentHead currentTail outData count =>
      s.handed ++ outData <+: s.pushed ∧ count = outData.length ∧
      currentHead = (s.handed.length + outData.length) % (capacity + 1) ∧
      currentTail = (s.handed.length + s.storedAtTailLoad) % (capacity + 1) ∧
      outData.length ≤ s.storedAtTailLoad ∧
      s.handed.length + s.storedAtTailLoad ≤ s.pushed.length

structure Fifo (capacity : Nat) (s : State T) : Prop where
  head : s.head = s.handed.length % (capacity + 1)
  tail : s.tail = s.pushed.length % (capacity + 1)
  handed : s.handed <+: s.pushed
  bound : s.pushed.length ≤ s.handed.length + capacity
  producer : ProducerOk capacity s s.producer
  consumer : ConsumerOk capacity s s.consumer
  cells : ∀ k, s.handed.length + s.consumer.moved ≤ k → k < s.pushed.length →
    s.pushed[k]? = some (s.buffer (k % (capacity + 1)))
  pushReturns : ∀ r ∈ s.pushReturns, r.1 = false → r.2 = capacity
  popReturns : ∀ r ∈ s.popReturns, r.1 = false → r.2 = 0
  popAllReturns : ∀ r ∈ s.popAllReturns, r.1 = r.2
  pushedReturned : s.pushReturns.countP Prod.fst = s.pushed.length
  handedReturned : s.popReturns.countP Prod.fst + (s.popAllReturns.map Prod.fst).sum = s.handed.length

theorem fifo_init (capacity : Nat) [Inhabited T] : Fifo capacity (init : State T) where
  head := (Nat.zero_mod _).symm
  tail := (Nat.zero_mod _).symm
  handed := List.prefix_refl _
  bound := Nat.zero_le _
  producer := trivial
  consumer := trivial
  cells _ _ h := absurd h (Nat.not_lt_zero _)
  pushReturns _ h := absurd h List.not_mem_nil
  popReturns _ h := absurd h List.not_mem_nil
  popAllReturns _ h := absurd h List.not_mem_nil
  pushedReturned := rfl
  handedReturned := rfl

/-! ## Indices -/

theorem mCapacity_eq {capacity : Nat} (hCapacity : capacity < sizeRange - 1) :
    mCapacity capacity = capacity + 1 :=
  Nat.mod_eq_of_lt (by omega)

theorem nextIndex_mod {capacity : Nat} (hCapacity : capacity < sizeRange - 1) (k : Nat) :
    nextIndex capacity (k % (capacity + 1)) = (k + 1) % (capacity + 1) := by
  have hIndex : k % (capacity + 1) < capacity + 1 := Nat.mod_lt k (Nat.succ_pos capacity)
  rw [nextIndex, mCapacity_eq hCapacity, Nat.mod_eq_of_lt (by omega : k % (capacity + 1) + 1 < sizeRange),
    Nat.mod_add_mod]

theorem countP_concat {α : Type u} (p : α → Bool) (xs : List α) (x : α) :
    (xs ++ [x]).countP p = xs.countP p + (p x).toNat := by
  rw [List.countP_append, List.countP_singleton]
  cases p x <;> rfl

/-- A call that is refused changes no count of the values that went through. -/
theorem Fifo.pushedReturned_refused {capacity : Nat} {s : State T} (h : Fifo capacity s) (k : Nat) :
    (s.pushReturns ++ [(false, k)]).countP Prod.fst = s.pushed.length :=
  (countP_concat _ _ _).trans h.pushedReturned

theorem Fifo.handedReturned_refused {capacity : Nat} {s : State T} (h : Fifo capacity s) (k : Nat) :
    (s.popReturns ++ [(false, k)]).countP Prod.fst + (s.popAllReturns.map Prod.fst).sum =
      s.handed.length := by
  rw [countP_concat]
  exact h.handedReturned

theorem Fifo.handedReturned_empty {capacity : Nat} {s : State T} (h : Fifo capacity s) (k : Nat) :
    s.popReturns.countP Prod.fst + ((s.popAllReturns ++ [(0, k)]).map Prod.fst).sum =
      s.handed.length := by
  rw [List.map_append, List.sum_append]
  exact h.handedReturned

theorem Fifo.full_iff {capacity : Nat} (hCapacity : capacity < sizeRange - 1) {s : State T}
    (h : Fifo capacity s) :
    nextIndex capacity s.tail = s.head ↔ s.pushed.length = s.handed.length + capacity := by
  have hHanded := h.handed.length_le
  have hBound := h.bound
  rw [h.tail, h.head, nextIndex_mod hCapacity]
  constructor
  · intro hSame
    by_contra hNotFull
    have := (RingBuffer.mod_eq_iff (by omega) (by omega)).mp hSame.symm
    omega
  · intro hFull
    rw [hFull, Nat.add_assoc, Nat.add_mod_right]

theorem Fifo.empty_iff {capacity : Nat} {s : State T} (h : Fifo capacity s) :
    s.head = s.tail ↔ s.handed.length = s.pushed.length := by
  have hBound := h.bound
  rw [h.head, h.tail]
  exact RingBuffer.mod_eq_iff h.handed.length_le (by omega)

/-! ## Steps of the producer -/

theorem ConsumerOk.push {capacity : Nat} {s s' : State T} {pc : ConsumerPc T} {data : T}
    (h : ConsumerOk capacity s pc) (hHead : s'.head = s.head) (hHanded : s'.handed = s.handed)
    (hPushed : s'.pushed = s.pushed ++ [data]) (hStored : s'.storedAtTailLoad = s.storedAtTailLoad) :
    ConsumerOk capacity s' pc := by
  have hLonger : s.pushed <+: s'.pushed := hPushed ▸ List.prefix_append _ _
  have hLength := hLonger.length_le
  cases pc with
  | idle | pop | popAll => trivial
  | popHeadLoaded currentHead | popAllHeadLoaded currentHead => exact h.trans hHead.symm
  | popReading currentHead =>
    obtain ⟨hCurrent, hSome⟩ := h
    rw [← hHead] at hCurrent
    exact ⟨hCurrent, by rw [hHanded]; omega⟩
  | popStoring currentHead outData =>
    obtain ⟨hCurrent, hOut⟩ := h
    rw [← hHead] at hCurrent
    exact ⟨hCurrent, by rw [hHanded]; exact hOut.trans hLonger⟩
  | popAllMoving currentHead currentTail outData count =>
    obtain ⟨hOut, hCount, hCurrent, hTail, hMoved, hBound⟩ := h
    refine ⟨?_, hCount, ?_, ?_, ?_, ?_⟩
    · rw [hHanded]
      exact hOut.trans hLonger
    · rw [hHanded, hCurrent]
    · rw [hHanded, hStored, hTail]
    · rwa [hStored]
    · rw [hHanded, hStored]
      omega

theorem Fifo.pushFull {capacity : Nat} {s : State T} (h : Fifo capacity s)
    (hFull : s.pushed.length = s.handed.length + capacity) :
    Fifo capacity { s with
      producer := .idle
      storedAtHeadLoad := stored s
      pushReturns := s.pushReturns ++ [(false, stored s)] } := by
  refine { h with
    producer := trivial
    pushReturns := forall_mem_concat h.pushReturns fun _ => ?_
    pushedReturned := h.pushedReturned_refused _ }
  rw [stored, hFull, Nat.add_sub_cancel_left]

theorem Fifo.pushReserve {capacity : Nat} (hCapacity : capacity < sizeRange - 1) {s : State T}
    (h : Fifo capacity s) (data : T) (hFree : nextIndex capacity s.tail ≠ s.head) :
    Fifo capacity { s with
      producer := .writing data s.tail (nextIndex capacity s.tail)
      storedAtHeadLoad := stored s } := by
  have hBound := h.bound
  have hNotFull := mt (h.full_iff hCapacity).mpr hFree
  refine { h with producer := ⟨rfl, ?_, ?_⟩ }
  · rw [h.tail, nextIndex_mod hCapacity]
  · dsimp only
    omega

theorem Fifo.writeCell {capacity : Nat} {s : State T} {data : T} {currentTail nextTail : Nat}
    (h : Fifo capacity s) (hPc : s.producer = .writing data currentTail nextTail) :
    Fifo capacity { s with
      producer := .storing data nextTail
      buffer := Function.update s.buffer currentTail data } := by
  have hProducer := h.producer
  rw [hPc] at hProducer
  obtain ⟨rfl, hNext, hNotFull⟩ := hProducer
  refine { h with producer := ⟨hNext, hNotFull, Function.update_self _ _ _⟩, cells := ?_ }
  intro k hLower hUpper
  have hOther : k % (capacity + 1) ≠ s.tail := by
    rw [h.tail]
    exact RingBuffer.mod_ne_of_lt hUpper (by dsimp only at hLower; omega)
  dsimp only
  rw [Function.update_of_ne hOther]
  exact h.cells k hLower hUpper

theorem Fifo.storeTail {capacity : Nat} {s : State T} {data : T} {nextTail : Nat}
    (h : Fifo capacity s) (hPc : s.producer = .storing data nextTail) :
    Fifo capacity { s with
      producer := .idle
      tail := nextTail
      pushed := s.pushed ++ [data]
      pushReturns := s.pushReturns ++ [(true, s.storedAtHeadLoad)] } := by
  have hHanded := h.handed.length_le
  have hProducer := h.producer
  rw [hPc] at hProducer
  obtain ⟨hNext, hNotFull, hData⟩ := hProducer
  have hLength : (s.pushed ++ [data]).length = s.pushed.length + 1 := List.length_append
  refine { h with
    tail := by rw [hLength, hNext]
    handed := h.handed.trans (List.prefix_append _ _)
    bound := by rw [hLength]; exact hNotFull
    producer := trivial
    consumer := h.consumer.push rfl rfl rfl rfl
    cells := ?_
    pushReturns := forall_mem_concat h.pushReturns nofun
    pushedReturned := by rw [countP_concat, h.pushedReturned, hLength]; rfl }
  intro k hLower hUpper
  dsimp only at hLower hUpper ⊢
  rw [hLength] at hUpper
  rcases Nat.lt_succ_iff_lt_or_eq.mp hUpper with hOld | rfl
  · rw [List.getElem?_append_left hOld]
    exact h.cells k hLower hOld
  · rw [List.getElem?_concat_length, ← h.tail, hData]

theorem producerStep_fifo {capacity : Nat} (hCapacity : capacity < sizeRange - 1)
    {s s' : State T} {a : Action T} (h : Fifo capacity s)
    (hStep : producerStep capacity s a = some s') : Fifo capacity s' := by
  cases a with
  | callPush data =>
    simp only [producerStep] at hStep
    split at hStep
    · cases hStep
      exact { h with producer := trivial }
    · cases hStep
  | producerLoadTail =>
    simp only [producerStep] at hStep
    split at hStep
    · cases hStep
      exact { h with producer := rfl }
    · cases hStep
  | producerLoadHead =>
    simp only [producerStep] at hStep
    split at hStep
    · rename_i data currentTail hPc
      have hProducer := h.producer
      rw [hPc] at hProducer
      cases hProducer
      split at hStep
      · rename_i hEqual
        cases hStep
        exact h.pushFull ((h.full_iff hCapacity).mp hEqual)
      · rename_i hFree
        cases hStep
        exact h.pushReserve hCapacity data hFree
    · cases hStep
  | writeCell =>
    simp only [producerStep] at hStep
    split at hStep
    · rename_i hPc
      cases hStep
      exact h.writeCell hPc
    · cases hStep
  | storeTail =>
    simp only [producerStep] at hStep
    split at hStep
    · rename_i hPc
      cases hStep
      exact h.storeTail hPc
    · cases hStep
  | _ => cases hStep

/-! ## Steps of the consumer -/

theorem ProducerOk.consume {capacity : Nat} {s s' : State T} {pc : ProducerPc T}
    (h : ProducerOk capacity s pc) (hTail : s'.tail = s.tail) (hPushed : s'.pushed = s.pushed)
    (hHanded : s.handed.length ≤ s'.handed.length) (hBuffer : s'.buffer s.tail = s.buffer s.tail) :
    ProducerOk capacity s' pc := by
  cases pc with
  | idle | push => trivial
  | tailLoaded data currentTail => exact h.trans hTail.symm
  | writing data currentTail nextTail =>
    obtain ⟨hCurrent, hNext, hNotFull⟩ := h
    refine ⟨hCurrent.trans hTail.symm, ?_, ?_⟩
    · rw [hPushed, hNext]
    · rw [hPushed]
      omega
  | storing data nextTail =>
    obtain ⟨hNext, hNotFull, hData⟩ := h
    refine ⟨?_, ?_, ?_⟩
    · rw [hPushed, hNext]
    · rw [hPushed]
      omega
    · rw [hTail, hBuffer, hData]

theorem Fifo.popEmpty {capacity : Nat} {s : State T} {currentHead : Nat} (h : Fifo capacity s)
    (hPc : s.consumer = .popHeadLoaded currentHead) (hEmpty : s.head = s.tail) :
    Fifo capacity { s with
      consumer := .idle
      storedAtTailLoad := stored s
      popReturns := s.popReturns ++ [(false, stored s)] } := by
  have hCells := h.cells
  rw [hPc] at hCells
  refine { h with
    consumer := trivial
    cells := hCells
    popReturns := forall_mem_concat h.popReturns fun _ => ?_
    handedReturned := h.handedReturned_refused _ }
  rw [stored, h.empty_iff.mp hEmpty, Nat.sub_self]

theorem Fifo.popFound {capacity : Nat} {s : State T} {currentHead : Nat} (h : Fifo capacity s)
    (hPc : s.consumer = .popHeadLoaded currentHead) (hSome : s.head ≠ s.tail) :
    Fifo capacity { s with
      consumer := .popReading s.head
      storedAtTailLoad := stored s } := by
  have hCells := h.cells
  rw [hPc] at hCells
  refine { h with consumer := ⟨rfl, ?_⟩, cells := hCells }
  exact Nat.lt_of_le_of_ne h.handed.length_le (mt h.empty_iff.mpr hSome)

theorem Fifo.popAllEmpty {capacity : Nat} {s : State T} {currentHead : Nat} (h : Fifo capacity s)
    (hPc : s.consumer = .popAllHeadLoaded currentHead) (hEmpty : s.head = s.tail) :
    Fifo capacity { s with
      consumer := .idle
      storedAtTailLoad := stored s
      popAllReturns := s.popAllReturns ++ [(0, stored s)] } := by
  have hCells := h.cells
  rw [hPc] at hCells
  refine { h with
    consumer := trivial
    cells := hCells
    popAllReturns := forall_mem_concat h.popAllReturns ?_
    handedReturned := h.handedReturned_empty _ }
  rw [stored, h.empty_iff.mp hEmpty, Nat.sub_self]

theorem Fifo.popAllFound {capacity : Nat} {s : State T} {currentHead : Nat} (h : Fifo capacity s)
    (hPc : s.consumer = .popAllHeadLoaded currentHead) :
    Fifo capacity { s with
      consumer := .popAllMoving s.head s.tail [] 0
      storedAtTailLoad := stored s } := by
  have hCells := h.cells
  rw [hPc] at hCells
  have hStored : s.handed.length + stored s = s.pushed.length :=
    Nat.add_sub_cancel' h.handed.length_le
  refine { h with
    consumer := ⟨?_, rfl, h.head, ?_, Nat.zero_le _, Nat.le_of_eq hStored⟩
    cells := hCells }
  · rw [List.append_nil]
    exact h.handed
  · dsimp only
    rw [hStored]
    exact h.tail

theorem Fifo.readCell {capacity : Nat} {s : State T} {currentHead : Nat} (h : Fifo capacity s)
    (hPc : s.consumer = .popReading currentHead) :
    Fifo capacity { s with consumer := .popStoring currentHead (s.buffer currentHead) } := by
  have hConsumer := h.consumer
  have hCells := h.cells
  rw [hPc] at hConsumer hCells
  obtain ⟨rfl, hSome⟩ := hConsumer
  have hRead := hCells s.handed.length (Nat.le_refl _) hSome
  rw [← h.head] at hRead
  exact { h with
    consumer := ⟨rfl, RingBuffer.prefix_concat_of_getElem? h.handed hRead⟩
    cells := hCells }

theorem Fifo.moveCell {capacity : Nat} (hCapacity : capacity < sizeRange - 1) {movedFrom : T → T}
    {s : State T} {currentHead currentTail count : Nat} {outData : List T} (h : Fifo capacity s)
    (hPc : s.consumer = .popAllMoving currentHead currentTail outData count)
    (hMore : currentHead ≠ currentTail) :
    Fifo capacity { s with
      buffer := Function.update s.buffer currentHead (movedFrom (s.buffer currentHead))
      consumer := .popAllMoving (nextIndex capacity currentHead) currentTail
        (outData ++ [s.buffer currentHead]) ((count + 1) % sizeRange) } := by
  have hBound := h.bound
  have hConsumer := h.consumer
  have hCells := h.cells
  rw [hPc] at hConsumer hCells
  obtain ⟨hOut, hCount, hCurrent, hTail, hMoved, hLoaded⟩ := hConsumer
  have hLeft : outData.length < s.storedAtTailLoad := by
    apply Nat.lt_of_le_of_ne hMoved
    intro hAll
    exact hMore (by rw [hCurrent, hTail, hAll])
  have hRead := hCells (s.handed.length + outData.length) (Nat.le_refl _) (by omega)
  rw [← hCurrent, ← List.length_append] at hRead
  have hLength : ∀ x : T, (outData ++ [x]).length = outData.length + 1 :=
    fun _ => List.length_append
  refine { h with
    producer := h.producer.consume rfl rfl (Nat.le_refl _) ?_
    consumer := ⟨?_, ?_, ?_, hTail, ?_, hLoaded⟩
    cells := ?_ }
  · have hOther : s.tail ≠ currentHead := by
      rw [h.tail, hCurrent]
      exact (RingBuffer.mod_ne_of_lt (by omega) (by omega)).symm
    exact Function.update_of_ne hOther _ _
  · dsimp only
    rw [← List.append_assoc]
    exact RingBuffer.prefix_concat_of_getElem? hOut hRead
  · rw [hLength, hCount]
    exact Nat.mod_eq_of_lt (by omega)
  · rw [hLength, hCurrent, nextIndex_mod hCapacity]
    rfl
  · dsimp only
    rw [hLength]
    exact hLeft
  · intro k hLower hUpper
    dsimp only [ConsumerPc.moved] at hLower hUpper ⊢
    rw [hLength] at hLower
    have hOther : k % (capacity + 1) ≠ currentHead := by
      rw [hCurrent]
      exact (RingBuffer.mod_ne_of_lt (by omega) (by omega)).symm
    rw [Function.update_of_ne hOther]
    exact hCells k (by dsimp only [ConsumerPc.moved]; omega) hUpper

/-- Handing over more of what was pushed frees the cells in front, and the call returns
how many values those are. -/
theorem Fifo.handOver {capacity : Nat} {s : State T} (h : Fifo capacity s) (taken : List T)
    (hOut : s.handed ++ taken <+: s.pushed) (hMoved : s.consumer.moved ≤ taken.length)
    {head : Nat} (hHead : head = (s.handed.length + taken.length) % (capacity + 1))
    {popReturns : List (Bool × Nat)} {popAllReturns : List (Nat × Nat)}
    (hPop : ∀ r ∈ popReturns, r.1 = false → r.2 = 0) (hPopAll : ∀ r ∈ popAllReturns, r.1 = r.2)
    (hReturned : popReturns.countP Prod.fst + (popAllReturns.map Prod.fst).sum =
      s.handed.length + taken.length) :
    Fifo capacity { s with
      consumer := .idle
      head := head
      handed := s.handed ++ taken
      popReturns := popReturns
      popAllReturns := popAllReturns } := by
  have hBound := h.bound
  have hLength : (s.handed ++ taken).length = s.handed.length + taken.length := List.length_append
  refine { h with
    head := by rw [hLength, hHead]
    handed := hOut
    bound := by dsimp only; omega
    producer := h.producer.consume rfl rfl (by dsimp only; omega) rfl
    consumer := trivial
    cells := fun k hLower hUpper => h.cells k ?_ hUpper
    popReturns := hPop
    popAllReturns := hPopAll
    handedReturned := hReturned.trans hLength.symm }
  dsimp only [ConsumerPc.moved] at hLower
  omega

theorem Fifo.popStoreHead {capacity : Nat} (hCapacity : capacity < sizeRange - 1) {s : State T}
    {currentHead : Nat} {outData : T} (h : Fifo capacity s)
    (hPc : s.consumer = .popStoring currentHead outData) :
    Fifo capacity { s with
      consumer := .idle
      head := nextIndex capacity currentHead
      handed := s.handed ++ [outData]
      popReturns := s.popReturns ++ [(true, s.storedAtTailLoad)] } := by
  have hConsumer := h.consumer
  rw [hPc] at hConsumer
  obtain ⟨rfl, hOut⟩ := hConsumer
  refine h.handOver [outData] hOut (by rw [hPc]; exact Nat.zero_le _) ?_
    (forall_mem_concat h.popReturns nofun) h.popAllReturns ?_
  · rw [h.head, nextIndex_mod hCapacity]
    rfl
  · rw [countP_concat, Nat.add_right_comm, h.handedReturned]
    rfl

theorem Fifo.popAllStoreHead {capacity : Nat} {s : State T} {currentHead currentTail count : Nat}
    {outData : List T} (h : Fifo capacity s)
    (hPc : s.consumer = .popAllMoving currentHead currentTail outData count)
    (hDone : currentHead = currentTail) :
    Fifo capacity { s with
      consumer := .idle
      head := currentHead
      handed := s.handed ++ outData
      popAllReturns := s.popAllReturns ++ [(count, s.storedAtTailLoad)] } := by
  have hBound := h.bound
  have hConsumer := h.consumer
  rw [hPc] at hConsumer
  obtain ⟨hOut, hCount, hCurrent, hTail, hMoved, hLoaded⟩ := hConsumer
  rw [hCurrent, hTail] at hDone
  have hAll := (RingBuffer.mod_eq_iff (by omega) (by omega)).mp hDone
  refine h.handOver outData hOut (by rw [hPc]; exact Nat.le_refl _) hCurrent h.popReturns
    (forall_mem_concat h.popAllReturns ?_) ?_
  · dsimp only
    omega
  · rw [List.map_append, List.sum_append, ← Nat.add_assoc, h.handedReturned, hCount]
    rfl

theorem consumerStep_fifo {capacity : Nat} (hCapacity : capacity < sizeRange - 1)
    {movedFrom : T → T} {s s' : State T} {a : Action T} (h : Fifo capacity s)
    (hStep : consumerStep capacity movedFrom s a = some s') : Fifo capacity s' := by
  have hConsumer := h.consumer
  have hCells := h.cells
  cases a with
  | callPop | callPopAll =>
    simp only [consumerStep] at hStep
    split at hStep
    · rename_i hPc
      rw [hPc] at hCells
      cases hStep
      exact { h with consumer := trivial, cells := hCells }
    · cases hStep
  | consumerLoadHead =>
    simp only [consumerStep] at hStep
    split at hStep
    · rename_i hPc
      rw [hPc] at hCells
      cases hStep
      exact { h with consumer := rfl, cells := hCells }
    · rename_i hPc
      rw [hPc] at hCells
      cases hStep
      exact { h with consumer := rfl, cells := hCells }
    · cases hStep
  | consumerLoadTail =>
    simp only [consumerStep] at hStep
    split at hStep
    · rename_i currentHead hPc
      rw [hPc] at hConsumer
      cases hConsumer
      split at hStep
      · rename_i hEmpty
        cases hStep
        exact h.popEmpty hPc hEmpty
      · rename_i hSome
        cases hStep
        exact h.popFound hPc hSome
    · rename_i currentHead hPc
      rw [hPc] at hConsumer
      cases hConsumer
      split at hStep
      · rename_i hEmpty
        cases hStep
        exact h.popAllEmpty hPc hEmpty
      · cases hStep
        exact h.popAllFound hPc
    · cases hStep
  | readCell =>
    simp only [consumerStep] at hStep
    split at hStep
    · rename_i hPc
      cases hStep
      exact h.readCell hPc
    · cases hStep
  | moveCell =>
    simp only [consumerStep] at hStep
    split at hStep
    · rename_i hPc
      obtain ⟨hMore, hNext⟩ := Option.ite_none_right_eq_some.mp hStep
      cases hNext
      exact h.moveCell hCapacity hPc hMore
    · cases hStep
  | storeHead =>
    simp only [consumerStep] at hStep
    split at hStep
    · rename_i hPc
      cases hStep
      exact h.popStoreHead hCapacity hPc
    · rename_i hPc
      obtain ⟨hDone, hNext⟩ := Option.ite_none_right_eq_some.mp hStep
      cases hNext
      exact h.popAllStoreHead hPc hDone
    · cases hStep
  | _ => cases hStep

/-! ## Every interleaving -/

/-- What the ring promises to its two threads. -/
structure BoundedFifo (capacity : Nat) (s : State T) : Prop where
  inOrder : s.handed <+: s.pushed
  restInCells : s.consumer = .idle → s.pushed = s.handed ++ (storedCells capacity s).map s.buffer
  bounded : stored s ≤ capacity
  falsePush : ∀ r ∈ s.pushReturns, r.1 = false → r.2 = capacity
  falsePop : ∀ r ∈ s.popReturns, r.1 = false → r.2 = 0
  zeroPopAll : ∀ r ∈ s.popAllReturns, r.1 = 0 → r.2 = 0
  truePushes : s.pushReturns.countP Prod.fst = s.pushed.length
  handedOver : s.popReturns.countP Prod.fst + (s.popAllReturns.map Prod.fst).sum = s.handed.length
  writesFree : ∀ c ∈ s.producer.writes, c < mCapacity capacity ∧ c ∉ storedCells capacity s
  readsStored : ∀ c ∈ s.consumer.reads, c ∈ storedCells capacity s

theorem mem_storedCells_iff {capacity : Nat} (hCapacity : capacity < sizeRange - 1) {s : State T}
    (h : Fifo capacity s) (c : Nat) :
    c ∈ storedCells capacity s ↔
      ∃ k, s.handed.length ≤ k ∧ k < s.pushed.length ∧ k % (capacity + 1) = c := by
  have hHanded := h.handed.length_le
  have hBound := h.bound
  rw [storedCells, mCapacity_eq hCapacity, h.head, h.tail]
  exact RingBuffer.mem_cells_mod hHanded (by omega) c

theorem Fifo.writes_free {capacity : Nat} (hCapacity : capacity < sizeRange - 1) {s : State T}
    (h : Fifo capacity s) {c : Nat} (hWrites : c ∈ s.producer.writes) :
    c < mCapacity capacity ∧ c ∉ storedCells capacity s := by
  have hProducer := h.producer
  have hBound := h.bound
  cases hPc : s.producer with
  | writing data currentTail nextTail =>
    rw [hPc] at hWrites hProducer
    cases hWrites
    obtain ⟨hTail, -, -⟩ := hProducer
    rw [hTail, h.tail, mCapacity_eq hCapacity]
    refine ⟨Nat.mod_lt _ (Nat.succ_pos capacity), ?_⟩
    rw [mem_storedCells_iff hCapacity h]
    rintro ⟨k, hLower, hUpper, hSame⟩
    exact RingBuffer.mod_ne_of_lt hUpper (by omega) hSame
  | idle | push | tailLoaded | storing =>
    rw [hPc] at hWrites
    cases hWrites

theorem Fifo.reads_stored {capacity : Nat} (hCapacity : capacity < sizeRange - 1) {s : State T}
    (h : Fifo capacity s) {c : Nat} (hReads : c ∈ s.consumer.reads) : c ∈ storedCells capacity s := by
  have hConsumer := h.consumer
  rw [mem_storedCells_iff hCapacity h]
  cases hPc : s.consumer with
  | popReading currentHead =>
    rw [hPc] at hReads hConsumer
    cases hReads
    obtain ⟨hHead, hSome⟩ := hConsumer
    exact ⟨s.handed.length, Nat.le_refl _, hSome, by rw [hHead, h.head]⟩
  | popAllMoving currentHead currentTail outData count =>
    rw [hPc] at hReads hConsumer
    obtain ⟨-, -, hCurrent, hTail, hMoved, hLoaded⟩ := hConsumer
    obtain ⟨hMore, hRead⟩ := Option.ite_none_right_eq_some.mp hReads
    cases hRead
    have hLeft : outData.length ≠ s.storedAtTailLoad := by
      intro hAll
      exact hMore (by rw [hCurrent, hTail, hAll])
    exact ⟨s.handed.length + outData.length, Nat.le_add_right _ _, by omega, hCurrent.symm⟩
  | idle | pop | popHeadLoaded | popStoring | popAll | popAllHeadLoaded =>
    rw [hPc] at hReads
    cases hReads

theorem Fifo.boundedFifo {capacity : Nat} (hCapacity : capacity < sizeRange - 1) {s : State T}
    (h : Fifo capacity s) : BoundedFifo capacity s where
  inOrder := h.handed
  restInCells hIdle := by
    have hHanded := h.handed.length_le
    have hBound := h.bound
    have hCells := h.cells
    rw [hIdle] at hCells
    rw [storedCells, mCapacity_eq hCapacity, h.head, h.tail,
      RingBuffer.map_cells_eq_drop s.buffer hHanded (by omega) hCells]
    exact (List.prefix_iff_eq_append.mp h.handed).symm
  bounded := by
    have hBound := h.bound
    rw [stored]
    omega
  falsePush := h.pushReturns
  falsePop := h.popReturns
  zeroPopAll r hr hZero := (h.popAllReturns r hr).symm.trans hZero
  truePushes := h.pushedReturned
  handedOver := h.handedReturned
  writesFree _ hWrites := h.writes_free hCapacity hWrites
  readsStored _ hReads := h.reads_stored hCapacity hReads

theorem fifo_of_reaches [Inhabited T] {capacity : Nat} (hCapacity : capacity < sizeRange - 1)
    {movedFrom : T → T} {s : State T} (hRun : (queue capacity movedFrom).Reaches init s) :
    Fifo capacity s := by
  refine hRun.invariant (Fifo capacity) (fifo_init capacity) ?_
  intro s s' a h hStep
  rcases Option.or_eq_some_iff.mp hStep with hProducer | ⟨-, hConsumer⟩
  · exact producerStep_fifo hCapacity h hProducer
  · exact consumerStep_fifo hCapacity h hConsumer

/-- In every interleaving of the producer's and the consumer's steps the ring
is a bounded first-in first-out queue. -/
theorem ring_boundedFifo [Inhabited T] (capacity : Nat) (hCapacity : capacity < sizeRange - 1)
    (movedFrom : T → T) (s : State T) (hRun : (queue capacity movedFrom).Reaches init s) :
    BoundedFifo capacity s := by
  have hFifo := fifo_of_reaches hCapacity hRun
  exact hFifo.boundedFifo hCapacity

/-- A ring for one item: the second push finds it full while the consumer is
about to hand over the first item. -/
theorem ring_boundedFifo_full :
    ∃ s : State Nat, s.pushReturns = [(true, 0), (false, 1)] ∧ s.consumer = .popStoring 0 5 ∧
      BoundedFifo 1 s := by
  have hSchedule : (queue 1 id).runActions (init : State Nat)
      [.callPush 5, .producerLoadTail, .producerLoadHead, .writeCell, .storeTail, .callPop,
        .consumerLoadHead, .consumerLoadTail, .readCell, .callPush 6, .producerLoadTail,
        .producerLoadHead] = some _ := rfl
  have hRun := StepSystem.Reaches.runActions .refl hSchedule
  exact ⟨_, rfl, rfl, ring_boundedFifo 1 (by decide) id _ hRun⟩

end CounterDroneServer.SPSCQueue

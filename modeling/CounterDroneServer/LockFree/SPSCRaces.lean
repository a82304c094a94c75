import CounterDroneServer.LockFree.SPSCSynchronized

/-!
# The memory orders of the ring

With the orders of the source no access to a cell races and the ring is the same
bounded queue; a stale index only makes a call refuse. Each of the acquire loads and
release stores is needed for that, and nothing else is.
-/

set_option autoImplicit false

namespace CounterDroneServer.SPSCQueue

open ReleaseAcquire RingBuffer
open StepSystem (forall_mem_concat)

universe u

variable {T : Type u}

/-! ## Every run -/

section

variable {orders : Orders} {capacity : Nat} {s s' : OrderedState T} {message : Nat} {a : Action T}

theorem orderedProducerStep_synchronized (hOrders : orders.Synchronize)
    (hCapacity : capacity < sizeRange - 1) (h : Synchronized capacity s)
    (hStep : orderedProducerStep orders capacity s message a = some s') :
    Synchronized capacity s' := by
  cases a with
  | callPush data =>
    simp only [orderedProducerStep] at hStep
    split at hStep
    · rename_i hPc
      cases hStep
      exact h.withRing { h.fifo with producer := trivial } rfl rfl (by rw [hPc]; rfl)
        (by rw [hPc]; rfl) rfl h.claims
    · cases hStep
  | producerLoadTail =>
    simp only [orderedProducerStep] at hStep
    split at hStep
    · rename_i hPc hLoad
      cases hStep
      exact h.loadTail hPc hLoad
    · cases hStep
  | producerLoadHead =>
    simp only [orderedProducerStep] at hStep
    split at hStep
    · rename_i hPc hLoad
      have hLoaded := h.loadHead hCapacity hOrders.pushLoadHead hPc hLoad
      split at hStep
      · rename_i hFull
        cases hStep
        exact hLoaded.1 hFull
      · rename_i hFree
        cases hStep
        exact hLoaded.2 hFree
    · cases hStep
  | writeCell =>
    simp only [orderedProducerStep] at hStep
    split at hStep
    · rename_i hPc
      cases hStep
      exact h.writeCell hPc
    · cases hStep
  | storeTail =>
    simp only [orderedProducerStep] at hStep
    split at hStep
    · rename_i hPc
      cases hStep
      exact h.storeTail hOrders.pushStoreTail hPc
    · cases hStep
  | _ => cases hStep

theorem Synchronized.loadTailOfPop (hOrders : orders.Synchronize) (h : Synchronized capacity s)
    {currentHead : Nat} (hPc : s.ring.consumer = .popHeadLoaded currentHead) {tail : Nat}
    {memory : Memory Side Index Nat Nat}
    (hLoad : s.memory.load orders.popLoadTail .consumer .mTail message = some (tail, memory)) :
    (currentHead = tail → Synchronized capacity { s with
      ring := { s.ring with
        consumer := .idle
        storedAtTailLoad := message - s.ring.handed.length
        popReturns := s.ring.popReturns ++ [(false, message - s.ring.handed.length)] }
      memory }) ∧
    (currentHead ≠ tail → Synchronized capacity { s with
      ring := { s.ring with
        consumer := .popReading currentHead
        storedAtTailLoad := message - s.ring.handed.length }
      memory }) := by
  have hHead := h.fifo.consumer
  have hCells := h.fifo.cells
  rw [hPc] at hHead hCells
  obtain ⟨-, hEmpty, hHanded, hPushed, hSeen, hLoaded⟩ := h.loadedTail hOrders.popLoadTail hLoad
  change currentHead = s.ring.head at hHead
  rw [← hHead] at hEmpty
  constructor
  · intro hSame
    have hNone := hEmpty.mp hSame
    exact hLoaded.withRing
      { h.fifo with
        consumer := trivial
        cells := hCells
        popReturns := forall_mem_concat h.fifo.popReturns fun _ => by dsimp only; omega
        handedReturned := h.fifo.handedReturned_refused _ }
      rfl rfl rfl rfl (by rw [hPc]; rfl) (Nat.le_trans hHanded hSeen)
  · intro hFound
    have hSome := mt hEmpty.mpr hFound
    exact hLoaded.withRing
      { h.fifo with consumer := ⟨hHead, by dsimp only; omega⟩, cells := hCells }
      rfl rfl rfl rfl (by rw [hPc]; rfl) (by dsimp only [ConsumerPc.claimed]; omega)

theorem Synchronized.loadTailOfPopAll (hOrders : orders.Synchronize) (h : Synchronized capacity s)
    {currentHead : Nat} (hPc : s.ring.consumer = .popAllHeadLoaded currentHead) {tail : Nat}
    {memory : Memory Side Index Nat Nat}
    (hLoad : s.memory.load orders.popAllLoadTail .consumer .mTail message = some (tail, memory)) :
    (currentHead = tail → Synchronized capacity { s with
      ring := { s.ring with
        consumer := .idle
        storedAtTailLoad := message - s.ring.handed.length
        popAllReturns := s.ring.popAllReturns ++ [(0, message - s.ring.handed.length)] }
      memory }) ∧
    (currentHead ≠ tail → Synchronized capacity { s with
      ring := { s.ring with
        consumer := .popAllMoving currentHead tail [] 0
        storedAtTailLoad := message - s.ring.handed.length }
      memory }) := by
  have hHead := h.fifo.consumer
  have hCells := h.fifo.cells
  rw [hPc] at hHead hCells
  obtain ⟨hTail, hEmpty, hHanded, hPushed, hSeen, hLoaded⟩ :=
    h.loadedTail hOrders.popAllLoadTail hLoad
  change currentHead = s.ring.head at hHead
  rw [← hHead] at hEmpty
  have hStored : s.ring.handed.length + (message - s.ring.handed.length) = message :=
    Nat.add_sub_cancel' hHanded
  constructor
  · intro hSame
    have hNone := hEmpty.mp hSame
    exact hLoaded.withRing
      { h.fifo with
        consumer := trivial
        cells := hCells
        popAllReturns := forall_mem_concat h.fifo.popAllReturns (by dsimp only; omega)
        handedReturned := h.fifo.handedReturned_empty _ }
      rfl rfl rfl rfl (by rw [hPc]; rfl) (Nat.le_trans hHanded hSeen)
  · intro _
    refine hLoaded.withRing
      { h.fifo with
        consumer := ⟨?_, rfl, hHead.trans h.fifo.head, ?_, Nat.zero_le _, ?_⟩
        cells := hCells }
      rfl rfl rfl rfl (by rw [hPc]; rfl) ?_
    · rw [List.append_nil]
      exact h.fifo.handed
    · dsimp only
      rw [hStored]
      exact hTail
    · dsimp only
      rw [hStored]
      exact hPushed
    · dsimp only [ConsumerPc.claimed]
      rw [hStored]
      exact hSeen

theorem orderedConsumerStep_synchronized (hOrders : orders.Synchronize)
    (hCapacity : capacity < sizeRange - 1) {movedFrom : T → T} (h : Synchronized capacity s)
    (hStep : orderedConsumerStep orders capacity movedFrom s message a = some s') :
    Synchronized capacity s' := by
  have hCells := h.fifo.cells
  have hConsumer := h.fifo.consumer
  have hClaims := h.claims
  cases a with
  | callPop | callPopAll =>
    simp only [orderedConsumerStep] at hStep
    split at hStep
    · rename_i hPc
      rw [hPc] at hCells hClaims
      cases hStep
      exact h.withRing { h.fifo with consumer := trivial, cells := hCells } rfl rfl rfl rfl
        (by rw [hPc]; rfl) hClaims
    · cases hStep
  | consumerLoadHead =>
    simp only [orderedConsumerStep] at hStep
    split at hStep
    · rename_i hPc
      rw [hPc] at hCells
      obtain ⟨⟨head, memory⟩, hLoad, rfl⟩ := Option.map_eq_some_iff.mp hStep
      obtain ⟨hHead, hLoaded⟩ := h.loadedHead hLoad
      have hKept := hLoaded.claims
      dsimp only at hKept
      rw [hPc] at hKept
      exact hLoaded.withRing { h.fifo with consumer := hHead, cells := hCells } rfl rfl rfl rfl
        (by rw [hPc]; rfl) hKept
    · rename_i hPc
      rw [hPc] at hCells
      obtain ⟨⟨head, memory⟩, hLoad, rfl⟩ := Option.map_eq_some_iff.mp hStep
      obtain ⟨hHead, hLoaded⟩ := h.loadedHead hLoad
      have hKept := hLoaded.claims
      dsimp only at hKept
      rw [hPc] at hKept
      exact hLoaded.withRing { h.fifo with consumer := hHead, cells := hCells } rfl rfl rfl rfl
        (by rw [hPc]; rfl) hKept
    · cases hStep
  | consumerLoadTail =>
    simp only [orderedConsumerStep] at hStep
    split at hStep
    · rename_i hPc
      obtain ⟨⟨tail, memory⟩, hLoad, rfl⟩ := Option.map_eq_some_iff.mp hStep
      have hNext := h.loadTailOfPop hOrders hPc hLoad
      split
      · rename_i hEmpty
        exact hNext.1 hEmpty
      · rename_i hFound
        exact hNext.2 hFound
    · rename_i hPc
      obtain ⟨⟨tail, memory⟩, hLoad, rfl⟩ := Option.map_eq_some_iff.mp hStep
      have hNext := h.loadTailOfPopAll hOrders hPc hLoad
      split
      · rename_i hEmpty
        exact hNext.1 hEmpty
      · rename_i hFound
        exact hNext.2 hFound
    · cases hStep
  | readCell =>
    simp only [orderedConsumerStep] at hStep
    split at hStep
    · rename_i hPc
      cases hStep
      exact h.readCell hPc
    · cases hStep
  | moveCell =>
    simp only [orderedConsumerStep] at hStep
    split at hStep
    · rename_i hPc
      obtain ⟨hMore, hNext⟩ := Option.ite_none_right_eq_some.mp hStep
      cases hNext
      exact h.moveCell hCapacity hPc hMore
    · cases hStep
  | storeHead =>
    simp only [orderedConsumerStep] at hStep
    split at hStep
    · rename_i currentHead outData hPc
      cases hStep
      have hTakes := h.takes
      rw [hPc] at hConsumer hTakes hClaims
      obtain ⟨hHead, -⟩ := hConsumer
      have hLength : (s.ring.handed ++ [outData]).length = s.ring.handed.length + 1 :=
        List.length_append
      refine h.handOver hOrders.popStoreHead (h.fifo.popStoreHead hCapacity hPc) rfl rfl rfl
        ?_ ?_ ?_ ?_
      · rw [hHead, h.fifo.head, nextIndex_mod hCapacity, hLength]
      · rw [hLength]
        exact Nat.le_succ _
      · rw [hLength]
        exact hTakes
      · rw [hLength]
        exact hClaims
    · rename_i currentHead currentTail outData count hPc
      obtain ⟨hDone, hNext⟩ := Option.ite_none_right_eq_some.mp hStep
      cases hNext
      have hTakes := h.takes
      rw [hPc] at hConsumer hTakes hClaims
      obtain ⟨-, -, hCurrent, -, hMoved, -⟩ := hConsumer
      have hLength : (s.ring.handed ++ outData).length = s.ring.handed.length + outData.length :=
        List.length_append
      refine h.handOver hOrders.popAllStoreHead (h.fifo.popAllStoreHead hPc hDone) rfl rfl rfl
        ?_ ?_ ?_ ?_
      · rw [hCurrent, hLength]
      · rw [hLength]
        exact Nat.le_add_right _ _
      · rw [hLength]
        exact hTakes
      · rw [hLength]
        exact (Nat.add_le_add_left hMoved _).trans hClaims
    · cases hStep
  | _ => cases hStep

theorem synchronized_of_reaches [Inhabited T] (hOrders : orders.Synchronize)
    (hCapacity : capacity < sizeRange - 1) {movedFrom : T → T}
    (hRun : (orderedQueue orders capacity movedFrom).Reaches orderedInit s) :
    Synchronized capacity s := by
  refine hRun.invariant (Synchronized capacity) (synchronized_init capacity) ?_
  intro s s' a h hStep
  rcases Option.or_eq_some_iff.mp hStep with hProducer | ⟨-, hConsumer⟩
  · exact orderedProducerStep_synchronized hOrders hCapacity h hProducer
  · exact orderedConsumerStep_synchronized hOrders hCapacity h hConsumer

end

/-! ## No access races -/

namespace Synchronized

variable {capacity : Nat} {s : OrderedState T}

theorem taken_le_claimed (h : Synchronized capacity s) :
    s.ring.consumer.taken ≤ s.ring.consumer.claimed s.ring.storedAtTailLoad := by
  have hConsumer := h.fifo.consumer
  cases hPc : s.ring.consumer with
  | popAllMoving currentHead currentTail outData count =>
    rw [hPc] at hConsumer
    obtain ⟨-, -, -, -, hMoved, -⟩ := hConsumer
    exact hMoved
  | popStoring currentHead outData => exact Nat.le_refl 1
  | _ => exact Nat.zero_le _

/-- The next cell of the consumer is the one whose turn it is, and its value is known. -/
theorem reads_turn (h : Synchronized capacity s) {c : Nat} (hReads : c ∈ s.ring.consumer.reads) :
    c = s.memory.clock .consumer % (capacity + 1) ∧
      s.memory.clock .consumer < (s.memory.view .consumer).2 .mTail := by
  have hConsumer := h.fifo.consumer
  have hTakes := h.takes
  have hClaims := h.claims
  cases hPc : s.ring.consumer with
  | popReading currentHead =>
    rw [hPc] at hReads hConsumer hTakes hClaims
    cases hReads
    obtain ⟨hHead, -⟩ := hConsumer
    rw [hHead, h.fifo.head, hTakes]
    exact ⟨rfl, hClaims⟩
  | popAllMoving currentHead currentTail outData count =>
    rw [hPc] at hReads hConsumer hTakes hClaims
    obtain ⟨-, -, hCurrent, hTail, hMoved, -⟩ := hConsumer
    obtain ⟨hMore, hRead⟩ := Option.ite_none_right_eq_some.mp hReads
    cases hRead
    have hLeft : outData.length ≠ s.ring.storedAtTailLoad := by
      intro hAll
      exact hMore (by rw [hCurrent, hTail, hAll])
    rw [hTakes]
    dsimp only [ConsumerPc.claimed] at hClaims
    exact ⟨hCurrent, by dsimp only [ConsumerPc.taken]; omega⟩
  | idle | pop | popHeadLoaded | popStoring | popAll | popAllHeadLoaded =>
    rw [hPc] at hReads
    cases hReads

theorem writeOrdered (h : Synchronized capacity s) {c : Nat}
    (hWrites : c ∈ s.ring.producer.writes) : s.memory.WriteOrdered .producer c := by
  have hProducer := h.fifo.producer
  have hRoom := h.room
  cases hPc : s.ring.producer with
  | writing data currentTail nextTail =>
    rw [hPc] at hWrites hProducer hRoom
    cases hWrites
    obtain ⟨hTail, -, -⟩ := hProducer
    rw [h.fifo.tail] at hTail
    subst hTail
    have hKnown := (h.views .producer).takes
    have hClaims := (Nat.add_le_add_left h.taken_le_claimed _).trans
      (h.claims.trans (h.seenTail_le .consumer))
    rw [← h.takes] at hClaims
    have hMoves := h.movesBehind _ hClaims
    have hReads := h.readsBehind _ hClaims
    dsimp only [ProducerPc.reserved] at hRoom hMoves hReads
    constructor
    · intro u
      cases u with
      | producer =>
        rw [h.wellFormed.clock_eq .producer]
        exact h.wellFormed.writes _ .producer
      | consumer => exact Nat.le_trans hMoves (by omega)
    · intro u
      cases u with
      | producer =>
        rw [h.producerReads]
        exact Nat.zero_le _
      | consumer => exact Nat.le_trans hReads (by omega)
  | idle | push | tailLoaded | storing =>
    rw [hPc] at hWrites
    cases hWrites

theorem readOrdered (h : Synchronized capacity s) {c : Nat} (hReads : c ∈ s.ring.consumer.reads) :
    s.memory.WriteOrdered .consumer c := by
  obtain ⟨rfl, hSeen⟩ := h.reads_turn hReads
  have hKnown := (h.views .consumer).pushes
  have hBound := h.fifo.bound
  have hTakes := h.takes
  have hWritten : s.memory.clock .producer ≤ s.memory.clock .consumer + (capacity + 1) := by
    rw [h.writes]
    cases s.ring.producer with
    | storing data nextTail =>
      dsimp only [ProducerPc.written]
      omega
    | _ =>
      dsimp only [ProducerPc.written]
      omega
  have hWrites := h.writesBehind _ hWritten
  rw [Nat.add_mod_right] at hWrites
  dsimp only at hWrites
  constructor
  · intro u
    cases u with
    | producer => exact Nat.le_trans hWrites (by omega)
    | consumer =>
      rw [h.wellFormed.clock_eq .consumer]
      exact h.wellFormed.writes _ .consumer
  · intro u
    cases u with
    | producer =>
      rw [h.producerReads]
      exact Nat.zero_le _
    | consumer =>
      rw [h.wellFormed.clock_eq .consumer]
      exact h.wellFormed.reads _ .consumer

theorem raceFree (h : Synchronized capacity s) : RaceFree s where
  writeCell _ hWrites := h.writeOrdered hWrites
  readCell _ hReads := (h.readOrdered hReads).1
  moveCell c hMoves := by
    apply h.readOrdered
    cases hPc : s.ring.consumer with
    | popAllMoving currentHead currentTail outData count =>
      rw [hPc] at hMoves
      exact hMoves
    | _ =>
      rw [hPc] at hMoves
      cases hMoves

end Synchronized

/-- In every run under orders that synchronize the two sides, old values included, the
ring is a bounded first-in first-out queue: no access races, and each index is stored by
a side that knows its newest value. A refused call has counted by what it loaded. -/
theorem ordered_boundedFifo [Inhabited T] (orders : Orders) (hOrders : orders.Synchronize)
    (capacity : Nat) (hCapacity : capacity < sizeRange - 1) (movedFrom : T → T) (s : OrderedState T)
    (hRun : (orderedQueue orders capacity movedFrom).Reaches orderedInit s) :
    BoundedFifo capacity s.ring ∧ RaceFree s ∧
      s.memory.Newest .producer .mTail ∧ s.memory.Newest .consumer .mHead := by
  have hSynchronized := synchronized_of_reaches hOrders hCapacity hRun
  exact ⟨hSynchronized.fifo.boundedFifo hCapacity, hSynchronized.raceFree,
    hSynchronized.tailNewest, hSynchronized.headNewest⟩

theorem sourceOrders_synchronize : sourceOrders.Synchronize := ⟨rfl, rfl, rfl, rfl, rfl, rfl⟩

/-- A push is refused by an old `m_head` although the ring is empty. -/
theorem ordered_boundedFifo_stale_head :
    ∃ s : OrderedState Nat, s.ring.pushReturns = [(true, 0), (false, 1)] ∧
      s.ring.pushed = s.ring.handed ∧ BoundedFifo 1 s.ring ∧ RaceFree s := by
  have hSchedule : (orderedQueue sourceOrders 1 id).runActions (orderedInit : OrderedState Nat)
      [(.callPush 5, 0), (.producerLoadTail, 0), (.producerLoadHead, 0), (.writeCell, 0),
        (.storeTail, 0), (.callPop, 0), (.consumerLoadHead, 0), (.consumerLoadTail, 1),
        (.readCell, 0), (.storeHead, 0), (.callPush 6, 0), (.producerLoadTail, 1),
        (.producerLoadHead, 0)] = some _ := rfl
  have hRun := StepSystem.Reaches.runActions .refl hSchedule
  obtain ⟨hFifo, hRaceFree, -⟩ := ordered_boundedFifo sourceOrders sourceOrders_synchronize 1
    (by decide) id _ hRun
  exact ⟨_, rfl, rfl, hFifo, hRaceFree⟩

/-! ## Weaker orders -/

/-- No acquire and no release that the other orders do not have. -/
structure Orders.Weaker (orders orders' : Orders) : Prop where
  pushLoadTail : orders.pushLoadTail = .acquire → orders'.pushLoadTail = .acquire
  pushLoadHead : orders.pushLoadHead = .acquire → orders'.pushLoadHead = .acquire
  pushStoreTail : orders.pushStoreTail = .release → orders'.pushStoreTail = .release
  popLoadHead : orders.popLoadHead = .acquire → orders'.popLoadHead = .acquire
  popLoadTail : orders.popLoadTail = .acquire → orders'.popLoadTail = .acquire
  popStoreHead : orders.popStoreHead = .release → orders'.popStoreHead = .release
  popAllLoadHead : orders.popAllLoadHead = .acquire → orders'.popAllLoadHead = .acquire
  popAllLoadTail : orders.popAllLoadTail = .acquire → orders'.popAllLoadTail = .acquire
  popAllStoreHead : orders.popAllStoreHead = .release → orders'.popAllStoreHead = .release

/-- The same state, in which both sides know less. -/
structure Lags (s s' : OrderedState T) : Prop where
  ring : s.ring = s'.ring
  memory : Memory.KnowsLess s.memory s'.memory
  handovers : s.handovers = s'.handovers

theorem Lags.raceFree {s s' : OrderedState T} (h : Lags s s') (hRaceFree : RaceFree s) :
    RaceFree s' where
  writeCell c hWrites := h.memory.writeOrdered (hRaceFree.writeCell c (h.ring ▸ hWrites))
  readCell c hReads := h.memory.readOrdered (hRaceFree.readCell c (h.ring ▸ hReads))
  moveCell c hMoves := h.memory.writeOrdered (hRaceFree.moveCell c (h.ring ▸ hMoves))

section

variable {orders orders' : Orders} {capacity : Nat} {s s' t' : OrderedState T} {message : Nat}
  {a : Action T}

theorem orderedProducerStep_lags (hWeaker : orders.Weaker orders') (h : Lags s s')
    (hStep : orderedProducerStep orders' capacity s' message a = some t') :
    ∃ t, orderedProducerStep orders capacity s message a = some t ∧ Lags t t' := by
  obtain ⟨ring, memory, handovers⟩ := s
  obtain ⟨ring', memory', handovers'⟩ := s'
  obtain ⟨rfl, hLess, rfl⟩ := h
  cases a with
  | callPush data =>
    simp only [orderedProducerStep] at hStep ⊢
    split at hStep
    · cases hStep
      exact ⟨_, rfl, rfl, hLess, rfl⟩
    · cases hStep
  | producerLoadTail =>
    simp only [orderedProducerStep] at hStep ⊢
    split at hStep
    · rename_i hPc hLoad
      cases hStep
      obtain ⟨next, hLoad, hNext⟩ := hLess.load hWeaker.pushLoadTail hLoad
      rw [hPc, hLoad]
      exact ⟨_, rfl, rfl, hNext, rfl⟩
    · cases hStep
  | producerLoadHead =>
    simp only [orderedProducerStep] at hStep ⊢
    split at hStep
    · rename_i hPc hLoad
      obtain ⟨next, hLoad, hNext⟩ := hLess.load hWeaker.pushLoadHead hLoad
      rw [hPc, hLoad]
      dsimp only
      split at hStep
      · rename_i hFull
        cases hStep
        rw [if_pos hFull]
        exact ⟨_, rfl, rfl, hNext, rfl⟩
      · rename_i hFree
        cases hStep
        rw [if_neg hFree]
        exact ⟨_, rfl, rfl, hNext, rfl⟩
    · cases hStep
  | writeCell =>
    simp only [orderedProducerStep] at hStep ⊢
    split at hStep
    · cases hStep
      exact ⟨_, rfl, rfl, hLess.write .producer _, rfl⟩
    · cases hStep
  | storeTail =>
    simp only [orderedProducerStep] at hStep ⊢
    split at hStep
    · cases hStep
      exact ⟨_, rfl, rfl, hLess.store hWeaker.pushStoreTail .producer .mTail _, rfl⟩
    · cases hStep
  | _ => cases hStep

theorem orderedConsumerStep_lags (hWeaker : orders.Weaker orders') {movedFrom : T → T}
    (h : Lags s s')
    (hStep : orderedConsumerStep orders' capacity movedFrom s' message a = some t') :
    ∃ t, orderedConsumerStep orders capacity movedFrom s message a = some t ∧ Lags t t' := by
  obtain ⟨ring, memory, handovers⟩ := s
  obtain ⟨ring', memory', handovers'⟩ := s'
  obtain ⟨rfl, hLess, rfl⟩ := h
  cases a with
  | callPop | callPopAll =>
    simp only [orderedConsumerStep] at hStep ⊢
    split at hStep
    · cases hStep
      exact ⟨_, rfl, rfl, hLess, rfl⟩
    · cases hStep
  | consumerLoadHead =>
    simp only [orderedConsumerStep] at hStep ⊢
    split at hStep
    · obtain ⟨⟨head, loaded⟩, hLoad, rfl⟩ := Option.map_eq_some_iff.mp hStep
      obtain ⟨next, hLoad, hNext⟩ := hLess.load hWeaker.popLoadHead hLoad
      rw [hLoad]
      exact ⟨_, rfl, rfl, hNext, rfl⟩
    · obtain ⟨⟨head, loaded⟩, hLoad, rfl⟩ := Option.map_eq_some_iff.mp hStep
      obtain ⟨next, hLoad, hNext⟩ := hLess.load hWeaker.popAllLoadHead hLoad
      rw [hLoad]
      exact ⟨_, rfl, rfl, hNext, rfl⟩
    · cases hStep
  | consumerLoadTail =>
    simp only [orderedConsumerStep] at hStep ⊢
    split at hStep
    · obtain ⟨⟨tail, loaded⟩, hLoad, rfl⟩ := Option.map_eq_some_iff.mp hStep
      obtain ⟨next, hLoad, hNext⟩ := hLess.load hWeaker.popLoadTail hLoad
      rw [hLoad]
      refine ⟨_, rfl, ?_⟩
      dsimp only
      split
      · exact ⟨rfl, hNext, rfl⟩
      · exact ⟨rfl, hNext, rfl⟩
    · obtain ⟨⟨tail, loaded⟩, hLoad, rfl⟩ := Option.map_eq_some_iff.mp hStep
      obtain ⟨next, hLoad, hNext⟩ := hLess.load hWeaker.popAllLoadTail hLoad
      rw [hLoad]
      refine ⟨_, rfl, ?_⟩
      dsimp only
      split
      · exact ⟨rfl, hNext, rfl⟩
      · exact ⟨rfl, hNext, rfl⟩
    · cases hStep
  | readCell =>
    simp only [orderedConsumerStep] at hStep ⊢
    split at hStep
    · cases hStep
      exact ⟨_, rfl, rfl, hLess.read .consumer _, rfl⟩
    · cases hStep
  | moveCell =>
    simp only [orderedConsumerStep] at hStep ⊢
    split at hStep
    · obtain ⟨hMore, hNext⟩ := Option.ite_none_right_eq_some.mp hStep
      cases hNext
      rw [if_pos hMore]
      exact ⟨_, rfl, rfl, hLess.write .consumer _, rfl⟩
    · cases hStep
  | storeHead =>
    simp only [orderedConsumerStep] at hStep ⊢
    split at hStep
    · cases hStep
      exact ⟨_, rfl, rfl, hLess.store hWeaker.popStoreHead .consumer .mHead _, rfl⟩
    · obtain ⟨hDone, hNext⟩ := Option.ite_none_right_eq_some.mp hStep
      cases hNext
      rw [if_pos hDone]
      exact ⟨_, rfl, rfl, hLess.store hWeaker.popAllStoreHead .consumer .mHead _, rfl⟩
    · cases hStep
  | _ => cases hStep

theorem orderedProducerStep_of_consumer {movedFrom : T → T}
    (hStep : orderedConsumerStep orders' capacity movedFrom s' message a = some t') :
    orderedProducerStep orders capacity s message a = none := by
  cases a with
  | callPush | producerLoadTail | producerLoadHead | writeCell | storeTail => cases hStep
  | _ => rfl

/-- Whatever can happen under some orders can happen under weaker ones. -/
theorem reaches_lags [Inhabited T] (hWeaker : orders.Weaker orders') {movedFrom : T → T}
    (hRun : (orderedQueue orders' capacity movedFrom).Reaches orderedInit s') :
    ∃ s, (orderedQueue orders capacity movedFrom).Reaches orderedInit s ∧ Lags s s' := by
  refine StepSystem.Reaches.simulated ?_ ⟨rfl, .refl _, rfl⟩ hRun
  intro s t t' b h hStep
  rcases Option.or_eq_some_iff.mp hStep with hProducer | ⟨-, hConsumer⟩
  · obtain ⟨s', hNext, hLags⟩ := orderedProducerStep_lags hWeaker h hProducer
    exact ⟨b, s', Option.or_eq_some_iff.mpr (.inl hNext), hLags⟩
  · obtain ⟨s', hNext, hLags⟩ := orderedConsumerStep_lags hWeaker h hConsumer
    exact ⟨b, s',
      Option.or_eq_some_iff.mpr (.inr ⟨orderedProducerStep_of_consumer hConsumer, hNext⟩), hLags⟩

end

/-! ## The orders that are needed -/

def strongOrders : Orders where
  pushLoadTail := .acquire
  pushLoadHead := .acquire
  pushStoreTail := .release
  popLoadHead := .acquire
  popLoadTail := .acquire
  popStoreHead := .release
  popAllLoadHead := .acquire
  popAllLoadTail := .acquire
  popAllStoreHead := .release

/-- A push, a pop and a batch drain that load the newest messages. -/
def pushRun (n : Nat) : List (Action Unit × Nat) :=
  [(.callPush (), 0), (.producerLoadTail, n), (.producerLoadHead, n), (.writeCell, 0),
    (.storeTail, 0)]

def popRun (n : Nat) : List (Action Unit × Nat) :=
  [(.callPop, 0), (.consumerLoadHead, n), (.consumerLoadTail, n + 1), (.readCell, 0),
    (.storeHead, 0)]

def popAllRun (n : Nat) : List (Action Unit × Nat) :=
  [(.callPopAll, 0), (.consumerLoadHead, n), (.consumerLoadTail, n + 1), (.moveCell, 0),
    (.storeHead, 0)]

/-- The orders allow a race on a ring for one item. -/
def Races (orders : Orders) : Prop :=
  ∃ s : OrderedState Unit, (orderedQueue orders 1 id).Reaches orderedInit s ∧ ¬RaceFree s

theorem Races.of_weaker {orders orders' : Orders} (h : Races orders')
    (hWeaker : orders.Weaker orders') : Races orders := by
  obtain ⟨s', hRun, hRace⟩ := h
  obtain ⟨s, hRun, hLags⟩ := reaches_lags hWeaker hRun
  exact ⟨s, hRun, mt hLags.raceFree hRace⟩

theorem races_of_schedule {orders : Orders} {schedule : List (Action Unit × Nat)}
    {s : OrderedState Unit}
    (hSchedule : (orderedQueue orders 1 id).runActions orderedInit schedule = some s)
    (hRace : ¬RaceFree s) : Races orders :=
  ⟨s, .runActions .refl hSchedule, hRace⟩

/-- Without these the pop reads a cell whose write it does not know. -/
theorem races_popLoadTail : Races { strongOrders with popLoadTail := .relaxed } := by
  have hSchedule : (orderedQueue { strongOrders with popLoadTail := .relaxed } 1 id).runActions
      (orderedInit : OrderedState Unit) (pushRun 0 ++ (popRun 0).take 3) = some _ := rfl
  exact races_of_schedule hSchedule
    fun hRaceFree => absurd (hRaceFree.readCell 0 rfl .producer) (by decide +kernel)

theorem races_pushStoreTail : Races { strongOrders with pushStoreTail := .relaxed } := by
  have hSchedule : (orderedQueue { strongOrders with pushStoreTail := .relaxed } 1 id).runActions
      (orderedInit : OrderedState Unit) (pushRun 0 ++ (popRun 0).take 3) = some _ := rfl
  exact races_of_schedule hSchedule
    fun hRaceFree => absurd (hRaceFree.readCell 0 rfl .producer) (by decide +kernel)

theorem races_popAllLoadTail : Races { strongOrders with popAllLoadTail := .relaxed } := by
  have hSchedule : (orderedQueue { strongOrders with popAllLoadTail := .relaxed } 1 id).runActions
      (orderedInit : OrderedState Unit) (pushRun 0 ++ (popAllRun 0).take 3) = some _ := rfl
  exact races_of_schedule hSchedule
    fun hRaceFree => absurd (hRaceFree.readCell 0 rfl .producer) (by decide +kernel)

/-- Without these the push writes a cell whose last read or move it does not know. -/
theorem races_pushLoadHead : Races { strongOrders with pushLoadHead := .relaxed } := by
  have hSchedule : (orderedQueue { strongOrders with pushLoadHead := .relaxed } 1 id).runActions
      (orderedInit : OrderedState Unit)
      (pushRun 0 ++ popRun 0 ++ pushRun 1 ++ popRun 1 ++ (pushRun 2).take 3) = some _ := rfl
  exact races_of_schedule hSchedule
    fun hRaceFree => absurd ((hRaceFree.writeCell 0 rfl).2 .consumer) (by decide +kernel)

theorem races_popStoreHead : Races { strongOrders with popStoreHead := .relaxed } := by
  have hSchedule : (orderedQueue { strongOrders with popStoreHead := .relaxed } 1 id).runActions
      (orderedInit : OrderedState Unit)
      (pushRun 0 ++ popRun 0 ++ pushRun 1 ++ popRun 1 ++ (pushRun 2).take 3) = some _ := rfl
  exact races_of_schedule hSchedule
    fun hRaceFree => absurd ((hRaceFree.writeCell 0 rfl).2 .consumer) (by decide +kernel)

theorem races_popAllStoreHead : Races { strongOrders with popAllStoreHead := .relaxed } := by
  have hSchedule : (orderedQueue { strongOrders with popAllStoreHead := .relaxed } 1 id).runActions
      (orderedInit : OrderedState Unit)
      (pushRun 0 ++ popAllRun 0 ++ pushRun 1 ++ popAllRun 1 ++ (pushRun 2).take 3) = some _ := rfl
  exact races_of_schedule hSchedule
    fun hRaceFree => absurd ((hRaceFree.writeCell 0 rfl).1 .consumer) (by decide +kernel)

theorem weaker_strongOrders (orders : Orders) : orders.Weaker strongOrders :=
  ⟨fun _ => rfl, fun _ => rfl, fun _ => rfl, fun _ => rfl, fun _ => rfl, fun _ => rfl, fun _ => rfl,
    fun _ => rfl, fun _ => rfl⟩

/-- Orders under which no run races synchronize the two sides. -/
theorem synchronize_of_not_races {orders : Orders} (hNever : ¬Races orders) :
    orders.Synchronize where
  pushLoadHead := by
    by_contra hOther
    exact hNever (races_pushLoadHead.of_weaker
      { weaker_strongOrders orders with pushLoadHead := fun h => absurd h hOther })
  pushStoreTail := by
    by_contra hOther
    exact hNever (races_pushStoreTail.of_weaker
      { weaker_strongOrders orders with pushStoreTail := fun h => absurd h hOther })
  popLoadTail := by
    by_contra hOther
    exact hNever (races_popLoadTail.of_weaker
      { weaker_strongOrders orders with popLoadTail := fun h => absurd h hOther })
  popStoreHead := by
    by_contra hOther
    exact hNever (races_popStoreHead.of_weaker
      { weaker_strongOrders orders with popStoreHead := fun h => absurd h hOther })
  popAllLoadTail := by
    by_contra hOther
    exact hNever (races_popAllLoadTail.of_weaker
      { weaker_strongOrders orders with popAllLoadTail := fun h => absurd h hOther })
  popAllStoreHead := by
    by_contra hOther
    exact hNever (races_popAllStoreHead.of_weaker
      { weaker_strongOrders orders with popAllStoreHead := fun h => absurd h hOther })

/-- Of the nine orders exactly six are needed for the ring to be free of races: the
acquire loads of the other side's index and the release stores of the own one. -/
theorem raceFree_iff_synchronize (orders : Orders) :
    (∀ (T : Type) [Inhabited T] (capacity : Nat) (movedFrom : T → T) (s : OrderedState T),
      capacity < sizeRange - 1 → (orderedQueue orders capacity movedFrom).Reaches orderedInit s →
      RaceFree s) ↔ orders.Synchronize := by
  constructor
  · intro hAlways
    apply synchronize_of_not_races
    rintro ⟨s, hRun, hRace⟩
    exact hRace (hAlways Unit 1 id s (by decide) hRun)
  · intro hOrders T _ capacity movedFrom s hCapacity hRun
    exact (synchronized_of_reaches hOrders hCapacity hRun).raceFree

end CounterDroneServer.SPSCQueue

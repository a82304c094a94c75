import Mathlib.Data.List.GetD
import CounterDroneServer.LockFree.SPSCOrders

/-!
# What the sides of the ring know of each other

Whoever knows a message of `m_tail` knows the writes of the pushes up to it, and
whoever knows a message of `m_head` knows that the cells before it have been read. So an
old value makes a call refuse more, and never makes it touch a cell too early.
-/

set_option autoImplicit false

namespace CounterDroneServer.SPSCQueue

open ReleaseAcquire RingBuffer
open StepSystem (forall_mem_concat)

universe u

variable {T : Type u}

theorem consumer_ne_producer : Side.consumer ≠ Side.producer := by decide

/-- The cell that the producer has found free and not published. -/
def ProducerPc.reserved : ProducerPc T → Nat
  | .writing _ _ _ | .storing _ _ => 1
  | _ => 0

def ProducerPc.written : ProducerPc T → Nat
  | .storing _ _ => 1
  | _ => 0

/-- The values that the consumer has found and not handed over. -/
def ConsumerPc.claimed (storedAtTailLoad : Nat) : ConsumerPc T → Nat
  | .popReading _ | .popStoring _ _ => 1
  | .popAllMoving _ _ _ _ => storedAtTailLoad
  | _ => 0

def ConsumerPc.taken : ConsumerPc T → Nat
  | .popStoring _ _ => 1
  | .popAllMoving _ _ outData _ => outData.length
  | _ => 0

/-- To know a message is to know the accesses that its store came after. -/
structure Backed (handedAt : Nat → Nat) (v : View Side Index) : Prop where
  pushes : v.2 .mTail ≤ v.1 .producer
  takes : handedAt (v.2 .mHead) ≤ v.1 .consumer

theorem Backed.sup {handedAt : Nat → Nat} {v w : View Side Index} (hv : Backed handedAt v)
    (hw : Backed handedAt w) : Backed handedAt (v ⊔ w) where
  pushes := sup_le_sup hv.pushes hw.pushes
  takes := by
    change handedAt (max (v.2 .mHead) (w.2 .mHead)) ≤ max (v.1 .consumer) (w.1 .consumer)
    rcases le_total (v.2 .mHead) (w.2 .mHead) with hLater | hLater
    · rw [max_eq_right hLater]
      exact hw.takes.trans (le_max_right _ _)
    · rw [max_eq_left hLater]
      exact hv.takes.trans (le_max_left _ _)

theorem Backed.of_le {handedAt : Nat → Nat} {v w : View Side Index} (h : Backed handedAt v)
    (hKnown : v.1 ≤ w.1) (hPosition : ∀ a, w.2 a = v.2 a) : Backed handedAt w where
  pushes := by
    rw [hPosition]
    exact h.pushes.trans (hKnown .producer)
  takes := by
    rw [hPosition]
    exact h.takes.trans (hKnown .consumer)

/-- The messages have the counts of pushes and of values handed over, modulo the cells;
each side has accessed the cells in turn, and goes no further than what it knows of the
other side allows. -/
structure Synchronized (capacity : Nat) (s : OrderedState T) : Prop where
  fifo : Fifo capacity s.ring
  wellFormed : s.memory.WellFormed
  tailNewest : s.memory.Newest .producer .mTail
  headNewest : s.memory.Newest .consumer .mHead
  tailLength : (s.memory.messages .mTail).length = s.ring.pushed.length + 1
  headLength : (s.memory.messages .mHead).length = s.handovers.length
  tails : ∀ i message, (s.memory.messages .mTail)[i]? = some message →
    message.value = i % (capacity + 1)
  heads : ∀ i message, (s.memory.messages .mHead)[i]? = some message →
    message.value = s.handedAt i % (capacity + 1)
  handovers : s.handovers.Pairwise (· ≤ ·)
  handed : s.handedAt (s.handovers.length - 1) = s.ring.handed.length
  views : ∀ t, Backed s.handedAt (s.memory.view t)
  messages : ∀ a, ∀ message ∈ s.memory.messages a, Backed s.handedAt message.view
  writes : s.memory.clock .producer = s.ring.pushed.length + s.ring.producer.written
  takes : s.memory.clock .consumer = s.ring.handed.length + s.ring.consumer.taken
  writesBehind : LapBehind (capacity + 1) (s.memory.clock .producer)
    fun c => s.memory.writes c .producer
  readsBehind : LapBehind (capacity + 1) (s.memory.clock .consumer)
    fun c => s.memory.reads c .consumer
  movesBehind : LapBehind (capacity + 1) (s.memory.clock .consumer)
    fun c => s.memory.writes c .consumer
  producerReads : ∀ c, s.memory.reads c .producer = 0
  room : s.ring.pushed.length + s.ring.producer.reserved ≤
    s.handedAt ((s.memory.view .producer).2 .mHead) + capacity
  claims : s.ring.handed.length + s.ring.consumer.claimed s.ring.storedAtTailLoad ≤
    (s.memory.view .consumer).2 .mTail

theorem synchronized_init (capacity : Nat) [Inhabited T] :
    Synchronized capacity (orderedInit : OrderedState T) where
  fifo := fifo_init capacity
  wellFormed := Memory.wellFormed_start _
  tailNewest := Nat.le_refl 1
  headNewest := Nat.le_refl 1
  tailLength := rfl
  headLength := rfl
  tails i message hMessage := by
    obtain ⟨hLength, hEq⟩ := List.getElem?_eq_some_iff.mp hMessage
    obtain rfl : i = 0 := Nat.lt_one_iff.mp hLength
    rw [← hEq]
    exact (Nat.zero_mod _).symm
  heads i message hMessage := by
    obtain ⟨hLength, hEq⟩ := List.getElem?_eq_some_iff.mp hMessage
    obtain rfl : i = 0 := Nat.lt_one_iff.mp hLength
    rw [← hEq]
    exact (Nat.zero_mod _).symm
  handovers := List.pairwise_singleton _ _
  handed := rfl
  views _ := ⟨Nat.le_refl 0, Nat.le_refl 0⟩
  messages a message hMem := by
    obtain rfl := List.mem_singleton.mp hMem
    exact ⟨Nat.le_refl 0, Nat.le_refl 0⟩
  writes := rfl
  takes := rfl
  writesBehind _ _ := Nat.zero_le _
  readsBehind _ _ := Nat.zero_le _
  movesBehind _ _ := Nat.zero_le _
  producerReads _ := rfl
  room := Nat.zero_le _
  claims := Nat.zero_le _

namespace Synchronized

variable {capacity : Nat} {s : OrderedState T}

theorem handedAt_mono (h : Synchronized capacity s) {i j : Nat} (hOrder : i ≤ j)
    (hLast : j < s.handovers.length) : s.handedAt i ≤ s.handedAt j := by
  rcases Nat.eq_or_lt_of_le hOrder with rfl | hLess
  · exact Nat.le_refl _
  · have hPairs := List.pairwise_iff_getElem.mp h.handovers i j (by omega) hLast hLess
    simpa only [OrderedState.handedAt, List.getD_eq_getElem?_getD,
      List.getElem?_eq_getElem (Nat.lt_trans hLess hLast), List.getElem?_eq_getElem hLast,
      Option.getD_some] using hPairs

theorem handedAt_le (h : Synchronized capacity s) {i : Nat} (hLast : i < s.handovers.length) :
    s.handedAt i ≤ s.ring.handed.length := by
  rw [← h.handed]
  exact h.handedAt_mono (by omega) (by omega)

theorem seenHead_lt (h : Synchronized capacity s) (t : Side) :
    (s.memory.view t).2 .mHead < s.handovers.length :=
  h.headLength ▸ h.wellFormed.position_lt t .mHead

theorem seenTail_le (h : Synchronized capacity s) (t : Side) :
    (s.memory.view t).2 .mTail ≤ s.ring.pushed.length := by
  have hPosition := h.wellFormed.position_lt t .mTail
  rw [h.tailLength] at hPosition
  omega

/-! ## Loads -/

theorem learn (h : Synchronized capacity s) (t : Side) {v : View Side Index}
    (hKnown : v ≤ s.memory.now) (hBacked : Backed s.handedAt v) :
    Synchronized capacity { s with memory := s.memory.learn t v } := by
  have hWellFormed := h.wellFormed.learn t hKnown
  refine { h with
    wellFormed := hWellFormed
    tailNewest := h.tailNewest.learn t v
    headNewest := h.headNewest.learn t v
    views := ?_
    room := ?_
    claims := ?_ }
  · intro u
    rcases eq_or_ne u t with rfl | hOther
    · dsimp only
      rw [Memory.view_learn_self]
      exact (h.views u).sup hBacked
    · dsimp only
      rw [Memory.view_learn_of_ne hOther]
      exact h.views u
  · have hLater := h.handedAt_mono ((Memory.view_le_learn t .producer v).2 .mHead)
      (h.headLength ▸ hWellFormed.position_lt .producer .mHead)
    exact h.room.trans (Nat.add_le_add_right hLater capacity)
  · exact h.claims.trans ((Memory.view_le_learn t .consumer v).2 .mTail)

/-- A load of the own index. -/
theorem loadOwn (h : Synchronized capacity s) {order : LoadOrder} {t : Side} {a : Index}
    {i value : Nat} {memory : Memory Side Index Nat Nat} (hNewest : s.memory.Newest t a)
    (hLoad : s.memory.load order t a i = some (value, memory)) :
    i + 1 = (s.memory.messages a).length ∧
      (∃ message, (s.memory.messages a)[i]? = some message ∧ value = message.value) ∧
      Synchronized capacity { s with memory } := by
  obtain ⟨hLast, message, hMessage, hValue, hNext⟩ := hNewest.load hLoad
  refine ⟨hLast, ⟨message, hMessage, hValue⟩, ?_⟩
  have hMem := List.mem_of_getElem? hMessage
  rcases hNext with rfl | rfl
  · exact h.learn t (h.wellFormed.messages a message hMem) (h.messages a message hMem)
  · exact h

/-- An acquire load. -/
theorem loadOther (h : Synchronized capacity s) {order : LoadOrder} (hAcquire : order = .acquire)
    {t : Side} {a : Index} {i value : Nat} {memory : Memory Side Index Nat Nat}
    (hLoad : s.memory.load order t a i = some (value, memory)) :
    (s.memory.view t).2 a ≤ i ∧ i ≤ (memory.view t).2 a ∧
      (∃ message, (s.memory.messages a)[i]? = some message ∧ value = message.value) ∧
      Synchronized capacity { s with memory } := by
  obtain ⟨hNotOlder, message, hMessage, hValue, rfl⟩ := h.wellFormed.load_acquire hAcquire hLoad
  have hMem := List.mem_of_getElem? hMessage
  refine ⟨hNotOlder, ?_, ⟨message, hMessage, hValue⟩,
    h.learn t (h.wellFormed.messages a message hMem) (h.messages a message hMem)⟩
  rw [Memory.view_learn_self]
  exact (h.wellFormed.position a i message hMessage).trans
    (le_max_right ((s.memory.view t).2 a) (message.view.2 a))

/-! ## Steps of the producer -/

/-- What one side finds in a load of the other's index. -/
theorem nextIndex_eq_iff (hCapacity : capacity < sizeRange - 1) {handed pushed : Nat}
    (hLower : handed ≤ pushed) (hUpper : pushed ≤ handed + capacity) :
    nextIndex capacity (pushed % (capacity + 1)) = handed % (capacity + 1) ↔
      pushed = handed + capacity := by
  rw [nextIndex_mod hCapacity]
  constructor
  · intro hSame
    by_contra hRoom
    have := (mod_eq_iff (by omega) (by omega)).mp hSame.symm
    omega
  · rintro rfl
    rw [Nat.add_assoc, Nat.add_mod_right]

theorem loadTail (h : Synchronized capacity s) {order : LoadOrder} {data : T}
    {currentTail i : Nat} {memory : Memory Side Index Nat Nat}
    (hPc : s.ring.producer = .push data)
    (hLoad : s.memory.load order .producer .mTail i = some (currentTail, memory)) :
    Synchronized capacity
      { s with ring := { s.ring with producer := .tailLoaded data currentTail }, memory } := by
  obtain ⟨hLast, ⟨message, hMessage, rfl⟩, hLoaded⟩ := h.loadOwn h.tailNewest hLoad
  have hTail : message.value = s.ring.tail := by
    rw [h.tailLength] at hLast
    obtain rfl : i = s.ring.pushed.length := Nat.succ.inj hLast
    rw [h.tails _ message hMessage, h.fifo.tail]
  have hWrites := hLoaded.writes
  have hRoom := hLoaded.room
  dsimp only at hWrites hRoom
  rw [hPc] at hWrites hRoom
  exact { hLoaded with
    fifo := { h.fifo with producer := hTail }
    writes := hWrites
    room := hRoom }

theorem loadHead (hCapacity : capacity < sizeRange - 1) (h : Synchronized capacity s)
    {order : LoadOrder} (hAcquire : order = .acquire) {data : T} {currentTail i head : Nat}
    {memory : Memory Side Index Nat Nat} (hPc : s.ring.producer = .tailLoaded data currentTail)
    (hLoad : s.memory.load order .producer .mHead i = some (head, memory)) :
    (nextIndex capacity currentTail = head → Synchronized capacity { s with
      ring := { s.ring with
        producer := .idle
        storedAtHeadLoad := s.ring.pushed.length - s.handedAt i
        pushReturns := s.ring.pushReturns ++ [(false, s.ring.pushed.length - s.handedAt i)] }
      memory }) ∧
    (nextIndex capacity currentTail ≠ head → Synchronized capacity { s with
      ring := { s.ring with
        producer := .writing data currentTail (nextIndex capacity currentTail)
        storedAtHeadLoad := s.ring.pushed.length - s.handedAt i }
      memory }) := by
  obtain ⟨hNotOlder, hSeen, ⟨message, hMessage, rfl⟩, hLoaded⟩ := h.loadOther hAcquire hLoad
  have hIndex : i < s.handovers.length := h.headLength ▸ (List.getElem?_eq_some_iff.mp hMessage).1
  have hSince := h.handedAt_mono hNotOlder hIndex
  have hKnown : s.handedAt i ≤ s.handedAt ((memory.view .producer).2 .mHead) :=
    hLoaded.handedAt_mono hSeen (hLoaded.seenHead_lt .producer)
  have hHanded := h.handedAt_le hIndex
  have hPushed := h.fifo.handed.length_le
  have hRoom := h.room
  have hTail : currentTail = s.ring.tail := by
    have hProducer := h.fifo.producer
    rwa [hPc] at hProducer
  have hFull : nextIndex capacity currentTail = message.value ↔
      s.ring.pushed.length = s.handedAt i + capacity := by
    rw [h.heads i message hMessage, hTail, h.fifo.tail]
    exact nextIndex_eq_iff hCapacity (by omega) (by omega)
  have hWrites := hLoaded.writes
  dsimp only at hWrites
  rw [hPc] at hWrites
  constructor
  · intro hSame
    have hCount := hFull.mp hSame
    exact { hLoaded with
      fifo := { h.fifo with
        producer := trivial
        pushReturns := forall_mem_concat h.fifo.pushReturns fun _ => by dsimp only; omega
        pushedReturned := h.fifo.pushedReturned_refused _ }
      writes := hWrites
      room := by
        dsimp only [ProducerPc.reserved]
        exact Nat.le_trans (by omega) (Nat.add_le_add_right hKnown capacity) }
  · intro hFree
    have hNotFull := mt hFull.mpr hFree
    exact { hLoaded with
      fifo := { h.fifo with
        producer := ⟨hTail, by rw [hTail, h.fifo.tail, nextIndex_mod hCapacity], by
          dsimp only
          omega⟩ }
      writes := hWrites
      room := by
        dsimp only [ProducerPc.reserved]
        exact Nat.le_trans (by omega) (Nat.add_le_add_right hKnown capacity) }

/-- An access of either side leaves what is known of the other as it was. -/
theorem backed_access (h : Synchronized capacity s) (t u : Side) :
    Backed s.handedAt ((s.memory.access t).view u) :=
  (h.views u).of_le (Memory.view_le_learn t u _).1 (Memory.position_access t u)

theorem writeCell (h : Synchronized capacity s) {data : T} {currentTail nextTail : Nat}
    (hPc : s.ring.producer = .writing data currentTail nextTail) :
    Synchronized capacity { s with
      ring := { s.ring with
        producer := .storing data nextTail
        buffer := Function.update s.ring.buffer currentTail data }
      memory := s.memory.write .producer currentTail } := by
  have hProducer := h.fifo.producer
  have hWrites := h.writes
  have hRoom := h.room
  rw [hPc] at hProducer hWrites hRoom
  obtain ⟨hTail, -, -⟩ := hProducer
  have hTurn : currentTail = s.memory.clock .producer % (capacity + 1) := by
    rw [hTail, h.fifo.tail, hWrites]
    rfl
  exact { h with
    fifo := h.fifo.writeCell hPc
    wellFormed := h.wellFormed.write .producer currentTail
    tailNewest := h.tailNewest.access .producer
    headNewest := h.headNewest.access .producer
    views := h.backed_access .producer
    writes := by
      change (s.memory.access .producer).clock .producer = _
      rw [Memory.clock_access_self, hWrites]
      rfl
    takes := by
      change (s.memory.access .producer).clock .consumer = _
      rw [Memory.clock_access_of_ne consumer_ne_producer, h.takes]
    writesBehind := by
      change LapBehind _ ((s.memory.access .producer).clock .producer) fun c =>
        Function.update s.memory.writes currentTail _ c .producer
      rw [Memory.last_update_self, Memory.clock_access_self, hTurn]
      exact h.writesBehind.access
    readsBehind := by
      change LapBehind _ ((s.memory.access .producer).clock .consumer) _
      rw [Memory.clock_access_of_ne consumer_ne_producer]
      exact h.readsBehind
    movesBehind := by
      change LapBehind _ ((s.memory.access .producer).clock .consumer) fun c =>
        Function.update s.memory.writes currentTail _ c .consumer
      rw [Memory.last_update_of_ne _ consumer_ne_producer,
        Memory.clock_access_of_ne consumer_ne_producer]
      exact h.movesBehind
    room := by
      change _ ≤ s.handedAt (((s.memory.access .producer).view .producer).2 .mHead) + capacity
      rw [Memory.position_access]
      exact hRoom
    claims := by
      change _ ≤ ((s.memory.access .producer).view .consumer).2 .mTail
      rw [Memory.position_access]
      exact h.claims }

theorem storeTail (h : Synchronized capacity s) {order : StoreOrder} (hRelease : order = .release)
    {data : T} {nextTail : Nat} (hPc : s.ring.producer = .storing data nextTail) :
    Synchronized capacity { s with
      ring := { s.ring with
        producer := .idle
        tail := nextTail
        pushed := s.ring.pushed ++ [data]
        pushReturns := s.ring.pushReturns ++ [(true, s.ring.storedAtHeadLoad)] }
      memory := s.memory.store order .producer .mTail nextTail } := by
  have hProducer := h.fifo.producer
  have hWrites := h.writes
  have hRoom := h.room
  rw [hPc] at hProducer hWrites hRoom
  obtain ⟨hNext, -, -⟩ := hProducer
  have hLength : (s.ring.pushed ++ [data]).length = s.ring.pushed.length + 1 := List.length_append
  have hClock := h.wellFormed.clock_eq .producer
  obtain ⟨message, hMessages, hValue, -, -, hView⟩ :=
    Memory.messages_store_self (m := s.memory) order .producer .mTail nextTail
  have hHeads : (s.memory.store order .producer .mTail nextTail).messages .mHead =
      s.memory.messages .mHead := Memory.messages_store_of_ne (by decide) ..
  have hViews : ∀ u, Backed s.handedAt
      ((s.memory.store order .producer .mTail nextTail).view u) := by
    intro u
    cases u with
    | producer =>
      constructor
      · rw [h.wellFormed.position_store_self, Memory.accesses_store, h.tailLength, hClock, hWrites]
        exact Nat.le_refl _
      · rw [Memory.position_store_of_ne (by decide), Memory.accesses_store]
        exact (h.views .producer).takes
    | consumer =>
      rw [Memory.view_store_of_ne consumer_ne_producer]
      exact h.views .consumer
  exact { h with
    fifo := h.fifo.storeTail hPc
    wellFormed := h.wellFormed.store order .producer .mTail nextTail
    tailNewest := Memory.newest_store order Side.producer Index.mTail nextTail
    headNewest := h.headNewest.store_of_ne (by decide) order nextTail
    tailLength := by
      dsimp only
      rw [Memory.length_messages_store, h.tailLength, hLength]
    headLength := by
      dsimp only
      rw [hHeads]
      exact h.headLength
    tails := by
      intro i message' hMessage
      dsimp only at hMessage
      rw [hMessages] at hMessage
      rcases Memory.getElem?_concat hMessage with hOld | ⟨rfl, rfl⟩
      · exact h.tails i message' hOld
      · rw [hValue, hNext, h.tailLength]
    heads := by
      intro i message' hMessage
      dsimp only at hMessage
      rw [hHeads] at hMessage
      exact h.heads i message' hMessage
    views := hViews
    messages := by
      intro a message' hMem
      dsimp only at hMem
      cases a with
      | mHead =>
        rw [hHeads] at hMem
        exact h.messages .mHead message' hMem
      | mTail =>
        rw [hMessages, List.mem_append, List.mem_singleton] at hMem
        rcases hMem with hOld | rfl
        · exact h.messages .mTail message' hOld
        · rw [hView hRelease]
          exact hViews .producer
    writes := by
      change s.memory.clock .producer = _
      dsimp only
      rw [hWrites, hLength]
      rfl
    room := by
      dsimp only
      rw [Memory.position_store_of_ne (by decide), hLength]
      exact hRoom
    claims := by
      dsimp only
      rw [Memory.view_store_of_ne consumer_ne_producer]
      exact h.claims }

/-! ## Steps of the consumer -/

/-- A step that changes neither memory nor the lists. -/
theorem withRing (h : Synchronized capacity s) {ring : State T} (hFifo : Fifo capacity ring)
    (hPushed : ring.pushed = s.ring.pushed) (hHanded : ring.handed = s.ring.handed)
    (hWritten : ring.producer.written = s.ring.producer.written)
    (hReserved : ring.producer.reserved = s.ring.producer.reserved)
    (hTaken : ring.consumer.taken = s.ring.consumer.taken)
    (hClaims : s.ring.handed.length + ring.consumer.claimed ring.storedAtTailLoad ≤
      (s.memory.view .consumer).2 .mTail) :
    Synchronized capacity { s with ring } :=
  { h with
    fifo := hFifo
    tailLength := by
      dsimp only
      rw [hPushed]
      exact h.tailLength
    handed := by
      dsimp only
      rw [hHanded]
      exact h.handed
    writes := by
      dsimp only
      rw [hPushed, hWritten]
      exact h.writes
    takes := by
      dsimp only
      rw [hHanded, hTaken]
      exact h.takes
    room := by
      dsimp only
      rw [hPushed, hReserved]
      exact h.room
    claims := by
      dsimp only
      rw [hHanded]
      exact hClaims }

theorem loadedHead (h : Synchronized capacity s) {order : LoadOrder} {i head : Nat}
    {memory : Memory Side Index Nat Nat}
    (hLoad : s.memory.load order .consumer .mHead i = some (head, memory)) :
    head = s.ring.head ∧ Synchronized capacity { s with memory } := by
  obtain ⟨hLast, ⟨message, hMessage, rfl⟩, hLoaded⟩ := h.loadOwn h.headNewest hLoad
  refine ⟨?_, hLoaded⟩
  rw [h.headLength] at hLast
  obtain rfl : i = s.handovers.length - 1 := by omega
  rw [h.heads _ message hMessage, h.handed, h.fifo.head]

theorem loadedTail (h : Synchronized capacity s) {order : LoadOrder} (hAcquire : order = .acquire)
    {i tail : Nat} {memory : Memory Side Index Nat Nat}
    (hLoad : s.memory.load order .consumer .mTail i = some (tail, memory)) :
    tail = i % (capacity + 1) ∧ (s.ring.head = tail ↔ s.ring.handed.length = i) ∧
      s.ring.handed.length ≤ i ∧ i ≤ s.ring.pushed.length ∧ i ≤ (memory.view .consumer).2 .mTail ∧
      Synchronized capacity { s with memory } := by
  obtain ⟨hNotOlder, hSeen, ⟨message, hMessage, rfl⟩, hLoaded⟩ := h.loadOther hAcquire hLoad
  have hIndex := (List.getElem?_eq_some_iff.mp hMessage).1
  rw [h.tailLength] at hIndex
  have hBound := h.fifo.bound
  have hHanded : s.ring.handed.length ≤ i :=
    (Nat.le_add_right _ _).trans (h.claims.trans hNotOlder)
  have hValue := h.tails i message hMessage
  refine ⟨hValue, ?_, hHanded, by omega, hSeen, hLoaded⟩
  rw [hValue, h.fifo.head]
  exact mod_eq_iff hHanded (by omega)

theorem readCell (h : Synchronized capacity s) {currentHead : Nat}
    (hPc : s.ring.consumer = .popReading currentHead) :
    Synchronized capacity { s with
      ring := { s.ring with consumer := .popStoring currentHead (s.ring.buffer currentHead) }
      memory := s.memory.read .consumer currentHead } := by
  have hConsumer := h.fifo.consumer
  have hTakes := h.takes
  have hClaims := h.claims
  rw [hPc] at hConsumer hTakes hClaims
  obtain ⟨hHead, -⟩ := hConsumer
  have hTurn : currentHead = s.memory.clock .consumer % (capacity + 1) := by
    rw [hHead, h.fifo.head, hTakes]
    rfl
  exact { h with
    fifo := h.fifo.readCell hPc
    wellFormed := h.wellFormed.read .consumer currentHead
    tailNewest := h.tailNewest.access .consumer
    headNewest := h.headNewest.access .consumer
    views := h.backed_access .consumer
    writes := by
      change (s.memory.access .consumer).clock .producer = _
      rw [Memory.clock_access_of_ne consumer_ne_producer.symm, h.writes]
    takes := by
      change (s.memory.access .consumer).clock .consumer = _
      rw [Memory.clock_access_self, hTakes]
      rfl
    writesBehind := by
      change LapBehind _ ((s.memory.access .consumer).clock .producer) _
      rw [Memory.clock_access_of_ne consumer_ne_producer.symm]
      exact h.writesBehind
    readsBehind := by
      change LapBehind _ ((s.memory.access .consumer).clock .consumer) fun c =>
        Function.update s.memory.reads currentHead _ c .consumer
      rw [Memory.last_update_self, Memory.clock_access_self, hTurn]
      exact h.readsBehind.access
    movesBehind := by
      change LapBehind _ ((s.memory.access .consumer).clock .consumer) _
      rw [Memory.clock_access_self]
      exact h.movesBehind.mono (Nat.le_succ _)
    producerReads := by
      have hOther := Memory.last_update_of_ne s.memory.reads consumer_ne_producer.symm currentHead
        (s.memory.clock .consumer + 1)
      exact fun c => (congrFun hOther c).trans (h.producerReads c)
    room := by
      change _ ≤ s.handedAt (((s.memory.access .consumer).view .producer).2 .mHead) + capacity
      rw [Memory.position_access]
      exact h.room
    claims := by
      change _ ≤ ((s.memory.access .consumer).view .consumer).2 .mTail
      rw [Memory.position_access]
      exact hClaims }

theorem moveCell (hCapacity : capacity < sizeRange - 1) (h : Synchronized capacity s)
    {movedFrom : T → T} {currentHead currentTail count : Nat} {outData : List T}
    (hPc : s.ring.consumer = .popAllMoving currentHead currentTail outData count)
    (hMore : currentHead ≠ currentTail) :
    Synchronized capacity { s with
      ring := { s.ring with
        buffer := Function.update s.ring.buffer currentHead
          (movedFrom (s.ring.buffer currentHead))
        consumer := .popAllMoving (nextIndex capacity currentHead) currentTail
          (outData ++ [s.ring.buffer currentHead]) ((count + 1) % sizeRange) }
      memory := s.memory.write .consumer currentHead } := by
  have hConsumer := h.fifo.consumer
  have hTakes := h.takes
  have hClaims := h.claims
  rw [hPc] at hConsumer hTakes hClaims
  obtain ⟨-, -, hCurrent, -, -, -⟩ := hConsumer
  have hTurn : currentHead = s.memory.clock .consumer % (capacity + 1) := by
    rw [hCurrent, hTakes]
    rfl
  exact { h with
    fifo := h.fifo.moveCell hCapacity hPc hMore
    wellFormed := h.wellFormed.write .consumer currentHead
    tailNewest := h.tailNewest.access .consumer
    headNewest := h.headNewest.access .consumer
    views := h.backed_access .consumer
    writes := by
      change (s.memory.access .consumer).clock .producer = _
      rw [Memory.clock_access_of_ne consumer_ne_producer.symm, h.writes]
    takes := by
      change (s.memory.access .consumer).clock .consumer = _ + (outData ++ [_]).length
      rw [Memory.clock_access_self, hTakes, List.length_append]
      rfl
    writesBehind := by
      change LapBehind _ ((s.memory.access .consumer).clock .producer) fun c =>
        Function.update s.memory.writes currentHead _ c .producer
      rw [Memory.last_update_of_ne _ consumer_ne_producer.symm,
        Memory.clock_access_of_ne consumer_ne_producer.symm]
      exact h.writesBehind
    readsBehind := by
      change LapBehind _ ((s.memory.access .consumer).clock .consumer) _
      rw [Memory.clock_access_self]
      exact h.readsBehind.mono (Nat.le_succ _)
    movesBehind := by
      change LapBehind _ ((s.memory.access .consumer).clock .consumer) fun c =>
        Function.update s.memory.writes currentHead _ c .consumer
      rw [Memory.last_update_self, Memory.clock_access_self, hTurn]
      exact h.movesBehind.access
    room := by
      change _ ≤ s.handedAt (((s.memory.access .consumer).view .producer).2 .mHead) + capacity
      rw [Memory.position_access]
      exact h.room
    claims := by
      change _ ≤ ((s.memory.access .consumer).view .consumer).2 .mTail
      rw [Memory.position_access]
      exact hClaims }

theorem handOver (h : Synchronized capacity s) {order : StoreOrder} (hRelease : order = .release)
    {ring : State T} {head : Nat} (hFifo : Fifo capacity ring)
    (hPushed : ring.pushed = s.ring.pushed)
    (hProducer : ring.producer = s.ring.producer) (hIdle : ring.consumer = .idle)
    (hHead : head = ring.handed.length % (capacity + 1))
    (hLonger : s.ring.handed.length ≤ ring.handed.length)
    (hTaken : s.memory.clock .consumer = ring.handed.length)
    (hSeen : ring.handed.length ≤ (s.memory.view .consumer).2 .mTail) :
    Synchronized capacity {
      ring
      memory := s.memory.store order .consumer .mHead head
      handovers := s.handovers ++ [ring.handed.length] } := by
  have hOld : ∀ {i}, i < s.handovers.length →
      (s.handovers ++ [ring.handed.length]).getD i 0 = s.handedAt i := by
    intro i hIndex
    rw [OrderedState.handedAt, List.getD_append _ _ _ _ hIndex]
  have hNew : (s.handovers ++ [ring.handed.length]).getD s.handovers.length 0 =
      ring.handed.length := by
    rw [List.getD_append_right _ _ _ _ (Nat.le_refl _), Nat.sub_self]
    rfl
  have hEarlier : ∀ {v : View Side Index}, v.2 .mHead < s.handovers.length →
      Backed s.handedAt v → Backed (fun i => (s.handovers ++ [ring.handed.length]).getD i 0) v := by
    intro v hPosition hBacked
    refine ⟨hBacked.pushes, ?_⟩
    rw [hOld hPosition]
    exact hBacked.takes
  have hClock := h.wellFormed.clock_eq .consumer
  obtain ⟨message, hMessages, hValue, -, -, hView⟩ :=
    Memory.messages_store_self (m := s.memory) order .consumer .mHead head
  have hTails : (s.memory.store order .consumer .mHead head).messages .mTail =
      s.memory.messages .mTail := Memory.messages_store_of_ne (by decide) ..
  have hViews : ∀ u, Backed (fun i => (s.handovers ++ [ring.handed.length]).getD i 0)
      ((s.memory.store order .consumer .mHead head).view u) := by
    intro u
    cases u with
    | producer =>
      rw [Memory.view_store_of_ne consumer_ne_producer.symm]
      exact hEarlier (h.seenHead_lt .producer) (h.views .producer)
    | consumer =>
      constructor
      · rw [Memory.position_store_of_ne (by decide), Memory.accesses_store]
        exact (h.views .consumer).pushes
      · rw [h.wellFormed.position_store_self, Memory.accesses_store, h.headLength, hNew, hClock,
          hTaken]
  have hEach : ∀ n ∈ s.handovers, n ≤ ring.handed.length := by
    intro n hMem
    obtain ⟨i, hIndex, rfl⟩ := List.getElem_of_mem hMem
    have hHanded := h.handedAt_le hIndex
    rw [OrderedState.handedAt, List.getD_eq_getElem _ _ hIndex] at hHanded
    exact hHanded.trans hLonger
  exact {
    fifo := hFifo
    wellFormed := h.wellFormed.store order .consumer .mHead head
    tailNewest := h.tailNewest.store_of_ne (by decide) order head
    headNewest := Memory.newest_store order Side.consumer Index.mHead head
    tailLength := by
      dsimp only
      rw [hTails, hPushed]
      exact h.tailLength
    headLength := by
      dsimp only
      rw [Memory.length_messages_store, h.headLength, List.length_append, List.length_singleton]
    tails := by
      intro i message' hMessage
      dsimp only at hMessage
      rw [hTails] at hMessage
      exact h.tails i message' hMessage
    heads := by
      intro i message' hMessage
      change _ = (s.handovers ++ [ring.handed.length]).getD i 0 % (capacity + 1)
      dsimp only at hMessage
      rw [hMessages] at hMessage
      rcases Memory.getElem?_concat hMessage with hOldMessage | ⟨rfl, rfl⟩
      · rw [hOld (h.headLength ▸ (List.getElem?_eq_some_iff.mp hOldMessage).1)]
        exact h.heads i message' hOldMessage
      · rw [hValue, h.headLength, hNew, hHead]
    handovers := by
      apply List.pairwise_append.mpr
      refine ⟨h.handovers, List.pairwise_singleton _ _, ?_⟩
      intro n hMem last hLast
      obtain rfl := List.mem_singleton.mp hLast
      exact hEach n hMem
    handed := by
      change (s.handovers ++ [ring.handed.length]).getD _ 0 = _
      rw [List.length_append, List.length_singleton, Nat.add_sub_cancel, hNew]
    views := hViews
    messages := by
      intro a message' hMem
      have hOldMessage : ∀ b, message' ∈ s.memory.messages b →
          Backed (fun i => (s.handovers ++ [ring.handed.length]).getD i 0) message'.view := by
        intro b hMem
        have hKnown : message'.view.2 .mHead ≤ (s.memory.messages .mHead).length - 1 :=
          (h.wellFormed.messages b message' hMem).2 .mHead
        have hSome := List.length_pos_iff.mpr (h.wellFormed.messages_ne_nil .mHead)
        rw [h.headLength] at hKnown hSome
        exact hEarlier (by omega) (h.messages b message' hMem)
      dsimp only at hMem
      cases a with
      | mTail =>
        rw [hTails] at hMem
        exact hOldMessage .mTail hMem
      | mHead =>
        rw [hMessages, List.mem_append, List.mem_singleton] at hMem
        rcases hMem with hOldMem | rfl
        · exact hOldMessage .mHead hOldMem
        · rw [hView hRelease]
          exact hViews .consumer
    writes := by
      dsimp only
      rw [hPushed, hProducer]
      exact h.writes
    takes := by
      dsimp only
      rw [hIdle]
      exact hTaken
    writesBehind := h.writesBehind
    readsBehind := h.readsBehind
    movesBehind := h.movesBehind
    producerReads := h.producerReads
    room := by
      change _ ≤ (s.handovers ++ [ring.handed.length]).getD _ 0 + capacity
      dsimp only
      rw [Memory.view_store_of_ne consumer_ne_producer.symm, hOld (h.seenHead_lt .producer),
        hPushed, hProducer]
      exact h.room
    claims := by
      dsimp only
      rw [Memory.position_store_of_ne (by decide), hIdle]
      exact hSeen }

end Synchronized

end CounterDroneServer.SPSCQueue

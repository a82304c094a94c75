import CounterDroneServer.Library.ReleaseAcquire
import CounterDroneServer.LockFree.SPSCFifo

/-!
# The ring under its memory orders

The same calls, with loads that may take older values: each access to an index has
the memory order that stands in the source. The values in `ring` are the newest ones;
a load takes its value from the messages of the memory.
-/

set_option autoImplicit false

namespace CounterDroneServer.SPSCQueue

open ReleaseAcquire

universe u

inductive Side
  | producer
  | consumer
  deriving DecidableEq

inductive Index
  | mHead
  | mTail
  deriving DecidableEq

structure Orders where
  pushLoadTail : LoadOrder
  pushLoadHead : LoadOrder
  pushStoreTail : StoreOrder
  popLoadHead : LoadOrder
  popLoadTail : LoadOrder
  popStoreHead : StoreOrder
  popAllLoadHead : LoadOrder
  popAllLoadTail : LoadOrder
  popAllStoreHead : StoreOrder

def sourceOrders : Orders where
  pushLoadTail := .relaxed
  pushLoadHead := .acquire
  pushStoreTail := .release
  popLoadHead := .relaxed
  popLoadTail := .acquire
  popStoreHead := .release
  popAllLoadHead := .relaxed
  popAllLoadTail := .acquire
  popAllStoreHead := .release

/-- Each side loads the other's index with acquire and stores its own with release. -/
structure Orders.Synchronize (orders : Orders) : Prop where
  pushLoadHead : orders.pushLoadHead = .acquire
  pushStoreTail : orders.pushStoreTail = .release
  popLoadTail : orders.popLoadTail = .acquire
  popStoreHead : orders.popStoreHead = .release
  popAllLoadTail : orders.popAllLoadTail = .acquire
  popAllStoreHead : orders.popAllStoreHead = .release

/-- `handovers` has the number of values handed over at each message of `m_head`. -/
structure OrderedState (T : Type u) where
  ring : State T
  memory : Memory Side Index Nat Nat := Memory.start fun _ => 0
  handovers : List Nat := [0]

variable {T : Type u}

def OrderedState.handedAt (s : OrderedState T) (message : Nat) : Nat :=
  s.handovers.getD message 0

/-- What a push counts at its load of `m_head` is what that message shows. -/
def orderedProducerStep (orders : Orders) (capacity : Nat) (s : OrderedState T) (message : Nat) :
    Action T → Option (OrderedState T)
  | .callPush data =>
    match s.ring.producer with
    | .idle => some { s with ring := { s.ring with producer := .push data } }
    | _ => none
  | .producerLoadTail =>
    match s.ring.producer, s.memory.load orders.pushLoadTail .producer .mTail message with
    | .push data, some (currentTail, memory) =>
      some { s with ring := { s.ring with producer := .tailLoaded data currentTail }, memory }
    | _, _ => none
  | .producerLoadHead =>
    match s.ring.producer, s.memory.load orders.pushLoadHead .producer .mHead message with
    | .tailLoaded data currentTail, some (head, memory) =>
      let nextTail := nextIndex capacity currentTail
      let storedAtHeadLoad := s.ring.pushed.length - s.handedAt message
      if nextTail = head then
        some { s with
          ring := { s.ring with
            producer := .idle
            storedAtHeadLoad
            pushReturns := s.ring.pushReturns ++ [(false, storedAtHeadLoad)] }
          memory }
      else
        some { s with
          ring := { s.ring with
            producer := .writing data currentTail nextTail
            storedAtHeadLoad }
          memory }
    | _, _ => none
  | .writeCell =>
    match s.ring.producer with
    | .writing data currentTail nextTail =>
      some { s with
        ring := { s.ring with
          producer := .storing data nextTail
          buffer := Function.update s.ring.buffer currentTail data }
        memory := s.memory.write .producer currentTail }
    | _ => none
  | .storeTail =>
    match s.ring.producer with
    | .storing data nextTail =>
      some { s with
        ring := { s.ring with
          producer := .idle
          tail := nextTail
          pushed := s.ring.pushed ++ [data]
          pushReturns := s.ring.pushReturns ++ [(true, s.ring.storedAtHeadLoad)] }
        memory := s.memory.store orders.pushStoreTail .producer .mTail nextTail }
    | _ => none
  | _ => none

/-- The message of `m_tail` at a position was stored by the push of that number. To move a
value out of a cell is to write the cell. -/
def orderedConsumerStep (orders : Orders) (capacity : Nat) (movedFrom : T → T)
    (s : OrderedState T) (message : Nat) : Action T → Option (OrderedState T)
  | .callPop =>
    match s.ring.consumer with
    | .idle => some { s with ring := { s.ring with consumer := .pop } }
    | _ => none
  | .callPopAll =>
    match s.ring.consumer with
    | .idle => some { s with ring := { s.ring with consumer := .popAll } }
    | _ => none
  | .consumerLoadHead =>
    match s.ring.consumer with
    | .pop =>
      (s.memory.load orders.popLoadHead .consumer .mHead message).map fun loaded =>
        { s with
          ring := { s.ring with consumer := .popHeadLoaded loaded.1 }
          memory := loaded.2 }
    | .popAll =>
      (s.memory.load orders.popAllLoadHead .consumer .mHead message).map fun loaded =>
        { s with
          ring := { s.ring with consumer := .popAllHeadLoaded loaded.1 }
          memory := loaded.2 }
    | _ => none
  | .consumerLoadTail =>
    let storedAtTailLoad := message - s.ring.handed.length
    match s.ring.consumer with
    | .popHeadLoaded currentHead =>
      (s.memory.load orders.popLoadTail .consumer .mTail message).map fun loaded =>
        if currentHead = loaded.1 then
          { s with
            ring := { s.ring with
              consumer := .idle
              storedAtTailLoad
              popReturns := s.ring.popReturns ++ [(false, storedAtTailLoad)] }
            memory := loaded.2 }
        else
          { s with
            ring := { s.ring with consumer := .popReading currentHead, storedAtTailLoad }
            memory := loaded.2 }
    | .popAllHeadLoaded currentHead =>
      (s.memory.load orders.popAllLoadTail .consumer .mTail message).map fun loaded =>
        if currentHead = loaded.1 then
          { s with
            ring := { s.ring with
              consumer := .idle
              storedAtTailLoad
              popAllReturns := s.ring.popAllReturns ++ [(0, storedAtTailLoad)] }
            memory := loaded.2 }
        else
          { s with
            ring := { s.ring with
              consumer := .popAllMoving currentHead loaded.1 [] 0
              storedAtTailLoad }
            memory := loaded.2 }
    | _ => none
  | .readCell =>
    match s.ring.consumer with
    | .popReading currentHead =>
      some { s with
        ring := { s.ring with consumer := .popStoring currentHead (s.ring.buffer currentHead) }
        memory := s.memory.read .consumer currentHead }
    | _ => none
  | .moveCell =>
    match s.ring.consumer with
    | .popAllMoving currentHead currentTail outData count =>
      if currentHead ≠ currentTail then
        some { s with
          ring := { s.ring with
            buffer := Function.update s.ring.buffer currentHead
              (movedFrom (s.ring.buffer currentHead))
            consumer := .popAllMoving (nextIndex capacity currentHead) currentTail
              (outData ++ [s.ring.buffer currentHead]) ((count + 1) % sizeRange) }
          memory := s.memory.write .consumer currentHead }
      else none
    | _ => none
  | .storeHead =>
    match s.ring.consumer with
    | .popStoring currentHead outData =>
      some { s with
        ring := { s.ring with
          consumer := .idle
          head := nextIndex capacity currentHead
          handed := s.ring.handed ++ [outData]
          popReturns := s.ring.popReturns ++ [(true, s.ring.storedAtTailLoad)] }
        memory :=
          s.memory.store orders.popStoreHead .consumer .mHead (nextIndex capacity currentHead)
        handovers := s.handovers ++ [(s.ring.handed ++ [outData]).length] }
    | .popAllMoving currentHead currentTail outData count =>
      if currentHead = currentTail then
        some { s with
          ring := { s.ring with
            consumer := .idle
            head := currentHead
            handed := s.ring.handed ++ outData
            popAllReturns := s.ring.popAllReturns ++ [(count, s.ring.storedAtTailLoad)] }
          memory := s.memory.store orders.popAllStoreHead .consumer .mHead currentHead
          handovers := s.handovers ++ [(s.ring.handed ++ outData).length] }
      else none
    | _ => none
  | _ => none

/-- An action comes with the message that a load takes. -/
def orderedStep (orders : Orders) (capacity : Nat) (movedFrom : T → T) (s : OrderedState T)
    (a : Action T × Nat) : Option (OrderedState T) :=
  (orderedProducerStep orders capacity s a.2 a.1).or
    (orderedConsumerStep orders capacity movedFrom s a.2 a.1)

def orderedQueue (orders : Orders) (capacity : Nat) (movedFrom : T → T) :
    StepSystem (OrderedState T) (Action T × Nat) :=
  ⟨orderedStep orders capacity movedFrom⟩

def orderedInit [Inhabited T] : OrderedState T := { ring := init }

/-- The cell that the next step of the consumer moves from. -/
def ConsumerPc.movesFrom : ConsumerPc T → Option Nat
  | .popAllMoving currentHead currentTail _ _ =>
    if currentHead ≠ currentTail then some currentHead else none
  | _ => none

/-- No next access to a cell races with an earlier one. -/
structure RaceFree (s : OrderedState T) : Prop where
  writeCell : ∀ c ∈ s.ring.producer.writes, s.memory.WriteOrdered .producer c
  readCell : ∀ c ∈ s.ring.consumer.reads, s.memory.ReadOrdered .consumer c
  moveCell : ∀ c ∈ s.ring.consumer.movesFrom, s.memory.WriteOrdered .consumer c

end CounterDroneServer.SPSCQueue

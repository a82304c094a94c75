import Mathlib.Algebra.Group.Nat.Defs
import CounterDroneServer.Library.StepSystem
import CounterDroneServer.Library.RingBuffer

/-!
# The single-producer single-consumer ring

One step is one access to an index or a cell. The producer and the consumer
each run any sequence of calls; their local variables are the arguments of the
program counters. The logs at the end of the state record what a run has done
and steer nothing.
-/

set_option autoImplicit false

namespace CounterDroneServer.SPSCQueue

universe u

/-- The number of values of `size_t`. -/
abbrev sizeRange : Nat := 2 ^ 64

inductive ProducerPc (T : Type u)
  | idle
  | push (data : T)
  | tailLoaded (data : T) (currentTail : Nat)
  | writing (data : T) (currentTail nextTail : Nat)
  | storing (data : T) (nextTail : Nat)

inductive ConsumerPc (T : Type u)
  | idle
  | pop
  | popHeadLoaded (currentHead : Nat)
  | popReading (currentHead : Nat)
  | popStoring (currentHead : Nat) (outData : T)
  | popAll
  | popAllHeadLoaded (currentHead : Nat)
  | popAllMoving (currentHead currentTail : Nat) (outData : List T) (count : Nat)

structure State (T : Type u) where
  buffer : Nat → T
  head : Nat := 0
  tail : Nat := 0
  producer : ProducerPc T := .idle
  consumer : ConsumerPc T := .idle
  pushed : List T := []
  handed : List T := []
  storedAtHeadLoad : Nat := 0
  storedAtTailLoad : Nat := 0
  pushReturns : List (Bool × Nat) := []
  popReturns : List (Bool × Nat) := []
  popAllReturns : List (Nat × Nat) := []

inductive Action (T : Type u)
  | callPush (data : T)
  | producerLoadTail
  | producerLoadHead
  | writeCell
  | storeTail
  | callPop
  | callPopAll
  | consumerLoadHead
  | consumerLoadTail
  | readCell
  | moveCell
  | storeHead

variable {T : Type u}

/-- `m_capacity`: one slot more than the items the queue can hold. -/
def mCapacity (capacity : Nat) : Nat := (capacity + 1) % sizeRange

def nextIndex (capacity index : Nat) : Nat := (index + 1) % sizeRange % mCapacity capacity

def stored (s : State T) : Nat := s.pushed.length - s.handed.length

def producerStep (capacity : Nat) (s : State T) : Action T → Option (State T)
  | .callPush data =>
    match s.producer with
    | .idle => some { s with producer := .push data }
    | _ => none
  | .producerLoadTail =>
    match s.producer with
    | .push data => some { s with producer := .tailLoaded data s.tail }
    | _ => none
  | .producerLoadHead =>
    match s.producer with
    | .tailLoaded data currentTail =>
      let nextTail := nextIndex capacity currentTail
      if nextTail = s.head then
        some { s with
          producer := .idle
          storedAtHeadLoad := stored s
          pushReturns := s.pushReturns ++ [(false, stored s)] }
      else
        some { s with
          producer := .writing data currentTail nextTail
          storedAtHeadLoad := stored s }
    | _ => none
  | .writeCell =>
    match s.producer with
    | .writing data currentTail nextTail =>
      some { s with
        producer := .storing data nextTail
        buffer := Function.update s.buffer currentTail data }
    | _ => none
  | .storeTail =>
    match s.producer with
    | .storing data nextTail =>
      some { s with
        producer := .idle
        tail := nextTail
        pushed := s.pushed ++ [data]
        pushReturns := s.pushReturns ++ [(true, s.storedAtHeadLoad)] }
    | _ => none
  | _ => none

def consumerStep (capacity : Nat) (movedFrom : T → T) (s : State T) :
    Action T → Option (State T)
  | .callPop =>
    match s.consumer with
    | .idle => some { s with consumer := .pop }
    | _ => none
  | .callPopAll =>
    match s.consumer with
    | .idle => some { s with consumer := .popAll }
    | _ => none
  | .consumerLoadHead =>
    match s.consumer with
    | .pop => some { s with consumer := .popHeadLoaded s.head }
    | .popAll => some { s with consumer := .popAllHeadLoaded s.head }
    | _ => none
  | .consumerLoadTail =>
    match s.consumer with
    | .popHeadLoaded currentHead =>
      if currentHead = s.tail then
        some { s with
          consumer := .idle
          storedAtTailLoad := stored s
          popReturns := s.popReturns ++ [(false, stored s)] }
      else some { s with consumer := .popReading currentHead, storedAtTailLoad := stored s }
    | .popAllHeadLoaded currentHead =>
      if currentHead = s.tail then
        some { s with
          consumer := .idle
          storedAtTailLoad := stored s
          popAllReturns := s.popAllReturns ++ [(0, stored s)] }
      else
        some { s with
          consumer := .popAllMoving currentHead s.tail [] 0
          storedAtTailLoad := stored s }
    | _ => none
  | .readCell =>
    match s.consumer with
    | .popReading currentHead =>
      some { s with consumer := .popStoring currentHead (s.buffer currentHead) }
    | _ => none
  | .moveCell =>
    match s.consumer with
    | .popAllMoving currentHead currentTail outData count =>
      if currentHead ≠ currentTail then
        some { s with
          buffer := Function.update s.buffer currentHead (movedFrom (s.buffer currentHead))
          consumer := .popAllMoving (nextIndex capacity currentHead) currentTail
            (outData ++ [s.buffer currentHead]) ((count + 1) % sizeRange) }
      else none
    | _ => none
  | .storeHead =>
    match s.consumer with
    | .popStoring currentHead outData =>
      some { s with
        consumer := .idle
        head := nextIndex capacity currentHead
        handed := s.handed ++ [outData]
        popReturns := s.popReturns ++ [(true, s.storedAtTailLoad)] }
    | .popAllMoving currentHead currentTail outData count =>
      if currentHead = currentTail then
        some { s with
          consumer := .idle
          head := currentHead
          handed := s.handed ++ outData
          popAllReturns := s.popAllReturns ++ [(count, s.storedAtTailLoad)] }
      else none
    | _ => none
  | _ => none

def step (capacity : Nat) (movedFrom : T → T) (s : State T) (a : Action T) : Option (State T) :=
  (producerStep capacity s a).or (consumerStep capacity movedFrom s a)

def queue (capacity : Nat) (movedFrom : T → T) : StepSystem (State T) (Action T) :=
  ⟨step capacity movedFrom⟩

/-- The constructor: `resize` fills the buffer with default values. -/
def init [Inhabited T] : State T := { buffer := fun _ => default }

/-- The cells from `m_head` up to `m_tail`, which the consumer may still read. -/
def storedCells (capacity : Nat) (s : State T) : List Nat :=
  RingBuffer.cells (mCapacity capacity) s.head s.tail

/-- The cell that the next step of the producer writes. -/
def ProducerPc.writes : ProducerPc T → Option Nat
  | .writing _ currentTail _ => some currentTail
  | _ => none

/-- The cell that the next step of the consumer reads. -/
def ConsumerPc.reads : ConsumerPc T → Option Nat
  | .popReading currentHead => some currentHead
  | .popAllMoving currentHead currentTail _ _ =>
    if currentHead ≠ currentTail then some currentHead else none
  | _ => none

end CounterDroneServer.SPSCQueue

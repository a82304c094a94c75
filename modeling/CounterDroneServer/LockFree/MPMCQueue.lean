import CounterDroneServer.Library.StepSystem
import CounterDroneServer.Generals

/-!
# The multi-producer multi-consumer queue

One step is one access of one thread to a position, a sequence number or a
cell's data. `threadStep` is the code of `push` and `pop`; `step` lets any
thread take its next step. The logs record what has been done and steer nothing.
-/

set_option autoImplicit false

namespace CounterDroneServer.MPMCQueue

universe u v

abbrev SizeT := BitVec 64

structure Cell (T : Type u) where
  sequence : SizeT
  data : T

/-- `pos` is the local variable of the two loops: the position to be tried, and
the reserved one behind the compare-exchange. -/
inductive Pc (T : Type u)
  | idle
  | pushLoadPos (data : T)
  | pushLoadSequence (data : T) (pos : SizeT)
  | pushExchange (data : T) (pos : SizeT)
  | pushWrite (data : T) (pos : SizeT)
  | pushStore (data : T) (pos : SizeT)
  | popLoadPos
  | popLoadSequence (pos : SizeT)
  | popExchange (pos : SizeT)
  | popRead (pos : SizeT)
  | popStore (pos : SizeT) (outData : T)

inductive Access (T : Type u)
  | callPush (data : T)
  | callPop
  | loadPos
  | loadSequence
  | compareExchange (failsSpuriously : Bool)
  | accessData
  | storeSequence

structure Shared (T : Type u) where
  buffer : Nat → Cell T
  enqueuePos : SizeT := 0
  dequeuePos : SizeT := 0
  pushTickets : List SizeT := []
  popTickets : List SizeT := []
  stored : List (SizeT × T) := []
  taken : List (SizeT × T) := []
  returned : List (SizeT × T) := []

structure State (τ : Type v) (T : Type u) where
  shared : Shared T
  pcs : τ → Pc T

variable {T : Type u} {τ : Type v}

/-- `m_capacitymask_`, as the constructor sets it. -/
def capacityMask (capacity : SizeT) : SizeT := capacity - 1

def cellIndex (capacityMask pos : SizeT) : Nat := (pos &&& capacityMask).toNat

def Shared.cell (q : Shared T) (capacityMask pos : SizeT) : Cell T :=
  q.buffer (cellIndex capacityMask pos)

def Shared.setCell (q : Shared T) (capacityMask pos : SizeT) (cell : Cell T) : Shared T :=
  { q with buffer := Function.update q.buffer (cellIndex capacityMask pos) cell }

def threadStep (capacityMask : SizeT) (q : Shared T) : Pc T → Access T → Option (Shared T × Pc T)
  | .idle, .callPush data => some (q, .pushLoadPos data)
  | .idle, .callPop => some (q, .popLoadPos)
  | .pushLoadPos data, .loadPos => some (q, .pushLoadSequence data q.enqueuePos)
  | .pushLoadSequence data pos, .loadSequence =>
    let dif := ((q.cell capacityMask pos).sequence - pos).toInt
    some (q,
      if dif = 0 then .pushExchange data pos else if dif < 0 then .idle else .pushLoadPos data)
  | .pushExchange data pos, .compareExchange failsSpuriously =>
    if q.enqueuePos = pos ∧ failsSpuriously = false then
      some ({ q with enqueuePos := pos + 1, pushTickets := q.pushTickets ++ [pos] },
        .pushWrite data pos)
    else some (q, .pushLoadSequence data q.enqueuePos)
  | .pushWrite data pos, .accessData =>
    some (q.setCell capacityMask pos { q.cell capacityMask pos with data := data },
      .pushStore data pos)
  | .pushStore data pos, .storeSequence =>
    some ({ q.setCell capacityMask pos { q.cell capacityMask pos with sequence := pos + 1 } with
      stored := q.stored ++ [(pos, data)] }, .idle)
  | .popLoadPos, .loadPos => some (q, .popLoadSequence q.dequeuePos)
  | .popLoadSequence pos, .loadSequence =>
    let dif := ((q.cell capacityMask pos).sequence - (pos + 1)).toInt
    some (q, if dif = 0 then .popExchange pos else if dif < 0 then .idle else .popLoadPos)
  | .popExchange pos, .compareExchange failsSpuriously =>
    if q.dequeuePos = pos ∧ failsSpuriously = false then
      some ({ q with dequeuePos := pos + 1, popTickets := q.popTickets ++ [pos] }, .popRead pos)
    else some (q, .popLoadSequence q.dequeuePos)
  | .popRead pos, .accessData =>
    let outData := (q.cell capacityMask pos).data
    some ({ q with taken := q.taken ++ [(pos, outData)] }, .popStore pos outData)
  | .popStore pos outData, .storeSequence =>
    let cell := { q.cell capacityMask pos with sequence := pos + capacityMask + 1 }
    some ({ q.setCell capacityMask pos cell with returned := q.returned ++ [(pos, outData)] },
      .idle)
  | _, _ => none

def step [DecidableEq τ] (capacityMask : SizeT) (s : State τ T) (a : τ × Access T) :
    Option (State τ T) :=
  (threadStep capacityMask s.shared (s.pcs a.1) a.2).map fun next =>
    ⟨next.1, Function.update s.pcs a.1 next.2⟩

def queue [DecidableEq τ] (capacityMask : SizeT) : StepSystem (State τ T) (τ × Access T) :=
  ⟨step capacityMask⟩

/-- The constructor: cell `i` is ready for the push with ticket `i`. -/
def init [Inhabited T] : State τ T where
  shared := { buffer := fun i => ⟨BitVec.ofNat 64 i, default⟩ }
  pcs _ := .idle

/-- The position that a thread has reserved and not given up yet. -/
def Pc.reserved : Pc T → Option SizeT
  | .pushWrite _ pos | .pushStore _ pos | .popRead pos | .popStore pos _ => some pos
  | _ => none

def successes (s : State τ T) : Nat := s.shared.pushTickets.length + s.shared.popTickets.length

end CounterDroneServer.MPMCQueue

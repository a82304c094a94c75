import CounterDroneServer.DroneDataSensor.Connections
import CounterDroneServer.Library.Ledger

/-!
# Descriptors, and the end of the program

`main` starts its threads, joins them once the flag has fallen and destroys its
objects. The kernel hands out any descriptor that is not in use, so a descriptor that is
used after its `close` may be another thread's. Here it never is, and none is left open
when `main` returns.
-/

set_option autoImplicit false

namespace CounterDroneServer.Lifetime

open Connections (Sensor ReceiverPc)

universe u

/-- Who has got a descriptor from the kernel. -/
inductive Holder (ι : Type u)
  | simulator
  | sensor
  | receiver (i : ι)
  deriving DecidableEq

/-- `sock` is the local variable of the simulator. -/
inductive SimulatorPc
  | socket
  | inetPton (sock : Nat)
  | connect (sock : Nat)
  | send (sock : Nat)
  | close (sock : Nat)
  | returned
  deriving DecidableEq

/-- Everything up to `listen` is in `init_tcp_communication_pipe`, `initFailed` is its error
path; `loop` is the accept loop. -/
inductive SensorPc
  | socket
  | setReuseAddr
  | setRcvTimeo
  | bind
  | listen
  | initFailed
  | loop
  | close
  | returned
  deriving DecidableEq

/-- `destroySensor` is the body of `~DroneDataSensor`, `destroyFutures` the end of its
vector, whose futures wait for their threads. -/
inductive MainPc
  | waiting
  | joining
  | destroySensor
  | destroyFutures
  | returned
  deriving DecidableEq

/-- A descriptor variable without one is -1. `rcvTimeoSet` says which receivers are behind
their `setsockopt`, `holder` is the table of the kernel. -/
structure Program (ι : Type u) where
  connections : Sensor ι := {}
  mainPc : MainPc := .waiting
  sensorPc : SensorPc := .socket
  simulatorPc : SimulatorPc := .socket
  parserReturned : Bool := false
  processorReturned : Bool := false
  sensorConnectionsSocketNum : Option Nat := none
  socketNum : ι → Option Nat := fun _ => none
  rcvTimeoSet : ι → Bool := fun _ => false
  holder : Nat → Option (Holder ι) := fun _ => none

inductive Action (ι : Type u)
  | signalHandler
  | simulatorSocket (sock : Option Nat)
  | simulatorInetPton (converted : Bool)
  | simulatorConnect (connected : Bool)
  | simulatorSend
  | simulatorLeaves
  | simulatorClose
  | sensorSocket (socketNum : Option Nat)
  | sensorSetsockopt
  | sensorBind (bound : Bool)
  | sensorListen (listens : Bool)
  | sensorInitFailed
  | acceptLoop (a : Connections.Action ι)
  | acceptConnection (i : ι) (newDataSocket : Nat)
  | sensorWakesUpAll
  | sensorClose
  | receiverSetsockopt (i : ι)
  | receiverLoop (a : Connections.Action ι)
  | receiverClose (i : ι)
  | parserRuns
  | parserReturns
  | processorRuns
  | processorReturns
  | mainTest
  | mainJoins
  | mainDestroysSensor
  | mainDestroysFutures

variable {ι : Type u} [DecidableEq ι]

/-- What `close` does to the table; -1 is no descriptor. -/
def closeDescriptor (holder : Nat → Option (Holder ι)) : Option Nat → Nat → Option (Holder ι)
  | some num => Function.update holder num none
  | none => holder

def connectionsStep (s : Program ι) (a : Connections.Action ι) : Option (Program ι) :=
  (Connections.step s.connections a).map fun next => { s with connections := next }

def simulatorStep (s : Program ι) : Action ι → Option (Program ι)
  | .simulatorSocket sock =>
    if s.simulatorPc = .socket then
      match sock with
      | none => some { s with simulatorPc := .returned }
      | some num =>
        if s.holder num = none then
          some { s with
            simulatorPc := .inetPton num
            holder := Function.update s.holder num (some .simulator) }
        else none
    else none
  | .simulatorInetPton converted =>
    match s.simulatorPc with
    | .inetPton sock => some { s with simulatorPc := if converted then .connect sock else .close sock }
    | _ => none
  | .simulatorConnect connected =>
    -- the loop goes on while `connect` fails and the flag stands
    match s.simulatorPc with
    | .connect sock =>
      if s.connections.keepRunningSystem = false then some { s with simulatorPc := .close sock }
      else some { s with simulatorPc := if connected then .send sock else .connect sock }
    | _ => none
  | .simulatorSend =>
    match s.simulatorPc with
    | .send _ => some s
    | _ => none
  | .simulatorLeaves =>
    match s.simulatorPc with
    | .send sock => some { s with simulatorPc := .close sock }
    | _ => none
  | .simulatorClose =>
    match s.simulatorPc with
    | .close sock =>
      some { s with simulatorPc := .returned, holder := closeDescriptor s.holder (some sock) }
    | _ => none
  | _ => none

def sensorStep (s : Program ι) : Action ι → Option (Program ι)
  | .sensorSocket socketNum =>
    if s.sensorPc = .socket then
      match socketNum with
      | none => some { s with sensorPc := .returned, sensorConnectionsSocketNum := none }
      | some num =>
        if s.holder num = none then
          some { s with
            sensorPc := .setReuseAddr
            sensorConnectionsSocketNum := some num
            holder := Function.update s.holder num (some .sensor) }
        else none
    else none
  | .sensorSetsockopt =>
    -- what the calls return is not looked at
    match s.sensorPc with
    | .setReuseAddr => some { s with sensorPc := .setRcvTimeo }
    | .setRcvTimeo => some { s with sensorPc := .bind }
    | _ => none
  | .sensorBind bound =>
    if s.sensorPc = .bind then some { s with sensorPc := if bound then .listen else .initFailed }
    else none
  | .sensorListen listens =>
    if s.sensorPc = .listen then some { s with sensorPc := if listens then .loop else .initFailed }
    else none
  | .sensorInitFailed =>
    if s.sensorPc = .initFailed then
      some { s with
        sensorPc := .returned
        sensorConnectionsSocketNum := none
        holder := closeDescriptor s.holder s.sensorConnectionsSocketNum }
    else none
  | .acceptLoop a =>
    match a with
    | .acceptTest | .acceptNothing | .sweepNext =>
      if s.sensorPc = .loop then connectionsStep s a else none
    | _ => none
  | .acceptConnection i newDataSocket =>
    if s.sensorPc = .loop ∧ s.holder newDataSocket = none then
      (Connections.step s.connections (.acceptConnection i)).map fun next => { s with
        connections := next
        socketNum := Function.update s.socketNum i (some newDataSocket)
        holder := Function.update s.holder newDataSocket (some (.receiver i)) }
    else none
  | .sensorWakesUpAll =>
    if s.sensorPc = .loop ∧ s.connections.acceptPc = .leaving then some { s with sensorPc := .close }
    else none
  | .sensorClose =>
    if s.sensorPc = .close then
      some { s with
        sensorPc := .returned
        sensorConnectionsSocketNum := none
        holder := closeDescriptor s.holder s.sensorConnectionsSocketNum }
    else none
  | _ => none

def receiverStep (s : Program ι) : Action ι → Option (Program ι)
  | .receiverSetsockopt i =>
    if s.connections.receivers i = .test ∧ s.rcvTimeoSet i = false then
      some { s with rcvTimeoSet := Function.update s.rcvTimeoSet i true }
    else none
  | .receiverLoop a =>
    match a with
    | .receiverTest i => if s.rcvTimeoSet i then connectionsStep s a else none
    | .recvData _ _ | .recvNothing _ _ | .pushData _ => connectionsStep s a
    | _ => none
  | .receiverClose i =>
    (Connections.step s.connections (.close i)).map fun next => { s with
      connections := next
      socketNum := Function.update s.socketNum i none
      holder := closeDescriptor s.holder (s.socketNum i) }
  | _ => none

def workerStep (s : Program ι) : Action ι → Option (Program ι)
  | .parserRuns => if s.parserReturned = false then some s else none
  | .parserReturns =>
    if s.parserReturned = false ∧ s.connections.keepRunningSystem = false then
      some { s with parserReturned := true }
    else none
  | .processorRuns => if s.processorReturned = false then some s else none
  | .processorReturns =>
    if s.processorReturned = false ∧ s.connections.keepRunningSystem = false then
      some { s with processorReturned := true }
    else none
  | _ => none

/-- The threads that `main` joins. -/
def Joined (s : Program ι) : Prop :=
  s.simulatorPc = .returned ∧ s.sensorPc = .returned ∧ s.parserReturned = true ∧
    s.processorReturned = true

instance (s : Program ι) : Decidable (Joined s) := inferInstanceAs (Decidable (_ ∧ _ ∧ _ ∧ _))

def mainStep (s : Program ι) : Action ι → Option (Program ι)
  | .mainTest =>
    if s.mainPc = .waiting then
      some { s with mainPc := if s.connections.keepRunningSystem then .waiting else .joining }
    else none
  | .mainJoins =>
    if s.mainPc = .joining ∧ Joined s then some { s with mainPc := .destroySensor } else none
  | .mainDestroysSensor =>
    if s.mainPc = .destroySensor then
      some { s with
        mainPc := .destroyFutures
        sensorConnectionsSocketNum := none
        holder := closeDescriptor s.holder s.sensorConnectionsSocketNum }
    else none
  | .mainDestroysFutures =>
    if s.mainPc = .destroyFutures ∧
        ∀ i ∈ s.connections.dronesDataRcvThreads, (s.connections.receivers i).ready = true then
      some { s with mainPc := .returned }
    else none
  | _ => none

def step (s : Program ι) : Action ι → Option (Program ι)
  | .signalHandler => connectionsStep s .signalHandler
  | a => (simulatorStep s a).or ((sensorStep s a).or
      ((receiverStep s a).or ((workerStep s a).or (mainStep s a))))

def program : StepSystem (Program ι) (Action ι) := ⟨step⟩

theorem step_cases {s s' : Program ι} {a : Action ι} (h : step s a = some s') :
    a = .signalHandler ∧ connectionsStep s .signalHandler = some s' ∨
      simulatorStep s a = some s' ∨ sensorStep s a = some s' ∨ receiverStep s a = some s' ∨
      workerStep s a = some s' ∨ mainStep s a = some s' := by
  cases a with
  | signalHandler => exact .inl ⟨rfl, h⟩
  | _ =>
    simp only [step, Option.or_eq_some_iff] at h
    rcases h with h | ⟨-, h | ⟨-, h | ⟨-, h | ⟨-, h⟩⟩⟩⟩
    · exact .inr (.inl h)
    · exact .inr (.inr (.inl h))
    · exact .inr (.inr (.inr (.inl h)))
    · exact .inr (.inr (.inr (.inr (.inl h))))
    · exact .inr (.inr (.inr (.inr (.inr h))))

/-! ## The books of the descriptors -/

def SimulatorPc.sock : SimulatorPc → Option Nat
  | .inetPton sock | .connect sock | .send sock | .close sock => some sock
  | .socket | .returned => none

def SensorPc.hasSocket : SensorPc → Bool
  | .socket | .returned => false
  | _ => true

def MainPc.beforeJoin : MainPc → Bool
  | .waiting | .joining => true
  | _ => false

/-- A receiver whose thread is running. -/
def Live (pc : ReceiverPc) : Prop := pc ≠ .notStarted ∧ pc ≠ .returned

/-- The descriptor that each thread has in its variable. -/
def held (s : Program ι) : Holder ι → Option Nat
  | .simulator => s.simulatorPc.sock
  | .sensor => s.sensorConnectionsSocketNum
  | .receiver i => s.socketNum i

structure Orderly (s : Program ι) : Prop where
  books : Ledger.Agrees s.holder (held s)
  sensorOpen : s.sensorConnectionsSocketNum.isSome = s.sensorPc.hasSocket
  receiverOpen : ∀ i, (s.socketNum i).isSome = true ↔ Live (s.connections.receivers i)
  future : ∀ i, Live (s.connections.receivers i) → i ∈ s.connections.dronesDataRcvThreads
  joined : s.mainPc.beforeJoin = true ∨ Joined s
  released : s.mainPc = .returned → ∀ i, ¬Live (s.connections.receivers i)

omit [DecidableEq ι] in
theorem orderly_init : Orderly ({} : Program ι) where
  books := by
    have hHeld : held ({} : Program ι) = fun _ => none := by
      funext x
      cases x <;> rfl
    rw [hHeld]
    exact Ledger.agrees_empty
  sensorOpen := rfl
  receiverOpen _ := ⟨nofun, fun hLive => absurd rfl hLive.1⟩
  future _ hLive := absurd rfl hLive.1
  joined := .inl rfl
  released h := by cases h

variable {s s' : Program ι}

theorem held_simulator (s : Program ι) (pc : SimulatorPc) (holder : Nat → Option (Holder ι)) :
    held { s with simulatorPc := pc, holder := holder } =
      Function.update (held s) .simulator pc.sock := by
  funext x
  cases x <;> rfl

theorem held_sensor (s : Program ι) (pc : SensorPc) (num : Option Nat)
    (holder : Nat → Option (Holder ι)) :
    held { s with sensorPc := pc, sensorConnectionsSocketNum := num, holder := holder } =
      Function.update (held s) .sensor num := by
  funext x
  cases x <;> rfl

theorem held_receiver (s : Program ι) (c : Sensor ι) (i : ι) (num : Option Nat)
    (holder : Nat → Option (Holder ι)) :
    held { s with
        connections := c, socketNum := Function.update s.socketNum i num, holder := holder } =
      Function.update (held s) (.receiver i) num := by
  funext x
  cases x with
  | simulator => rfl
  | sensor => rfl
  | receiver j =>
    rcases eq_or_ne j i with rfl | hOther
    · rw [Function.update_self]
      exact Function.update_self _ _ _
    · rw [Function.update_of_ne (by simpa using hOther)]
      exact Function.update_of_ne hOther _ _

/-! ## The simulator -/

theorem Orderly.setSimulator (h : Orderly s) (hMain : s.mainPc.beforeJoin = true) (pc : SimulatorPc)
    {holder : Nat → Option (Holder ι)}
    (hBooks : Ledger.Agrees holder (Function.update (held s) .simulator pc.sock)) :
    Orderly { s with simulatorPc := pc, holder := holder } where
  books := by
    rw [held_simulator]
    exact hBooks
  sensorOpen := h.sensorOpen
  receiverOpen := h.receiverOpen
  future := h.future
  joined := .inl hMain
  released := h.released

/-- A step that keeps the descriptor. -/
theorem Orderly.keepSimulator (h : Orderly s) (hMain : s.mainPc.beforeJoin = true) {pc : SimulatorPc}
    (hSock : pc.sock = s.simulatorPc.sock) : Orderly { s with simulatorPc := pc } := by
  refine h.setSimulator hMain pc ?_
  have hSame : Function.update (held s) .simulator pc.sock = held s := by
    rw [hSock]
    exact Function.update_eq_self _ _
  rw [hSame]
  exact h.books

omit [DecidableEq ι] in
theorem Orderly.beforeJoin (h : Orderly s) (hRunning : ¬Joined s) : s.mainPc.beforeJoin = true :=
  h.joined.resolve_right hRunning

theorem Orderly.simulatorStep (h : Orderly s) {a : Action ι}
    (hStep : Lifetime.simulatorStep s a = some s') : Orderly s' := by
  have hMain : s.simulatorPc ≠ .returned → s.mainPc.beforeJoin = true :=
    fun hRunning => h.beforeJoin fun hJoined => hRunning hJoined.1
  cases a with
  | simulatorSocket sock =>
    obtain ⟨hPc, hNext⟩ := Option.ite_none_right_eq_some.mp hStep
    have hRunning := hMain (by simp [hPc])
    cases sock with
    | none =>
      cases hNext
      exact h.keepSimulator hRunning (by rw [hPc]; rfl)
    | some num =>
      obtain ⟨hFree, hNext⟩ := Option.ite_none_right_eq_some.mp hNext
      cases hNext
      exact h.setSimulator hRunning _ (h.books.acquire hFree (by rw [held, hPc]; rfl))
  | simulatorInetPton converted =>
    simp only [Lifetime.simulatorStep] at hStep
    split at hStep
    · rename_i sock hPc
      cases hStep
      refine h.keepSimulator (hMain (by simp [hPc])) ?_
      rw [hPc]
      cases converted <;> rfl
    · cases hStep
  | simulatorConnect connected =>
    simp only [Lifetime.simulatorStep] at hStep
    split at hStep
    · rename_i sock hPc
      have hRunning := hMain (by simp [hPc])
      split at hStep
      · cases hStep
        exact h.keepSimulator hRunning (by rw [hPc]; rfl)
      · cases hStep
        refine h.keepSimulator hRunning ?_
        rw [hPc]
        cases connected <;> rfl
    · cases hStep
  | simulatorSend =>
    simp only [Lifetime.simulatorStep] at hStep
    split at hStep
    · cases hStep
      exact h
    · cases hStep
  | simulatorLeaves =>
    simp only [Lifetime.simulatorStep] at hStep
    split at hStep
    · rename_i sock hPc
      cases hStep
      exact h.keepSimulator (hMain (by simp [hPc])) (by rw [hPc]; rfl)
    · cases hStep
  | simulatorClose =>
    simp only [Lifetime.simulatorStep] at hStep
    split at hStep
    · rename_i sock hPc
      cases hStep
      refine h.setSimulator (hMain (by simp [hPc])) _ ?_
      exact h.books.release (x := .simulator) (by rw [held, hPc]; rfl)
    · cases hStep
  | _ => cases hStep

/-! ## The sensor -/

theorem Orderly.setSensor (h : Orderly s) (hMain : s.mainPc.beforeJoin = true) (pc : SensorPc)
    (num : Option Nat) {holder : Nat → Option (Holder ι)} (hOpen : num.isSome = pc.hasSocket)
    (hBooks : Ledger.Agrees holder (Function.update (held s) .sensor num)) :
    Orderly { s with sensorPc := pc, sensorConnectionsSocketNum := num, holder := holder } where
  books := by
    rw [held_sensor]
    exact hBooks
  sensorOpen := hOpen
  receiverOpen := h.receiverOpen
  future := h.future
  joined := .inl hMain
  released := h.released

theorem Orderly.keepSensor (h : Orderly s) (hMain : s.mainPc.beforeJoin = true) {pc : SensorPc}
    (hSocket : pc.hasSocket = s.sensorPc.hasSocket) : Orderly { s with sensorPc := pc } := by
  refine h.setSensor hMain pc s.sensorConnectionsSocketNum (h.sensorOpen.trans hSocket.symm) ?_
  have hSame : Function.update (held s) .sensor s.sensorConnectionsSocketNum = held s :=
    Function.update_eq_self _ _
  rw [hSame]
  exact h.books

/-- The sensor closes its socket where it has one. -/
theorem Orderly.books_closed (h : Orderly s) :
    Ledger.Agrees (closeDescriptor s.holder s.sensorConnectionsSocketNum)
      (Function.update (held s) .sensor none) := by
  cases hNum : s.sensorConnectionsSocketNum with
  | none =>
    have hSame : Function.update (held s) .sensor none = held s := by
      rw [← hNum]
      exact Function.update_eq_self _ _
    rw [hSame]
    exact h.books
  | some num => exact h.books.release (x := .sensor) hNum

/-- A step of the loops that opens and closes nothing. -/
structure SameOpen (c c' : Sensor ι) : Prop where
  live : ∀ i, Live (c'.receivers i) ↔ Live (c.receivers i)
  future : ∀ i, Live (c.receivers i) → i ∈ c.dronesDataRcvThreads → i ∈ c'.dronesDataRcvThreads

omit [DecidableEq ι] in
theorem Orderly.connections (h : Orderly s) {c : Sensor ι} (hSame : SameOpen s.connections c) :
    Orderly { s with connections := c } where
  books := by
    have hHeld : held { s with connections := c } = held s := by
      funext x
      cases x <;> rfl
    rw [hHeld]
    exact h.books
  sensorOpen := h.sensorOpen
  receiverOpen i := (h.receiverOpen i).trans (hSame.live i).symm
  future i hLive := by
    have hBefore := (hSame.live i).mp hLive
    exact hSame.future i hBefore (h.future i hBefore)
  joined := h.joined
  released hReturned i hLive := h.released hReturned i ((hSame.live i).mp hLive)

omit [DecidableEq ι] in
theorem sameOpen_of_eq {c c' : Sensor ι} (hReceivers : c'.receivers = c.receivers)
    (hFutures : c'.dronesDataRcvThreads = c.dronesDataRcvThreads) : SameOpen c c' where
  live i := by rw [hReceivers]
  future i _ hMem := by rwa [hFutures]

omit [DecidableEq ι] in
theorem sameOpen_erase {c : Sensor ι} {it : Nat} {i : ι} (hAt : c.dronesDataRcvThreads[it]? = some i)
    (hReady : (c.receivers i).ready = true) :
    SameOpen c { c with dronesDataRcvThreads := c.dronesDataRcvThreads.eraseIdx it } where
  live _ := Iff.rfl
  future j hLive hMem := by
    obtain ⟨k, hk⟩ := List.mem_iff_getElem?.mp hMem
    refine List.mem_eraseIdx_iff_getElem?.mpr ⟨k, ?_, hk⟩
    rintro rfl
    cases hAt.symm.trans hk
    exact hLive.2 ((Connections.ready_iff _).mp hReady)

theorem sameOpen_receiver {c c' : Sensor ι} {i : ι} {pc : ReceiverPc}
    (hBefore : Live (c.receivers i)) (hAfter : Live pc)
    (hReceivers : c'.receivers = Function.update c.receivers i pc)
    (hFutures : c'.dronesDataRcvThreads = c.dronesDataRcvThreads) : SameOpen c c' where
  live j := by
    rw [hReceivers]
    rcases eq_or_ne j i with rfl | hOther
    · rw [Function.update_self]
      exact iff_of_true hAfter hBefore
    · rw [Function.update_of_ne hOther]
  future _ _ hMem := by rwa [hFutures]

/-- The accept loop between two connections; a sweep erases no future of a running
receiver. -/
theorem sameOpen_acceptLoop {c c' : Sensor ι} {a : Connections.Action ι}
    (hStep : Connections.acceptStep c a = some c') (hNew : ∀ i, a ≠ .acceptConnection i) :
    SameOpen c c' := by
  cases a with
  | acceptTest =>
    obtain ⟨-, hNext⟩ := Option.ite_none_right_eq_some.mp hStep
    cases hNext
    exact sameOpen_of_eq rfl rfl
  | acceptConnection i => exact absurd rfl (hNew i)
  | acceptNothing =>
    obtain ⟨-, hNext⟩ := Option.ite_none_right_eq_some.mp hStep
    cases hNext
    exact sameOpen_of_eq rfl rfl
  | sweepNext =>
    simp only [Connections.acceptStep] at hStep
    split at hStep
    · split at hStep
      · rename_i hAt
        split at hStep
        · rename_i hReady
          cases hStep
          exact sameOpen_erase hAt hReady
        · cases hStep
          exact sameOpen_of_eq rfl rfl
      · cases hStep
        exact sameOpen_of_eq rfl rfl
    · cases hStep
  | _ => cases hStep

theorem sameOpen_receiverLoop {c c' : Sensor ι} {a : Connections.Action ι}
    (hStep : Connections.receiverStep c a = some c') (hKeeps : ∀ i, a ≠ .close i) :
    (∃ i, Live (c.receivers i)) ∧ SameOpen c c' := by
  cases a with
  | receiverTest i =>
    obtain ⟨hPc, hNext⟩ := Option.ite_none_right_eq_some.mp hStep
    have hLive : Live (c.receivers i) := by simp [Live, hPc]
    cases hNext
    refine ⟨⟨i, hLive⟩, sameOpen_receiver hLive ?_ rfl rfl⟩
    cases c.keepRunningSystem <;> simp [Live]
  | recvData i dataChunk =>
    obtain ⟨⟨hPc, -⟩, hNext⟩ := Option.ite_none_right_eq_some.mp hStep
    have hLive : Live (c.receivers i) := by simp [Live, hPc]
    cases hNext
    exact ⟨⟨i, hLive⟩, sameOpen_receiver (i := i) hLive (by simp [Live]) rfl rfl⟩
  | recvNothing i bytesRead =>
    obtain ⟨⟨hPc, -⟩, hNext⟩ := Option.ite_none_right_eq_some.mp hStep
    have hLive : Live (c.receivers i) := by simp [Live, hPc]
    cases hNext
    exact ⟨⟨i, hLive⟩, sameOpen_receiver (i := i) hLive (by simp [Live]) rfl rfl⟩
  | pushData i =>
    simp only [Connections.receiverStep] at hStep
    split at hStep
    · rename_i hPc
      have hLive : Live (c.receivers i) := by simp [Live, hPc]
      cases hStep
      exact ⟨⟨i, hLive⟩, sameOpen_receiver (i := i) hLive (by simp [Live]) rfl rfl⟩
    · cases hStep
  | close i => exact absurd rfl (hKeeps i)
  | _ => cases hStep

/-- A new descriptor goes to the receiver of the connection. -/
theorem Orderly.accepts (h : Orderly s) (hMain : s.mainPc.beforeJoin = true) {i : ι} {num : Nat}
    (hFree : s.holder num = none) (hNew : s.connections.receivers i = .notStarted) :
    Orderly { s with
      connections := Connections.startSweep { Connections.setReceiver s.connections i .test with
        dronesDataRcvThreads := s.connections.dronesDataRcvThreads ++ [i]
        socketOpen := Function.update s.connections.socketOpen i true }
      socketNum := Function.update s.socketNum i (some num)
      holder := Function.update s.holder num (some (.receiver i)) } where
  books := by
    have hNone : s.socketNum i = none := by
      rw [← Option.not_isSome_iff_eq_none, h.receiverOpen i, hNew]
      exact fun hLive => hLive.1 rfl
    rw [held_receiver]
    exact h.books.acquire hFree hNone
  sensorOpen := h.sensorOpen
  receiverOpen j := by
    dsimp only [Connections.startSweep, Connections.setReceiver]
    rcases eq_or_ne j i with rfl | hOther
    · rw [Function.update_self, Function.update_self]
      exact iff_of_true rfl ⟨nofun, nofun⟩
    · rw [Function.update_of_ne hOther, Function.update_of_ne hOther]
      exact h.receiverOpen j
  future j hLive := by
    dsimp only [Connections.startSweep, Connections.setReceiver] at hLive ⊢
    rcases eq_or_ne j i with rfl | hOther
    · exact List.mem_concat_self
    · rw [Function.update_of_ne hOther] at hLive
      exact List.mem_append_left _ (h.future j hLive)
  joined := .inl hMain
  released hReturned := by
    change s.mainPc = .returned at hReturned
    rw [hReturned] at hMain
    cases hMain

theorem Orderly.receiverCloses (h : Orderly s) {i : ι} {num : Nat} (hNum : s.socketNum i = some num) :
    Orderly { s with
      connections := { Connections.setReceiver s.connections i .returned with
        socketOpen := Function.update s.connections.socketOpen i false }
      socketNum := Function.update s.socketNum i none
      holder := closeDescriptor s.holder (s.socketNum i) } where
  books := by
    rw [held_receiver, hNum]
    exact h.books.release (x := .receiver i) hNum
  sensorOpen := h.sensorOpen
  receiverOpen j := by
    dsimp only [Connections.setReceiver]
    rcases eq_or_ne j i with rfl | hOther
    · rw [Function.update_self, Function.update_self]
      exact ⟨nofun, fun hLive => absurd rfl hLive.2⟩
    · rw [Function.update_of_ne hOther, Function.update_of_ne hOther]
      exact h.receiverOpen j
  future j hLive := by
    dsimp only [Connections.setReceiver] at hLive ⊢
    rcases eq_or_ne j i with rfl | hOther
    · rw [Function.update_self] at hLive
      exact absurd rfl hLive.2
    · rw [Function.update_of_ne hOther] at hLive
      exact h.future j hLive
  joined := h.joined
  released hReturned j hLive := by
    dsimp only [Connections.setReceiver] at hLive
    rcases eq_or_ne j i with rfl | hOther
    · rw [Function.update_self] at hLive
      exact absurd rfl hLive.2
    · rw [Function.update_of_ne hOther] at hLive
      exact h.released hReturned j hLive

theorem Orderly.sensorStep (h : Orderly s) {a : Action ι} (hStep : Lifetime.sensorStep s a = some s') :
    Orderly s' := by
  have hMain : s.sensorPc ≠ .returned → s.mainPc.beforeJoin = true :=
    fun hRunning => h.beforeJoin fun hJoined => hRunning hJoined.2.1
  cases a with
  | sensorSocket socketNum =>
    obtain ⟨hPc, hNext⟩ := Option.ite_none_right_eq_some.mp hStep
    have hRunning := hMain (by simp [hPc])
    have hNone : s.sensorConnectionsSocketNum = none := by
      rw [← Option.not_isSome_iff_eq_none, h.sensorOpen, hPc]
      exact Bool.false_ne_true
    cases socketNum with
    | none =>
      cases hNext
      have hBooks := h.books_closed
      rw [hNone] at hBooks
      exact h.setSensor hRunning .returned none rfl hBooks
    | some num =>
      obtain ⟨hFree, hNext⟩ := Option.ite_none_right_eq_some.mp hNext
      cases hNext
      exact h.setSensor hRunning .setReuseAddr (some num) rfl (h.books.acquire hFree hNone)
  | sensorSetsockopt =>
    simp only [Lifetime.sensorStep] at hStep
    split at hStep
    · rename_i hPc
      cases hStep
      exact h.keepSensor (hMain (by simp [hPc])) (by rw [hPc]; rfl)
    · rename_i hPc
      cases hStep
      exact h.keepSensor (hMain (by simp [hPc])) (by rw [hPc]; rfl)
    · cases hStep
  | sensorBind bound =>
    obtain ⟨hPc, hNext⟩ := Option.ite_none_right_eq_some.mp hStep
    cases hNext
    refine h.keepSensor (hMain (by simp [hPc])) ?_
    rw [hPc]
    cases bound <;> rfl
  | sensorListen listens =>
    obtain ⟨hPc, hNext⟩ := Option.ite_none_right_eq_some.mp hStep
    cases hNext
    refine h.keepSensor (hMain (by simp [hPc])) ?_
    rw [hPc]
    cases listens <;> rfl
  | sensorInitFailed | sensorClose =>
    obtain ⟨hPc, hNext⟩ := Option.ite_none_right_eq_some.mp hStep
    cases hNext
    exact h.setSensor (hMain (by simp [hPc])) .returned none rfl h.books_closed
  | acceptLoop a =>
    simp only [Lifetime.sensorStep] at hStep
    split at hStep
    all_goals try cases hStep
    all_goals
      obtain ⟨-, hNext⟩ := Option.ite_none_right_eq_some.mp hStep
      obtain ⟨c, hLoop, rfl⟩ := Option.map_eq_some_iff.mp hNext
      rcases Option.or_eq_some_iff.mp hLoop with hAccept | ⟨-, hReceiver⟩
      · exact h.connections (sameOpen_acceptLoop hAccept nofun)
      · cases hReceiver
  | sensorWakesUpAll =>
    obtain ⟨⟨hPc, -⟩, hNext⟩ := Option.ite_none_right_eq_some.mp hStep
    cases hNext
    exact h.keepSensor (hMain (by simp [hPc])) (by rw [hPc]; rfl)
  | acceptConnection i newDataSocket =>
    obtain ⟨⟨hPc, hFree⟩, hNext⟩ := Option.ite_none_right_eq_some.mp hStep
    obtain ⟨c, hLoop, rfl⟩ := Option.map_eq_some_iff.mp hNext
    rcases Option.or_eq_some_iff.mp hLoop with hAccept | ⟨-, hReceiver⟩
    · obtain ⟨⟨-, hNew⟩, hNext⟩ := Option.ite_none_right_eq_some.mp hAccept
      cases hNext
      exact h.accepts (hMain (by simp [hPc])) hFree hNew
    · cases hReceiver
  | _ => cases hStep

/-! ## Receivers, workers and `main` -/

theorem receiverStep_of_step {c c' : Sensor ι} {a : Connections.Action ι}
    (hStep : Connections.step c a = some c') (hSignal : a ≠ .signalHandler)
    (hNotAccept : Connections.acceptStep c a = none) : Connections.receiverStep c a = some c' := by
  have hEither : (Connections.acceptStep c a).or (Connections.receiverStep c a) = some c' := by
    cases a with
    | signalHandler => exact absurd rfl hSignal
    | _ => exact hStep
  rwa [hNotAccept, Option.none_or] at hEither

theorem receiverStep_of_loop {a : Connections.Action ι}
    (hStep : receiverStep s (.receiverLoop a) = some s') :
    ∃ c, Connections.receiverStep s.connections a = some c ∧ (∀ i, a ≠ .close i) ∧
      s' = { s with connections := c } := by
  cases a with
  | receiverTest i =>
    obtain ⟨-, hNext⟩ := Option.ite_none_right_eq_some.mp hStep
    obtain ⟨c, hLoop, hSame⟩ := Option.map_eq_some_iff.mp hNext
    exact ⟨c, receiverStep_of_step hLoop nofun rfl, nofun, hSame.symm⟩
  | recvData | recvNothing | pushData =>
    obtain ⟨c, hLoop, hSame⟩ := Option.map_eq_some_iff.mp hStep
    exact ⟨c, receiverStep_of_step hLoop nofun rfl, nofun, hSame.symm⟩
  | _ => cases hStep

omit [DecidableEq ι] in
theorem Orderly.setRcvTimeo (h : Orderly s) (set : ι → Bool) :
    Orderly { s with rcvTimeoSet := set } where
  books := by
    have hHeld : held { s with rcvTimeoSet := set } = held s := by
      funext x
      cases x <;> rfl
    rw [hHeld]
    exact h.books
  sensorOpen := h.sensorOpen
  receiverOpen := h.receiverOpen
  future := h.future
  joined := h.joined
  released := h.released

theorem Orderly.receiverStep (h : Orderly s) {a : Action ι}
    (hStep : Lifetime.receiverStep s a = some s') :
    (∃ i, Live (s.connections.receivers i)) ∧ Orderly s' := by
  cases a with
  | receiverSetsockopt i =>
    obtain ⟨⟨hPc, -⟩, hNext⟩ := Option.ite_none_right_eq_some.mp hStep
    cases hNext
    exact ⟨⟨i, by simp [Live, hPc]⟩, h.setRcvTimeo _⟩
  | receiverLoop a =>
    obtain ⟨c, hLoop, hKeeps, rfl⟩ := receiverStep_of_loop hStep
    obtain ⟨hLive, hSame⟩ := sameOpen_receiverLoop hLoop hKeeps
    exact ⟨hLive, h.connections hSame⟩
  | receiverClose i =>
    obtain ⟨c, hLoop, rfl⟩ := Option.map_eq_some_iff.mp hStep
    obtain ⟨hPc, hNext⟩ :=
      Option.ite_none_right_eq_some.mp (receiverStep_of_step hLoop nofun rfl)
    cases hNext
    have hLive : Live (s.connections.receivers i) := by simp [Live, hPc]
    obtain ⟨num, hNum⟩ := Option.isSome_iff_exists.mp ((h.receiverOpen i).mpr hLive)
    exact ⟨⟨i, hLive⟩, h.receiverCloses hNum⟩
  | _ => cases hStep

omit [DecidableEq ι] in
theorem Orderly.workerStep (h : Orderly s) {a : Action ι} (hStep : Lifetime.workerStep s a = some s') :
    s.mainPc.beforeJoin = true ∧ Orderly s' := by
  have hParser : s.parserReturned = false → s.mainPc.beforeJoin = true :=
    fun hRunning => h.beforeJoin fun hJoined => by simp [hJoined.2.2.1] at hRunning
  have hProcessor : s.processorReturned = false → s.mainPc.beforeJoin = true :=
    fun hRunning => h.beforeJoin fun hJoined => by simp [hJoined.2.2.2] at hRunning
  cases a with
  | parserRuns =>
    obtain ⟨hRunning, hNext⟩ := Option.ite_none_right_eq_some.mp hStep
    cases hNext
    exact ⟨hParser hRunning, h⟩
  | parserReturns =>
    obtain ⟨⟨hRunning, -⟩, hNext⟩ := Option.ite_none_right_eq_some.mp hStep
    cases hNext
    exact ⟨hParser hRunning, { h with joined := .inl (hParser hRunning) }⟩
  | processorRuns =>
    obtain ⟨hRunning, hNext⟩ := Option.ite_none_right_eq_some.mp hStep
    cases hNext
    exact ⟨hProcessor hRunning, h⟩
  | processorReturns =>
    obtain ⟨⟨hRunning, -⟩, hNext⟩ := Option.ite_none_right_eq_some.mp hStep
    cases hNext
    exact ⟨hProcessor hRunning, { h with joined := .inl (hProcessor hRunning) }⟩
  | _ => cases hStep

omit [DecidableEq ι] in
theorem Orderly.joined_of_pc (h : Orderly s) (hPc : s.mainPc.beforeJoin = false) : Joined s := by
  rcases h.joined with hBefore | hJoined
  · cases hPc.symm.trans hBefore
  · exact hJoined

theorem Orderly.mainStep (h : Orderly s) {a : Action ι} (hStep : Lifetime.mainStep s a = some s') :
    Orderly s' := by
  cases a with
  | mainTest =>
    obtain ⟨hPc, hNext⟩ := Option.ite_none_right_eq_some.mp hStep
    cases hNext
    refine { h with joined := .inl ?_, released := ?_ }
    · cases s.connections.keepRunningSystem <;> rfl
    · cases s.connections.keepRunningSystem <;> exact nofun
  | mainJoins =>
    obtain ⟨⟨-, hJoined⟩, hNext⟩ := Option.ite_none_right_eq_some.mp hStep
    cases hNext
    exact { h with joined := .inr hJoined, released := nofun }
  | mainDestroysSensor =>
    obtain ⟨hPc, hNext⟩ := Option.ite_none_right_eq_some.mp hStep
    cases hNext
    have hJoined := h.joined_of_pc (by rw [hPc]; rfl)
    refine { h with books := ?_, sensorOpen := ?_, joined := .inr hJoined, released := nofun }
    · have hHeld : held { s with
          mainPc := .destroyFutures
          sensorConnectionsSocketNum := none
          holder := closeDescriptor s.holder s.sensorConnectionsSocketNum } =
          Function.update (held s) .sensor none := by
        funext x
        cases x <;> rfl
      rw [hHeld]
      exact h.books_closed
    · rw [hJoined.2.1]
      rfl
  | mainDestroysFutures =>
    obtain ⟨⟨hPc, hReady⟩, hNext⟩ := Option.ite_none_right_eq_some.mp hStep
    cases hNext
    have hJoined := h.joined_of_pc (by rw [hPc]; rfl)
    refine { h with joined := .inr hJoined, released := fun _ i hLive => ?_ }
    exact hLive.2 ((Connections.ready_iff _).mp (hReady i (h.future i hLive)))
  | _ => cases hStep

/-! ## Every interleaving -/

theorem step_orderly (h : Orderly s) {a : Action ι} (hStep : step s a = some s') : Orderly s' := by
  rcases step_cases hStep with ⟨-, hSignal⟩ | hSimulator | hSensor | hReceiver | hWorker | hMain
  · obtain ⟨c, hNext, rfl⟩ := Option.map_eq_some_iff.mp hSignal
    cases hNext
    exact h.connections (sameOpen_of_eq rfl rfl)
  · exact h.simulatorStep hSimulator
  · exact h.sensorStep hSensor
  · exact (h.receiverStep hReceiver).2
  · exact (h.workerStep hWorker).2
  · exact h.mainStep hMain

/-- The thread whose system call an action makes, and the descriptor that it names. -/
def uses (s : Program ι) : Action ι → Option (Holder ι × Option Nat)
  | .simulatorConnect _ | .simulatorSend | .simulatorClose => some (.simulator, s.simulatorPc.sock)
  | .sensorSetsockopt | .sensorBind _ | .sensorListen _ | .sensorInitFailed | .sensorClose
  | .acceptConnection _ _ | .acceptLoop .acceptNothing =>
    some (.sensor, s.sensorConnectionsSocketNum)
  | .receiverSetsockopt i | .receiverLoop (.recvData i _) | .receiverLoop (.recvNothing i _)
  | .receiverClose i => some (.receiver i, s.socketNum i)
  | .mainDestroysSensor =>
    -- the destructor closes only what is not -1
    if s.sensorConnectionsSocketNum.isSome then some (.sensor, s.sensorConnectionsSocketNum) else none
  | _ => none

/-- The actions of the threads that `main` joins. -/
def Action.ofJoined : Action ι → Bool
  | .signalHandler | .mainTest | .mainJoins | .mainDestroysSensor | .mainDestroysFutures
  | .receiverSetsockopt _ | .receiverLoop _ | .receiverClose _ => false
  | _ => true

def Action.ofReceiver : Action ι → Bool
  | .receiverSetsockopt _ | .receiverLoop _ | .receiverClose _ => true
  | _ => false

theorem live_of_recv {c c' : Sensor ι} {i : ι} {a : Connections.Action ι}
    (hAction : a = .close i ∨ (∃ dataChunk, a = .recvData i dataChunk) ∨
      ∃ bytesRead, a = .recvNothing i bytesRead)
    (hStep : Connections.step c a = some c') : Live (c.receivers i) := by
  rcases hAction with rfl | ⟨dataChunk, rfl⟩ | ⟨bytesRead, rfl⟩
  · obtain ⟨hPc, -⟩ := Option.ite_none_right_eq_some.mp (receiverStep_of_step hStep nofun rfl)
    simp [Live, hPc]
  · obtain ⟨⟨hPc, -⟩, -⟩ := Option.ite_none_right_eq_some.mp (receiverStep_of_step hStep nofun rfl)
    simp [Live, hPc]
  · obtain ⟨⟨hPc, -⟩, -⟩ := Option.ite_none_right_eq_some.mp (receiverStep_of_step hStep nofun rfl)
    simp [Live, hPc]

/-- No system call is made on -1. -/
theorem Orderly.uses_open (h : Orderly s) {a : Action ι} (hStep : step s a = some s') {x : Holder ι}
    {num : Option Nat} (hUses : uses s a = some (x, num)) : held s x = num ∧ num.isSome = true := by
  have hSensor : s.sensorPc.hasSocket = true → s.sensorConnectionsSocketNum.isSome = true :=
    h.sensorOpen.trans
  have hReceiver : ∀ i, Live (s.connections.receivers i) → (s.socketNum i).isSome = true :=
    fun i => (h.receiverOpen i).mpr
  rcases step_cases hStep with ⟨rfl, -⟩ | hStep | hStep | hStep | hStep | hStep
  · cases hUses
  · cases a with
    | simulatorConnect | simulatorSend | simulatorClose =>
      cases hUses
      refine ⟨rfl, ?_⟩
      simp only [Lifetime.simulatorStep] at hStep
      split at hStep
      · rename_i hPc
        rw [hPc]
        rfl
      · cases hStep
    | simulatorSocket | simulatorInetPton | simulatorLeaves => cases hUses
    | _ => cases hStep
  · cases a with
    | sensorSetsockopt =>
      cases hUses
      refine ⟨rfl, hSensor ?_⟩
      simp only [Lifetime.sensorStep] at hStep
      split at hStep
      · rename_i hPc
        rw [hPc]
        rfl
      · rename_i hPc
        rw [hPc]
        rfl
      · cases hStep
    | sensorBind | sensorListen | sensorInitFailed | sensorClose =>
      cases hUses
      obtain ⟨hPc, -⟩ := Option.ite_none_right_eq_some.mp hStep
      exact ⟨rfl, hSensor (by rw [hPc]; rfl)⟩
    | acceptConnection i newDataSocket =>
      cases hUses
      obtain ⟨⟨hPc, -⟩, -⟩ := Option.ite_none_right_eq_some.mp hStep
      exact ⟨rfl, hSensor (by rw [hPc]; rfl)⟩
    | acceptLoop a =>
      cases a with
      | acceptNothing =>
        cases hUses
        obtain ⟨hPc, -⟩ := Option.ite_none_right_eq_some.mp hStep
        exact ⟨rfl, hSensor (by rw [hPc]; rfl)⟩
      | _ => cases hUses
    | sensorSocket | sensorWakesUpAll => cases hUses
    | _ => cases hStep
  · cases a with
    | receiverSetsockopt i =>
      cases hUses
      obtain ⟨⟨hPc, -⟩, -⟩ := Option.ite_none_right_eq_some.mp hStep
      exact ⟨rfl, hReceiver i (by simp [Live, hPc])⟩
    | receiverLoop a =>
      cases a with
      | recvData i dataChunk =>
        cases hUses
        obtain ⟨c, hLoop, -⟩ := Option.map_eq_some_iff.mp hStep
        exact ⟨rfl, hReceiver i (live_of_recv (.inr (.inl ⟨dataChunk, rfl⟩)) hLoop)⟩
      | recvNothing i bytesRead =>
        cases hUses
        obtain ⟨c, hLoop, -⟩ := Option.map_eq_some_iff.mp hStep
        exact ⟨rfl, hReceiver i (live_of_recv (.inr (.inr ⟨bytesRead, rfl⟩)) hLoop)⟩
      | _ => cases hUses
    | receiverClose i =>
      cases hUses
      obtain ⟨c, hLoop, -⟩ := Option.map_eq_some_iff.mp hStep
      exact ⟨rfl, hReceiver i (live_of_recv (.inl rfl) hLoop)⟩
    | _ => cases hStep
  · cases a with
    | parserRuns | parserReturns | processorRuns | processorReturns => cases hUses
    | _ => cases hStep
  · cases a with
    | mainDestroysSensor =>
      obtain ⟨hOpen, hSame⟩ := Option.ite_none_right_eq_some.mp hUses
      cases hSame
      exact ⟨rfl, hOpen⟩
    | mainTest | mainJoins | mainDestroysFutures => cases hUses
    | _ => cases hStep

omit [DecidableEq ι] in
theorem simulatorStep_running {a : Action ι} (hStep : simulatorStep s a = some s') :
    s.simulatorPc ≠ .returned := by
  intro hPc
  cases a with
  | simulatorSocket | simulatorInetPton | simulatorConnect | simulatorSend | simulatorLeaves
  | simulatorClose => simp [simulatorStep, hPc] at hStep
  | _ => cases hStep

theorem sensorStep_running {a : Action ι} (hStep : sensorStep s a = some s') :
    s.sensorPc ≠ .returned := by
  intro hPc
  cases a with
  | acceptLoop a =>
    simp only [sensorStep] at hStep
    split at hStep
    all_goals simp [hPc] at hStep
  | sensorSocket | sensorSetsockopt | sensorBind | sensorListen | sensorInitFailed
  | acceptConnection | sensorWakesUpAll | sensorClose => simp [sensorStep, hPc] at hStep
  | _ => cases hStep

/-- A joined thread acts only before `main` destroys anything, a receiver only before
`main` returns. -/
theorem Orderly.alive (h : Orderly s) {a : Action ι} (hStep : step s a = some s') :
    (a.ofJoined = true → s.mainPc.beforeJoin = true) ∧
      (a.ofReceiver = true → s.mainPc ≠ .returned) := by
  rcases step_cases hStep with ⟨rfl, -⟩ | hStep | hStep | hStep | hStep | hStep
  · exact ⟨nofun, nofun⟩
  · have hMain := h.beforeJoin fun hJoined => simulatorStep_running hStep hJoined.1
    refine ⟨fun _ => hMain, fun _ hReturned => ?_⟩
    rw [hReturned] at hMain
    cases hMain
  · have hMain := h.beforeJoin fun hJoined => sensorStep_running hStep hJoined.2.1
    refine ⟨fun _ => hMain, fun _ hReturned => ?_⟩
    rw [hReturned] at hMain
    cases hMain
  · obtain ⟨⟨i, hLive⟩, -⟩ := h.receiverStep hStep
    refine ⟨fun hJoined => ?_, fun _ hReturned => h.released hReturned i hLive⟩
    cases a with
    | receiverSetsockopt | receiverLoop | receiverClose => cases hJoined
    | _ => cases hStep
  · obtain ⟨hMain, -⟩ := h.workerStep hStep
    refine ⟨fun _ => hMain, fun _ hReturned => ?_⟩
    rw [hReturned] at hMain
    cases hMain
  · cases a with
    | mainTest | mainJoins | mainDestroysSensor | mainDestroysFutures => exact ⟨nofun, nofun⟩
    | _ => cases hStep

/-- In every interleaving each system call is made on a descriptor that its thread has got
from the kernel and not closed; no thread is left running on objects that `main` has
destroyed; and when `main` has returned no descriptor is open. -/
theorem descriptors_owned (s : Program ι) (hRun : program.Reaches {} s) :
    (∀ a s', step s a = some s' → ∀ x num, uses s a = some (x, num) →
      ∃ descriptor, num = some descriptor ∧ s.holder descriptor = some x) ∧
    (∀ a s', step s a = some s' → (a.ofJoined = true → s.mainPc.beforeJoin = true) ∧
      (a.ofReceiver = true → s.mainPc ≠ .returned)) ∧
    (s.mainPc = .returned → ∀ descriptor, s.holder descriptor = none) := by
  have hOrderly : Orderly s :=
    hRun.invariant Orderly orderly_init fun h hStep => step_orderly h hStep
  refine ⟨?_, fun a s' hStep => hOrderly.alive hStep, ?_⟩
  · intro a s' hStep x num hUses
    obtain ⟨hHeld, hOpen⟩ := hOrderly.uses_open hStep hUses
    obtain ⟨descriptor, rfl⟩ := Option.isSome_iff_exists.mp hOpen
    exact ⟨descriptor, rfl, (hOrderly.books descriptor x).mpr hHeld⟩
  · intro hReturned
    have hJoined := hOrderly.joined_of_pc (by rw [hReturned]; rfl)
    apply hOrderly.books.none_of_none
    intro x
    cases x with
    | simulator =>
      rw [held, hJoined.1]
      rfl
    | sensor =>
      rw [held, ← Option.not_isSome_iff_eq_none, hOrderly.sensorOpen, hJoined.2.1]
      exact Bool.false_ne_true
    | receiver i =>
      rw [held, ← Option.not_isSome_iff_eq_none, hOrderly.receiverOpen i]
      exact hOrderly.released hReturned i

/-- A whole run: the receiver ends only when the destructor of the sensor waits for it. -/
theorem descriptors_owned_whole_run :
    ∃ s : Program Unit, s.mainPc = .returned ∧ s.connections.receivers () = .returned ∧
      ∀ descriptor, s.holder descriptor = none := by
  have hSchedule : program.runActions ({} : Program Unit)
      [.sensorSocket (some 3), .sensorSetsockopt, .sensorSetsockopt, .sensorBind true,
        .sensorListen true, .simulatorSocket (some 4), .simulatorInetPton true,
        .simulatorConnect true, .acceptLoop .acceptTest, .acceptConnection () 5, .simulatorSend,
        .simulatorLeaves, .simulatorClose, .signalHandler, .acceptLoop .sweepNext,
        .acceptLoop .sweepNext, .acceptLoop .acceptTest, .sensorWakesUpAll, .sensorClose,
        .parserReturns, .processorReturns, .mainTest, .mainJoins, .mainDestroysSensor,
        .receiverSetsockopt (), .receiverLoop (.receiverTest ()), .receiverClose (),
        .mainDestroysFutures] = some _ := rfl
  have hRun := StepSystem.Reaches.runActions .refl hSchedule
  exact ⟨_, rfl, rfl, (descriptors_owned _ hRun).2.2 rfl⟩

end CounterDroneServer.Lifetime

import CounterDroneServer.Library.StepSystem
import CounterDroneServer.ThreadsSharedDataManager.Basic
import CounterDroneServer.DroneDataSimulator.Packet
import CounterDroneServer.SensorDataParser.Process
import CounterDroneServer.SensorDataParser.Deserialize

/-!
# Receiver threads, the raw-data queue and the parser

Every connected client has its own receiver thread, and all of them push their
chunks into the one queue that the parser empties. A chunk does not say which
client it came from.
-/

set_option autoImplicit false

namespace CounterDroneServer.DroneDataSensor

open SensorDataParser (processBatch deserializePayload)

universe u

abbrev recvBufferSize : Nat := 4096

/-- The thread of `listen_on_spesific_socket`: what its client has sent and
`recv` has not returned yet, and the chunk between `recv` and `push_data`. -/
structure Receiver where
  socket : BytesArray
  dataChunk : Option BytesArray := none

/-- The bytes of a client that are still to be pushed. -/
def Receiver.outstanding (r : Receiver) : BytesArray := r.dataChunk.getD [] ++ r.socket

structure RawDataPath (ι : Type u) where
  receivers : ι → Receiver
  sharedRawDataManager : ThreadsSharedDataManager BytesArray := {}
  newDataChunks : Option (List BytesArray) := none
  parser : SensorDataParser (Option TelemetryData) := {}

inductive Action (ι : Type u)
  | recv (i : ι) (bytesRead : Nat)
  | pushData (i : ι)
  | popAll
  | process

variable {ι : Type u} [DecidableEq ι]

def setReceiver (s : RawDataPath ι) (i : ι) (receiver : Receiver) : RawDataPath ι :=
  { s with receivers := Function.update s.receivers i receiver }

def step (s : RawDataPath ι) : Action ι → Option (RawDataPath ι)
  | .recv i bytesRead =>
    let receiver := s.receivers i
    if receiver.dataChunk = none ∧ 0 < bytesRead ∧ bytesRead ≤ recvBufferSize ∧
        bytesRead ≤ receiver.socket.length then
      some (setReceiver s i
        ⟨receiver.socket.drop bytesRead, some (receiver.socket.take bytesRead)⟩)
    else none
  | .pushData i =>
    (s.receivers i).dataChunk.map fun chunk =>
      { setReceiver s i ⟨(s.receivers i).socket, none⟩ with
        sharedRawDataManager := s.sharedRawDataManager.pushData chunk }
  | .popAll =>
    if s.newDataChunks = none ∧ s.sharedRawDataManager.wakes true = true then
      let popped := s.sharedRawDataManager.popAll true
      some { s with newDataChunks := popped.1, sharedRawDataManager := popped.2 }
    else none
  | .process =>
    s.newDataChunks.map fun chunks =>
      { s with newDataChunks := none, parser := processBatch deserializePayload s.parser chunks }

def rawDataPath : StepSystem (RawDataPath ι) (Action ι) := ⟨step⟩

/-- Every client has sent the packets of its records. -/
def connected (records : ι → List TelemetryData) : RawDataPath ι where
  receivers i := ⟨packetStream (records i), none⟩

/-- All that was sent has been pushed, popped and processed. -/
def Drained (s : RawDataPath ι) : Prop :=
  (∀ i, (s.receivers i).outstanding = []) ∧ s.sharedRawDataManager.sharedData = [] ∧
    s.newDataChunks = none

/-- What client `i` has still to push is a whole number of its packets. -/
def AtPacketBoundary (records : ι → List TelemetryData) (s : RawDataPath ι) (i : ι) : Prop :=
  ∃ rest, rest <:+ records i ∧ (s.receivers i).outstanding = packetStream rest

/-- No chunk is pushed into the middle of another client's packet. -/
def PushesBetweenPackets (records : ι → List TelemetryData) (s : RawDataPath ι) :
    Action ι → Prop
  | .pushData i => ∀ j, j ≠ i → AtPacketBoundary records s j
  | _ => True

/-! ## What a step does to the bytes -/

/-- The bytes that the parser has processed, holds or will pop, in the order of
the pushes. -/
def PushOrder (s : RawDataPath ι) (pushed : BytesArray) : Prop :=
  ∃ batches, s.parser = SensorDataParser.processBatches deserializePayload {} batches ∧
    pushed = batches.flatten.flatten ++ (s.newDataChunks.getD []).flatten ++
      s.sharedRawDataManager.sharedData.flatten

def outstanding (s : RawDataPath ι) (i : ι) : BytesArray := (s.receivers i).outstanding

inductive StepEffect (s s' : RawDataPath ι) (a : Action ι) : Prop
  | silent (hOutstanding : outstanding s' = outstanding s)
    (hPushed : ∀ pushed, PushOrder s pushed → PushOrder s' pushed)
  | pushed (i : ι) (chunk : BytesArray) (hAction : a = .pushData i)
    (hChunk : outstanding s i = chunk ++ outstanding s' i)
    (hOthers : ∀ j, j ≠ i → outstanding s' j = outstanding s j)
    (hPushed : ∀ pushed, PushOrder s pushed → PushOrder s' (pushed ++ chunk))

theorem step_effect {s s' : RawDataPath ι} {a : Action ι} (h : step s a = some s') :
    StepEffect s s' a := by
  cases a with
  | recv i bytesRead =>
    simp only [step] at h
    split at h
    · rename_i hEnabled
      cases h
      refine .silent ?_ fun _ hPushed => hPushed
      funext j
      by_cases hReceiver : j = i
      · subst hReceiver
        simp only [outstanding, setReceiver, Receiver.outstanding, Function.update_self, Option.getD_some,
          List.take_append_drop, hEnabled.1, Option.getD_none, List.nil_append]
      · simp only [outstanding, setReceiver, Function.update_of_ne hReceiver]
    · cases h
  | pushData i =>
    obtain ⟨chunk, hChunk, rfl⟩ := Option.map_eq_some_iff.mp h
    refine .pushed i chunk rfl ?_ ?_ ?_
    · simp only [outstanding, setReceiver, Receiver.outstanding, hChunk, Function.update_self, Option.getD_some,
        Option.getD_none, List.nil_append]
    · intro j hReceiver
      simp only [outstanding, setReceiver, Function.update_of_ne hReceiver]
    · rintro _ ⟨batches, hParser, rfl⟩
      refine ⟨batches, hParser, ?_⟩
      simp only [setReceiver, ThreadsSharedDataManager.pushData, List.flatten_append, List.flatten_cons,
        List.flatten_nil, List.append_nil, List.append_assoc]
  | popAll =>
    simp only [step] at h
    split at h
    · rename_i hEnabled
      cases h
      refine .silent rfl ?_
      rintro _ ⟨batches, hParser, rfl⟩
      refine ⟨batches, hParser, ?_⟩
      simp [ThreadsSharedDataManager.popAll, hEnabled.1]
    · cases h
  | process =>
    obtain ⟨chunks, hChunks, rfl⟩ := Option.map_eq_some_iff.mp h
    refine .silent rfl ?_
    rintro _ ⟨batches, hParser, rfl⟩
    refine ⟨batches ++ [chunks], ?_, ?_⟩
    · simp only [SensorDataParser.processBatches, List.foldl_append, List.foldl_cons,
        List.foldl_nil, hParser]
    · simp [hChunks]

end CounterDroneServer.DroneDataSensor

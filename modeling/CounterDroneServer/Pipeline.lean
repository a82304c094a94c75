import CounterDroneServer.AcceptedWork
import CounterDroneServer.DroneDataSensor.Receivers
import CounterDroneServer.DroneDataSimulator.Traffic

/-!
# From the simulator to the table of drones

The simulator, one connection, its receiver, the parser and the processor. The
connection hands over the bytes that were sent, in pieces of its own choice. At
every moment the table is made from a prefix of what one parse of the sent bytes
would find.
-/

set_option autoImplicit false

namespace CounterDroneServer.Pipeline

open AcceptedWork (Server ReceiverPc ParserPc ProcessorPc decodeOrZero)
open DroneDataSimulator (twoPackets generatedPacket anyTelemetry droneId)
open SensorDataParser (processBatch processBatches scanned)
open TelemetryDataProcessor

/-- `read` is what the calls of `recv` have returned so far. -/
structure System where
  simulator : DroneDataSimulator.State := {}
  server : Server Unit := {}
  read : BytesArray := []

inductive Action
  | signalHandler
  | simulator (a : DroneDataSimulator.Action)
  | server (a : AcceptedWork.Action Unit)

/-- The next bytes of the connection, as many as fit into the buffer or fewer. -/
def Arrives (s : System) (dataChunk : BytesArray) : Prop :=
  dataChunk ≠ [] ∧ dataChunk.length ≤ DroneDataSensor.recvBufferSize ∧
    s.read ++ dataChunk <+: s.simulator.sent.flatten

instance (s : System) (dataChunk : BytesArray) : Decidable (Arrives s dataChunk) :=
  inferInstanceAs (Decidable (_ ∧ _))

def simulatorStep (config : DroneDataSimulator.Configuration) (s : System) :
    DroneDataSimulator.Action → Option System
  | .signalHandler => none
  | a => (DroneDataSimulator.step config s.simulator a).map fun next => { s with simulator := next }

def serverStep (deserializePayload : BytesArray → TelemetryData) (s : System) :
    AcceptedWork.Action Unit → Option System
  | .stop => none
  | .recvData i dataChunk =>
    if Arrives s dataChunk then
      (AcceptedWork.step deserializePayload s.server (.recvData i dataChunk)).map fun next =>
        { s with server := next, read := s.read ++ dataChunk }
    else none
  | a => (AcceptedWork.step deserializePayload s.server a).map fun next => { s with server := next }

/-- The flag of the process is one, and each thread's model has it. -/
def step (deserializePayload : BytesArray → TelemetryData)
    (config : DroneDataSimulator.Configuration) (s : System) : Action → Option System
  | .signalHandler =>
    some { s with
      simulator := { s.simulator with keepRunningSystem := false }
      server := { s.server with keepRunningSystem := false } }
  | .simulator a => simulatorStep config s a
  | .server a => serverStep deserializePayload s a

def system (deserializePayload : BytesArray → TelemetryData)
    (config : DroneDataSimulator.Configuration) : StepSystem System Action :=
  ⟨step deserializePayload config⟩

/-! ## What a step of the server does -/

/-- The chunk that the receiver has read and not pushed yet. -/
def inHand : ReceiverPc → List BytesArray
  | .pushData dataChunk => [dataChunk]
  | _ => []

/-- What a step reads from the connection. -/
def arrived : AcceptedWork.Action Unit → BytesArray
  | .recvData _ dataChunk => dataChunk
  | _ => []

/-- The steps of the server by where chunks and records go. `moves` is every step
that takes none of them anywhere. -/
inductive Effect (d : BytesArray → TelemetryData) (s : Server Unit) :
    AcceptedWork.Action Unit → Server Unit → Prop
  | moves (a : AcceptedWork.Action Unit) (keepRunningSystem : Bool)
    (receivers : Unit → ReceiverPc) (parserPc : ParserPc) (processorPc : ProcessorPc)
    (hArrived : arrived a = []) (hHand : inHand (receivers ()) = inHand (s.receivers ()))
    (hChunks : parserPc.chunks = s.parserPc.chunks) (hRecords : parserPc.records = s.parserPc.records)
    (hRecord : processorPc.record = s.processorPc.record) :
    Effect d s a { s with keepRunningSystem, receivers, parserPc, processorPc }
  | recvData (dataChunk : BytesArray) (hPc : s.receivers () = .recv) :
    Effect d s (.recvData () dataChunk) (s.setReceiver () (.pushData dataChunk))
  | pushData (dataChunk : BytesArray) (hPc : s.receivers () = .pushData dataChunk) :
    Effect d s (.pushData ()) ((s.setReceiver () .test).pushRaw dataChunk)
  | popAll (hPc : s.parserPc = .leaving) :
    Effect d s .leavePopAll
      { s with rawData := ⟨[]⟩, parserPc := .process s.rawData.sharedData }
  | process (newDataChunks : List BytesArray) (hPc : s.parserPc = .process newDataChunks) :
    Effect d s .process { s with
      parser := processBatch d s.parser newDataChunks
      parserPc := .push ((processBatch d s.parser newDataChunks).pushedTelemetry.drop
        s.parser.pushedTelemetry.length)
      processed := s.processed ++ newDataChunks }
  | pushTelemetry (record : TelemetryData) (records : List TelemetryData)
    (hPc : s.parserPc = .push (record :: records)) :
    Effect d s .pushTelemetry
      { s with telemetry := s.telemetry.pushData record, parserPc := .push records }
  | takeData (record : TelemetryData) (rest : List TelemetryData)
    (hQueue : s.telemetry.sharedData = record :: rest) (hRecord : s.processorPc.record = []) :
    Effect d s .takeData { s with telemetry := ⟨rest⟩, processorPc := .update (some record) }
  | update (popped : Option TelemetryData) (currentTimeMs : BitVec 64)
    (hPc : s.processorPc = .update popped) :
    Effect d s (.update currentTimeMs) { s with
      dronesStatus := iterate s.dronesStatus ⟨popped, currentTimeMs⟩
      iterations := s.iterations ++ [⟨popped, currentTimeMs⟩]
      processorPc := .test }

section

variable {d : BytesArray → TelemetryData} {s s' : Server Unit} {a : AcceptedWork.Action Unit}

theorem receiverStep_effect (hStep : AcceptedWork.receiverStep s a = some s') : Effect d s a s' := by
  cases a with
  | receiverTest i | recvNothing i =>
    simp only [AcceptedWork.receiverStep] at hStep
    split at hStep
    · rename_i hPc
      cases hStep
      refine .moves _ s.keepRunningSystem _ s.parserPc s.processorPc rfl ?_ rfl rfl rfl
      rw [hPc, Function.update_self]
      cases s.keepRunningSystem <;> rfl
    · cases hStep
  | recvData i dataChunk =>
    simp only [AcceptedWork.receiverStep] at hStep
    split at hStep
    · rename_i hPc
      cases hStep
      exact .recvData dataChunk hPc
    · cases hStep
  | pushData i =>
    simp only [AcceptedWork.receiverStep] at hStep
    split at hStep
    · rename_i dataChunk hPc hFree
      cases hStep
      exact .pushData dataChunk hPc
    · cases hStep
  | _ => cases hStep

theorem parserStep_effect (hStep : AcceptedWork.parserStep d s a = some s') : Effect d s a s' := by
  have moves : ∀ pc : ParserPc, arrived a = [] → pc.chunks = s.parserPc.chunks →
      pc.records = s.parserPc.records → Effect d s a { s with parserPc := pc } :=
    fun pc hArrived hChunks hRecords =>
      .moves a s.keepRunningSystem s.receivers pc s.processorPc hArrived rfl hChunks hRecords rfl
  cases a with
  | parserTest =>
    simp only [AcceptedWork.parserStep] at hStep
    split at hStep
    · rename_i hPc
      cases hStep
      apply moves _ rfl
      all_goals
        rw [hPc]
        cases s.keepRunningSystem <;> rfl
    · cases hStep
  | parserWakes =>
    simp only [AcceptedWork.parserStep] at hStep
    split at hStep
    · rename_i hPc hWakes
      cases hStep
      exact moves _ rfl (by rw [hPc]; rfl) (by rw [hPc]; rfl)
    · cases hStep
  | leavePopAll =>
    simp only [AcceptedWork.parserStep] at hStep
    split at hStep
    · rename_i newDataChunks rest hPc hPop
      cases hStep
      unfold ThreadsSharedDataManager.popAll at hPop
      split at hPop
      · cases hPop
      · cases hPop
        exact .popAll hPc
    · rename_i rest hPc hPop
      cases hStep
      unfold ThreadsSharedDataManager.popAll at hPop
      split at hPop
      · cases hPop
        exact moves _ rfl (by rw [hPc]; rfl) (by rw [hPc]; rfl)
      · cases hPop
    · cases hStep
  | process =>
    simp only [AcceptedWork.parserStep] at hStep
    split at hStep
    · rename_i newDataChunks hPc
      cases hStep
      exact .process newDataChunks hPc
    · cases hStep
  | pushTelemetry =>
    simp only [AcceptedWork.parserStep] at hStep
    split at hStep
    · rename_i record records hPc hFree
      cases hStep
      exact .pushTelemetry record records hPc
    · cases hStep
  | endBatch =>
    simp only [AcceptedWork.parserStep] at hStep
    split at hStep
    · rename_i hPc
      cases hStep
      exact moves _ rfl (by rw [hPc]; rfl) (by rw [hPc]; rfl)
    · cases hStep
  | _ => cases hStep

theorem processorStep_effect (hStep : AcceptedWork.processorStep s a = some s') :
    Effect d s a s' := by
  have moves : ∀ pc : ProcessorPc, arrived a = [] → pc.record = s.processorPc.record →
      Effect d s a { s with processorPc := pc } :=
    fun pc hArrived hRecord =>
      .moves a s.keepRunningSystem s.receivers s.parserPc pc hArrived rfl rfl rfl hRecord
  cases a with
  | processorTest =>
    simp only [AcceptedWork.processorStep] at hStep
    split at hStep
    · rename_i hPc
      cases hStep
      apply moves _ rfl
      rw [hPc]
      cases s.keepRunningSystem <;> rfl
    · cases hStep
  | processorWakes timedOut =>
    simp only [AcceptedWork.processorStep] at hStep
    split at hStep
    · rename_i hPc hWakes
      cases hStep
      exact moves _ rfl (by rw [hPc]; rfl)
    · rename_i hPc hWakes
      cases hStep
      exact moves _ rfl (by rw [hPc]; rfl)
    · cases hStep
  | checkShutdown =>
    simp only [AcceptedWork.processorStep] at hStep
    split at hStep
    · rename_i wokeUpWithData hPc
      split at hStep
      · cases hStep
        exact moves _ rfl (by rw [hPc]; rfl)
      · cases hStep
        exact moves _ rfl (by rw [hPc]; rfl)
    · cases hStep
  | takeData =>
    simp only [AcceptedWork.processorStep] at hStep
    split at hStep
    · rename_i wokeUpWithData hPc
      cases hStep
      unfold AcceptedWork.takeData
      split
      · exact moves _ rfl (by rw [hPc]; rfl)
      · split
        · rename_i record rest hQueue
          exact .takeData record rest hQueue (by rw [hPc]; rfl)
        · exact moves _ rfl (by rw [hPc]; rfl)
    · cases hStep
  | update currentTimeMs =>
    simp only [AcceptedWork.processorStep] at hStep
    split at hStep
    · rename_i popped hPc
      cases hStep
      exact .update popped currentTimeMs hPc
    · cases hStep
  | _ => cases hStep

theorem server_effect (hStep : AcceptedWork.step d s a = some s') : Effect d s a s' := by
  rcases AcceptedWork.step_cases hStep with ⟨rfl, rfl⟩ | hReceiver | hParser | hProcessor
  · exact .moves _ false s.receivers s.parserPc s.processorPc rfl rfl rfl rfl rfl
  · exact receiverStep_effect hReceiver
  · exact parserStep_effect hParser
  · exact processorStep_effect hProcessor

end

/-! ## Where every byte and every record is -/

/-- Every byte that was read is in a hand, in the queue or processed, every record that
was found is on its way or in the table. -/
structure Flow (d : BytesArray → TelemetryData) (s : Server Unit) (read : BytesArray) : Prop where
  bytes : (s.processed ++ s.parserPc.chunks ++ s.rawData.sharedData ++
    inHand (s.receivers ())).flatten = read
  records : poppedRecords s.iterations ++ s.processorPc.record ++ s.telemetry.sharedData ++
    s.parserPc.records = s.parser.pushedTelemetry
  table : s.dronesStatus = processLoop s.iterations
  parsed : ∃ batches, batches.flatten = s.processed ∧ s.parser = processBatches d {} batches

theorem flow_init (d : BytesArray → TelemetryData) : Flow d {} [] :=
  ⟨rfl, rfl, rfl, [], rfl, rfl⟩

section

variable {d : BytesArray → TelemetryData}

theorem effect_flow {s s' : Server Unit} {a : AcceptedWork.Action Unit} {read : BytesArray}
    (h : Flow d s read) (hEffect : Effect d s a s') : Flow d s' (read ++ arrived a) := by
  obtain ⟨hBytes, hRecords, hTable, batches, hProcessed, hParser⟩ := h
  cases hEffect with
  | moves a keepRunningSystem receivers parserPc processorPc hArrived hHand hChunks hRecords' hRecord =>
    rw [hArrived, List.append_nil]
    exact ⟨hChunks ▸ hHand ▸ hBytes, hRecords' ▸ hRecord ▸ hRecords, hTable, batches, hProcessed, hParser⟩
  | recvData dataChunk hPc =>
    refine ⟨?_, hRecords, hTable, batches, hProcessed, hParser⟩
    rw [hPc] at hBytes
    simp only [Server.setReceiver, Function.update_self, inHand, arrived]
    rw [List.flatten_append, ← hBytes]
    simp [inHand]
  | pushData dataChunk hPc =>
    refine ⟨?_, hRecords, hTable, batches, hProcessed, hParser⟩
    rw [hPc] at hBytes
    simpa [Server.pushRaw, Server.setReceiver, ThreadsSharedDataManager.pushData, inHand, arrived]
      using hBytes
  | popAll hPc =>
    rw [hPc] at hBytes hRecords
    refine ⟨?_, hRecords, hTable, batches, hProcessed, hParser⟩
    simpa [ParserPc.chunks, arrived] using hBytes
  | process newDataChunks hPc =>
    rw [hPc] at hBytes hRecords
    refine ⟨?_, ?_, hTable, batches ++ [newDataChunks], ?_, ?_⟩
    · simpa [ParserPc.chunks, arrived] using hBytes
    · have hGrows := SensorDataParser.processBatch_pushedTelemetry d s.parser newDataChunks
      simp only [ParserPc.records, List.append_nil] at hRecords ⊢
      rw [hRecords]
      exact List.prefix_iff_eq_append.mp hGrows
    · rw [List.flatten_append, hProcessed, List.flatten_singleton]
    · rw [SensorDataParser.processBatches_concat, ← hParser]
  | pushTelemetry record records hPc =>
    rw [hPc] at hBytes hRecords
    refine ⟨?_, ?_, hTable, batches, hProcessed, hParser⟩
    · simpa [ParserPc.chunks, arrived] using hBytes
    · simpa [ParserPc.records, ThreadsSharedDataManager.pushData] using hRecords
  | takeData record rest hQueue hRecord =>
    rw [hQueue, hRecord] at hRecords
    refine ⟨?_, ?_, hTable, batches, hProcessed, hParser⟩
    · simpa [arrived] using hBytes
    · simpa [ProcessorPc.record] using hRecords
  | update popped currentTimeMs hPc =>
    rw [hPc] at hRecords
    refine ⟨?_, ?_, ?_, batches, hProcessed, hParser⟩
    · simpa [arrived] using hBytes
    · rw [poppedRecords_append]
      simpa [ProcessorPc.record] using hRecords
    · rw [processLoop_append, hTable]

end

/-! ## The whole system -/

section

variable {d : BytesArray → TelemetryData} {config : DroneDataSimulator.Configuration}
  {s s' : System} {a : Action}

theorem step_cases (hStep : step d config s a = some s') :
    (a = .signalHandler ∧ s' = { s with
      simulator := { s.simulator with keepRunningSystem := false }
      server := { s.server with keepRunningSystem := false } }) ∨
    (∃ b next, a = .simulator b ∧ DroneDataSimulator.step config s.simulator b = some next ∧
      s' = { s with simulator := next }) ∨
    ∃ b next, a = .server b ∧ AcceptedWork.step d s.server b = some next ∧
      (arrived b = [] ∨ Arrives s (arrived b)) ∧
      s' = { s with server := next, read := s.read ++ arrived b } := by
  cases a with
  | signalHandler =>
    cases hStep
    exact .inl ⟨rfl, rfl⟩
  | simulator b =>
    have hNext : (DroneDataSimulator.step config s.simulator b).map
        (fun next => { s with simulator := next }) = some s' := by
      cases b with
      | signalHandler => cases hStep
      | _ => exact hStep
    obtain ⟨next, hOwn, rfl⟩ := Option.map_eq_some_iff.mp hNext
    exact .inr (.inl ⟨b, next, rfl, hOwn, rfl⟩)
  | server b =>
    refine .inr (.inr ?_)
    cases b with
    | stop => cases hStep
    | recvData i dataChunk =>
      obtain ⟨hArrives, hNext⟩ := Option.ite_none_right_eq_some.mp hStep
      obtain ⟨next, hOwn, rfl⟩ := Option.map_eq_some_iff.mp hNext
      exact ⟨_, next, rfl, hOwn, .inr hArrives, rfl⟩
    | _ =>
      obtain ⟨next, hNext, rfl⟩ := Option.map_eq_some_iff.mp hStep
      exact ⟨_, next, rfl, hNext, .inl rfl, by simp only [arrived, List.append_nil]⟩

theorem sent_grows {t t' : DroneDataSimulator.State} {b : DroneDataSimulator.Action}
    (hStep : DroneDataSimulator.step config t b = some t') : t.sent <+: t'.sent := by
  cases DroneDataSimulator.step_effect hStep with
  | splitIdx => exact (List.prefix_append _ _).trans (List.prefix_append _ _)
  | garbage | valid | spared | bit | sendBurst => exact List.prefix_append _ _
  | _ => exact List.prefix_refl _

/-- What was read is the front of what was sent, and none of it is lost. -/
structure Connected (d : BytesArray → TelemetryData) (s : System) : Prop where
  flow : Flow d s.server s.read
  sent : s.read <+: s.simulator.sent.flatten

theorem Connected.step (h : Connected d s) (hStep : step d config s a = some s') :
    Connected d s' := by
  rcases step_cases hStep with
    ⟨-, rfl⟩ | ⟨b, next, -, hNext, rfl⟩ | ⟨b, next, -, hNext, hArrives, rfl⟩
  · exact ⟨⟨h.flow.bytes, h.flow.records, h.flow.table, h.flow.parsed⟩, h.sent⟩
  · refine ⟨h.flow, h.sent.trans ?_⟩
    obtain ⟨more, hMore⟩ := sent_grows hNext
    rw [← hMore, List.flatten_append]
    exact List.prefix_append _ _
  · refine ⟨effect_flow h.flow (server_effect hNext), ?_⟩
    rcases hArrives with hNothing | hArrives
    · rw [hNothing, List.append_nil]
      exact h.sent
    · exact hArrives.2.2

theorem connected_of_reaches (hRun : (system d config).Reaches {} s) : Connected d s :=
  hRun.invariant (Connected d) ⟨flow_init d, List.prefix_refl _⟩ fun hs hStep => hs.step hStep

end

/-! ## A run in which one of two packets has arrived -/

/-- The draws of the simulator that `QuietDraw` allows, and any step of the others. -/
def QuietStep (s : System) : Action → Prop
  | .simulator a => DroneDataSimulator.QuietDraw s.simulator a
  | _ => True

section

variable {d : BytesArray → TelemetryData} {config : DroneDataSimulator.Configuration} {s : System}

theorem recvData_run (hRun : (system d config).ReachesVia QuietStep {} s) {dataChunk : BytesArray}
    (hPc : s.server.receivers () = .recv) (hArrives : Arrives s dataChunk) :
    (system d config).ReachesVia QuietStep {} { s with
      server := s.server.setReceiver () (.pushData dataChunk)
      read := s.read ++ dataChunk } := by
  refine hRun.step (.server (.recvData () dataChunk)) trivial ?_
  simp [system, step, serverStep, hArrives, AcceptedWork.step, AcceptedWork.receiverStep, hPc]

theorem process_run (hRun : (system d config).ReachesVia QuietStep {} s)
    {newDataChunks : List BytesArray} {records : List TelemetryData}
    (hPc : s.server.parserPc = .process newDataChunks)
    (hRecords : (processBatch d s.server.parser newDataChunks).pushedTelemetry.drop
      s.server.parser.pushedTelemetry.length = records) :
    (system d config).ReachesVia QuietStep {} { s with
      server := { s.server with
        parser := processBatch d s.server.parser newDataChunks
        parserPc := .push records
        processed := s.server.processed ++ newDataChunks } } := by
  subst hRecords
  refine hRun.step (.server .process) trivial ?_
  simp [system, step, serverStep, AcceptedWork.step, AcceptedWork.receiverStep,
    AcceptedWork.parserStep, hPc]

/-- From the state behind the sends, one packet is read and its record reaches the table. -/
theorem one_record_run {simulator : DroneDataSimulator.State}
    (hRun : (system d config).ReachesVia QuietStep {} { simulator := simulator })
    {dataChunk more : BytesArray} {record : TelemetryData} (hSent : simulator.sent = [dataChunk, more])
    (hNonempty : dataChunk ≠ []) (hFits : dataChunk.length ≤ DroneDataSensor.recvBufferSize)
    (hRecords : (processBatch d {} [dataChunk]).pushedTelemetry = [record]) :
    ∃ s, (system d config).ReachesVia QuietStep {} s ∧ s.simulator = simulator ∧
      s.server.keepRunningSystem = true ∧ poppedRecords s.server.iterations = [record] := by
  have hRun := hRun.step (Action.server (.receiverTest ())) trivial rfl
  have hFront : [] ++ dataChunk <+: simulator.sent.flatten := by
    rw [hSent]
    exact List.prefix_append dataChunk _
  have hRun := recvData_run hRun rfl ⟨hNonempty, hFits, hFront⟩
  have hRun := hRun.step (Action.server (.pushData ())) trivial rfl
  have hRun := hRun.step (Action.server .parserTest) trivial rfl
  have hRun := hRun.step (Action.server .parserWakes) trivial rfl
  have hRun := hRun.step (Action.server .leavePopAll) trivial rfl
  have hRun := process_run hRun rfl hRecords
  have hRun := hRun.step (Action.server .pushTelemetry) trivial rfl
  have hRun := hRun.step (Action.server .processorTest) trivial rfl
  have hRun := hRun.step (Action.server (.processorWakes false)) trivial rfl
  have hRun := hRun.step (Action.server .checkShutdown) trivial rfl
  have hRun := hRun.step (Action.server .takeData) trivial rfl
  have hRun := hRun.step (Action.server (.update 0)) trivial rfl
  exact ⟨_, hRun, rfl, rfl, rfl⟩

end

theorem processBatch_init_received (d : BytesArray → TelemetryData) (bytes : BytesArray) :
    (processBatch d {} [bytes]).receivedValidPackets = (scanned bytes).1 := by
  have hScanned := congrArg Prod.fst (SensorDataParser.processBatches_scanned d [[bytes]])
  rw [List.flatten_singleton, List.flatten_singleton] at hScanned
  exact hScanned

theorem decodeOrZero_of_some (view : BytesArray) (t : TelemetryData)
    (hSome : SensorDataParser.deserializePayload view = some t) : decodeOrZero view = t := by
  rw [decodeOrZero, hSome, Option.getD_some]

theorem processBatch_build (t : TelemetryData) (hId : t.droneId.length ≤ 39) :
    (processBatch decodeOrZero {} [buildTelemetryPacket t]).pushedTelemetry = [t] := by
  have hReceived := processBatch_init_received decodeOrZero (buildTelemetryPacket t)
  rw [SensorDataParser.scanned_build t hId] at hReceived
  have hDecoded := SensorDataParser.processBatches_decoded decodeOrZero [[buildTelemetryPacket t]]
  refine hDecoded.eq_map buildTelemetryPacket id [t] hReceived ?_
  rintro u hMem tail
  obtain rfl := List.mem_singleton.mp hMem
  exact decodeOrZero_of_some _ _ (SensorDataParser.deserializePayload_build u tail hId)

/-- Two packets are sent; the first has reached the table. -/
theorem one_of_two_run :
    ∃ s, (system decodeOrZero twoPackets).ReachesVia QuietStep {} s ∧
      s.simulator.sentValidPackets =
        [generatedPacket 1 anyTelemetry, generatedPacket 2 anyTelemetry] ∧
      s.server.keepRunningSystem = true ∧
      poppedRecords s.server.iterations = [{ anyTelemetry with droneId := droneId 1 }] := by
  have hRun := (system decodeOrZero twoPackets).reachesVia_refl QuietStep {}
  have hRun := hRun.step (Action.simulator (.setUp true)) trivial rfl
  have hRun := hRun.step (Action.simulator (.connect true)) trivial rfl
  have hRun := hRun.step (Action.simulator .proceed) trivial rfl
  have hRun := hRun.step (Action.simulator .proceed) trivial rfl
  have hRun := hRun.step (Action.simulator .proceed) trivial rfl
  have hRun := hRun.step (Action.simulator (.draw 0)) trivial rfl
  have hRun := hRun.step (Action.simulator (.telemetry 1 anyTelemetry)) trivial rfl
  have hRun := hRun.step (Action.simulator .proceed) trivial rfl
  have hRun := hRun.step (Action.simulator .proceed) trivial rfl
  have hRun := hRun.step (Action.simulator .proceed) trivial rfl
  have hRun := hRun.step (Action.simulator .proceed) trivial rfl
  have hRun := hRun.step (Action.simulator (.draw 0)) trivial rfl
  have hRun := hRun.step (Action.simulator (.telemetry 2 anyTelemetry)) trivial rfl
  have hSize : (generatedPacket 1 anyTelemetry).length = 53 :=
    DroneDataSimulator.generatedPacket_length (by decide) anyTelemetry
  have hFits : (generatedPacket 1 anyTelemetry).length ≤ DroneDataSensor.recvBufferSize := by
    rw [hSize]
    decide
  have hRecords := processBatch_build { anyTelemetry with droneId := droneId 1 } (by decide)
  obtain ⟨s, hRun, hSimulator, hFlag, hPopped⟩ := one_record_run hRun rfl
    (List.ne_nil_of_length_pos (Nat.lt_of_lt_of_eq (by decide) hSize.symm)) hFits hRecords
  exact ⟨s, hRun, by rw [hSimulator]; rfl, hFlag, hPopped⟩

/-! ## The table is that of a prefix of what was sent -/

section

variable {d : BytesArray → TelemetryData} {config : DroneDataSimulator.Configuration} {s : System}

/-- Every byte that was sent has been read, and nothing is on its way. -/
def Drained (s : System) : Prop :=
  s.read = s.simulator.sent.flatten ∧ inHand (s.server.receivers ()) = [] ∧
    s.server.rawData.sharedData = [] ∧ s.server.parserPc.chunks = [] ∧
    s.server.parserPc.records = [] ∧ s.server.telemetry.sharedData = [] ∧
    s.server.processorPc.record = []

theorem Flow.processed_prefix {t : Server Unit} {read : BytesArray} (h : Flow d t read) :
    t.processed.flatten <+: read := by
  rw [← h.bytes, List.append_assoc, List.append_assoc, List.flatten_append]
  exact List.prefix_append _ _

theorem Flow.popped_prefix {t : Server Unit} {read : BytesArray} (h : Flow d t read) :
    poppedRecords t.iterations <+: t.parser.pushedTelemetry := by
  rw [← h.records, List.append_assoc, List.append_assoc]
  exact List.prefix_append _ _

/-- The packets that the parser has received are the first of those in the stream. -/
theorem Connected.received_prefix (h : Connected d s) :
    s.server.parser.receivedValidPackets <+: (scanned s.simulator.sent.flatten).1 := by
  obtain ⟨batches, hProcessed, hParser⟩ := h.flow.parsed
  obtain ⟨more, hMore⟩ := h.flow.processed_prefix.trans h.sent
  have hScanned := SensorDataParser.processBatches_scanned d batches
  rw [← hParser, hProcessed] at hScanned
  rw [← hMore, SensorDataParser.scanned_append, ← congrArg Prod.fst hScanned]
  exact List.prefix_append _ _

theorem Connected.drained (h : Connected d s) (hDrained : Drained s) :
    s.server.parser.receivedValidPackets = (scanned s.simulator.sent.flatten).1 ∧
      poppedRecords s.server.iterations = s.server.parser.pushedTelemetry := by
  obtain ⟨hRead, hHand, hRaw, hChunks, hRecords, hTelemetry, hRecord⟩ := hDrained
  obtain ⟨batches, hProcessed, hParser⟩ := h.flow.parsed
  have hBytes := h.flow.bytes
  have hPopped := h.flow.records
  rw [hHand, hRaw, hChunks, List.append_nil, List.append_nil, List.append_nil, hRead] at hBytes
  rw [hRecords, hTelemetry, hRecord, List.append_nil, List.append_nil, List.append_nil] at hPopped
  have hScanned := SensorDataParser.processBatches_scanned d batches
  rw [← hParser, hProcessed, hBytes] at hScanned
  exact ⟨congrArg Prod.fst hScanned, hPopped⟩

theorem Connected.decoded (h : Connected d s) : SensorDataParser.Decoded d s.server.parser := by
  obtain ⟨batches, -, hParser⟩ := h.flow.parsed
  rw [hParser]
  exact SensorDataParser.processBatches_decoded d batches

theorem Connected.holdsLatest (h : Connected d s) :
    HoldsLatest s.server.dronesStatus (poppedRecords s.server.iterations) := by
  rw [h.flow.table]
  exact processLoop_holdsLatest _

/-- At every moment the table holds the last record of each drone among those decoded,
in order, from the first packets that one parse of all sent bytes would find, and
from all of them once nothing is on its way. -/
theorem table_of_sent_prefix (d : BytesArray → TelemetryData)
    (config : DroneDataSimulator.Configuration) (s : System)
    (hRun : (system d config).Reaches {} s) :
    let found := (processBatch d {} [s.simulator.sent.flatten]).receivedValidPackets
    ∃ packets records, packets <+: found ∧
      List.Forall₂ (fun packet record => ∃ tail, record = d ((packet ++ tail).drop 5))
        packets records ∧
      poppedRecords s.server.iterations = records ∧ HoldsLatest s.server.dronesStatus records ∧
      (Drained s → packets = found) := by
  intro found
  have hConnected := connected_of_reaches hRun
  have hFound : found = (scanned s.simulator.sent.flatten).1 := processBatch_init_received d _
  have hPopped := hConnected.flow.popped_prefix
  have hDecoded := hConnected.decoded
  refine ⟨s.server.parser.receivedValidPackets.take (poppedRecords s.server.iterations).length,
    poppedRecords s.server.iterations, ?_, ?_, rfl, hConnected.holdsLatest, ?_⟩
  · rw [hFound]
    exact (List.take_prefix _ _).trans hConnected.received_prefix
  · have hTaken := List.forall₂_take (poppedRecords s.server.iterations).length hDecoded
    rwa [← List.prefix_iff_eq_take.mp hPopped] at hTaken
  · intro hDrained
    obtain ⟨hReceived, hAll⟩ := hConnected.drained hDrained
    rw [hAll, ← hDecoded.length_eq, List.take_length, hReceived, hFound]

end

theorem table_of_sent_prefix_one_of_two :
    ∃ s : System, (poppedRecords s.server.iterations).length = 1 ∧
      s.simulator.sentValidPackets.length = 2 ∧
      let found := (processBatch decodeOrZero {} [s.simulator.sent.flatten]).receivedValidPackets
      ∃ packets records, packets <+: found ∧
        List.Forall₂ (fun packet record => ∃ tail, record = decodeOrZero ((packet ++ tail).drop 5))
          packets records ∧
        poppedRecords s.server.iterations = records ∧ HoldsLatest s.server.dronesStatus records ∧
        (Drained s → packets = found) := by
  obtain ⟨s, hRun, hValid, -, hPopped⟩ := one_of_two_run
  exact ⟨s, congrArg List.length hPopped, congrArg List.length hValid,
    table_of_sent_prefix decodeOrZero twoPackets s hRun.reaches⟩

/-! ## Quiet runs -/

section

variable {d : BytesArray → TelemetryData} {config : DroneDataSimulator.Configuration} {s : System}

theorem quiet_simulator (hRun : (system d config).ReachesVia QuietStep {} s) :
    (DroneDataSimulator.simulator config).ReachesVia DroneDataSimulator.QuietDraw {} s.simulator := by
  refine hRun.map System.simulator ?_
  rintro s s' a hQuiet hStep
  rcases step_cases hStep with ⟨-, rfl⟩ | ⟨b, next, rfl, hNext, rfl⟩ | ⟨b, next, -, -, -, rfl⟩
  · exact .inr ⟨.signalHandler, trivial, rfl⟩
  · exact .inr ⟨b, hQuiet, hNext⟩
  · exact .inl rfl

/-- In a quiet run the records that have reached the table are the first of those whose
packets the simulator reports to have sent, and all of them once nothing is on its way.
The simulator sends and reports a packet in one step. -/
theorem table_of_quiet_run (d : BytesArray → TelemetryData)
    (hDecoder : ∀ view t, SensorDataParser.deserializePayload view = some t → d view = t)
    (config : DroneDataSimulator.Configuration) (hMax : 0 ≤ config.maxPkgsAmount)
    (hLimit : config.maxPkgsAmount < MachineInt.intMax) (s : System)
    (hRun : (system d config).ReachesVia QuietStep {} s) :
    ∃ sentRecords records : List TelemetryData,
      s.simulator.sentValidPackets = sentRecords.map buildTelemetryPacket ∧
      records <+: sentRecords ∧ poppedRecords s.server.iterations = records ∧
      HoldsLatest s.server.dronesStatus records ∧ (Drained s → records = sentRecords) := by
  have hConnected := connected_of_reaches hRun.reaches
  obtain ⟨stretches, hSent⟩ :=
    DroneDataSimulator.sent_of_quietDraw hMax hLimit (quiet_simulator hRun)
  have hNoise := SensorDataParser.noiseRejected_of_quiet hSent.quiet
  have hIds := SensorDataParser.id_le_of_quiet hSent.quiet
  have hScanned : (scanned s.simulator.sent.flatten).1 =
      (SensorDataParser.records stretches).map buildTelemetryPacket := by
    rw [hSent.bytes, SensorDataParser.scanned_wire hNoise hIds]
  have hReceived := hConnected.received_prefix
  rw [hScanned] at hReceived
  obtain ⟨found, hFound, hPackets⟩ := List.prefix_map_iff.mp hReceived
  have hPushed : s.server.parser.pushedTelemetry = found := by
    have hRecords := hConnected.decoded.eq_map buildTelemetryPacket id found hPackets fun t ht tail =>
      hDecoder _ _ (SensorDataParser.deserializePayload_build t tail (hIds t (hFound.subset ht)))
    rwa [List.map_id] at hRecords
  have hPopped := hConnected.flow.popped_prefix
  rw [hPushed] at hPopped
  refine ⟨SensorDataParser.records stretches, poppedRecords s.server.iterations, hSent.valid,
    hPopped.trans hFound, rfl, hConnected.holdsLatest, ?_⟩
  intro hDrained
  obtain ⟨hAll, hTable⟩ := hConnected.drained hDrained
  -- the packets received are as many as those in the stream
  have hLength := congrArg List.length (hAll.trans hScanned)
  rw [hPackets, List.length_map, List.length_map] at hLength
  rw [hTable, hPushed, hFound.eq_of_length hLength]

end

theorem table_of_quiet_run_one_of_two :
    ∃ s : System, poppedRecords s.server.iterations = [{ anyTelemetry with droneId := droneId 1 }] ∧
      ∃ sentRecords records : List TelemetryData,
        s.simulator.sentValidPackets = sentRecords.map buildTelemetryPacket ∧
        sentRecords.length = 2 ∧ records <+: sentRecords ∧
        poppedRecords s.server.iterations = records ∧ HoldsLatest s.server.dronesStatus records := by
  obtain ⟨s, hRun, hValid, -, hPopped⟩ := one_of_two_run
  obtain ⟨sentRecords, records, hSent, hPrefix, hRecords, hTable, -⟩ :=
    table_of_quiet_run decodeOrZero decodeOrZero_of_some twoPackets (by decide) (by decide) s hRun
  have hLength := congrArg List.length (hSent.symm.trans hValid)
  rw [List.length_map] at hLength
  exact ⟨s, hPopped, sentRecords, records, hSent, hLength, hPrefix, hRecords, hTable⟩

end CounterDroneServer.Pipeline

import CounterDroneServer.Library.StepSystem
import CounterDroneServer.SensorDataParser.Deserialize
import CounterDroneServer.SensorDataParser.Process
import CounterDroneServer.TelemetryDataProcessor.Status
import CounterDroneServer.ThreadsSharedDataManager.Basic

/-!
# The work that is left at shutdown

Receivers, parser and processor with the two queues between them. Each loop
tests the running flag before it looks at its queue, while the two pops hand out
what is queued also after the flag has fallen. A sleeping thread stays at its pop
until its wait is over.
-/

set_option autoImplicit false

namespace CounterDroneServer.AcceptedWork

open TelemetryDataProcessor

universe u

inductive ReceiverPc
  | test
  | recv
  | pushData (dataChunk : BytesArray)
  | returned

/-- `leaving` is the part of `pop_all` behind the wait, with the mutex held;
`push` has the records of the batch that are not pushed yet. -/
inductive ParserPc
  | test
  | popAll
  | leaving
  | process (newDataChunks : List BytesArray)
  | push (records : List TelemetryData)
  | returned

/-- `shutdownCheck` and `takeData` hold the mutex; `update` is the rest of the
iteration. -/
inductive ProcessorPc
  | test
  | popData
  | shutdownCheck (wokeUpWithData : Bool)
  | takeData (wokeUpWithData : Bool)
  | update (popped : Option TelemetryData)
  | returned

/-- `accepted` and `late` list the chunks pushed before and after the flag fell,
`processed` those given to `process_accumulated_data`. -/
structure Server (ι : Type u) where
  keepRunningSystem : Bool := true
  rawData : ThreadsSharedDataManager BytesArray := {}
  telemetry : ThreadsSharedDataManager TelemetryData := {}
  receivers : ι → ReceiverPc := fun _ => .test
  parserPc : ParserPc := .test
  parser : SensorDataParser TelemetryData := {}
  processorPc : ProcessorPc := .test
  dronesStatus : DronesStatus := ∅
  accepted : List BytesArray := []
  late : List BytesArray := []
  processed : List BytesArray := []
  iterations : List Iteration := []

inductive Action (ι : Type u)
  | stop
  | receiverTest (i : ι)
  | recvData (i : ι) (dataChunk : BytesArray)
  | recvNothing (i : ι)
  | pushData (i : ι)
  | parserTest
  | parserWakes
  | leavePopAll
  | process
  | pushTelemetry
  | endBatch
  | processorTest
  | processorWakes (timedOut : Bool)
  | checkShutdown
  | takeData
  | update (currentTimeMs : BitVec 64)

def ParserPc.holdsMutex : ParserPc → Bool
  | .leaving => true
  | _ => false

def ProcessorPc.holdsMutex : ProcessorPc → Bool
  | .shutdownCheck _ | .takeData _ => true
  | _ => false

variable {ι : Type u} [DecidableEq ι]

def Server.setReceiver (s : Server ι) (i : ι) (pc : ReceiverPc) : Server ι :=
  { s with receivers := Function.update s.receivers i pc }

/-- The chunk enters the queue and one of the two lists. -/
def Server.pushRaw (s : Server ι) (dataChunk : BytesArray) : Server ι :=
  { s with
    rawData := s.rawData.pushData dataChunk
    accepted := if s.keepRunningSystem then s.accepted ++ [dataChunk] else s.accepted
    late := if s.keepRunningSystem then s.late else s.late ++ [dataChunk] }

def receiverStep (s : Server ι) : Action ι → Option (Server ι)
  | .receiverTest i =>
    match s.receivers i with
    | .test => some (s.setReceiver i (if s.keepRunningSystem then .recv else .returned))
    | _ => none
  | .recvData i dataChunk =>
    match s.receivers i with
    | .recv => some (s.setReceiver i (.pushData dataChunk))
    | _ => none
  | .recvNothing i =>
    match s.receivers i with
    | .recv => some (s.setReceiver i .test)
    | _ => none
  | .pushData i =>
    match s.receivers i, s.parserPc.holdsMutex with
    | .pushData dataChunk, false => some ((s.setReceiver i .test).pushRaw dataChunk)
    | _, _ => none
  | _ => none

/-- What `process_accumulated_data` does to the parser's own members is one step;
the records that it found are pushed one by one. -/
def parserStep (deserializePayload : BytesArray → TelemetryData) (s : Server ι) :
    Action ι → Option (Server ι)
  | .parserTest =>
    match s.parserPc with
    | .test => some { s with parserPc := if s.keepRunningSystem then .popAll else .returned }
    | _ => none
  | .parserWakes =>
    match s.parserPc, s.rawData.wakes s.keepRunningSystem with
    | .popAll, true => some { s with parserPc := .leaving }
    | _, _ => none
  | .leavePopAll =>
    match s.parserPc, s.rawData.popAll s.keepRunningSystem with
    | .leaving, (some newDataChunks, rest) =>
      some { s with rawData := rest, parserPc := .process newDataChunks }
    | .leaving, (none, rest) => some { s with rawData := rest, parserPc := .test }
    | _, _ => none
  | .process =>
    match s.parserPc with
    | .process newDataChunks =>
      let parser := SensorDataParser.processBatch deserializePayload s.parser newDataChunks
      some { s with
        parser := parser
        parserPc := .push (parser.pushedTelemetry.drop s.parser.pushedTelemetry.length)
        processed := s.processed ++ newDataChunks }
    | _ => none
  | .pushTelemetry =>
    match s.parserPc, s.processorPc.holdsMutex with
    | .push (record :: records), false =>
      some { s with telemetry := s.telemetry.pushData record, parserPc := .push records }
    | _, _ => none
  | .endBatch =>
    match s.parserPc with
    | .push [] => some { s with parserPc := .test }
    | _ => none
  | _ => none

/-- `pop_data_with_timeout` behind the graceful shutdown check. -/
def takeData (s : Server ι) : Bool → Server ι
  | false => { s with processorPc := .update none }
  | true =>
    match s.telemetry.sharedData with
    | record :: rest => { s with telemetry := ⟨rest⟩, processorPc := .update (some record) }
    | [] => { s with processorPc := .update none }

def processorStep (s : Server ι) : Action ι → Option (Server ι)
  | .processorTest =>
    match s.processorPc with
    | .test => some { s with processorPc := if s.keepRunningSystem then .popData else .returned }
    | _ => none
  | .processorWakes timedOut =>
    match s.processorPc, s.telemetry.wakes s.keepRunningSystem, timedOut with
    | .popData, true, _ => some { s with processorPc := .shutdownCheck true }
    | .popData, false, true => some { s with processorPc := .shutdownCheck false }
    | _, _, _ => none
  | .checkShutdown =>
    match s.processorPc with
    | .shutdownCheck wokeUpWithData =>
      if !s.keepRunningSystem && s.telemetry.sharedData.isEmpty then
        some { s with processorPc := .update none }
      else some { s with processorPc := .takeData wokeUpWithData }
    | _ => none
  | .takeData =>
    match s.processorPc with
    | .takeData wokeUpWithData => some (takeData s wokeUpWithData)
    | _ => none
  | .update currentTimeMs =>
    match s.processorPc with
    | .update popped =>
      some { s with
        dronesStatus := iterate s.dronesStatus ⟨popped, currentTimeMs⟩
        iterations := s.iterations ++ [⟨popped, currentTimeMs⟩]
        processorPc := .test }
    | _ => none
  | _ => none

/-- The decoder is a parameter: whatever it makes of a payload is a record. -/
def step (deserializePayload : BytesArray → TelemetryData) (s : Server ι) (a : Action ι) :
    Option (Server ι) :=
  match a with
  | .stop => some { s with keepRunningSystem := false }
  | a => (receiverStep s a).or ((parserStep deserializePayload s a).or (processorStep s a))

def threads (deserializePayload : BytesArray → TelemetryData) :
    StepSystem (Server ι) (Action ι) :=
  ⟨step deserializePayload⟩

theorem step_cases {d : BytesArray → TelemetryData} {s s' : Server ι} {a : Action ι}
    (hStep : step d s a = some s') :
    a = .stop ∧ s' = { s with keepRunningSystem := false } ∨ receiverStep s a = some s' ∨
      parserStep d s a = some s' ∨ processorStep s a = some s' := by
  rcases eq_or_ne a .stop with rfl | hOther
  · cases hStep
    exact .inl ⟨rfl, rfl⟩
  · have hThreads :
        (receiverStep s a).or ((parserStep d s a).or (processorStep s a)) = some s' := by
      cases a with
      | stop => exact absurd rfl hOther
      | _ => exact hStep
    rcases Option.or_eq_some_iff.mp hThreads with hReceiver | ⟨-, hRest⟩
    · exact .inr (.inl hReceiver)
    · rcases Option.or_eq_some_iff.mp hRest with hParser | ⟨-, hProcessor⟩
      · exact .inr (.inr (.inl hParser))
      · exact .inr (.inr (.inr hProcessor))

/-- Once both threads have returned, every accepted chunk has been processed and
the table is that of a run over all pushed records. -/
def NothingLost (s : Server ι) : Prop :=
  s.parserPc = .returned → s.processorPc = .returned →
    s.accepted <+: s.processed ∧
      poppedRecords s.iterations = s.parser.pushedTelemetry ∧
      s.dronesStatus = processLoop s.iterations

/-- A loop leaves only when its queue has nothing of what it must still take: the
parser leaves chunks that came after the flag fell, the processor leaves nothing
and is sent nothing more. -/
def LeavesNothing (s : Server ι) : Action ι → Prop
  | .parserTest => s.keepRunningSystem = false → s.rawData.sharedData <:+ s.late
  | .processorTest => s.keepRunningSystem = false → s.telemetry.sharedData = []
  | .pushTelemetry => s.processorPc ≠ .returned
  | _ => True

/-! ## Where every chunk and every record is -/

def ParserPc.chunks : ParserPc → List BytesArray
  | .process newDataChunks => newDataChunks
  | _ => []

def ParserPc.records : ParserPc → List TelemetryData
  | .push records => records
  | _ => []

def ProcessorPc.record : ProcessorPc → List TelemetryData
  | .update popped => popped.toList
  | _ => []

structure Accounted (s : Server ι) : Prop where
  raw : s.processed ++ s.parserPc.chunks ++ s.rawData.sharedData = s.accepted ++ s.late
  none_late : s.keepRunningSystem = true → s.late = []
  telemetry : poppedRecords s.iterations ++ s.processorPc.record ++ s.telemetry.sharedData ++
    s.parserPc.records = s.parser.pushedTelemetry
  table : s.dronesStatus = processLoop s.iterations
  parser_gone : s.parserPc = .returned →
    s.keepRunningSystem = false ∧ s.accepted <+: s.processed
  processor_gone : s.processorPc = .returned → s.telemetry.sharedData = []

namespace Accounted

variable {s s' : Server ι} {a : Action ι} {d : BytesArray → TelemetryData}

omit [DecidableEq ι] in
theorem init : Accounted ({} : Server ι) where
  raw := rfl
  none_late _ := rfl
  telemetry := rfl
  table := rfl
  parser_gone := by simp
  processor_gone := by simp

omit [DecidableEq ι] in
theorem nothingLost (h : Accounted s) : NothingLost s := by
  intro hParser hProcessor
  have hRecords := h.telemetry
  rw [h.processor_gone hProcessor, hParser, hProcessor] at hRecords
  refine ⟨(h.parser_gone hParser).2, ?_, h.table⟩
  simpa [ProcessorPc.record, ParserPc.records] using hRecords

omit [DecidableEq ι] in
theorem stop (h : Accounted s) : Accounted { s with keepRunningSystem := false } where
  raw := h.raw
  none_late := by simp
  telemetry := h.telemetry
  table := h.table
  parser_gone hParser := ⟨rfl, (h.parser_gone hParser).2⟩
  processor_gone := h.processor_gone

theorem setReceiver (h : Accounted s) (i : ι) (pc : ReceiverPc) :
    Accounted (s.setReceiver i pc) :=
  ⟨h.raw, h.none_late, h.telemetry, h.table, h.parser_gone, h.processor_gone⟩

omit [DecidableEq ι] in
/-- After the flag has fallen a chunk is late, so it adds nothing to the accepted
ones that the parser may have left behind. -/
theorem pushRaw (h : Accounted s) (dataChunk : BytesArray) : Accounted (s.pushRaw dataChunk) where
  raw := by
    have hRaw : s.processed ++ s.parserPc.chunks ++ (s.rawData.sharedData ++ [dataChunk]) =
        s.accepted ++ s.late ++ [dataChunk] := by
      rw [← h.raw, List.append_assoc (s.processed ++ s.parserPc.chunks)]
    cases hFlag : s.keepRunningSystem with
    | true =>
      simp only [Server.pushRaw, hFlag, if_true, ThreadsSharedDataManager.pushData]
      rw [hRaw, h.none_late hFlag, List.append_nil, List.append_nil]
    | false =>
      simp only [Server.pushRaw, hFlag, Bool.false_eq_true, if_false,
        ThreadsSharedDataManager.pushData]
      rw [hRaw, List.append_assoc]
  none_late := by
    intro hFlag
    change s.keepRunningSystem = true at hFlag
    simp only [Server.pushRaw, hFlag, if_true]
    exact h.none_late hFlag
  telemetry := h.telemetry
  table := h.table
  parser_gone := by
    intro hParser
    obtain ⟨hFlag, hAccepted⟩ := h.parser_gone hParser
    refine ⟨hFlag, ?_⟩
    simpa [Server.pushRaw, hFlag] using hAccepted
  processor_gone := h.processor_gone

theorem receiverStep (h : Accounted s) (hStep : receiverStep s a = some s') : Accounted s' := by
  cases a with
  | receiverTest i | recvData i dataChunk | recvNothing i =>
    simp only [AcceptedWork.receiverStep] at hStep
    split at hStep
    · cases hStep
      exact h.setReceiver i _
    · cases hStep
  | pushData i =>
    simp only [AcceptedWork.receiverStep] at hStep
    split at hStep
    · cases hStep
      exact (h.setReceiver i .test).pushRaw _
    · cases hStep
  | _ => cases hStep

omit [DecidableEq ι] in
/-- The parser moves without taking or pushing anything. -/
theorem moveParser (h : Accounted s) {pc : ParserPc} (hChunks : s.parserPc.chunks = pc.chunks)
    (hRecords : s.parserPc.records = pc.records) (hStays : pc ≠ .returned) :
    Accounted { s with parserPc := pc } where
  raw := hChunks ▸ h.raw
  none_late := h.none_late
  telemetry := hRecords ▸ h.telemetry
  table := h.table
  parser_gone hParser := absurd hParser hStays
  processor_gone := h.processor_gone

omit [DecidableEq ι] in
theorem parserReturns (h : Accounted s) (hTest : s.parserPc = .test)
    (hFlag : s.keepRunningSystem = false) (hLeaves : s.rawData.sharedData <:+ s.late) :
    Accounted { s with parserPc := .returned } := by
  have hRaw := h.raw
  have hTelemetry := h.telemetry
  rw [hTest] at hRaw hTelemetry
  refine ⟨hRaw, h.none_late, hTelemetry, h.table, ?_, h.processor_gone⟩
  intro _
  obtain ⟨before, hLate⟩ := hLeaves
  refine ⟨hFlag, before, ?_⟩
  -- what is still queued cancels on both sides
  apply List.append_cancel_right
  calc
    s.accepted ++ before ++ s.rawData.sharedData = s.accepted ++ s.late := by
      rw [List.append_assoc, hLate]
    _ = s.processed ++ s.rawData.sharedData := by
      simpa [ParserPc.chunks] using hRaw.symm

omit [DecidableEq ι] in
theorem process (h : Accounted s) {newDataChunks : List BytesArray}
    (hPc : s.parserPc = .process newDataChunks) :
    Accounted { s with
      parser := SensorDataParser.processBatch d s.parser newDataChunks
      parserPc := .push ((SensorDataParser.processBatch d s.parser newDataChunks).pushedTelemetry.drop
        s.parser.pushedTelemetry.length)
      processed := s.processed ++ newDataChunks } where
  raw := by
    have hRaw := h.raw
    rw [hPc] at hRaw
    simpa [ParserPc.chunks] using hRaw
  none_late := h.none_late
  telemetry := by
    have hTelemetry := h.telemetry
    rw [hPc] at hTelemetry
    have hGrows := SensorDataParser.processBatch_pushedTelemetry d s.parser newDataChunks
    have hRecords : poppedRecords s.iterations ++ s.processorPc.record ++
        s.telemetry.sharedData = s.parser.pushedTelemetry := by
      simpa [ParserPc.records] using hTelemetry
    change poppedRecords s.iterations ++ s.processorPc.record ++ s.telemetry.sharedData ++ _ = _
    rw [hRecords]
    exact List.prefix_iff_eq_append.mp hGrows
  table := h.table
  parser_gone := by simp
  processor_gone := h.processor_gone

omit [DecidableEq ι] in
theorem pushTelemetry (h : Accounted s) {record : TelemetryData} {records : List TelemetryData}
    (hPc : s.parserPc = .push (record :: records)) (hRuns : s.processorPc ≠ .returned) :
    Accounted { s with telemetry := s.telemetry.pushData record, parserPc := .push records } where
  raw := by
    have hRaw := h.raw
    rw [hPc] at hRaw
    exact hRaw
  none_late := h.none_late
  telemetry := by
    have hTelemetry := h.telemetry
    rw [hPc] at hTelemetry
    simpa [ParserPc.records, ThreadsSharedDataManager.pushData] using hTelemetry
  table := h.table
  parser_gone := by simp
  processor_gone hProcessor := absurd hProcessor hRuns

omit [DecidableEq ι] in
theorem leavePopAll (h : Accounted s) (hPc : s.parserPc = .leaving)
    {popped : Option (List BytesArray)} {rest : ThreadsSharedDataManager BytesArray}
    (hPop : s.rawData.popAll s.keepRunningSystem = (popped, rest)) :
    Accounted { s with
      rawData := rest, parserPc := popped.elim .test fun chunks => .process chunks } := by
  have hRaw := h.raw
  have hTelemetry := h.telemetry
  rw [hPc] at hRaw hTelemetry
  unfold ThreadsSharedDataManager.popAll at hPop
  split at hPop
  · cases hPop
    exact ⟨hRaw, h.none_late, hTelemetry, h.table, by simp, h.processor_gone⟩
  · cases hPop
    refine ⟨?_, h.none_late, hTelemetry, h.table, by simp, h.processor_gone⟩
    simpa [ParserPc.chunks] using hRaw

omit [DecidableEq ι] in
theorem parserStep (h : Accounted s) (hOk : LeavesNothing s a)
    (hStep : parserStep d s a = some s') : Accounted s' := by
  cases a with
  | parserTest =>
    simp only [AcceptedWork.parserStep] at hStep
    split at hStep
    · next hTest =>
      cases hStep
      split
      · exact h.moveParser (by rw [hTest]; rfl) (by rw [hTest]; rfl) nofun
      · next hFlag =>
        have hFallen := Bool.eq_false_of_not_eq_true hFlag
        exact h.parserReturns hTest hFallen (hOk hFallen)
    · cases hStep
  | parserWakes =>
    simp only [AcceptedWork.parserStep] at hStep
    split at hStep
    · next hPc hWakes =>
      cases hStep
      exact h.moveParser (by rw [hPc]; rfl) (by rw [hPc]; rfl) nofun
    · cases hStep
  | leavePopAll =>
    simp only [AcceptedWork.parserStep] at hStep
    split at hStep
    · next newDataChunks rest hPc hPop =>
      cases hStep
      exact h.leavePopAll hPc hPop
    · next rest hPc hPop =>
      cases hStep
      exact h.leavePopAll hPc hPop
    · cases hStep
  | process =>
    simp only [AcceptedWork.parserStep] at hStep
    split at hStep
    · next newDataChunks hPc =>
      cases hStep
      exact h.process hPc
    · cases hStep
  | pushTelemetry =>
    simp only [AcceptedWork.parserStep] at hStep
    split at hStep
    · next record records hPc hFree =>
      cases hStep
      exact h.pushTelemetry hPc hOk
    · cases hStep
  | endBatch =>
    simp only [AcceptedWork.parserStep] at hStep
    split at hStep
    · next hPc =>
      cases hStep
      exact h.moveParser (by rw [hPc]; rfl) (by rw [hPc]; rfl) nofun
    · cases hStep
  | _ => cases hStep

omit [DecidableEq ι] in
/-- The processor moves; what it takes out of its queue it holds. -/
theorem moveProcessor (h : Accounted s) {pc : ProcessorPc}
    {telemetry : ThreadsSharedDataManager TelemetryData}
    (hRecords : pc.record ++ telemetry.sharedData =
      s.processorPc.record ++ s.telemetry.sharedData)
    (hGone : pc = .returned → telemetry.sharedData = []) :
    Accounted { s with telemetry := telemetry, processorPc := pc } where
  raw := h.raw
  none_late := h.none_late
  telemetry := by
    rw [← h.telemetry, List.append_assoc _ s.processorPc.record, ← hRecords,
      List.append_assoc (poppedRecords s.iterations)]
  table := h.table
  parser_gone := h.parser_gone
  processor_gone := hGone

omit [DecidableEq ι] in
theorem takeData (h : Accounted s) {wokeUpWithData : Bool}
    (hPc : s.processorPc = .takeData wokeUpWithData) :
    Accounted (takeData s wokeUpWithData) := by
  unfold AcceptedWork.takeData
  split
  · exact h.moveProcessor (by rw [hPc]; rfl) nofun
  · split
    · next record rest hQueue =>
      exact h.moveProcessor (by rw [hPc, hQueue]; rfl) nofun
    · exact h.moveProcessor (by rw [hPc]; rfl) nofun

omit [DecidableEq ι] in
theorem update (h : Accounted s) {popped : Option TelemetryData} (currentTimeMs : BitVec 64)
    (hPc : s.processorPc = .update popped) :
    Accounted { s with
      dronesStatus := iterate s.dronesStatus ⟨popped, currentTimeMs⟩
      iterations := s.iterations ++ [⟨popped, currentTimeMs⟩]
      processorPc := .test } where
  raw := h.raw
  none_late := h.none_late
  telemetry := by
    have hTelemetry := h.telemetry
    rw [hPc] at hTelemetry
    rw [poppedRecords_append]
    simpa [ProcessorPc.record] using hTelemetry
  table := by rw [processLoop_append, h.table]
  parser_gone := h.parser_gone
  processor_gone := by simp

omit [DecidableEq ι] in
theorem processorStep (h : Accounted s) (hOk : LeavesNothing s a)
    (hStep : processorStep s a = some s') : Accounted s' := by
  cases a with
  | processorTest =>
    simp only [AcceptedWork.processorStep] at hStep
    split at hStep
    · next hTest =>
      cases hStep
      split
      · exact h.moveProcessor (by rw [hTest]; rfl) nofun
      · next hFlag =>
        exact h.moveProcessor (by rw [hTest]; rfl)
          fun _ => hOk (Bool.eq_false_of_not_eq_true hFlag)
    · cases hStep
  | processorWakes timedOut =>
    simp only [AcceptedWork.processorStep] at hStep
    split at hStep
    · next hPc hWakes =>
      cases hStep
      exact h.moveProcessor (by rw [hPc]; rfl) nofun
    · next hPc hWakes =>
      cases hStep
      exact h.moveProcessor (by rw [hPc]; rfl) nofun
    · cases hStep
  | checkShutdown =>
    simp only [AcceptedWork.processorStep] at hStep
    split at hStep
    · next wokeUpWithData hPc =>
      split at hStep
      · cases hStep
        exact h.moveProcessor (by rw [hPc]; rfl) nofun
      · cases hStep
        exact h.moveProcessor (by rw [hPc]; rfl) nofun
    · cases hStep
  | takeData =>
    simp only [AcceptedWork.processorStep] at hStep
    split at hStep
    · next wokeUpWithData hPc =>
      cases hStep
      exact h.takeData hPc
    · cases hStep
  | update currentTimeMs =>
    simp only [AcceptedWork.processorStep] at hStep
    split at hStep
    · next popped hPc =>
      cases hStep
      exact h.update currentTimeMs hPc
    · cases hStep
  | _ => cases hStep

theorem preserved (h : Accounted s) (hOk : LeavesNothing s a)
    (hStep : step d s a = some s') : Accounted s' := by
  rcases step_cases hStep with ⟨-, rfl⟩ | hReceiver | hParser | hProcessor
  · exact h.stop
  · exact h.receiverStep hReceiver
  · exact h.parserStep hOk hParser
  · exact h.processorStep hOk hProcessor

end Accounted

/-- Whatever the decoder and the interleaving, no accepted work is lost in a run
in which no loop leaves something behind. -/
theorem nothingLost_of_leavesNothing (d : BytesArray → TelemetryData) {s : Server ι}
    (h : (threads d).ReachesVia LeavesNothing {} s) : NothingLost s :=
  (h.invariant Accounted .init fun hs hOk hNext => hs.preserved hOk hNext).nothingLost

/-- A decoder for the runs below: the real one, and a record of zeros where it
reads past the view. -/
def decodeOrZero (view : BytesArray) : TelemetryData :=
  (SensorDataParser.deserializePayload view).getD (recordAt [] 0)

theorem nothingLost_of_leavesNothing_drained :
    ∃ s : Server Unit, s.parserPc = .returned ∧ s.processorPc = .returned ∧
      s.accepted = [[0]] ∧ s.processed = [[0], [1]] ∧ NothingLost s := by
  have hRun := (threads decodeOrZero).reachesVia_refl LeavesNothing ({} : Server Unit)
  have hRun := hRun.step (Action.receiverTest ()) trivial rfl
  have hRun := hRun.step (Action.recvData () [0]) trivial rfl
  have hRun := hRun.step (Action.pushData ()) trivial rfl
  have hRun := hRun.step (Action.receiverTest ()) trivial rfl
  have hRun := hRun.step (Action.recvData () [1]) trivial rfl
  have hRun := hRun.step Action.parserTest nofun rfl
  have hRun := hRun.step Action.stop trivial rfl
  have hRun := hRun.step (Action.pushData ()) trivial rfl
  have hRun := hRun.step Action.parserWakes trivial rfl
  have hRun := hRun.step Action.leavePopAll trivial rfl
  have hRun := hRun.step Action.process trivial rfl
  have hRun := hRun.step Action.endBatch trivial rfl
  have hRun := hRun.step Action.parserTest (fun _ => List.nil_suffix) rfl
  have hRun := hRun.step Action.processorTest (fun _ => rfl) rfl
  exact ⟨_, rfl, rfl, rfl, rfl, nothingLost_of_leavesNothing _ hRun⟩

/-- The flag falls between the parser's pop and its next test, with an accepted
chunk in the queue. -/
theorem not_nothingLost :
    ¬∀ s : Server Unit, (threads decodeOrZero).Reaches {} s → NothingLost s := by
  intro h
  have hRun := (threads decodeOrZero).reachesVia_refl (fun _ _ => True) ({} : Server Unit)
  have hRun := hRun.step (Action.receiverTest ()) trivial rfl
  have hRun := hRun.step (Action.recvData () [0]) trivial rfl
  have hRun := hRun.step (Action.pushData ()) trivial rfl
  have hRun := hRun.step Action.stop trivial rfl
  have hRun := hRun.step Action.parserTest trivial rfl
  have hRun := hRun.step Action.processorTest trivial rfl
  have hPrefix : [[(0 : Byte)]] <+: [] := (h _ hRun rfl rfl).1
  simp at hPrefix

end CounterDroneServer.AcceptedWork

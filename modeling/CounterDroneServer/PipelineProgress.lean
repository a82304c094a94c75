import CounterDroneServer.Pipeline

/-!
# The pipeline does not stand still

While the flag stands, every step of the receiver, the parser and the processor is
paid for: by a byte that was read, a packet that was found, or a call that ended
without result. As long as something that was sent is not in the table, one of the
three has such a step.
-/

set_option autoImplicit false

namespace CounterDroneServer.Pipeline

open AcceptedWork (Server ReceiverPc ParserPc ProcessorPc decodeOrZero)
open DroneDataSimulator (twoPackets)
open SensorDataParser (processBatch scanned)
open TelemetryDataProcessor (poppedRecords)

/-! ## Prices and credits -/

/-- A call of `recv` brings no data, at its time limit or at once on a closed connection,
or a wait for a record reaches its time limit. -/
def Action.withoutResult : Action → Bool
  | .server (.recvNothing _) | .server (.processorWakes true) => true
  | _ => false

/-- Any other step of the three threads. -/
def Action.works : Action → Bool
  | .server (.recvNothing _) | .server (.processorWakes true) => false
  | .server _ => true
  | _ => false

def price : Action → Int
  | .server (.recvNothing _) | .server (.processorWakes true) => -4
  | .server _ => 1
  | _ => 0

/-- Steps to the next wait, and five for the chunk that will be in the queue. -/
def receiverCredit : ReceiverPc → Int
  | .pushData _ => 8
  | .test => 2
  | .recv => 1
  | .returned => 0

/-- Each record that is not pushed yet has six. -/
def parserCredit : ParserPc → Int
  | .process _ => 5
  | .push records => 4 + 6 * records.length
  | .test => 3
  | .popAll => 2
  | .leaving => 1
  | .returned => 0

/-- A wait without result costs four more than one that ends with a record. -/
def processorCredit : ProcessorPc → Int
  | .shutdownCheck false => 7
  | .takeData false => 6
  | .update _ => 5
  | .test => 4
  | .popData => 3
  | .shutdownCheck true => 2
  | .takeData true => 1
  | .returned => 0

def credit (s : Server Unit) : Int :=
  receiverCredit (s.receivers ()) + 5 * s.rawData.sharedData.length + parserCredit s.parserPc +
    5 * s.telemetry.sharedData.length + processorCredit s.processorPc

/-- A byte that is still to be read is worth eight steps, a record that is still to be
found six. -/
def potential (s : System) : Int :=
  credit s.server - 8 * s.read.length - 6 * s.server.parser.pushedTelemetry.length

/-- The wait of `pop_data_with_timeout` has ended with a record in the queue. -/
def expectsRecord : ProcessorPc → Bool
  | .shutdownCheck wokeUpWithData | .takeData wokeUpWithData => wokeUpWithData
  | _ => false

/-- The flag stands, nobody has returned, and a wait that has ended was not in vain. -/
structure Attended (s : Server Unit) : Prop where
  flag : s.keepRunningSystem = true
  receiver : s.receivers () ≠ .returned
  parser : s.parserPc ≠ .returned
  processor : s.processorPc ≠ .returned
  batch : s.parserPc = .leaving → s.rawData.sharedData ≠ []
  record : expectsRecord s.processorPc = true → s.telemetry.sharedData ≠ []

/-- What a step costs is covered by the credit, the bytes it reads and the records it
finds. -/
structure Covered (s : Server Unit) (a : AcceptedWork.Action Unit) (s' : Server Unit) : Prop where
  attended : Attended s'
  pays : credit s' + price (.server a) + 6 * s.parser.pushedTelemetry.length ≤
    credit s + 8 * (arrived a).length + 6 * s'.parser.pushedTelemetry.length

theorem attended_init : Attended {} := by
  constructor
  · rfl
  · simp
  · simp
  · simp
  · simp
  · intro h
    cases h

section

variable {d : BytesArray → TelemetryData} {s s' : Server Unit} {a : AcceptedWork.Action Unit}

theorem Attended.setReceiver (h : Attended s) {pc : ReceiverPc} (hPc : pc ≠ .returned) :
    Attended (s.setReceiver () pc) := by
  refine ⟨h.flag, ?_, h.parser, h.processor, h.batch, h.record⟩
  simpa [Server.setReceiver] using hPc

theorem Attended.setParser (h : Attended s) {pc : ParserPc} (hPc : pc ≠ .returned)
    (hBatch : pc = .leaving → s.rawData.sharedData ≠ []) : Attended { s with parserPc := pc } :=
  ⟨h.flag, h.receiver, hPc, h.processor, hBatch, h.record⟩

theorem Attended.setProcessor (h : Attended s) {pc : ProcessorPc} (hPc : pc ≠ .returned)
    (hRecord : expectsRecord pc = true → s.telemetry.sharedData ≠ []) :
    Attended { s with processorPc := pc } :=
  ⟨h.flag, h.receiver, h.parser, hPc, h.batch, hRecord⟩

theorem credit_setReceiver (s : Server Unit) (pc : ReceiverPc) :
    credit (s.setReceiver () pc) =
      credit s - receiverCredit (s.receivers ()) + receiverCredit pc := by
  simp only [credit, Server.setReceiver, Function.update_self]
  omega

theorem credit_setParser (s : Server Unit) (pc : ParserPc) :
    credit { s with parserPc := pc } = credit s - parserCredit s.parserPc + parserCredit pc := by
  simp only [credit]
  omega

theorem credit_setProcessor (s : Server Unit) (pc : ProcessorPc) :
    credit { s with processorPc := pc } =
      credit s - processorCredit s.processorPc + processorCredit pc := by
  simp only [credit]
  omega

theorem receiverStep_covered (h : Attended s)
    (hArrived : ∀ i dataChunk, a = .recvData i dataChunk → dataChunk ≠ [])
    (hStep : AcceptedWork.receiverStep s a = some s') : Covered s a s' := by
  cases a with
  | receiverTest i =>
    simp only [AcceptedWork.receiverStep] at hStep
    split at hStep
    · rename_i hPc
      cases hStep
      rw [if_pos h.flag]
      constructor
      · exact h.setReceiver (by simp)
      · rw [credit_setReceiver, hPc]
        simp only [price, receiverCredit, arrived, Server.setReceiver, List.length_nil]
        omega
    · cases hStep
  | recvData i dataChunk =>
    simp only [AcceptedWork.receiverStep] at hStep
    split at hStep
    · rename_i hPc
      cases hStep
      have hLength := List.length_pos_of_ne_nil (hArrived i dataChunk rfl)
      constructor
      · exact h.setReceiver (by simp)
      · rw [credit_setReceiver, hPc]
        simp only [price, receiverCredit, arrived, Server.setReceiver]
        omega
    · cases hStep
  | recvNothing i =>
    simp only [AcceptedWork.receiverStep] at hStep
    split at hStep
    · rename_i hPc
      cases hStep
      constructor
      · exact h.setReceiver (by simp)
      · rw [credit_setReceiver, hPc]
        simp only [price, receiverCredit, arrived, Server.setReceiver, List.length_nil]
        omega
    · cases hStep
  | pushData i =>
    simp only [AcceptedWork.receiverStep] at hStep
    split at hStep
    · rename_i dataChunk hPc hFree
      cases hStep
      have hTest : Attended (s.setReceiver () .test) := h.setReceiver (by simp)
      constructor
      · exact ⟨hTest.flag, hTest.receiver, hTest.parser, hTest.processor,
          fun _ => List.append_ne_nil_of_right_ne_nil _ (List.cons_ne_nil dataChunk []), hTest.record⟩
      · simp only [credit, price, receiverCredit, arrived, Server.pushRaw, Server.setReceiver,
          Function.update_self, ThreadsSharedDataManager.pushData, hPc, List.length_append,
          List.length_singleton, List.length_nil]
        omega
    · cases hStep
  | _ => cases hStep

theorem parserStep_covered (h : Attended s) (hStep : AcceptedWork.parserStep d s a = some s') :
    Covered s a s' := by
  cases a with
  | parserTest =>
    simp only [AcceptedWork.parserStep] at hStep
    split at hStep
    · rename_i hPc
      cases hStep
      rw [if_pos h.flag]
      constructor
      · exact h.setParser (by simp) (by simp)
      · rw [credit_setParser, hPc]
        simp only [price, parserCredit, arrived, List.length_nil]
        omega
    · cases hStep
  | parserWakes =>
    simp only [AcceptedWork.parserStep] at hStep
    split at hStep
    · rename_i hPc hWakes
      cases hStep
      have hBatch : s.rawData.sharedData ≠ [] := by
        simpa [ThreadsSharedDataManager.wakes, h.flag] using hWakes
      constructor
      · exact h.setParser (by simp) (fun _ => hBatch)
      · rw [credit_setParser, hPc]
        simp only [price, parserCredit, arrived, List.length_nil]
        omega
    · cases hStep
  | leavePopAll =>
    have hLeft : s.rawData.popAll s.keepRunningSystem = (some s.rawData.sharedData, ⟨[]⟩) := by
      rw [h.flag]
      rfl
    simp only [AcceptedWork.parserStep, hLeft] at hStep
    split at hStep
    · rename_i newDataChunks rest hPc hPop
      cases hPop
      cases hStep
      have hLength := List.length_pos_of_ne_nil (h.batch hPc)
      constructor
      · exact ⟨h.flag, h.receiver, by simp, h.processor, by simp, h.record⟩
      · simp only [credit, price, parserCredit, arrived, hPc, List.length_nil]
        omega
    · rename_i hPop
      cases hPop
    · cases hStep
  | process =>
    simp only [AcceptedWork.parserStep] at hStep
    split at hStep
    · rename_i newDataChunks hPc
      cases hStep
      have hGrows :=
        (SensorDataParser.processBatch_pushedTelemetry d s.parser newDataChunks).length_le
      constructor
      · exact ⟨h.flag, h.receiver, by simp, h.processor, by simp, h.record⟩
      · simp only [credit, price, parserCredit, arrived, hPc, List.length_drop, List.length_nil]
        omega
    · cases hStep
  | pushTelemetry =>
    simp only [AcceptedWork.parserStep] at hStep
    split at hStep
    · rename_i record records hPc hFree
      cases hStep
      constructor
      · exact ⟨h.flag, h.receiver, by simp, h.processor, by simp,
          fun _ => List.append_ne_nil_of_right_ne_nil _ (List.cons_ne_nil record [])⟩
      · simp only [credit, price, parserCredit, arrived, hPc, ThreadsSharedDataManager.pushData,
          List.length_append, List.length_cons, List.length_nil]
        omega
    · cases hStep
  | endBatch =>
    simp only [AcceptedWork.parserStep] at hStep
    split at hStep
    · rename_i hPc
      cases hStep
      constructor
      · exact h.setParser (by simp) (by simp)
      · rw [credit_setParser, hPc]
        simp only [price, parserCredit, arrived, List.length_nil]
        omega
    · cases hStep
  | _ => cases hStep

theorem processorStep_covered (h : Attended s) (hStep : AcceptedWork.processorStep s a = some s') :
    Covered s a s' := by
  cases a with
  | processorTest =>
    simp only [AcceptedWork.processorStep] at hStep
    split at hStep
    · rename_i hPc
      cases hStep
      rw [if_pos h.flag]
      constructor
      · exact h.setProcessor (by simp) (by simp [expectsRecord])
      · rw [credit_setProcessor, hPc]
        simp only [price, processorCredit, arrived, List.length_nil]
        omega
    · cases hStep
  | processorWakes timedOut =>
    have hPrice : price (.server (.processorWakes timedOut)) ≤ 1 := by
      cases timedOut
      · exact Int.le_refl 1
      · decide
    simp only [AcceptedWork.processorStep] at hStep
    split at hStep
    · rename_i hPc hWakes
      cases hStep
      have hRecord : s.telemetry.sharedData ≠ [] := by
        simpa [ThreadsSharedDataManager.wakes, h.flag] using hWakes
      constructor
      · exact h.setProcessor (by simp) (fun _ => hRecord)
      · rw [credit_setProcessor, hPc]
        simp only [processorCredit, arrived, List.length_nil]
        omega
    · rename_i hPc hWakes
      cases hStep
      constructor
      · exact h.setProcessor (by simp) (by simp [expectsRecord])
      · rw [credit_setProcessor, hPc]
        simp only [price, processorCredit, arrived, List.length_nil]
        omega
    · cases hStep
  | checkShutdown =>
    simp only [AcceptedWork.processorStep] at hStep
    split at hStep
    · rename_i wokeUpWithData hPc
      have hOn : (!s.keepRunningSystem && s.telemetry.sharedData.isEmpty) = false := by
        rw [h.flag]
        rfl
      rw [hOn, if_neg Bool.false_ne_true] at hStep
      cases hStep
      constructor
      · refine h.setProcessor (by simp) (fun hExpects => h.record ?_)
        rwa [hPc]
      · rw [credit_setProcessor, hPc]
        cases wokeUpWithData
        all_goals
          simp only [price, processorCredit, arrived, List.length_nil]
          omega
    · cases hStep
  | takeData =>
    simp only [AcceptedWork.processorStep] at hStep
    split at hStep
    · rename_i wokeUpWithData hPc
      cases hStep
      cases wokeUpWithData with
      | false =>
        constructor
        · exact h.setProcessor (by simp) (by simp [expectsRecord])
        · rw [AcceptedWork.takeData, credit_setProcessor, hPc]
          simp only [price, processorCredit, arrived, List.length_nil]
          omega
      | true =>
        obtain ⟨record, rest, hQueue⟩ := List.exists_cons_of_ne_nil (h.record (by rw [hPc]; rfl))
        simp only [AcceptedWork.takeData, hQueue]
        constructor
        · exact ⟨h.flag, h.receiver, h.parser, by simp, h.batch, by simp [expectsRecord]⟩
        · simp only [credit, price, processorCredit, arrived, hPc, hQueue, List.length_cons,
            List.length_nil]
          omega
    · cases hStep
  | update currentTimeMs =>
    simp only [AcceptedWork.processorStep] at hStep
    split at hStep
    · rename_i popped hPc
      cases hStep
      constructor
      · exact ⟨h.flag, h.receiver, h.parser, by simp, h.batch, by simp [expectsRecord]⟩
      · simp only [credit, price, processorCredit, arrived, hPc, List.length_nil]
        omega
    · cases hStep
  | _ => cases hStep

end

/-! ## Whole runs -/

section

variable {s s' : Server Unit} {a : AcceptedWork.Action Unit}

theorem receiverStep_flag (hStep : AcceptedWork.receiverStep s a = some s') :
    s'.keepRunningSystem = s.keepRunningSystem := by
  cases a with
  | receiverTest i | recvData i dataChunk | recvNothing i | pushData i =>
    simp only [AcceptedWork.receiverStep] at hStep
    split at hStep
    · cases hStep
      rfl
    · cases hStep
  | _ => cases hStep

theorem parserStep_flag {d : BytesArray → TelemetryData}
    (hStep : AcceptedWork.parserStep d s a = some s') :
    s'.keepRunningSystem = s.keepRunningSystem := by
  cases a with
  | parserTest | parserWakes | process | pushTelemetry | endBatch =>
    simp only [AcceptedWork.parserStep] at hStep
    split at hStep
    · cases hStep
      rfl
    · cases hStep
  | leavePopAll =>
    simp only [AcceptedWork.parserStep] at hStep
    split at hStep
    · cases hStep
      rfl
    · cases hStep
      rfl
    · cases hStep
  | _ => cases hStep

theorem processorStep_flag (hStep : AcceptedWork.processorStep s a = some s') :
    s'.keepRunningSystem = s.keepRunningSystem := by
  cases a with
  | processorTest | update currentTimeMs =>
    simp only [AcceptedWork.processorStep] at hStep
    split at hStep
    · cases hStep
      rfl
    · cases hStep
  | processorWakes timedOut =>
    simp only [AcceptedWork.processorStep] at hStep
    split at hStep
    · cases hStep
      rfl
    · cases hStep
      rfl
    · cases hStep
  | checkShutdown =>
    simp only [AcceptedWork.processorStep] at hStep
    split at hStep
    · split at hStep
      · cases hStep
        rfl
      · cases hStep
        rfl
    · cases hStep
  | takeData =>
    simp only [AcceptedWork.processorStep] at hStep
    split at hStep
    · cases hStep
      unfold AcceptedWork.takeData
      split
      · rfl
      · split
        · rfl
        · rfl
    · cases hStep
  | _ => cases hStep

end

section

variable {d : BytesArray → TelemetryData} {config : DroneDataSimulator.Configuration}
  {s s' : System} {a : Action}

/-- The flag stands before a step behind which it stands, and the step is no signal. -/
theorem flag_of_step (hStep : step d config s a = some s')
    (hFlag : s'.server.keepRunningSystem = true) :
    s.server.keepRunningSystem = true ∧ a ≠ .signalHandler := by
  rcases step_cases hStep with
    ⟨-, rfl⟩ | ⟨b, next, rfl, -, rfl⟩ | ⟨b, next, rfl, hNext, -, rfl⟩
  · cases hFlag
  · exact ⟨hFlag, by simp⟩
  · refine ⟨?_, by simp⟩
    rcases AcceptedWork.step_cases hNext with ⟨-, rfl⟩ | hReceiver | hParser | hProcessor
    · cases hFlag
    · rwa [← receiverStep_flag hReceiver]
    · rwa [← parserStep_flag hParser]
    · rwa [← processorStep_flag hProcessor]

theorem flag_of_runActions {actions : List Action}
    (hRun : (system d config).runActions s actions = some s')
    (hFlag : s'.server.keepRunningSystem = true) :
    s.server.keepRunningSystem = true ∧ ∀ a ∈ actions, a ≠ .signalHandler := by
  induction actions generalizing s with
  | nil =>
    cases hRun
    exact ⟨hFlag, by simp⟩
  | cons a rest ih =>
    obtain ⟨next, hNext, hRest⟩ := Option.bind_eq_some_iff.mp hRun
    obtain ⟨hFlag, hOthers⟩ := ih hRest
    obtain ⟨hFlag, hOther⟩ := flag_of_step hNext hFlag
    exact ⟨hFlag, List.forall_mem_cons.mpr ⟨hOther, hOthers⟩⟩

theorem recvData_arrives {i : Unit} {dataChunk : BytesArray}
    (hStep : step d config s (.server (.recvData i dataChunk)) = some s') : Arrives s dataChunk :=
  (Option.ite_none_right_eq_some.mp hStep).1

theorem serverStep_covered {t t' : Server Unit} {b : AcceptedWork.Action Unit} (h : Attended t)
    (hOther : b ≠ .stop) (hArrived : ∀ i dataChunk, b = .recvData i dataChunk → dataChunk ≠ [])
    (hStep : AcceptedWork.step d t b = some t') : Covered t b t' := by
  rcases AcceptedWork.step_cases hStep with ⟨hStop, -⟩ | hReceiver | hParser | hProcessor
  · exact absurd hStop hOther
  · exact receiverStep_covered h hArrived hReceiver
  · exact parserStep_covered h hParser
  · exact processorStep_covered h hProcessor

theorem step_paid (h : Attended s.server) (hOther : a ≠ .signalHandler)
    (hStep : step d config s a = some s') :
    Attended s'.server ∧ potential s' + price a ≤ potential s := by
  rcases step_cases hStep with
    ⟨hSignal, -⟩ | ⟨b, next, rfl, -, rfl⟩ | ⟨b, next, rfl, hNext, -, rfl⟩
  · exact absurd hSignal hOther
  · exact ⟨h, by simp [potential, price]⟩
  · have hNoStop : b ≠ .stop := by
      rintro rfl
      cases hStep
    have hArrived : ∀ i dataChunk, b = .recvData i dataChunk → dataChunk ≠ [] := by
      rintro i dataChunk rfl
      exact (recvData_arrives hStep).1
    have hCovered := serverStep_covered h hNoStop hArrived hNext
    have hPays := hCovered.pays
    refine ⟨hCovered.attended, ?_⟩
    simp only [potential, List.length_append]
    omega

theorem runActions_paid {actions : List Action} (h : Attended s.server)
    (hOthers : ∀ a ∈ actions, a ≠ .signalHandler)
    (hRun : (system d config).runActions s actions = some s') :
    Attended s'.server ∧ potential s' + (actions.map price).sum ≤ potential s := by
  have hPaid := (system d config).runActions_price_le price potential
    (fun {t t' a} (h : Attended t.server) hOther hStep => step_paid h hOther hStep) h hOthers hRun
  exact hPaid

theorem price_eq (a : Action) :
    price a = (if a.works then 1 else 0) - 4 * (if a.withoutResult then 1 else 0) := by
  cases a with
  | server b =>
    cases b with
    | processorWakes timedOut => cases timedOut <;> rfl
    | _ => rfl
  | _ => rfl

theorem credit_nonneg (s : Server Unit) : 0 ≤ credit s := by
  have hReceiver : 0 ≤ receiverCredit (s.receivers ()) := by
    unfold receiverCredit
    split <;> decide
  have hParser : 0 ≤ parserCredit s.parserPc := by
    unfold parserCredit
    split <;> omega
  have hProcessor : 0 ≤ processorCredit s.processorPc := by
    unfold processorCredit
    split <;> decide
  unfold credit
  omega

/-- Nobody but the simulator has a step left, apart from those without result. -/
def Idle (d : BytesArray → TelemetryData) (config : DroneDataSimulator.Configuration)
    (s : System) : Prop :=
  ∀ a : Action, a.works = true → step d config s a = none

theorem Idle.processor (h : Idle d config s) (hAttended : Attended s.server) :
    s.server.processorPc = .popData ∧ s.server.telemetry.sharedData = [] := by
  cases hPc : s.server.processorPc with
  | returned => exact absurd hPc hAttended.processor
  | popData =>
    refine ⟨rfl, ?_⟩
    by_contra hRecord
    have hOn : s.server.telemetry.wakes s.server.keepRunningSystem = true := by
      simp [ThreadsSharedDataManager.wakes, hRecord]
    have hWakes := h (.server (.processorWakes false)) rfl
    simp [step, serverStep, AcceptedWork.step, AcceptedWork.receiverStep, AcceptedWork.parserStep,
      AcceptedWork.processorStep, hPc, hOn] at hWakes
  | test =>
    have hTest := h (.server .processorTest) rfl
    simp [step, serverStep, AcceptedWork.step, AcceptedWork.receiverStep, AcceptedWork.parserStep,
      AcceptedWork.processorStep, hPc] at hTest
  | shutdownCheck wokeUpWithData =>
    have hCheck := h (.server .checkShutdown) rfl
    simp [step, serverStep, AcceptedWork.step, AcceptedWork.receiverStep, AcceptedWork.parserStep,
      AcceptedWork.processorStep, hPc, hAttended.flag] at hCheck
  | takeData wokeUpWithData =>
    have hTake := h (.server .takeData) rfl
    simp [step, serverStep, AcceptedWork.step, AcceptedWork.receiverStep, AcceptedWork.parserStep,
      AcceptedWork.processorStep, hPc] at hTake
  | update popped =>
    have hUpdate := h (.server (.update 0)) rfl
    simp [step, serverStep, AcceptedWork.step, AcceptedWork.receiverStep, AcceptedWork.parserStep,
      AcceptedWork.processorStep, hPc] at hUpdate

theorem Idle.parser (h : Idle d config s) (hAttended : Attended s.server) :
    s.server.parserPc = .popAll ∧ s.server.rawData.sharedData = [] := by
  have hFree : s.server.processorPc.holdsMutex = false := by
    rw [(h.processor hAttended).1]
    rfl
  cases hPc : s.server.parserPc with
  | returned => exact absurd hPc hAttended.parser
  | popAll =>
    refine ⟨rfl, ?_⟩
    by_contra hBatch
    have hOn : s.server.rawData.wakes s.server.keepRunningSystem = true := by
      simp [ThreadsSharedDataManager.wakes, hBatch]
    have hWakes := h (.server .parserWakes) rfl
    simp [step, serverStep, AcceptedWork.step, AcceptedWork.receiverStep, AcceptedWork.parserStep,
      hPc, hOn] at hWakes
  | test =>
    have hTest := h (.server .parserTest) rfl
    simp [step, serverStep, AcceptedWork.step, AcceptedWork.receiverStep, AcceptedWork.parserStep,
      hPc] at hTest
  | leaving =>
    have hLeave := h (.server .leavePopAll) rfl
    simp [step, serverStep, AcceptedWork.step, AcceptedWork.receiverStep, AcceptedWork.parserStep,
      ThreadsSharedDataManager.popAll, hPc, hAttended.flag] at hLeave
  | process newDataChunks =>
    have hProcess := h (.server .process) rfl
    simp [step, serverStep, AcceptedWork.step, AcceptedWork.receiverStep, AcceptedWork.parserStep,
      hPc] at hProcess
  | push records =>
    cases records with
    | nil =>
      have hEnd := h (.server .endBatch) rfl
      simp [step, serverStep, AcceptedWork.step, AcceptedWork.receiverStep,
        AcceptedWork.parserStep, hPc] at hEnd
    | cons record records =>
      -- the processor sleeps, so the mutex of the queue is free
      have hPush := h (.server .pushTelemetry) rfl
      simp [step, serverStep, AcceptedWork.step, AcceptedWork.receiverStep,
        AcceptedWork.parserStep, hPc, hFree] at hPush

theorem Idle.receiver (h : Idle d config s) (hAttended : Attended s.server)
    (hConnected : Connected d s) :
    s.server.receivers () = .recv ∧ s.read = s.simulator.sent.flatten := by
  have hFree : s.server.parserPc.holdsMutex = false := by
    rw [(h.parser hAttended).1]
    rfl
  cases hPc : s.server.receivers () with
  | returned => exact absurd hPc hAttended.receiver
  | recv =>
    refine ⟨rfl, ?_⟩
    obtain ⟨unread, hUnread⟩ := hConnected.sent
    cases unread with
    | nil => rw [← hUnread, List.append_nil]
    | cons byte rest =>
      have hArrives : Arrives s [byte] := by
        refine ⟨by simp, by simp [DroneDataSensor.recvBufferSize], rest, ?_⟩
        rw [← hUnread, List.append_assoc, List.singleton_append]
      have hRecv := h (.server (.recvData () [byte])) rfl
      simp [step, serverStep, hArrives, AcceptedWork.step, AcceptedWork.receiverStep, hPc] at hRecv
  | test =>
    have hTest := h (.server (.receiverTest ())) rfl
    simp [step, serverStep, AcceptedWork.step, AcceptedWork.receiverStep, hPc] at hTest
  | pushData dataChunk =>
    have hPush := h (.server (.pushData ())) rfl
    simp [step, serverStep, AcceptedWork.step, AcceptedWork.receiverStep, hPc, hFree] at hPush

theorem Idle.drained (h : Idle d config s) (hAttended : Attended s.server)
    (hConnected : Connected d s) : Drained s := by
  obtain ⟨hProcessor, hTelemetry⟩ := h.processor hAttended
  obtain ⟨hParser, hRaw⟩ := h.parser hAttended
  obtain ⟨hReceiver, hRead⟩ := h.receiver hAttended hConnected
  refine ⟨hRead, ?_, hRaw, ?_, ?_, hTelemetry, ?_⟩
  · rw [hReceiver]
    rfl
  · rw [hParser]
    rfl
  · rw [hParser]
    rfl
  · rw [hProcessor]
    rfl

/-- As long as the flag stands, the other steps of the three threads are bounded by the
bytes that were sent, the packets in them and the steps without result, and one of the
threads has such a step unless all that was sent is in the table. -/
theorem works_until_drained (d : BytesArray → TelemetryData)
    (config : DroneDataSimulator.Configuration) (actions : List Action) (s : System)
    (hRun : (system d config).runActions {} actions = some s)
    (hFlag : s.server.keepRunningSystem = true) :
    let found := (processBatch d {} [s.simulator.sent.flatten]).receivedValidPackets
    actions.countP Action.works ≤ 9 + 8 * s.simulator.sent.flatten.length + 6 * found.length +
      4 * actions.countP Action.withoutResult ∧
    (Drained s ∨ ∃ a s', a.works = true ∧ (system d config).step s a = some s') := by
  intro found
  have hConnected : Connected d s := connected_of_reaches (StepSystem.Reaches.runActions .refl hRun)
  obtain ⟨-, hOthers⟩ := flag_of_runActions hRun hFlag
  have hInit : Attended ({} : System).server := attended_init
  obtain ⟨hAttended, hPaid⟩ := runActions_paid hInit hOthers hRun
  constructor
  · have hStart : potential {} = 9 := by decide
    have hCredit := credit_nonneg s.server
    have hRead := hConnected.sent.length_le
    have hPackets := hConnected.received_prefix.length_le
    have hRecords := hConnected.decoded.length_eq
    have hFound : found = (scanned s.simulator.sent.flatten).1 := processBatch_init_received d _
    rw [hStart, StepSystem.sum_price_eq price_eq] at hPaid
    rw [hFound]
    simp only [potential] at hPaid
    omega
  · by_cases hIdle : Idle d config s
    · exact .inl (hIdle.drained hAttended hConnected)
    · simp only [Idle, not_forall] at hIdle
      obtain ⟨a, hWorks, hStep⟩ := hIdle
      obtain ⟨s', hStep⟩ := Option.ne_none_iff_exists'.mp hStep
      exact .inr ⟨a, s', hWorks, hStep⟩

end

/-- One of two packets is in the table. -/
theorem works_until_drained_one_of_two :
    ∃ actions, ∃ s : System, (system decodeOrZero twoPackets).runActions {} actions = some s ∧
      s.simulator.sentValidPackets.length = 2 ∧ (poppedRecords s.server.iterations).length = 1 ∧
      let found := (processBatch decodeOrZero {} [s.simulator.sent.flatten]).receivedValidPackets
      actions.countP Action.works ≤ 9 + 8 * s.simulator.sent.flatten.length + 6 * found.length +
        4 * actions.countP Action.withoutResult ∧
      (Drained s ∨ ∃ a s', a.works = true ∧
        (system decodeOrZero twoPackets).step s a = some s') := by
  obtain ⟨s, hReaches, hValid, hFlag, hPopped⟩ := one_of_two_run
  obtain ⟨actions, hRun⟩ := hReaches.exists_runActions
  have hBound := works_until_drained decodeOrZero twoPackets actions s hRun hFlag
  exact ⟨actions, s, hRun, congrArg List.length hValid, congrArg List.length hPopped, hBound⟩

end CounterDroneServer.Pipeline

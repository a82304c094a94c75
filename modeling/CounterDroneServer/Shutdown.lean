import CounterDroneServer.Library.StepSystem
import CounterDroneServer.ThreadsSharedDataManager.Basic

/-!
# Shutdown of the parser thread

The signal handler, the sensor thread, its receiver threads and the parser
thread share the running flag and the raw-data queue with its condition
variable. The flag is stored and `notify_all` is called without the mutex, so
both may fall between the parser's test of the predicate and its sleep.
-/

set_option autoImplicit false

namespace CounterDroneServer.Shutdown

universe u v

inductive SensorPc
  | initTcpCommunicationPipe
  | test
  | accept
  | wakeUpAll
  | returned
  deriving DecidableEq

inductive ReceiverPc (T : Type v)
  | notStarted
  | test
  | recv
  | pushData (dataChunk : T)
  | notifyOne
  | returned

/-- `locked` to `leaving` hold the mutex; `leaving` is the part of `pop_all`
behind the wait. -/
inductive ParserPc
  | test
  | popAll
  | locked
  | falsePredicate
  | asleep (notified : Bool)
  | leaving
  | processing
  | returned
  deriving DecidableEq

structure Threads (ι : Type u) (T : Type v) where
  keepRunningSystem : Bool := true
  sharedRawDataManager : ThreadsSharedDataManager T := {}
  sensor : SensorPc := .initTcpCommunicationPipe
  receivers : ι → ReceiverPc T := fun _ => .notStarted
  parser : ParserPc := .test

inductive Action (ι : Type u) (T : Type v)
  | signalHandler
  | initFails
  | initSucceeds
  | sensorTest
  | acceptConnection (i : ι)
  | acceptTimeout
  | wakeUpAll
  | receiverTest (i : ι)
  | recvData (i : ι) (dataChunk : T)
  | recvNothing (i : ι)
  | pushData (i : ι)
  | notifyOne (i : ι)
  | parserTest
  | parserLock
  | testPredicate
  | fallAsleep
  | wake
  | spuriousWake
  | leavePopAll
  | process

def ParserPc.holdsMutex : ParserPc → Bool
  | .locked | .falsePredicate | .leaving => true
  | _ => false

/-- A notification reaches the parser only while it is asleep. -/
def ParserPc.notify : ParserPc → ParserPc
  | .asleep _ => .asleep true
  | pc => pc

variable {ι : Type u} {T : Type v}

def setReceiver [DecidableEq ι] (s : Threads ι T) (i : ι) (pc : ReceiverPc T) : Threads ι T :=
  { s with receivers := Function.update s.receivers i pc }

def sensorStep [DecidableEq ι] (s : Threads ι T) : Action ι T → Option (Threads ι T)
  | .initFails =>
    if s.sensor = .initTcpCommunicationPipe then some { s with sensor := .returned } else none
  | .initSucceeds =>
    if s.sensor = .initTcpCommunicationPipe then some { s with sensor := .test } else none
  | .sensorTest =>
    if s.sensor = .test then
      some { s with sensor := if s.keepRunningSystem then .accept else .wakeUpAll }
    else none
  | .acceptConnection i =>
    match s.sensor, s.receivers i with
    | .accept, .notStarted => some (setReceiver { s with sensor := .test } i .test)
    | _, _ => none
  | .acceptTimeout => if s.sensor = .accept then some { s with sensor := .test } else none
  | .wakeUpAll =>
    if s.sensor = .wakeUpAll then some { s with sensor := .returned, parser := s.parser.notify }
    else none
  | _ => none

def receiverStep [DecidableEq ι] (s : Threads ι T) : Action ι T → Option (Threads ι T)
  | .receiverTest i =>
    match s.receivers i with
    | .test => some (setReceiver s i (if s.keepRunningSystem then .recv else .returned))
    | _ => none
  | .recvData i dataChunk =>
    match s.receivers i with
    | .recv => some (setReceiver s i (.pushData dataChunk))
    | _ => none
  | .recvNothing i =>
    match s.receivers i with
    | .recv => some (setReceiver s i .test)
    | _ => none
  | .pushData i =>
    match s.receivers i, s.parser.holdsMutex with
    | .pushData dataChunk, false =>
      some { setReceiver s i .notifyOne with
        sharedRawDataManager := s.sharedRawDataManager.pushData dataChunk }
    | _, _ => none
  | .notifyOne i =>
    match s.receivers i with
    | .notifyOne => some { setReceiver s i .test with parser := s.parser.notify }
    | _ => none
  | _ => none

def parserStep (s : Threads ι T) : Action ι T → Option (Threads ι T)
  | .parserTest =>
    if s.parser = .test then
      some { s with parser := if s.keepRunningSystem then .popAll else .returned }
    else none
  | .parserLock => if s.parser = .popAll then some { s with parser := .locked } else none
  | .testPredicate =>
    if s.parser = .locked then
      some { s with
        parser := if s.sharedRawDataManager.wakes s.keepRunningSystem then .leaving
          else .falsePredicate }
    else none
  | .fallAsleep =>
    if s.parser = .falsePredicate then some { s with parser := .asleep false } else none
  | .wake => if s.parser = .asleep true then some { s with parser := .locked } else none
  | .spuriousWake => if s.parser = .asleep false then some { s with parser := .locked } else none
  | .leavePopAll =>
    if s.parser = .leaving then
      let popped := s.sharedRawDataManager.popAll s.keepRunningSystem
      some { s with
        sharedRawDataManager := popped.2
        parser := if popped.1.isSome then .processing else .test }
    else none
  | .process => if s.parser = .processing then some { s with parser := .test } else none
  | _ => none

def step [DecidableEq ι] (s : Threads ι T) (a : Action ι T) : Option (Threads ι T) :=
  match a with
  | .signalHandler => some { s with keepRunningSystem := false }
  | a => (sensorStep s a).or ((receiverStep s a).or (parserStep s a))

def threads [DecidableEq ι] : StepSystem (Threads ι T) (Action ι T) := ⟨step⟩

/-- Everybody who could wake the parser is gone. -/
def Hangs (s : Threads ι T) : Prop :=
  s.keepRunningSystem = false ∧ s.sensor = .returned ∧
    (∀ i, s.receivers i = .notStarted ∨ s.receivers i = .returned) ∧ s.parser = .asleep false

/-- The parser has found the predicate false and has not been notified since. -/
def Committed (s : Threads ι T) : Prop := s.parser = .falsePredicate ∨ s.parser = .asleep false

/-- The flag is not cleared, and the sensor does not give up, when it is too late
to tell the parser; and `notify_all` does not fall before the parser's sleep,
unless a receiver has a chunk that it will still push. -/
def InTime (s : Threads ι T) : Action ι T → Prop
  | .signalHandler => s.keepRunningSystem = true → s.sensor = .returned → ¬Committed s
  | .initFails => s.keepRunningSystem = false → ¬Committed s
  | .wakeUpAll => s.parser = .falsePredicate → ∃ i dataChunk, s.receivers i = .pushData dataChunk
  | _ => True

/-! ## Somebody is left to wake the parser -/

/-- Receiver `i` will notify while the parser is asleep. -/
def WillNotify (s : Threads ι T) (i : ι) : Prop :=
  (∃ dataChunk, s.receivers i = .pushData dataChunk) ∨
    s.receivers i = .notifyOne ∧ s.parser ≠ .falsePredicate

def Guarded (s : Threads ι T) : Prop :=
  s.keepRunningSystem = false → Committed s → s.sensor ≠ .returned ∨ ∃ i, WillNotify s i

theorem Guarded.not_hangs {s : Threads ι T} (h : Guarded s) : ¬Hangs s := by
  rintro ⟨hFlag, hSensor, hReceivers, hParser⟩
  rcases h hFlag (.inr hParser) with hRunning | ⟨i, ⟨dataChunk, hPush⟩ | ⟨hNotify, -⟩⟩
  · exact hRunning hSensor
  · rcases hReceivers i with hReceiver | hReceiver
    · cases hPush.symm.trans hReceiver
    · cases hPush.symm.trans hReceiver
  · rcases hReceivers i with hReceiver | hReceiver
    · cases hNotify.symm.trans hReceiver
    · cases hNotify.symm.trans hReceiver

theorem guarded_of_not_committed {s : Threads ι T} (h : ¬Committed s) : Guarded s :=
  fun _ hCommitted => absurd hCommitted h

theorem guarded_of_sensor {s : Threads ι T} (h : s.sensor ≠ .returned) : Guarded s :=
  fun _ _ => .inl h

theorem not_committed_of_pc {s : Threads ι T} (pc : ParserPc) (hParser : s.parser = pc)
    (hPc : pc ≠ .falsePredicate) (hAwake : pc ≠ .asleep false) : ¬Committed s := by
  rintro (h | h)
  · exact hPc (hParser.symm.trans h)
  · exact hAwake (hParser.symm.trans h)

theorem not_willNotify {s : Threads ι T} {i : ι} {pc : ReceiverPc T} (hReceiver : s.receivers i = pc)
    (hPush : ∀ dataChunk, pc ≠ .pushData dataChunk) (hNotify : pc ≠ .notifyOne) :
    ¬WillNotify s i := by
  rintro (⟨dataChunk, h⟩ | ⟨h, -⟩)
  · exact hPush dataChunk (hReceiver.symm.trans h)
  · exact hNotify (hReceiver.symm.trans h)

/-- A notification that is not lost ends the commitment. -/
theorem falsePredicate_of_notify {pc : ParserPc}
    (h : pc.notify = .falsePredicate ∨ pc.notify = .asleep false) : pc = .falsePredicate := by
  cases pc with
  | falsePredicate => rfl
  | test | popAll | locked | asleep | leaving | processing | returned =>
    rcases h with hParser | hParser
    · cases hParser
    · cases hParser

theorem parserStep_guarded {s s' : Threads ι T} {a : Action ι T} (h : Guarded s)
    (hStep : parserStep s a = some s') : Guarded s' := by
  cases a with
  | parserTest =>
    obtain ⟨-, hNext⟩ := Option.ite_none_right_eq_some.mp hStep
    cases hNext
    apply guarded_of_not_committed
    cases hFlag : s.keepRunningSystem with
    | true => exact not_committed_of_pc .popAll rfl nofun nofun
    | false => exact not_committed_of_pc .returned rfl nofun nofun
  | parserLock =>
    obtain ⟨-, hNext⟩ := Option.ite_none_right_eq_some.mp hStep
    cases hNext
    exact guarded_of_not_committed (not_committed_of_pc _ rfl nofun nofun)
  | testPredicate =>
    obtain ⟨-, hNext⟩ := Option.ite_none_right_eq_some.mp hStep
    cases hNext
    intro hFlag hCommitted
    have hWakes : s.sharedRawDataManager.wakes s.keepRunningSystem = true := by
      change s.keepRunningSystem = false at hFlag
      rw [ThreadsSharedDataManager.wakes, hFlag]
      exact Bool.or_true _
    rw [Committed, hWakes] at hCommitted
    rcases hCommitted with hParser | hParser
    · cases hParser
    · cases hParser
  | fallAsleep =>
    obtain ⟨hParser, hNext⟩ := Option.ite_none_right_eq_some.mp hStep
    cases hNext
    intro hFlag _
    rcases h hFlag (.inl hParser) with hSensor | ⟨i, hPush | ⟨-, hAwake⟩⟩
    · exact .inl hSensor
    · exact .inr ⟨i, .inl hPush⟩
    · exact absurd hParser hAwake
  | wake | spuriousWake =>
    obtain ⟨-, hNext⟩ := Option.ite_none_right_eq_some.mp hStep
    cases hNext
    exact guarded_of_not_committed (not_committed_of_pc _ rfl nofun nofun)
  | leavePopAll =>
    obtain ⟨-, hNext⟩ := Option.ite_none_right_eq_some.mp hStep
    cases hNext
    apply guarded_of_not_committed
    cases (s.sharedRawDataManager.popAll s.keepRunningSystem).1 with
    | none => exact not_committed_of_pc .test rfl nofun nofun
    | some _ => exact not_committed_of_pc .processing rfl nofun nofun
  | process =>
    obtain ⟨-, hNext⟩ := Option.ite_none_right_eq_some.mp hStep
    cases hNext
    exact guarded_of_not_committed (not_committed_of_pc _ rfl nofun nofun)
  | _ => cases hStep

variable [DecidableEq ι]

theorem sensorStep_guarded {s s' : Threads ι T} {a : Action ι T} (hInTime : InTime s a)
    (hStep : sensorStep s a = some s') : Guarded s' := by
  cases a with
  | initFails =>
    obtain ⟨-, hNext⟩ := Option.ite_none_right_eq_some.mp hStep
    cases hNext
    exact fun hFlag hCommitted => absurd hCommitted (hInTime hFlag)
  | initSucceeds =>
    obtain ⟨-, hNext⟩ := Option.ite_none_right_eq_some.mp hStep
    cases hNext
    exact guarded_of_sensor nofun
  | sensorTest =>
    obtain ⟨-, hNext⟩ := Option.ite_none_right_eq_some.mp hStep
    cases hNext
    apply guarded_of_sensor
    dsimp only
    split
    · exact nofun
    · exact nofun
  | acceptConnection i =>
    simp only [sensorStep] at hStep
    split at hStep
    · cases hStep
      exact guarded_of_sensor nofun
    · cases hStep
  | acceptTimeout =>
    obtain ⟨-, hNext⟩ := Option.ite_none_right_eq_some.mp hStep
    cases hNext
    exact guarded_of_sensor nofun
  | wakeUpAll =>
    obtain ⟨-, hNext⟩ := Option.ite_none_right_eq_some.mp hStep
    cases hNext
    intro _ hCommitted
    obtain ⟨i, dataChunk, hPush⟩ := hInTime (falsePredicate_of_notify hCommitted)
    exact .inr ⟨i, .inl ⟨dataChunk, hPush⟩⟩
  | _ => cases hStep

/-- A receiver that was not going to notify takes nothing away. -/
theorem Guarded.setReceiver {s : Threads ι T} (h : Guarded s) {i : ι} (hIdle : ¬WillNotify s i)
    (pc : ReceiverPc T) : Guarded (setReceiver s i pc) := by
  intro hFlag hCommitted
  rcases h hFlag hCommitted with hSensor | ⟨j, hNotify⟩
  · exact .inl hSensor
  · have hOther : j ≠ i := by
      rintro rfl
      exact hIdle hNotify
    have hReceiver : (Shutdown.setReceiver s i pc).receivers j = s.receivers j :=
      Function.update_of_ne hOther _ _
    right
    refine ⟨j, ?_⟩
    rw [WillNotify, hReceiver]
    exact hNotify

theorem receiverStep_guarded {s s' : Threads ι T} {a : Action ι T} (h : Guarded s)
    (hStep : receiverStep s a = some s') : Guarded s' := by
  cases a with
  | receiverTest i | recvData i | recvNothing i =>
    simp only [receiverStep] at hStep
    split at hStep
    · rename_i hReceiver
      cases hStep
      exact h.setReceiver (not_willNotify hReceiver nofun nofun) _
    · cases hStep
  | pushData i =>
    simp only [receiverStep] at hStep
    split at hStep
    · rename_i dataChunk hReceiver hMutex
      cases hStep
      refine fun _ _ => .inr ⟨i, .inr ⟨Function.update_self _ _ _, ?_⟩⟩
      intro hParser
      change s.parser = .falsePredicate at hParser
      rw [hParser] at hMutex
      cases hMutex
    · cases hStep
  | notifyOne i =>
    simp only [receiverStep] at hStep
    split at hStep
    · rename_i hReceiver
      cases hStep
      intro hFlag hCommitted
      have hParser := falsePredicate_of_notify hCommitted
      have hIdle : ¬WillNotify s i := by
        rintro (⟨dataChunk, hPush⟩ | ⟨-, hAwake⟩)
        · cases hReceiver.symm.trans hPush
        · exact hAwake hParser
      have hSame : s.parser.notify = s.parser := by
        rw [hParser]
        rfl
      rw [hSame]
      exact h.setReceiver hIdle .test hFlag (.inl hParser)
    · cases hStep
  | _ => cases hStep

theorem step_guarded {s s' : Threads ι T} {a : Action ι T} (h : Guarded s) (hInTime : InTime s a)
    (hStep : step s a = some s') : Guarded s' := by
  by_cases hSignal : a = .signalHandler
  · subst hSignal
    cases hStep
    intro _ hCommitted
    cases hFlag : s.keepRunningSystem with
    | true => exact .inl fun hSensor => hInTime hFlag hSensor hCommitted
    | false => exact h hFlag hCommitted
  · have hThreads : (sensorStep s a).or ((receiverStep s a).or (parserStep s a)) = some s' := by
      cases a with
      | signalHandler => exact absurd rfl hSignal
      | _ => exact hStep
    rcases Option.or_eq_some_iff.mp hThreads with hSensor | ⟨-, hOthers⟩
    · exact sensorStep_guarded hInTime hSensor
    · rcases Option.or_eq_some_iff.mp hOthers with hReceiver | ⟨-, hParser⟩
      · exact receiverStep_guarded h hReceiver
      · exact parserStep_guarded h hParser

/-- No run whose steps are all in time hangs the parser. -/
theorem shutdown_does_not_hang (s : Threads ι T) (hRun : threads.ReachesVia InTime {} s) :
    ¬Hangs s := by
  have hGuarded : Guarded s := hRun.invariant Guarded
    (guarded_of_not_committed (not_committed_of_pc .test rfl nofun nofun))
    (fun h hInTime hStep => step_guarded h hInTime hStep)
  exact hGuarded.not_hangs

theorem shutdown_does_not_hang_notified_asleep :
    ∃ s : Threads Unit BytesArray, s.keepRunningSystem = false ∧ s.sensor = .returned ∧
      s.parser = .asleep true ∧ ¬Hangs s := by
  have hRun := threads.reachesVia_refl InTime ({} : Threads Unit BytesArray)
  have hRun := hRun.step Action.initSucceeds trivial rfl
  have hRun := hRun.step Action.parserTest trivial rfl
  have hRun := hRun.step Action.parserLock trivial rfl
  have hRun := hRun.step Action.testPredicate trivial rfl
  have hRun := hRun.step Action.fallAsleep trivial rfl
  have hRun := hRun.step Action.signalHandler (fun _ => nofun) rfl
  have hRun := hRun.step Action.sensorTest trivial rfl
  have hRun := hRun.step Action.wakeUpAll nofun rfl
  exact ⟨_, rfl, rfl, rfl, shutdown_does_not_hang _ hRun⟩

/-- A failed initialization returns without waking anybody. -/
theorem shutdown_hangs_after_failed_init :
    ¬∀ s : Threads Unit BytesArray, threads.Reaches {} s → ¬Hangs s := by
  intro h
  have hRun : threads.runActions ({} : Threads Unit BytesArray)
      [.parserTest, .parserLock, .testPredicate, .fallAsleep, .initFails, .signalHandler] =
      some { keepRunningSystem := false, sensor := .returned, parser := .asleep false } := rfl
  exact h _ (StepSystem.Reaches.runActions .refl hRun) ⟨rfl, rfl, fun _ => .inl rfl, rfl⟩

/-- The flag is cleared and `notify_all` called between the parser's test of the
predicate and its sleep. -/
theorem shutdown_hangs_after_lost_notification :
    ∃ s : Threads Unit BytesArray, threads.Reaches {} s ∧ Hangs s := by
  have hRun : threads.runActions ({} : Threads Unit BytesArray)
      [.initSucceeds, .parserTest, .parserLock, .testPredicate, .signalHandler, .sensorTest,
        .wakeUpAll, .fallAsleep] =
      some { keepRunningSystem := false, sensor := .returned, parser := .asleep false } := rfl
  exact ⟨_, StepSystem.Reaches.runActions .refl hRun, rfl, rfl, fun _ => .inl rfl, rfl⟩

end CounterDroneServer.Shutdown

import CounterDroneServer.Shutdown
import Mathlib.Algebra.Order.BigOperators.Group.Finset
import Mathlib.Data.Fintype.BigOperators

/-!
# Wake-ups, and the end of the threads

A chunk that is pushed while the parser sleeps is followed by a notification. Once
the flag has fallen every thread has only so many steps left, and in a run whose
steps are in time they lead to the end of all of them.
-/

set_option autoImplicit false

namespace CounterDroneServer.Shutdown

universe u v

variable {ι : Type u} {T : Type v}

/-! ## No wake-up for a chunk is lost -/

/-- The parser has found the predicate false on an empty queue, and whoever has pushed
since it fell asleep has still to notify it. -/
structure Announced (s : Threads ι T) : Prop where
  falsePredicate : s.parser = .falsePredicate → s.sharedRawDataManager.sharedData = []
  asleep : s.parser = .asleep false → s.sharedRawDataManager.sharedData ≠ [] →
    ∃ i, s.receivers i = .notifyOne

theorem announced_of_not_committed {s : Threads ι T} (h : ¬Committed s) : Announced s :=
  ⟨fun hParser => absurd (.inl hParser) h, fun hParser _ => absurd (.inr hParser) h⟩

theorem parserStep_announced {s s' : Threads ι T} {a : Action ι T} (h : Announced s)
    (hStep : parserStep s a = some s') : Announced s' := by
  cases a with
  | parserTest =>
    obtain ⟨-, hNext⟩ := Option.ite_none_right_eq_some.mp hStep
    cases hNext
    apply announced_of_not_committed
    cases hFlag : s.keepRunningSystem with
    | true => exact not_committed_of_pc .popAll rfl nofun nofun
    | false => exact not_committed_of_pc .returned rfl nofun nofun
  | testPredicate =>
    obtain ⟨-, hNext⟩ := Option.ite_none_right_eq_some.mp hStep
    cases hNext
    cases hWakes : s.sharedRawDataManager.wakes s.keepRunningSystem with
    | true => exact announced_of_not_committed (not_committed_of_pc .leaving rfl nofun nofun)
    | false =>
      refine ⟨fun _ => ?_, nofun⟩
      have hEmpty := (Bool.or_eq_false_iff.mp hWakes).1
      simpa using hEmpty
  | fallAsleep =>
    obtain ⟨hParser, hNext⟩ := Option.ite_none_right_eq_some.mp hStep
    cases hNext
    exact ⟨nofun, fun _ hQueue => absurd (h.falsePredicate hParser) hQueue⟩
  | leavePopAll =>
    obtain ⟨-, hNext⟩ := Option.ite_none_right_eq_some.mp hStep
    cases hNext
    apply announced_of_not_committed
    cases (s.sharedRawDataManager.popAll s.keepRunningSystem).1 with
    | none => exact not_committed_of_pc .test rfl nofun nofun
    | some _ => exact not_committed_of_pc .processing rfl nofun nofun
  | parserLock | wake | spuriousWake | process =>
    obtain ⟨-, hNext⟩ := Option.ite_none_right_eq_some.mp hStep
    cases hNext
    exact announced_of_not_committed (not_committed_of_pc _ rfl nofun nofun)
  | _ => cases hStep

theorem notify_ne_asleep (pc : ParserPc) : pc.notify ≠ .asleep false := by
  cases pc <;> exact nofun

/-- A notification leaves the parser awake or notified. -/
theorem Announced.notify {s : Threads ι T} (h : Announced s) :
    Announced { s with parser := s.parser.notify } :=
  ⟨fun hParser => h.falsePredicate (falsePredicate_of_notify (.inl hParser)),
    fun hParser => absurd hParser (notify_ne_asleep _)⟩

variable [DecidableEq ι]

/-- A receiver that was not going to notify takes nothing away. -/
theorem Announced.setReceiver {s : Threads ι T} (h : Announced s) {i : ι}
    (hReceiver : s.receivers i ≠ .notifyOne) (pc : ReceiverPc T) : Announced (setReceiver s i pc) := by
  refine ⟨h.falsePredicate, fun hParser hQueue => ?_⟩
  obtain ⟨j, hNotify⟩ := h.asleep hParser hQueue
  have hOther : j ≠ i := by
    rintro rfl
    exact hReceiver hNotify
  exact ⟨j, (Function.update_of_ne hOther _ _).trans hNotify⟩

theorem receiverStep_announced {s s' : Threads ι T} {a : Action ι T} (h : Announced s)
    (hStep : receiverStep s a = some s') : Announced s' := by
  cases a with
  | receiverTest i | recvData i | recvNothing i =>
    simp only [receiverStep] at hStep
    split at hStep
    · rename_i hReceiver
      cases hStep
      exact h.setReceiver (by simp [hReceiver]) _
    · cases hStep
  | pushData i =>
    simp only [receiverStep] at hStep
    split at hStep
    · rename_i dataChunk hReceiver hMutex
      cases hStep
      refine ⟨fun hParser => ?_, fun _ _ => ⟨i, Function.update_self _ _ _⟩⟩
      change s.parser = .falsePredicate at hParser
      rw [hParser] at hMutex
      cases hMutex
    · cases hStep
  | notifyOne i =>
    simp only [receiverStep] at hStep
    split at hStep
    · cases hStep
      refine ⟨fun hParser => ?_, fun hParser => absurd hParser (notify_ne_asleep _)⟩
      exact h.falsePredicate (falsePredicate_of_notify (.inl hParser))
    · cases hStep
  | _ => cases hStep

theorem sensorStep_announced {s s' : Threads ι T} {a : Action ι T} (h : Announced s)
    (hStep : sensorStep s a = some s') : Announced s' := by
  cases a with
  | initFails | initSucceeds | sensorTest | acceptTimeout =>
    obtain ⟨-, hNext⟩ := Option.ite_none_right_eq_some.mp hStep
    cases hNext
    exact ⟨h.falsePredicate, h.asleep⟩
  | acceptConnection i =>
    simp only [sensorStep] at hStep
    split at hStep
    · rename_i hSensor hReceiver
      cases hStep
      have hMoved : Announced { s with sensor := .test } := ⟨h.falsePredicate, h.asleep⟩
      exact hMoved.setReceiver (by simp [hReceiver]) _
    · cases hStep
  | wakeUpAll =>
    obtain ⟨-, hNext⟩ := Option.ite_none_right_eq_some.mp hStep
    cases hNext
    exact ⟨h.notify.falsePredicate, h.notify.asleep⟩
  | _ => cases hStep

theorem step_cases {s s' : Threads ι T} {a : Action ι T} (hStep : step s a = some s') :
    a = .signalHandler ∧ s' = { s with keepRunningSystem := false } ∨
      a ≠ .signalHandler ∧
        (sensorStep s a = some s' ∨ receiverStep s a = some s' ∨ parserStep s a = some s') := by
  rcases eq_or_ne a .signalHandler with rfl | hOther
  · cases hStep
    exact .inl ⟨rfl, rfl⟩
  · have hThreads : (sensorStep s a).or ((receiverStep s a).or (parserStep s a)) = some s' := by
      cases a with
      | signalHandler => exact absurd rfl hOther
      | _ => exact hStep
    refine .inr ⟨hOther, ?_⟩
    rcases Option.or_eq_some_iff.mp hThreads with hSensor | ⟨-, hOthers⟩
    · exact .inl hSensor
    · rcases Option.or_eq_some_iff.mp hOthers with hReceiver | ⟨-, hParser⟩
      · exact .inr (.inl hReceiver)
      · exact .inr (.inr hParser)

theorem step_announced {s s' : Threads ι T} {a : Action ι T} (h : Announced s)
    (hStep : step s a = some s') : Announced s' := by
  rcases step_cases hStep with ⟨-, rfl⟩ | ⟨-, hSensor | hReceiver | hParser⟩
  · exact ⟨h.falsePredicate, h.asleep⟩
  · exact sensorStep_announced h hSensor
  · exact receiverStep_announced h hReceiver
  · exact parserStep_announced h hParser

/-- While the parser sleeps without a notification on a queue with data, some receiver
is about to call `notify_one`, and its call reaches the parser. -/
theorem notified_of_asleep (s : Threads ι T) (hRun : threads.Reaches {} s)
    (hParser : s.parser = .asleep false) (hQueue : s.sharedRawDataManager.sharedData ≠ []) :
    ∃ i s', s.receivers i = .notifyOne ∧ threads.step s (.notifyOne i) = some s' ∧
      s'.parser = .asleep true ∧
      s'.sharedRawDataManager.sharedData = s.sharedRawDataManager.sharedData := by
  have hAnnounced : Announced s := hRun.invariant Announced
    (announced_of_not_committed (not_committed_of_pc .test rfl nofun nofun))
    (fun h hStep => step_announced h hStep)
  obtain ⟨i, hNotify⟩ := hAnnounced.asleep hParser hQueue
  refine ⟨i, { setReceiver s i .test with parser := s.parser.notify }, hNotify, ?_, ?_, rfl⟩
  · simp [threads, step, sensorStep, receiverStep, hNotify]
  · rw [hParser]
    rfl

theorem notified_of_asleep_one_chunk :
    ∃ s s' : Threads Unit BytesArray, s.parser = .asleep false ∧
      s.sharedRawDataManager.sharedData = [[7]] ∧ threads.step s (.notifyOne ()) = some s' ∧
      s'.parser = .asleep true := by
  have hRun : threads.runActions ({} : Threads Unit BytesArray)
      [.initSucceeds, .sensorTest, .acceptConnection (), .parserTest, .parserLock, .testPredicate,
        .fallAsleep, .receiverTest (), .recvData () [7], .pushData ()] =
      some { sensor := .test, receivers := _, parser := .asleep false,
             sharedRawDataManager := ⟨[[7]]⟩ } := rfl
  obtain ⟨i, s', -, hStep, hAwake, -⟩ := notified_of_asleep _
    (StepSystem.Reaches.runActions .refl hRun) rfl nofun
  exact ⟨_, s', rfl, rfl, hStep, hAwake⟩

/-! ## The steps that are left -/

def SensorPc.rank : SensorPc → Nat
  | .initTcpCommunicationPipe | .accept => 3
  | .test => 2
  | .wakeUpAll => 1
  | .returned => 0

def ReceiverPc.rank : ReceiverPc T → Nat
  | .recv => 4
  | .pushData _ => 3
  | .notifyOne | .notStarted => 2
  | .test => 1
  | .returned => 0

def ParserPc.rank : ParserPc → Nat
  | .falsePredicate => 6
  | .popAll | .asleep _ => 5
  | .locked => 4
  | .leaving => 3
  | .processing => 2
  | .test => 1
  | .returned => 0

variable [Fintype ι]

/-- A bound on the steps that the threads still take when the flag has fallen. -/
def rank (s : Threads ι T) : Nat := s.sensor.rank + ∑ i, (s.receivers i).rank + s.parser.rank

theorem notify_rank (pc : ParserPc) : pc.notify.rank = pc.rank := by
  cases pc <;> rfl

theorem receivers_rank_lt {receivers : ι → ReceiverPc T} {i : ι} {pc : ReceiverPc T}
    (hLower : pc.rank < (receivers i).rank) :
    ∑ j, (Function.update receivers i pc j).rank < ∑ j, (receivers j).rank := by
  refine Finset.sum_lt_sum (fun j _ => ?_) ⟨i, Finset.mem_univ i, ?_⟩
  · rcases eq_or_ne j i with rfl | hOther
    · rw [Function.update_self]
      exact Nat.le_of_lt hLower
    · rw [Function.update_of_ne hOther]
  · rwa [Function.update_self]

/-- The flag stays down and the rank falls. -/
def Lowers (s s' : Threads ι T) : Prop := s'.keepRunningSystem = false ∧ rank s' < rank s

section

variable {s s' : Threads ι T} {a : Action ι T}

omit [DecidableEq ι] in
theorem lowers_sensor (hFlag : s.keepRunningSystem = false) {pc : SensorPc}
    (hLower : pc.rank < s.sensor.rank) : Lowers s { s with sensor := pc } := by
  refine ⟨hFlag, ?_⟩
  simp only [rank]
  omega

theorem lowers_receiver (hFlag : s.keepRunningSystem = false) {i : ι} {pc : ReceiverPc T}
    (hLower : pc.rank < (s.receivers i).rank) : Lowers s (setReceiver s i pc) := by
  have hSum := receivers_rank_lt hLower
  refine ⟨hFlag, ?_⟩
  simp only [rank, setReceiver]
  omega

omit [DecidableEq ι] in
theorem lowers_parserStep (hFlag : s.keepRunningSystem = false) {pc : ParserPc}
    (hLower : pc.rank < s.parser.rank) : Lowers s { s with parser := pc } := by
  refine ⟨hFlag, ?_⟩
  simp only [rank]
  omega

theorem sensorStep_lowers (hFlag : s.keepRunningSystem = false) (hStep : sensorStep s a = some s') :
    Lowers s s' := by
  cases a with
  | initFails | initSucceeds | acceptTimeout =>
    obtain ⟨hSensor, hNext⟩ := Option.ite_none_right_eq_some.mp hStep
    cases hNext
    apply lowers_sensor hFlag
    rw [hSensor]
    decide
  | sensorTest =>
    obtain ⟨hSensor, hNext⟩ := Option.ite_none_right_eq_some.mp hStep
    cases hNext
    apply lowers_sensor hFlag
    rw [hSensor, hFlag]
    decide
  | acceptConnection i =>
    simp only [sensorStep] at hStep
    split at hStep
    · rename_i hSensor hReceiver
      cases hStep
      have hStarts : (ReceiverPc.test : ReceiverPc T).rank < (s.receivers i).rank := by
        rw [hReceiver]
        exact Nat.lt_succ_self 1
      have hSum := receivers_rank_lt hStarts
      refine ⟨hFlag, ?_⟩
      simp only [rank, setReceiver, hSensor, SensorPc.rank]
      omega
    · cases hStep
  | wakeUpAll =>
    obtain ⟨hSensor, hNext⟩ := Option.ite_none_right_eq_some.mp hStep
    cases hNext
    refine ⟨hFlag, ?_⟩
    simp only [rank, notify_rank, hSensor, SensorPc.rank]
    omega
  | _ => cases hStep

theorem receiverStep_lowers (hFlag : s.keepRunningSystem = false)
    (hStep : receiverStep s a = some s') : Lowers s s' := by
  cases a with
  | receiverTest i =>
    simp only [receiverStep] at hStep
    split at hStep
    · rename_i hReceiver
      cases hStep
      apply lowers_receiver hFlag
      rw [hReceiver, hFlag]
      exact Nat.zero_lt_one
    · cases hStep
  | recvData i dataChunk | recvNothing i =>
    simp only [receiverStep] at hStep
    split at hStep
    · rename_i hReceiver
      cases hStep
      apply lowers_receiver hFlag
      rw [hReceiver]
      simp only [ReceiverPc.rank]
      omega
    · cases hStep
  | pushData i =>
    simp only [receiverStep] at hStep
    split at hStep
    · rename_i dataChunk hReceiver hMutex
      cases hStep
      have hMoved : Lowers s (setReceiver s i .notifyOne) := by
        apply lowers_receiver hFlag
        rw [hReceiver]
        exact Nat.lt_succ_self 2
      exact ⟨hFlag, hMoved.2⟩
    · cases hStep
  | notifyOne i =>
    simp only [receiverStep] at hStep
    split at hStep
    · rename_i hReceiver
      cases hStep
      have hMoved : Lowers s (setReceiver s i .test) := by
        apply lowers_receiver hFlag
        rw [hReceiver]
        exact Nat.lt_succ_self 1
      refine ⟨hFlag, ?_⟩
      have hLower := hMoved.2
      simp only [rank, notify_rank] at hLower ⊢
      exact hLower
    · cases hStep
  | _ => cases hStep

omit [DecidableEq ι] in
theorem parserStep_lowers (hFlag : s.keepRunningSystem = false) (hStep : parserStep s a = some s') :
    Lowers s s' := by
  cases a with
  | parserTest =>
    obtain ⟨hParser, hNext⟩ := Option.ite_none_right_eq_some.mp hStep
    cases hNext
    apply lowers_parserStep hFlag
    rw [hParser, hFlag]
    decide
  | testPredicate =>
    obtain ⟨hParser, hNext⟩ := Option.ite_none_right_eq_some.mp hStep
    cases hNext
    -- with the flag down the predicate holds
    have hWakes : s.sharedRawDataManager.wakes s.keepRunningSystem = true := by
      rw [ThreadsSharedDataManager.wakes, hFlag]
      exact Bool.or_true _
    apply lowers_parserStep hFlag
    rw [hParser, hWakes]
    decide
  | parserLock | fallAsleep | wake | spuriousWake | process =>
    obtain ⟨hParser, hNext⟩ := Option.ite_none_right_eq_some.mp hStep
    cases hNext
    apply lowers_parserStep hFlag
    rw [hParser]
    decide
  | leavePopAll =>
    obtain ⟨hParser, hNext⟩ := Option.ite_none_right_eq_some.mp hStep
    cases hNext
    refine ⟨hFlag, ?_⟩
    simp only [rank, hParser]
    split
    · exact Nat.add_lt_add_left (by decide) _
    · exact Nat.add_lt_add_left (by decide) _
  | _ => cases hStep

theorem step_lowers (hFlag : s.keepRunningSystem = false) (hOther : a ≠ .signalHandler)
    (hStep : step s a = some s') : Lowers s s' := by
  rcases step_cases hStep with ⟨hSignal, -⟩ | ⟨-, hSensor | hReceiver | hParser⟩
  · exact absurd hSignal hOther
  · exact sensorStep_lowers hFlag hSensor
  · exact receiverStep_lowers hFlag hReceiver
  · exact parserStep_lowers hFlag hParser

omit [DecidableEq ι] in
theorem rank_le (s : Threads ι T) : rank s ≤ 9 + 4 * Fintype.card ι := by
  have hSensor : s.sensor.rank ≤ 3 := by
    cases s.sensor <;> decide
  have hParser : s.parser.rank ≤ 6 := by
    cases s.parser <;> simp [ParserPc.rank]
  have hReceivers : ∑ i, (s.receivers i).rank ≤ Fintype.card ι * 4 := by
    refine Finset.sum_le_card_nsmul _ _ 4 fun i _ => ?_
    cases s.receivers i <;> simp [ReceiverPc.rank]
  simp only [rank]
  omega

end

/-! ## Where the steps lead -/

/-- The steps that the threads take by themselves; a sleeping thread need not be woken
for no reason. -/
def Productive : Action ι T → Prop
  | .signalHandler | .spuriousWake => False
  | _ => True

/-- Nobody has a step left that is in time. -/
def Stuck (s : Threads ι T) : Prop :=
  ∀ a, Productive a → InTime s a → threads.step s a = none

def AllReturned (s : Threads ι T) : Prop :=
  s.sensor = .returned ∧ (∀ i, s.receivers i = .notStarted ∨ s.receivers i = .returned) ∧
    s.parser = .returned

section

omit [Fintype ι]

variable {s : Threads ι T}

theorem Stuck.parser (h : Stuck s) : s.parser = .returned ∨ s.parser = .asleep false := by
  have stuck : ∀ a, Productive a → InTime s a → step s a = none := h
  cases hParser : s.parser with
  | returned => exact .inl rfl
  | asleep notified =>
    cases notified with
    | false => exact .inr rfl
    | true =>
      have hWake := stuck .wake trivial trivial
      simp [step, sensorStep, receiverStep, parserStep, hParser] at hWake
  | test =>
    have hTest := stuck .parserTest trivial trivial
    simp [step, sensorStep, receiverStep, parserStep, hParser] at hTest
  | popAll =>
    have hLock := stuck .parserLock trivial trivial
    simp [step, sensorStep, receiverStep, parserStep, hParser] at hLock
  | locked =>
    have hPredicate := stuck .testPredicate trivial trivial
    simp [step, sensorStep, receiverStep, parserStep, hParser] at hPredicate
  | falsePredicate =>
    have hAsleep := stuck .fallAsleep trivial trivial
    simp [step, sensorStep, receiverStep, parserStep, hParser] at hAsleep
  | leaving =>
    have hLeave := stuck .leavePopAll trivial trivial
    simp [step, sensorStep, receiverStep, parserStep, hParser] at hLeave
  | processing =>
    have hProcess := stuck .process trivial trivial
    simp [step, sensorStep, receiverStep, parserStep, hParser] at hProcess

theorem Stuck.receivers (h : Stuck s) (i : ι) :
    s.receivers i = .notStarted ∨ s.receivers i = .returned := by
  have stuck : ∀ a, Productive a → InTime s a → step s a = none := h
  have hMutex : s.parser.holdsMutex = false := by
    rcases h.parser with hParser | hParser
    all_goals
      rw [hParser]
      rfl
  cases hReceiver : s.receivers i with
  | notStarted => exact .inl rfl
  | returned => exact .inr rfl
  | test =>
    have hTest := stuck (.receiverTest i) trivial trivial
    simp [step, sensorStep, receiverStep, hReceiver] at hTest
  | recv =>
    have hNothing := stuck (.recvNothing i) trivial trivial
    simp [step, sensorStep, receiverStep, hReceiver] at hNothing
  | pushData dataChunk =>
    have hPush := stuck (.pushData i) trivial trivial
    simp [step, sensorStep, receiverStep, hReceiver, hMutex] at hPush
  | notifyOne =>
    have hNotify := stuck (.notifyOne i) trivial trivial
    simp [step, sensorStep, receiverStep, hReceiver] at hNotify

theorem Stuck.sensor (h : Stuck s) : s.sensor = .returned := by
  have stuck : ∀ a, Productive a → InTime s a → step s a = none := h
  cases hSensor : s.sensor with
  | returned => rfl
  | initTcpCommunicationPipe =>
    have hInit := stuck .initSucceeds trivial trivial
    simp [step, sensorStep, hSensor] at hInit
  | test =>
    have hTest := stuck .sensorTest trivial trivial
    simp [step, sensorStep, hSensor] at hTest
  | accept =>
    have hTimeout := stuck .acceptTimeout trivial trivial
    simp [step, sensorStep, hSensor] at hTimeout
  | wakeUpAll =>
    have hInTime : InTime s .wakeUpAll := by
      intro hParser
      rcases h.parser with hReturned | hAsleep
      · cases hParser.symm.trans hReturned
      · cases hParser.symm.trans hAsleep
    have hWake := stuck .wakeUpAll trivial hInTime
    simp [step, sensorStep, hSensor] at hWake

theorem Stuck.allReturned (h : Stuck s) (hGuarded : Guarded s) (hFlag : s.keepRunningSystem = false) :
    AllReturned s := by
  refine ⟨h.sensor, h.receivers, ?_⟩
  rcases h.parser with hReturned | hAsleep
  · exact hReturned
  · exact absurd ⟨hFlag, h.sensor, h.receivers, hAsleep⟩ hGuarded.not_hangs

end

/-- Once the flag has fallen the threads take at most nine steps and four for each
receiver, those of `signalHandler` not counted, and where no step in time is left all of
them have returned. This leaves out the runs in which, with the parser committed to its
wait, the signal comes behind a failed initialization or the initialization fails behind
the signal, and those in which `notify_all` comes before the parser's sleep and no
receiver has a chunk to push. -/
theorem shutdown_completes (s : Threads ι T) (hRun : threads.ReachesVia InTime {} s)
    (hFlag : s.keepRunningSystem = false) :
    (∀ (actions : List (Action ι T)) (s' : Threads ι T), (∀ a ∈ actions, a ≠ .signalHandler) →
      threads.runActions s actions = some s' → actions.length ≤ 9 + 4 * Fintype.card ι) ∧
    (Stuck s → AllReturned s) := by
  constructor
  · intro actions s' hActions hSteps
    have hLength : rank s' + actions.length ≤ rank s :=
      threads.runActions_length_le rank
        (fun hDown hOther hStep => step_lowers hDown hOther hStep) hFlag hActions hSteps
    have hBound := rank_le s
    omega
  · intro hStuck
    have hGuarded : Guarded s := hRun.invariant Guarded
      (guarded_of_not_committed (not_committed_of_pc .test rfl nofun nofun))
      (fun h hInTime hStep => step_guarded h hInTime hStep)
    exact hStuck.allReturned hGuarded hFlag

/-- The flag falls while a receiver and the parser wait. -/
theorem shutdown_completes_both_waiting :
    ∃ s : Threads Unit BytesArray, s.keepRunningSystem = false ∧ s.parser = .asleep false ∧
      s.receivers () = .recv ∧
      (∀ actions s', (∀ a ∈ actions, a ≠ .signalHandler) → threads.runActions s actions = some s' →
        actions.length ≤ 9 + 4 * Fintype.card Unit) ∧
      (Stuck s → AllReturned s) := by
  have hRun := threads.reachesVia_refl InTime ({} : Threads Unit BytesArray)
  have hRun := hRun.step Action.initSucceeds trivial rfl
  have hRun := hRun.step Action.sensorTest trivial rfl
  have hRun := hRun.step (Action.acceptConnection ()) trivial rfl
  have hRun := hRun.step (Action.receiverTest ()) trivial rfl
  have hRun := hRun.step Action.parserTest trivial rfl
  have hRun := hRun.step Action.parserLock trivial rfl
  have hRun := hRun.step Action.testPredicate trivial rfl
  have hRun := hRun.step Action.fallAsleep trivial rfl
  have hRun := hRun.step Action.signalHandler (fun _ => nofun) rfl
  exact ⟨_, rfl, rfl, rfl, shutdown_completes _ hRun rfl⟩

end CounterDroneServer.Shutdown

import CounterDroneServer.DroneDataSensor.Receivers

/-!
# Accepted connections and their receiver threads

The accept loop keeps a future for each receiver it has launched and sweeps the
vector of futures after every `accept`. A receiver goes round its loop while the
system runs, whatever `recv` returns.
-/

set_option autoImplicit false

namespace CounterDroneServer.Connections

universe u

/-- `sweep it` is `delete_inactive_threads` with its iterator. -/
inductive AcceptPc
  | test
  | accept
  | sweep (it : Nat)
  | leaving
  deriving DecidableEq

inductive ReceiverPc
  | notStarted
  | test
  | recv
  | pushData (dataChunk : BytesArray)
  | close
  | returned
  deriving DecidableEq

/-- `wait_for(0) == std::future_status::ready`. -/
def ReceiverPc.ready : ReceiverPc → Bool
  | .returned => true
  | _ => false

/-- The last three members record the run: what `recv` has returned on each
connection, and which receivers were ready when the current and the last complete
sweep began. -/
structure Sensor (ι : Type u) where
  keepRunningSystem : Bool := true
  acceptPc : AcceptPc := .test
  dronesDataRcvThreads : List ι := []
  receivers : ι → ReceiverPc := fun _ => .notStarted
  socketOpen : ι → Bool := fun _ => false
  sharedRawDataManager : ThreadsSharedDataManager BytesArray := {}
  recvResults : ι → List ℤ := fun _ => []
  readyAtSweep : ι → Bool := fun _ => false
  readyAtLastSweep : ι → Bool := fun _ => false

inductive Action (ι : Type u)
  | signalHandler
  | acceptTest
  | acceptConnection (i : ι)
  | acceptNothing
  | sweepNext
  | receiverTest (i : ι)
  | recvData (i : ι) (dataChunk : BytesArray)
  | recvNothing (i : ι) (bytesRead : ℤ)
  | pushData (i : ι)
  | close (i : ι)

variable {ι : Type u} [DecidableEq ι]

def setReceiver (s : Sensor ι) (i : ι) (pc : ReceiverPc) : Sensor ι :=
  { s with receivers := Function.update s.receivers i pc }

def logRecv (s : Sensor ι) (i : ι) (bytesRead : ℤ) : Sensor ι :=
  { s with recvResults := Function.update s.recvResults i (s.recvResults i ++ [bytesRead]) }

def startSweep (s : Sensor ι) : Sensor ι :=
  { s with acceptPc := .sweep 0, readyAtSweep := fun i => (s.receivers i).ready }

def acceptStep (s : Sensor ι) : Action ι → Option (Sensor ι)
  | .acceptTest =>
    if s.acceptPc = .test then
      some { s with acceptPc := if s.keepRunningSystem then .accept else .leaving }
    else none
  | .acceptConnection i =>
    if s.acceptPc = .accept ∧ s.receivers i = .notStarted then
      some (startSweep { setReceiver s i .test with
        dronesDataRcvThreads := s.dronesDataRcvThreads ++ [i]
        socketOpen := Function.update s.socketOpen i true })
    else none
  | .acceptNothing => if s.acceptPc = .accept then some (startSweep s) else none
  | .sweepNext =>
    match s.acceptPc with
    | .sweep it =>
      match s.dronesDataRcvThreads[it]? with
      | some i =>
        if (s.receivers i).ready = true then
          some { s with dronesDataRcvThreads := s.dronesDataRcvThreads.eraseIdx it }
        else some { s with acceptPc := .sweep (it + 1) }
      | none => some { s with acceptPc := .test, readyAtLastSweep := s.readyAtSweep }
    | _ => none
  | _ => none

/-- `recv` returns 0 for ever once it has returned it. -/
def receiverStep (s : Sensor ι) : Action ι → Option (Sensor ι)
  | .receiverTest i =>
    if s.receivers i = .test then
      some (setReceiver s i (if s.keepRunningSystem then .recv else .close))
    else none
  | .recvData i dataChunk =>
    if s.receivers i = .recv ∧ 0 ∉ s.recvResults i ∧ dataChunk ≠ [] ∧
        dataChunk.length ≤ DroneDataSensor.recvBufferSize then
      some (setReceiver (logRecv s i dataChunk.length) i (.pushData dataChunk))
    else none
  | .recvNothing i bytesRead =>
    if s.receivers i = .recv ∧ bytesRead ≤ 0 ∧ (0 ∈ s.recvResults i → bytesRead = 0) then
      some (setReceiver (logRecv s i bytesRead) i .test)
    else none
  | .pushData i =>
    match s.receivers i with
    | .pushData dataChunk =>
      some { setReceiver s i .test with
        sharedRawDataManager := s.sharedRawDataManager.pushData dataChunk }
    | _ => none
  | .close i =>
    if s.receivers i = .close then
      some { setReceiver s i .returned with socketOpen := Function.update s.socketOpen i false }
    else none
  | _ => none

def step (s : Sensor ι) : Action ι → Option (Sensor ι)
  | .signalHandler => some { s with keepRunningSystem := false }
  | a => (acceptStep s a).or (receiverStep s a)

def sensor : StepSystem (Sensor ι) (Action ι) := ⟨step⟩

/-! ## What a step does -/

/-- A step of a receiver moves that receiver alone, out of its loop only when the
system no longer runs. -/
structure ReceiverMoves (s s' : Sensor ι) (i : ι) (pc : ReceiverPc) : Prop where
  started : s.receivers i ≠ .notStarted
  notReturned : s.receivers i ≠ .returned
  receivers : s'.receivers = Function.update s.receivers i pc
  nextStarted : pc ≠ .notStarted
  staysInLoop : s.keepRunningSystem = true → s.receivers i ≠ .close →
    pc ≠ .close ∧ pc ≠ .returned ∧ s'.socketOpen = s.socketOpen
  keepRunningSystem : s'.keepRunningSystem = s.keepRunningSystem
  acceptPc : s'.acceptPc = s.acceptPc
  futures : s'.dronesDataRcvThreads = s.dronesDataRcvThreads
  results : ∀ j, j ≠ i → s'.recvResults j = s.recvResults j
  readyAtSweep : s'.readyAtSweep = s.readyAtSweep
  readyAtLastSweep : s'.readyAtLastSweep = s.readyAtLastSweep

theorem receiverStep_moves {s s' : Sensor ι} {a : Action ι} (h : receiverStep s a = some s') :
    ∃ i pc, ReceiverMoves s s' i pc := by
  have hLogged : ∀ i (bytesRead : ℤ) j, j ≠ i →
      Function.update s.recvResults i (s.recvResults i ++ [bytesRead]) j = s.recvResults j :=
    fun i bytesRead j hOther => Function.update_of_ne hOther _ _
  cases a with
  | receiverTest i =>
    obtain ⟨hPc, hNext⟩ := Option.ite_none_right_eq_some.mp h
    cases hNext
    refine ⟨i, _, ⟨by simp [hPc], by simp [hPc], rfl, ?_, ?_, rfl, rfl, rfl, fun _ _ => rfl, rfl, rfl⟩⟩
    · cases s.keepRunningSystem <;> exact nofun
    · intro hFlag _
      rw [hFlag]
      exact ⟨nofun, nofun, rfl⟩
  | recvData i dataChunk =>
    obtain ⟨⟨hPc, -⟩, hNext⟩ := Option.ite_none_right_eq_some.mp h
    cases hNext
    exact ⟨i, _, ⟨by simp [hPc], by simp [hPc], rfl, nofun, fun _ _ => ⟨nofun, nofun, rfl⟩,
      rfl, rfl, rfl, hLogged i _, rfl, rfl⟩⟩
  | recvNothing i bytesRead =>
    obtain ⟨⟨hPc, -⟩, hNext⟩ := Option.ite_none_right_eq_some.mp h
    cases hNext
    exact ⟨i, _, ⟨by simp [hPc], by simp [hPc], rfl, nofun, fun _ _ => ⟨nofun, nofun, rfl⟩,
      rfl, rfl, rfl, hLogged i _, rfl, rfl⟩⟩
  | pushData i =>
    simp only [receiverStep] at h
    split at h
    · rename_i hPc
      cases h
      exact ⟨i, _, ⟨by simp [hPc], by simp [hPc], rfl, nofun, fun _ _ => ⟨nofun, nofun, rfl⟩,
        rfl, rfl, rfl, fun _ _ => rfl, rfl, rfl⟩⟩
    · cases h
  | close i =>
    obtain ⟨hPc, hNext⟩ := Option.ite_none_right_eq_some.mp h
    cases hNext
    exact ⟨i, _, ⟨by simp [hPc], by simp [hPc], rfl, nofun, fun _ hOpen => absurd hPc hOpen,
      rfl, rfl, rfl, fun _ _ => rfl, rfl, rfl⟩⟩
  | _ => cases h

/-- The steps of the accept loop, by what they do to the futures. -/
inductive AcceptEffect (s : Sensor ι) : Sensor ι → Prop
  | goes (pc : AcceptPc) (hPc : s.acceptPc = .test) (hNext : ∀ it, pc ≠ .sweep it) :
    AcceptEffect s { s with acceptPc := pc }
  | accepts (i : ι) (hNew : s.receivers i = .notStarted) :
    AcceptEffect s (startSweep { setReceiver s i .test with
      dronesDataRcvThreads := s.dronesDataRcvThreads ++ [i]
      socketOpen := Function.update s.socketOpen i true })
  | timesOut : AcceptEffect s (startSweep s)
  | erases (it : Nat) (i : ι) (hPc : s.acceptPc = .sweep it)
    (hAt : s.dronesDataRcvThreads[it]? = some i) (hReady : (s.receivers i).ready = true) :
    AcceptEffect s { s with dronesDataRcvThreads := s.dronesDataRcvThreads.eraseIdx it }
  | keeps (it : Nat) (i : ι) (hPc : s.acceptPc = .sweep it)
    (hAt : s.dronesDataRcvThreads[it]? = some i) (hReady : (s.receivers i).ready = false) :
    AcceptEffect s { s with acceptPc := .sweep (it + 1) }
  | swept (it : Nat) (hPc : s.acceptPc = .sweep it) (hEnd : s.dronesDataRcvThreads[it]? = none) :
    AcceptEffect s { s with acceptPc := .test, readyAtLastSweep := s.readyAtSweep }

theorem AcceptEffect.keepRunningSystem {s s' : Sensor ι} (h : AcceptEffect s s') :
    s'.keepRunningSystem = s.keepRunningSystem := by
  cases h <;> rfl

theorem acceptStep_effect {s s' : Sensor ι} {a : Action ι} (h : acceptStep s a = some s') :
    AcceptEffect s s' := by
  cases a with
  | acceptTest =>
    obtain ⟨hPc, hNext⟩ := Option.ite_none_right_eq_some.mp h
    cases hNext
    refine .goes _ hPc ?_
    cases s.keepRunningSystem <;> exact nofun
  | acceptConnection i =>
    obtain ⟨⟨-, hNew⟩, hNext⟩ := Option.ite_none_right_eq_some.mp h
    cases hNext
    exact .accepts i hNew
  | acceptNothing =>
    obtain ⟨-, hNext⟩ := Option.ite_none_right_eq_some.mp h
    cases hNext
    exact .timesOut
  | sweepNext =>
    simp only [acceptStep] at h
    split at h
    · rename_i it hPc
      split at h
      · rename_i i hAt
        split at h
        · rename_i hReady
          cases h
          exact .erases it i hPc hAt hReady
        · rename_i hReady
          cases h
          exact .keeps it i hPc hAt (Bool.eq_false_iff.mpr hReady)
      · rename_i hEnd
        cases h
        exact .swept it hPc hEnd
    · cases h
  | _ => cases h

theorem step_effect {s s' : Sensor ι} {a : Action ι} (h : step s a = some s') :
    s' = { s with keepRunningSystem := false } ∨ AcceptEffect s s' ∨
      ∃ i pc, ReceiverMoves s s' i pc := by
  cases a with
  | signalHandler =>
    cases h
    exact .inl rfl
  | _ =>
    simp only [step] at h
    rcases Option.or_eq_some_iff.mp h with hAccept | ⟨-, hReceiver⟩
    · exact .inr (.inl (acceptStep_effect hAccept))
    · exact .inr (.inr (receiverStep_moves hReceiver))

/-! ## The sweep -/

/-- What a sweep has looked at, and what the last one has left. -/
structure SweepOk (s : Sensor ι) : Prop where
  ready : ∀ i, s.readyAtSweep i = true → s.receivers i = .returned
  lastReady : ∀ i, s.readyAtLastSweep i = true → s.receivers i = .returned
  checked : ∀ it, s.acceptPc = .sweep it →
    ∀ i ∈ s.dronesDataRcvThreads.take it, s.readyAtSweep i = false
  swept : ∀ i ∈ s.dronesDataRcvThreads, s.readyAtLastSweep i = false

omit [DecidableEq ι] in
theorem sweepOk_init : SweepOk ({} : Sensor ι) where
  ready _ h := Bool.noConfusion h
  lastReady _ h := Bool.noConfusion h
  checked _ h := AcceptPc.noConfusion h
  swept _ h := absurd h List.not_mem_nil

theorem ready_iff (pc : ReceiverPc) : pc.ready = true ↔ pc = .returned := by
  cases pc <;> simp [ReceiverPc.ready]

theorem SweepOk.receiver {s s' : Sensor ι} {i : ι} {pc : ReceiverPc} (h : SweepOk s)
    (hMoves : ReceiverMoves s s' i pc) : SweepOk s' := by
  have hFinal : ∀ j, s.receivers j = .returned → s'.receivers j = .returned := by
    intro j hReturned
    have hOther : j ≠ i := by
      rintro rfl
      exact hMoves.notReturned hReturned
    rwa [hMoves.receivers, Function.update_of_ne hOther]
  constructor
  · intro j hReady
    rw [hMoves.readyAtSweep] at hReady
    exact hFinal j (h.ready j hReady)
  · intro j hReady
    rw [hMoves.readyAtLastSweep] at hReady
    exact hFinal j (h.lastReady j hReady)
  · rw [hMoves.acceptPc, hMoves.futures, hMoves.readyAtSweep]
    exact h.checked
  · rw [hMoves.futures, hMoves.readyAtLastSweep]
    exact h.swept

omit [DecidableEq ι] in
theorem sweepOk_startSweep {s : Sensor ι}
    (hLast : ∀ i, s.readyAtLastSweep i = true → s.receivers i = .returned)
    (hSwept : ∀ i ∈ s.dronesDataRcvThreads, s.readyAtLastSweep i = false) :
    SweepOk (startSweep s) where
  ready i hReady := (ready_iff _).mp hReady
  lastReady := hLast
  checked it hPc i hMem := by
    cases hPc
    exact absurd hMem List.not_mem_nil
  swept := hSwept

theorem SweepOk.accept {s s' : Sensor ι} (h : SweepOk s) (hEffect : AcceptEffect s s') :
    SweepOk s' := by
  cases hEffect with
  | goes pc hPc hNext => exact { h with checked := fun it hSweep => absurd hSweep (hNext it) }
  | accepts i hNew =>
    have hNotReady : s.readyAtLastSweep i = false := by
      rw [Bool.eq_false_iff]
      intro hReady
      rw [h.lastReady i hReady] at hNew
      cases hNew
    apply sweepOk_startSweep
    · intro j hReady
      have hOther : j ≠ i := by
        rintro rfl
        cases hNotReady.symm.trans hReady
      dsimp only [setReceiver]
      rw [Function.update_of_ne hOther]
      exact h.lastReady j hReady
    · exact StepSystem.forall_mem_concat h.swept hNotReady
  | timesOut => exact sweepOk_startSweep h.lastReady h.swept
  | erases it i hPc hAt hReady =>
    refine { h with
      checked := ?_, swept := fun j hMem => h.swept j (List.mem_of_mem_eraseIdx hMem) }
    intro k hSweep j hMem
    cases hPc.symm.trans hSweep
    dsimp only at hMem
    obtain ⟨hBound, -⟩ := List.getElem?_eq_some_iff.mp hAt
    have hChecked : (s.dronesDataRcvThreads.take it).length = it :=
      List.length_take_of_le (Nat.le_of_lt hBound)
    rw [List.eraseIdx_eq_take_drop_succ, List.take_left' hChecked] at hMem
    exact h.checked it hPc j hMem
  | keeps it i hPc hAt hReady =>
    refine { h with checked := ?_ }
    intro k hSweep
    cases hSweep
    dsimp only
    rw [List.take_add_one, hAt]
    refine StepSystem.forall_mem_concat (h.checked it hPc) ?_
    rw [Bool.eq_false_iff]
    intro hAtStart
    rw [h.ready i hAtStart] at hReady
    cases hReady
  | swept it hPc hEnd =>
    refine { h with lastReady := h.ready, checked := nofun, swept := ?_ }
    have hAll := h.checked it hPc
    rwa [List.take_of_length_le (List.getElem?_eq_none_iff.mp hEnd)] at hAll

/-- A future that is kept belongs to a receiver that had not returned when the last
complete sweep began. -/
theorem futures_swept {s : Sensor ι} (hRun : sensor.Reaches {} s) :
    ∀ i ∈ s.dronesDataRcvThreads, s.readyAtLastSweep i = false := by
  have hSweep : SweepOk s := by
    refine hRun.invariant SweepOk sweepOk_init ?_
    intro s s' a h hStep
    rcases step_effect hStep with rfl | hAccept | ⟨i, pc, hMoves⟩
    · exact { h with }
    · exact h.accept hAccept
    · exact h.receiver hMoves
  exact hSweep.swept

/-! ## While the system runs -/

/-- No receiver has left its loop, and every connection accepted is still kept. -/
structure AllKept (s : Sensor ι) : Prop where
  inLoop : ∀ i, s.receivers i ≠ .close ∧ s.receivers i ≠ .returned
  future : ∀ i, s.receivers i ≠ .notStarted → i ∈ s.dronesDataRcvThreads
  socket : ∀ i, s.receivers i ≠ .notStarted → s.socketOpen i = true
  silent : ∀ i, s.receivers i = .notStarted → s.recvResults i = []

omit [DecidableEq ι] in
theorem allKept_init : AllKept ({} : Sensor ι) where
  inLoop _ := ⟨nofun, nofun⟩
  future _ hStarted := absurd rfl hStarted
  socket _ hStarted := absurd rfl hStarted
  silent _ _ := rfl

theorem AllKept.receiver {s s' : Sensor ι} {i : ι} {pc : ReceiverPc} (h : AllKept s)
    (hFlag : s.keepRunningSystem = true) (hMoves : ReceiverMoves s s' i pc) : AllKept s' := by
  obtain ⟨hOpen, hReturned, hSocket⟩ := hMoves.staysInLoop hFlag (h.inLoop i).1
  have hStarted : ∀ j, s'.receivers j ≠ .notStarted → s.receivers j ≠ .notStarted := by
    intro j
    rw [hMoves.receivers]
    rcases eq_or_ne j i with rfl | hOther
    · exact fun _ => hMoves.started
    · rw [Function.update_of_ne hOther]
      exact id
  constructor
  · intro j
    rw [hMoves.receivers]
    rcases eq_or_ne j i with rfl | hOther
    · rw [Function.update_self]
      exact ⟨hOpen, hReturned⟩
    · rw [Function.update_of_ne hOther]
      exact h.inLoop j
  · intro j hNext
    rw [hMoves.futures]
    exact h.future j (hStarted j hNext)
  · intro j hNext
    rw [hSocket]
    exact h.socket j (hStarted j hNext)
  · intro j hNew
    have hOther : j ≠ i := by
      rintro rfl
      rw [hMoves.receivers, Function.update_self] at hNew
      exact hMoves.nextStarted hNew
    rw [hMoves.receivers, Function.update_of_ne hOther] at hNew
    rw [hMoves.results j hOther]
    exact h.silent j hNew

theorem AllKept.accept {s s' : Sensor ι} (h : AllKept s) (hEffect : AcceptEffect s s') :
    AllKept s' := by
  cases hEffect with
  | accepts i hNew =>
    have hMembers : ∀ j, Function.update s.receivers i .test j ≠ .notStarted →
        j ∈ s.dronesDataRcvThreads ++ [i] ∧ Function.update s.socketOpen i true j = true := by
      intro j hStarted
      rcases eq_or_ne j i with rfl | hOther
      · exact ⟨List.mem_concat_self, Function.update_self _ _ _⟩
      · rw [Function.update_of_ne hOther] at hStarted ⊢
        exact ⟨List.mem_append_left _ (h.future j hStarted), h.socket j hStarted⟩
    refine ⟨?_, fun j hStarted => (hMembers j hStarted).1,
      fun j hStarted => (hMembers j hStarted).2, ?_⟩
    · intro j
      dsimp only [startSweep, setReceiver]
      rcases eq_or_ne j i with rfl | hOther
      · rw [Function.update_self]
        exact ⟨nofun, nofun⟩
      · rw [Function.update_of_ne hOther]
        exact h.inLoop j
    · intro j hSilent
      dsimp only [startSweep, setReceiver] at hSilent ⊢
      rcases eq_or_ne j i with rfl | hOther
      · exact h.silent j hNew
      · rw [Function.update_of_ne hOther] at hSilent
        exact h.silent j hSilent
  | erases it i hPc hAt hReady => exact absurd ((ready_iff _).mp hReady) (h.inLoop i).2
  | _ => exact ⟨h.inLoop, h.future, h.socket, h.silent⟩

theorem allKept_of_reaches {s : Sensor ι} (hRun : sensor.Reaches {} s)
    (hFlag : s.keepRunningSystem = true) : AllKept s := by
  refine hRun.invariant (fun s => s.keepRunningSystem = true → AllKept s) (fun _ => allKept_init) ?_
    hFlag
  intro s s' a h hStep hFlag
  rcases step_effect hStep with rfl | hAccept | ⟨i, pc, hMoves⟩
  · cases hFlag
  · rw [hAccept.keepRunningSystem] at hFlag
    exact (h hFlag).accept hAccept
  · have hBefore : s.keepRunningSystem = true := by rwa [← hMoves.keepRunningSystem]
    exact (h hBefore).receiver hBefore hMoves

/-! ## The loop on a closed connection -/

section

variable {s₀ s : Sensor ι} {i : ι}

theorem recv_zero_reaches (hReach : sensor.Reaches s₀ s) (hFlag : s.keepRunningSystem = true)
    (hPc : s.receivers i = .recv) :
    ∃ s', sensor.Reaches s₀ s' ∧ s'.keepRunningSystem = true ∧
      s'.recvResults i = s.recvResults i ++ [0] := by
  have hEnabled : s.receivers i = .recv ∧ (0 : ℤ) ≤ 0 ∧ (0 ∈ s.recvResults i → (0 : ℤ) = 0) :=
    ⟨hPc, Int.le_refl 0, fun _ => rfl⟩
  have hStep : sensor.step s (.recvNothing i 0) = some (setReceiver (logRecv s i 0) i .test) :=
    if_pos hEnabled
  exact ⟨_, hReach.step (.recvNothing i 0) trivial hStep, hFlag, Function.update_self _ _ _⟩

theorem test_reaches (hReach : sensor.Reaches s₀ s) (hFlag : s.keepRunningSystem = true)
    (hPc : s.receivers i = .test) :
    ∃ s', sensor.Reaches s₀ s' ∧ s'.keepRunningSystem = true ∧
      s'.recvResults i = s.recvResults i ++ [0] := by
  have hStep : sensor.step s (.receiverTest i) = some (setReceiver s i .recv) := by
    simp only [sensor, step, acceptStep, receiverStep, if_pos hPc, if_pos hFlag, Option.none_or]
  have hNext := hReach.step (.receiverTest i) trivial hStep
  have hRecv := recv_zero_reaches hNext hFlag (Function.update_self _ _ _)
  exact hRecv

/-- While the system runs, a receiver comes to one more call of `recv`, also behind
a 0, and 0 is what that call may return. -/
theorem recv_called_again (hReach : sensor.Reaches {} s) (hFlag : s.keepRunningSystem = true)
    (hStarted : s.receivers i ≠ .notStarted) :
    ∃ s', sensor.Reaches {} s' ∧ s'.keepRunningSystem = true ∧
      s'.recvResults i = s.recvResults i ++ [0] := by
  have hInLoop := (allKept_of_reaches hReach hFlag).inLoop i
  cases hPc : s.receivers i with
  | notStarted => exact absurd hPc hStarted
  | test => exact test_reaches hReach hFlag hPc
  | recv => exact recv_zero_reaches hReach hFlag hPc
  | pushData dataChunk =>
    have hStep : sensor.step s (.pushData i) = some { setReceiver s i .test with
        sharedRawDataManager := s.sharedRawDataManager.pushData dataChunk } := by
      simp only [sensor, step, acceptStep, receiverStep, hPc, Option.none_or]
    have hNext := hReach.step (.pushData i) trivial hStep
    have hAgain := test_reaches hNext hFlag (Function.update_self _ _ _)
    exact hAgain
  | close => exact absurd hPc hInLoop.1
  | returned => exact absurd hPc hInLoop.2

end

/-! ## Closed connections -/

/-- What becomes of a connection on which `recv` has returned 0. -/
structure Released (s : Sensor ι) : Prop where
  recvNoMore : ∀ i, 0 ∉ (s.recvResults i).dropLast
  leaves : ∀ i, 0 ∈ s.recvResults i → s.receivers i = .close ∨ s.receivers i = .returned
  closes : ∀ i, s.receivers i = .returned → s.socketOpen i = false
  keepsOpen : ∀ i, s.receivers i ≠ .notStarted → 0 ∉ s.recvResults i → i ∈ s.dronesDataRcvThreads
  keepsOnly : ∀ i ∈ s.dronesDataRcvThreads,
    0 ∉ s.recvResults i ∨ s.receivers i ≠ .returned ∨ s.readyAtLastSweep i = false

/-- So a 0 is followed by another call of `recv`: `recvNoMore` fails. -/
theorem zero_not_last {s : Sensor ι} {i : ι} (hReach : sensor.Reaches {} s)
    (hFlag : s.keepRunningSystem = true) (hZero : 0 ∈ s.recvResults i) :
    ∃ s', sensor.Reaches {} s' ∧ s'.keepRunningSystem = true ∧ 0 ∈ (s'.recvResults i).dropLast := by
  have hStarted : s.receivers i ≠ .notStarted := by
    intro hNew
    rw [(allKept_of_reaches hReach hFlag).silent i hNew] at hZero
    cases hZero
  obtain ⟨s', hNext, hRuns, hResults⟩ := recv_called_again hReach hFlag hStarted
  refine ⟨s', hNext, hRuns, ?_⟩
  rwa [hResults, List.dropLast_concat]

/-- While the system runs, closed connections are released exactly as long as there
are none. -/
theorem released_iff_none_closed (s : Sensor ι) (hRun : sensor.Reaches {} s)
    (hFlag : s.keepRunningSystem = true) : Released s ↔ ∀ i, 0 ∉ s.recvResults i := by
  have hKept := allKept_of_reaches hRun hFlag
  constructor
  · intro h i hZero
    rcases h.leaves i hZero with hClose | hReturned
    · exact (hKept.inLoop i).1 hClose
    · exact (hKept.inLoop i).2 hReturned
  · intro hNone
    constructor
    · intro i hZero
      exact hNone i (List.mem_of_mem_dropLast hZero)
    · intro i hZero
      exact absurd hZero (hNone i)
    · intro i hReturned
      exact absurd hReturned (hKept.inLoop i).2
    · intro i hStarted _
      exact hKept.future i hStarted
    · intro i _
      exact .inl (hNone i)

/-- A connection on which one byte has arrived, and no end. -/
theorem released_iff_none_closed_one_byte :
    ∃ s : Sensor Unit, s.recvResults () = [1] ∧ s.dronesDataRcvThreads = [()] ∧ Released s := by
  have hRun := sensor.reachesVia_refl (fun _ _ => True) ({} : Sensor Unit)
  have hRun := hRun.step Action.acceptTest trivial rfl
  have hRun := hRun.step (Action.acceptConnection ()) trivial rfl
  have hRun := hRun.step (Action.receiverTest ()) trivial rfl
  have hRun := hRun.step (Action.recvData () [7]) trivial rfl
  have hNone : ∀ i : Unit, (0 : ℤ) ∉ [(1 : ℤ)] := by decide
  exact ⟨_, rfl, rfl, (released_iff_none_closed _ hRun rfl).mpr hNone⟩

/-- The receiver goes round its loop and calls `recv` on the closed connection. -/
theorem not_released :
    ¬∀ s : Sensor Unit, sensor.Reaches {} s → s.keepRunningSystem = true → Released s := by
  intro h
  have hRun := sensor.reachesVia_refl (fun _ _ => True) ({} : Sensor Unit)
  have hRun := hRun.step Action.acceptTest trivial rfl
  have hRun := hRun.step (Action.acceptConnection ()) trivial rfl
  have hRun := hRun.step (Action.receiverTest ()) trivial rfl
  have hRun := hRun.step (Action.recvNothing () 0) trivial rfl
  have hRun := hRun.step (Action.receiverTest ()) trivial rfl
  have hRun := hRun.step (Action.recvNothing () 0) trivial rfl
  have hAgain : (0 : ℤ) ∉ [(0 : ℤ)] := (h _ hRun rfl).recvNoMore ()
  exact hAgain (List.mem_singleton_self _)

end CounterDroneServer.Connections

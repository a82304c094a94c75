import CounterDroneServer.ThreadsSharedDataManager.Sections

/-!
# Exactly-once delivery through the queue

What the pops handed out, in the order in which they returned, and then the
queue are the pushed items in their order. A pop that returned `false` found the
queue empty and changed nothing.
-/

set_option autoImplicit false

namespace CounterDroneServer.ThreadsSharedDataManager

universe u v

variable {τ : Type u} {T : Type v}

namespace PopCall

/-- What the caller's variable received, if the call returned `true`. -/
def handed : PopCall T → List T
  | .popDataWithTimeout _ item => [item]
  | .popAll given items => items.drop given.length

def Unchanged : PopCall T → Prop
  | .popDataWithTimeout given item => item = given
  | .popAll given items => items = given

/-- A vector keeps what it already held. -/
def Appends : PopCall T → Prop
  | .popDataWithTimeout _ _ => True
  | .popAll given items => given <+: items

end PopCall

namespace Return

def handed (r : Return T) : List T := if r.result then r.call.handed else []

structure Correct (r : Return T) : Prop where
  appended : r.result = true → r.call.Appends
  denied : r.result = false →
    r.queueAtLock = [] ∧ r.queueAtReturn = [] ∧ r.call.Unchanged

end Return

namespace Pc

def holdsMutex : Pc T → Bool
  | .predicate _ _ _ | .shutdownCheck _ _ _ | .takeData _ _ _ => true
  | _ => false

/-- What a thread in the middle of a pop knows of its variable and the queue. -/
def Sound (queue : List T) : Pc T → Prop
  | .lock call | .asleep call => call.Unchanged
  | .predicate call _ queueAtLock => call.Unchanged ∧ queueAtLock = queue
  | .shutdownCheck call wokeUpWithData queueAtLock | .takeData call wokeUpWithData queueAtLock =>
    call.Unchanged ∧ queueAtLock = queue ∧ (wokeUpWithData = false → queue = [])
  | _ => True

/-- Only a thread inside a section relies on the queue. -/
theorem Sound.of_outside {pc : Pc T} {queue queue' : List T} (hOutside : pc.holdsMutex = false)
    (h : pc.Sound queue) : pc.Sound queue' := by
  cases pc with
  | lock call => exact h
  | asleep call => exact h
  | predicate call timedOut queueAtLock => cases hOutside
  | shutdownCheck call wokeUpWithData queueAtLock => cases hOutside
  | takeData call wokeUpWithData queueAtLock => cases hOutside
  | _ => trivial

end Pc

structure ExactlyOnce (s : Threads τ T) : Prop where
  fifo : s.returns.flatMap Return.handed ++ s.manager.sharedData = s.pushed
  correct : ∀ r ∈ s.returns, r.Correct
  owner : ∀ i, (s.pc i).holdsMutex = true → s.mutex = some i
  sound : ∀ i, (s.pc i).Sound s.manager.sharedData

namespace ExactlyOnce

theorem init : ExactlyOnce ({} : Threads τ T) where
  fifo := rfl
  correct := by simp
  owner := by simp [Pc.holdsMutex]
  sound := by simp [Pc.Sound]

/-- While the mutex is free or owned by `i`, no other thread is in a section. -/
theorem others_outside {s : Threads τ T} (h : ExactlyOnce s) {i : τ}
    (hMutex : s.mutex = none ∨ (s.pc i).holdsMutex = true) :
    ∀ j, j ≠ i → (s.pc j).holdsMutex = false := by
  intro j hOther
  rw [← Bool.not_eq_true]
  intro hHolds
  have hOwner := h.owner j hHolds
  rcases hMutex with hFree | hMine
  · rw [hFree] at hOwner
    cases hOwner
  · rw [h.owner i hMine] at hOwner
    exact hOther (Option.some.inj hOwner).symm

variable [DecidableEq τ] {s s' : Threads τ T} {i : τ} {pc' : Pc T}

/-- A thread that is alone in its section moves; the mutex, the queue and the
logs may change with it. -/
theorem section_move (h : ExactlyOnce s)
    (hMutex : s.mutex = none ∨ (s.pc i).holdsMutex = true)
    (hPc : s'.pc = Function.update s.pc i pc')
    (hOwner : pc'.holdsMutex = true → s'.mutex = some i)
    (hSound : pc'.Sound s'.manager.sharedData)
    (hFifo : s'.returns.flatMap Return.handed ++ s'.manager.sharedData = s'.pushed)
    (hCorrect : ∀ r ∈ s'.returns, r.Correct) : ExactlyOnce s' where
  fifo := hFifo
  correct := hCorrect
  owner := by
    intro j hHolds
    rw [hPc] at hHolds
    rcases eq_or_ne j i with rfl | hOther
    · rw [Function.update_self] at hHolds
      exact hOwner hHolds
    · rw [Function.update_of_ne hOther, h.others_outside hMutex j hOther] at hHolds
      cases hHolds
  sound := by
    intro j
    rw [hPc]
    rcases eq_or_ne j i with rfl | hOther
    · rw [Function.update_self]
      exact hSound
    · rw [Function.update_of_ne hOther]
      exact (h.sound j).of_outside (h.others_outside hMutex j hOther)

/-- A move outside the sections leaves everything else as it is. -/
theorem outside_move (h : ExactlyOnce s) (hOutside : pc'.holdsMutex = false)
    (hSound : pc'.Sound s.manager.sharedData) : ExactlyOnce (s.setPc i pc') where
  fifo := h.fifo
  correct := h.correct
  owner := by
    intro j hHolds
    rcases eq_or_ne j i with rfl | hOther
    · rw [Threads.setPc_self, hOutside] at hHolds
      cases hHolds
    · rw [Threads.setPc_of_ne hOther] at hHolds
      exact h.owner j hHolds
  sound := by
    intro j
    rcases eq_or_ne j i with rfl | hOther
    · rw [Threads.setPc_self]
      exact hSound
    · rw [Threads.setPc_of_ne hOther]
      exact h.sound j

theorem startCall (h : ExactlyOnce s) (hStep : s.startCall i pc' = some s')
    (hOutside : pc'.holdsMutex = false) (hSound : pc'.Sound s.manager.sharedData) :
    ExactlyOnce s' := by
  unfold Threads.startCall at hStep
  split at hStep
  · cases hStep
    exact h.outside_move hOutside hSound
  · cases hStep

/-- The thread leaves its section; what it hands out is what left the queue. -/
theorem returnFrom (h : ExactlyOnce s) (hMine : (s.pc i).holdsMutex = true) {queue' : List T}
    {call : PopCall T} {result : Bool} {queueAtLock : List T}
    (hCorrect : Return.Correct ⟨call, result, queueAtLock, queue'⟩)
    (hHanded : Return.handed ⟨call, result, queueAtLock, queue'⟩ ++ queue' =
      s.manager.sharedData) :
    ExactlyOnce (Threads.returnFrom { s with manager := ⟨queue'⟩ } i call result queueAtLock) := by
  refine h.section_move (.inr hMine) rfl (by simp [Pc.holdsMutex]) trivial ?_ ?_
  · calc
      (s.returns ++ [(⟨call, result, queueAtLock, queue'⟩ : Return T)]).flatMap Return.handed ++
          queue' =
          s.returns.flatMap Return.handed ++
            (Return.handed ⟨call, result, queueAtLock, queue'⟩ ++ queue') := by simp
      _ = s.pushed := by rw [hHanded, h.fifo]
  · exact StepSystem.forall_mem_concat h.correct hCorrect

/-- A return with `false` out of a section on the empty queue. -/
theorem deny (h : ExactlyOnce s) (hMine : (s.pc i).holdsMutex = true) {call : PopCall T}
    (hUnchanged : call.Unchanged) (hEmpty : s.manager.sharedData = []) :
    ExactlyOnce (s.returnFrom i call false s.manager.sharedData) := by
  have hCorrect : Return.Correct (T := T)
      ⟨call, false, s.manager.sharedData, s.manager.sharedData⟩ := by
    constructor
    · intro hTrue
      cases hTrue
    · intro _
      exact ⟨hEmpty, hEmpty, hUnchanged⟩
  exact h.returnFrom hMine hCorrect (by simp [Return.handed])

/-! ## The steps -/

theorem pushData (h : ExactlyOnce s) (hStep : step s (.pushData i) = some s') :
    ExactlyOnce s' := by
  simp only [step] at hStep
  split at hStep
  · next item hPc hFree =>
    cases hStep
    refine h.section_move (.inl hFree) rfl (by simp [Pc.holdsMutex]) trivial ?_ h.correct
    calc
      s.returns.flatMap Return.handed ++ (s.manager.sharedData ++ [item]) =
          s.returns.flatMap Return.handed ++ s.manager.sharedData ++ [item] :=
        (List.append_assoc ..).symm
      _ = s.pushed ++ [item] := by rw [h.fifo]
  · cases hStep

/-- A thread gets the mutex, first or again after its sleep. -/
theorem acquire (h : ExactlyOnce s) (hFree : s.mutex = none) {call : PopCall T}
    (hUnchanged : call.Unchanged) (timedOut : Bool) :
    ExactlyOnce { s.setPc i (.predicate call timedOut s.manager.sharedData) with
      mutex := some i } := by
  apply h.section_move (.inl hFree) rfl
  · intro _
    rfl
  · exact ⟨hUnchanged, rfl⟩
  · exact h.fifo
  · exact h.correct

theorem lock (h : ExactlyOnce s) (hStep : step s (.lock i) = some s') : ExactlyOnce s' := by
  simp only [step] at hStep
  split at hStep
  · next call hPc hFree =>
    cases hStep
    have hSound := h.sound i
    rw [hPc] at hSound
    exact h.acquire hFree hSound false
  · cases hStep

theorem wake (h : ExactlyOnce s) {timedOut : Bool} (hStep : step s (.wake i timedOut) = some s') :
    ExactlyOnce s' := by
  simp only [step] at hStep
  split at hStep
  · next call hPc hFree =>
    split at hStep
    · cases hStep
    · cases hStep
      have hSound := h.sound i
      rw [hPc] at hSound
      exact h.acquire hFree hSound timedOut
  · cases hStep

/-- A thread in its section goes on to another place of it. -/
theorem stay (h : ExactlyOnce s) (hMine : (s.pc i).holdsMutex = true)
    (hSound : pc'.Sound s.manager.sharedData) : ExactlyOnce (s.setPc i pc') := by
  apply h.section_move (.inr hMine) rfl
  · intro _
    exact h.owner i hMine
  · exact hSound
  · exact h.fifo
  · exact h.correct

theorem testPredicate (h : ExactlyOnce s) (hStep : step s (.testPredicate i) = some s') :
    ExactlyOnce s' := by
  simp only [step] at hStep
  split at hStep
  · next call timedOut queueAtLock hPc =>
    have hMine : (s.pc i).holdsMutex = true := by rw [hPc, Pc.holdsMutex]
    have hSound := h.sound i
    rw [hPc] at hSound
    obtain ⟨hUnchanged, hQueue⟩ := hSound
    split at hStep
    · cases hStep
      exact h.stay hMine ⟨hUnchanged, hQueue, by simp⟩
    · next hAsleep =>
      have hEmpty : s.manager.sharedData = [] := by
        simp only [wakes, Bool.or_eq_true, not_or] at hAsleep
        simpa using hAsleep.1
      split at hStep
      · cases hStep
        exact h.stay hMine ⟨hUnchanged, hQueue, fun _ => hEmpty⟩
      · cases hStep
        exact h.section_move (.inr hMine) rfl (by simp [Pc.holdsMutex]) hUnchanged h.fifo h.correct
  · cases hStep

theorem checkShutdown (h : ExactlyOnce s) (hStep : step s (.checkShutdown i) = some s') :
    ExactlyOnce s' := by
  simp only [step] at hStep
  split at hStep
  · next call wokeUpWithData queueAtLock hPc =>
    have hMine : (s.pc i).holdsMutex = true := by rw [hPc, Pc.holdsMutex]
    have hSound := h.sound i
    rw [hPc] at hSound
    obtain ⟨hUnchanged, rfl, hWoke⟩ := hSound
    split at hStep
    · next hShutdown =>
      have hEmpty : s.manager.sharedData = [] := by
        simp only [Bool.and_eq_true] at hShutdown
        simpa using hShutdown.2
      cases hStep
      exact h.deny hMine hUnchanged hEmpty
    · cases hStep
      exact h.stay hMine ⟨hUnchanged, rfl, hWoke⟩
  · cases hStep

theorem takeData (h : ExactlyOnce s) (hStep : step s (.takeData i) = some s') :
    ExactlyOnce s' := by
  simp only [step] at hStep
  split at hStep
  · next call wokeUpWithData queueAtLock hPc =>
    have hMine : (s.pc i).holdsMutex = true := by rw [hPc, Pc.holdsMutex]
    have hSound := h.sound i
    rw [hPc] at hSound
    obtain ⟨hUnchanged, rfl, hWoke⟩ := hSound
    cases hStep
    cases call with
    | popDataWithTimeout given item =>
      cases wokeUpWithData with
      | false => exact h.deny hMine hUnchanged (hWoke rfl)
      | true =>
        cases hQueue : s.manager.sharedData with
        | nil =>
          simp only [Threads.take, hQueue]
          rw [← hQueue]
          exact h.deny hMine hUnchanged hQueue
        | cons front rest =>
          simp only [Threads.take, hQueue]
          apply h.returnFrom hMine
          · exact ⟨fun _ => trivial, by simp⟩
          · simp [Return.handed, PopCall.handed, hQueue]
    | popAll given items =>
      simp only [Threads.take]
      obtain rfl : items = given := hUnchanged
      apply h.returnFrom hMine
      · refine ⟨fun _ => ?_, by simp⟩
        rw [drain_eq_append]
        exact List.prefix_append ..
      · simp [Return.handed, PopCall.handed, drain_eq_append]
  · cases hStep

theorem preserved {a : Action τ T} (h : ExactlyOnce s) (hStep : step s a = some s') :
    ExactlyOnce s' := by
  cases a with
  | stop =>
    cases hStep
    exact ⟨h.fifo, h.correct, h.owner, h.sound⟩
  | callPushData i item => exact h.startCall hStep rfl trivial
  | callPopDataWithTimeout i item => exact h.startCall hStep rfl rfl
  | callPopAll i items => exact h.startCall hStep rfl rfl
  | pushData i => exact h.pushData hStep
  | notifyOne i =>
    simp only [step] at hStep
    split at hStep
    · cases hStep
      exact h.outside_move rfl trivial
    · cases hStep
  | lock i => exact h.lock hStep
  | testPredicate i => exact h.testPredicate hStep
  | wake i timedOut => exact h.wake hStep
  | checkShutdown i => exact h.checkShutdown hStep
  | takeData i => exact h.takeData hStep

end ExactlyOnce

variable [DecidableEq τ]

/-- In every state that any interleaving reaches. -/
theorem sharedQueue_exactly_once {s : Threads τ T} (h : threads.Reaches {} s) :
    s.returns.flatMap Return.handed ++ s.manager.sharedData = s.pushed ∧
    (∀ r ∈ s.returns, r.result = true → r.call.Appends) ∧
    ∀ r ∈ s.returns, r.result = false →
      r.queueAtLock = [] ∧ r.queueAtReturn = [] ∧ r.call.Unchanged := by
  have hExact : ExactlyOnce s := h.invariant ExactlyOnce .init fun hs hNext => hs.preserved hNext
  refine ⟨hExact.fifo, ?_, ?_⟩
  · intro r hMem
    exact (hExact.correct r hMem).appended
  · intro r hMem
    exact (hExact.correct r hMem).denied

/-- A producer, a batch consumer whose vector holds a 9 already and a consumer
whose wait times out. -/
def batchThenTimeout : List (Action (Fin 3) Nat) :=
  [.callPushData 0 1, .pushData 0, .notifyOne 0, .callPushData 0 2, .pushData 0,
    .callPopAll 1 [9], .lock 1, .testPredicate 1, .stop, .checkShutdown 1, .takeData 1,
    .callPopDataWithTimeout 2 5, .lock 2, .testPredicate 2, .checkShutdown 2]

theorem sharedQueue_exactly_once_batch :
    ∃ s : Threads (Fin 3) Nat,
      s.returns = [⟨.popAll [9] [9, 1, 2], true, [1, 2], []⟩,
        ⟨.popDataWithTimeout 5 5, false, [], []⟩] ∧
      s.pushed = [1, 2] ∧
      s.returns.flatMap Return.handed ++ s.manager.sharedData = s.pushed := by
  have hReaches : threads.Reaches ({} : Threads (Fin 3) Nat)
      ((threads.runActions {} batchThenTimeout).get (by rfl)) :=
    StepSystem.Reaches.runActions .refl (Option.some_get _).symm
  exact ⟨_, rfl, rfl, (sharedQueue_exactly_once hReaches).1⟩

end CounterDroneServer.ThreadsSharedDataManager

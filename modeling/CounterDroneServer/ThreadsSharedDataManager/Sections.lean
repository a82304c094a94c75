import CounterDroneServer.Library.StepSystem
import CounterDroneServer.ThreadsSharedDataManager.Basic

/-!
# Threads on one queue

Any number of threads call `push_data`, `pop_data_with_timeout` and `pop_all`.
The mutex has an owner. What a thread does between two reads of the running flag
is one step, so the flag may fall inside a section.
-/

set_option autoImplicit false

namespace CounterDroneServer.ThreadsSharedDataManager

universe u v

/-- A pop with the caller's variable: its value at the call and its value now. -/
inductive PopCall (T : Type v)
  | popDataWithTimeout (given item : T)
  | popAll (given items : List T)
  deriving DecidableEq

/-- The pcs from `predicate` to `takeData` hold the mutex, and keep the queue as
it was when the thread last got the mutex. -/
inductive Pc (T : Type v)
  | idle
  | pushData (item : T)
  | notifyOne
  | lock (call : PopCall T)
  | predicate (call : PopCall T) (timedOut : Bool) (queueAtLock : List T)
  | asleep (call : PopCall T)
  | shutdownCheck (call : PopCall T) (wokeUpWithData : Bool) (queueAtLock : List T)
  | takeData (call : PopCall T) (wokeUpWithData : Bool) (queueAtLock : List T)

/-- How a pop returned, and the queue at the two ends of its last section. -/
structure Return (T : Type v) where
  call : PopCall T
  result : Bool
  queueAtLock : List T
  queueAtReturn : List T
  deriving DecidableEq

structure Threads (τ : Type u) (T : Type v) where
  keepRunningSystem : Bool := true
  manager : ThreadsSharedDataManager T := {}
  mutex : Option τ := none
  pc : τ → Pc T := fun _ => .idle
  pushed : List T := []
  returns : List (Return T) := []

inductive Action (τ : Type u) (T : Type v)
  | stop
  | callPushData (i : τ) (item : T)
  | callPopDataWithTimeout (i : τ) (item : T)
  | callPopAll (i : τ) (items : List T)
  | pushData (i : τ)
  | notifyOne (i : τ)
  | lock (i : τ)
  | testPredicate (i : τ)
  | wake (i : τ) (timedOut : Bool)
  | checkShutdown (i : τ)
  | takeData (i : τ)

/-- The loop of `pop_all` that moves the queue into the vector. -/
def drain {T : Type v} : List T → List T → List T
  | items, [] => items
  | items, item :: rest => drain (items ++ [item]) rest

/-- Only the wait of `pop_data_with_timeout` has a timeout. -/
def PopCall.mayTimeOut {T : Type v} : PopCall T → Bool
  | .popDataWithTimeout _ _ => true
  | .popAll _ _ => false

variable {τ : Type u} {T : Type v} [DecidableEq τ]

def Threads.setPc (s : Threads τ T) (i : τ) (pc : Pc T) : Threads τ T :=
  { s with pc := Function.update s.pc i pc }

theorem Threads.setPc_self (s : Threads τ T) (i : τ) (pc : Pc T) : (s.setPc i pc).pc i = pc :=
  Function.update_self ..

theorem Threads.setPc_of_ne {i j : τ} (hOther : j ≠ i) (s : Threads τ T) (pc : Pc T) :
    (s.setPc i pc).pc j = s.pc j :=
  Function.update_of_ne hOther ..

def Threads.startCall (s : Threads τ T) (i : τ) (pc : Pc T) : Option (Threads τ T) :=
  match s.pc i with
  | .idle => some (s.setPc i pc)
  | _ => none

/-- The thread leaves the section that it entered with `queueAtLock`. -/
def Threads.returnFrom (s : Threads τ T) (i : τ) (call : PopCall T) (result : Bool)
    (queueAtLock : List T) : Threads τ T :=
  { s.setPc i .idle with
    mutex := none
    returns := s.returns ++ [⟨call, result, queueAtLock, s.manager.sharedData⟩] }

/-- What follows the graceful shutdown check. -/
def Threads.take (s : Threads τ T) (i : τ) (wokeUpWithData : Bool) (queueAtLock : List T) :
    PopCall T → Threads τ T
  | .popDataWithTimeout given item =>
    match wokeUpWithData, s.manager.sharedData with
    | true, front :: rest =>
      Threads.returnFrom { s with manager := ⟨rest⟩ } i (.popDataWithTimeout given front) true
        queueAtLock
    | _, _ => s.returnFrom i (.popDataWithTimeout given item) false queueAtLock
  | .popAll given items =>
    Threads.returnFrom { s with manager := ⟨[]⟩ } i
      (.popAll given (drain items s.manager.sharedData)) true queueAtLock

/-- A sleeping thread may wake at any time: by a notification, spuriously or,
with `timedOut`, at its timeout. -/
def step (s : Threads τ T) : Action τ T → Option (Threads τ T)
  | .stop => some { s with keepRunningSystem := false }
  | .callPushData i item => s.startCall i (.pushData item)
  | .callPopDataWithTimeout i item => s.startCall i (.lock (.popDataWithTimeout item item))
  | .callPopAll i items => s.startCall i (.lock (.popAll items items))
  | .pushData i =>
    match s.pc i, s.mutex with
    | .pushData item, none =>
      some { s.setPc i .notifyOne with
        manager := s.manager.pushData item, pushed := s.pushed ++ [item] }
    | _, _ => none
  | .notifyOne i =>
    match s.pc i with
    | .notifyOne => some (s.setPc i .idle)
    | _ => none
  | .lock i =>
    match s.pc i, s.mutex with
    | .lock call, none =>
      some { s.setPc i (.predicate call false s.manager.sharedData) with mutex := some i }
    | _, _ => none
  | .testPredicate i =>
    match s.pc i with
    | .predicate call timedOut queueAtLock =>
      if s.manager.wakes s.keepRunningSystem then
        some (s.setPc i (.shutdownCheck call true queueAtLock))
      else if timedOut then some (s.setPc i (.shutdownCheck call false queueAtLock))
      else some { s.setPc i (.asleep call) with mutex := none }
    | _ => none
  | .wake i timedOut =>
    match s.pc i, s.mutex with
    | .asleep call, none =>
      if timedOut && !call.mayTimeOut then none
      else some { s.setPc i (.predicate call timedOut s.manager.sharedData) with mutex := some i }
    | _, _ => none
  | .checkShutdown i =>
    match s.pc i with
    | .shutdownCheck call wokeUpWithData queueAtLock =>
      if !s.keepRunningSystem && s.manager.sharedData.isEmpty then
        some (s.returnFrom i call false queueAtLock)
      else some (s.setPc i (.takeData call wokeUpWithData queueAtLock))
    | _ => none
  | .takeData i =>
    match s.pc i with
    | .takeData call wokeUpWithData queueAtLock =>
      some (s.take i wokeUpWithData queueAtLock call)
    | _ => none

/-- The threads that share one queue. -/
def threads : StepSystem (Threads τ T) (Action τ T) := ⟨step⟩

theorem drain_eq_append (items queue : List T) : drain items queue = items ++ queue := by
  induction queue generalizing items with
  | nil => simp [drain]
  | cons item rest ih => simp [drain, ih]

/-- A section of `pop_all` on an empty vector does what the one step `popAll`
does. -/
theorem popAll_section {s : Threads τ T} {i : τ} {wokeUpWithData : Bool} {queueAtLock : List T}
    (hPc : s.pc i = .shutdownCheck (.popAll [] []) wokeUpWithData queueAtLock)
    {popped : Option (List T)} {rest : ThreadsSharedDataManager T}
    (hPop : s.manager.popAll s.keepRunningSystem = (popped, rest)) :
    ∃ s' : Threads τ T, threads.Reaches s s' ∧ s'.pc i = .idle ∧ s'.manager = rest ∧
      s'.returns = s.returns ++
        [⟨.popAll [] (popped.getD []), popped.isSome, queueAtLock, rest.sharedData⟩] := by
  unfold ThreadsSharedDataManager.popAll at hPop
  split at hPop
  · next hShutdown =>
    cases hPop
    have hCheck : threads.step s (.checkShutdown i) =
        some (s.returnFrom i (.popAll [] []) false queueAtLock) := by
      simp only [threads, step, hPc]
      exact if_pos hShutdown
    exact ⟨_, .step _ .refl trivial hCheck, Threads.setPc_self s i .idle, rfl, rfl⟩
  · next hData =>
    cases hPop
    have hCheck : threads.step s (.checkShutdown i) =
        some (s.setPc i (.takeData (.popAll [] []) wokeUpWithData queueAtLock)) := by
      simp only [threads, step, hPc]
      exact if_neg hData
    have hTake : threads.step
        (s.setPc i (.takeData (.popAll [] []) wokeUpWithData queueAtLock)) (.takeData i) =
        some (Threads.take (s.setPc i (.takeData (.popAll [] []) wokeUpWithData queueAtLock)) i
          wokeUpWithData queueAtLock (.popAll [] [])) := by
      simp only [threads, step, Threads.setPc_self]
    refine ⟨_, .step _ (.step _ .refl trivial hCheck) trivial hTake, ?_, rfl, ?_⟩
    · exact Threads.setPc_self _ i .idle
    · simp only [Threads.take, drain_eq_append, List.nil_append]
      rfl

end CounterDroneServer.ThreadsSharedDataManager

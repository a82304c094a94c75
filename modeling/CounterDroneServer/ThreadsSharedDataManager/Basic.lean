import CounterDroneServer.Generals

/-!
# The queue between two threads

`push_data` and the body of `pop_all` run under the mutex, each is one step.
The condition variable is modelled where threads sleep on it.
-/

set_option autoImplicit false

namespace CounterDroneServer

universe u

structure ThreadsSharedDataManager (T : Type u) where
  sharedData : List T := []

namespace ThreadsSharedDataManager

variable {T : Type u}

def pushData (m : ThreadsSharedDataManager T) (item : T) : ThreadsSharedDataManager T :=
  ⟨m.sharedData ++ [item]⟩

/-- The predicate of the wait in `pop_all`. -/
def wakes (m : ThreadsSharedDataManager T) (keepRunningSystem : Bool) : Bool :=
  !m.sharedData.isEmpty || !keepRunningSystem

/-- `pop_all` behind its wait: the items, if it returns `true`. -/
def popAll (m : ThreadsSharedDataManager T) (keepRunningSystem : Bool) :
    Option (List T) × ThreadsSharedDataManager T :=
  if !keepRunningSystem && m.sharedData.isEmpty then (none, m) else (some m.sharedData, ⟨[]⟩)

end ThreadsSharedDataManager

end CounterDroneServer

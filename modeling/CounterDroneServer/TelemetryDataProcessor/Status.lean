import Mathlib.Tactic.Common
import CounterDroneServer.Library.KeyedHistory
import CounterDroneServer.TelemetryPacket

/-!
# The status table

`TelemetryDataProcessor::process_loop`. One iteration gets at most one record
from the queue, stores it under its drone's identifier and then sweeps the whole
table with the clock's value. What the loop prints changes nothing of it.
-/

set_option autoImplicit false

namespace CounterDroneServer

open KeyedHistory

/-- The last record of a drone and whether the drone counts as active. -/
abbrev DroneStatus := Bool × TelemetryData

abbrev DronesStatus := Std.ExtTreeMap BytesArray DroneStatus

namespace TelemetryDataProcessor

def droneActivationTimeoutSec : Nat := 30

/-- What one iteration gets from outside: the popped record, if
`pop_data_with_timeout` returned `true`, and the clock read after it. -/
structure Iteration where
  popped : Option TelemetryData
  currentTimeMs : BitVec 64
  deriving DecidableEq, Repr

def updateStatus (dronesStatus : DronesStatus) (validTelemetryData : TelemetryData) :
    DronesStatus :=
  dronesStatus.insert validTelemetryData.droneId (true, validTelemetryData)

def timePassed (currentTimeMs timestamp : BitVec 64) : BitVec 64 := currentTimeMs - timestamp

def sweepEntry (currentTimeMs : BitVec 64) (status : DroneStatus) : DroneStatus :=
  if (timePassed currentTimeMs status.2.timestamp).toNat > droneActivationTimeoutSec * 1000 then
    (false, status.2)
  else
    (true, status.2)

def sweep (currentTimeMs : BitVec 64) (dronesStatus : DronesStatus) : DronesStatus :=
  dronesStatus.map fun _ status => sweepEntry currentTimeMs status

def find (dronesStatus : DronesStatus) (droneId : BytesArray) : Option DroneStatus :=
  dronesStatus[droneId]?

/-- The entries in the order of the map. -/
def entries (dronesStatus : DronesStatus) : List (BytesArray × DroneStatus) := dronesStatus.toList

def afterPop (dronesStatus : DronesStatus) : Option TelemetryData → DronesStatus
  | some validTelemetryData => updateStatus dronesStatus validTelemetryData
  | none => dronesStatus

def iterate (dronesStatus : DronesStatus) (iteration : Iteration) : DronesStatus :=
  sweep iteration.currentTimeMs (afterPop dronesStatus iteration.popped)

/-- The table after a run of the loop, from the empty table. -/
def processLoop (run : List Iteration) : DronesStatus := run.foldl iterate ∅

def poppedRecords (run : List Iteration) : List TelemetryData := run.filterMap Iteration.popped

/-! ## What one iteration does to one key -/

@[simp] theorem sweepEntry_record (currentTimeMs : BitVec 64) (status : DroneStatus) :
    (sweepEntry currentTimeMs status).2 = status.2 := by
  unfold sweepEntry
  split <;> rfl

theorem sweepEntry_active_iff (currentTimeMs : BitVec 64) (status : DroneStatus) :
    (sweepEntry currentTimeMs status).1 = true ↔
      (currentTimeMs - status.2.timestamp).toNat ≤ 30000 := by
  unfold sweepEntry timePassed droneActivationTimeoutSec
  split
  · next hPassed => exact iff_of_false Bool.false_ne_true (Nat.not_le_of_lt hPassed)
  · next hPassed => exact iff_of_true rfl (Nat.le_of_not_lt hPassed)

/-- The status of a drone whose last record is `record` after a sweep. -/
def statusOf (currentTimeMs : BitVec 64) (record : TelemetryData) : DroneStatus :=
  sweepEntry currentTimeMs (true, record)

@[simp] theorem statusOf_record (currentTimeMs : BitVec 64) (record : TelemetryData) :
    (statusOf currentTimeMs record).2 = record := sweepEntry_record _ _

theorem sweep_getElem? (currentTimeMs : BitVec 64) (dronesStatus : DronesStatus)
    (droneId : BytesArray) :
    (sweep currentTimeMs dronesStatus)[droneId]? =
      (dronesStatus[droneId]?.map Prod.snd).map (statusOf currentTimeMs) := by
  rw [sweep, Std.ExtTreeMap.getElem?_map, Option.map_map]
  congr 1

theorem iterate_getElem? (dronesStatus : DronesStatus) (iteration : Iteration)
    (droneId : BytesArray) :
    (iterate dronesStatus iteration)[droneId]? =
      ((afterPop dronesStatus iteration.popped)[droneId]?.map Prod.snd).map
        (statusOf iteration.currentTimeMs) :=
  sweep_getElem? _ _ _

/-! ## The table as a view of the run -/

/-- The record stored under each key is the last one popped for it. -/
def HoldsLatest (dronesStatus : DronesStatus) (records : List TelemetryData) : Prop :=
  ∀ droneId, dronesStatus[droneId]?.map Prod.snd = latest TelemetryData.droneId droneId records

theorem holdsLatest_empty : HoldsLatest ∅ [] := by
  intro droneId
  simp

theorem HoldsLatest.after_update {dronesStatus : DronesStatus} {records : List TelemetryData}
    (h : HoldsLatest dronesStatus records) (record : TelemetryData) :
    HoldsLatest (updateStatus dronesStatus record) (records ++ [record]) := by
  intro droneId
  rw [updateStatus, Std.ExtTreeMap.getElem?_insert, latest_append_singleton,
    ← h droneId]
  simp only [Std.LawfulEqCmp.compare_eq_iff_eq]
  split <;> rfl

theorem HoldsLatest.after_sweep {dronesStatus : DronesStatus} {records : List TelemetryData}
    (h : HoldsLatest dronesStatus records) (currentTimeMs : BitVec 64) :
    HoldsLatest (sweep currentTimeMs dronesStatus) records := by
  intro droneId
  rw [sweep_getElem?, ← h droneId]
  cases dronesStatus[droneId]? with
  | none => rfl
  | some status => simp

theorem HoldsLatest.after_pop {dronesStatus : DronesStatus} {records : List TelemetryData}
    (h : HoldsLatest dronesStatus records) (popped : Option TelemetryData) :
    HoldsLatest (afterPop dronesStatus popped) (records ++ popped.toList) := by
  cases popped with
  | none => simpa [afterPop] using h
  | some record => exact h.after_update record

theorem poppedRecords_append (run : List Iteration) (iteration : Iteration) :
    poppedRecords (run ++ [iteration]) = poppedRecords run ++ iteration.popped.toList := by
  rw [poppedRecords, List.filterMap_append, poppedRecords]
  cases hPopped : iteration.popped <;> simp [hPopped]

theorem processLoop_append (run : List Iteration) (iteration : Iteration) :
    processLoop (run ++ [iteration]) = iterate (processLoop run) iteration := by
  rw [processLoop, List.foldl_append]
  rfl

theorem processLoop_holdsLatest (run : List Iteration) :
    HoldsLatest (processLoop run) (poppedRecords run) := by
  induction run using List.reverseRecOn with
  | nil => exact holdsLatest_empty
  | append_singleton run iteration ih =>
    rw [processLoop_append, poppedRecords_append]
    exact (ih.after_pop iteration.popped).after_sweep iteration.currentTimeMs

/-- The whole table after an iteration, read off the records popped so far and
the clock's last value. -/
theorem processLoop_getElem? (before : List Iteration) (iteration : Iteration)
    (droneId : BytesArray) :
    (processLoop (before ++ [iteration]))[droneId]? =
      (latest TelemetryData.droneId droneId (poppedRecords (before ++ [iteration]))).map
        (statusOf iteration.currentTimeMs) := by
  have hHolds := (processLoop_holdsLatest before).after_pop iteration.popped
  rw [processLoop_append, iterate_getElem?, hHolds droneId, poppedRecords_append]

/-- An active drone is one whose age, a difference of unsigned 64-bit values, is
within the timeout. -/
theorem statusOf_active_iff (currentTimeMs : BitVec 64) (record : TelemetryData) :
    (statusOf currentTimeMs record).1 = true ↔
      ((currentTimeMs.toNat : ℤ) - record.timestamp.toNat) % 2 ^ 64 ≤ 30000 := by
  have hAge : ((currentTimeMs - record.timestamp).toNat : ℤ) =
      ((currentTimeMs.toNat : ℤ) - record.timestamp.toNat) % 2 ^ 64 := by
    rw [BitVec.toNat_sub]
    omega
  rw [statusOf, sweepEntry_active_iff, ← hAge]
  show (currentTimeMs - record.timestamp).toNat ≤ 30000 ↔ _
  omega

/-- An entry of the table holds the last record popped for its drone and the flag
of that record. -/
theorem processLoop_entry {before : List Iteration} {iteration : Iteration}
    {droneId : BytesArray} {status : DroneStatus}
    (hStatus : (processLoop (before ++ [iteration]))[droneId]? = some status) :
    latest TelemetryData.droneId droneId (poppedRecords (before ++ [iteration])) =
      some status.2 ∧ statusOf iteration.currentTimeMs status.2 = status := by
  rw [processLoop_getElem?] at hStatus
  obtain ⟨last, hLast, rfl⟩ := Option.map_eq_some_iff.mp hStatus
  rw [statusOf_record]
  exact ⟨hLast, rfl⟩

theorem mem_processLoop_iff (run : List Iteration) (droneId : BytesArray) :
    droneId ∈ processLoop run ↔ droneId ∈ (poppedRecords run).map TelemetryData.droneId := by
  rw [← latest_isSome_iff, ← processLoop_holdsLatest run droneId, Option.isSome_map,
    Std.ExtTreeMap.mem_iff_isSome_getElem?]

/-- After every iteration the table is the last-record view of the run. -/
theorem processLoop_last_record_view (before : List Iteration) (iteration : Iteration) :
    let run := before ++ [iteration]
    (∀ droneId, droneId ∈ processLoop run ↔
      ∃ record ∈ poppedRecords run, record.droneId = droneId) ∧
    (∀ droneId active record, (processLoop run)[droneId]? = some (active, record) →
      latest TelemetryData.droneId droneId (poppedRecords run) = some record ∧
      (active = true ↔
        ((iteration.currentTimeMs.toNat : ℤ) - record.timestamp.toNat) % 2 ^ 64 ≤ 30000)) ∧
    (∀ (before' : List Iteration) (iteration' : Iteration),
      SamePerKey TelemetryData.droneId (poppedRecords run)
        (poppedRecords (before' ++ [iteration'])) →
      iteration'.currentTimeMs = iteration.currentTimeMs →
      processLoop run = processLoop (before' ++ [iteration'])) := by
  refine ⟨?_, ?_, ?_⟩
  · intro droneId
    rw [mem_processLoop_iff, List.mem_map]
  · intro droneId active record hStatus
    obtain ⟨hLast, hEq⟩ := processLoop_entry hStatus
    refine ⟨hLast, ?_⟩
    rw [← statusOf_active_iff, hEq]
  · intro before' iteration' hSame hClock
    apply Std.ExtTreeMap.ext_getElem?
    intro droneId
    rw [processLoop_getElem?, processLoop_getElem?, hSame.latest_eq, hClock]

/-- A record of the drone `droneId` whose numeric fields are zero but for its
timestamp. -/
def recordAt (droneId : BytesArray) (timestamp : BitVec 64) : TelemetryData :=
  ⟨droneId, 0, 0, 0, 0, timestamp⟩

theorem processLoop_last_record_view_swapped :
    processLoop [⟨some (recordAt [1] 100), 200⟩, ⟨some (recordAt [2] 150), 300⟩] =
      processLoop [⟨some (recordAt [2] 150), 250⟩, ⟨some (recordAt [1] 100), 300⟩] :=
  (processLoop_last_record_view [⟨some (recordAt [1] 100), 200⟩]
    ⟨some (recordAt [2] 150), 300⟩).2.2 [⟨some (recordAt [2] 150), 250⟩]
    ⟨some (recordAt [1] 100), 300⟩
    (samePerKey_swap TelemetryData.droneId [] [] (by decide)) rfl

end TelemetryDataProcessor

end CounterDroneServer

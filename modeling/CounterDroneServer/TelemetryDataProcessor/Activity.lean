import CounterDroneServer.TelemetryDataProcessor.Status

/-!
# Activity and true age

The sweep judges a drone by an unsigned difference. A timestamp ahead of the
clock makes it wrap around, and a drone that has just sent its data is then
marked inactive.
-/

set_option autoImplicit false

namespace CounterDroneServer.TelemetryDataProcessor

open KeyedHistory

/-- The age of a record exceeds the timeout, in plain integers. -/
def OlderThanTimeout (currentTimeMs : BitVec 64) (record : TelemetryData) : Prop :=
  record.timestamp.toNat + droneActivationTimeoutSec * 1000 < currentTimeMs.toNat

theorem OlderThanTimeout.of_later {currentTimeMs : BitVec 64} {record record' : TelemetryData}
    (hOlder : OlderThanTimeout currentTimeMs record')
    (hLater : record.timestamp.toNat ≤ record'.timestamp.toNat) :
    OlderThanTimeout currentTimeMs record :=
  Nat.lt_of_le_of_lt (Nat.add_le_add_right hLater _) hOlder

/-- The flags of a table are those of the true ages. -/
structure TrueAges (currentTimeMs : BitVec 64) (dronesStatus : DronesStatus) : Prop where
  inactive_older : ∀ (droneId : BytesArray) (record : TelemetryData),
    dronesStatus[droneId]? = some (false, record) → OlderThanTimeout currentTimeMs record
  ahead_active : ∀ (droneId : BytesArray) (active : Bool) (record : TelemetryData),
    dronesStatus[droneId]? = some (active, record) →
    currentTimeMs.toNat ≤ record.timestamp.toNat → active = true
  later_active : ∀ (droneId droneId' : BytesArray) (record record' : TelemetryData)
    (active' : Bool), dronesStatus[droneId]? = some (true, record) →
    dronesStatus[droneId']? = some (active', record') →
    record.timestamp.toNat ≤ record'.timestamp.toNat → active' = true

/-- The unsigned difference does not wrap around, or wraps to an age within the
timeout. -/
def AgeHolds (currentTimeMs : BitVec 64) (record : TelemetryData) : Prop :=
  record.timestamp.toNat ≤ currentTimeMs.toNat ∨
    currentTimeMs.toNat + 2 ^ 64 ≤ record.timestamp.toNat + droneActivationTimeoutSec * 1000

instance (currentTimeMs : BitVec 64) (record : TelemetryData) :
    Decidable (AgeHolds currentTimeMs record) :=
  inferInstanceAs (Decidable (_ ∨ _))

theorem statusOf_active_iff_of_ageHolds {currentTimeMs : BitVec 64} {record : TelemetryData}
    (hAge : AgeHolds currentTimeMs record) :
    (statusOf currentTimeMs record).1 = true ↔ ¬OlderThanTimeout currentTimeMs record := by
  have hClock := currentTimeMs.isLt
  have hTimestamp := record.timestamp.isLt
  unfold AgeHolds OlderThanTimeout droneActivationTimeoutSec at *
  rw [statusOf_active_iff]
  omega

theorem ageHolds_of_active_of_ahead {currentTimeMs : BitVec 64} {record : TelemetryData}
    (hActive : currentTimeMs.toNat ≤ record.timestamp.toNat →
      (statusOf currentTimeMs record).1 = true) :
    AgeHolds currentTimeMs record := by
  have hClock := currentTimeMs.isLt
  have hTimestamp := record.timestamp.isLt
  unfold AgeHolds droneActivationTimeoutSec
  rw [statusOf_active_iff] at hActive
  omega

/-- The table after an iteration shows true ages exactly when the last record of
each drone has a timestamp that the clock has reached, or one so far ahead that
the difference wraps to less than the timeout. -/
theorem processLoop_trueAges_iff (before : List Iteration) (iteration : Iteration) :
    TrueAges iteration.currentTimeMs (processLoop (before ++ [iteration])) ↔
      ∀ droneId record,
        latest TelemetryData.droneId droneId (poppedRecords (before ++ [iteration])) =
          some record →
        AgeHolds iteration.currentTimeMs record := by
  constructor
  · intro hAges droneId record hLatest
    apply ageHolds_of_active_of_ahead
    intro hAhead
    refine hAges.ahead_active droneId _ record ?_ hAhead
    rw [processLoop_getElem?, hLatest, Option.map_some]
    exact congrArg some (Prod.ext rfl (statusOf_record _ _))
  · intro hHolds
    have hFlag : ∀ {droneId : BytesArray} {active : Bool} {record : TelemetryData},
        (processLoop (before ++ [iteration]))[droneId]? = some (active, record) →
        (active = true ↔ ¬OlderThanTimeout iteration.currentTimeMs record) := by
      intro droneId active record hStatus
      obtain ⟨hLatest, hEq⟩ := processLoop_entry hStatus
      rw [← statusOf_active_iff_of_ageHolds (hHolds droneId record hLatest), hEq]
    constructor
    · intro droneId record hStatus
      by_contra hYoung
      exact Bool.false_ne_true ((hFlag hStatus).mpr hYoung)
    · intro droneId active record hStatus hAhead
      apply (hFlag hStatus).mpr
      intro hOlder
      exact absurd hAhead (Nat.not_le_of_lt (Nat.lt_of_le_of_lt (Nat.le_add_right _ _) hOlder))
    · intro droneId droneId' record record' active' hStatus hStatus' hLater
      have hYoung := (hFlag hStatus).mp rfl
      apply (hFlag hStatus').mpr
      intro hOlder
      exact hYoung (hOlder.of_later hLater)

/-- A drone whose clock is one millisecond ahead is inactive right after its
record was stored. -/
theorem processLoop_ahead_inactive :
    ¬TrueAges 1000 (processLoop [⟨some (recordAt [1] 1001), 1000⟩]) := by
  intro hAges
  have hStatus : (processLoop [⟨some (recordAt [1] 1001), 1000⟩])[([1] : BytesArray)]? =
      some (false, recordAt [1] 1001) := by decide +kernel
  exact Bool.false_ne_true (hAges.ahead_active _ _ _ hStatus (by decide))

end CounterDroneServer.TelemetryDataProcessor

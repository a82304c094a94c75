import CounterDroneServer.Library.Binary64
import CounterDroneServer.TelemetryDataProcessor.Activity
import Mathlib.Data.List.Chain

/-!
# What the processor prints

The loop again, with its messages. An alert depends on the popped record alone. A
drone that becomes active again was reported inactive before, and under a steady
clock the two reports take turns.
-/

set_option autoImplicit false

namespace CounterDroneServer.TelemetryDataProcessor

open KeyedHistory

inductive Message
  | becameActive (droneId : BytesArray)
  | altitudeAlert (droneId : BytesArray) (altitude : BitVec 64)
  | speedAlert (droneId : BytesArray) (speed : BitVec 64)
  | inActive (droneId : BytesArray) (timePassed : BitVec 64)
  deriving DecidableEq, Repr

def Message.isAlert : Message → Bool
  | .altitudeAlert _ _ | .speedAlert _ _ => true
  | .becameActive _ | .inActive _ _ => false

/-- `LOG_LEVEL & LogLevel::DEBUG_VALID_PACKETS_BUSSINES_LOGIC`. -/
def debugs (logLevel : BitVec 8) : Bool := logLevel &&& 8 ≠ 0

/-! ## The messages of one iteration -/

def becameActive (logLevel : BitVec 8) (dronesStatus : DronesStatus) (record : TelemetryData) :
    List Message :=
  if debugs logLevel = true ∧ (find dronesStatus record.droneId).map Prod.fst = some false then
    [.becameActive record.droneId]
  else []

def alerts (record : TelemetryData) : List Message :=
  (if Binary64.greaterThan record.altitude 120 then
    [.altitudeAlert record.droneId record.altitude] else []) ++
  (if Binary64.greaterThan record.speed 50 then
    [.speedAlert record.droneId record.speed] else [])

/-- The messages about the popped record, with the table before it is stored. -/
def popMessages (logLevel : BitVec 8) (dronesStatus : DronesStatus) :
    Option TelemetryData → List Message
  | some record => becameActive logLevel dronesStatus record ++ alerts record
  | none => []

def timedOut (currentTimeMs : BitVec 64) (status : DroneStatus) : Prop :=
  (timePassed currentTimeMs status.2.timestamp).toNat > droneActivationTimeoutSec * 1000

instance (currentTimeMs : BitVec 64) (status : DroneStatus) :
    Decidable (timedOut currentTimeMs status) :=
  inferInstanceAs (Decidable (_ > _))

def sweepMessage (logLevel : BitVec 8) (currentTimeMs : BitVec 64)
    (entry : BytesArray × DroneStatus) : Option Message :=
  if timedOut currentTimeMs entry.2 ∧ entry.2.1 = true ∧ debugs logLevel = true then
    some (.inActive entry.1 (timePassed currentTimeMs entry.2.2.timestamp))
  else none

def sweepMessages (logLevel : BitVec 8) (currentTimeMs : BitVec 64) (dronesStatus : DronesStatus) :
    List Message :=
  (entries dronesStatus).filterMap (sweepMessage logLevel currentTimeMs)

def iterationMessages (logLevel : BitVec 8) (dronesStatus : DronesStatus) (iteration : Iteration) :
    List Message :=
  popMessages logLevel dronesStatus iteration.popped ++
    sweepMessages logLevel iteration.currentTimeMs (afterPop dronesStatus iteration.popped)

/-- What a run of the loop prints, from a given table. -/
def messages (logLevel : BitVec 8) : DronesStatus → List Iteration → List Message
  | _, [] => []
  | dronesStatus, iteration :: run =>
    iterationMessages logLevel dronesStatus iteration ++
      messages logLevel (iterate dronesStatus iteration) run

theorem messages_append (logLevel : BitVec 8) (dronesStatus : DronesStatus) (run : List Iteration)
    (iteration : Iteration) :
    messages logLevel dronesStatus (run ++ [iteration]) =
      messages logLevel dronesStatus run ++
        iterationMessages logLevel (run.foldl iterate dronesStatus) iteration := by
  induction run generalizing dronesStatus with
  | nil => exact List.append_nil _
  | cons first run ih =>
    rw [List.cons_append, messages, ih, messages, List.append_assoc]
    rfl

/-! ## Alerts -/

theorem magnitude_120 : Binary64.magnitude 0x405E000000000000 = 120 * Binary64.one := by
  decide +kernel

theorem magnitude_50 : Binary64.magnitude 0x4049000000000000 = 50 * Binary64.one := by
  decide +kernel

theorem isAlert_of_mem_alerts {record : TelemetryData} {message : Message}
    (hMem : message ∈ alerts record) : message.isAlert = true := by
  rcases List.mem_append.mp hMem with hAltitude | hSpeed
  · obtain ⟨-, hMessage⟩ := List.mem_ite_nil_right.mp hAltitude
    rw [List.mem_singleton.mp hMessage]
    rfl
  · obtain ⟨-, hMessage⟩ := List.mem_ite_nil_right.mp hSpeed
    rw [List.mem_singleton.mp hMessage]
    rfl

theorem not_isAlert_of_mem_sweepMessages {logLevel : BitVec 8} {currentTimeMs : BitVec 64}
    {dronesStatus : DronesStatus} {message : Message}
    (hMem : message ∈ sweepMessages logLevel currentTimeMs dronesStatus) :
    message.isAlert = false := by
  obtain ⟨entry, -, hMessage⟩ := List.mem_filterMap.mp hMem
  obtain ⟨-, hMessage⟩ := Option.ite_none_right_eq_some.mp hMessage
  cases hMessage
  rfl

theorem alerts_popMessages (logLevel : BitVec 8) (dronesStatus : DronesStatus)
    (popped : Option TelemetryData) :
    (popMessages logLevel dronesStatus popped).filter Message.isAlert =
      popped.toList.flatMap alerts := by
  cases popped with
  | none => rfl
  | some record =>
    have hAlerts : (alerts record).filter Message.isAlert = alerts record :=
      List.filter_eq_self.mpr fun message hMem => isAlert_of_mem_alerts hMem
    have hActive : (becameActive logLevel dronesStatus record).filter Message.isAlert = [] := by
      unfold becameActive
      split <;> rfl
    rw [popMessages, List.filter_append, hActive, hAlerts]
    exact (List.append_nil _).symm

/-- The alerts of a record in terms of its bits. -/
theorem alerts_eq (record : TelemetryData) :
    alerts record =
      (if 0x405E000000000000 < record.altitude.toNat ∧ record.altitude.toNat ≤ Binary64.infinity then
        [.altitudeAlert record.droneId record.altitude] else []) ++
      (if 0x4049000000000000 < record.speed.toNat ∧ record.speed.toNat ≤ Binary64.infinity then
        [.speedAlert record.droneId record.speed] else []) := by
  have hAltitude := Binary64.greaterThan_iff record.altitude magnitude_120
  have hSpeed := Binary64.greaterThan_iff record.speed magnitude_50
  rw [Nat.cast_ofNat] at hAltitude hSpeed
  unfold alerts
  rw [if_congr hAltitude rfl rfl, if_congr hSpeed rfl rfl]

/-- Over a whole run the alerts are those of the popped records, in their order and
whatever the log level: one for each altitude between 120 and infinity, and one for
each speed between 50 and infinity. -/
theorem alerts_printed (logLevel : BitVec 8) (run : List Iteration) :
    (messages logLevel ∅ run).filter Message.isAlert =
      (poppedRecords run).flatMap fun record =>
        (if 0x405E000000000000 < record.altitude.toNat ∧
            record.altitude.toNat ≤ Binary64.infinity then
          [.altitudeAlert record.droneId record.altitude] else []) ++
        (if 0x4049000000000000 < record.speed.toNat ∧ record.speed.toNat ≤ Binary64.infinity then
          [.speedAlert record.droneId record.speed] else []) := by
  simp only [← alerts_eq]
  induction run using List.reverseRecOn with
  | nil => rfl
  | append_singleton run iteration ih =>
    have hSweep : (sweepMessages logLevel iteration.currentTimeMs
        (afterPop (run.foldl iterate ∅) iteration.popped)).filter Message.isAlert = [] := by
      refine List.filter_eq_nil_iff.mpr fun message hMem hAlert => ?_
      exact Bool.false_ne_true ((not_isAlert_of_mem_sweepMessages hMem).symm.trans hAlert)
    rw [messages_append, List.filter_append, ih, iterationMessages, List.filter_append,
      alerts_popMessages, hSweep, List.append_nil, poppedRecords_append, List.flatMap_append]

/-! ## Reports of activity -/

/-- The reports about a drone: `true` where it became active, `false` where it is
inactive. -/
def report (droneId : BytesArray) : Message → Option Bool
  | .becameActive droneId' => if droneId' = droneId then some true else none
  | .inActive droneId' _ => if droneId' = droneId then some false else none
  | .altitudeAlert _ _ | .speedAlert _ _ => none

def reports (droneId : BytesArray) (printed : List Message) : List Bool :=
  printed.filterMap (report droneId)

theorem reports_append (droneId : BytesArray) (printed printed' : List Message) :
    reports droneId (printed ++ printed') = reports droneId printed ++ reports droneId printed' :=
  List.filterMap_append

theorem reports_alerts (droneId : BytesArray) (record : TelemetryData) :
    reports droneId (alerts record) = [] := by
  refine List.filterMap_eq_nil_iff.mpr fun message hMem => ?_
  have hAlert := isAlert_of_mem_alerts hMem
  cases message with
  | altitudeAlert | speedAlert => rfl
  | becameActive | inActive => cases hAlert

/-- The pop reports the drone when it is in the table as inactive. -/
theorem reports_popMessages (logLevel : BitVec 8) (dronesStatus : DronesStatus)
    (popped : Option TelemetryData) (droneId : BytesArray) :
    reports droneId (popMessages logLevel dronesStatus popped) =
      if debugs logLevel = true ∧ popped.map TelemetryData.droneId = some droneId ∧
          dronesStatus[droneId]?.map Prod.fst = some false then [true] else [] := by
  cases popped with
  | none => simp [popMessages, reports]
  | some record =>
    rw [popMessages, reports_append, reports_alerts, List.append_nil, becameActive, find, Option.map_some]
    by_cases hId : record.droneId = droneId
    · subst hId
      simp only [true_and]
      split
      · simp [reports, report]
      · rfl
    · have hOther : ¬(debugs logLevel = true ∧ some record.droneId = some droneId ∧
          dronesStatus[droneId]?.map Prod.fst = some false) := fun h => hId (Option.some.inj h.2.1)
      rw [if_neg hOther]
      split
      · simp [reports, report, hId]
      · rfl

/-- The sweep reports the drone when it has timed out while it was active. -/
theorem reports_sweepMessages (logLevel : BitVec 8) (currentTimeMs : BitVec 64)
    (dronesStatus : DronesStatus) (droneId : BytesArray) :
    reports droneId (sweepMessages logLevel currentTimeMs dronesStatus) =
      match dronesStatus[droneId]? with
      | some status =>
        if timedOut currentTimeMs status ∧ status.1 = true ∧ debugs logLevel = true then [false]
        else []
      | none => [] := by
  have hOther : ∀ entry : BytesArray × DroneStatus, entry.1 ≠ droneId →
      (sweepMessage logLevel currentTimeMs entry).bind (report droneId) = none := by
    intro entry hId
    unfold sweepMessage
    split
    · simp [report, hId]
    · rfl
  have hNodup : (dronesStatus.toList.map Prod.fst).Nodup := by
    rw [Std.ExtTreeMap.map_fst_toList_eq_keys]
    exact Std.ExtTreeMap.nodup_keys
  rw [reports, sweepMessages, entries, List.filterMap_filterMap, filterMap_entriesOf Prod.fst hOther]
  cases hStatus : dronesStatus[droneId]? with
  | none =>
    have hAbsent : droneId ∉ dronesStatus.toList.map Prod.fst := by
      rw [Std.ExtTreeMap.map_fst_toList_eq_keys, Std.ExtTreeMap.mem_keys,
        Std.ExtTreeMap.mem_iff_isSome_getElem?, hStatus]
      exact Bool.false_ne_true
    rw [entriesOf_eq_nil Prod.fst hAbsent]
    rfl
  | some status =>
    have hMem : (droneId, status) ∈ dronesStatus.toList :=
      Std.ExtTreeMap.mem_toList_iff_getElem?_eq_some.mpr hStatus
    have hEntries : entriesOf Prod.fst droneId dronesStatus.toList = [(droneId, status)] :=
      entriesOf_of_mem Prod.fst hNodup hMem
    rw [hEntries]
    simp only [List.filterMap_cons, List.filterMap_nil, sweepMessage]
    split_ifs
    · simp [report]
    · rfl

/-! ## What one iteration reports about a drone -/

theorem afterPop_getElem? (dronesStatus : DronesStatus) (popped : Option TelemetryData)
    (droneId : BytesArray) :
    (∃ record, popped = some record ∧ record.droneId = droneId ∧
      (afterPop dronesStatus popped)[droneId]? = some (true, record)) ∨
    popped.map TelemetryData.droneId ≠ some droneId ∧
      (afterPop dronesStatus popped)[droneId]? = dronesStatus[droneId]? := by
  cases popped with
  | none => exact .inr ⟨nofun, rfl⟩
  | some record =>
    by_cases hId : record.droneId = droneId
    · refine .inl ⟨record, rfl, hId, ?_⟩
      subst hId
      exact Std.ExtTreeMap.getElem?_insert_self
    · refine .inr ⟨fun hSome => hId (Option.some.inj hSome), ?_⟩
      rw [afterPop, updateStatus, Std.ExtTreeMap.getElem?_insert, if_neg]
      simpa [Std.LawfulEqCmp.compare_eq_iff_eq] using hId

theorem sweepEntry_of_timedOut {currentTimeMs : BitVec 64} {status : DroneStatus}
    (hTimedOut : timedOut currentTimeMs status) :
    sweepEntry currentTimeMs status = (false, status.2) := if_pos hTimedOut

theorem sweepEntry_of_not_timedOut {currentTimeMs : BitVec 64} {status : DroneStatus}
    (hTimedOut : ¬timedOut currentTimeMs status) :
    sweepEntry currentTimeMs status = (true, status.2) := if_neg hTimedOut

/-- The report that the pop adds stands behind one of the drone as inactive. -/
def Announces (before after : Bool) : Prop := before = false ∨ after = false

structure Told (dronesStatus : DronesStatus) (droneId : BytesArray) (told : List Bool) : Prop where
  chain : (true :: told).IsChain Announces
  inactive : ∀ record, dronesStatus[droneId]? = some (false, record) →
    (true :: told).getLast? = some false

theorem isChain_concat {R : Bool → Bool → Prop} {told : List Bool} {next : Bool}
    (hChain : (true :: told).IsChain R)
    (hNext : ∀ last, (true :: told).getLast? = some last → R last next) :
    (true :: (told ++ [next])).IsChain R := by
  rw [← List.cons_append]
  refine hChain.append (List.isChain_singleton next) ?_
  intro last hLast head hHead
  obtain rfl := Option.some.inj hHead
  exact hNext last hLast

theorem getLast?_concat (told : List Bool) (next : Bool) :
    (true :: (told ++ [next])).getLast? = some next := by
  rw [← List.cons_append, List.getLast?_concat]

section

variable {logLevel : BitVec 8} {dronesStatus : DronesStatus} {droneId : BytesArray} {told : List Bool}

theorem Told.pop (h : Told dronesStatus droneId told) (popped : Option TelemetryData) :
    Told (afterPop dronesStatus popped) droneId
      (told ++ reports droneId (popMessages logLevel dronesStatus popped)) := by
  rw [reports_popMessages]
  rcases afterPop_getElem? dronesStatus popped droneId with ⟨record, rfl, hId, hStatus⟩ | ⟨hId, hStatus⟩
  · rw [Option.map_some, hId]
    split
    · rename_i hReturns
      obtain ⟨status, hEntry, hFlag⟩ := Option.map_eq_some_iff.mp hReturns.2.2
      have hInactive : dronesStatus[droneId]? = some (false, status.2) := by
        rw [hEntry, ← hFlag]
      refine ⟨isChain_concat h.chain fun last hLast => .inl ?_, ?_⟩
      · exact Option.some.inj (hLast.symm.trans (h.inactive _ hInactive))
      · intro record' hFalse
        cases hStatus.symm.trans hFalse
    · rw [List.append_nil]
      refine ⟨h.chain, fun record' hFalse => ?_⟩
      cases hStatus.symm.trans hFalse
  · rw [if_neg fun hReturns => hId hReturns.2.1, List.append_nil]
    exact ⟨h.chain, fun record hFalse => h.inactive record (hStatus.symm.trans hFalse)⟩

theorem Told.sweep (hDebug : debugs logLevel = true) (h : Told dronesStatus droneId told)
    (currentTimeMs : BitVec 64) :
    Told (sweep currentTimeMs dronesStatus) droneId
      (told ++ reports droneId (sweepMessages logLevel currentTimeMs dronesStatus)) := by
  have hSwept : (TelemetryDataProcessor.sweep currentTimeMs dronesStatus)[droneId]? =
      dronesStatus[droneId]?.map (sweepEntry currentTimeMs) := Std.ExtTreeMap.getElem?_map
  rw [reports_sweepMessages]
  cases hStatus : dronesStatus[droneId]? with
  | none =>
    rw [hStatus] at hSwept
    refine ⟨by rw [List.append_nil]; exact h.chain, fun record hFalse => ?_⟩
    cases hSwept.symm.trans hFalse
  | some status =>
    rw [hStatus, Option.map_some] at hSwept
    by_cases hTimedOut : timedOut currentTimeMs status
    · by_cases hActive : status.1 = true
      · simp only [hTimedOut, hActive, hDebug, and_self, if_true]
        exact ⟨isChain_concat h.chain fun _ _ => .inr rfl, fun _ _ => getLast?_concat _ _⟩
      · have hInactive : dronesStatus[droneId]? = some (false, status.2) := by
          rw [hStatus, ← Bool.eq_false_of_not_eq_true hActive]
        simp only [hActive, Bool.false_eq_true, and_false, false_and, if_false, List.append_nil]
        exact ⟨h.chain, fun _ _ => h.inactive _ hInactive⟩
    · simp only [hTimedOut, false_and, if_false, List.append_nil]
      refine ⟨h.chain, fun record hFalse => ?_⟩
      rw [hSwept, sweepEntry_of_not_timedOut hTimedOut] at hFalse
      cases hFalse

/-! ## Under a steady clock -/

/-- The clock does not go back, and no popped record is ahead of it. -/
structure SteadyClock (run : List Iteration) : Prop where
  clock : run.Pairwise fun before after => before.currentTimeMs.toNat ≤ after.currentTimeMs.toNat
  reached : ∀ iteration ∈ run, ∀ record ∈ iteration.popped,
    record.timestamp.toNat ≤ iteration.currentTimeMs.toNat

/-- The last report is the drone's flag, and an inactive drone stays timed out. -/
structure Turns (dronesStatus : DronesStatus) (droneId : BytesArray) (told : List Bool) (now : Nat) :
    Prop where
  chain : (true :: told).IsChain (· ≠ ·)
  absent : dronesStatus[droneId]? = none → (true :: told).getLast? = some true
  flag : ∀ active record, dronesStatus[droneId]? = some (active, record) →
    (true :: told).getLast? = some active
  reached : ∀ active record, dronesStatus[droneId]? = some (active, record) →
    record.timestamp.toNat ≤ now
  older : ∀ record, dronesStatus[droneId]? = some (false, record) →
    record.timestamp.toNat + droneActivationTimeoutSec * 1000 < now

theorem Turns.pop (hDebug : debugs logLevel = true) {now later : Nat}
    (h : Turns dronesStatus droneId told now) (hLater : now ≤ later) (popped : Option TelemetryData)
    (hReached : ∀ record ∈ popped, record.timestamp.toNat ≤ later) :
    Turns (afterPop dronesStatus popped) droneId
      (told ++ reports droneId (popMessages logLevel dronesStatus popped)) later := by
  rw [reports_popMessages]
  rcases afterPop_getElem? dronesStatus popped droneId with ⟨record, rfl, hId, hStatus⟩ | ⟨hId, hStatus⟩
  · have hStored : ∀ active record', (afterPop dronesStatus (some record))[droneId]? =
        some (active, record') → active = true ∧ record' = record := by
      intro active record' hEntry
      cases hStatus.symm.trans hEntry
      exact ⟨rfl, rfl⟩
    have turns : ∀ told', (true :: told').IsChain (· ≠ ·) → (true :: told').getLast? = some true →
        Turns (afterPop dronesStatus (some record)) droneId told' later := by
      intro told' hChain hLast
      refine ⟨hChain, fun _ => hLast, ?_, ?_, ?_⟩
      · intro active record' hEntry
        rw [(hStored _ _ hEntry).1, hLast]
      · intro active record' hEntry
        rw [(hStored _ _ hEntry).2]
        exact hReached record rfl
      · intro record' hEntry
        cases (hStored _ _ hEntry).1
    rw [Option.map_some, hId]
    cases hEntry : dronesStatus[droneId]? with
    | none =>
      simp only [hDebug, Option.map_none, reduceCtorEq, and_false, if_false, List.append_nil]
      exact turns _ h.chain (h.absent hEntry)
    | some status =>
      obtain ⟨active, record'⟩ := status
      cases active with
      | true =>
        simp only [hDebug, Option.map_some, Option.some.injEq, Bool.true_eq_false, and_false, if_false,
          List.append_nil]
        exact turns _ h.chain (h.flag _ _ hEntry)
      | false =>
        simp only [hDebug, Option.map_some, and_self, if_true]
        refine turns _ (isChain_concat h.chain fun last hLast => ?_) (getLast?_concat _ _)
        rw [Option.some.inj (hLast.symm.trans (h.flag _ _ hEntry))]
        exact Bool.false_ne_true
  · rw [if_neg fun hReturns => hId hReturns.2.1, List.append_nil]
    refine ⟨h.chain, ?_, ?_, ?_, ?_⟩
    all_goals rw [hStatus]
    · exact h.absent
    · exact h.flag
    · intro active record hEntry
      exact Nat.le_trans (h.reached _ _ hEntry) hLater
    · intro record hEntry
      exact Nat.lt_of_lt_of_le (h.older _ hEntry) hLater

theorem timedOut_iff {currentTimeMs : BitVec 64} {status : DroneStatus}
    (hReached : status.2.timestamp.toNat ≤ currentTimeMs.toNat) :
    timedOut currentTimeMs status ↔
      status.2.timestamp.toNat + droneActivationTimeoutSec * 1000 < currentTimeMs.toNat := by
  unfold timedOut timePassed
  rw [BitVec.toNat_sub_of_le hReached]
  omega

theorem Turns.sweep (hDebug : debugs logLevel = true) (currentTimeMs : BitVec 64)
    (h : Turns dronesStatus droneId told currentTimeMs.toNat) :
    Turns (sweep currentTimeMs dronesStatus) droneId
      (told ++ reports droneId (sweepMessages logLevel currentTimeMs dronesStatus))
      currentTimeMs.toNat := by
  have hSwept : (TelemetryDataProcessor.sweep currentTimeMs dronesStatus)[droneId]? =
      dronesStatus[droneId]?.map (sweepEntry currentTimeMs) := Std.ExtTreeMap.getElem?_map
  rw [reports_sweepMessages]
  cases hStatus : dronesStatus[droneId]? with
  | none =>
    rw [hStatus, Option.map_none] at hSwept
    simp only [List.append_nil]
    refine ⟨h.chain, fun _ => h.absent hStatus, ?_, ?_, ?_⟩
    all_goals
      rw [hSwept]
      nofun
  | some status =>
    obtain ⟨active, record⟩ := status
    have hReached : record.timestamp.toNat ≤ currentTimeMs.toNat := h.reached _ _ hStatus
    have hLast := h.flag _ _ hStatus
    have hIff : timedOut currentTimeMs (active, record) ↔
        record.timestamp.toNat + droneActivationTimeoutSec * 1000 < currentTimeMs.toNat :=
      timedOut_iff hReached
    rw [hStatus, Option.map_some] at hSwept
    by_cases hTimedOut : timedOut currentTimeMs (active, record)
    · rw [sweepEntry_of_timedOut hTimedOut] at hSwept
      have turns : ∀ told', (true :: told').IsChain (· ≠ ·) → (true :: told').getLast? = some false →
          Turns (TelemetryDataProcessor.sweep currentTimeMs dronesStatus) droneId told'
            currentTimeMs.toNat := by
        intro told' hChain hFalse
        refine ⟨hChain, ?_, ?_, ?_, ?_⟩
        all_goals rw [hSwept]
        · nofun
        · rintro _ _ ⟨⟩
          exact hFalse
        · rintro _ _ ⟨⟩
          exact hReached
        · rintro _ ⟨⟩
          exact hIff.mp hTimedOut
      cases active with
      | true =>
        simp only [hTimedOut, hDebug, and_self, if_true]
        refine turns _ (isChain_concat h.chain fun last hTold => ?_) (getLast?_concat _ _)
        rw [Option.some.inj (hTold.symm.trans hLast)]
        nofun
      | false =>
        simp only [Bool.false_eq_true, and_false, false_and, if_false, List.append_nil]
        exact turns _ h.chain hLast
    · rw [sweepEntry_of_not_timedOut hTimedOut] at hSwept
      simp only [hTimedOut, false_and, if_false, List.append_nil]
      -- a drone that was inactive before would have timed out
      have hActive : active = true := by
        by_contra hInactive
        rw [Bool.eq_false_of_not_eq_true hInactive] at hStatus
        exact hTimedOut (hIff.mpr (h.older _ hStatus))
      refine ⟨h.chain, ?_, ?_, ?_, ?_⟩
      all_goals rw [hSwept]
      · nofun
      · rintro _ _ ⟨⟩
        rw [hLast, hActive]
      · rintro _ _ ⟨⟩
        exact hReached
      · nofun

theorem Turns.mono {now later : Nat} (h : Turns dronesStatus droneId told now) (hLater : now ≤ later) :
    Turns dronesStatus droneId told later where
  chain := h.chain
  absent := h.absent
  flag := h.flag
  reached active record hEntry := Nat.le_trans (h.reached active record hEntry) hLater
  older record hEntry := Nat.lt_of_lt_of_le (h.older record hEntry) hLater

theorem told_of_run (hDebug : debugs logLevel = true) (run : List Iteration) :
    Told (processLoop run) droneId (reports droneId (messages logLevel ∅ run)) := by
  induction run using List.reverseRecOn with
  | nil => exact ⟨List.isChain_singleton true, nofun⟩
  | append_singleton run iteration ih =>
    rw [processLoop_append, messages_append, reports_append, iterationMessages, reports_append,
      ← List.append_assoc]
    exact (ih.pop iteration.popped).sweep hDebug iteration.currentTimeMs

theorem turns_of_run (hDebug : debugs logLevel = true) {run : List Iteration}
    (hSteady : SteadyClock run) (now : Nat)
    (hNow : ∀ iteration ∈ run, iteration.currentTimeMs.toNat ≤ now) :
    Turns (processLoop run) droneId (reports droneId (messages logLevel ∅ run)) now := by
  induction run using List.reverseRecOn generalizing now with
  | nil => exact ⟨List.isChain_singleton true, fun _ => rfl, nofun, nofun, nofun⟩
  | append_singleton run iteration ih =>
    obtain ⟨hClock, hReached⟩ := hSteady
    obtain ⟨hBefore, -, hOrder⟩ := List.pairwise_append.mp hClock
    have hRun : Turns (processLoop run) droneId (reports droneId (messages logLevel ∅ run))
        iteration.currentTimeMs.toNat :=
      ih ⟨hBefore, fun iteration hMem => hReached iteration (List.mem_append_left _ hMem)⟩ _
        fun before hMem => hOrder before hMem iteration (List.mem_singleton_self _)
    have hHere : iteration ∈ run ++ [iteration] := List.mem_append_right _ (List.mem_singleton_self _)
    have hPopped := hRun.pop hDebug (Nat.le_refl _) iteration.popped (hReached iteration hHere)
    rw [processLoop_append, messages_append, reports_append, iterationMessages, reports_append,
      ← List.append_assoc]
    exact (hPopped.sweep hDebug iteration.currentTimeMs).mono (hNow iteration hHere)

end

/-- A drone is never reported to have become active again unless its last report was
inactive. Under a steady clock the two reports take turns, and the last one is what
the table says of the drone. -/
theorem reports_of_run (logLevel : BitVec 8) (hDebug : debugs logLevel = true) (run : List Iteration)
    (droneId : BytesArray) :
    let told := reports droneId (messages logLevel ∅ run)
    (true :: told).IsChain (fun before after => before = false ∨ after = false) ∧
      (SteadyClock run → (true :: told).IsChain (· ≠ ·) ∧
        ∀ active record, (processLoop run)[droneId]? = some (active, record) →
          (true :: told).getLast? = some active) := by
  intro told
  refine ⟨(told_of_run hDebug run).chain, fun hSteady => ?_⟩
  obtain ⟨hChain, -, hFlag, -, -⟩ := turns_of_run hDebug hSteady (2 ^ 64) fun iteration _ =>
    Nat.le_of_lt iteration.currentTimeMs.isLt
  exact ⟨hChain, hFlag⟩

/-- A drone is silent for more than half a minute and comes back. -/
theorem reports_of_run_silent :
    let run : List Iteration := [⟨some (recordAt [1] 1000), 1000⟩, ⟨none, 40000⟩,
      ⟨some (recordAt [1] 40500), 40600⟩]
    reports [1] (messages 8 ∅ run) = [false, true] ∧
      (true :: reports [1] (messages 8 ∅ run)).IsChain (· ≠ ·) := by
  intro run
  have hReports : reports [1] (messages 8 ∅ run) = [false, true] := by decide +kernel
  have hSteady : SteadyClock run := by
    constructor
    · decide
    · decide
  exact ⟨hReports, ((reports_of_run 8 (by decide) run [1]).2 hSteady).1⟩

end CounterDroneServer.TelemetryDataProcessor

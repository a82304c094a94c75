import CounterDroneServer.SensorDataParser.Representation

/-!
# Every header candidate gets one verdict

Two of the quantities of the balance are not counted by the source: the headers
that `WAIT_FOR_SYNC` has found and the rejections for an unknown type. A ledger
records them round by round, next to the run and without influence on it.
-/

set_option autoImplicit false

namespace CounterDroneServer.SensorDataParser

universe u

variable {ρ : Type u}

structure Ledger where
  headersFound : Nat := 0
  unknownTypes : Nat := 0

/-- This round finds the header signature. -/
def FindsHeader (c : Cursor ρ) : Prop :=
  c.parser.state = .waitForSync ∧ (syncIndex c.view).isSome = true

/-- This round reads a type byte that names no message. -/
def ReadsUnknownType (c : Cursor ρ) : Prop :=
  c.parser.state = .readType ∧ 3 ≤ c.view.length ∧ TypeMsg.ofByte (byteAt c.view 2) = .unknow

instance (c : Cursor ρ) : Decidable (FindsHeader c) := inferInstanceAs (Decidable (_ ∧ _))
instance (c : Cursor ρ) : Decidable (ReadsUnknownType c) := inferInstanceAs (Decidable (_ ∧ _))

def Ledger.record (ledger : Ledger) (c : Cursor ρ) : Ledger where
  headersFound := ledger.headersFound + if FindsHeader c then 1 else 0
  unknownTypes := ledger.unknownTypes + if ReadsUnknownType c then 1 else 0

/-- `processBatch`, with the ledger of its rounds. -/
def auditBatch (d : BytesArray → ρ) (a : SensorDataParser ρ × Ledger) (chunks : List BytesArray) :
    SensorDataParser ρ × Ledger :=
  let p := a.1.append chunks.flatten
  (processBatch d a.1 chunks,
    (((loop d).observing Ledger.record).run (⟨p, p.accumulatedData, true⟩, a.2)).2)

def audit (d : BytesArray → ρ) (batches : List (List BytesArray)) : SensorDataParser ρ × Ledger :=
  batches.foldl (auditBatch d) ({}, {})

theorem audit_fst (d : BytesArray → ρ) (batches : List (List BytesArray)) :
    (audit d batches).1 = processBatches d {} batches := by
  have h : ∀ a : SensorDataParser ρ × Ledger,
      (batches.foldl (auditBatch d) a).1 = processBatches d a.1 batches := by
    induction batches with
    | nil => exact fun _ => rfl
    | cons chunks batches ih => exact fun a => ih (auditBatch d a chunks)
  exact h ({}, {})

/-- A telemetry candidate has been counted and is not settled yet. -/
def PendingTelemetry (p : SensorDataParser ρ) : Prop :=
  p.type = .telemetry ∧ (p.state = .readLength ∨ p.state = .readPayload)

instance (p : SensorDataParser ρ) : Decidable (PendingTelemetry p) :=
  inferInstanceAs (Decidable (_ ∧ _))

structure Balanced (p : SensorDataParser ρ) (ledger : Ledger) : Prop where
  verdicts : ledger.headersFound = p.receivedValidPackets.length + p.invalidStructureCount +
    p.crcErrorsCount + if p.state = .waitForSync then 0 else 1
  types : p.telemetryPktCount + p.heartBeatPktCount + p.cmdPktCount + ledger.unknownTypes +
    (if p.state = .readType then 1 else 0) = ledger.headersFound
  telemetry : p.receivedValidPackets.length + (if PendingTelemetry p then 1 else 0) ≤
    p.telemetryPktCount
  pushed : p.receivedValidPackets.length = p.pushedTelemetry.length

theorem balanced_withBuffer {p : SensorDataParser ρ} {ledger : Ledger} (h : Balanced p ledger)
    (buffer : BytesArray) : Balanced (p.withBuffer buffer) ledger :=
  ⟨h.verdicts, h.types, h.telemetry, h.pushed⟩

theorem record_of_found {ledger : Ledger} {c : Cursor ρ} (h : FindsHeader c) :
    ledger.record c = ⟨ledger.headersFound + 1, ledger.unknownTypes⟩ := by
  have hReads : ¬ReadsUnknownType c := by
    rintro ⟨hState, _⟩
    rw [h.1] at hState
    cases hState
  rw [Ledger.record, if_pos h, if_neg hReads]
  rfl

theorem record_of_unknown {ledger : Ledger} {c : Cursor ρ} (h : ReadsUnknownType c) :
    ledger.record c = ⟨ledger.headersFound, ledger.unknownTypes + 1⟩ := by
  have hFinds : ¬FindsHeader c := by
    rintro ⟨hState, _⟩
    rw [h.1] at hState
    cases hState
  rw [Ledger.record, if_neg hFinds, if_pos h]
  rfl

theorem record_of_neither {ledger : Ledger} {c : Cursor ρ} (hFinds : ¬FindsHeader c)
    (hReads : ¬ReadsUnknownType c) : ledger.record c = ledger := by
  rw [Ledger.record, if_neg hFinds, if_neg hReads]
  rfl

theorem countType_total (p : SensorDataParser ρ) {type : TypeMsg} (h : type ≠ .unknow) :
    (p.countType type).telemetryPktCount + (p.countType type).heartBeatPktCount +
        (p.countType type).cmdPktCount =
      p.telemetryPktCount + p.heartBeatPktCount + p.cmdPktCount + 1 := by
  cases type with
  | unknow => exact absurd rfl h
  | telemetry | heartBeat | command => simp only [countType, reduceCtorEq, if_true, if_false]; omega

theorem Balanced.startCandidate {p : SensorDataParser ρ} {ledger : Ledger} (h : Balanced p ledger)
    (hState : p.state = .waitForSync) :
    Balanced p.startCandidate ⟨ledger.headersFound + 1, ledger.unknownTypes⟩ := by
  obtain ⟨hVerdicts, hTypes, hTelemetry, hPushed⟩ := h
  simp only [hState, reduceCtorEq, if_true, if_false] at hVerdicts hTypes
  refine ⟨?_, ?_, ?_, hPushed⟩
  · simp only [SensorDataParser.startCandidate, reduceCtorEq, if_false]
    omega
  · simp only [SensorDataParser.startCandidate, if_true]
    omega
  · simp only [SensorDataParser.startCandidate, PendingTelemetry, reduceCtorEq, or_self, and_false,
      if_false]
    omega

theorem Balanced.countType {p : SensorDataParser ρ} {ledger : Ledger} (h : Balanced p ledger)
    (hState : p.state = .readType) {type : TypeMsg} (hKnown : type ≠ .unknow) :
    Balanced (p.countType type) ledger := by
  obtain ⟨hVerdicts, hTypes, hTelemetry, hPushed⟩ := h
  have hTotal := countType_total p hKnown
  simp only [hState, reduceCtorEq, if_true, if_false] at hVerdicts hTypes
  refine ⟨?_, ?_, ?_, hPushed⟩
  · simp only [SensorDataParser.countType, reduceCtorEq, if_false]
    omega
  · rw [hTotal]
    simp only [SensorDataParser.countType, reduceCtorEq, if_false]
    omega
  · simp only [SensorDataParser.countType, PendingTelemetry, true_or, and_true]
    split <;> omega

theorem Balanced.rejectUnknown {p : SensorDataParser ρ} {ledger : Ledger} (h : Balanced p ledger)
    (hState : p.state = .readType) :
    Balanced p.rejectCandidate ⟨ledger.headersFound, ledger.unknownTypes + 1⟩ := by
  obtain ⟨hVerdicts, hTypes, hTelemetry, hPushed⟩ := h
  simp only [hState, reduceCtorEq, if_true, if_false] at hVerdicts hTypes
  refine ⟨?_, ?_, ?_, hPushed⟩
  · simp only [rejectCandidate, if_true]
    omega
  · simp only [rejectCandidate, reduceCtorEq, if_false]
    omega
  · simp only [rejectCandidate, PendingTelemetry, reduceCtorEq, or_self, and_false, if_false]
    omega

theorem Balanced.rejectLength {p : SensorDataParser ρ} {ledger : Ledger} (h : Balanced p ledger)
    (hState : p.state = .readLength) (length : BitVec 16) :
    Balanced (p.rejectLength length) ledger := by
  obtain ⟨hVerdicts, hTypes, hTelemetry, hPushed⟩ := h
  simp only [hState, reduceCtorEq, if_false] at hVerdicts hTypes
  refine ⟨?_, ?_, ?_, hPushed⟩
  · simp only [SensorDataParser.rejectLength, if_true]
    omega
  · simp only [SensorDataParser.rejectLength, reduceCtorEq, if_false]
    omega
  · simp only [SensorDataParser.rejectLength, PendingTelemetry, reduceCtorEq, or_self, and_false,
      if_false]
    omega

theorem Balanced.acceptLength {p : SensorDataParser ρ} {ledger : Ledger} (h : Balanced p ledger)
    (hState : p.state = .readLength) (length : BitVec 16) :
    Balanced (p.acceptLength length) ledger := by
  obtain ⟨hVerdicts, hTypes, hTelemetry, hPushed⟩ := h
  simp only [hState, reduceCtorEq, if_false] at hVerdicts hTypes
  refine ⟨?_, ?_, ?_, hPushed⟩
  · simp only [SensorDataParser.acceptLength, reduceCtorEq, if_false]
    omega
  · simp only [SensorDataParser.acceptLength, reduceCtorEq, if_false]
    omega
  · simpa only [SensorDataParser.acceptLength, PendingTelemetry, hState, or_true, true_or]
      using hTelemetry

theorem Balanced.acceptPacket {p : SensorDataParser ρ} {ledger : Ledger} (h : Balanced p ledger)
    (hState : p.state = .readPayload) (hType : p.type = .telemetry) (packet : BytesArray)
    (record : ρ) : Balanced (p.acceptPacket packet record) ledger := by
  obtain ⟨hVerdicts, hTypes, hTelemetry, hPushed⟩ := h
  have hPending : PendingTelemetry p := ⟨hType, .inr hState⟩
  simp only [hState, reduceCtorEq, if_false, if_pos hPending] at hVerdicts hTypes hTelemetry
  refine ⟨?_, ?_, ?_, ?_⟩
  · simp only [SensorDataParser.acceptPacket, List.length_append, List.length_singleton, if_true]
    omega
  · simp only [SensorDataParser.acceptPacket, reduceCtorEq, if_false]
    omega
  · simp only [SensorDataParser.acceptPacket, PendingTelemetry, List.length_append,
      List.length_singleton, reduceCtorEq, or_self, and_false, if_false]
    omega
  · simp only [SensorDataParser.acceptPacket, List.length_append, List.length_singleton]
    omega

theorem Balanced.rejectPacket {p : SensorDataParser ρ} {ledger : Ledger} (h : Balanced p ledger)
    (hState : p.state = .readPayload) : Balanced p.rejectCandidate ledger := by
  obtain ⟨hVerdicts, hTypes, hTelemetry, hPushed⟩ := h
  simp only [hState, reduceCtorEq, if_false] at hVerdicts hTypes
  refine ⟨?_, ?_, ?_, hPushed⟩
  · simp only [rejectCandidate, if_true]
    omega
  · simp only [rejectCandidate, reduceCtorEq, if_false]
    omega
  · simp only [rejectCandidate, PendingTelemetry, reduceCtorEq, or_self, and_false, if_false]
    omega

/-- Each round moves one candidate from one account to the next. -/
theorem next_balanced (d : BytesArray → ρ) (c : Cursor ρ) (ledger : Ledger)
    (h : Balanced c.parser ledger) : Balanced (c.next d).parser (ledger.record c) := by
  obtain ⟨p, view, changed⟩ := c
  change Balanced p ledger at h
  change Balanced (round d p view).parser _
  have quiet : ∀ s, p.state = s → (s = .waitForSync → syncIndex view = none) →
      (s = .readType → 3 ≤ view.length → TypeMsg.ofByte (byteAt view 2) ≠ .unknow) →
      ledger.record (⟨p, view, changed⟩ : Cursor ρ) = ledger := by
    rintro s hState hSync hType
    apply record_of_neither
    · rintro ⟨hFinds, hSome⟩
      rw [hSync (hState.symm.trans hFinds)] at hSome
      cases hSome
    · rintro ⟨hReads, hSize, hUnknow⟩
      exact hType (hState.symm.trans hReads) hSize hUnknow
  generalize hRound : round d p view = r
  cases hRound ▸ round_spec d p view with
  | syncFound hState i hSync =>
    rw [record_of_found ⟨hState, by rw [hSync]; rfl⟩]
    exact h.startCandidate hState
  | noSync hState hSync => rwa [quiet _ hState (fun _ => hSync) nofun]
  | typeMissing hState hSize =>
    rwa [quiet _ hState nofun (fun _ hLong => absurd hSize (Nat.not_lt_of_le hLong))]
  | typeKnown hState hSize type hType hKnown =>
    rw [quiet _ hState nofun (fun _ _ => hType ▸ hKnown)]
    exact h.countType hState hKnown
  | typeUnknown hState hSize hType =>
    rw [record_of_unknown ⟨hState, hSize, hType⟩]
    exact h.rejectUnknown hState
  | lengthMissing hState hSize => rwa [quiet _ hState nofun nofun]
  | lengthInvalid hState hSize hLength =>
    rw [quiet _ hState nofun nofun]
    exact h.rejectLength hState _
  | lengthValid hState hSize hLength =>
    rw [quiet _ hState nofun nofun]
    exact h.acceptLength hState _
  | payloadPending hState hWait => rwa [quiet _ hState nofun nofun]
  | packetValid hState hType n hTotal hSize hCrc =>
    rw [quiet _ hState nofun nofun]
    exact h.acceptPacket hState hType _ _
  | crcMismatch hState hType n hTotal hSize hCrc =>
    rw [quiet _ hState nofun nofun]
    exact h.rejectPacket hState

theorem auditBatch_balanced (d : BytesArray → ρ) (a : SensorDataParser ρ × Ledger)
    (chunks : List BytesArray) (h : Balanced a.1 a.2) :
    Balanced (auditBatch d a chunks).1 (auditBatch d a chunks).2 := by
  have hRun := ((loop d).observing Ledger.record).run_invariant
    (fun s => Balanced s.1.parser s.2) (fun s _ hs => next_balanced d s.1 s.2 hs)
    (⟨a.1.append chunks.flatten, a.1.accumulatedData ++ chunks.flatten, true⟩, a.2)
    (balanced_withBuffer h _)
  rw [WhileLoop.observing_run_fst] at hRun
  change Balanced (processBatch d a.1 chunks) _
  rw [processBatch_eq, processAccumulatedData_eq]
  exact balanced_withBuffer hRun _

theorem audit_balanced (d : BytesArray → ρ) (batches : List (List BytesArray)) :
    Balanced (audit d batches).1 (audit d batches).2 := by
  have h : ∀ a : SensorDataParser ρ × Ledger, Balanced a.1 a.2 →
      Balanced (batches.foldl (auditBatch d) a).1 (batches.foldl (auditBatch d) a).2 := by
    induction batches with
    | nil => exact fun _ ha => ha
    | cons chunks batches ih => exact fun a ha => ih _ (auditBatch_balanced d a chunks ha)
  exact h ({}, {}) ⟨rfl, rfl, Nat.le_refl 0, rfl⟩

/-- The balance of the final report, after any number of calls. -/
theorem candidate_balance (deserializePayload : BytesArray → ρ)
    (batches : List (List BytesArray)) :
    let p := processBatches deserializePayload {} batches
    let ledger := (audit deserializePayload batches).2
    ledger.headersFound = p.receivedValidPackets.length + p.invalidStructureCount +
        p.crcErrorsCount + (if p.state ≠ .waitForSync then 1 else 0) ∧
      ((p.telemetryPktCount + p.heartBeatPktCount + p.cmdPktCount : Nat) : Int) =
        ledger.headersFound - ledger.unknownTypes - (if p.state = .readType then 1 else 0) ∧
      p.receivedValidPackets.length ≤ p.telemetryPktCount ∧
      p.receivedValidPackets.length = p.pushedTelemetry.length := by
  intro p ledger
  have hBalanced : Balanced p ledger := by
    have h := audit_balanced deserializePayload batches
    rwa [audit_fst] at h
  clear_value p ledger
  obtain ⟨hVerdicts, hTypes, hTelemetry, hPushed⟩ := hBalanced
  refine ⟨?_, ?_, by omega, hPushed⟩
  · rw [hVerdicts, ite_not]
  · rw [← hTypes]
    split <;> omega

end CounterDroneServer.SensorDataParser

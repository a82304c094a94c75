import CounterDroneServer.SensorDataParser.Basic

/-!
# What one iteration of the parsing loop can do

`RoundCase` has one constructor for each way through the `switch`. Every
invariant of the parser is proved by cases on it, without unfolding the rounds.
-/

set_option autoImplicit false

namespace CounterDroneServer.SensorDataParser

open ByteOrder

universe u

variable {ρ : Type u}

def startCandidate (p : SensorDataParser ρ) : SensorDataParser ρ := { p with state := .readType }

/-- The members after the type byte has named a known message. -/
def countType (p : SensorDataParser ρ) (type : TypeMsg) : SensorDataParser ρ :=
  { p with
    telemetryPktCount := p.telemetryPktCount + if type = .telemetry then 1 else 0
    heartBeatPktCount := p.heartBeatPktCount + if type = .heartBeat then 1 else 0
    cmdPktCount := p.cmdPktCount + if type = .command then 1 else 0
    type := type
    state := .readLength }

def rejectCandidate (p : SensorDataParser ρ) : SensorDataParser ρ :=
  { p with crcErrorsCount := p.crcErrorsCount + 1, state := .waitForSync }

def rejectLength (p : SensorDataParser ρ) (length : BitVec 16) : SensorDataParser ρ :=
  { p with expectedPayloadLength := length,
           invalidStructureCount := p.invalidStructureCount + 1, state := .waitForSync }

def acceptLength (p : SensorDataParser ρ) (length : BitVec 16) : SensorDataParser ρ :=
  { p with expectedPayloadLength := length, state := .readPayload }

def acceptPacket (p : SensorDataParser ρ) (packet : BytesArray) (record : ρ) :
    SensorDataParser ρ :=
  { p with receivedValidPackets := p.receivedValidPackets ++ [packet],
           pushedTelemetry := p.pushedTelemetry ++ [record], state := .waitForSync }

def ValidLength (length : BitVec 16) : Prop :=
  minPayloadExpLength ≤ length.toNat ∧ length.toNat ≤ maxPayloadExpLength

instance (length : BitVec 16) : Decidable (ValidLength length) :=
  inferInstanceAs (Decidable (_ ∧ _))

/-- What `WAIT_FOR_SYNC` removes when no header is found. -/
def garbageLength (view : BytesArray) : Nat :=
  if view.getLast? = some headerByte0 then view.length - 1 else view.length

inductive RoundCase (d : BytesArray → ρ) (p : SensorDataParser ρ)
    (view : BytesArray) : Round ρ → Prop
  | syncFound (hState : p.state = .waitForSync) (i : Nat) (hSync : syncIndex view = some i) :
    RoundCase d p view ⟨p.startCandidate, i, true⟩
  | noSync (hState : p.state = .waitForSync) (hSync : syncIndex view = none) :
    RoundCase d p view ⟨p, garbageLength view, false⟩
  | typeMissing (hState : p.state = .readType) (hSize : view.length < 3) :
    RoundCase d p view ⟨p, 0, false⟩
  | typeKnown (hState : p.state = .readType) (hSize : 3 ≤ view.length) (type : TypeMsg)
    (hType : TypeMsg.ofByte (byteAt view 2) = type) (hKnown : type ≠ .unknow) :
    RoundCase d p view ⟨p.countType type, 0, true⟩
  | typeUnknown (hState : p.state = .readType) (hSize : 3 ≤ view.length)
    (hType : TypeMsg.ofByte (byteAt view 2) = .unknow) :
    RoundCase d p view ⟨p.rejectCandidate, 2, true⟩
  | lengthMissing (hState : p.state = .readLength) (hSize : view.length < 5) :
    RoundCase d p view ⟨p, 0, false⟩
  | lengthInvalid (hState : p.state = .readLength) (hSize : 5 ≤ view.length)
    (hLength : ¬ValidLength (lengthField view)) :
    RoundCase d p view ⟨p.rejectLength (lengthField view), 2, true⟩
  | lengthValid (hState : p.state = .readLength) (hSize : 5 ≤ view.length)
    (hLength : ValidLength (lengthField view)) :
    RoundCase d p view ⟨p.acceptLength (lengthField view), 0, true⟩
  | payloadPending (hState : p.state = .readPayload)
    (hWait : p.type = .telemetry → view.length < totalPacketSize p.expectedPayloadLength) :
    RoundCase d p view ⟨p, 0, false⟩
  | packetValid (hState : p.state = .readPayload) (hType : p.type = .telemetry) (n : Nat)
    (hTotal : totalPacketSize p.expectedPayloadLength = n)
    (hSize : n ≤ view.length) (hCrc : crcMatches view n) :
    RoundCase d p view
      ⟨p.acceptPacket (view.take n) (d (view.drop 5)), n, true⟩
  | crcMismatch (hState : p.state = .readPayload) (hType : p.type = .telemetry) (n : Nat)
    (hTotal : totalPacketSize p.expectedPayloadLength = n)
    (hSize : n ≤ view.length) (hCrc : ¬crcMatches view n) :
    RoundCase d p view ⟨p.rejectCandidate, 1, true⟩

theorem caseWaitForSync_spec (d : BytesArray → ρ) (p : SensorDataParser ρ) (view : BytesArray)
    (hState : p.state = .waitForSync) : RoundCase d p view (caseWaitForSync p view) := by
  unfold caseWaitForSync
  cases hSync : syncIndex view with
  | some i => exact .syncFound hState i hSync
  | none =>
    have h : RoundCase d p view ⟨p, garbageLength view, false⟩ := .noSync hState hSync
    unfold garbageLength at h
    dsimp only
    split
    · rwa [if_pos ‹_›] at h
    · rwa [if_neg ‹_›] at h

theorem caseReadType_spec (d : BytesArray → ρ) (p : SensorDataParser ρ) (view : BytesArray)
    (hState : p.state = .readType) : RoundCase d p view (caseReadType p view) := by
  unfold caseReadType
  split
  · rename_i hSize
    have known : ∀ type, TypeMsg.ofByte (byteAt view 2) = type → type ≠ .unknow →
        RoundCase d p view ⟨p.countType type, 0, true⟩ := .typeKnown hState hSize
    cases hType : TypeMsg.ofByte (byteAt view typeStartingIdx) with
    | telemetry => exact known _ hType (by decide)
    | heartBeat => exact known _ hType (by decide)
    | command => exact known _ hType (by decide)
    | unknow => exact .typeUnknown hState hSize hType
  · exact .typeMissing hState (Nat.lt_of_not_le ‹_›)

theorem caseReadLength_spec (d : BytesArray → ρ) (p : SensorDataParser ρ) (view : BytesArray)
    (hState : p.state = .readLength) : RoundCase d p view (caseReadLength p view) := by
  unfold caseReadLength
  split
  · rename_i hSize
    dsimp only
    split
    · exact .lengthInvalid hState hSize (by unfold ValidLength; omega)
    · exact .lengthValid hState hSize (by unfold ValidLength; omega)
  · exact .lengthMissing hState (Nat.lt_of_not_le ‹_›)

theorem caseReadPayload_spec (d : BytesArray → ρ) (p : SensorDataParser ρ) (view : BytesArray)
    (hState : p.state = .readPayload) : RoundCase d p view (caseReadPayload d p view) := by
  unfold caseReadPayload
  split
  · rename_i hSize
    cases hType : p.type with
    | telemetry =>
      dsimp only
      unfold processTelemetryPayload
      split
      · exact .packetValid hState hType _ rfl hSize ‹_›
      · exact .crcMismatch hState hType _ rfl hSize ‹_›
    | _ => exact .payloadPending hState (by rw [hType]; simp)
  · exact .payloadPending hState (fun _ => by omega)

theorem round_spec (d : BytesArray → ρ) (p : SensorDataParser ρ) (view : BytesArray) :
    RoundCase d p view (round d p view) := by
  unfold round
  cases hState : p.state with
  | waitForSync => exact caseWaitForSync_spec d p view hState
  | readType => exact caseReadType_spec d p view hState
  | readLength => exact caseReadLength_spec d p view hState
  | readPayload => exact caseReadPayload_spec d p view hState

theorem round_pushedTelemetry (d : BytesArray → ρ) (p : SensorDataParser ρ) (view : BytesArray) :
    p.pushedTelemetry <+: (round d p view).parser.pushedTelemetry := by
  have hCase := round_spec d p view
  generalize round d p view = r at hCase ⊢
  cases hCase with
  | packetValid hState hType n hTotal hSize hCrc => exact List.prefix_append _ _
  | _ => exact List.prefix_refl _

theorem round_eq_of_case {d : BytesArray → ρ} {p : SensorDataParser ρ} {view : BytesArray}
    {r : Round ρ} (h : RoundCase d p view r) : round d p view = r := by
  cases h with
  | syncFound hState i hSync => simp only [round, hState, caseWaitForSync, hSync, startCandidate]
  | noSync hState hSync =>
    simp only [round, hState, caseWaitForSync, hSync, garbageLength]
    split <;> rfl
  | typeMissing hState hSize =>
    have hShort : ¬headerSizeBytes + typeSizeBytes ≤ view.length := Nat.not_le_of_lt hSize
    simp only [round, hState, caseReadType, if_neg hShort]
  | typeKnown hState hSize type hType hKnown =>
    have hLong : headerSizeBytes + typeSizeBytes ≤ view.length := hSize
    simp only [round, hState, caseReadType, if_pos hLong, hType]
    cases type with
    | unknow => exact absurd rfl hKnown
    | telemetry | heartBeat | command => rfl
  | typeUnknown hState hSize hType =>
    have hLong : headerSizeBytes + typeSizeBytes ≤ view.length := hSize
    simp only [round, hState, caseReadType, if_pos hLong, hType]
    rfl
  | lengthMissing hState hSize =>
    have hShort : ¬headerSizeBytes + typeSizeBytes + lengthSizeBytes ≤ view.length :=
      Nat.not_le_of_lt hSize
    simp only [round, hState, caseReadLength, if_neg hShort]
  | lengthInvalid hState hSize hLength =>
    have hRange : (lengthField view).toNat < minPayloadExpLength ∨
        maxPayloadExpLength < (lengthField view).toNat := by
      rw [ValidLength] at hLength
      omega
    have hLong : headerSizeBytes + typeSizeBytes + lengthSizeBytes ≤ view.length := hSize
    simp only [round, hState, caseReadLength, if_pos hLong, if_pos hRange]
    rfl
  | lengthValid hState hSize hLength =>
    have hRange : ¬((lengthField view).toNat < minPayloadExpLength ∨
        maxPayloadExpLength < (lengthField view).toNat) := by
      rw [ValidLength] at hLength
      omega
    have hLong : headerSizeBytes + typeSizeBytes + lengthSizeBytes ≤ view.length := hSize
    simp only [round, hState, caseReadLength, if_pos hLong, if_neg hRange]
    rfl
  | payloadPending hState hWait =>
    simp only [round, hState, caseReadPayload]
    split
    · cases hType : p.type with
      | telemetry => exact absurd (hWait hType) (by omega)
      | heartBeat | command | unknow => rfl
    · rfl
  | packetValid hState hType n hTotal hSize hCrc =>
    simp only [round, hState, caseReadPayload, hTotal, if_pos hSize, hType,
      processTelemetryPayload, if_pos hCrc, acceptPacket]
    rfl
  | crcMismatch hState hType n hTotal hSize hCrc =>
    simp only [round, hState, caseReadPayload, hTotal, if_pos hSize, hType,
      processTelemetryPayload, if_neg hCrc, rejectCandidate]

theorem round_eq_iff (d : BytesArray → ρ) (p : SensorDataParser ρ) (view : BytesArray)
    (r : Round ρ) : round d p view = r ↔ RoundCase d p view r :=
  ⟨fun h => h ▸ round_spec d p view, round_eq_of_case⟩

theorem syncIndex_add_one_lt (view : BytesArray) (i : Nat) (h : syncIndex view = some i) :
    i + 1 < view.length := by
  induction view generalizing i with
  | nil => cases h
  | cons byte0 rest ih =>
    cases rest with
    | nil => cases h
    | cons byte1 rest =>
      rw [syncIndex] at h
      split at h
      · cases h
        simp
      · obtain ⟨j, hj, rfl⟩ := Option.map_eq_some_iff.mp h
        have := ih j hj
        simp only [List.length_cons] at this ⊢
        omega

theorem garbageLength_le (view : BytesArray) : garbageLength view ≤ view.length := by
  unfold garbageLength
  split <;> omega

theorem totalPacketSize_eq (length : BitVec 16) : totalPacketSize length = 7 + length.toNat := by
  change 2 + 1 + 2 + length.toNat + 2 = _
  omega

theorem round_removed_le (d : BytesArray → ρ) (p : SensorDataParser ρ) (view : BytesArray)
    (hView : view ≠ []) : (round d p view).removed ≤ view.length := by
  have hPositive := List.length_pos_iff.mpr hView
  generalize hRound : round d p view = r
  cases hRound ▸ round_spec d p view with
  | syncFound _ i hSync => exact Nat.le_of_lt (Nat.lt_of_succ_lt (syncIndex_add_one_lt view i hSync))
  | noSync => exact garbageLength_le view
  | typeUnknown _ hSize => exact Nat.le_of_succ_le hSize
  | lengthInvalid _ hSize => exact Nat.le_trans (by decide : 2 ≤ 5) hSize
  | packetValid _ _ _ _ hSize => exact hSize
  | crcMismatch => exact hPositive
  | _ => exact Nat.zero_le _

/-- The position of a state in the cycle, counted from the last one. -/
def phase : ParserState → Nat
  | .waitForSync => 3
  | .readType => 2
  | .readLength => 1
  | .readPayload => 0

theorem round_phase_lt (d : BytesArray → ρ) (p : SensorDataParser ρ) (view : BytesArray)
    (hChanged : (round d p view).stateChanged = true) :
    0 < (round d p view).removed ∧ phase (round d p view).parser.state ≤ 3 ∨
      phase (round d p view).parser.state < phase p.state := by
  generalize hRound : round d p view = r at hChanged
  cases hRound ▸ round_spec d p view with
  | syncFound hState => exact .inr (by simp [hState, phase, startCandidate])
  | typeKnown hState => exact .inr (by simp [hState, phase, countType])
  | lengthValid hState => exact .inr (by simp [hState, phase, acceptLength])
  | typeUnknown | lengthInvalid | crcMismatch => exact .inl ⟨Nat.succ_pos _, Nat.le_refl 3⟩
  | packetValid _ _ n hTotal =>
    rw [totalPacketSize_eq] at hTotal
    exact .inl ⟨by change 0 < n; omega, by simp [acceptPacket, phase]⟩
  | _ => cases hChanged

theorem round_parser_of_not_changed (d : BytesArray → ρ) (p : SensorDataParser ρ)
    (view : BytesArray) (hChanged : (round d p view).stateChanged = false) :
    (round d p view).parser = p := by
  generalize hRound : round d p view = r at hChanged
  cases hRound ▸ round_spec d p view with
  | noSync | typeMissing | lengthMissing | payloadPending => rfl
  | _ => cases hChanged

end CounterDroneServer.SensorDataParser

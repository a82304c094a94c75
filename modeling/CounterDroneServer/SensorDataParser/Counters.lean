import CounterDroneServer.Library.MachineInt
import CounterDroneServer.SensorDataParser.Balance

/-!
# The counters are paid in bytes

Every verdict removes bytes: a rejected candidate two, counting the 0x55 that a
mismatch leaves in front, and a packet at least 47. So the counters, which are `int`
in the source, do not overflow before four gigabytes.
-/

set_option autoImplicit false

namespace CounterDroneServer.SensorDataParser

universe u

variable {ρ : Type u}

/-- Behind a checksum mismatch the view starts with the second byte of the header, which
begins no candidate. -/
def leftover (p : SensorDataParser ρ) (view : BytesArray) : Nat :=
  if p.state = .waitForSync ∧ view.head? = some headerByte1 then 1 else 0

/-- The header of a candidate that is counted by its type and not settled. -/
def headerHeld (p : SensorDataParser ρ) : Nat :=
  if p.state = .readLength ∨ p.state = .readPayload then 2 else 0

/-- The counters and the view, against the bytes that were fed. -/
structure Affordable (fed : Nat) (p : SensorDataParser ρ) (view : BytesArray) : Prop where
  verdicts : 2 * (p.crcErrorsCount + p.invalidStructureCount) +
    47 * p.receivedValidPackets.length + view.length ≤ fed + leftover p view
  types : 2 * (p.telemetryPktCount + p.heartBeatPktCount + p.cmdPktCount) + view.length ≤
    fed + headerHeld p + leftover p view

theorem leftover_of_state {p : SensorDataParser ρ} (h : p.state ≠ .waitForSync)
    (view : BytesArray) : leftover p view = 0 :=
  if_neg fun hBoth => h hBoth.1

theorem leftover_append_le (p : SensorDataParser ρ) (view bytes : BytesArray) :
    leftover p view ≤ leftover p (view ++ bytes) := by
  cases view with
  | nil =>
    rw [leftover, if_neg (by simp)]
    exact Nat.zero_le _
  | cons byte rest => exact Nat.le_refl _

theorem Affordable.append {fed : Nat} {p : SensorDataParser ρ} {view : BytesArray}
    (h : Affordable fed p view) (bytes : BytesArray) :
    Affordable (fed + bytes.length) p (view ++ bytes) := by
  have hLeftover := leftover_append_le p view bytes
  obtain ⟨hVerdicts, hTypes⟩ := h
  constructor
  · rw [List.length_append]
    omega
  · rw [List.length_append]
    omega

theorem HeaderAt.head {view : BytesArray} (h : HeaderAt view) : view.head? = some headerByte0 := by
  obtain ⟨tail, rfl⟩ := h
  rfl

/-- A header is found behind the leftover byte. -/
theorem leftover_le_syncIndex (p : SensorDataParser ρ) {view : BytesArray} {i : Nat}
    (hSync : syncIndex view = some i) : leftover p view ≤ i := by
  unfold leftover
  split
  · rename_i hLeft
    by_contra hFront
    obtain rfl : i = 0 := by omega
    have hHead := (syncIndex_headerAt view 0 hSync).head
    rw [List.drop_zero, hLeft.2] at hHead
    exact absurd hHead (by decide)
  · exact Nat.zero_le i

theorem leftover_le_garbageLength (p : SensorDataParser ρ) (view : BytesArray) :
    leftover p view ≤ garbageLength view := by
  unfold leftover
  split
  · rename_i hLeft
    cases view with
    | nil => cases hLeft.2
    | cons byte rest =>
      cases rest with
      | nil =>
        -- a single byte is kept only if it is the first one of a header
        obtain rfl : byte = headerByte1 := Option.some.inj hLeft.2
        decide
      | cons byte' rest =>
        unfold garbageLength
        split
        · simp
        · simp
  · exact Nat.zero_le _

/-- A rejected candidate leaves the second byte of its header in front. -/
theorem leftover_mismatch {p : SensorDataParser ρ} {view : BytesArray} (h : HeaderAt view)
    (hState : p.state = .waitForSync) : leftover p (view.drop 1) = 1 := by
  obtain ⟨tail, rfl⟩ := h
  exact if_pos ⟨hState, rfl⟩

theorem round_affordable (d : BytesArray → ρ) {fed : Nat} {p : SensorDataParser ρ}
    {view : BytesArray} (hSynced : Synced p view) (h : Affordable fed p view) :
    Affordable fed (round d p view).parser (view.drop (round d p view).removed) := by
  obtain ⟨hVerdicts, hTypes⟩ := h
  generalize hRound : round d p view = r
  cases hRound ▸ round_spec d p view with
  | syncFound hState i hSync =>
    have hBehind := leftover_le_syncIndex p hSync
    have hInside := syncIndex_add_one_lt view i hSync
    simp only [headerHeld, hState, reduceCtorEq, or_self, if_false] at hTypes
    constructor
    · simp only [List.length_drop, startCandidate]
      omega
    · simp only [List.length_drop, startCandidate]
      omega
  | noSync hState hSync =>
    have hBehind := leftover_le_garbageLength p view
    have hInside := garbageLength_le view
    constructor
    · simp only [List.length_drop]
      omega
    · simp only [List.length_drop]
      omega
  | typeMissing hState | lengthMissing hState | payloadPending hState => exact ⟨hVerdicts, hTypes⟩
  | typeKnown hState hSize type hType hKnown =>
    have hNone : leftover p view = 0 := leftover_of_state (by simp [hState]) view
    have hTotal := countType_total p hKnown
    simp only [headerHeld, hState, reduceCtorEq, or_self, if_false] at hTypes
    constructor
    · simp only [List.drop_zero, countType]
      omega
    · rw [hTotal]
      simp only [List.drop_zero, headerHeld, countType, true_or, if_true]
      omega
  | typeUnknown hState hSize hType =>
    have hNone : leftover p view = 0 := leftover_of_state (by simp [hState]) view
    simp only [headerHeld, hState, reduceCtorEq, or_self, if_false] at hTypes
    constructor
    · simp only [List.length_drop, rejectCandidate]
      omega
    · simp only [List.length_drop, rejectCandidate]
      omega
  | lengthInvalid hState hSize hLength =>
    have hNone : leftover p view = 0 := leftover_of_state (by simp [hState]) view
    simp only [headerHeld, hState, reduceCtorEq, or_false, if_true] at hTypes
    constructor
    · simp only [List.length_drop, rejectLength]
      omega
    · simp only [List.length_drop, rejectLength]
      omega
  | lengthValid hState hSize hLength =>
    have hNone : leftover p view = 0 := leftover_of_state (by simp [hState]) view
    simp only [headerHeld, hState, reduceCtorEq, or_false, if_true] at hTypes
    constructor
    · simp only [List.drop_zero, acceptLength]
      omega
    · simp only [List.drop_zero, headerHeld, acceptLength, or_true, if_true]
      omega
  | packetValid hState hType n hTotal hSize hCrc =>
    have hNone : leftover p view = 0 := leftover_of_state (by simp [hState]) view
    obtain ⟨-, -, hLower, -⟩ := hSynced.length hState
    have hLeast : 40 ≤ p.expectedPayloadLength.toNat := hLower
    rw [totalPacketSize_eq] at hTotal
    simp only [headerHeld, hState, reduceCtorEq, or_true, if_true] at hTypes
    constructor
    · simp only [List.length_drop, acceptPacket, List.length_append, List.length_singleton]
      omega
    · simp only [List.length_drop, acceptPacket]
      omega
  | crcMismatch hState hType n hTotal hSize hCrc =>
    have hNone : leftover p view = 0 := leftover_of_state (by simp [hState]) view
    have hHeader := hSynced.header (by simp [hState])
    have hLeft : leftover p.rejectCandidate (view.drop 1) = 1 := leftover_mismatch hHeader rfl
    obtain ⟨hFive, -, -⟩ := hSynced.length hState
    simp only [headerHeld, hState, reduceCtorEq, or_true, if_true] at hTypes
    constructor
    · rw [hLeft]
      simp only [List.length_drop, rejectCandidate]
      omega
    · rw [hLeft]
      simp only [List.length_drop, rejectCandidate]
      omega

theorem scanView_affordable (d : BytesArray → ρ) {fed : Nat} (p : SensorDataParser ρ)
    (view : BytesArray) (hSynced : Synced p view) (h : Affordable fed p view) :
    Affordable fed (scanView d p view).1 (scanView d p view).2 := by
  induction p, view using scanView_induction d with
  | empty p => rwa [scanView_nil]
  | stopped p view hView hChanged =>
    have hRound := round_affordable d hSynced h
    rw [round_parser_of_not_changed d p view hChanged] at hRound
    rwa [scanView_of_not_changed d p hView hChanged]
  | advanced p view hView hChanged ih =>
    rw [scanView_of_changed d p hView hChanged]
    exact ih (round_synced d p view hSynced) (round_affordable d hSynced h)

theorem processBatch_affordable (d : BytesArray → ρ) {fed : Nat} {p : SensorDataParser ρ}
    (hIdle : Idle p) (h : Affordable fed p p.accumulatedData) (chunks : List BytesArray) :
    Affordable (fed + chunks.flatten.length) (processBatch d p chunks)
      (processBatch d p chunks).accumulatedData := by
  have hSynced := hIdle.synced.append chunks.flatten
  have hFed := h.append chunks.flatten
  have hScan := scanView_affordable d (p.append chunks.flatten)
    (p.accumulatedData ++ chunks.flatten) ⟨hSynced.header, hSynced.type, hSynced.length⟩ ⟨hFed.verdicts, hFed.types⟩
  rw [processBatch_eq, processAccumulatedData_eq]
  constructor
  · exact hScan.verdicts
  · exact hScan.types

theorem processBatches_affordable (d : BytesArray → ρ) (batches : List (List BytesArray)) :
    Affordable batches.flatten.flatten.length (processBatches d {} batches)
      (processBatches d {} batches).accumulatedData := by
  induction batches using List.reverseRecOn with
  | nil =>
    constructor
    · exact Nat.le_refl 0
    · exact Nat.le_refl 0
  | append_singleton batches chunks ih =>
    have hIdle : Idle (processBatches d {} batches) := idle_init.processBatches d batches
    have hBatch := processBatch_affordable d hIdle ih chunks
    have hConcat : processBatches d {} (batches ++ [chunks]) =
        processBatch d (processBatches d {} batches) chunks := List.foldl_concat ..
    rw [hConcat]
    simpa only [List.flatten_append, List.flatten_singleton, List.length_append] using hBatch

/-- Between two calls nothing is left over, and a counted candidate still has its type byte. -/
theorem Idle.nothing_owed {p : SensorDataParser ρ} (h : Idle p) :
    leftover p p.accumulatedData = 0 ∧ headerHeld p ≤ p.accumulatedData.length := by
  unfold Idle at h
  cases hState : p.state with
  | waitForSync =>
    rw [hState] at h
    obtain ⟨-, hBuffer | hBuffer⟩ := h
    · simp [leftover, headerHeld, hState, hBuffer]
    · simp [leftover, headerHeld, hState, hBuffer, headerByte0, headerByte1]
  | readType => simp [leftover, headerHeld, hState]
  | readLength =>
    rw [hState] at h
    obtain ⟨-, hSize, -⟩ := h
    constructor
    · exact leftover_of_state (by simp [hState]) _
    · simp only [headerHeld, hState, true_or, if_true]
      omega
  | readPayload =>
    rw [hState] at h
    obtain ⟨-, hSize, -⟩ := h
    constructor
    · exact leftover_of_state (by simp [hState]) _
    · simp only [headerHeld, hState, or_true, if_true]
      omega

open MachineInt in
/-- After any calls every rejection has cost two of the bytes that were fed, every packet
47 and every counted type two; so no counter leaves the range of `int` before four
gigabytes. -/
theorem counters_inRange (deserializePayload : BytesArray → ρ) (batches : List (List BytesArray)) :
    let p := processBatches deserializePayload {} batches
    let fed := batches.flatten.flatten.length
    2 * (p.crcErrorsCount + p.invalidStructureCount) + 47 * p.receivedValidPackets.length +
        p.accumulatedData.length ≤ fed ∧
      2 * (p.telemetryPktCount + p.heartBeatPktCount + p.cmdPktCount) ≤ fed ∧
      (fed < 2 ^ 32 → InRange p.crcErrorsCount ∧ InRange p.invalidStructureCount ∧
        InRange p.telemetryPktCount ∧ InRange p.heartBeatPktCount ∧ InRange p.cmdPktCount) := by
  intro p fed
  obtain ⟨hVerdicts, hTypes⟩ : Affordable fed p p.accumulatedData :=
    processBatches_affordable deserializePayload batches
  have hIdle : Idle p := idle_init.processBatches deserializePayload batches
  obtain ⟨hLeftover, hHeld⟩ := hIdle.nothing_owed
  clear_value p fed
  rw [hLeftover, Nat.add_zero] at hVerdicts hTypes
  refine ⟨hVerdicts, by omega, ?_⟩
  intro hFed
  simp only [InRange, intMin, intMax]
  omega

end CounterDroneServer.SensorDataParser

import CounterDroneServer.SensorDataParser.Process

/-!
# The representation invariant of the parser

Inside the loop the saved state, type and length describe the view; between
calls they describe the buffer, which then is as short as the state allows.
-/

set_option autoImplicit false

namespace CounterDroneServer.SensorDataParser

open ByteOrder

universe u

variable {ρ : Type u}

def HeaderAt (view : BytesArray) : Prop := [headerByte0, headerByte1] <+: view

instance (view : BytesArray) : Decidable (HeaderAt view) :=
  inferInstanceAs (Decidable (_ <+: _))

/-- The members agree with the bytes at the front of the view. -/
structure Synced (p : SensorDataParser ρ) (view : BytesArray) : Prop where
  header : p.state ≠ .waitForSync → HeaderAt view
  type : p.state = .readLength ∨ p.state = .readPayload →
    3 ≤ view.length ∧ TypeMsg.ofByte (byteAt view 2) = p.type ∧ p.type ≠ .unknow
  length : p.state = .readPayload →
    5 ≤ view.length ∧ p.expectedPayloadLength = lengthField view ∧
      ValidLength p.expectedPayloadLength

/-- The buffer between two calls, for each value of `m_state`. -/
def Rests (p : SensorDataParser ρ) (buffer : BytesArray) : ParserState → Prop
  | .waitForSync => p.state = .waitForSync ∧ (buffer = [] ∨ buffer = [headerByte0])
  | .readType => p.state = .readType ∧ buffer = [headerByte0, headerByte1]
  | .readLength => p.state = .readLength ∧ (buffer.length = 3 ∨ buffer.length = 4) ∧
      HeaderAt buffer ∧ byteAt buffer 2 = p.type.toByte ∧
      (p.type = .telemetry ∨ p.type = .heartBeat ∨ p.type = .command)
  | .readPayload => p.state = .readPayload ∧ 5 ≤ buffer.length ∧
      HeaderAt buffer ∧ byteAt buffer 2 = p.type.toByte ∧
      (p.type = .telemetry ∨ p.type = .heartBeat ∨ p.type = .command) ∧
      p.expectedPayloadLength.toNat = 256 * (byteAt buffer 3).toNat + (byteAt buffer 4).toNat ∧
      40 ≤ p.expectedPayloadLength.toNat ∧ p.expectedPayloadLength.toNat ≤ 80 ∧
      (p.type = .telemetry → buffer.length < 7 + p.expectedPayloadLength.toNat)

theorem Rests.state_eq {p : SensorDataParser ρ} {buffer : BytesArray} {s : ParserState}
    (h : Rests p buffer s) : p.state = s := by
  cases s with
  | waitForSync | readType | readLength | readPayload => exact h.1

theorem rests_withBuffer (p : SensorDataParser ρ) (saved buffer : BytesArray) (s : ParserState) :
    Rests (p.withBuffer saved) buffer s ↔ Rests p buffer s := by
  cases s with
  | waitForSync | readType | readLength | readPayload => exact Iff.rfl

theorem headerAt_append {view : BytesArray} (h : HeaderAt view) (tail : BytesArray) :
    HeaderAt (view ++ tail) :=
  h.trans (List.prefix_append view tail)

theorem headerAt_iff (view : BytesArray) :
    HeaderAt view ↔ ∃ rest, view = headerByte0 :: headerByte1 :: rest := by
  constructor
  · rintro ⟨rest, rfl⟩
    exact ⟨rest, rfl⟩
  · rintro ⟨rest, rfl⟩
    exact ⟨rest, rfl⟩

theorem byteAt_append (view tail : BytesArray) (i : Nat) (h : i < view.length) :
    byteAt (view ++ tail) i = byteAt view i := by
  simp only [byteAt, List.getD_eq_getElem?_getD, List.getElem?_append_left h]

theorem lengthField_append (view tail : BytesArray) (h : 5 ≤ view.length) :
    lengthField (view ++ tail) = lengthField view := by
  simp only [lengthField]
  rw [byteAt_append view tail _ (Nat.lt_of_lt_of_le (by decide) h),
    byteAt_append view tail _ (Nat.lt_of_lt_of_le (by decide) h)]

theorem syncIndex_headerAt (view : BytesArray) (i : Nat) (h : syncIndex view = some i) :
    HeaderAt (view.drop i) := by
  induction view generalizing i with
  | nil => cases h
  | cons byte0 rest ih =>
    cases rest with
    | nil => cases h
    | cons byte1 rest =>
      rw [syncIndex] at h
      split at h
      · rename_i hHeader
        cases h
        rw [hHeader.1, hHeader.2]
        exact List.prefix_append _ rest
      · obtain ⟨j, hj, rfl⟩ := Option.map_eq_some_iff.mp h
        exact ih j hj

theorem ofByte_eq_iff (byte : Byte) (type : TypeMsg) (h : type ≠ .unknow) :
    TypeMsg.ofByte byte = type ↔ byte = type.toByte := by
  unfold TypeMsg.ofByte
  constructor
  · intro hByte
    split at hByte
    · subst hByte; assumption
    · split at hByte
      · subst hByte; assumption
      · split at hByte
        · subst hByte; assumption
        · exact absurd hByte.symm h
  · rintro rfl
    cases type with
    | unknow => exact absurd rfl h
    | telemetry | heartBeat | command => decide

theorem known_iff (type : TypeMsg) :
    type ≠ .unknow ↔ type = .telemetry ∨ type = .heartBeat ∨ type = .command := by
  cases type <;> decide

theorem Synced.append {p : SensorDataParser ρ} {view : BytesArray} (h : Synced p view)
    (tail : BytesArray) : Synced p (view ++ tail) where
  header hState := headerAt_append (h.header hState) tail
  type hState := by
    obtain ⟨hSize, hType, hKnown⟩ := h.type hState
    rw [byteAt_append view tail 2 (by omega), List.length_append]
    exact ⟨by omega, hType, hKnown⟩
  length hState := by
    obtain ⟨hSize, hLength, hValid⟩ := h.length hState
    rw [lengthField_append view tail hSize, List.length_append]
    exact ⟨by omega, hLength, hValid⟩

theorem synced_of_waitForSync {p : SensorDataParser ρ} (view : BytesArray)
    (h : p.state = .waitForSync) : Synced p view where
  header hState := absurd h hState
  type hState := by simp [h] at hState
  length hState := by simp [h] at hState

/-- Every iteration keeps the members and the view in agreement. -/
theorem round_synced (d : BytesArray → ρ) (p : SensorDataParser ρ) (view : BytesArray)
    (h : Synced p view) :
    Synced (round d p view).parser (view.drop (round d p view).removed) := by
  generalize hRound : round d p view = r
  cases hRound ▸ round_spec d p view with
  | syncFound hState i hSync =>
    exact { header := fun _ => syncIndex_headerAt view i hSync
            type := fun hNext => by simp [startCandidate] at hNext
            length := fun hNext => by simp [startCandidate] at hNext }
  | noSync hState => exact synced_of_waitForSync _ hState
  | typeMissing | lengthMissing | payloadPending => exact h
  | typeKnown hState hSize type hType hKnown =>
    exact { header := fun _ => h.header (by simp [hState])
            type := fun _ => ⟨hSize, hType, hKnown⟩
            length := fun hNext => by simp [countType] at hNext }
  | lengthValid hState hSize hLength =>
    exact { header := fun _ => h.header (by simp [hState])
            type := fun _ => h.type (.inl hState)
            length := fun _ => ⟨hSize, rfl, hLength⟩ }
  | typeUnknown | lengthInvalid | packetValid | crcMismatch => exact synced_of_waitForSync _ rfl

theorem garbage_rest (view : BytesArray) :
    view.drop (garbageLength view) = [] ∨ view.drop (garbageLength view) = [headerByte0] := by
  unfold garbageLength
  split
  · rename_i hLast
    obtain ⟨front, rfl⟩ := List.getLast?_eq_some_iff.mp hLast
    exact .inr (by simp)
  · exact .inl (by simp)

/-- An iteration that changes nothing leaves a buffer at rest. -/
theorem rests_of_not_changed (d : BytesArray → ρ) (p : SensorDataParser ρ) (view : BytesArray)
    (h : Synced p view) (hChanged : (round d p view).stateChanged = false) :
    Rests p (view.drop (round d p view).removed) p.state := by
  generalize hRound : round d p view = r at hChanged
  cases hRound ▸ round_spec d p view with
  | noSync hState =>
    rw [hState]
    exact ⟨hState, garbage_rest view⟩
  | typeMissing hState hSize =>
    rw [hState]
    obtain ⟨rest, rfl⟩ := (headerAt_iff view).mp (h.header (by simp [hState]))
    have hRest : rest = [] := by
      apply List.eq_nil_of_length_eq_zero
      simp only [List.length_cons] at hSize
      omega
    exact ⟨hState, by rw [hRest]; rfl⟩
  | lengthMissing hState hSize =>
    rw [hState]
    obtain ⟨hLower, hType, hKnown⟩ := h.type (.inl hState)
    exact ⟨hState, by change view.length = 3 ∨ view.length = 4; omega,
      h.header (by simp [hState]), (ofByte_eq_iff _ _ hKnown).mp hType, (known_iff _).mp hKnown⟩
  | payloadPending hState hWait =>
    rw [hState]
    obtain ⟨_, hType, hKnown⟩ := h.type (.inr hState)
    obtain ⟨hSize, hLength, hLower, hUpper⟩ := h.length hState
    refine ⟨hState, hSize, h.header (by simp [hState]), (ofByte_eq_iff _ _ hKnown).mp hType,
      (known_iff _).mp hKnown, ?_, hLower, hUpper, fun hTelemetry => ?_⟩
    · rw [hLength]
      exact bigEndian16_toNat _ _
    · rw [← totalPacketSize_eq]
      exact hWait hTelemetry
  | syncFound | typeKnown | typeUnknown | lengthInvalid | lengthValid | packetValid | crcMismatch =>
    cases hChanged

theorem scanView_rests (d : BytesArray → ρ) (p : SensorDataParser ρ) (view : BytesArray)
    (h : Synced p view) :
    Rests (scanView d p view).1 (scanView d p view).2 (scanView d p view).1.state := by
  induction p, view using scanView_induction d with
  | empty p =>
    rw [scanView_nil]
    have hState : p.state = .waitForSync := by
      by_contra hState
      obtain ⟨rest, hRest⟩ := (headerAt_iff []).mp (h.header hState)
      cases hRest
    rw [hState]
    exact ⟨hState, .inl rfl⟩
  | stopped p view hView hChanged =>
    rw [scanView_of_not_changed d p hView hChanged]
    exact rests_of_not_changed d p view h hChanged
  | advanced p view hView hChanged ih =>
    rw [scanView_of_changed d p hView hChanged]
    exact ih (round_synced d p view h)

/-! ## Between calls -/

/-- The parser between calls: its buffer rests in the clause of its state. -/
def Idle (p : SensorDataParser ρ) : Prop := Rests p p.accumulatedData p.state

theorem Idle.synced {p : SensorDataParser ρ} (h : Idle p) : Synced p p.accumulatedData := by
  unfold Idle at h
  cases hState : p.state with
  | waitForSync => exact synced_of_waitForSync _ hState
  | readType =>
    rw [hState] at h
    exact { header := fun _ => h.2 ▸ List.prefix_rfl
            type := fun hNext => by simp [hState] at hNext
            length := fun hNext => by simp [hState] at hNext }
  | readLength =>
    rw [hState] at h
    obtain ⟨_, hSize, hHeader, hType, hKnown⟩ := h
    have hKnown := (known_iff _).mpr hKnown
    exact { header := fun _ => hHeader
            type := fun _ => ⟨by omega, (ofByte_eq_iff _ _ hKnown).mpr hType, hKnown⟩
            length := fun hNext => by simp [hState] at hNext }
  | readPayload =>
    rw [hState] at h
    obtain ⟨_, hSize, hHeader, hType, hKnown, hLength, hLower, hUpper, _⟩ := h
    have hKnown := (known_iff _).mpr hKnown
    have hField : p.expectedPayloadLength = lengthField p.accumulatedData :=
      BitVec.eq_of_toNat_eq (hLength.trans (bigEndian16_toNat _ _).symm)
    exact { header := fun _ => hHeader
            type := fun _ => ⟨by omega, (ofByte_eq_iff _ _ hKnown).mpr hType, hKnown⟩
            length := fun _ => ⟨hSize, hField, hLower, hUpper⟩ }

theorem processAccumulatedData_idle (d : BytesArray → ρ) (p : SensorDataParser ρ)
    (h : Synced p p.accumulatedData) : Idle (processAccumulatedData d p) := by
  rw [processAccumulatedData_eq]
  exact (rests_withBuffer _ _ _ _).mpr (scanView_rests d p p.accumulatedData h)

theorem Idle.processBatch (d : BytesArray → ρ) {p : SensorDataParser ρ} (h : Idle p)
    (chunks : List BytesArray) : Idle (processBatch d p chunks) := by
  rw [processBatch_eq]
  apply processAccumulatedData_idle
  have hSynced := h.synced.append chunks.flatten
  exact ⟨hSynced.header, hSynced.type, hSynced.length⟩

theorem Idle.processBatches (d : BytesArray → ρ) {p : SensorDataParser ρ} (h : Idle p)
    (batches : List (List BytesArray)) : Idle (processBatches d p batches) := by
  induction batches generalizing p with
  | nil => exact h
  | cons chunks batches ih => exact ih (h.processBatch d chunks)

theorem idle_init : Idle ({} : SensorDataParser ρ) := ⟨rfl, .inl rfl⟩

theorem Reachable.idle {d : BytesArray → ρ} {p : SensorDataParser ρ} (h : Reachable d p) :
    Idle p := by
  obtain ⟨batches, rfl⟩ := h
  exact idle_init.processBatches d batches

/-- Whatever the chunks, exactly one clause holds after every call. -/
theorem representation_invariant (deserializePayload : BytesArray → ρ)
    (batches : List (List BytesArray)) :
    let p := processBatches deserializePayload {} batches
    ∃! s, Rests p p.accumulatedData s := by
  intro p
  have hIdle : Idle p := idle_init.processBatches deserializePayload batches
  exact ⟨p.state, hIdle, fun s hs => hs.state_eq.symm⟩

end CounterDroneServer.SensorDataParser

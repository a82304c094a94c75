import CounterDroneServer.SensorDataParser.Representation

/-!
# What the parser spends and keeps

A round looks at the bytes that it removes and at no more than one packet beyond
them, so the work of a run grows with the bytes and the calls only. The buffer
holds less than one packet, or everything from a candidate on that is never settled.
-/

set_option autoImplicit false

namespace CounterDroneServer.SensorDataParser

universe u

variable {ρ : Type u}

/-! ## Work -/

/-- The front of the view that a round reads. -/
def bytesRead (p : SensorDataParser ρ) (view : BytesArray) : Nat :=
  match p.state with
  | .waitForSync =>
    match syncIndex view with
    | some i => i + 2
    | none => view.length
  | .readType => if 3 ≤ view.length then 3 else 0
  | .readLength => if 5 ≤ view.length then 5 else 0
  | .readPayload =>
    if p.type = .telemetry ∧ totalPacketSize p.expectedPayloadLength ≤ view.length then
      totalPacketSize p.expectedPayloadLength
    else 0

/-- One for the round and one for each byte it reads. -/
def work (c : Cursor ρ) : Nat := 1 + bytesRead c.parser c.view

/-- `processBatch`, with the work of its rounds. -/
def payBatch (d : BytesArray → ρ) (a : SensorDataParser ρ × Nat) (chunks : List BytesArray) :
    SensorDataParser ρ × Nat :=
  let p := a.1.append chunks.flatten
  (processBatch d a.1 chunks,
    (((loop d).observing fun spent c => spent + work c).run
      (⟨p, p.accumulatedData, true⟩, a.2)).2)

/-- The calls for the batches, with all the work they take. -/
def payBatches (d : BytesArray → ρ) (batches : List (List BytesArray)) : SensorDataParser ρ × Nat :=
  batches.foldl (payBatch d) ({}, 0)

theorem payBatches_fst (d : BytesArray → ρ) (batches : List (List BytesArray)) :
    (payBatches d batches).1 = processBatches d {} batches := by
  have h : ∀ a : SensorDataParser ρ × Nat,
      (batches.foldl (payBatch d) a).1 = processBatches d a.1 batches := by
    induction batches with
    | nil => exact fun _ => rfl
    | cons chunks batches ih => exact fun a => ih (payBatch d a chunks)
  exact h ({}, 0)

/-- Each byte of the view pays for its own removal and for four rounds of work on one
packet; the phase and a raised `state_changed` pay for a round each. -/
def potential (c : Cursor ρ) : Nat :=
  88 * (4 * c.view.length + phase c.parser.state + if c.stateChanged then 1 else 0) + c.view.length

theorem bytesRead_readPayload_le {p : SensorDataParser ρ} {view : BytesArray}
    (hState : p.state = .readPayload) (hSynced : Synced p view) : bytesRead p view ≤ 87 := by
  obtain ⟨-, -, -, hUpper⟩ := hSynced.length hState
  have hMax : p.expectedPayloadLength.toNat ≤ 80 := hUpper
  have hTotal := totalPacketSize_eq p.expectedPayloadLength
  simp only [bytesRead, hState]
  split
  · omega
  · omega

theorem work_le (d : BytesArray → ρ) (p : SensorDataParser ρ) (view : BytesArray)
    (hSynced : Synced p view) : 1 + bytesRead p view ≤ 88 + (round d p view).removed := by
  generalize hRound : round d p view = r
  cases hRound ▸ round_spec d p view with
  | syncFound hState i hSync =>
    simp only [bytesRead, hState, hSync]
    omega
  | noSync hState hSync =>
    simp only [bytesRead, hState, hSync, garbageLength]
    split
    · omega
    · omega
  | typeMissing hState | typeKnown hState | typeUnknown hState =>
    simp only [bytesRead, hState]
    split
    · omega
    · omega
  | lengthMissing hState | lengthInvalid hState | lengthValid hState =>
    simp only [bytesRead, hState]
    split
    · omega
    · omega
  | payloadPending hState | packetValid hState | crcMismatch hState =>
    have hPacket := bytesRead_readPayload_le hState hSynced
    simp only
    omega

theorem next_paid (d : BytesArray → ρ) (c : Cursor ρ) (hGuard : c.guard = true)
    (hSynced : Synced c.parser c.view) :
    Synced (c.next d).parser (c.next d).view ∧ work c + potential (c.next d) ≤ potential c := by
  have hWork := work_le d c.parser c.view hSynced
  have hRemoved := round_removed_le d c.parser c.view (Cursor.view_ne_nil hGuard)
  have hChanged : c.stateChanged = true := (Bool.and_eq_true_iff.mp hGuard).1
  refine ⟨round_synced d c.parser c.view hSynced, ?_⟩
  simp only [work, potential, Cursor.next, List.length_drop, hChanged, if_true]
  rcases Bool.eq_false_or_eq_true (round d c.parser c.view).stateChanged with hNext | hNext
  · have hPhase := round_phase_lt d c.parser c.view hNext
    simp only [hNext, if_true]
    omega
  · rw [round_parser_of_not_changed d c.parser c.view hNext]
    simp only [hNext, Bool.false_eq_true, if_false]
    omega

/-- What a call costs is paid by its bytes, by one round for itself and by what the
parser has kept of earlier bytes. -/
theorem payBatch_le (d : BytesArray → ρ) (a : SensorDataParser ρ × Nat) (chunks : List BytesArray)
    (h : Idle a.1) :
    (payBatch d a chunks).2 + (353 * (payBatch d a chunks).1.accumulatedData.length +
        88 * phase (payBatch d a chunks).1.state) ≤
      a.2 + (353 * a.1.accumulatedData.length + 88 * phase a.1.state) +
        353 * chunks.flatten.length + 88 := by
  have hAppended := h.synced.append chunks.flatten
  have hSynced : Synced (a.1.append chunks.flatten) (a.1.append chunks.flatten).accumulatedData :=
    ⟨hAppended.header, hAppended.type, hAppended.length⟩
  let start : Cursor ρ :=
    ⟨a.1.append chunks.flatten, (a.1.append chunks.flatten).accumulatedData, true⟩
  have hPaid := (loop d).work_run_le work potential (fun c hGuard => next_paid d c hGuard)
    start hSynced a.2
  have hAfter : (payBatch d a chunks).1 =
      ((loop d).run start).parser.withBuffer ((loop d).run start).view := by
    change processBatch d a.1 chunks = _
    rw [processBatch_eq, processAccumulatedData_eq]
    rfl
  have hStart : potential start = 353 * (a.1.accumulatedData.length + chunks.flatten.length) +
      88 * phase a.1.state + 88 := by
    have hLength : start.view.length = a.1.accumulatedData.length + chunks.flatten.length :=
      List.length_append
    have hPhase : phase start.parser.state = phase a.1.state := rfl
    simp only [potential, hLength, hPhase, start, if_true]
    omega
  have hEnd : 353 * ((loop d).run start).view.length + 88 * phase ((loop d).run start).parser.state ≤
      potential ((loop d).run start) := by
    unfold potential
    omega
  rw [hAfter]
  change _ + (353 * ((loop d).run start).view.length + 88 * phase ((loop d).run start).parser.state) ≤ _
  change _ + potential ((loop d).run start) ≤ _ at hPaid
  have hSpent : (payBatch d a chunks).2 =
      (((loop d).observing fun spent c => spent + work c).run (start, a.2)).2 := rfl
  omega

/-- Over any number of calls the work is linear: at most 353 for each byte that was fed,
and one packet more for each call. -/
theorem work_linear (d : BytesArray → ρ) (batches : List (List BytesArray)) :
    (payBatches d batches).1 = processBatches d {} batches ∧
      (payBatches d batches).2 ≤ 353 * batches.flatten.flatten.length + 88 * batches.length + 264 := by
  refine ⟨payBatches_fst d batches, ?_⟩
  have h : Idle (payBatches d batches).1 ∧
      (payBatches d batches).2 + (353 * (payBatches d batches).1.accumulatedData.length +
        88 * phase (payBatches d batches).1.state) ≤
      353 * batches.flatten.flatten.length + 88 * batches.length + 264 := by
    induction batches using List.reverseRecOn with
    | nil => exact ⟨idle_init, Nat.le_refl _⟩
    | append_singleton batches chunks ih =>
      obtain ⟨hIdle, hPaid⟩ := ih
      have hConcat : payBatches d (batches ++ [chunks]) = payBatch d (payBatches d batches) chunks :=
        List.foldl_concat ..
      have hBatch := payBatch_le d (payBatches d batches) chunks hIdle
      rw [hConcat]
      refine ⟨hIdle.processBatch d chunks, ?_⟩
      simp only [List.flatten_append, List.flatten_singleton, List.length_append, List.length_cons,
        List.length_nil] at hBatch ⊢
      omega
  omega

/-! ## Memory -/

/-- A candidate that is no telemetry packet stays in `READ_PAYLOAD`. -/
theorem processBatch_of_not_telemetry (d : BytesArray → ρ) {p : SensorDataParser ρ}
    (hState : p.state = .readPayload) (hType : p.type ≠ .telemetry) (chunks : List BytesArray) :
    processBatch d p chunks = p.append chunks.flatten := by
  have hRound : ∀ view, round d (p.append chunks.flatten) view = ⟨p.append chunks.flatten, 0, false⟩ :=
    fun view => round_eq_of_case (.payloadPending hState fun hTelemetry => absurd hTelemetry hType)
  rw [processBatch_eq, processAccumulatedData_eq]
  by_cases hView : (p.append chunks.flatten).accumulatedData = []
  · rw [hView, scanView_nil]
    exact congrArg (p.append chunks.flatten).withBuffer hView.symm
  · rw [scanView_of_not_changed d _ hView (by rw [hRound]), hRound]
    rfl

theorem processBatches_of_not_telemetry (d : BytesArray → ρ) {p : SensorDataParser ρ}
    (hState : p.state = .readPayload) (hType : p.type ≠ .telemetry) (batches : List (List BytesArray)) :
    processBatches d p batches = p.append batches.flatten.flatten := by
  induction batches generalizing p with
  | nil => exact congrArg p.withBuffer (List.append_nil _).symm
  | cons chunks batches ih =>
    change processBatches d (processBatch d p chunks) batches = _
    have hRest : processBatches d (p.append chunks.flatten) batches =
        (p.append chunks.flatten).append batches.flatten.flatten := ih hState hType
    rw [processBatch_of_not_telemetry d hState hType, hRest]
    simp [append, withBuffer]

/-- A candidate for which the source consumes nothing. -/
def AtHeartBeatOrCommand (p : SensorDataParser ρ) : Prop :=
  p.state = .readPayload ∧ (p.type = .heartBeat ∨ p.type = .command)

theorem AtHeartBeatOrCommand.type_ne {p : SensorDataParser ρ} (h : AtHeartBeatOrCommand p) :
    p.type ≠ .telemetry := by
  rcases h.2 with hType | hType
  all_goals
    rw [hType]
    decide

theorem Idle.length_le_or_atHeartBeatOrCommand {p : SensorDataParser ρ} (h : Idle p) :
    p.accumulatedData.length ≤ 86 ∨ AtHeartBeatOrCommand p := by
  unfold Idle at h
  cases hState : p.state with
  | waitForSync =>
    rw [hState] at h
    obtain ⟨-, hBuffer | hBuffer⟩ := h
    all_goals exact .inl (by simp [hBuffer])
  | readType =>
    rw [hState] at h
    exact .inl (by simp [h.2])
  | readLength =>
    rw [hState] at h
    obtain ⟨-, hSize, -⟩ := h
    exact .inl (by omega)
  | readPayload =>
    rw [hState] at h
    obtain ⟨-, -, -, -, hTelemetry | hOther, -, -, hUpper, hShort⟩ := h
    · have hSize := hShort hTelemetry
      exact .inl (by omega)
    · exact .inr ⟨hState, hOther⟩

/-- After any calls the buffer is shorter than the longest packet unless the parser has
come to a heart-beat or command candidate, and once it has it does nothing but keep
every byte that it is fed. -/
theorem buffer_bounded_or_kept_forever (d : BytesArray → ρ) (batches : List (List BytesArray)) :
    let p := processBatches d {} batches
    (p.accumulatedData.length ≤ 86 ∨ AtHeartBeatOrCommand p) ∧
      (AtHeartBeatOrCommand p →
        ∀ more, processBatches d p more = p.withBuffer (p.accumulatedData ++ more.flatten.flatten)) := by
  intro p
  have hIdle : Idle p := idle_init.processBatches d batches
  refine ⟨hIdle.length_le_or_atHeartBeatOrCommand, ?_⟩
  intro hCandidate more
  exact processBatches_of_not_telemetry d hCandidate.1 hCandidate.type_ne more

/-- Five bytes are enough. -/
example : AtHeartBeatOrCommand
    (processBatches (fun _ => ()) {} [[[headerByte0, headerByte1, 2, 0, 40]]]) := by
  refine ⟨?_, .inl ?_⟩
  all_goals decide +kernel

end CounterDroneServer.SensorDataParser

import CounterDroneServer.SensorDataParser.Representation
import CounterDroneServer.Library.Incremental

/-!
# Fragmentation independence

A round that advances on a prefix is the round taken on the longer view, and
what a waiting round drops is never the start of a header. So stopping at the
end of a batch and going on with the next one is the same as one long run. The
decoder sees what follows its packet, hence contents of records are left aside
by forgetting them.
-/

set_option autoImplicit false

namespace CounterDroneServer.SensorDataParser

universe u v

variable {ρ : Type u} {τ : Type v}

/-! ## Members that steer nothing

Neither the buffer itself nor the pushed records influence a round. -/

def relabel (g : BytesArray → BytesArray) (f : ρ → τ) (p : SensorDataParser ρ) :
    SensorDataParser τ :=
  { p with accumulatedData := g p.accumulatedData, pushedTelemetry := p.pushedTelemetry.map f }

theorem withBuffer_eq_relabel (p : SensorDataParser ρ) (buffer : BytesArray) :
    p.withBuffer buffer = p.relabel (fun _ => buffer) id := by
  simp only [withBuffer, relabel, List.map_id]

theorem relabel_acceptPacket (g : BytesArray → BytesArray) (f : ρ → τ) (p : SensorDataParser ρ)
    (packet : BytesArray) (record : ρ) :
    (p.acceptPacket packet record).relabel g f = (p.relabel g f).acceptPacket packet (f record) := by
  simp only [relabel, acceptPacket, List.map_append, List.map_cons, List.map_nil]

theorem round_relabel (g : BytesArray → BytesArray) (f : ρ → τ) (d : BytesArray → ρ)
    (p : SensorDataParser ρ) (view : BytesArray) :
    round (f ∘ d) (p.relabel g f) view =
      ⟨(round d p view).parser.relabel g f, (round d p view).removed,
        (round d p view).stateChanged⟩ := by
  generalize hRound : round d p view = r
  rw [round_eq_iff]
  cases hRound ▸ round_spec d p view with
  | syncFound hState i hSync => exact .syncFound (p := p.relabel g f) hState i hSync
  | noSync hState hSync => exact .noSync (p := p.relabel g f) hState hSync
  | typeMissing hState hSize => exact .typeMissing (p := p.relabel g f) hState hSize
  | typeKnown hState hSize type hType hKnown =>
    exact .typeKnown (p := p.relabel g f) hState hSize type hType hKnown
  | typeUnknown hState hSize hType => exact .typeUnknown (p := p.relabel g f) hState hSize hType
  | lengthMissing hState hSize => exact .lengthMissing (p := p.relabel g f) hState hSize
  | lengthInvalid hState hSize hLength =>
    exact .lengthInvalid (p := p.relabel g f) hState hSize hLength
  | lengthValid hState hSize hLength =>
    exact .lengthValid (p := p.relabel g f) hState hSize hLength
  | payloadPending hState hWait => exact .payloadPending (p := p.relabel g f) hState hWait
  | packetValid hState hType n hTotal hSize hCrc =>
    rw [relabel_acceptPacket]
    exact .packetValid (d := f ∘ d) (p := p.relabel g f) hState hType n hTotal hSize hCrc
  | crcMismatch hState hType n hTotal hSize hCrc =>
    exact .crcMismatch (p := p.relabel g f) hState hType n hTotal hSize hCrc

theorem scanView_relabel (g : BytesArray → BytesArray) (f : ρ → τ) (d : BytesArray → ρ)
    (p : SensorDataParser ρ) (view : BytesArray) :
    scanView (f ∘ d) (p.relabel g f) view =
      ((scanView d p view).1.relabel g f, (scanView d p view).2) := by
  have hRun := (loop d).run_map (loop (f ∘ d))
    (fun c => ⟨c.parser.relabel g f, c.view, c.stateChanged⟩) (fun _ => rfl)
    (fun c _ => by simp only [loop, Cursor.next, round_relabel]) ⟨p, view, true⟩
  simp only [scanView, hRun]

theorem scanView_withBuffer (d : BytesArray → ρ) (p : SensorDataParser ρ)
    (buffer view : BytesArray) :
    scanView d (p.withBuffer buffer) view =
      ((scanView d p view).1.withBuffer buffer, (scanView d p view).2) := by
  have h := scanView_relabel (fun _ => buffer) id d p view
  rwa [← withBuffer_eq_relabel, ← withBuffer_eq_relabel] at h

theorem processBatch_relabel (f : ρ → τ) (d : BytesArray → ρ) (p : SensorDataParser ρ)
    (chunks : List BytesArray) :
    processBatch (f ∘ d) (p.relabel id f) chunks = (processBatch d p chunks).relabel id f := by
  have hScan := scanView_relabel id f d (p.append chunks.flatten) (p.append chunks.flatten).accumulatedData
  simp only [processBatch_eq, processAccumulatedData_eq]
  exact congrArg (fun q => q.1.withBuffer q.2) hScan

theorem processBatches_relabel (f : ρ → τ) (d : BytesArray → ρ) (p : SensorDataParser ρ)
    (batches : List (List BytesArray)) :
    processBatches (f ∘ d) (p.relabel id f) batches =
      (processBatches d p batches).relabel id f := by
  induction batches generalizing p with
  | nil => rfl
  | cons chunks batches ih =>
    change processBatches (f ∘ d) (processBatch (f ∘ d) (p.relabel id f) chunks) batches = _
    rw [processBatch_relabel, ih]
    rfl

/-! ## Rounds on a longer view -/

theorem syncIndex_append (view tail : BytesArray) (i : Nat) (h : syncIndex view = some i) :
    syncIndex (view ++ tail) = some i := by
  induction view generalizing i with
  | nil => cases h
  | cons byte0 rest ih =>
    cases rest with
    | nil => cases h
    | cons byte1 rest =>
      simp only [List.cons_append, syncIndex] at h ⊢
      split at h
      · rename_i hHeader
        rw [if_pos hHeader, h]
      · rename_i hHeader
        obtain ⟨j, hj, rfl⟩ := Option.map_eq_some_iff.mp h
        rw [if_neg hHeader, ← List.cons_append, ih j hj]
        rfl

theorem crcMatches_append (view tail : BytesArray) (n : Nat) (hPositive : 2 ≤ n)
    (h : n ≤ view.length) : crcMatches (view ++ tail) n ↔ crcMatches view n := by
  rw [crcMatches, crcMatches, List.take_append_of_le_length (by omega),
    byteAt_append view tail _ (by omega), byteAt_append view tail _ (by omega)]

/-- A round that advances does not look past the view it is given. -/
theorem round_append (d : BytesArray → Unit) (p : SensorDataParser Unit) (view tail : BytesArray)
    (h : (round d p view).stateChanged = true) : round d p (view ++ tail) = round d p view := by
  have longer : ∀ n, n ≤ view.length → n ≤ (view ++ tail).length := by
    intro n hn
    rw [List.length_append]
    omega
  generalize hRound : round d p view = r at h
  rw [round_eq_iff]
  cases hRound ▸ round_spec d p view with
  | syncFound hState i hSync => exact .syncFound hState i (syncIndex_append view tail i hSync)
  | typeKnown hState hSize type hType hKnown =>
    rw [← byteAt_append view tail 2 hSize] at hType
    exact .typeKnown hState (longer 3 hSize) type hType hKnown
  | typeUnknown hState hSize hType =>
    rw [← byteAt_append view tail 2 hSize] at hType
    exact .typeUnknown hState (longer 3 hSize) hType
  | lengthInvalid hState hSize hLength =>
    rw [← lengthField_append view tail hSize] at hLength ⊢
    exact .lengthInvalid hState (longer 5 hSize) hLength
  | lengthValid hState hSize hLength =>
    rw [← lengthField_append view tail hSize] at hLength ⊢
    exact .lengthValid hState (longer 5 hSize) hLength
  | packetValid hState hType n hTotal hSize hCrc =>
    have hn : 2 ≤ n := by rw [totalPacketSize_eq] at hTotal; omega
    rw [← crcMatches_append view tail n hn hSize] at hCrc
    rw [← List.take_append_of_le_length hSize]
    exact .packetValid hState hType n hTotal (longer n hSize) hCrc
  | crcMismatch hState hType n hTotal hSize hCrc =>
    have hn : 2 ≤ n := by rw [totalPacketSize_eq] at hTotal; omega
    rw [← crcMatches_append view tail n hn hSize] at hCrc
    exact .crcMismatch hState hType n hTotal (longer n hSize) hCrc
  | noSync | typeMissing | lengthMissing | payloadPending => cases h

/-! ## Garbage in front of a header -/

theorem headerAt_cons_cons (byte0 byte1 : Byte) (rest : BytesArray) :
    HeaderAt (byte0 :: byte1 :: rest) ↔ byte0 = headerByte0 ∧ byte1 = headerByte1 := by
  rw [headerAt_iff]
  constructor
  · rintro ⟨_, h⟩
    cases h
    exact ⟨rfl, rfl⟩
  · rintro ⟨rfl, rfl⟩
    exact ⟨rest, rfl⟩

theorem not_headerAt_singleton (byte : Byte) : ¬HeaderAt [byte] := by
  rw [headerAt_iff]
  rintro ⟨_, h⟩
  cases h

theorem syncIndex_of_headerAt {view : BytesArray} (h : HeaderAt view) :
    syncIndex view = some 0 := by
  obtain ⟨rest, rfl⟩ := (headerAt_iff view).mp h
  rw [syncIndex, if_pos ⟨rfl, rfl⟩]

theorem syncIndex_cons {byte : Byte} {rest : BytesArray} (h : ¬HeaderAt (byte :: rest)) :
    syncIndex (byte :: rest) = (syncIndex rest).map (· + 1) := by
  cases rest with
  | nil => rfl
  | cons byte1 rest =>
    rw [headerAt_cons_cons] at h
    rw [syncIndex, if_neg h]

theorem garbageLength_cons {byte : Byte} {rest : BytesArray} (h : byte :: rest ≠ [headerByte0]) :
    garbageLength (byte :: rest) = garbageLength rest + 1 := by
  cases rest with
  | nil =>
    have hByte : byte ≠ headerByte0 := fun hEq => h (by rw [hEq])
    simp [garbageLength, hByte]
  | cons byte1 rest =>
    simp only [garbageLength, List.getLast?_cons_cons, List.length_cons]
    split <;> omega

/-- `WAIT_FOR_SYNC` treats a view and its tail alike unless a header may start
at the first byte. -/
theorem scanView_skip (d : BytesArray → ρ) {p : SensorDataParser ρ} (hState : p.state = .waitForSync)
    {byte : Byte} {rest : BytesArray} (hHeader : ¬HeaderAt (byte :: rest))
    (hOpen : byte :: rest ≠ [headerByte0]) :
    scanView d p (byte :: rest) = scanView d p rest := by
  have hIndex := syncIndex_cons hHeader
  have hGarbage := garbageLength_cons hOpen
  cases hSync : syncIndex rest with
  | some i =>
    rw [hSync] at hIndex
    have hRest : rest ≠ [] := by
      rintro rfl
      cases hSync
    have hLong := round_eq_of_case (RoundCase.syncFound (d := d) hState (i + 1) hIndex)
    have hShort := round_eq_of_case (RoundCase.syncFound (d := d) hState i hSync)
    rw [scanView_of_changed d p (List.cons_ne_nil _ _) (by rw [hLong]),
      scanView_of_changed d p hRest (by rw [hShort]), hLong, hShort]
    rfl
  | none =>
    rw [hSync] at hIndex
    have hLong := round_eq_of_case (RoundCase.noSync (d := d) hState hIndex)
    have hShort := round_eq_of_case (RoundCase.noSync (d := d) hState hSync)
    rw [scanView_of_not_changed d p (List.cons_ne_nil _ _) (by rw [hLong]), hLong, hGarbage]
    cases rest with
    | nil => rfl
    | cons byte1 rest =>
      rw [scanView_of_not_changed d p (List.cons_ne_nil _ _) (by rw [hShort]), hShort]
      rfl

/-- The bytes a waiting round drops do not matter for what comes later. -/
theorem scanView_drop_garbage (d : BytesArray → ρ) {p : SensorDataParser ρ}
    (hState : p.state = .waitForSync) (view tail : BytesArray) (hSync : syncIndex view = none) :
    scanView d p (view ++ tail) = scanView d p (view.drop (garbageLength view) ++ tail) := by
  induction view with
  | nil => rfl
  | cons byte rest ih =>
    have hHeader : ¬HeaderAt (byte :: rest) := fun h => by
      rw [syncIndex_of_headerAt h] at hSync
      cases hSync
    by_cases hOpen : byte :: rest = [headerByte0]
    · rw [hOpen]
      rfl
    · rw [syncIndex_cons hHeader] at hSync
      rw [garbageLength_cons hOpen, List.drop_succ_cons, ← ih (Option.map_eq_none_iff.mp hSync)]
      apply scanView_skip d hState
      · cases rest with
        | nil =>
          have hByte : byte ≠ headerByte0 := fun hEq => hOpen (by rw [hEq])
          cases tail with
          | nil => exact not_headerAt_singleton byte
          | cons byte1 tail => exact fun h => hByte ((headerAt_cons_cons _ _ _).mp h).1
        | cons byte1 rest =>
          rw [headerAt_cons_cons] at hHeader
          exact fun h => hHeader ((headerAt_cons_cons _ _ _).mp h)
      · intro hEq
        cases rest with
        | nil => exact hOpen (by simpa using List.cons.inj hEq |>.1)
        | cons byte1 rest => cases hEq

/-! ## Cutting the stream -/

theorem scanView_append (d : BytesArray → Unit) (p : SensorDataParser Unit)
    (view tail : BytesArray) :
    scanView d p (view ++ tail) = scanView d (scanView d p view).1 ((scanView d p view).2 ++ tail) := by
  induction p, view using scanView_induction d with
  | empty p => rw [scanView_nil]
  | stopped p view hView hChanged =>
    rw [scanView_of_not_changed d p hView hChanged]
    generalize hRound : round d p view = r at hChanged
    cases hRound ▸ round_spec d p view with
    | noSync hState hSync => exact scanView_drop_garbage d hState view tail hSync
    | typeMissing | lengthMissing | payloadPending => rfl
    | _ => cases hChanged
  | advanced p view hView hChanged ih =>
    have hRound := round_append d p view tail hChanged
    have hTail : view ++ tail ≠ [] := fun h => hView (List.append_eq_nil_iff.mp h).1
    rw [scanView_of_changed d p hView hChanged, ← ih,
      scanView_of_changed d p hTail (by rw [hRound, hChanged]), hRound,
      List.drop_append_of_le_length (round_removed_le d p view hView)]

/-- The loop of `process_accumulated_data` scans incrementally. -/
def framing (d : BytesArray → Unit) : Incremental (SensorDataParser Unit) Byte where
  scan := scanView d
  scan_append := scanView_append d

/-- The members together with the bytes they keep. -/
def pack (q : SensorDataParser ρ × BytesArray) : SensorDataParser ρ := q.1.withBuffer q.2

theorem processAccumulatedData_append (d : BytesArray → ρ) (q : SensorDataParser ρ × BytesArray)
    (bytes : BytesArray) :
    processAccumulatedData d ((pack q).append bytes) = pack (scanView d q.1 (q.2 ++ bytes)) := by
  have hBuffer : (pack q).append bytes = q.1.withBuffer (q.2 ++ bytes) := rfl
  rw [hBuffer, processAccumulatedData_eq, scanView_withBuffer]
  rfl

theorem processBatches_pack (d : BytesArray → Unit) (q : SensorDataParser Unit × BytesArray)
    (batches : List (List BytesArray)) :
    processBatches d (pack q) batches = pack ((framing d).feedAll q (batches.map List.flatten)) := by
  induction batches generalizing q with
  | nil => rfl
  | cons chunks batches ih =>
    change processBatches d (processBatch d (pack q) chunks) batches = _
    rw [processBatch_eq, processAccumulatedData_append, ih]
    rfl

theorem settled_init (d : BytesArray → Unit) : (framing d).Settled ({}, []) := scanView_nil d {}

/-- A run from the initial state is one scan of the whole stream. -/
theorem processBatches_init (d : BytesArray → Unit) (batches : List (List BytesArray)) :
    processBatches d {} batches = pack (scanView d {} batches.flatten.flatten) := by
  change processBatches d (pack ({}, [])) batches = _
  rw [processBatches_pack, (settled_init d).feedAll_eq, List.flatten_flatten]
  rfl

/-- All that a run does to the parser, apart from the contents of the records. -/
structure SameTraffic (p q : SensorDataParser ρ) : Prop where
  state : p.state = q.state
  accumulatedData : p.accumulatedData = q.accumulatedData
  type : p.type = q.type
  expectedPayloadLength : p.expectedPayloadLength = q.expectedPayloadLength
  receivedValidPackets : p.receivedValidPackets = q.receivedValidPackets
  crcErrorsCount : p.crcErrorsCount = q.crcErrorsCount
  invalidStructureCount : p.invalidStructureCount = q.invalidStructureCount
  telemetryPktCount : p.telemetryPktCount = q.telemetryPktCount
  heartBeatPktCount : p.heartBeatPktCount = q.heartBeatPktCount
  cmdPktCount : p.cmdPktCount = q.cmdPktCount
  pushedTelemetry : p.pushedTelemetry.length = q.pushedTelemetry.length

def forget (p : SensorDataParser ρ) : SensorDataParser Unit := p.relabel id (fun _ => ())

theorem forget_init : ({} : SensorDataParser ρ).forget = {} := rfl

theorem sameTraffic_of_forget_eq {p q : SensorDataParser ρ} (h : p.forget = q.forget) :
    SameTraffic p q := by
  injection h with hData hState hLength hType hPackets hCrc hInvalid hTelemetry hHeartBeat hCmd hPushed
  exact ⟨hState, hData, hType, hLength, hPackets, hCrc, hInvalid, hTelemetry, hHeartBeat, hCmd,
    by simpa using congrArg List.length hPushed⟩

theorem processBatches_forget (d : BytesArray → ρ) (p : SensorDataParser ρ)
    (batches : List (List BytesArray)) :
    (processBatches d p batches).forget = processBatches (fun _ => ()) p.forget batches :=
  (processBatches_relabel (fun _ => ()) d p batches).symm

/-- However the stream is cut into chunks and the chunks into batches, the run
ends as if the whole stream had been processed by one call. -/
theorem fragmentation_independence (deserializePayload : BytesArray → ρ) (p : SensorDataParser ρ)
    (hReachable : Reachable deserializePayload p) (batches : List (List BytesArray)) :
    SameTraffic (processBatches deserializePayload p batches)
      (processAccumulatedData deserializePayload (p.append batches.flatten.flatten)) := by
  obtain ⟨before, rfl⟩ := hReachable
  have hOnce : processAccumulatedData deserializePayload
      ((processBatches deserializePayload {} before).append batches.flatten.flatten) =
      processBatches deserializePayload (processBatches deserializePayload {} before)
        [[batches.flatten.flatten]] := by
    simp only [processBatches, List.foldl_cons, List.foldl_nil, processBatch_eq,
      List.flatten_cons, List.flatten_nil, List.append_nil]
  apply sameTraffic_of_forget_eq
  rw [hOnce]
  simp only [processBatches_forget, forget_init]
  change processBatches _ (processBatches _ (pack ({}, [])) before) _ =
    processBatches _ (processBatches _ (pack ({}, [])) before) _
  have hSettled := (settled_init fun _ => ()).feedAll (before.map List.flatten)
  simp only [processBatches_pack, hSettled.feedAll_eq, List.flatten_flatten, List.map_cons,
    List.map_nil, List.flatten_cons, List.flatten_nil, List.append_nil]

theorem fragmentation_independence_split_frame :
    SameTraffic
      (processBatches id (processBatches id {} [[[0xAA]]]) [[[0x55], [0x01]], [[0x00, 0x28]]])
      (processAccumulatedData id
        ((processBatches id {} [[[0xAA]]]).append [0x55, 0x01, 0x00, 0x28])) :=
  fragmentation_independence id _ ⟨[[[0xAA]]], rfl⟩ [[[0x55], [0x01]], [[0x00, 0x28]]]

end CounterDroneServer.SensorDataParser

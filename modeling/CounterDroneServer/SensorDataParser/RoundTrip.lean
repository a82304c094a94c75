import CounterDroneServer.SensorDataParser.Sourced
import CounterDroneServer.SensorDataParser.Deserialize

/-!
# From the encoder to the telemetry queue

A packet built from a record with at most 39 identifier bytes is a frame in
front of anything. Framing is followed on the whole stream, whatever the chunks
are; the records come from the packets, each decoded in front of some tail.
-/

set_option autoImplicit false

namespace CounterDroneServer.SensorDataParser

open ByteOrder

universe u

variable {ρ : Type u}

/-! ## A built packet is a frame -/

theorem buildTelemetryPacket_eq (t : TelemetryData) :
    buildTelemetryPacket t =
      headerByte0 :: headerByte1 :: 1 ::
        highByte (BitVec.ofNat 16 (41 + t.droneId.length)) ::
        lowByte (BitVec.ofNat 16 (41 + t.droneId.length)) ::
        (serializeTelemetryDataToBytesSequence t ++
          [highByte (calculateCrc16 (packetBody t)), lowByte (calculateCrc16 (packetBody t))]) := by
  simp only [buildTelemetryPacket, packetBody, serializeTelemetryDataToBytesSequence_length]
  rfl

theorem packetBody_length (t : TelemetryData) : (packetBody t).length = 46 + t.droneId.length := by
  simp only [packetBody, List.length_append, List.length_cons, List.length_nil,
    serializeTelemetryDataToBytesSequence_length]
  omega

theorem frameLength_build (t : TelemetryData) (tail : BytesArray) (hId : t.droneId.length ≤ 39) :
    frameLength (buildTelemetryPacket t ++ tail) = 41 + t.droneId.length := by
  rw [frameLength_eq, buildTelemetryPacket_eq]
  change (bigEndian16 (highByte _) (lowByte _)).toNat = _
  rw [bigEndian16_high_low, BitVec.toNat_ofNat]
  omega

theorem byteAt_append_right (front back : BytesArray) (i : Nat) :
    byteAt (front ++ back) (front.length + i) = byteAt back i := by
  simp only [byteAt, List.getD_eq_getElem?_getD, List.getElem?_append_right (Nat.le_add_right _ _),
    Nat.add_sub_cancel_left]

theorem frameAt_build (t : TelemetryData) (tail : BytesArray) (hId : t.droneId.length ≤ 39) :
    FrameAt (buildTelemetryPacket t ++ tail) := by
  have hLength := frameLength_build t tail hId
  have hSize : (buildTelemetryPacket t ++ tail).length = 48 + t.droneId.length + tail.length := by
    rw [List.length_append, buildTelemetryPacket_length]
  have hBody := packetBody_length t
  have hSplit : buildTelemetryPacket t ++ tail = packetBody t ++
      ([highByte (calculateCrc16 (packetBody t)), lowByte (calculateCrc16 (packetBody t))] ++ tail) :=
    List.append_assoc _ _ _
  refine ⟨?_, by omega, ?_, by rw [AdmittedLength]; omega, by omega, ?_⟩
  · rw [buildTelemetryPacket_eq, headerAt_iff]
    exact ⟨_, rfl⟩
  · rw [buildTelemetryPacket_eq]
    rfl
  · have hHigh : 5 + frameLength (buildTelemetryPacket t ++ tail) = (packetBody t).length + 0 := by
      omega
    have hLow : 6 + frameLength (buildTelemetryPacket t ++ tail) = (packetBody t).length + 1 := by
      omega
    rw [hHigh, hLow, hSplit, List.take_left' (Nat.add_zero _).symm, byteAt_append_right,
      byteAt_append_right, ← bigEndian16_toNat]
    change _ = (bigEndian16 (highByte _) (lowByte _)).toNat
    rw [bigEndian16_high_low]

theorem take_build (t : TelemetryData) (tail : BytesArray) (hId : t.droneId.length ≤ 39) :
    (buildTelemetryPacket t ++ tail).take (7 + frameLength (buildTelemetryPacket t ++ tail)) =
      buildTelemetryPacket t := by
  apply List.take_left'
  rw [frameLength_build t tail hId, buildTelemetryPacket_length]
  omega

theorem drop_build (t : TelemetryData) (tail : BytesArray) (hId : t.droneId.length ≤ 39) :
    (buildTelemetryPacket t ++ tail).drop (7 + frameLength (buildTelemetryPacket t ++ tail)) =
      tail := by
  apply List.drop_left'
  rw [frameLength_build t tail hId, buildTelemetryPacket_length]
  omega

theorem deserializePayload_build (t : TelemetryData) (tail : BytesArray)
    (hId : t.droneId.length ≤ 39) :
    deserializePayload ((buildTelemetryPacket t ++ tail).drop 5) = some t := by
  rw [buildTelemetryPacket_eq]
  change deserializePayload ((serializeTelemetryDataToBytesSequence t ++ _) ++ tail) = _
  rw [List.append_assoc]
  exact deserializePayload_serialize t (by omega) _

/-! ## Each record is decoded from its packet -/

/-- The records pushed are those of the packets received, in the same order;
each was decoded in front of the bytes that happened to follow its packet. -/
def Decoded (d : BytesArray → ρ) (p : SensorDataParser ρ) : Prop :=
  List.Forall₂ (fun packet record => ∃ tail, record = d ((packet ++ tail).drop 5))
    p.receivedValidPackets p.pushedTelemetry

theorem processBatches_decoded (d : BytesArray → ρ) (batches : List (List BytesArray)) :
    Decoded d (processBatches d {} batches) := by
  apply List.Forall₂.imp _ (processBatches_sourced d batches)
  rintro packet record ⟨view, -, -, rfl, rfl⟩
  refine ⟨view.drop (7 + frameLength view), ?_⟩
  rw [List.take_append_drop]

/-- Where the tails do not matter, the packets determine the records. -/
theorem Decoded.eq_map {d : BytesArray → ρ} {p : SensorDataParser ρ} (h : Decoded d p)
    {τ : Type} (packet : τ → BytesArray) (record : τ → ρ) (ts : List τ)
    (hPackets : p.receivedValidPackets = ts.map packet)
    (hRecord : ∀ t ∈ ts, ∀ tail, d ((packet t ++ tail).drop 5) = record t) :
    p.pushedTelemetry = ts.map record := by
  rw [Decoded, hPackets] at h
  generalize p.pushedTelemetry = records at h
  clear hPackets
  induction ts generalizing records with
  | nil =>
    cases h
    rfl
  | cons t ts ih =>
    cases h with
    | cons hHead hTail =>
      obtain ⟨tail, rfl⟩ := hHead
      rw [List.map_cons, hRecord t List.mem_cons_self tail,
        ih (fun t ht => hRecord t (List.mem_cons_of_mem _ ht)) _ hTail]

/-! ## The stream of packets -/

theorem scanView_packets (d : BytesArray → ρ) (ts : List TelemetryData)
    (hIds : ∀ t ∈ ts, t.droneId.length ≤ 39) (p : SensorDataParser ρ)
    (hState : p.state = .waitForSync) :
    ∃ q : SensorDataParser ρ, scanView d p (ts.map buildTelemetryPacket).flatten = (q, []) ∧
      q.state = .waitForSync ∧
      q.receivedValidPackets = p.receivedValidPackets ++ ts.map buildTelemetryPacket ∧
      q.telemetryPktCount = p.telemetryPktCount + ts.length ∧
      q.crcErrorsCount = p.crcErrorsCount ∧
      q.invalidStructureCount = p.invalidStructureCount := by
  induction ts generalizing p with
  | nil => exact ⟨p, scanView_nil d p, hState, (List.append_nil _).symm, rfl, rfl, rfl⟩
  | cons t ts ih =>
    have hId := hIds t List.mem_cons_self
    rw [List.map_cons, List.flatten_cons, scanView_frame d hState (frameAt_build t _ hId),
      take_build t _ hId, drop_build t _ hId]
    obtain ⟨q, hScan, hWait, hPackets, hTelemetry, hCrc, hInvalid⟩ :=
      ih (fun t ht => hIds t (List.mem_cons_of_mem _ ht))
        ((p.openPayload .telemetry (lengthField _)).acceptPacket _ _) rfl
    refine ⟨q, hScan, hWait, ?_, ?_, hCrc, hInvalid⟩
    · rw [hPackets]
      exact List.append_assoc _ [_] _
    · rw [hTelemetry, List.length_cons, Nat.add_comm ts.length]
      exact Nat.add_assoc _ 1 _

/-- Whatever the decoder, chunks and batches, every packet of a stream of built
packets is received, and the parser is left ready for the next one. -/
theorem processBatches_packets (d : BytesArray → ρ) (ts : List TelemetryData)
    (hIds : ∀ t ∈ ts, t.droneId.length ≤ 39) (batches : List (List BytesArray))
    (hStream : batches.flatten.flatten = (ts.map buildTelemetryPacket).flatten) :
    let p := processBatches d {} batches
    p.receivedValidPackets = ts.map buildTelemetryPacket ∧
      p.telemetryPktCount = ts.length ∧ p.crcErrorsCount = 0 ∧ p.invalidStructureCount = 0 ∧
      p.state = .waitForSync ∧ p.accumulatedData = [] := by
  intro p
  obtain ⟨q, hScan, hWait, hPackets, hTelemetry, hCrc, hInvalid⟩ :=
    scanView_packets (fun _ => ()) ts hIds {} rfl
  have hForget : p.forget = q.withBuffer [] := by
    rw [processBatches_forget, forget_init, processBatches_init, hStream, hScan]
    rfl
  refine ⟨?_, ?_, ?_, ?_, ?_, ?_⟩
  · exact (congrArg receivedValidPackets hForget).trans hPackets
  · exact (congrArg telemetryPktCount hForget).trans (hTelemetry.trans (Nat.zero_add _))
  · exact (congrArg crcErrorsCount hForget).trans hCrc
  · exact (congrArg invalidStructureCount hForget).trans hInvalid
  · exact (congrArg state hForget).trans hWait
  · exact congrArg accumulatedData hForget

theorem pushedTelemetry_packets (ts : List TelemetryData)
    (hIds : ∀ t ∈ ts, t.droneId.length ≤ 39) (batches : List (List BytesArray))
    (hStream : batches.flatten.flatten = (ts.map buildTelemetryPacket).flatten) :
    (processBatches deserializePayload {} batches).pushedTelemetry = ts.map some := by
  have hReceived := (processBatches_packets deserializePayload ts hIds batches hStream).1
  exact (processBatches_decoded deserializePayload batches).eq_map buildTelemetryPacket some ts
    hReceived (fun t ht tail => deserializePayload_build t tail (hIds t ht))

/-- Whatever the chunks and batches, a stream of built packets delivers its
records in order and leaves the parser ready for the next packet. -/
theorem packet_stream_round_trip (ts : List TelemetryData)
    (hIds : ∀ t ∈ ts, t.droneId.length ≤ 39) (batches : List (List BytesArray))
    (hStream : batches.flatten.flatten = (ts.map buildTelemetryPacket).flatten) :
    let p := processBatches deserializePayload {} batches
    p.pushedTelemetry = ts.map some ∧
      p.receivedValidPackets = ts.map buildTelemetryPacket ∧
      p.telemetryPktCount = ts.length ∧ p.crcErrorsCount = 0 ∧ p.invalidStructureCount = 0 ∧
      p.state = .waitForSync ∧ p.accumulatedData = [] := by
  intro p
  exact ⟨pushedTelemetry_packets ts hIds batches hStream,
    processBatches_packets deserializePayload ts hIds batches hStream⟩

theorem packet_stream_round_trip_two_records :
    let t : TelemetryData := ⟨[0xAA, 0x55], 1, 2, 3, 4, 5⟩
    let u : TelemetryData := ⟨[], 0, 0, 0, 0, 0⟩
    let stream := buildTelemetryPacket t ++ buildTelemetryPacket u
    let p := processBatches deserializePayload {} [[stream.take 3], [(stream.drop 3).take 60, stream.drop 63]]
    p.pushedTelemetry = [some t, some u] ∧
      p.receivedValidPackets = [buildTelemetryPacket t, buildTelemetryPacket u] ∧
      p.telemetryPktCount = 2 ∧ p.crcErrorsCount = 0 ∧ p.invalidStructureCount = 0 ∧
      p.state = .waitForSync ∧ p.accumulatedData = [] := by
  intro t u stream
  exact packet_stream_round_trip [t, u] (by decide) _ (by
    have hTail : (stream.drop 3).take 60 ++ stream.drop 63 = stream.drop 3 := by
      rw [show stream.drop 63 = (stream.drop 3).drop 60 by rw [List.drop_drop], List.take_append_drop]
    simp only [List.flatten_cons, List.flatten_nil, List.append_nil, List.nil_append,
      List.cons_append, List.map_cons, List.map_nil, hTail, List.take_append_drop]
    rfl)

end CounterDroneServer.SensorDataParser

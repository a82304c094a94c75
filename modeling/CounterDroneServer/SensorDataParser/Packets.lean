import CounterDroneServer.SensorDataParser.RoundTrip

/-!
# The packets that were received and the records pushed for them

The record of a received packet was decoded where its frame starts. So the
encoder gives a well-formed packet back, and a built packet delivers its record
where the identifier is short, and never where it is long.
-/

set_option autoImplicit false

namespace CounterDroneServer.SensorDataParser

open ByteOrder

universe u

variable {ρ : Type u}

/-! ## Encoding what was decoded -/

theorem take_add_one_byteAt {view : BytesArray} {n : Nat} (hSize : n < view.length) :
    view.take (n + 1) = view.take n ++ [byteAt view n] := by
  rw [List.take_add_one, byteAt, List.getD_eq_getElem?_getD, List.getElem?_eq_getElem hSize]
  rfl

/-- The checksum of a frame as the encoder appends it. -/
theorem FrameAt.take_eq {view : BytesArray} (h : FrameAt view) :
    let body := view.take (5 + frameLength view)
    view.take (7 + frameLength view) =
      body ++ [highByte (calculateCrc16 body), lowByte (calculateCrc16 body)] := by
  intro body
  obtain ⟨-, -, -, -, hTotal, hCrc⟩ := h
  have hChecksum : calculateCrc16 body =
      bigEndian16 (byteAt view (5 + frameLength view)) (byteAt view (6 + frameLength view)) := by
    apply BitVec.eq_of_toNat_eq
    rw [hCrc, bigEndian16_toNat]
  have hHigh : view.take (5 + frameLength view + 1) = body ++ [byteAt view (5 + frameLength view)] :=
    take_add_one_byteAt (by omega)
  have hLow : view.take (5 + frameLength view + 1 + 1) =
      view.take (5 + frameLength view + 1) ++ [byteAt view (5 + frameLength view + 1)] :=
    take_add_one_byteAt (by omega)
  have hLast : 5 + frameLength view + 1 = 6 + frameLength view := by omega
  have hAll : 5 + frameLength view + 1 + 1 = 7 + frameLength view := by omega
  rw [hChecksum, highByte_bigEndian16, lowByte_bigEndian16, ← hAll, hLow, hHigh, hLast,
    List.append_assoc]
  rfl

/-- The first five bytes of a frame. -/
theorem FrameAt.cons_eq {view : BytesArray} (h : FrameAt view) :
    ∃ high low payloadView, view = headerByte0 :: headerByte1 :: 1 :: high :: low :: payloadView ∧
      frameLength view = (bigEndian16 high low).toNat ∧
      2 + frameLength view ≤ payloadView.length := by
  obtain ⟨hHeader, hSize, hType, -, hTotal, -⟩ := h
  obtain ⟨rest, rfl⟩ := (headerAt_iff view).mp hHeader
  match rest with
  | [] | [_] | [_, _] => simp only [List.length_cons, List.length_nil] at hSize; omega
  | type :: high :: low :: payloadView =>
    obtain rfl : type = 1 := hType
    refine ⟨high, low, payloadView, rfl, (bigEndian16_toNat high low).symm, ?_⟩
    simp only [List.length_cons] at hTotal
    omega

theorem build_of_frame {view : BytesArray} (hFrame : FrameAt view)
    (hId : (byteAt view 5).toNat + 41 = frameLength view) :
    ∃ t, deserializePayload (view.drop 5) = some t ∧
      buildTelemetryPacket t = view.take (7 + frameLength view) := by
  obtain ⟨high, low, payloadView, hView, hLength, hSize⟩ := hFrame.cons_eq
  have hTake := hFrame.take_eq
  generalize frameLength view = n at *
  subst hView
  change (byteAt payloadView 0).toNat + 41 = n at hId
  have hFits : (byteAt payloadView 0).toNat + 41 ≤ payloadView.length := by omega
  obtain ⟨t, hDecoded, hSerialize⟩ := serialize_decoded hFits
  refine ⟨t, hDecoded, ?_⟩
  rw [hId] at hSerialize
  have hField : BitVec.ofNat 16 (payloadView.take n).length = bigEndian16 high low := by
    rw [List.length_take, Nat.min_eq_left (by omega), hLength, BitVec.ofNat_toNat,
      BitVec.setWidth_eq]
  have hBody : packetBody t = headerByte0 :: headerByte1 :: 1 :: high :: low :: payloadView.take n := by
    rw [packetBody, hSerialize, hField, highByte_bigEndian16, lowByte_bigEndian16]
    rfl
  rw [hTake, buildTelemetryPacket, hBody, Nat.add_comm 5 n]
  rfl

/-- The identifier length in the packet is the one its length field allows. -/
def WellFormedPacket (packet : BytesArray) : Prop :=
  (byteAt packet payloadStartingIdx).toNat + 41 = (lengthField packet).toNat

instance (packet : BytesArray) : Decidable (WellFormedPacket packet) :=
  inferInstanceAs (Decidable (_ = _))

theorem build_of_source {stream packet : BytesArray} {record : Option TelemetryData}
    (hSource : FromFrame deserializePayload stream packet record)
    (hWellFormed : WellFormedPacket packet) :
    ∃ t, record = some t ∧ buildTelemetryPacket t = packet := by
  obtain ⟨view, -, hFrame, rfl, rfl⟩ := hSource
  obtain ⟨-, hSize, -, hAdmitted, hTotal, -⟩ := id hFrame
  have hLonger : 7 + frameLength view ≤ (view.take (7 + frameLength view)).length := by
    rw [List.length_take]
    omega
  have hId : byteAt (view.take (7 + frameLength view)) 5 = byteAt view 5 := by
    rw [← byteAt_append _ (view.drop (7 + frameLength view)) 5 (by omega), List.take_append_drop]
  have hLength : lengthField (view.take (7 + frameLength view)) = lengthField view := by
    rw [← lengthField_append _ (view.drop (7 + frameLength view)) (by omega),
      List.take_append_drop]
  apply build_of_frame hFrame
  rw [← hId]
  exact hWellFormed.trans (by rw [hLength, frameLength_eq])

theorem received_build {p : SensorDataParser (Option TelemetryData)}
    (h : Reachable deserializePayload p) {i : Nat} {packet : BytesArray}
    (hPacket : p.receivedValidPackets[i]? = some packet) (hWellFormed : WellFormedPacket packet) :
    ∃ t, p.pushedTelemetry[i]? = some (some t) ∧ buildTelemetryPacket t = packet := by
  obtain ⟨batches, rfl⟩ := h
  have hSourced := processBatches_sourced deserializePayload batches
  obtain ⟨hIndex, hGet⟩ := List.getElem?_eq_some_iff.mp hPacket
  have hRecord : i < (processBatches deserializePayload {} batches).pushedTelemetry.length :=
    hSourced.length_eq ▸ hIndex
  have hSource := List.Forall₂.get hSourced hIndex hRecord
  rw [List.get_eq_getElem, hGet] at hSource
  obtain ⟨t, hDecoded, hBuild⟩ := build_of_source hSource hWellFormed
  refine ⟨t, ?_, hBuild⟩
  rw [List.getElem?_eq_getElem hRecord, ← hDecoded]
  rfl

/-- The encoder gives back every well-formed packet that a run has received, from
the record pushed for it; so the records of two such packets differ. -/
theorem encode_received {p : SensorDataParser (Option TelemetryData)}
    (h : Reachable deserializePayload p) {i : Nat} {packet : BytesArray}
    (hPacket : p.receivedValidPackets[i]? = some packet) (hWellFormed : WellFormedPacket packet) :
    (∃ t, p.pushedTelemetry[i]? = some (some t) ∧ buildTelemetryPacket t = packet) ∧
    ∀ (q : SensorDataParser (Option TelemetryData)) (j : Nat) (packet' : BytesArray),
      Reachable deserializePayload q → q.receivedValidPackets[j]? = some packet' →
      WellFormedPacket packet' → q.pushedTelemetry[j]? = p.pushedTelemetry[i]? →
      packet' = packet := by
  obtain ⟨t, hRecord, hBuild⟩ := received_build h hPacket hWellFormed
  refine ⟨⟨t, hRecord, hBuild⟩, ?_⟩
  intro q j packet' hReachable hPacket' hWellFormed' hSame
  obtain ⟨t', hRecord', hBuild'⟩ := received_build hReachable hPacket' hWellFormed'
  have hRecords : t' = t := by simpa [hRecord, hRecord'] using hSame
  rw [← hBuild', ← hBuild, hRecords]

theorem encode_received_two_byte_id :
    let packet := buildTelemetryPacket ⟨[1, 2], 3, 4, 5, 6, 7⟩
    ∃ t, (processBatches deserializePayload {} [[packet]]).pushedTelemetry[0]? = some (some t) ∧
      buildTelemetryPacket t = packet := by
  intro packet
  have hReceived := (processBatches_packets deserializePayload [⟨[1, 2], 3, 4, 5, 6, 7⟩]
    (by decide) [[packet]] rfl).1
  exact (encode_received (i := 0) ⟨[[packet]], rfl⟩ (by rw [hReceived]; rfl) (by decide +kernel)).1

/-! ## Decoding what was encoded -/

/-- A built packet with a long identifier leaves no frame for its own record: the
record would have to start in the first three bytes. -/
theorem droneId_length_le_of_delivered {t : TelemetryData} {packet : BytesArray}
    (hSource : FromFrame deserializePayload (buildTelemetryPacket t) packet (some t)) :
    t.droneId.length ≤ 39 := by
  obtain ⟨view, ⟨front, back, hStream⟩, hFrame, -, hDecoded⟩ := hSource
  obtain ⟨hId, hFits⟩ := deserializePayload_fits hDecoded.symm
  have hByte := (byteAt (view.drop 5) 0).isLt
  have hAll := congrArg List.length hStream
  rw [← hId] at hByte
  rw [List.length_append, List.length_append, buildTelemetryPacket_length] at hAll
  rw [List.length_drop] at hFits
  obtain ⟨-, hSize, -, hAdmitted, -⟩ := id hFrame
  obtain ⟨high, low, payloadView, rfl, hLength, -⟩ := hFrame.cons_eq
  rw [buildTelemetryPacket_eq] at hStream
  match front with
  | [] =>
    simp only [List.nil_append, List.cons_append, List.cons.injEq] at hStream
    obtain ⟨-, -, -, rfl, rfl, -⟩ := hStream
    rw [AdmittedLength, hLength, bigEndian16_high_low, BitVec.toNat_ofNat] at hAdmitted
    omega
  | [byte0] =>
    simp only [List.cons_append, List.nil_append, List.cons.injEq] at hStream
    exact absurd hStream.2.1 (by decide)
  | [byte0, byte1] =>
    simp only [List.cons_append, List.nil_append, List.cons.injEq] at hStream
    exact absurd hStream.2.2.1 (by decide)
  | byte0 :: byte1 :: byte2 :: front =>
    simp only [List.length_cons] at hAll hFits
    omega

theorem mem_pushedTelemetry_build_iff (t : TelemetryData) (batches : List (List BytesArray))
    (hStream : batches.flatten.flatten = buildTelemetryPacket t) :
    some t ∈ (processBatches deserializePayload {} batches).pushedTelemetry ↔
      t.droneId.length ≤ 39 := by
  have hSourced := processBatches_sourced deserializePayload batches
  rw [hStream] at hSourced
  constructor
  · intro hMem
    obtain ⟨i, hIndex, hGet⟩ := List.mem_iff_getElem.mp hMem
    have hSource := List.Forall₂.get hSourced (hSourced.length_eq ▸ hIndex) hIndex
    rw [List.get_eq_getElem, List.get_eq_getElem, hGet] at hSource
    exact droneId_length_le_of_delivered hSource
  · intro hId
    have hPushed := pushedTelemetry_packets [t] (by simpa using hId) batches
      (by simpa using hStream)
    rw [hPushed]
    exact List.mem_singleton_self _

/-- A built packet with an identifier of at most 39 bytes delivers its record and
nothing else; whatever is found in one with more than 40 bytes is not its record. -/
theorem built_packet_delivered (t : TelemetryData) (batches : List (List BytesArray))
    (hStream : batches.flatten.flatten = buildTelemetryPacket t) :
    let p := processBatches deserializePayload {} batches
    (t.droneId.length ≤ 39 → p.pushedTelemetry = [some t]) ∧
      (40 < t.droneId.length → some t ∉ p.pushedTelemetry) := by
  intro p
  constructor
  · intro hId
    exact pushedTelemetry_packets [t] (by simpa using hId) batches (by simpa using hStream)
  · intro hLong hMem
    have hId := (mem_pushedTelemetry_build_iff t batches hStream).mp hMem
    omega

theorem built_packet_delivered_split :
    let t : TelemetryData := ⟨List.replicate 39 7, 1, 2, 3, 4, 5⟩
    let packet := buildTelemetryPacket t
    (processBatches deserializePayload {} [[packet.take 9], [packet.drop 9]]).pushedTelemetry =
      [some t] := by
  intro t packet
  have hStream : [[packet.take 9], [packet.drop 9]].flatten.flatten = packet := by
    simp only [List.flatten_cons, List.flatten_nil, List.append_nil, List.nil_append,
      List.cons_append, List.take_append_drop]
  exact (built_packet_delivered t [[packet.take 9], [packet.drop 9]] hStream).1 (by decide)

/-- An identifier of 41 bytes. -/
theorem not_built_packet_delivered :
    ¬∀ (t : TelemetryData) (batches : List (List BytesArray)),
      batches.flatten.flatten = buildTelemetryPacket t →
      (processBatches deserializePayload {} batches).pushedTelemetry = [some t] := by
  intro h
  have hDelivered := h ⟨List.replicate 41 7, 1, 2, 3, 4, 5⟩
    [[buildTelemetryPacket ⟨List.replicate 41 7, 1, 2, 3, 4, 5⟩]] (by simp)
  have hId := (mem_pushedTelemetry_build_iff ⟨List.replicate 41 7, 1, 2, 3, 4, 5⟩ _ (by simp)).mp
    (hDelivered ▸ List.mem_singleton_self _)
  exact absurd hId (by decide)

end CounterDroneServer.SensorDataParser

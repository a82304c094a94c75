import CounterDroneServer.Library.ViewReader
import CounterDroneServer.SensorDataParser.Deserialize
import CounterDroneServer.SensorDataParser.Scanner

/-!
# What the decoder touches

`deserialize_payload` once more, over a view that records every index, range and
`remove_prefix`. It computes the decoder's record, and its record of accesses
tells when the decoder stays inside the payload of the accepted packet.
-/

set_option autoImplicit false

namespace CounterDroneServer.SensorDataParser

open ByteOrder ViewReader

def readPrimitiveReader : ViewReader Byte (BitVec 64) := do
  let bytes ← takeField 8
  return BitVec.ofNat 64 (ofLittleEndian bytes)

def deserializePayloadReader : ViewReader Byte TelemetryData := do
  let idLen ← readAt 0
  removePrefix 1
  let droneId ← takeField idLen.toNat
  let lat ← readPrimitiveReader
  let lon ← readPrimitiveReader
  let alt ← readPrimitiveReader
  let spd ← readPrimitiveReader
  let ts ← readPrimitiveReader
  return { droneId := droneId, latitude := lat, longitude := lon, altitude := alt, speed := spd,
           timestamp := ts }

/-- The ends of all ranges that decoding the view touches. -/
def touchedEnds (payloadView : BytesArray) : List Nat :=
  (deserializePayloadReader.run { rest := payloadView }).2.touched

theorem computes_readPrimitive : Computes readPrimitiveReader readPrimitive := by
  have hField := (computes_takeField (β := Byte) 8).bind fun bytes =>
    computes_pure (BitVec.ofNat 64 (ofLittleEndian bytes))
  apply hField.congr
  intro rest
  rw [readPrimitive]
  split <;> rfl

theorem computes_readDroneId (idLen : Nat) :
    Computes (takeField idLen) fun rest => readDroneId rest idLen :=
  computes_takeField idLen

/-- The record of accesses changes nothing of what is decoded. -/
theorem deserializePayloadReader_result (payloadView : BytesArray) :
    (deserializePayloadReader.run { rest := payloadView }).1 = deserializePayload payloadView := by
  have hReader := (computes_readAt (β := Byte) 0).bind fun idLen =>
    (computes_removePrefix 1).bind fun _ =>
    (computes_readDroneId idLen.toNat).bind fun droneId =>
    computes_readPrimitive.bind fun lat => computes_readPrimitive.bind fun lon =>
    computes_readPrimitive.bind fun alt => computes_readPrimitive.bind fun spd =>
    computes_readPrimitive.bind fun ts =>
    computes_pure (⟨droneId, lat, lon, alt, spd, ts⟩ : TelemetryData)
  refine (hReader.result payloadView).trans ?_
  cases payloadView with
  | nil => rfl
  | cons idLen rest => simp [deserializePayload, Option.map_bind]

theorem honest_readPrimitive : Honest readPrimitiveReader :=
  (honest_takeField 8).bind fun _ => honest_pure _

theorem honest_deserializePayload : Honest deserializePayloadReader :=
  (honest_readAt 0).bind fun idLen => (honest_removePrefix 1).bind fun _ =>
    (honest_takeField idLen.toNat).bind fun _ => honest_readPrimitive.bind fun _ =>
    honest_readPrimitive.bind fun _ => honest_readPrimitive.bind fun _ =>
    honest_readPrimitive.bind fun _ => honest_readPrimitive.bind fun _ => honest_pure _

theorem readPrimitiveReader_run {view : View Byte} (hSize : 8 ≤ view.rest.length) :
    readPrimitiveReader.run view =
      (some (BitVec.ofNat 64 (ofLittleEndian (view.rest.take 8))),
        ⟨view.offset + 8, view.rest.drop 8,
          view.touched ++ [view.offset + 8, view.offset + 8]⟩) := by
  rw [readPrimitiveReader, bind_run_some (takeField_run hSize)]
  rfl

/-- Decoding touches the length byte, the characters and five numbers, each once
to read it and once to drop it. -/
theorem touchedEnds_of_fits {idLen : Byte} {rest : BytesArray}
    (hFits : idLen.toNat + 40 ≤ rest.length) :
    touchedEnds (idLen :: rest) =
      1 :: 1 :: ([0, 1, 2, 3, 4, 5].map fun k => 1 + idLen.toNat + 8 * k).flatMap fun e => [e, e] := by
  have hFirst : (readAt 0).run (⟨0, idLen :: rest, []⟩ : View Byte) =
    (some idLen, ⟨0, idLen :: rest, [1]⟩) := rfl
  rw [touchedEnds, deserializePayloadReader, bind_run_some hFirst,
    bind_run_some (removePrefix_run (by simp))]
  rw [bind_run_some (takeField_run (by simp; omega))]
  rw [bind_run_some (readPrimitiveReader_run (by simp; omega))]
  rw [bind_run_some (readPrimitiveReader_run (by simp; omega))]
  rw [bind_run_some (readPrimitiveReader_run (by simp; omega))]
  rw [bind_run_some (readPrimitiveReader_run (by simp; omega))]
  rw [bind_run_some (readPrimitiveReader_run (by simp; omega))]
  simp

theorem touchedEnds_within_iff (payloadView : BytesArray) {limit : Nat} (hPositive : 0 < limit)
    (hLimit : limit ≤ payloadView.length) :
    (∀ e ∈ touchedEnds payloadView, e ≤ limit) ↔ (byteAt payloadView 0).toNat + 41 ≤ limit := by
  cases payloadView with
  | nil =>
    rw [List.length_nil] at hLimit
    omega
  | cons idLen rest =>
    change _ ↔ idLen.toNat + 41 ≤ limit
    rw [List.length_cons] at hLimit
    constructor
    · intro hWithin
      rcases Nat.lt_or_ge rest.length (idLen.toNat + 40) with hShort | hFits
      · -- decoding fails, so it has touched something behind the whole view
        have hFails : (deserializePayloadReader.run { rest := idLen :: rest }).1 = none := by
          rw [deserializePayloadReader_result]
          exact deserializePayload_eq_none hShort
        obtain ⟨e, hMem, hBehind⟩ := honest_deserializePayload.fails _ hFails
        have hEnd := hWithin e hMem
        simp only [View.size, List.length_cons] at hBehind
        omega
      · rw [touchedEnds_of_fits hFits] at hWithin
        exact Nat.le_trans (by omega) (hWithin (1 + idLen.toNat + 8 * 5) (by simp))
    · intro hRecord e hMem
      rw [touchedEnds_of_fits (by omega)] at hMem
      simp at hMem
      omega

/-- Decoding the packet of `7 + payloadLength` bytes at the front of the view
touches nothing behind its payload, and the pushed record depends on nothing
behind it. -/
structure DecodesInsidePayload (view : BytesArray) (payloadLength : Nat) : Prop where
  touched : ∀ e ∈ touchedEnds (view.drop payloadStartingIdx), e ≤ payloadLength
  pushed : ∀ (p : SensorDataParser (Option TelemetryData)) (after : BytesArray),
    let view' := view.take (payloadStartingIdx + payloadLength) ++ after
    crcMatches view' (7 + payloadLength) →
    (processTelemetryPayload deserializePayload p view'
      (7 + payloadLength)).parser.pushedTelemetry =
      (processTelemetryPayload deserializePayload p view
        (7 + payloadLength)).parser.pushedTelemetry

theorem pushedTelemetry_of_crcMatches (d : BytesArray → Option TelemetryData)
    (p : SensorDataParser (Option TelemetryData)) {view : BytesArray} {n : Nat}
    (hCrc : crcMatches view n) :
    (processTelemetryPayload d p view n).parser.pushedTelemetry =
      p.pushedTelemetry ++ [d (view.drop payloadStartingIdx)] := by
  rw [processTelemetryPayload, if_pos hCrc]

/-- Decoding stays inside an accepted packet exactly when its embedded identifier
length leaves room for the five numbers. -/
theorem decodesInsidePayload_iff (view : BytesArray) (payloadLength : Nat)
    (hLength : minPayloadExpLength ≤ payloadLength ∧ payloadLength ≤ maxPayloadExpLength)
    (hSize : 7 + payloadLength ≤ view.length) (hCrc : crcMatches view (7 + payloadLength)) :
    DecodesInsidePayload view payloadLength ↔
      (byteAt view payloadStartingIdx).toNat + 41 ≤ payloadLength := by
  have hStart : payloadStartingIdx = 5 := rfl
  have hPayload : payloadLength ≤ (view.drop payloadStartingIdx).length := by
    rw [List.length_drop]
    omega
  have hFirst : byteAt (view.drop payloadStartingIdx) 0 = byteAt view payloadStartingIdx := by
    simp [byteAt, List.getD_eq_getElem?_getD]
  have hPositive : 0 < payloadLength := by
    have := hLength.1
    rw [minPayloadExpLength] at this
    omega
  rw [← hFirst, ← touchedEnds_within_iff _ hPositive hPayload]
  constructor
  · intro hInside
    exact hInside.touched
  · intro hTouched
    refine ⟨hTouched, ?_⟩
    intro p after view' hCrc'
    have hRoom := (touchedEnds_within_iff _ hPositive hPayload).mp hTouched
    rw [pushedTelemetry_of_crcMatches _ _ hCrc, pushedTelemetry_of_crcMatches _ _ hCrc']
    have hDrop : view'.drop payloadStartingIdx =
        (view.drop payloadStartingIdx).take payloadLength ++ after := by
      rw [List.drop_append_of_le_length (by rw [List.length_take]; omega), List.drop_take,
        Nat.add_sub_cancel_left]
    rw [hDrop, deserializePayload_take_append hRoom hPayload after]

/-- The packet of a record without an identifier. -/
theorem decodesInsidePayload_iff_empty_id :
    DecodesInsidePayload (buildTelemetryPacket ⟨[], 0, 0, 0, 0, 0⟩) 41 :=
  (decodesInsidePayload_iff (buildTelemetryPacket ⟨[], 0, 0, 0, 0, 0⟩) 41 (by decide)
    (by decide +kernel) (by decide +kernel)).mpr (by decide +kernel)

/-- A packet of the least admitted length, with a checksum that matches. -/
def leastPacket : BytesArray :=
  [headerByte0, headerByte1, 1, 0, 40] ++ List.replicate 40 0 ++ [0xC4, 0xED]

/-- Its five numbers end one byte behind its payload. -/
theorem not_decodesInsidePayload :
    ¬∀ (view : BytesArray) (payloadLength : Nat),
      minPayloadExpLength ≤ payloadLength ∧ payloadLength ≤ maxPayloadExpLength →
      7 + payloadLength ≤ view.length → crcMatches view (7 + payloadLength) →
      DecodesInsidePayload view payloadLength := by
  intro h
  have hInside := h leastPacket 40 (by decide) (by decide) (by decide +kernel)
  have hRoom := (touchedEnds_within_iff _ (by decide) (by decide)).mp hInside.touched
  exact absurd hRoom (by decide)

end CounterDroneServer.SensorDataParser

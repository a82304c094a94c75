import CounterDroneServer.SensorDataParser.Basic
import CounterDroneServer.DroneDataSimulator.Packet

/-!
# The decoder

`deserialize_payload` gets the view from the payload on, not cut at the end of
the packet. The source does not compare the embedded lengths with the size of
that view; a read or a `remove_prefix` past its end is undefined behaviour and
gives `none` here.
-/

set_option autoImplicit false

namespace CounterDroneServer

open ByteOrder

namespace SensorDataParser

/-- The lambda `read_primitive`: the next eight bytes, and the view behind them. -/
def readPrimitive (payloadView : BytesArray) : Option (BitVec 64 × BytesArray) :=
  if 8 ≤ payloadView.length then
    some (BitVec.ofNat 64 (ofLittleEndian (payloadView.take 8)), payloadView.drop 8)
  else none

/-- The string of `idLen` characters at the front of the view. -/
def readDroneId (payloadView : BytesArray) (idLen : Nat) : Option (BytesArray × BytesArray) :=
  if idLen ≤ payloadView.length then some (payloadView.take idLen, payloadView.drop idLen)
  else none

def deserializePayload (payloadView : BytesArray) : Option TelemetryData := do
  let idLen ← payloadView.head?
  let (droneId, payloadView) ← readDroneId (payloadView.drop 1) idLen.toNat
  let (lat, payloadView) ← readPrimitive payloadView
  let (lon, payloadView) ← readPrimitive payloadView
  let (alt, payloadView) ← readPrimitive payloadView
  let (spd, payloadView) ← readPrimitive payloadView
  let (ts, _) ← readPrimitive payloadView
  return { droneId := droneId, latitude := lat, longitude := lon, altitude := alt, speed := spd,
           timestamp := ts }

theorem readPrimitive_numericBytes (val : BitVec 64) (tail : BytesArray) :
    readPrimitive (numericBytes val ++ tail) = some (val, tail) := by
  have hLength := numericBytes_length val
  have hSize : 8 ≤ (numericBytes val ++ tail).length := by
    rw [List.length_append, hLength]
    omega
  have hVal : BitVec.ofNat 64 (ofLittleEndian (numericBytes val)) = val := by
    apply BitVec.eq_of_toNat_eq
    rw [numericBytes, ofLittleEndian_littleEndian, BitVec.toNat_ofNat]
    have := val.isLt
    omega
  rw [readPrimitive, if_pos hSize, List.take_left' hLength, List.drop_left' hLength, hVal]

theorem readDroneId_append (droneId tail : BytesArray) :
    readDroneId (droneId ++ tail) droneId.length = some (droneId, tail) := by
  have hSize : droneId.length ≤ (droneId ++ tail).length := by
    rw [List.length_append]
    omega
  rw [readDroneId, if_pos hSize, List.take_left, List.drop_left]

/-- What follows the payload does not reach the record of a well-formed one. -/
theorem deserializePayload_serialize (t : TelemetryData) (hId : t.droneId.length ≤ 255)
    (tail : BytesArray) :
    deserializePayload (serializeTelemetryDataToBytesSequence t ++ tail) = some t := by
  have hLen : (BitVec.ofNat 8 t.droneId.length).toNat = t.droneId.length := by
    rw [BitVec.toNat_ofNat]
    omega
  simp only [serializeTelemetryDataToBytesSequence, List.append_assoc, List.cons_append,
    List.nil_append]
  simp only [deserializePayload, List.head?_cons, List.drop_succ_cons, List.drop_zero,
    Option.bind_eq_bind, Option.bind_some, hLen, readDroneId_append, readPrimitive_numericBytes]
  rfl

/-! ## Decoding a view that holds the whole record -/

theorem readPrimitive_of_le {payloadView : BytesArray} (hSize : 8 ≤ payloadView.length) :
    readPrimitive payloadView =
      some (BitVec.ofNat 64 (ofLittleEndian (payloadView.take 8)), payloadView.drop 8) :=
  if_pos hSize

theorem readDroneId_of_le {payloadView : BytesArray} {idLen : Nat}
    (hSize : idLen ≤ payloadView.length) :
    readDroneId payloadView idLen = some (payloadView.take idLen, payloadView.drop idLen) :=
  if_pos hSize

/-- The number whose bytes start at an index. -/
def numericField (bytes : BytesArray) (start : Nat) : BitVec 64 :=
  BitVec.ofNat 64 (ofLittleEndian ((bytes.drop start).take 8))

theorem numericBytes_numericField {bytes : BytesArray} {start : Nat}
    (hSize : start + 8 ≤ bytes.length) :
    numericBytes (numericField bytes start) = (bytes.drop start).take 8 := by
  have hLength : ((bytes.drop start).take 8).length = 8 := by
    rw [List.length_take, List.length_drop]
    omega
  have hSmall : ofLittleEndian ((bytes.drop start).take 8) < 2 ^ 64 := by
    have hLt := ofLittleEndian_lt ((bytes.drop start).take 8)
    rwa [hLength] at hLt
  rw [numericBytes, numericField, BitVec.toNat_ofNat, Nat.mod_eq_of_lt hSmall]
  have hBack := littleEndian_ofLittleEndian ((bytes.drop start).take 8)
  rwa [hLength] at hBack

theorem numericField_append (bytes tail : BytesArray) {start : Nat}
    (hSize : start + 8 ≤ bytes.length) :
    numericField (bytes ++ tail) start = numericField bytes start := by
  rw [numericField, List.drop_append_of_le_length (by omega),
    List.take_append_of_le_length (by rw [List.length_drop]; omega), numericField]

theorem deserializePayload_of_fits {idLen : Byte} {rest : BytesArray}
    (hFits : idLen.toNat + 40 ≤ rest.length) :
    deserializePayload (idLen :: rest) = some
      { droneId := rest.take idLen.toNat
        latitude := numericField rest idLen.toNat
        longitude := numericField rest (idLen.toNat + 8)
        altitude := numericField rest (idLen.toNat + 16)
        speed := numericField rest (idLen.toNat + 24)
        timestamp := numericField rest (idLen.toNat + 32) } := by
  have hId : idLen.toNat ≤ rest.length := by omega
  have hNumber : ∀ start, start + 8 ≤ rest.length →
      readPrimitive (rest.drop start) =
        some (numericField rest start, rest.drop (start + 8)) := by
    intro start hStart
    rw [readPrimitive_of_le (by rw [List.length_drop]; omega), List.drop_drop, numericField]
  simp only [deserializePayload, List.head?_cons, List.drop_succ_cons, List.drop_zero,
    Option.bind_eq_bind, Option.bind_some, readDroneId_of_le hId]
  rw [hNumber _ (by omega), Option.bind_some, hNumber _ (by omega), Option.bind_some,
    hNumber _ (by omega), Option.bind_some, hNumber _ (by omega), Option.bind_some,
    hNumber _ (by omega)]
  rfl

/-- Serializing what was decoded from a payload without surplus gives it back. -/
theorem serialize_deserializePayload {idLen : Byte} {rest : BytesArray} {t : TelemetryData}
    (hDecoded : deserializePayload (idLen :: rest) = some t)
    (hExact : rest.length = idLen.toNat + 40) :
    serializeTelemetryDataToBytesSequence t = idLen :: rest := by
  have hStep : ∀ start, (rest.drop start).take 8 ++ rest.drop (start + 8) = rest.drop start := by
    intro start
    rw [← List.drop_drop, List.take_append_drop]
  have hLast : (rest.drop (idLen.toNat + 32)).take 8 = rest.drop (idLen.toNat + 32) := by
    apply List.take_of_length_le
    rw [List.length_drop]
    omega
  have hId : (rest.take idLen.toNat).length = idLen.toNat := by
    rw [List.length_take]
    omega
  rw [deserializePayload_of_fits (by omega)] at hDecoded
  obtain rfl := Option.some.inj hDecoded
  simp only [serializeTelemetryDataToBytesSequence, hId, BitVec.ofNat_toNat, BitVec.setWidth_eq]
  rw [numericBytes_numericField (by omega), numericBytes_numericField (by omega),
    numericBytes_numericField (by omega), numericBytes_numericField (by omega),
    numericBytes_numericField (by omega), hLast]
  simp only [List.append_assoc]
  rw [hStep (idLen.toNat + 24), hStep (idLen.toNat + 16), hStep (idLen.toNat + 8),
    hStep idLen.toNat, List.take_append_drop]
  rfl

theorem deserializePayload_eq_none {idLen : Byte} {rest : BytesArray}
    (hShort : rest.length < idLen.toNat + 40) : deserializePayload (idLen :: rest) = none := by
  by_contra hSome
  obtain ⟨t, hDecoded⟩ := Option.ne_none_iff_exists'.mp hSome
  simp [deserializePayload, readDroneId, readPrimitive, Option.bind_eq_some_iff] at hDecoded
  omega

/-- A decoded record has the length byte of the view for its identifier, and the
view holds all of it. -/
theorem deserializePayload_fits {payloadView : BytesArray} {t : TelemetryData}
    (hDecoded : deserializePayload payloadView = some t) :
    t.droneId.length = (byteAt payloadView 0).toNat ∧
      41 + t.droneId.length ≤ payloadView.length := by
  cases payloadView with
  | nil => cases hDecoded
  | cons idLen rest =>
    rcases Nat.lt_or_ge rest.length (idLen.toNat + 40) with hShort | hFits
    · rw [deserializePayload_eq_none hShort] at hDecoded
      cases hDecoded
    · rw [deserializePayload_of_fits hFits] at hDecoded
      obtain rfl := Option.some.inj hDecoded
      change (rest.take idLen.toNat).length = idLen.toNat ∧
        41 + (rest.take idLen.toNat).length ≤ rest.length + 1
      rw [List.length_take]
      omega

/-- Nothing behind a view that holds the whole record reaches the record. -/
theorem deserializePayload_append {idLen : Byte} {rest : BytesArray} (tail : BytesArray)
    (hFits : idLen.toNat + 40 ≤ rest.length) :
    deserializePayload (idLen :: rest ++ tail) = deserializePayload (idLen :: rest) := by
  have hLong : idLen.toNat + 40 ≤ (rest ++ tail).length := by
    rw [List.length_append]
    omega
  rw [List.cons_append, deserializePayload_of_fits hLong, deserializePayload_of_fits hFits,
    List.take_append_of_le_length (by omega), numericField_append _ _ (by omega),
    numericField_append _ _ (by omega), numericField_append _ _ (by omega),
    numericField_append _ _ (by omega), numericField_append _ _ (by omega)]

/-- A view that holds the whole record may be cut and continued behind it. -/
theorem deserializePayload_take_append {payloadView : BytesArray} {limit : Nat}
    (hRecord : (byteAt payloadView 0).toNat + 41 ≤ limit) (hLimit : limit ≤ payloadView.length)
    (tail : BytesArray) :
    deserializePayload (payloadView.take limit ++ tail) = deserializePayload payloadView := by
  cases payloadView with
  | nil =>
    rw [List.length_nil] at hLimit
    omega
  | cons idLen rest =>
    change idLen.toNat + 41 ≤ limit at hRecord
    obtain ⟨n, rfl⟩ : ∃ n, limit = n + 1 := ⟨limit - 1, by omega⟩
    rw [List.length_cons] at hLimit
    have hFits : idLen.toNat + 40 ≤ (rest.take n).length := by
      rw [List.length_take]
      omega
    have hWhole := deserializePayload_append (rest.drop n) hFits
    rw [List.cons_append, List.take_append_drop] at hWhole
    rw [List.take_succ_cons, deserializePayload_append tail hFits, hWhole]

/-- The encoder makes of a decoded record the bytes that decoding has read. -/
theorem serialize_decoded {payloadView : BytesArray}
    (hFits : (byteAt payloadView 0).toNat + 41 ≤ payloadView.length) :
    ∃ t, deserializePayload payloadView = some t ∧
      serializeTelemetryDataToBytesSequence t =
        payloadView.take ((byteAt payloadView 0).toNat + 41) := by
  have hCut := deserializePayload_take_append (Nat.le_refl _) hFits []
  rw [List.append_nil] at hCut
  cases payloadView with
  | nil =>
    rw [List.length_nil] at hFits
    omega
  | cons idLen rest =>
    change idLen.toNat + 41 ≤ rest.length + 1 at hFits
    change deserializePayload (idLen :: rest.take (idLen.toNat + 40)) = _ at hCut
    have hExact : (rest.take (idLen.toNat + 40)).length = idLen.toNat + 40 := by
      rw [List.length_take]
      omega
    have hDecoded := deserializePayload_of_fits (Nat.le_of_eq hExact.symm)
    exact ⟨_, hCut ▸ hDecoded, serialize_deserializePayload hDecoded hExact⟩

end SensorDataParser

end CounterDroneServer

import CounterDroneServer.TelemetryPacket

/-!
# The encoder

`serialize_telemetry_data_to_bytes_sequence` and `build_telemetry_packet` of
the simulator. Numbers are copied from memory, least significant byte first
on the hosts the server is built for.
-/

set_option autoImplicit false

namespace CounterDroneServer

open ByteOrder

/-- The eight bytes of a `double` or `uint64_t` in memory. -/
def numericBytes (val : BitVec 64) : BytesArray := littleEndian 8 val.toNat

def serializeTelemetryDataToBytesSequence (t : TelemetryData) : BytesArray :=
  [BitVec.ofNat 8 t.droneId.length] ++ t.droneId ++ numericBytes t.latitude ++
    numericBytes t.longitude ++ numericBytes t.altitude ++ numericBytes t.speed ++
    numericBytes t.timestamp

/-- The bytes of a packet before its checksum. -/
def packetBody (t : TelemetryData) : BytesArray :=
  let payload := serializeTelemetryDataToBytesSequence t
  let payloadSize := BitVec.ofNat 16 payload.length
  [headerByte0, headerByte1] ++ [TypeMsg.telemetry.toByte] ++
    [highByte payloadSize, lowByte payloadSize] ++ payload

def buildTelemetryPacket (t : TelemetryData) : BytesArray :=
  let packet := packetBody t
  let crc := calculateCrc16 packet
  packet ++ [highByte crc, lowByte crc]

@[simp] theorem numericBytes_length (val : BitVec 64) : (numericBytes val).length = 8 :=
  littleEndian_length 8 val.toNat

@[simp] theorem serializeTelemetryDataToBytesSequence_length (t : TelemetryData) :
    (serializeTelemetryDataToBytesSequence t).length = 41 + t.droneId.length := by
  simp only [serializeTelemetryDataToBytesSequence, List.length_append, List.length_singleton,
    numericBytes_length]
  omega

theorem buildTelemetryPacket_length (t : TelemetryData) :
    (buildTelemetryPacket t).length = 48 + t.droneId.length := by
  simp only [buildTelemetryPacket, packetBody, List.length_append, List.length_cons,
    List.length_nil, serializeTelemetryDataToBytesSequence_length]
  omega

def packetStream (records : List TelemetryData) : BytesArray :=
  (records.map buildTelemetryPacket).flatten

theorem packetStream_cons (t : TelemetryData) (ts : List TelemetryData) :
    packetStream (t :: ts) = buildTelemetryPacket t ++ packetStream ts := rfl

theorem packetStream_append (ts us : List TelemetryData) :
    packetStream (ts ++ us) = packetStream ts ++ packetStream us := by
  rw [packetStream, List.map_append, List.flatten_append]
  rfl

theorem length_le_packetStream (ts : List TelemetryData) : ts.length ≤ (packetStream ts).length := by
  induction ts with
  | nil => exact Nat.zero_le _
  | cons t ts ih =>
    rw [packetStream_cons, List.length_append, buildTelemetryPacket_length, List.length_cons]
    omega

theorem eq_nil_of_packetStream_eq_nil {ts : List TelemetryData} (h : packetStream ts = []) :
    ts = [] := by
  have hLength := length_le_packetStream ts
  rw [h] at hLength
  exact List.length_eq_zero_iff.mp (Nat.le_zero.mp hLength)

end CounterDroneServer

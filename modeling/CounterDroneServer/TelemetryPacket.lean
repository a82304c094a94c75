import CounterDroneServer.Generals

/-!
# Telemetry records and the frame layout

`TelemetryPacket.h`. A double is its 64-bit pattern and the drone identifier
is the byte string of its characters.
-/

set_option autoImplicit false

namespace CounterDroneServer

structure TelemetryData where
  droneId : BytesArray
  latitude : BitVec 64
  longitude : BitVec 64
  altitude : BitVec 64
  speed : BitVec 64
  timestamp : BitVec 64
  deriving DecidableEq, Repr

abbrev headerSizeBytes : Nat := 2
abbrev typeSizeBytes : Nat := 1
abbrev lengthSizeBytes : Nat := 2
abbrev crcSizeBytes : Nat := 2
abbrev typeStartingIdx : Nat := headerSizeBytes
abbrev lengthStartingIdx : Nat := headerSizeBytes + typeSizeBytes
abbrev payloadStartingIdx : Nat := headerSizeBytes + typeSizeBytes + lengthSizeBytes

/-- The two entries of `HEADER_BYTES`. -/
def headerByte0 : Byte := 0xAA
def headerByte1 : Byte := 0x55

end CounterDroneServer

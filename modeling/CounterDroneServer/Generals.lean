import CounterDroneServer.Library.ByteOrder

/-!
# Shared types of the server

`Generals.h`: byte arrays, the message types and the checksum. A byte is a
`BitVec 8`; `uint16_t` is `BitVec 16`, so its shifts truncate as in the source.
-/

set_option autoImplicit false

namespace CounterDroneServer

abbrev Byte := BitVec 8

abbrev BytesArray := List Byte

inductive TypeMsg
  | unknow | telemetry | heartBeat | command
  deriving DecidableEq, Repr

namespace TypeMsg

def toByte : TypeMsg → Byte
  | unknow => 0
  | telemetry => 1
  | heartBeat => 2
  | command => 4

/-- The branch a `switch` over `static_cast<TypeMsg>(byte)` takes: every value
without a case of its own shares the `UNKNOW` branch. -/
def ofByte (byte : Byte) : TypeMsg :=
  if byte = 1 then telemetry
  else if byte = 2 then heartBeat
  else if byte = 4 then command
  else unknow

end TypeMsg

/-- One round of the inner loop of `calculate_crc16`. -/
def crcBit (crc : BitVec 16) : BitVec 16 :=
  if crc &&& 0x8000#16 ≠ 0 then (crc <<< 1) ^^^ 0x1021#16 else crc <<< 1

def crcBits : Nat → BitVec 16 → BitVec 16
  | 0, crc => crc
  | n + 1, crc => crcBits n (crcBit crc)

def crcByte (crc : BitVec 16) (byte : Byte) : BitVec 16 :=
  crcBits 8 (crc ^^^ (byte.setWidth 16 <<< 8))

def calculateCrc16 (data : BytesArray) : BitVec 16 := data.foldl crcByte 0xFFFF#16

end CounterDroneServer

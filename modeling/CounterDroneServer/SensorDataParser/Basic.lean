import CounterDroneServer.Library.WhileLoop
import CounterDroneServer.TelemetryPacket

/-!
# The parser of the raw byte stream

`SensorDataParser.h` and `SensorDataParser.cpp`. A round is one iteration of
the loop of `process_accumulated_data`; it says what becomes of the members,
which argument `remove_prefix` gets and whether `state_changed` is set. The
decoder is a parameter, so that the framing can be studied apart from it.
-/

set_option autoImplicit false

namespace CounterDroneServer

open ByteOrder

universe u

inductive ParserState
  | waitForSync | readType | readLength | readPayload
  deriving DecidableEq, Repr

def minPayloadExpLength : Nat := 40
def maxPayloadExpLength : Nat := 80

/-- The members of the class. `pushedTelemetry` lists what has been pushed to
the telemetry queue, oldest first; counters are unbounded. -/
structure SensorDataParser (ρ : Type u) where
  accumulatedData : BytesArray := []
  state : ParserState := .waitForSync
  expectedPayloadLength : BitVec 16 := 0
  type : TypeMsg := .unknow
  receivedValidPackets : List BytesArray := []
  crcErrorsCount : Nat := 0
  invalidStructureCount : Nat := 0
  telemetryPktCount : Nat := 0
  heartBeatPktCount : Nat := 0
  cmdPktCount : Nat := 0
  pushedTelemetry : List ρ := []
  deriving DecidableEq, Repr

/-- What one iteration of the loop does. -/
structure Round (ρ : Type u) where
  parser : SensorDataParser ρ
  /-- The argument of `remove_prefix`; zero where the case does not call it. -/
  removed : Nat := 0
  stateChanged : Bool := false

namespace SensorDataParser

variable {ρ : Type u}

/-- The byte at an index that the caller has checked against the size. -/
def byteAt (view : BytesArray) (i : Nat) : Byte := view.getD i 0

/-- The search of `WAIT_FOR_SYNC`: the first index of the header signature. -/
def syncIndex : BytesArray → Option Nat
  | byte0 :: byte1 :: rest =>
    if byte0 = headerByte0 ∧ byte1 = headerByte1 then some 0
    else (syncIndex (byte1 :: rest)).map (· + 1)
  | _ => none

def caseWaitForSync (p : SensorDataParser ρ) (view : BytesArray) : Round ρ :=
  match syncIndex view with
  | some i => { parser := { p with state := .readType }, removed := i, stateChanged := true }
  | none =>
    -- the last byte is kept if its partner may arrive with the next chunk
    if view.getLast? = some headerByte0 then { parser := p, removed := view.length - 1 }
    else { parser := p, removed := view.length }

def caseReadType (p : SensorDataParser ρ) (view : BytesArray) : Round ρ :=
  if headerSizeBytes + typeSizeBytes ≤ view.length then
    match TypeMsg.ofByte (byteAt view typeStartingIdx) with
    | .telemetry =>
      { parser := { p with telemetryPktCount := p.telemetryPktCount + 1, type := .telemetry,
                           state := .readLength }
        stateChanged := true }
    | .heartBeat =>
      { parser := { p with heartBeatPktCount := p.heartBeatPktCount + 1, type := .heartBeat,
                           state := .readLength }
        stateChanged := true }
    | .command =>
      { parser := { p with cmdPktCount := p.cmdPktCount + 1, type := .command,
                           state := .readLength }
        stateChanged := true }
    | .unknow =>
      { parser := { p with crcErrorsCount := p.crcErrorsCount + 1, state := .waitForSync }
        removed := headerSizeBytes
        stateChanged := true }
  else { parser := p }

/-- The big-endian length field of a view of at least five bytes. -/
def lengthField (view : BytesArray) : BitVec 16 :=
  bigEndian16 (byteAt view lengthStartingIdx) (byteAt view (lengthStartingIdx + 1))

def caseReadLength (p : SensorDataParser ρ) (view : BytesArray) : Round ρ :=
  if headerSizeBytes + typeSizeBytes + lengthSizeBytes ≤ view.length then
    let length := lengthField view
    if length.toNat < minPayloadExpLength ∨ maxPayloadExpLength < length.toNat then
      { parser := { p with expectedPayloadLength := length,
                           invalidStructureCount := p.invalidStructureCount + 1,
                           state := .waitForSync }
        removed := headerSizeBytes
        stateChanged := true }
    else
      { parser := { p with expectedPayloadLength := length, state := .readPayload }
        stateChanged := true }
  else { parser := p }

/-- The checksum test on the first `totalPacketSize` bytes of the view. -/
def crcMatches (view : BytesArray) (totalPacketSize : Nat) : Prop :=
  calculateCrc16 (view.take (totalPacketSize - 2)) =
    bigEndian16 (byteAt view (totalPacketSize - 2)) (byteAt view (totalPacketSize - 1))

instance (view : BytesArray) (totalPacketSize : Nat) : Decidable (crcMatches view totalPacketSize) :=
  inferInstanceAs (Decidable (_ = _))

def processTelemetryPayload (deserializePayload : BytesArray → ρ) (p : SensorDataParser ρ)
    (view : BytesArray) (totalPacketSize : Nat) : Round ρ :=
  if crcMatches view totalPacketSize then
    { parser := { p with
        receivedValidPackets := p.receivedValidPackets ++ [view.take totalPacketSize]
        pushedTelemetry := p.pushedTelemetry ++ [deserializePayload (view.drop payloadStartingIdx)]
        state := .waitForSync }
      removed := totalPacketSize
      stateChanged := true }
  else
    -- only the first byte is dropped, so the search resumes inside the packet
    { parser := { p with crcErrorsCount := p.crcErrorsCount + 1, state := .waitForSync }
      removed := 1
      stateChanged := true }

/-- The body of `process_heart_beat_payload` is empty. -/
def processHeartBeatPayload (p : SensorDataParser ρ) (_view : BytesArray) : Round ρ :=
  { parser := p }

/-- The body of `process_command_payload` is empty. -/
def processCommandPayload (p : SensorDataParser ρ) (_view : BytesArray) : Round ρ :=
  { parser := p }

def totalPacketSize (length : BitVec 16) : Nat :=
  headerSizeBytes + typeSizeBytes + lengthSizeBytes + length.toNat + crcSizeBytes

def caseReadPayload (deserializePayload : BytesArray → ρ) (p : SensorDataParser ρ)
    (view : BytesArray) : Round ρ :=
  if totalPacketSize p.expectedPayloadLength ≤ view.length then
    match p.type with
    | .telemetry =>
      processTelemetryPayload deserializePayload p view (totalPacketSize p.expectedPayloadLength)
    | .heartBeat => processHeartBeatPayload p view
    | .command => processCommandPayload p view
    | .unknow => { parser := p }
  else { parser := p }

/-- One iteration of the loop of `process_accumulated_data`. -/
def round (deserializePayload : BytesArray → ρ) (p : SensorDataParser ρ) (view : BytesArray) :
    Round ρ :=
  match p.state with
  | .waitForSync => caseWaitForSync p view
  | .readType => caseReadType p view
  | .readLength => caseReadLength p view
  | .readPayload => caseReadPayload deserializePayload p view

end SensorDataParser

end CounterDroneServer

import CounterDroneServer.SensorDataParser.Recovery

/-!
# Packets in noise

A stream of packets with other bytes between them: garbage, and packets that were
corrupted on their way. Bytes whose every position the scanner rejects, in front
of what follows them, cost no packet. Where the garbage has no header and a
corrupted packet has its own one only, the counters say what was sent.
-/

set_option autoImplicit false

namespace CounterDroneServer.SensorDataParser

open ByteOrder

universe u

variable {ρ : Type u}

inductive Stretch
  | packet (t : TelemetryData)
  | corrupted (bytes : BytesArray)
  | garbage (bytes : BytesArray)

def Stretch.bytes : Stretch → BytesArray
  | .packet t => buildTelemetryPacket t
  | .corrupted bytes | .garbage bytes => bytes

def wire (stretches : List Stretch) : BytesArray := (stretches.map Stretch.bytes).flatten

def Stretch.record? : Stretch → Option TelemetryData
  | .packet t => some t
  | .corrupted _ | .garbage _ => none

/-- The records of the packets, in the order of the stream. -/
def records (stretches : List Stretch) : List TelemetryData := stretches.filterMap Stretch.record?

def Stretch.isCorrupted : Stretch → Bool
  | .corrupted _ => true
  | .packet _ | .garbage _ => false

theorem wire_cons (stretch : Stretch) (stretches : List Stretch) :
    wire (stretch :: stretches) = stretch.bytes ++ wire stretches := rfl

theorem wire_append (front back : List Stretch) : wire (front ++ back) = wire front ++ wire back := by
  rw [wire, List.map_append, List.flatten_append]
  rfl

theorem records_append (front back : List Stretch) :
    records (front ++ back) = records front ++ records back := List.filterMap_append

/-! ## Rejected noise -/

/-- No position of the noise keeps the scanner or gives it a frame, in front of the
stretches that follow. -/
def NoiseRejected : List Stretch → Prop
  | [] => True
  | .packet _ :: rest => NoiseRejected rest
  | .corrupted bytes :: rest | .garbage bytes :: rest =>
    (∀ i < bytes.length, RejectAt ((bytes ++ wire rest).drop i)) ∧ NoiseRejected rest

theorem scanned_noise {bytes tail : BytesArray}
    (h : ∀ i < bytes.length, RejectAt ((bytes ++ tail).drop i)) :
    scanned (bytes ++ tail) = scanned tail := by
  induction bytes with
  | nil => rfl
  | cons byte rest ih =>
    have hHere : RejectAt (byte :: rest ++ tail) := h 0 (Nat.zero_lt_succ _)
    rw [scanned_of_reject hHere]
    apply ih
    intro i hIndex
    exact h (i + 1) (Nat.succ_lt_succ hIndex)

theorem scanned_wire {stretches : List Stretch} (hNoise : NoiseRejected stretches)
    (hIds : ∀ t ∈ records stretches, t.droneId.length ≤ 39) :
    scanned (wire stretches) = ((records stretches).map buildTelemetryPacket, []) := by
  induction stretches with
  | nil => exact scanned_nil
  | cons stretch rest ih =>
    rw [wire_cons]
    cases stretch with
    | packet t =>
      obtain ⟨hId, hRest⟩ := List.forall_mem_cons.mp hIds
      rw [Stretch.bytes, scanned_build_append t _ hId, ih hNoise hRest]
      rfl
    | corrupted bytes | garbage bytes =>
      obtain ⟨hHere, hRest⟩ := hNoise
      rw [Stretch.bytes, scanned_noise hHere, ih hRest hIds]
      rfl

/-! ## Noise without headers -/

/-- No header starts in the bytes, whatever follows them. -/
def HeaderFree (bytes : BytesArray) : Prop :=
  (∀ i < bytes.length, ¬HeaderAt (bytes.drop i)) ∧ bytes.getLast? ≠ some headerByte0

instance (bytes : BytesArray) : Decidable (HeaderFree bytes) := inferInstanceAs (Decidable (_ ∧ _))

/-- A whole telemetry frame but for its checksum. -/
structure BadFrame (bytes : BytesArray) : Prop where
  header : HeaderAt bytes
  size : 5 ≤ bytes.length
  type : byteAt bytes 2 = 1
  length : AdmittedLength bytes
  total : 7 + frameLength bytes ≤ bytes.length
  checksum : ¬crcMatches bytes (7 + frameLength bytes)

/-- Packets that the parser receives, corrupted packets without a second header, and
garbage without any. -/
def Quiet : Stretch → Prop
  | .packet t => t.droneId.length ≤ 39
  | .corrupted bytes => BadFrame bytes ∧ HeaderFree bytes.tail
  | .garbage bytes => HeaderFree bytes

theorem HeaderFree.tail {byte : Byte} {bytes : BytesArray} (h : HeaderFree (byte :: bytes)) :
    HeaderFree bytes := by
  obtain ⟨hHeaders, hLast⟩ := h
  refine ⟨fun i hIndex => hHeaders (i + 1) (Nat.succ_lt_succ hIndex), ?_⟩
  cases bytes with
  | nil => exact nofun
  | cons byte1 bytes => rwa [List.getLast?_cons_cons] at hLast

/-- No header, and no half of one at the end of the view. -/
theorem HeaderFree.garbage_front {byte : Byte} {rest : BytesArray}
    (h : HeaderFree (byte :: rest)) (tail : BytesArray) :
    ¬HeaderAt (byte :: (rest ++ tail)) ∧ byte :: (rest ++ tail) ≠ [headerByte0] := by
  have hHeader : ¬HeaderAt (byte :: rest) := h.1 0 (Nat.zero_lt_succ _)
  cases rest with
  | nil =>
    have hByte : byte ≠ headerByte0 := fun hEq => h.2 (congrArg some hEq)
    constructor
    · intro hLate
      obtain ⟨_, hBytes⟩ := (headerAt_iff _).mp hLate
      exact hByte (List.cons.inj hBytes).1
    · intro hOpen
      exact hByte (List.cons.inj hOpen).1
  | cons byte1 rest =>
    rw [headerAt_cons_cons] at hHeader
    exact ⟨fun hLate => hHeader ((headerAt_cons_cons _ _ _).mp hLate), nofun⟩

theorem BadFrame.append {bytes : BytesArray} (h : BadFrame bytes) (tail : BytesArray) :
    BadFrame (bytes ++ tail) := by
  have hLength := frameLength_append bytes tail h.size
  have hTotal := h.total
  have hLonger : (bytes ++ tail).length = bytes.length + tail.length := List.length_append
  have hSize := h.size
  constructor
  · exact headerAt_append h.header tail
  · omega
  · rw [byteAt_append bytes tail 2 (by omega), h.type]
  · exact (admittedLength_append bytes tail h.size).mpr h.length
  · omega
  · rw [hLength, crcMatches_append bytes tail _ (by omega) hTotal]
    exact h.checksum

theorem HeaderFree.rejected {bytes : BytesArray} (h : HeaderFree bytes) (tail : BytesArray) :
    ∀ i < bytes.length, RejectAt ((bytes ++ tail).drop i) := by
  induction bytes with
  | nil => exact nofun
  | cons byte rest ih =>
    intro i hIndex
    cases i with
    | zero =>
      obtain ⟨hHeader, hOpen⟩ := h.garbage_front tail
      exact .garbage (List.cons_ne_nil _ _) hHeader hOpen
    | succ i => exact ih h.tail i (Nat.lt_of_succ_lt_succ hIndex)

theorem BadFrame.rejected {bytes : BytesArray} (h : BadFrame bytes) (hFree : HeaderFree bytes.tail)
    (tail : BytesArray) : ∀ i < bytes.length, RejectAt ((bytes ++ tail).drop i) := by
  have hLate := h.append tail
  obtain ⟨byte, rest, rfl⟩ := List.exists_cons_of_ne_nil h.header.ne_nil
  intro i hIndex
  cases i with
  | zero =>
    refine .badCrc hLate.header hLate.size hLate.type hLate.length hLate.total ?_
    exact fun hMatches => hLate.checksum ((crcMatches_iff _).mpr hMatches)
  | succ i => exact hFree.rejected tail i (Nat.lt_of_succ_lt_succ hIndex)

theorem noiseRejected_of_quiet {stretches : List Stretch}
    (hQuiet : ∀ stretch ∈ stretches, Quiet stretch) : NoiseRejected stretches := by
  induction stretches with
  | nil => exact trivial
  | cons stretch rest ih =>
    obtain ⟨hHere, hRest⟩ := List.forall_mem_cons.mp hQuiet
    cases stretch with
    | packet t => exact ih hRest
    | corrupted bytes => exact ⟨hHere.1.rejected hHere.2 _, ih hRest⟩
    | garbage bytes => exact ⟨hHere.rejected _, ih hRest⟩

theorem id_le_of_quiet {stretches : List Stretch} (hQuiet : ∀ stretch ∈ stretches, Quiet stretch) :
    ∀ t ∈ records stretches, t.droneId.length ≤ 39 := by
  rintro t hMem
  obtain ⟨stretch, hStretch, hRecord⟩ := List.mem_filterMap.mp hMem
  cases stretch with
  | packet u =>
    cases hRecord
    exact hQuiet _ hStretch
  | corrupted bytes | garbage bytes => cases hRecord

/-- Noise that is rejected where it stands costs none of the packets, whose identifiers have
at most 39 bytes, and the parser ends behind it without having kept anything. -/
theorem packets_received_in_noise (stretches : List Stretch) (hNoise : NoiseRejected stretches)
    (hIds : ∀ t ∈ records stretches, t.droneId.length ≤ 39) (batches : List (List BytesArray))
    (hStream : batches.flatten.flatten = wire stretches) :
    let p := processBatches deserializePayload {} batches
    p.pushedTelemetry = (records stretches).map some ∧
      p.receivedValidPackets = (records stretches).map buildTelemetryPacket ∧
      p.state = .waitForSync ∧ p.accumulatedData = [] := by
  intro p
  have hScanned := processBatches_scanned deserializePayload batches
  rw [hStream, scanned_wire hNoise hIds] at hScanned
  have hReceived : p.receivedValidPackets = (records stretches).map buildTelemetryPacket :=
    congrArg Prod.fst hScanned
  have hKept : p.accumulatedData = [] := congrArg Prod.snd hScanned
  have hReachable : Reachable deserializePayload p := ⟨batches, rfl⟩
  refine ⟨?_, hReceived, hReachable.idle.state_of_empty hKept, hKept⟩
  exact (processBatches_decoded deserializePayload batches).eq_map buildTelemetryPacket some _
    hReceived fun t ht tail => deserializePayload_build t tail (hIds t ht)

/-- Two packets with garbage between them that ends in half a header. -/
theorem packets_received_in_noise_between :
    let t : TelemetryData := ⟨[1], 2, 3, 4, 5, 6⟩
    let u : TelemetryData := ⟨[], 0, 0, 0, 0, 0⟩
    let stretches := [.packet t, .garbage [0x00, 0xAA, 0x01, 0x55], .packet u]
    (processBatches deserializePayload {} [[wire stretches]]).pushedTelemetry = [some t, some u] := by
  intro t u stretches
  have hQuiet : ∀ stretch ∈ stretches, Quiet stretch := by
    intro stretch hMem
    simp only [stretches, List.mem_cons, List.not_mem_nil, or_false] at hMem
    rcases hMem with rfl | rfl | rfl
    · exact (by decide : t.droneId.length ≤ 39)
    · exact (by decide : HeaderFree [0x00, 0xAA, 0x01, 0x55])
    · exact (by decide : u.droneId.length ≤ 39)
  exact (packets_received_in_noise stretches (noiseRejected_of_quiet hQuiet) (id_le_of_quiet hQuiet)
    [[wire stretches]] (by simp)).1

/-! ## What the parser counts -/

theorem scanView_headerFree (d : BytesArray → ρ) {p : SensorDataParser ρ}
    (hState : p.state = .waitForSync) {bytes : BytesArray} (h : HeaderFree bytes)
    (tail : BytesArray) : scanView d p (bytes ++ tail) = scanView d p tail := by
  induction bytes with
  | nil => rfl
  | cons byte rest ih =>
    obtain ⟨hHeader, hOpen⟩ := h.garbage_front tail
    rw [List.cons_append, scanView_skip d hState hHeader hOpen]
    exact ih h.tail

/-- The members behind a frame whose checksum has failed. -/
theorem scanView_badFrame (d : BytesArray → ρ) {p : SensorDataParser ρ}
    (hState : p.state = .waitForSync) {view : BytesArray} (h : BadFrame view) :
    scanView d p view =
      scanView d (p.openPayload .telemetry (lengthField view)).rejectCandidate view.tail := by
  have hRound := round_eq_of_case (RoundCase.crcMismatch (d := d)
    (p := p.openPayload .telemetry (lengthField view)) rfl rfl (7 + frameLength view)
    (by rw [frameLength_eq]; exact totalPacketSize_eq _) h.total h.checksum)
  rw [scanView_length d hState h.header h.size ((ofByte_telemetry_iff _).mpr h.type) (by decide)
      ((admittedLength_iff view).mp h.length),
    scanView_of_changed d _ h.header.ne_nil (by rw [hRound]), hRound, List.drop_one]

/-- `q` has received the packets more than `p` and rejected the corrupted ones. -/
structure Receives (p q : SensorDataParser ρ) (packets : List BytesArray) (corrupted : Nat) :
    Prop where
  state : q.state = .waitForSync
  received : q.receivedValidPackets = p.receivedValidPackets ++ packets
  telemetry : q.telemetryPktCount = p.telemetryPktCount + (packets.length + corrupted)
  crcErrors : q.crcErrorsCount = p.crcErrorsCount + corrupted
  invalidStructure : q.invalidStructureCount = p.invalidStructureCount
  heartBeat : q.heartBeatPktCount = p.heartBeatPktCount
  cmd : q.cmdPktCount = p.cmdPktCount

theorem receives_refl {p : SensorDataParser ρ} (hState : p.state = .waitForSync) :
    Receives p p [] 0 :=
  ⟨hState, (List.append_nil _).symm, rfl, rfl, rfl, rfl, rfl⟩

theorem Receives.packet {p q : SensorDataParser ρ} {packets : List BytesArray} {corrupted : Nat}
    {length : BitVec 16} {packet : BytesArray} {record : ρ}
    (h : Receives ((p.openPayload .telemetry length).acceptPacket packet record) q packets corrupted) :
    Receives p q (packet :: packets) corrupted where
  state := h.state
  received := h.received.trans (List.append_assoc _ [packet] packets)
  telemetry := by
    have hCount : q.telemetryPktCount = p.telemetryPktCount + 1 + (packets.length + corrupted) :=
      h.telemetry
    rw [hCount, List.length_cons]
    omega
  crcErrors := h.crcErrors
  invalidStructure := h.invalidStructure
  heartBeat := h.heartBeat
  cmd := h.cmd

theorem Receives.corrupted {p q : SensorDataParser ρ} {packets : List BytesArray} {corrupted : Nat}
    {length : BitVec 16}
    (h : Receives (p.openPayload .telemetry length).rejectCandidate q packets corrupted) :
    Receives p q packets (corrupted + 1) where
  state := h.state
  received := h.received
  telemetry := by
    have hCount : q.telemetryPktCount = p.telemetryPktCount + 1 + (packets.length + corrupted) :=
      h.telemetry
    omega
  crcErrors := by
    have hCount : q.crcErrorsCount = p.crcErrorsCount + 1 + corrupted := h.crcErrors
    omega
  invalidStructure := h.invalidStructure
  heartBeat := h.heartBeat
  cmd := h.cmd

theorem scanView_quiet (d : BytesArray → ρ) {stretches : List Stretch}
    (hQuiet : ∀ stretch ∈ stretches, Quiet stretch) {p : SensorDataParser ρ}
    (hState : p.state = .waitForSync) :
    ∃ q : SensorDataParser ρ, scanView d p (wire stretches) = (q, []) ∧
      Receives p q ((records stretches).map buildTelemetryPacket)
        (stretches.countP Stretch.isCorrupted) := by
  induction stretches generalizing p with
  | nil => exact ⟨p, scanView_nil d p, receives_refl hState⟩
  | cons stretch rest ih =>
    obtain ⟨hHere, hRest⟩ := List.forall_mem_cons.mp hQuiet
    rw [wire_cons]
    cases stretch with
    | packet t =>
      rw [Stretch.bytes, scanView_frame d hState (frameAt_build t _ hHere), take_build t _ hHere,
        drop_build t _ hHere]
      obtain ⟨q, hScan, hReceives⟩ := ih hRest
        (p := (p.openPayload .telemetry (lengthField (buildTelemetryPacket t ++ wire rest))).acceptPacket
          (buildTelemetryPacket t) (d ((buildTelemetryPacket t ++ wire rest).drop 5))) rfl
      exact ⟨q, hScan, hReceives.packet⟩
    | corrupted bytes =>
      obtain ⟨hBad, hFree⟩ := hHere
      have hTail : (bytes ++ wire rest).tail = bytes.tail ++ wire rest :=
        List.tail_append_of_ne_nil hBad.header.ne_nil
      rw [Stretch.bytes, scanView_badFrame d hState (hBad.append _), hTail,
        scanView_headerFree d rfl hFree]
      obtain ⟨q, hScan, hReceives⟩ := ih hRest
        (p := (p.openPayload .telemetry (lengthField (bytes ++ wire rest))).rejectCandidate) rfl
      refine ⟨q, hScan, ?_⟩
      rw [List.countP_cons_of_pos rfl]
      exact hReceives.corrupted
    | garbage bytes =>
      rw [Stretch.bytes, scanView_headerFree d hState hHere]
      exact ih hRest hState

/-- What a run over a quiet stream has received and counted. -/
theorem processBatches_quiet (d : BytesArray → ρ) {stretches : List Stretch}
    (hQuiet : ∀ stretch ∈ stretches, Quiet stretch) (batches : List (List BytesArray))
    (hStream : batches.flatten.flatten = wire stretches) :
    Receives {} (processBatches d {} batches) ((records stretches).map buildTelemetryPacket)
        (stretches.countP Stretch.isCorrupted) ∧
      (processBatches d {} batches).accumulatedData = [] := by
  obtain ⟨q, hScan, hReceives⟩ := scanView_quiet (fun _ => ()) hQuiet (p := {}) rfl
  have hForget : (processBatches d {} batches).forget = q.withBuffer [] := by
    rw [processBatches_forget, forget_init, processBatches_init, hStream, hScan]
    rfl
  constructor
  · constructor
    · exact (congrArg state hForget).trans hReceives.state
    · exact (congrArg receivedValidPackets hForget).trans hReceives.received
    · exact (congrArg telemetryPktCount hForget).trans hReceives.telemetry
    · exact (congrArg crcErrorsCount hForget).trans hReceives.crcErrors
    · exact (congrArg invalidStructureCount hForget).trans hReceives.invalidStructure
    · exact (congrArg heartBeatPktCount hForget).trans hReceives.heartBeat
    · exact (congrArg cmdPktCount hForget).trans hReceives.cmd
  · exact congrArg accumulatedData hForget

end CounterDroneServer.SensorDataParser

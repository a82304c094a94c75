import CounterDroneServer.Checksum.Detection
import CounterDroneServer.DroneDataSimulator.Ranges
import CounterDroneServer.SensorDataParser.Noise

/-!
# What becomes of a corrupted packet

`statistic_packet_corruption` flips one bit behind the type byte. Behind the
length field the checksum finds it; in the length field the scanner looks for a
frame of another size.
-/

set_option autoImplicit false

namespace CounterDroneServer.DroneDataSimulator

open BitPolynomial Checksum CyclicCode SensorDataParser

/-! ## One flipped bit -/

theorem flipBit_length (packet : BytesArray) (targetByte bit : ℤ) :
    (flipBit packet targetByte bit).length = packet.length :=
  List.length_modify _ _ _

theorem byteAt_flipBit_of_ne (packet : BytesArray) {targetByte bit : ℤ} {i : Nat}
    (hOther : targetByte.toNat ≠ i) : byteAt (flipBit packet targetByte bit) i = byteAt packet i := by
  rw [byteAt, byteAt, List.getD_eq_getElem?_getD, flipBit, List.getElem?_modify_ne _ _ hOther,
    List.getD_eq_getElem?_getD]

theorem count_zipWith_xor_self (bits : List Bool) : (List.zipWith xor bits bits).count true = 0 := by
  induction bits with
  | nil => rfl
  | cons bit bits ih => simpa using ih

theorem count_bitsOf_flipped (byte : Byte) {bit : Nat} (hBit : bit < 8) :
    (List.zipWith xor (bitsOf byte) (bitsOf (byte ^^^ BitVec.twoPow 8 bit))).count true = 1 := by
  have hMask : List.zipWith xor (bitsOf byte) (bitsOf (byte ^^^ BitVec.twoPow 8 bit)) =
      bitsOf (BitVec.twoPow 8 bit) := by
    rw [← bitsOf_xor, ← BitVec.xor_assoc, BitVec.xor_self, BitVec.zero_xor]
  rw [hMask]
  have hAll : ∀ bit < 8, (bitsOf (BitVec.twoPow 8 bit)).count true = 1 := by decide
  exact hAll bit hBit

theorem count_differingBits_flipBit {packet : BytesArray} {targetByte bit : ℤ}
    (hTarget : targetByte.toNat < packet.length) (hBit : bit.toNat < 8) :
    (differingBits packet (flipBit packet targetByte bit)).count true = 1 := by
  have hPacket : packet = packet.take targetByte.toNat ++
      ([packet[targetByte.toNat]] ++ packet.drop (targetByte.toNat + 1)) := by
    simp
  have hFlipped : flipBit packet targetByte bit = packet.take targetByte.toNat ++
      ([packet[targetByte.toNat] ^^^ BitVec.twoPow 8 bit.toNat] ++
        packet.drop (targetByte.toNat + 1)) :=
    List.modify_eq_take_cons_drop hTarget
  rw [differingBits, hFlipped]
  conv_lhs => enter [2, 2]; rw [hPacket]
  simp only [messageBits_append]
  rw [List.zipWith_append rfl, List.zipWith_append (by simp), List.count_append, List.count_append,
    count_zipWith_xor_self, count_zipWith_xor_self]
  simpa [messageBits] using count_bitsOf_flipped packet[targetByte.toNat] hBit

/-- A checksum that matches no longer does after one flipped bit. -/
theorem not_crcMatches_flipBit {packet : BytesArray} {n : Nat} (hSize : packet.length = n + 2)
    (hCrc : crcMatches packet (n + 2)) {targetByte bit : ℤ}
    (hTarget : targetByte.toNat < packet.length) (hBit : bit.toNat < 8) :
    ¬crcMatches (flipBit packet targetByte bit) (n + 2) := by
  intro hFlipped
  have hDvd := generator_dvd_differingBits hSize (by rw [flipBit_length, hSize]) hCrc hFlipped
  have hEven := even_count_of_dvd parity_dvd_generator hDvd
  rw [count_differingBits_flipBit hTarget hBit] at hEven
  exact absurd hEven (by decide)

/-! ## The verdict at the front -/

/-- What the scanner asks of a header with the type of a telemetry packet. -/
theorem verdict_of_telemetry {bytes : BytesArray} (hHeader : HeaderAt bytes)
    (hSize : 5 ≤ bytes.length) (hType : byteAt bytes 2 = 1) :
    (OpenAt bytes ↔ AdmittedLength bytes ∧ bytes.length < 7 + frameLength bytes) ∧
      (FrameAt bytes ↔ AdmittedLength bytes ∧ 7 + frameLength bytes ≤ bytes.length ∧
        crcMatches bytes (7 + frameLength bytes)) := by
  constructor
  · constructor
    · rintro (rfl | ⟨-, hShort | ⟨-, hShort⟩ | ⟨-, -, hLength, hTotal⟩ | ⟨-, hOther, -⟩⟩)
      · exact absurd hSize (by decide)
      · omega
      · omega
      · exact ⟨hLength, hTotal⟩
      · rw [hType] at hOther
        exact absurd hOther (by decide)
    · rintro ⟨hLength, hTotal⟩
      exact .inr ⟨hHeader, .inr (.inr (.inl ⟨hSize, hType, hLength, hTotal⟩))⟩
  · rw [crcMatches_iff]
    constructor
    · rintro ⟨-, -, -, hLength, hTotal, hCrc⟩
      exact ⟨hLength, hTotal, hCrc⟩
    · rintro ⟨hLength, hTotal, hCrc⟩
      exact ⟨hHeader, hSize, hType, hLength, hTotal, hCrc⟩

section

variable {droneNum : ℤ} (data : TelemetryData)

theorem frameAt_generatedPacket (hNum : Range.Contains ⟨1, 5⟩ droneNum) :
    FrameAt (generatedPacket droneNum data) ∧ frameLength (generatedPacket droneNum data) = 46 := by
  have hId : ({ data with droneId := droneId droneNum } : TelemetryData).droneId.length = 5 :=
    droneId_length hNum
  have hFrame := frameAt_build { data with droneId := droneId droneNum } [] (by omega)
  have hLength := frameLength_build { data with droneId := droneId droneNum } [] (by omega)
  rw [List.append_nil] at hFrame hLength
  exact ⟨hFrame, by rw [generatedPacket, hLength, hId]⟩

/-- The first five bytes of a generated packet. -/
theorem generatedPacket_front (hNum : Range.Contains ⟨1, 5⟩ droneNum) :
    ∃ rest, generatedPacket droneNum data = headerByte0 :: headerByte1 :: 1 :: 0 :: 46 :: rest := by
  have hId : ({ data with droneId := droneId droneNum } : TelemetryData).droneId.length = 5 :=
    droneId_length hNum
  rw [generatedPacket, buildTelemetryPacket_eq, hId]
  exact ⟨_, rfl⟩

variable {targetByte bit : ℤ}

theorem toNat_target_lt (hNum : Range.Contains ⟨1, 5⟩ droneNum)
    (hTarget : Range.Contains ⟨3, lastIndex (generatedPacket droneNum data)⟩ targetByte) :
    targetByte.toNat < 53 := by
  have hUpper : targetByte ≤ lastIndex (generatedPacket droneNum data) := hTarget.2
  rw [lastIndex, generatedPacket_length hNum data] at hUpper
  omega

theorem flipped_header (bit : ℤ) (hNum : Range.Contains ⟨1, 5⟩ droneNum) (hTarget : 3 ≤ targetByte) :
    HeaderAt (flipBit (generatedPacket droneNum data) targetByte bit) ∧
      byteAt (flipBit (generatedPacket droneNum data) targetByte bit) 2 = 1 := by
  obtain ⟨rest, hPacket⟩ := generatedPacket_front data hNum
  obtain ⟨i, hIndex⟩ : ∃ i, targetByte.toNat = i + 3 := ⟨targetByte.toNat - 3, by omega⟩
  rw [hPacket, flipBit, hIndex]
  exact ⟨(headerAt_iff _).mpr ⟨_, rfl⟩, rfl⟩

/-- The length field behind a hit, by the byte that was hit. -/
theorem frameLength_flipped (hNum : Range.Contains ⟨1, 5⟩ droneNum) (hBit : Range.Contains ⟨0, 7⟩ bit) :
    let n := frameLength (flipBit (generatedPacket droneNum data) targetByte bit)
    (targetByte = 3 → 256 ≤ n) ∧
      (targetByte = 4 → n = (46 ^^^ BitVec.twoPow 8 bit.toNat).toNat) ∧
      (5 ≤ targetByte → n = 46) := by
  intro n
  obtain ⟨rest, hPacket⟩ := generatedPacket_front data hNum
  refine ⟨?_, ?_, ?_⟩
  · intro hHigh
    have hByte : byteAt (flipBit (generatedPacket droneNum data) targetByte bit) 3 =
        0 ^^^ BitVec.twoPow 8 bit.toNat := by
      rw [hPacket, flipBit, hHigh]
      rfl
    have hAll : ∀ bit < 8, 1 ≤ (0 ^^^ BitVec.twoPow 8 bit).toNat := by decide
    have hOne := hAll bit.toNat (by have := hBit.2; dsimp only at this; omega)
    rw [← hByte] at hOne
    simp only [n, frameLength]
    omega
  · intro hLow
    have hBytes : byteAt (flipBit (generatedPacket droneNum data) targetByte bit) 3 = 0 ∧
        byteAt (flipBit (generatedPacket droneNum data) targetByte bit) 4 =
          46 ^^^ BitVec.twoPow 8 bit.toNat := by
      rw [hPacket, flipBit, hLow]
      exact ⟨rfl, rfl⟩
    simp only [n, frameLength, hBytes.1, hBytes.2]
    exact Nat.zero_add _
  · intro hBehind
    simp only [n, frameLength]
    rw [byteAt_flipBit_of_ne _ (by omega), byteAt_flipBit_of_ne _ (by omega)]
    exact (frameAt_generatedPacket data hNum).2

theorem badFrame_flipped (hNum : Range.Contains ⟨1, 5⟩ droneNum)
    (hTarget : Range.Contains ⟨3, lastIndex (generatedPacket droneNum data)⟩ targetByte)
    (hBit : Range.Contains ⟨0, 7⟩ bit) (hBehind : 5 ≤ targetByte) :
    BadFrame (flipBit (generatedPacket droneNum data) targetByte bit) := by
  have hSize := generatedPacket_length hNum data
  have hFlipped := flipBit_length (generatedPacket droneNum data) targetByte bit
  have hLength := (frameLength_flipped data hNum hBit).2.2 hBehind
  obtain ⟨hHeader, hType⟩ := flipped_header data bit hNum hTarget.1
  obtain ⟨⟨-, -, -, -, -, hCrc⟩, hFrame⟩ := frameAt_generatedPacket data hNum
  rw [← crcMatches_iff, hFrame] at hCrc
  constructor
  · exact hHeader
  · omega
  · exact hType
  · rw [AdmittedLength, hLength]
    omega
  · omega
  · rw [hLength]
    apply not_crcMatches_flipBit (n := 51) hSize hCrc
    · rw [hSize]
      exact toNat_target_lt data hNum hTarget
    · have hUpper : bit ≤ 7 := hBit.2
      omega

/-- Which hits on the low byte of the length field, 46, the length filter lets pass. -/
theorem lowByte_flipped : ∀ bit < 8,
    let n := (46 ^^^ BitVec.twoPow 8 bit : Byte).toNat
    ((40 ≤ n ∧ n ≤ 80) ∧ 53 < 7 + n ↔ bit = 0 ∨ bit = 4) ∧
      ((40 ≤ n ∧ n ≤ 80) ∧ 7 + n ≤ 53 ↔ bit = 1 ∨ bit = 2) ∧
      (bit = 1 → n = 44) ∧ (bit = 2 → n = 42) := by
  decide

/-- The scanner's verdict on a corrupted packet with nothing behind it: it waits for
more when the length field has grown within the filter, it takes a shorter frame if
that has a matching checksum, and it rejects every other corruption. -/
theorem corrupted_verdict (hNum : Range.Contains ⟨1, 5⟩ droneNum)
    (hTarget : Range.Contains ⟨3, lastIndex (generatedPacket droneNum data)⟩ targetByte)
    (hBit : Range.Contains ⟨0, 7⟩ bit) :
    let bytes := flipBit (generatedPacket droneNum data) targetByte bit
    (OpenAt bytes ↔ targetByte = 4 ∧ (bit = 0 ∨ bit = 4)) ∧
      (FrameAt bytes ↔ targetByte = 4 ∧
        (bit = 1 ∧ crcMatches bytes 51 ∨ bit = 2 ∧ crcMatches bytes 49)) ∧
      (RejectAt bytes ↔ ¬OpenAt bytes ∧ ¬FrameAt bytes) := by
  intro bytes
  have hSize : bytes.length = 53 := by
    rw [flipBit_length, generatedPacket_length hNum]
  obtain ⟨hHeader, hType⟩ : HeaderAt bytes ∧ byteAt bytes 2 = 1 := flipped_header data bit hNum hTarget.1
  have hReject : RejectAt bytes ↔ ¬OpenAt bytes ∧ ¬FrameAt bytes := by
    constructor
    · intro hReject
      exact ⟨hReject.not_openAt, hReject.not_frameAt⟩
    · rintro ⟨hNotOpen, hNotFrame⟩
      rcases verdict hHeader.ne_nil with hFrame | hOpen | hReject
      · exact absurd hFrame hNotFrame
      · exact absurd hOpen hNotOpen
      · exact hReject
  have hVerdict := verdict_of_telemetry hHeader (by omega) hType
  obtain ⟨hOpen, hFrame⟩ := hVerdict
  have hLength : (targetByte = 3 → 256 ≤ frameLength bytes) ∧
      (targetByte = 4 → frameLength bytes = (46 ^^^ BitVec.twoPow 8 bit.toNat : Byte).toNat) ∧
      (5 ≤ targetByte → frameLength bytes = 46) :=
    frameLength_flipped data hNum hBit
  obtain ⟨hHigh, hLow, hBehind⟩ := hLength
  rw [hSize, AdmittedLength] at hOpen hFrame
  have hCases : targetByte = 3 ∨ targetByte = 4 ∨ 5 ≤ targetByte := by
    have hLower : 3 ≤ targetByte := hTarget.1
    omega
  have hBits : bit.toNat < 8 := by
    have hUpper : bit ≤ 7 := hBit.2
    omega
  have hNonneg : 0 ≤ bit := hBit.1
  obtain ⟨hGrown, hShrunk, hOne, hTwo⟩ := lowByte_flipped bit.toNat hBits
  refine ⟨?_, ?_, hReject⟩
  · rw [hOpen]
    rcases hCases with hField | hField | hField
    · have hHit := hHigh hField
      omega
    · rw [hLow hField, hGrown]
      omega
    · have hHit := hBehind hField
      omega
  · rw [hFrame]
    rcases hCases with hField | hField | hField
    · have hHit := hHigh hField
      omega
    · rw [← and_assoc, hLow hField, hShrunk]
      constructor
      · rintro ⟨hBit1 | hBit2, hCrc⟩
        · rw [hOne hBit1] at hCrc
          exact ⟨hField, .inl ⟨by omega, hCrc⟩⟩
        · rw [hTwo hBit2] at hCrc
          exact ⟨hField, .inr ⟨by omega, hCrc⟩⟩
      · rintro ⟨-, ⟨rfl, hCrc⟩ | ⟨rfl, hCrc⟩⟩
        · exact ⟨.inl rfl, hCrc⟩
        · exact ⟨.inr rfl, hCrc⟩
    · have hHit := hBehind hField
      have hBad : ¬crcMatches bytes (7 + frameLength bytes) :=
        (badFrame_flipped data hNum hTarget hBit hField).checksum
      constructor
      · rintro ⟨-, -, hCrc⟩
        exact absurd hCrc hBad
      · rintro ⟨rfl, -⟩
        exact absurd hField (by decide)

/-- A length field of 47 keeps the scanner waiting for one byte more. -/
theorem corrupted_verdict_longer :
    OpenAt (flipBit (generatedPacket 1 anyTelemetry) 4 0) :=
  (corrupted_verdict anyTelemetry (show Range.Contains ⟨1, 5⟩ 1 by decide)
    (show Range.Contains _ 4 by decide +kernel) (show Range.Contains ⟨0, 7⟩ 0 by decide)).1.mpr
    ⟨rfl, .inl rfl⟩

end

end CounterDroneServer.DroneDataSimulator

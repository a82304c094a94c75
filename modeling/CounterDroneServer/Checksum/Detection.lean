import CounterDroneServer.Checksum.Remainder
import CounterDroneServer.Library.CyclicCode
import CounterDroneServer.DroneDataSimulator.Packet
import CounterDroneServer.SensorDataParser.Fragmentation

/-!
# What the packet check detects

Two frames of one size that both pass the check differ by a multiple of the
generator. Its factor `X + 1`, its constant term and the order of `X` modulo it
bound what such a difference can look like.
-/

set_option autoImplicit false

namespace CounterDroneServer.Checksum

universe u

open Polynomial BitPolynomial CyclicCode ByteOrder SensorDataParser

/-! ## The generator -/

theorem parity_dvd_generator : X + 1 ∣ generator := by
  have hRoot : IsRoot generator 1 := by
    simp only [generator, IsRoot.def, eval_add, eval_pow, eval_X, eval_one, one_pow]
    decide
  have hDvd := dvd_iff_isRoot.mpr hRoot
  rwa [CharTwo.sub_eq_add, map_one] at hDvd

theorem isCoprime_generator_X : IsCoprime generator X := by
  refine ⟨1, -(X ^ 15 + X ^ 11 + X ^ 4), ?_⟩
  rw [generator]
  ring

theorem residue_word_injective {x y : BitVec 16} (hEq : residue (word x) = residue (word y)) :
    x = y := by
  apply word_injective
  apply sub_eq_zero.mp
  apply eq_zero_of_dvd_of_degree_lt ((residue_eq_iff _ _).mp hEq)
  apply lt_of_le_of_lt (degree_sub_le _ _)
  rw [generator_degree]
  exact max_lt (word_degree_lt x) (word_degree_lt y)

/-- `n` rounds of the register from here do not pass through one. -/
def avoidsOne : Nat → BitVec 16 → Bool
  | 0, _ => true
  | n + 1, crc => crcBit crc != 1 && avoidsOne n (crcBit crc)

theorem crcBits_ne_one {n : Nat} {crc : BitVec 16} (hAvoids : avoidsOne n crc = true) {k : Nat}
    (hPositive : 0 < k) (hBound : k ≤ n) : crcBits k crc ≠ 1 := by
  induction n generalizing crc k with
  | zero => omega
  | succ n ih =>
    obtain ⟨hHere, hLater⟩ := Bool.and_eq_true_iff.mp hAvoids
    obtain ⟨j, rfl⟩ := Nat.exists_eq_succ_of_ne_zero hPositive.ne'
    cases j with
    | zero => exact bne_iff_ne.mp hHere
    | succ j => exact ih hLater (Nat.succ_pos j) (by omega)

/-- The register does not return to its start within the bits of a frame. -/
theorem not_generator_dvd {k : Nat} (hPositive : 0 < k) (hBound : k < 696) :
    ¬generator ∣ X ^ k + 1 := by
  intro hDvd
  have hAvoids : avoidsOne 695 1 = true := by decide +kernel
  apply crcBits_ne_one hAvoids hPositive (by omega)
  apply residue_word_injective
  have hOne : word (1 : BitVec 16) = 1 := by
    have hBits : bitsOf (1 : BitVec 16) = List.replicate 15 false ++ [true] := by decide
    rw [word, hBits, ofBits_append, ofBits_replicate_false]
    simp
  rw [residue_crcBits, hOne, one_mul, residue_eq_iff, CharTwo.sub_eq_add]
  exact hDvd

/-! ## Frames that pass the check -/

theorem word_bigEndian16 (high low : Byte) :
    word (bigEndian16 high low) = message [high, low] := by
  have hDisjoint : bigEndian16 high low = (high.setWidth 16 <<< 8) ^^^ low.setWidth 16 := by
    apply BitVec.eq_of_getLsbD_eq
    intro i hIndex
    simp only [bigEndian16, BitVec.getLsbD_or, BitVec.getLsbD_xor, BitVec.getLsbD_shiftLeft,
      BitVec.getLsbD_setWidth]
    rcases Nat.lt_or_ge i 8 with hLower | hUpper
    · simp [hLower]
    · simp [BitVec.getLsbD_of_ge low i hUpper]
  have hLow : word (low.setWidth 16) = word low := by
    rw [word, bitsOf_setWidth low 8, ofBits_append, ofBits_replicate_false, zero_mul, zero_add]
    rfl
  rw [hDisjoint, word_xor, word_upper, hLow, message_cons, message_cons]
  simp [message, messageBits]

/-- What a frame with a matching checksum is congruent to depends only on its
size. -/
theorem residue_of_crcMatches {packet : BytesArray} {n : Nat} (hSize : packet.length = n + 2)
    (hCrc : crcMatches packet (n + 2)) :
    residue (message packet) = residue ((∑ i ∈ Finset.range 16, X ^ i) * X ^ (8 * n)) := by
  have hLast : packet.drop n = [byteAt packet n, byteAt packet (n + 1)] := by
    have hTwo : (packet.drop n).length = 2 := by
      rw [List.length_drop]
      omega
    obtain ⟨high, low, hBytes⟩ := List.length_eq_two.mp hTwo
    have hGet : ∀ i, byteAt packet (n + i) = byteAt (packet.drop n) i := by
      intro i
      simp [byteAt, List.getD_eq_getElem?_getD, List.getElem?_drop]
    rw [hGet 1, ← Nat.add_zero n, hGet 0, Nat.add_zero, hBytes]
    rfl
  have hBody : (packet.take n).length = n := by
    rw [List.length_take]
    omega
  have hChecksum : word (calculateCrc16 (packet.take n)) = message (packet.drop n) := by
    rw [hLast, ← word_bigEndian16]
    exact congrArg word hCrc
  have hRemainder := residue_calculateCrc16 (packet.take n)
  rw [hChecksum, hBody, residue_add] at hRemainder
  calc
    residue (message packet) = residue (message (packet.take n) * X ^ 16) +
        residue (message (packet.drop n)) := by
      conv_lhs => rw [← List.take_append_drop n packet]
      rw [message_append, residue_add, hLast]
      rfl
    _ = residue ((∑ i ∈ Finset.range 16, X ^ i) * X ^ (8 * n)) := by
      rw [hRemainder, ← add_assoc, ← residue_add, CharTwo.add_self_eq_zero, residue, map_zero,
        zero_add]

/-- The positions in which two byte strings of one size differ. -/
def differingBits (packet packet' : BytesArray) : List Bool :=
  List.zipWith xor (messageBits packet) (messageBits packet')

theorem generator_dvd_differingBits {packet packet' : BytesArray} {n : Nat}
    (hSize : packet.length = n + 2) (hSize' : packet'.length = n + 2)
    (hCrc : crcMatches packet (n + 2)) (hCrc' : crcMatches packet' (n + 2)) :
    generator ∣ ofBits (differingBits packet packet') := by
  have hBits : (messageBits packet).length = (messageBits packet').length := by
    rw [messageBits_length, messageBits_length, hSize, hSize']
  rw [differingBits, ofBits_xor hBits]
  change generator ∣ message packet + message packet'
  rw [← CharTwo.sub_eq_add, ← residue_eq_iff, residue_of_crcMatches hSize hCrc,
    residue_of_crcMatches hSize' hCrc']

/-- Two different admitted frames that pass the check differ in an even number of
bits, and in four at least. -/
theorem crc_distance {packet packet' : BytesArray} {payloadLength : Nat}
    (hLength : payloadLength ≤ maxPayloadExpLength)
    (hSize : packet.length = 7 + payloadLength) (hSize' : packet'.length = 7 + payloadLength)
    (hCrc : crcMatches packet (7 + payloadLength)) (hCrc' : crcMatches packet' (7 + payloadLength))
    (hDifferent : packet ≠ packet') :
    Even ((differingBits packet packet').count true) ∧
      4 ≤ (differingBits packet packet').count true := by
  have hTotal : 7 + payloadLength = 5 + payloadLength + 2 := by omega
  rw [hTotal] at hSize hSize' hCrc hCrc'
  have hDvd := generator_dvd_differingBits hSize hSize' hCrc hCrc'
  refine ⟨even_count_of_dvd parity_dvd_generator hDvd, ?_⟩
  have hBits : (differingBits packet packet').length ≤ 696 := by
    rw [maxPayloadExpLength] at hLength
    rw [differingBits, List.length_zipWith, messageBits_length, messageBits_length, hSize, hSize']
    omega
  have hNonzero : (differingBits packet packet').count true ≠ 0 := by
    intro hZero
    have hSum := (ofBits_eq_zero_iff _).mpr hZero
    rw [differingBits, ofBits_xor (by rw [messageBits_length, messageBits_length, hSize, hSize'])]
      at hSum
    apply hDifferent
    apply messageBits_injective (hSize.trans hSize'.symm)
    apply ofBits_injective (by rw [messageBits_length, messageBits_length, hSize, hSize'])
    rw [← CharTwo.sub_eq_add] at hSum
    exact sub_eq_zero.mp hSum
  exact four_le_count_of_dvd parity_dvd_generator isCoprime_generator_X
    (fun k hPositive hBound => not_generator_dvd hPositive hBound) hBits hNonzero hDvd

theorem crc_distance_two_latitudes :
    let packet := buildTelemetryPacket ⟨[], 0, 0, 0, 0, 0⟩
    let packet' := buildTelemetryPacket ⟨[], 1, 0, 0, 0, 0⟩
    4 ≤ (differingBits packet packet').count true := by
  intro packet packet'
  have hSize : packet.length = 7 + 41 := by decide +kernel
  have hSize' : packet'.length = 7 + 41 := by decide +kernel
  exact (crc_distance (by decide) hSize hSize' (by decide +kernel) (by decide +kernel)
    (by decide +kernel)).2

/-- A packet altered by a burst of at most 16 bits takes the error branch. -/
theorem burst_rejected {ρ : Type u} (deserializePayload : BytesArray → ρ)
    (p : SensorDataParser ρ) {packet error : BytesArray} {payloadLength : Nat} (tail : BytesArray)
    (hSize : packet.length = 7 + payloadLength) (hCrc : crcMatches packet (7 + payloadLength))
    (hError : error.length = packet.length) (hNonzero : true ∈ messageBits error)
    (hBurst : IsBurst 16 (messageBits error)) :
    let altered := List.zipWith (· ^^^ ·) packet error
    let r := processTelemetryPayload deserializePayload p (altered ++ tail) (7 + payloadLength)
    r.parser.receivedValidPackets = p.receivedValidPackets ∧
      r.parser.pushedTelemetry = p.pushedTelemetry ∧
      r.parser.crcErrorsCount = p.crcErrorsCount + 1 ∧ r.removed = 1 := by
  intro altered r
  have hTotal : 7 + payloadLength = 5 + payloadLength + 2 := by omega
  have hAltered : altered.length = 7 + payloadLength := by
    rw [List.length_zipWith, hError, hSize, Nat.min_self]
  have hFails : ¬crcMatches (altered ++ tail) (7 + payloadLength) := by
    intro hMatches
    have hCrc' := (crcMatches_append altered tail _ (by omega) (by omega)).mp hMatches
    have hXor : message altered = message packet + message error := by
      rw [message, messageBits_xor hError.symm, ofBits_xor]
      · rfl
      · rw [messageBits_length, messageBits_length, hError]
    rw [hTotal] at hSize hCrc hCrc' hAltered
    have hSame := (residue_of_crcMatches hAltered hCrc').trans (residue_of_crcMatches hSize hCrc).symm
    rw [residue_eq_iff, hXor, add_sub_cancel_left] at hSame
    have hZero := count_eq_zero_of_burst isCoprime_generator_X
      (by rw [generator_degree]; rfl) hBurst hSame
    exact List.count_eq_zero.mp hZero hNonzero
  have hRejects : r = ⟨p.rejectCandidate, 1, true⟩ := if_neg hFails
  rw [hRejects]
  exact ⟨rfl, rfl, rfl, rfl⟩

/-- A burst over the last payload byte and the first byte of the checksum. -/
def straddlingBurst : BytesArray := List.replicate 45 0 ++ [0x0F, 0x81, 0]

theorem burst_rejected_straddling :
    let packet := buildTelemetryPacket ⟨[], 0, 0, 0, 0, 0⟩
    let altered := List.zipWith (· ^^^ ·) packet straddlingBurst
    (processTelemetryPayload (fun _ => ()) {} (altered ++ [0xAA]) (7 + 41)).removed = 1 := by
  intro packet altered
  have hSize : packet.length = 7 + 41 := by decide +kernel
  have hBits : messageBits straddlingBurst = List.replicate 364 false ++
      ([true, true, true, true, true, false, false, false, false, false, false, true, false, false,
        false, false] ++ List.replicate 4 false) := by
    decide +kernel
  have hBurst : IsBurst 16 (messageBits straddlingBurst) := hBits ▸ isBurst_append 364 4 _
  exact (burst_rejected (fun _ => ()) {} [0xAA] hSize (by decide +kernel) (by decide +kernel)
    (by decide +kernel) hBurst).2.2.2

end CounterDroneServer.Checksum

import CounterDroneServer.SensorDataParser.RoundTrip

/-!
# The reference scanner along a stream

A verdict other than open does not change when more bytes come, so the frames
found in a prefix of a stream stay found. On a stream of built packets the
frames are the packets that have arrived in full.
-/

set_option autoImplicit false

namespace CounterDroneServer.SensorDataParser

universe u

variable {ρ : Type u}

/-! ## Verdicts on a longer view -/

theorem frameLength_append (bs tail : BytesArray) (hSize : 5 ≤ bs.length) :
    frameLength (bs ++ tail) = frameLength bs := by
  rw [frameLength_eq, frameLength_eq, lengthField_append bs tail hSize]

theorem admittedLength_append (bs tail : BytesArray) (hSize : 5 ≤ bs.length) :
    AdmittedLength (bs ++ tail) ↔ AdmittedLength bs := by
  rw [AdmittedLength, AdmittedLength, frameLength_append bs tail hSize]

theorem headerAt_append_iff (bs tail : BytesArray) (hSize : 2 ≤ bs.length) :
    HeaderAt (bs ++ tail) ↔ HeaderAt bs := by
  obtain ⟨byte0, rest, rfl⟩ := List.exists_cons_of_length_pos (by omega : 0 < bs.length)
  obtain ⟨byte1, rest, rfl⟩ := List.exists_cons_of_length_pos (Nat.le_of_succ_le_succ hSize : 0 < rest.length)
  simp only [List.cons_append, headerAt_cons_cons]

theorem FrameAt.append {bs : BytesArray} (h : FrameAt bs) (tail : BytesArray) :
    FrameAt (bs ++ tail) := by
  obtain ⟨hHeader, hSize, hType, hLength, hTotal, hCrc⟩ := h
  have hFrame := frameLength_append bs tail hSize
  have hLonger : (bs ++ tail).length = bs.length + tail.length := List.length_append
  refine ⟨headerAt_append hHeader tail, by omega, ?_, ?_, by omega, ?_⟩
  · rw [byteAt_append bs tail 2 (by omega), hType]
  · rwa [admittedLength_append bs tail hSize]
  · rw [← crcMatches_iff] at hCrc ⊢
    rw [hFrame]
    exact (crcMatches_append bs tail _ (by omega) hTotal).mpr hCrc

theorem RejectAt.append {bs : BytesArray} (h : RejectAt bs) (tail : BytesArray) :
    RejectAt (bs ++ tail) := by
  have hLonger : (bs ++ tail).length = bs.length + tail.length := List.length_append
  cases h with
  | garbage hBytes hHeader hOpen =>
    obtain ⟨byte0, rest, rfl⟩ := List.exists_cons_of_ne_nil hBytes
    refine .garbage (List.cons_ne_nil _ _) ?_ ?_
    · intro hLate
      cases rest with
      | nil =>
        obtain ⟨_, h⟩ := (headerAt_iff _).mp hLate
        exact hOpen (congrArg (fun byte => [byte]) (List.cons.inj h).1)
      | cons byte1 rest =>
        exact hHeader ((headerAt_append_iff (byte0 :: byte1 :: rest) tail (by simp)).mp hLate)
    · intro hLate
      obtain ⟨rfl, hRest⟩ := List.cons.inj hLate
      exact hOpen (by rw [(List.append_eq_nil_iff.mp hRest).1])
  | unknownType hHeader hSize hType =>
    refine .unknownType (headerAt_append hHeader tail) (by omega) ?_
    rwa [byteAt_append bs tail 2 hSize]
  | badLength hHeader hSize hType hLength =>
    refine .badLength (headerAt_append hHeader tail) (by omega) ?_ ?_
    · rwa [byteAt_append bs tail 2 (by omega)]
    · rwa [admittedLength_append bs tail hSize]
  | badCrc hHeader hSize hType hLength hTotal hCrc =>
    have hFrame := frameLength_append bs tail hSize
    refine .badCrc (headerAt_append hHeader tail) (by omega) ?_ ?_ (by omega) ?_
    · rwa [byteAt_append bs tail 2 (by omega)]
    · rwa [admittedLength_append bs tail hSize]
    · rw [Ne, ← crcMatches_iff] at hCrc ⊢
      rw [hFrame]
      exact fun hLate => hCrc ((crcMatches_append bs tail _ (by omega) hTotal).mp hLate)

/-! ## The scanner without positions -/

/-- The frames that the reference scanner finds and the rest it keeps. -/
def scanned (bs : BytesArray) : List BytesArray × BytesArray :=
  ((scan 0 bs).1.map Prod.snd, (scan 0 bs).2)

theorem scanned_eq (i : Nat) (bs : BytesArray) :
    ((scan i bs).1.map Prod.snd, (scan i bs).2) = scanned bs := by
  have hHere := scanView_scan (fun _ => ()) i bs (p := {}) rfl
  have hZero := scanView_scan (fun _ => ()) 0 bs (p := {}) rfl
  exact Prod.ext (hHere.1.symm.trans hZero.1) (hHere.2.symm.trans hZero.2)

theorem scanned_nil : scanned [] = ([], []) := by
  rw [scanned, scan_nil]
  rfl

theorem scanned_of_frame {bs : BytesArray} (h : FrameAt bs) :
    scanned bs =
      (bs.take (7 + frameLength bs) :: (scanned (bs.drop (7 + frameLength bs))).1,
        (scanned (bs.drop (7 + frameLength bs))).2) := by
  rw [← scanned_eq (0 + (7 + frameLength bs)) (bs.drop (7 + frameLength bs)), scanned,
    scan_of_frame 0 h]
  rfl

theorem scanned_of_open {bs : BytesArray} (h : OpenAt bs) : scanned bs = ([], bs) := by
  rw [scanned, scan_of_open 0 h]
  rfl

theorem scanned_of_reject {bs : BytesArray} (h : RejectAt bs) : scanned bs = scanned bs.tail := by
  rw [scanned, scan_of_reject 0 h, scanned_eq]

theorem scanned_of_short {bs : BytesArray} (hSize : bs.length < 47) : (scanned bs).1 = [] := by
  induction bs using scan_induction with
  | empty => rw [scanned_nil]
  | frame bs h ih =>
    obtain ⟨-, -, -, hLength, hTotal, -⟩ := h
    rw [AdmittedLength] at hLength
    omega
  | stop bs h => rw [scanned_of_open h]
  | reject bs h ih =>
    rw [scanned_of_reject h]
    apply ih
    rw [List.length_tail]
    omega

/-- What was found in a prefix stays found; the scan resumes at the rest. -/
theorem scanned_append (bs tail : BytesArray) :
    scanned (bs ++ tail) =
      ((scanned bs).1 ++ (scanned ((scanned bs).2 ++ tail)).1,
        (scanned ((scanned bs).2 ++ tail)).2) := by
  induction bs using scan_induction with
  | empty => rw [scanned_nil]; rfl
  | frame bs h ih =>
    have hLonger := h.append tail
    have hFrame := frameLength_append bs tail h.2.1
    rw [scanned_of_frame hLonger, scanned_of_frame h, hFrame,
      List.take_append_of_le_length h.2.2.2.2.1, List.drop_append_of_le_length h.2.2.2.2.1, ih]
    rfl
  | stop bs h => rw [scanned_of_open h]; rfl
  | reject bs h ih =>
    obtain ⟨byte, rest, rfl⟩ := List.exists_cons_of_ne_nil h.ne_nil
    rw [scanned_of_reject (h.append tail), scanned_of_reject h]
    exact ih

theorem processBatches_scanned (d : BytesArray → ρ) (batches : List (List BytesArray)) :
    ((processBatches d {} batches).receivedValidPackets,
      (processBatches d {} batches).accumulatedData) = scanned batches.flatten.flatten := by
  have hForget := processBatches_forget d {} batches
  rw [forget_init, processBatches_init] at hForget
  have hScan := scanView_scan (fun _ => ()) 0 batches.flatten.flatten (p := {}) rfl
  refine Prod.ext ?_ ?_
  · exact (congrArg receivedValidPackets hForget).trans hScan.1
  · exact (congrArg accumulatedData hForget).trans hScan.2

/-! ## Streams of packets -/

theorem scanned_build_append (t : TelemetryData) (tail : BytesArray)
    (hId : t.droneId.length ≤ 39) :
    scanned (buildTelemetryPacket t ++ tail) =
      (buildTelemetryPacket t :: (scanned tail).1, (scanned tail).2) := by
  rw [scanned_of_frame (frameAt_build t tail hId), take_build t tail hId, drop_build t tail hId]

theorem scanned_build (t : TelemetryData) (hId : t.droneId.length ≤ 39) :
    scanned (buildTelemetryPacket t) = ([buildTelemetryPacket t], []) := by
  have hScanned := scanned_build_append t [] hId
  rwa [List.append_nil, scanned_nil] at hScanned

/-- A packet that has arrived in part leaves its position open. -/
theorem scanned_part (t : TelemetryData) (hId : t.droneId.length ≤ 39) {part more : BytesArray}
    (hSplit : part ++ more = buildTelemetryPacket t) (hMore : more ≠ []) : (scanned part).1 = [] := by
  have hFrame := frameAt_build t [] hId
  rw [List.append_nil, ← hSplit] at hFrame
  have hLength := congrArg List.length hSplit
  rw [List.length_append, buildTelemetryPacket_length] at hLength
  have hTotal := frameLength_build t [] hId
  rw [List.append_nil, ← hSplit] at hTotal
  have hPositive := List.length_pos_iff.mpr hMore
  obtain ⟨hHeader, -, hType, hAdmitted, -⟩ := hFrame
  by_cases hEmpty : part = []
  · rw [hEmpty, scanned_nil]
  suffices hOpen : OpenAt part by rw [scanned_of_open hOpen]
  by_cases hOne : part.length = 1
  · obtain ⟨byte, rfl⟩ := List.length_eq_one_iff.mp hOne
    obtain ⟨rest, hRest⟩ := (headerAt_iff _).mp hHeader
    exact .inl (congrArg (fun byte => [byte]) (List.cons.inj hRest).1)
  have hTwo : 2 ≤ part.length := by
    have := List.length_pos_iff.mpr hEmpty
    omega
  rw [headerAt_append_iff part more hTwo] at hHeader
  refine .inr ⟨hHeader, ?_⟩
  by_cases hMissing : part.length < 3
  · exact .inl hMissing
  rw [byteAt_append part more 2 (by omega)] at hType
  by_cases hShort : part.length < 5
  · exact .inr (.inl ⟨.inl hType, hShort⟩)
  rw [admittedLength_append part more (by omega)] at hAdmitted
  rw [frameLength_append part more (by omega)] at hTotal
  exact .inr (.inr (.inl ⟨by omega, hType, hAdmitted, by omega⟩))

theorem scanned_packetStream_prefix (ts : List TelemetryData)
    (hIds : ∀ t ∈ ts, t.droneId.length ≤ 39) {received more : BytesArray}
    (hSplit : received ++ more = packetStream ts) :
    ∃ n, (scanned received).1 = (ts.take n).map buildTelemetryPacket ∧
      (more = [] → ts.length ≤ n) := by
  induction ts generalizing received with
  | nil =>
    rw [(List.append_eq_nil_iff.mp hSplit).1, scanned_nil]
    exact ⟨0, rfl, fun _ => Nat.le_refl 0⟩
  | cons t ts ih =>
    have hId := hIds t List.mem_cons_self
    rw [packetStream_cons] at hSplit
    rcases List.append_eq_append_iff.mp hSplit with ⟨part, hPart, hRest⟩ | ⟨later, hLater, hRest⟩
    · by_cases hWhole : part = []
      · rw [hWhole, List.append_nil] at hPart
        rw [hWhole, List.nil_append] at hRest
        refine ⟨1, ?_, fun hMore => ?_⟩
        · rw [← hPart, scanned_build t hId]
          rfl
        · rw [hMore] at hRest
          rw [eq_nil_of_packetStream_eq_nil hRest.symm]
          exact Nat.le_refl 1
      · refine ⟨0, scanned_part t hId hPart.symm hWhole, fun hMore => ?_⟩
        rw [hMore] at hRest
        exact absurd (List.append_eq_nil_iff.mp hRest.symm).1 hWhole
    · obtain ⟨n, hScanned, hAll⟩ := ih (fun t ht => hIds t (List.mem_cons_of_mem _ ht)) hRest.symm
      refine ⟨n + 1, ?_, fun hMore => Nat.succ_le_succ (hAll hMore)⟩
      rw [hLater, scanned_build_append t later hId, hScanned]
      rfl

end CounterDroneServer.SensorDataParser

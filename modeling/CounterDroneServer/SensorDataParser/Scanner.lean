import CounterDroneServer.SensorDataParser.Fragmentation

/-!
# The byte-by-byte reference scanner

`scan` looks at every position: it emits the frame that starts there, stops if
the position is still open, and goes one byte on otherwise. The parser, which
skips by garbage runs, by two bytes and by one, finds the same frames and keeps
the same rest.
-/

set_option autoImplicit false

namespace CounterDroneServer.SensorDataParser

open ByteOrder

universe u

variable {ρ : Type u}

/-- The length field at the front of a view. -/
def frameLength (bs : BytesArray) : Nat := 256 * (byteAt bs 3).toNat + (byteAt bs 4).toNat

def AdmittedLength (bs : BytesArray) : Prop := 40 ≤ frameLength bs ∧ frameLength bs ≤ 80

/-- A complete telemetry frame with a matching checksum starts here. -/
def FrameAt (bs : BytesArray) : Prop :=
  HeaderAt bs ∧ 5 ≤ bs.length ∧ byteAt bs 2 = 1 ∧ AdmittedLength bs ∧
    7 + frameLength bs ≤ bs.length ∧
    (calculateCrc16 (bs.take (5 + frameLength bs))).toNat =
      256 * (byteAt bs (5 + frameLength bs)).toNat + (byteAt bs (6 + frameLength bs)).toNat

/-- More bytes may still turn this position into a frame, or the parser waits
here for a heart-beat or command packet. -/
def OpenAt (bs : BytesArray) : Prop :=
  bs = [headerByte0] ∨
    HeaderAt bs ∧
      (bs.length < 3 ∨
        (byteAt bs 2 = 1 ∨ byteAt bs 2 = 2 ∨ byteAt bs 2 = 4) ∧ bs.length < 5 ∨
        5 ≤ bs.length ∧ byteAt bs 2 = 1 ∧ AdmittedLength bs ∧ bs.length < 7 + frameLength bs ∨
        5 ≤ bs.length ∧ (byteAt bs 2 = 2 ∨ byteAt bs 2 = 4) ∧ AdmittedLength bs)

/-- No byte still to come can turn this position into a frame. -/
inductive RejectAt (bs : BytesArray) : Prop
  | garbage (hBytes : bs ≠ []) (hHeader : ¬HeaderAt bs) (hOpen : bs ≠ [headerByte0])
  | unknownType (hHeader : HeaderAt bs) (hSize : 3 ≤ bs.length)
    (hType : ¬(byteAt bs 2 = 1 ∨ byteAt bs 2 = 2 ∨ byteAt bs 2 = 4))
  | badLength (hHeader : HeaderAt bs) (hSize : 5 ≤ bs.length)
    (hType : byteAt bs 2 = 1 ∨ byteAt bs 2 = 2 ∨ byteAt bs 2 = 4) (hLength : ¬AdmittedLength bs)
  | badCrc (hHeader : HeaderAt bs) (hSize : 5 ≤ bs.length) (hType : byteAt bs 2 = 1)
    (hLength : AdmittedLength bs) (hTotal : 7 + frameLength bs ≤ bs.length)
    (hCrc : (calculateCrc16 (bs.take (5 + frameLength bs))).toNat ≠
      256 * (byteAt bs (5 + frameLength bs)).toNat + (byteAt bs (6 + frameLength bs)).toNat)

instance (bs : BytesArray) : Decidable (AdmittedLength bs) := inferInstanceAs (Decidable (_ ∧ _))
instance (bs : BytesArray) : Decidable (FrameAt bs) := inferInstanceAs (Decidable (_ ∧ _))
instance (bs : BytesArray) : Decidable (OpenAt bs) := inferInstanceAs (Decidable (_ ∨ _))

/-- The frames found from position `i` on, each with its position, and the rest. -/
def scan (i : Nat) (bs : BytesArray) : List (Nat × BytesArray) × BytesArray :=
  if hEnd : bs = [] then ([], [])
  else if FrameAt bs then
    let n := 7 + frameLength bs
    let later := scan (i + n) (bs.drop n)
    ((i, bs.take n) :: later.1, later.2)
  else if OpenAt bs then ([], bs)
  else scan (i + 1) bs.tail
termination_by bs.length
decreasing_by
  · have := List.length_pos_iff.mpr hEnd
    rw [List.length_drop]
    omega
  · have := List.length_pos_iff.mpr hEnd
    rw [List.length_tail]
    omega

theorem scan_nil (i : Nat) : scan i [] = ([], []) := by
  rw [scan, dif_pos rfl]

theorem not_frameAt_nil : ¬FrameAt [] := by
  rintro ⟨hHeader, _⟩
  obtain ⟨_, h⟩ := (headerAt_iff []).mp hHeader
  cases h

theorem scan_of_frame (i : Nat) {bs : BytesArray} (h : FrameAt bs) :
    scan i bs =
      ((i, bs.take (7 + frameLength bs)) ::
          (scan (i + (7 + frameLength bs)) (bs.drop (7 + frameLength bs))).1,
        (scan (i + (7 + frameLength bs)) (bs.drop (7 + frameLength bs))).2) := by
  have hBytes : bs ≠ [] := by
    rintro rfl
    exact not_frameAt_nil h
  rw [scan, dif_neg hBytes, if_pos h]

/-! ## The three verdicts -/

theorem HeaderAt.ne_nil {bs : BytesArray} (h : HeaderAt bs) : bs ≠ [] := by
  rintro rfl
  obtain ⟨_, h⟩ := (headerAt_iff []).mp h
  cases h

theorem HeaderAt.ne_singleton {bs : BytesArray} (h : HeaderAt bs) (byte : Byte) : bs ≠ [byte] := by
  rintro rfl
  exact not_headerAt_singleton byte h

theorem RejectAt.ne_nil {bs : BytesArray} (h : RejectAt bs) : bs ≠ [] := by
  cases h with
  | garbage hBytes => exact hBytes
  | unknownType hHeader | badLength hHeader | badCrc hHeader => exact hHeader.ne_nil

theorem RejectAt.not_frameAt {bs : BytesArray} (h : RejectAt bs) : ¬FrameAt bs := by
  rintro ⟨hHeader, -, hType, hLength, -, hCrc⟩
  cases h with
  | garbage _ hNone => exact hNone hHeader
  | unknownType _ _ hUnknown => exact hUnknown (.inl hType)
  | badLength _ _ _ hBad => exact hBad hLength
  | badCrc _ _ _ _ _ hBad => exact hBad hCrc

theorem RejectAt.not_openAt {bs : BytesArray} (h : RejectAt bs) : ¬OpenAt bs := by
  rintro (hOpen | ⟨hHeader, hOpen⟩)
  · cases h with
    | garbage _ _ hMore => exact hMore hOpen
    | unknownType hHeader | badLength hHeader | badCrc hHeader => exact hHeader.ne_singleton _ hOpen
  · cases h with
    | garbage _ hNone => exact hNone hHeader
    | unknownType _ hSize hUnknown =>
      rcases hOpen with hShort | ⟨hType, -⟩ | ⟨-, hType, -⟩ | ⟨-, hType, -⟩
      · omega
      · exact hUnknown hType
      · exact hUnknown (.inl hType)
      · exact hUnknown (.inr hType)
    | badLength _ hSize _ hBad =>
      rcases hOpen with hShort | ⟨-, hShort⟩ | ⟨-, -, hLength, -⟩ | ⟨-, -, hLength⟩
      · omega
      · omega
      · exact hBad hLength
      · exact hBad hLength
    | badCrc _ hSize hType _ hTotal =>
      rcases hOpen with hShort | ⟨-, hShort⟩ | ⟨-, -, -, hShort⟩ | ⟨-, hOther, -⟩
      · omega
      · omega
      · omega
      · rw [hType] at hOther
        exact absurd hOther (by decide)

theorem FrameAt.not_openAt {bs : BytesArray} (h : FrameAt bs) : ¬OpenAt bs := by
  obtain ⟨hHeader, hSize, hType, -, hTotal, -⟩ := h
  rintro (hOpen | ⟨-, hShort | ⟨-, hShort⟩ | ⟨-, -, -, hShort⟩ | ⟨-, hOther, -⟩⟩)
  · exact hHeader.ne_singleton _ hOpen
  · omega
  · omega
  · omega
  · rw [hType] at hOther
    exact absurd hOther (by decide)

theorem verdict {bs : BytesArray} (hBytes : bs ≠ []) : FrameAt bs ∨ OpenAt bs ∨ RejectAt bs := by
  by_cases hHeader : HeaderAt bs
  swap
  · by_cases hOpen : bs = [headerByte0]
    · exact .inr (.inl (.inl hOpen))
    · exact .inr (.inr (.garbage hBytes hHeader hOpen))
  by_cases hMissing : bs.length < 3
  · exact .inr (.inl (.inr ⟨hHeader, .inl hMissing⟩))
  by_cases hType : byteAt bs 2 = 1 ∨ byteAt bs 2 = 2 ∨ byteAt bs 2 = 4
  swap
  · exact .inr (.inr (.unknownType hHeader (by omega) hType))
  by_cases hShort : bs.length < 5
  · exact .inr (.inl (.inr ⟨hHeader, .inr (.inl ⟨hType, hShort⟩)⟩))
  by_cases hLength : AdmittedLength bs
  swap
  · exact .inr (.inr (.badLength hHeader (by omega) hType hLength))
  rcases hType with hTelemetry | hOther
  swap
  · exact .inr (.inl (.inr ⟨hHeader, .inr (.inr (.inr ⟨by omega, hOther, hLength⟩))⟩))
  by_cases hTotal : bs.length < 7 + frameLength bs
  · exact .inr (.inl (.inr ⟨hHeader, .inr (.inr (.inl ⟨by omega, hTelemetry, hLength, hTotal⟩))⟩))
  by_cases hCrc : (calculateCrc16 (bs.take (5 + frameLength bs))).toNat =
      256 * (byteAt bs (5 + frameLength bs)).toNat + (byteAt bs (6 + frameLength bs)).toNat
  · exact .inl ⟨hHeader, by omega, hTelemetry, hLength, by omega, hCrc⟩
  · exact .inr (.inr (.badCrc hHeader (by omega) hTelemetry hLength (by omega) hCrc))

theorem scan_of_open (i : Nat) {bs : BytesArray} (h : OpenAt bs) : scan i bs = ([], bs) := by
  by_cases hBytes : bs = []
  · rw [hBytes, scan_nil]
  · rw [scan, dif_neg hBytes, if_neg fun hFrame => hFrame.not_openAt h, if_pos h]

theorem scan_of_reject (i : Nat) {bs : BytesArray} (h : RejectAt bs) :
    scan i bs = scan (i + 1) bs.tail := by
  rw [scan, dif_neg h.ne_nil, if_neg h.not_frameAt, if_neg h.not_openAt]

/-- Induction along the positions a scan looks at. -/
theorem scan_induction {motive : BytesArray → Prop} (empty : motive [])
    (frame : ∀ bs, FrameAt bs → motive (bs.drop (7 + frameLength bs)) → motive bs)
    (stop : ∀ bs, OpenAt bs → motive bs)
    (reject : ∀ bs, RejectAt bs → motive bs.tail → motive bs) (bs : BytesArray) : motive bs := by
  induction hLength : bs.length using Nat.strongRecOn generalizing bs with
  | ind length ih =>
    subst hLength
    by_cases hBytes : bs = []
    · exact hBytes ▸ empty
    have hPositive := List.length_pos_iff.mpr hBytes
    rcases verdict hBytes with hFrame | hOpen | hReject
    · refine frame bs hFrame (ih _ ?_ _ rfl)
      rw [List.length_drop]
      omega
    · exact stop bs hOpen
    · refine reject bs hReject (ih _ ?_ _ rfl)
      rw [List.length_tail]
      omega

/-! ## The code's tests and the scanner's -/

theorem frameLength_eq (bs : BytesArray) : frameLength bs = (lengthField bs).toNat :=
  (bigEndian16_toNat _ _).symm

theorem admittedLength_iff (bs : BytesArray) : AdmittedLength bs ↔ ValidLength (lengthField bs) := by
  rw [AdmittedLength, frameLength_eq]
  exact Iff.rfl

theorem crcMatches_iff (bs : BytesArray) :
    crcMatches bs (7 + frameLength bs) ↔
      (calculateCrc16 (bs.take (5 + frameLength bs))).toNat =
        256 * (byteAt bs (5 + frameLength bs)).toNat + (byteAt bs (6 + frameLength bs)).toNat := by
  have hBody : 7 + frameLength bs - 2 = 5 + frameLength bs := by omega
  have hLast : 7 + frameLength bs - 1 = 6 + frameLength bs := by omega
  rw [crcMatches, hBody, hLast, ← bigEndian16_toNat]
  exact BitVec.toNat_inj.symm

theorem ofByte_telemetry_iff (byte : Byte) : TypeMsg.ofByte byte = .telemetry ↔ byte = 1 :=
  ofByte_eq_iff byte .telemetry (by decide)

theorem ofByte_unknow_iff (byte : Byte) :
    TypeMsg.ofByte byte = .unknow ↔ ¬(byte = 1 ∨ byte = 2 ∨ byte = 4) := by
  have hTelemetry := ofByte_eq_iff byte .telemetry (by decide)
  have hHeartBeat := ofByte_eq_iff byte .heartBeat (by decide)
  have hCommand := ofByte_eq_iff byte .command (by decide)
  change _ ↔ byte = 1 at hTelemetry
  change _ ↔ byte = 2 at hHeartBeat
  change _ ↔ byte = 4 at hCommand
  rw [← hTelemetry, ← hHeartBeat, ← hCommand]
  cases TypeMsg.ofByte byte <;> decide

/-! ## The four rounds of one candidate -/

/-- The members after a header, a known type and an admitted length. -/
def openPayload (p : SensorDataParser ρ) (type : TypeMsg) (length : BitVec 16) :
    SensorDataParser ρ :=
  (p.startCandidate.countType type).acceptLength length

theorem scanView_header (d : BytesArray → ρ) {p : SensorDataParser ρ} {view : BytesArray}
    (hState : p.state = .waitForSync) (hHeader : HeaderAt view) :
    scanView d p view = scanView d p.startCandidate view := by
  obtain ⟨rest, rfl⟩ := (headerAt_iff view).mp hHeader
  have hRound := round_eq_of_case
    (RoundCase.syncFound (d := d) hState 0 (syncIndex_of_headerAt hHeader))
  rw [scanView_of_changed d p (List.cons_ne_nil _ _) (by rw [hRound]), hRound]
  rfl

theorem scanView_type (d : BytesArray → ρ) {p : SensorDataParser ρ} {view : BytesArray}
    {type : TypeMsg} (hState : p.state = .waitForSync) (hHeader : HeaderAt view)
    (hSize : 3 ≤ view.length) (hType : TypeMsg.ofByte (byteAt view 2) = type)
    (hKnown : type ≠ .unknow) :
    scanView d p view =
      scanView d (p.startCandidate.countType type) view := by
  have hView : view ≠ [] := List.length_pos_iff.mp (by omega)
  have hRound := round_eq_of_case (RoundCase.typeKnown (d := d)
    (p := p.startCandidate) rfl hSize type hType hKnown)
  rw [scanView_header d hState hHeader, scanView_of_changed d _ hView (by rw [hRound]), hRound]
  rfl

theorem scanView_length (d : BytesArray → ρ) {p : SensorDataParser ρ} {view : BytesArray}
    {type : TypeMsg} (hState : p.state = .waitForSync) (hHeader : HeaderAt view)
    (hSize : 5 ≤ view.length) (hType : TypeMsg.ofByte (byteAt view 2) = type)
    (hKnown : type ≠ .unknow) (hLength : ValidLength (lengthField view)) :
    scanView d p view = scanView d (p.openPayload type (lengthField view)) view := by
  have hView : view ≠ [] := List.length_pos_iff.mp (by omega)
  have hRound := round_eq_of_case (RoundCase.lengthValid (d := d)
    (p := p.startCandidate.countType type) rfl hSize hLength)
  rw [scanView_type d hState hHeader (by omega) hType hKnown,
    scanView_of_changed d _ hView (by rw [hRound]), hRound]
  rfl

/-- A complete valid frame is consumed in four rounds. -/
theorem scanView_frame (d : BytesArray → ρ) {p : SensorDataParser ρ} {view : BytesArray}
    (hState : p.state = .waitForSync) (hFrame : FrameAt view) :
    scanView d p view =
      scanView d ((p.openPayload .telemetry (lengthField view)).acceptPacket
        (view.take (7 + frameLength view)) (d (view.drop 5))) (view.drop (7 + frameLength view)) := by
  obtain ⟨hHeader, hSize, hType, hLength, hTotal, hCrc⟩ := hFrame
  have hView : view ≠ [] := List.length_pos_iff.mp (by omega)
  have hRound := round_eq_of_case (RoundCase.packetValid (d := d)
    (p := p.openPayload .telemetry (lengthField view)) rfl rfl (7 + frameLength view)
    (by rw [frameLength_eq]; exact totalPacketSize_eq _) hTotal ((crcMatches_iff view).mpr hCrc))
  rw [scanView_length d hState hHeader hSize ((ofByte_telemetry_iff _).mpr hType) (by decide)
    ((admittedLength_iff view).mp hLength), scanView_of_changed d _ hView (by rw [hRound]), hRound]

theorem scanView_stop (d : BytesArray → ρ) {p : SensorDataParser ρ} {view : BytesArray}
    (hView : view ≠ []) (h : RoundCase d p view ⟨p, 0, false⟩) : scanView d p view = (p, view) := by
  have hRound := round_eq_of_case h
  rw [scanView_of_not_changed d p hView (by rw [hRound]), hRound]
  rfl

/-- At an open position the parser stops without having received a packet. -/
theorem scanView_open (d : BytesArray → ρ) {p : SensorDataParser ρ} {view : BytesArray}
    (hState : p.state = .waitForSync) (hOpen : OpenAt view) :
    ∃ q : SensorDataParser ρ, q.receivedValidPackets = p.receivedValidPackets ∧
      scanView d p view = (q, view) := by
  rcases hOpen with rfl | ⟨hHeader, hOpen⟩
  · refine ⟨p, rfl, scanView_stop d (List.cons_ne_nil _ _) ?_⟩
    exact RoundCase.noSync (d := d) hState rfl
  have hView := hHeader.ne_nil
  have known : ∀ byte : Byte, byte = 1 ∨ byte = 2 ∨ byte = 4 → TypeMsg.ofByte byte ≠ .unknow :=
    fun byte h hUnknow => (ofByte_unknow_iff byte).mp hUnknow h
  rcases hOpen with hSize | ⟨hType, hSize⟩ | ⟨hSize, hType, hLength, hShort⟩ |
    ⟨hSize, hType, hLength⟩
  · refine ⟨p.startCandidate, rfl, ?_⟩
    rw [scanView_header d hState hHeader]
    exact scanView_stop d hView (.typeMissing rfl hSize)
  · by_cases hMissing : view.length < 3
    · refine ⟨p.startCandidate, rfl, ?_⟩
      rw [scanView_header d hState hHeader]
      exact scanView_stop d hView (.typeMissing rfl hMissing)
    · refine ⟨p.startCandidate.countType (TypeMsg.ofByte (byteAt view 2)), rfl, ?_⟩
      rw [scanView_type d hState hHeader (by omega) rfl (known _ hType)]
      exact scanView_stop d hView (.lengthMissing rfl hSize)
  · refine ⟨p.openPayload .telemetry (lengthField view), rfl, ?_⟩
    rw [scanView_length d hState hHeader hSize ((ofByte_telemetry_iff _).mpr hType) (by decide)
      ((admittedLength_iff view).mp hLength)]
    refine scanView_stop d hView (.payloadPending rfl fun _ => ?_)
    change view.length < totalPacketSize (lengthField view)
    rwa [totalPacketSize_eq, ← frameLength_eq]
  · refine ⟨p.openPayload (TypeMsg.ofByte (byteAt view 2)) (lengthField view), rfl, ?_⟩
    rw [scanView_length d hState hHeader hSize rfl (known _ (.inr hType))
      ((admittedLength_iff view).mp hLength)]
    refine scanView_stop d hView (.payloadPending rfl fun hTelemetry => ?_)
    rw [(ofByte_telemetry_iff _).mp hTelemetry] at hType
    exact absurd hType (by decide)

/-- A skip of two bytes is a skip of one, since 0x55 starts no header. -/
theorem scanView_drop_two (d : BytesArray → ρ) {p : SensorDataParser ρ} {view : BytesArray}
    (hState : p.state = .waitForSync) (hHeader : HeaderAt view) (hSize : 3 ≤ view.length) :
    scanView d p (view.drop 2) = scanView d p view.tail := by
  obtain ⟨rest, rfl⟩ := (headerAt_iff view).mp hHeader
  obtain ⟨byte, rest, rfl⟩ : ∃ byte rest', rest = byte :: rest' := by
    apply List.exists_cons_of_ne_nil
    rintro rfl
    exact absurd hSize (by decide)
  refine (scanView_skip d hState ?_ ?_).symm
  · exact fun h => absurd ((headerAt_cons_cons _ _ _).mp h).1 (by decide)
  · intro h
    cases (List.cons.inj h).2

/-- A rejected position is given up, and the search goes on behind its first byte. -/
theorem scanView_reject (d : BytesArray → ρ) {p : SensorDataParser ρ} {view : BytesArray}
    (hState : p.state = .waitForSync) (h : RejectAt view) :
    ∃ q : SensorDataParser ρ, q.state = .waitForSync ∧
      q.receivedValidPackets = p.receivedValidPackets ∧
      scanView d p view = scanView d q view.tail := by
  have hView := h.ne_nil
  cases h with
  | garbage hBytes hHeader hOpen =>
    obtain ⟨byte, rest, rfl⟩ := List.exists_cons_of_ne_nil hBytes
    exact ⟨p, hState, rfl, scanView_skip d hState hHeader hOpen⟩
  | unknownType hHeader hSize hType =>
    have hRound := round_eq_of_case (RoundCase.typeUnknown (d := d)
      (p := p.startCandidate) rfl hSize ((ofByte_unknow_iff _).mpr hType))
    refine ⟨p.startCandidate.rejectCandidate, rfl, rfl, ?_⟩
    rw [scanView_header d hState hHeader, scanView_of_changed d _ hView (by rw [hRound]), hRound]
    exact scanView_drop_two d rfl hHeader hSize
  | badLength hHeader hSize hType hLength =>
    have hRound := round_eq_of_case (RoundCase.lengthInvalid (d := d)
      (p := p.startCandidate.countType (TypeMsg.ofByte (byteAt view 2))) rfl hSize
      (fun h => hLength ((admittedLength_iff view).mpr h)))
    refine ⟨(p.startCandidate.countType (TypeMsg.ofByte (byteAt view 2))).rejectLength
      (lengthField view), rfl, rfl, ?_⟩
    rw [scanView_type d hState hHeader (by omega) rfl
        (fun hUnknow => (ofByte_unknow_iff _).mp hUnknow hType),
      scanView_of_changed d _ hView (by rw [hRound]), hRound]
    exact scanView_drop_two d rfl hHeader (by omega)
  | badCrc hHeader hSize hType hLength hTotal hCrc =>
    have hRound := round_eq_of_case (RoundCase.crcMismatch (d := d)
      (p := p.openPayload .telemetry (lengthField view)) rfl rfl (7 + frameLength view)
      (by rw [frameLength_eq]; exact totalPacketSize_eq _) hTotal
      (fun h => hCrc ((crcMatches_iff view).mp h)))
    refine ⟨(p.openPayload .telemetry (lengthField view)).rejectCandidate, rfl, rfl, ?_⟩
    rw [scanView_length d hState hHeader hSize ((ofByte_telemetry_iff _).mpr hType)
      (by decide) ((admittedLength_iff view).mp hLength),
      scanView_of_changed d _ hView (by rw [hRound]), hRound, List.drop_one]

/-! ## Refinement -/

theorem scanView_scan (d : BytesArray → ρ) (i : Nat) (bs : BytesArray) {p : SensorDataParser ρ}
    (hState : p.state = .waitForSync) :
    (scanView d p bs).1.receivedValidPackets =
        p.receivedValidPackets ++ (scan i bs).1.map Prod.snd ∧
      (scanView d p bs).2 = (scan i bs).2 := by
  induction bs using scan_induction generalizing i p with
  | empty =>
    rw [scanView_nil, scan_nil]
    exact ⟨(List.append_nil _).symm, rfl⟩
  | frame bs hFrame ih =>
    have h := ih (i + (7 + frameLength bs))
      (p := (p.openPayload .telemetry (lengthField bs)).acceptPacket
        (bs.take (7 + frameLength bs)) (d (bs.drop 5))) rfl
    rw [scanView_frame d hState hFrame, scan_of_frame i hFrame, h.1]
    exact ⟨List.append_assoc _ [_] _, h.2⟩
  | stop bs hOpen =>
    obtain ⟨q, hPackets, hScan⟩ := scanView_open d hState hOpen
    rw [hScan, scan_of_open i hOpen, hPackets]
    exact ⟨(List.append_nil _).symm, rfl⟩
  | reject bs hReject ih =>
    obtain ⟨q, hq, hPackets, hScan⟩ := scanView_reject d hState hReject
    rw [scan_of_reject i hReject, hScan, ← hPackets]
    exact ih (i + 1) hq

/-- The byte positions `scan` goes past are those it has looked at: a frame can
start only at an emitted position, inside an emitted frame or in the rest. -/
theorem scan_covers (i : Nat) (bs : BytesArray) (j : Nat) (hFrame : FrameAt (bs.drop j)) :
    (∃ e ∈ (scan i bs).1, e.1 ≤ i + j ∧ i + j < e.1 + e.2.length) ∨
      bs.length ≤ j + (scan i bs).2.length := by
  induction bs using scan_induction generalizing i j with
  | empty =>
    rw [List.drop_nil] at hFrame
    exact absurd hFrame not_frameAt_nil
  | frame bs hHere ih =>
    rw [scan_of_frame i hHere]
    have hTotal := hHere.2.2.2.2.1
    by_cases hInside : j < 7 + frameLength bs
    · refine .inl ⟨_, List.mem_cons_self, Nat.le_add_right _ _, ?_⟩
      dsimp only
      rw [List.length_take]
      omega
    · have hSplit : (bs.drop (7 + frameLength bs)).drop (j - (7 + frameLength bs)) = bs.drop j := by
        rw [List.drop_drop]
        congr 1
        omega
      rcases ih (i + (7 + frameLength bs)) (j - (7 + frameLength bs)) (hSplit ▸ hFrame) with
        ⟨e, he, hLower, hUpper⟩ | hRest
      · exact .inl ⟨e, List.mem_cons_of_mem _ he, by omega, by omega⟩
      · rw [List.length_drop] at hRest
        exact .inr (by dsimp only; omega)
  | stop bs hOpen =>
    rw [scan_of_open i hOpen]
    exact .inr (Nat.le_add_left _ _)
  | reject bs hReject ih =>
    rw [scan_of_reject i hReject]
    cases j with
    | zero => exact absurd hFrame hReject.not_frameAt
    | succ j =>
      rw [← List.drop_tail] at hFrame
      rcases ih (i + 1) j hFrame with ⟨e, he, hLower, hUpper⟩ | hRest
      · exact .inl ⟨e, he, by omega, by omega⟩
      · rw [List.length_tail] at hRest
        exact .inr (by omega)

/-- The sliding-window parser refines the byte-by-byte scanner, and no frame
outside the accepted ones and the kept rest is passed over. -/
theorem scanner_refinement (deserializePayload : BytesArray → ρ) (bs : BytesArray) :
    let p := processAccumulatedData deserializePayload { accumulatedData := bs }
    p.receivedValidPackets = (scan 0 bs).1.map Prod.snd ∧
      p.accumulatedData = (scan 0 bs).2 ∧
      ∀ i, FrameAt (bs.drop i) →
        (∃ e ∈ (scan 0 bs).1, e.1 ≤ i ∧ i < e.1 + e.2.length) ∨
          bs.length ≤ i + (scan 0 bs).2.length := by
  intro p
  have hScan := scanView_scan deserializePayload 0 bs
    (p := ({ accumulatedData := bs } : SensorDataParser ρ)) rfl
  have hProcess := processAccumulatedData_eq deserializePayload
    ({ accumulatedData := bs } : SensorDataParser ρ)
  refine ⟨?_, ?_, fun i hFrame => ?_⟩
  · exact (congrArg receivedValidPackets hProcess).trans (hScan.1.trans (List.nil_append _))
  · exact (congrArg accumulatedData hProcess).trans hScan.2
  · simpa only [Nat.zero_add] using scan_covers 0 bs i hFrame

end CounterDroneServer.SensorDataParser

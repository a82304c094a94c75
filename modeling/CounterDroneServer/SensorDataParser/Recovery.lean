import CounterDroneServer.SensorDataParser.Scanned

/-!
# Recovery after a quiet gap

A gap of 87 zero bytes settles every candidate that is half received, whatever
it turns out to be, and the next packet is accepted. The exception is a
heart-beat or command candidate: nothing consumes its payload, and the parser
stays behind its header for good.
-/

set_option autoImplicit false

namespace CounterDroneServer.SensorDataParser

universe u

variable {ρ : Type u}

/-! ## Long views -/

/-- A heart-beat or command candidate with an admitted length. -/
def StuckAt (bs : BytesArray) : Prop :=
  HeaderAt bs ∧ (byteAt bs 2 = 2 ∨ byteAt bs 2 = 4) ∧ AdmittedLength bs

instance (bs : BytesArray) : Decidable (StuckAt bs) := inferInstanceAs (Decidable (_ ∧ _))

theorem StuckAt.append {bs : BytesArray} (h : StuckAt bs) (hSize : 5 ≤ bs.length)
    (tail : BytesArray) : StuckAt (bs ++ tail) := by
  obtain ⟨hHeader, hType, hLength⟩ := h
  refine ⟨headerAt_append hHeader tail, ?_, (admittedLength_append bs tail hSize).mpr hLength⟩
  rwa [byteAt_append bs tail 2 (by omega)]

theorem StuckAt.openAt {bs : BytesArray} (h : StuckAt bs) (hSize : 5 ≤ bs.length) : OpenAt bs :=
  .inr ⟨h.1, .inr (.inr (.inr ⟨hSize, h.2⟩))⟩

/-- With 87 bytes in view only a heart-beat or command candidate is still open. -/
theorem verdict_of_long {bs : BytesArray} (hSize : 87 ≤ bs.length) :
    FrameAt bs ∨ StuckAt bs ∨ RejectAt bs := by
  rcases verdict (List.length_pos_iff.mp (by omega : 0 < bs.length)) with hFrame | hOpen | hReject
  · exact .inl hFrame
  · right
    left
    rcases hOpen with rfl | ⟨hHeader, hShort | ⟨-, hShort⟩ | ⟨-, -, hLength, hShort⟩ | ⟨-, hStuck⟩⟩
    · exact absurd hSize (by decide)
    · omega
    · omega
    · rw [AdmittedLength] at hLength
      omega
    · exact ⟨hHeader, hStuck⟩
  · exact .inr (.inr hReject)

/-! ## The gap -/

def quietGap : BytesArray := List.replicate 87 0

theorem quietGap_length : quietGap.length = 87 := List.length_replicate

/-- The scan of the bytes, zeros following them, comes to a heart-beat or command
candidate; `passed` bytes of them belong to a frame already found. -/
def SilencedFrom : Nat → BytesArray → Prop
  | _, [] => False
  | passed + 1, _ :: rest => SilencedFrom passed rest
  | 0, byte :: rest =>
    if FrameAt (byte :: rest ++ quietGap) then
      SilencedFrom (6 + frameLength (byte :: rest ++ quietGap)) rest
    else StuckAt (byte :: rest ++ quietGap) ∨ SilencedFrom 0 rest

instance decidableSilencedFrom : (passed : Nat) → (bs : BytesArray) →
    Decidable (SilencedFrom passed bs)
  | _, [] => inferInstanceAs (Decidable False)
  | passed + 1, _ :: rest => decidableSilencedFrom passed rest
  | 0, byte :: rest =>
    have := decidableSilencedFrom (6 + frameLength (byte :: rest ++ quietGap)) rest
    have := decidableSilencedFrom 0 rest
    inferInstanceAs (Decidable (if FrameAt (byte :: rest ++ quietGap) then _ else _ ∨ _))

def Silenced (bs : BytesArray) : Prop := SilencedFrom 0 bs

instance (bs : BytesArray) : Decidable (Silenced bs) := inferInstanceAs (Decidable (SilencedFrom 0 bs))

theorem scanned_cons_of_frame {byte : Byte} {rest : BytesArray}
    (h : FrameAt (byte :: rest ++ quietGap)) (tail : BytesArray) :
    let n := frameLength (byte :: rest ++ quietGap)
    scanned (byte :: rest ++ quietGap ++ tail) =
      ((byte :: rest ++ quietGap).take (7 + n) ::
          (scanned ((rest ++ quietGap ++ tail).drop (6 + n))).1,
        (scanned ((rest ++ quietGap ++ tail).drop (6 + n))).2) := by
  intro n
  have hDrop : (byte :: rest ++ quietGap ++ tail).drop (7 + n) =
      (rest ++ quietGap ++ tail).drop (6 + n) := by
    rw [Nat.add_comm 7, Nat.add_comm 6]
    rfl
  rw [scanned_of_frame (h.append tail), frameLength_append _ tail h.2.1, hDrop,
    List.take_append_of_le_length h.2.2.2.2.1]

theorem scanned_of_silenced (tail : BytesArray) {passed : Nat} {bs : BytesArray}
    (h : SilencedFrom passed bs) :
    (scanned ((bs ++ quietGap ++ tail).drop passed)).2 ≠ [] := by
  induction bs generalizing passed with
  | nil => exact h.elim
  | cons byte rest ih =>
    cases passed with
    | succ passed => exact ih h
    | zero =>
      have hSize : 87 ≤ (byte :: rest ++ quietGap).length := by
        rw [List.length_append, quietGap_length]
        omega
      rw [SilencedFrom] at h
      rw [List.drop_zero]
      split at h
      · rename_i hFrame
        rw [scanned_cons_of_frame hFrame tail]
        exact ih h
      · rename_i hFrame
        rcases verdict_of_long hSize with hHere | hStuck | hReject
        · exact absurd hHere hFrame
        · rw [scanned_of_open ((hStuck.append (by omega) tail).openAt (by
            rw [List.length_append]
            omega))]
          exact List.cons_ne_nil _ _
        · rw [scanned_of_reject (hReject.append tail)]
          refine ih (h.resolve_left fun hStuck => ?_)
          exact hReject.not_openAt (hStuck.openAt (by omega))

theorem scanned_of_not_silenced (tail : BytesArray) {passed : Nat} {bs : BytesArray}
    (hPassed : passed ≤ 86) (h : ¬SilencedFrom passed bs) :
    ∃ frames m, m ≤ 86 ∧
      scanned ((bs ++ quietGap ++ tail).drop passed) =
        (frames ++ (scanned ((quietGap ++ tail).drop m)).1,
          (scanned ((quietGap ++ tail).drop m)).2) := by
  induction bs generalizing passed with
  | nil => exact ⟨[], passed, hPassed, rfl⟩
  | cons byte rest ih =>
    cases passed with
    | succ passed => exact ih (by omega) h
    | zero =>
      have hSize : 87 ≤ (byte :: rest ++ quietGap).length := by
        rw [List.length_append, quietGap_length]
        omega
      rw [SilencedFrom] at h
      rw [List.drop_zero]
      split at h
      · rename_i hFrame
        have hLength := hFrame.2.2.2.1.2
        obtain ⟨frames, m, hm, hScanned⟩ := ih (by omega) h
        refine ⟨(byte :: rest ++ quietGap).take (7 + frameLength (byte :: rest ++ quietGap)) :: frames,
          m, hm, ?_⟩
        rw [scanned_cons_of_frame hFrame tail, hScanned]
        rfl
      · rename_i hFrame
        rcases verdict_of_long hSize with hHere | hStuck | hReject
        · exact absurd hHere hFrame
        · exact absurd (.inl hStuck) h
        · rw [scanned_of_reject (hReject.append tail)]
          exact ih (by omega) fun hLater => h (.inr hLater)

theorem rejectAt_zero (rest : BytesArray) : RejectAt (0 :: rest) := by
  refine .garbage (List.cons_ne_nil _ _) ?_ ?_
  · rw [headerAt_iff]
    rintro ⟨_, h⟩
    exact absurd (List.cons.inj h).1 (by decide)
  · intro h
    exact absurd (List.cons.inj h).1 (by decide)

theorem scanned_zeros (k : Nat) (bs : BytesArray) :
    scanned (List.replicate k 0 ++ bs) = scanned bs := by
  induction k with
  | zero => rfl
  | succ k ih =>
    rw [List.replicate_succ, List.cons_append, scanned_of_reject (rejectAt_zero _)]
    exact ih

theorem scanned_gap_build (t : TelemetryData) (hId : t.droneId.length ≤ 39) {m : Nat}
    (hm : m ≤ 86) :
    scanned ((quietGap ++ buildTelemetryPacket t).drop m) = ([buildTelemetryPacket t], []) := by
  rw [List.drop_append_of_le_length (by rw [quietGap_length]; omega), quietGap,
    List.drop_replicate, scanned_zeros, scanned_build t hId]

/-! ## The packet behind the gap -/

theorem Idle.state_of_empty {p : SensorDataParser ρ} (h : Idle p) (hBuffer : p.accumulatedData = []) :
    p.state = .waitForSync := by
  rw [Idle, hBuffer] at h
  cases hState : p.state with
  | waitForSync => rfl
  | readType =>
    rw [hState] at h
    cases h.2
  | readLength | readPayload =>
    rw [hState] at h
    exact absurd rfl h.2.2.1.ne_nil

theorem Decoded.getLast {d : BytesArray → ρ} {p : SensorDataParser ρ} (h : Decoded d p)
    (packet : BytesArray) (record : ρ) (hPacket : p.receivedValidPackets.getLast? = some packet)
    (hRecord : ∀ tail, d ((packet ++ tail).drop 5) = record) :
    p.pushedTelemetry.getLast? = some record := by
  have hReverse := List.forall₂_reverse_iff.mpr h
  rw [← List.head?_reverse] at hPacket ⊢
  generalize p.receivedValidPackets.reverse = packets at hReverse hPacket
  generalize p.pushedTelemetry.reverse = records at hReverse
  cases hReverse with
  | nil => cases hPacket
  | cons hLast _ =>
    obtain ⟨tail, rfl⟩ := hLast
    cases hPacket
    rw [List.head?_cons, hRecord tail]

/-- The packet is the last one received, its record the last one pushed, and the
parser is ready for the next. -/
def Recovered (t : TelemetryData) (p : SensorDataParser (Option TelemetryData)) : Prop :=
  p.receivedValidPackets.getLast? = some (buildTelemetryPacket t) ∧
    p.pushedTelemetry.getLast? = some (some t) ∧
    p.state = .waitForSync ∧ p.accumulatedData = []

/-- The bytes found and kept once the gap and the packet have followed. -/
theorem processBatches_after_gap {d : BytesArray → ρ} {p : SensorDataParser ρ} (h : Reachable d p)
    (batches : List (List BytesArray)) (tail : BytesArray)
    (hStream : batches.flatten.flatten = quietGap ++ tail) :
    Reachable d (processBatches d p batches) ∧
      (processBatches d p batches).receivedValidPackets = p.receivedValidPackets ++
        (scanned (p.accumulatedData ++ quietGap ++ tail)).1 ∧
      (processBatches d p batches).accumulatedData =
        (scanned (p.accumulatedData ++ quietGap ++ tail)).2 := by
  obtain ⟨before, rfl⟩ := h
  have hRun : processBatches d (processBatches d {} before) batches =
      processBatches d {} (before ++ batches) := List.foldl_append.symm
  have hBefore := processBatches_scanned d before
  have hAfter := processBatches_scanned d (before ++ batches)
  rw [List.flatten_append, List.flatten_append, hStream, scanned_append, ← hBefore] at hAfter
  rw [hRun, List.append_assoc]
  exact ⟨⟨_, rfl⟩, congrArg Prod.fst hAfter, congrArg Prod.snd hAfter⟩

theorem not_recovered_of_silenced {p : SensorDataParser (Option TelemetryData)}
    (hReachable : Reachable deserializePayload p) (t : TelemetryData)
    (batches : List (List BytesArray))
    (hStream : batches.flatten.flatten = quietGap ++ buildTelemetryPacket t)
    (hSilenced : Silenced p.accumulatedData) :
    ¬Recovered t (processBatches deserializePayload p batches) := by
  rintro ⟨-, -, -, hBuffer⟩
  obtain ⟨-, -, hKept⟩ := processBatches_after_gap hReachable batches _ hStream
  exact scanned_of_silenced _ hSilenced (hKept.symm.trans hBuffer)

/-- Exactly when no heart-beat or command candidate turns up in the buffered
bytes does the packet behind a quiet gap come through. -/
theorem recovered_after_gap_iff {p : SensorDataParser (Option TelemetryData)}
    (hReachable : Reachable deserializePayload p) (t : TelemetryData)
    (hId : t.droneId.length ≤ 39) (batches : List (List BytesArray))
    (hStream : batches.flatten.flatten = quietGap ++ buildTelemetryPacket t) :
    Recovered t (processBatches deserializePayload p batches) ↔ ¬Silenced p.accumulatedData := by
  constructor
  · intro hRecovered hSilenced
    exact not_recovered_of_silenced hReachable t batches hStream hSilenced hRecovered
  · intro hNotSilenced
    obtain ⟨hAfter, hPackets, hKept⟩ := processBatches_after_gap hReachable batches _ hStream
    obtain ⟨frames, m, hm, hScanned⟩ :=
      scanned_of_not_silenced (buildTelemetryPacket t) (Nat.zero_le 86) hNotSilenced
    rw [List.drop_zero, scanned_gap_build t hId hm] at hScanned
    rw [hScanned] at hPackets hKept
    have hLast : (processBatches deserializePayload p batches).receivedValidPackets.getLast? =
        some (buildTelemetryPacket t) := by
      rw [hPackets, ← List.append_assoc, List.getLast?_concat]
    refine ⟨hLast, ?_, hAfter.idle.state_of_empty hKept, hKept⟩
    obtain ⟨all, hAll⟩ := hAfter
    rw [hAll] at hLast ⊢
    exact (processBatches_decoded deserializePayload all).getLast _ _ hLast
      (fun tail => deserializePayload_build t tail hId)

theorem recovered_after_gap_iff_type_pending :
    let p := processBatches deserializePayload {} [[[0xAA], [0x55]]]
    let t : TelemetryData := ⟨[7], 1, 2, 3, 4, 5⟩
    Recovered t (processBatches deserializePayload p [[quietGap], [buildTelemetryPacket t]]) ↔
      ¬Silenced p.accumulatedData :=
  recovered_after_gap_iff ⟨_, rfl⟩ _ (by decide) _ (by simp)

/-- A heart-beat header with an admitted length silences the parser. -/
theorem not_recovered_behind_heartBeat :
    ¬∀ p : SensorDataParser (Option TelemetryData), Reachable deserializePayload p →
      ∀ t : TelemetryData, t.droneId.length ≤ 39 → ∀ batches : List (List BytesArray),
        batches.flatten.flatten = quietGap ++ buildTelemetryPacket t →
          Recovered t (processBatches deserializePayload p batches) := by
  intro h
  have hReachable : Reachable deserializePayload
      (processBatches deserializePayload {} [[[0xAA, 0x55, 0x02, 0x00, 0x28]]]) := ⟨_, rfl⟩
  have hKept : (processBatches deserializePayload {} [[[0xAA, 0x55, 0x02, 0x00, 0x28]]]).accumulatedData
      = (scanned [0xAA, 0x55, 0x02, 0x00, 0x28]).2 :=
    congrArg Prod.snd (processBatches_scanned deserializePayload [[[0xAA, 0x55, 0x02, 0x00, 0x28]]])
  refine not_recovered_of_silenced hReachable ⟨[], 0, 0, 0, 0, 0⟩
    [[quietGap ++ buildTelemetryPacket ⟨[], 0, 0, 0, 0, 0⟩]] (by simp) ?_
    (h _ hReachable _ (by decide) _ (by simp))
  rw [hKept, scanned_of_open (by decide)]
  decide

end CounterDroneServer.SensorDataParser

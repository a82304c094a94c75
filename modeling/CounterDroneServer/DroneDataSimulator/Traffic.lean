import CounterDroneServer.DroneDataSimulator.Corruption

/-!
# What is sent and what is received

The bytes that the simulator sends are stretches of packets, corrupted packets
and garbage. In a run whose garbage has no header, whose corruptions hit payload
or checksum and whose corrupted packets have no second header, the parser counts
what the simulator has counted, however the bytes arrive.
-/

set_option autoImplicit false

namespace CounterDroneServer.DroneDataSimulator

open MachineInt SensorDataParser

/-- The draws that put no header into the stream but those of packets, and leave the
length fields of packets alone. -/
def QuietDraw (s : State) : Action → Prop
  | .draw n =>
    match s.pc with
    | .targetByte _ => 5 ≤ n
    | .bit packetToSend targetByte => HeaderFree (flipBit packetToSend targetByte n).tail
    | _ => True
  | .garbage bytes => HeaderFree (bytes.map (BitVec.ofInt 8))
  | _ => True

def Generated (packet : BytesArray) : Prop :=
  ∃ droneNum data, Range.Contains ⟨1, 5⟩ droneNum ∧ packet = generatedPacket droneNum data

/-- The packets that the loop holds are generated ones, and the byte to be hit is
behind the length field. -/
def Holds : Pc → Prop
  | .splitIdx packetToSend | .chance packetToSend | .targetByte packetToSend =>
    Generated packetToSend
  | .bit packetToSend targetByte =>
    Generated packetToSend ∧ Range.Contains ⟨3, lastIndex packetToSend⟩ targetByte ∧ 5 ≤ targetByte
  | .generateBurst _ _ packetsToSend | .sendBurst packetsToSend =>
    ∀ packet ∈ packetsToSend, Generated packet
  | _ => True

/-- The stretches that have been sent. -/
structure Sent (s : State) (stretches : List Stretch) : Prop where
  bytes : s.sent.flatten = wire stretches
  quiet : ∀ stretch ∈ stretches, Quiet stretch
  valid : s.sentValidPackets = (records stretches).map buildTelemetryPacket
  corrupted : s.corruptedPacketsCount = (stretches.countP Stretch.isCorrupted : ℕ)

theorem sent_init : Sent {} [] := ⟨rfl, List.forall_mem_nil _, rfl, rfl⟩

section

variable {config : Configuration} {s s' : State} {stretches : List Stretch}

/-- A step that sends nothing. -/
theorem Sent.move (h : Sent s stretches) (hSent : s'.sent = s.sent)
    (hValid : s'.sentValidPackets = s.sentValidPackets)
    (hCorrupted : s'.corruptedPacketsCount = s.corruptedPacketsCount) : Sent s' stretches where
  bytes := by rw [hSent, h.bytes]
  quiet := h.quiet
  valid := hValid.trans h.valid
  corrupted := hCorrupted.trans h.corrupted

/-- A step that sends one more stretch. -/
theorem Sent.append (h : Sent s stretches) (stretch : Stretch) (hQuiet : Quiet stretch)
    (hSent : s'.sent.flatten = s.sent.flatten ++ stretch.bytes)
    (hValid : s'.sentValidPackets =
      s.sentValidPackets ++ (records [stretch]).map buildTelemetryPacket)
    (hCorrupted : s'.corruptedPacketsCount =
      s.corruptedPacketsCount + ([stretch].countP Stretch.isCorrupted : ℕ)) :
    Sent s' (stretches ++ [stretch]) where
  bytes := by
    rw [hSent, h.bytes, wire_append]
    exact congrArg _ (List.append_nil _).symm
  quiet := StepSystem.forall_mem_concat h.quiet hQuiet
  valid := by rw [hValid, h.valid, records_append, List.map_append]
  corrupted := by rw [hCorrupted, h.corrupted, List.countP_append, Nat.cast_add]

theorem Sent.packet (h : Sent s stretches) {packet : BytesArray} (hPacket : Generated packet)
    (hSent : s'.sent.flatten = s.sent.flatten ++ packet)
    (hValid : s'.sentValidPackets = s.sentValidPackets ++ [packet])
    (hCorrupted : s'.corruptedPacketsCount = s.corruptedPacketsCount) :
    ∃ stretches', Sent s' stretches' := by
  obtain ⟨droneNum, data, hNum, rfl⟩ := hPacket
  have hId : (droneId droneNum).length ≤ 39 := by
    rw [droneId_length hNum]
    decide
  refine ⟨_, h.append (.packet { data with droneId := droneId droneNum }) hId hSent hValid ?_⟩
  rw [hCorrupted]
  exact (Int.add_zero _).symm

theorem holds_switch (config : Configuration) (s : State) (n : ℤ) : Holds (switch config s n) := by
  unfold switch
  extract_lets scenario
  split_ifs <;> trivial

theorem flatten_append_one (chunks : List BytesArray) (chunk : BytesArray) :
    (chunks ++ [chunk]).flatten = chunks.flatten ++ chunk := by
  rw [List.flatten_append, List.flatten_cons, List.flatten_nil, List.append_nil]

theorem effect_sent {a : Action} (hHolds : Holds s.pc) (h : Sent s stretches) (hQuiet : QuietDraw s a)
    (hDraw : ∀ n, a = .draw n → ∀ r ∈ distribution config s, r.Contains n)
    (hCount : ∀ packetToSend targetByte, s.pc = .bit packetToSend targetByte →
      increment s.corruptedPacketsCount = s.corruptedPacketsCount + 1)
    (hEffect : Effect config s a s') : Holds s'.pc ∧ ∃ stretches', Sent s' stretches' := by
  have unsent : ∀ {t : State}, t.sent = s.sent → t.sentValidPackets = s.sentValidPackets →
      t.corruptedPacketsCount = s.corruptedPacketsCount → ∃ stretches', Sent t stretches' :=
    fun hSent hValid hCorrupted => ⟨stretches, h.move hSent hValid hCorrupted⟩
  cases hEffect with
  | signalHandler => exact ⟨hHolds, unsent rfl rfl rfl⟩
  | before _ pc hPc hNext =>
    refine ⟨?_, unsent rfl rfl rfl⟩
    simp only [List.mem_cons, List.not_mem_nil, or_false] at hNext
    rcases hNext with rfl | rfl | rfl | rfl
    all_goals trivial
  | enter | leave | repeats | batchEnds | sleep | garbageLen | burstSent =>
    exact ⟨trivial, unsent rfl rfl rfl⟩
  | scenario n hPc => exact ⟨holds_switch config s n, unsent rfl rfl rfl⟩
  | garbage bytes garbageLen hPc =>
    refine ⟨trivial, _, h.append (.garbage _) hQuiet (flatten_append_one _ _)
      (List.append_nil _).symm (Int.add_zero _).symm⟩
  | valid droneNum data hPc hNum =>
    exact ⟨trivial, h.packet ⟨droneNum, data, hNum, rfl⟩ (flatten_append_one _ _) rfl rfl⟩
  | fragmented droneNum data hPc hNum | corrupted droneNum data hPc hNum =>
    exact ⟨⟨droneNum, data, hNum, rfl⟩, unsent rfl rfl rfl⟩
  | splitIdx n packetToSend hPc hIndex =>
    rw [hPc] at hHolds
    refine ⟨trivial, h.packet hHolds ?_ rfl rfl⟩
    dsimp only [State.send, State.pushValid, State.count]
    rw [flatten_append_one, flatten_append_one, List.append_assoc, List.take_append_drop]
  | spared n packetToSend hPc =>
    rw [hPc] at hHolds
    exact ⟨trivial, h.packet hHolds (flatten_append_one _ _) rfl rfl⟩
  | hit n packetToSend hPc =>
    rw [hPc] at hHolds
    exact ⟨hHolds, unsent rfl rfl rfl⟩
  | targetByte n packetToSend hPc hIndex =>
    rw [hPc] at hHolds
    rw [QuietDraw, hPc] at hQuiet
    exact ⟨⟨hHolds, hIndex, hQuiet⟩, unsent rfl rfl rfl⟩
  | bit n targetByte packetToSend hPc =>
    rw [hPc] at hHolds
    rw [QuietDraw, hPc] at hQuiet
    obtain ⟨⟨droneNum, data, hNum, rfl⟩, hTarget, hBehind⟩ := hHolds
    have hBit : Range.Contains ⟨0, 7⟩ n := hDraw n rfl ⟨0, 7⟩ (by rw [distribution, hPc]; rfl)
    have hBad := badFrame_flipped data hNum hTarget hBit hBehind
    exact ⟨trivial, _, h.append (.corrupted _) ⟨hBad, hQuiet⟩ (flatten_append_one _ _)
      (List.append_nil _).symm (hCount _ _ hPc)⟩
  | amount n hPc => exact ⟨List.forall_mem_nil _, unsent rfl rfl rfl⟩
  | generateBurst droneNum data amount j packetsToSend hPc hMore hNum =>
    rw [hPc] at hHolds
    refine ⟨?_, unsent rfl rfl rfl⟩
    exact StepSystem.forall_mem_concat hHolds ⟨droneNum, data, hNum, rfl⟩
  | burstGenerated amount j packetsToSend hPc =>
    rw [hPc] at hHolds
    exact ⟨hHolds, unsent rfl rfl rfl⟩
  | sendBurst packet packetsToSend hPc =>
    rw [hPc] at hHolds
    obtain ⟨hPacket, hRest⟩ := List.forall_mem_cons.mp hHolds
    exact ⟨hRest, h.packet hPacket (flatten_append_one _ _) rfl rfl⟩

theorem sent_of_quietDraw (hMax : 0 ≤ config.maxPkgsAmount) (hLimit : config.maxPkgsAmount < intMax)
    (hRun : (simulator config).ReachesVia QuietDraw {} s) : ∃ stretches, Sent s stretches := by
  have hInit : Holds ({} : State).pc ∧ ∃ stretches, Sent {} stretches := ⟨trivial, [], sent_init⟩
  have hBoth : Holds s.pc ∧ ∃ stretches, Sent s stretches := by
    refine hRun.invariant_of_reaches (fun s => Holds s.pc ∧ ∃ stretches, Sent s stretches) hInit ?_
    rintro s s' a hReach ⟨hHolds, stretches, hSent⟩ hQuiet hStep
    refine effect_sent hHolds hSent hQuiet ?_ ?_ (step_effect hStep)
    · rintro n rfl
      exact (Option.ite_none_right_eq_some.mp hStep).1
    · -- the corrupted packets are among those sent, and one is still to be sent
      intro packetToSend targetByte hPc
      have hPending := (budget_of_reaches hMax hLimit hReach).pending
      rw [hPc] at hPending
      have hBelow : s.sentPacketsAmount < config.maxPkgsAmount := hPending
      have hTotal := sent_accounted hMax hLimit hReach
      have hCorrupted := hSent.corrupted
      have hMin : intMin ≤ 0 := by decide
      exact increment_of_lt (by omega) (by omega)
  exact hBoth.2

end

/-! ## Both halves of the report -/

/-- In a quiet run what the parser makes of the bytes, however they are cut and
batched, is what the simulator reports to have sent, behind each of its steps. -/
theorem traffic_conclusion (config : Configuration) (hMax : 0 ≤ config.maxPkgsAmount)
    (hLimit : config.maxPkgsAmount < intMax) (s : State)
    (hRun : (simulator config).ReachesVia QuietDraw {} s) (batches : List (List BytesArray))
    (hStream : batches.flatten.flatten = s.sent.flatten) :
    let p := processBatches deserializePayload {} batches
    p.receivedValidPackets = s.sentValidPackets ∧
      (p.crcErrorsCount : ℤ) = s.corruptedPacketsCount ∧
      (p.telemetryPktCount : ℤ) = s.sentPacketsAmount ∧
      p.invalidStructureCount = 0 ∧ p.heartBeatPktCount = 0 ∧ p.cmdPktCount = 0 ∧
      p.state = .waitForSync ∧ p.accumulatedData = [] ∧
      ∃ sentRecords : List TelemetryData, s.sentValidPackets = sentRecords.map buildTelemetryPacket ∧
        p.pushedTelemetry = sentRecords.map some := by
  intro p
  obtain ⟨stretches, hSent⟩ := sent_of_quietDraw hMax hLimit hRun
  have hTotal := sent_accounted hMax hLimit hRun.reaches
  rw [hSent.bytes] at hStream
  obtain ⟨hReceives, hKept⟩ := processBatches_quiet deserializePayload hSent.quiet batches hStream
  have hReceived : p.receivedValidPackets = (records stretches).map buildTelemetryPacket :=
    hReceives.received
  have hErrors : p.crcErrorsCount = stretches.countP Stretch.isCorrupted :=
    hReceives.crcErrors.trans (Nat.zero_add _)
  have hTelemetry : p.telemetryPktCount =
      ((records stretches).map buildTelemetryPacket).length + stretches.countP Stretch.isCorrupted :=
    hReceives.telemetry.trans (Nat.zero_add _)
  have hIds := id_le_of_quiet hSent.quiet
  refine ⟨hReceived.trans hSent.valid.symm, ?_, ?_, hReceives.invalidStructure,
    hReceives.heartBeat, hReceives.cmd, hReceives.state, hKept, records stretches, hSent.valid, ?_⟩
  · rw [hErrors, hSent.corrupted]
  · rw [hTelemetry, hTotal, hSent.valid, hSent.corrupted, Nat.cast_add]
  · exact (processBatches_decoded deserializePayload batches).eq_map buildTelemetryPacket some _
      hReceived fun t ht tail => deserializePayload_build t tail (hIds t ht)

/-- Garbage, a packet and a packet hit in its identifier, received byte by byte. -/
theorem traffic_conclusion_one_each :
    ∃ s : State, s.garbageSequencesCount = 1 ∧ s.corruptedPacketsCount = 1 ∧
      s.sentValidPackets = [generatedPacket 1 anyTelemetry] ∧
      let p := processBatches deserializePayload {} [s.sent.flatten.map fun byte => [byte]]
      p.receivedValidPackets = [generatedPacket 1 anyTelemetry] ∧ (p.crcErrorsCount : ℤ) = 1 := by
  have hRun := (simulator twoPackets).reachesVia_refl QuietDraw {}
  have hRun := hRun.step (Action.setUp true) trivial rfl
  have hRun := hRun.step (Action.connect true) trivial rfl
  have hRun := hRun.step Action.proceed trivial rfl
  have hRun := hRun.step Action.proceed trivial rfl
  have hRun := hRun.step Action.proceed trivial rfl
  have hRun := hRun.step (Action.draw 1) trivial rfl
  have hRun := hRun.step (Action.draw 5) trivial rfl
  have hRun := hRun.step (Action.garbage [0xAA, 1, 0x55, 2, 3])
    (by decide : HeaderFree [0xAA, 1, 0x55, 2, 3]) rfl
  have hRun := hRun.step Action.proceed trivial rfl
  have hRun := hRun.step (Action.draw 0) trivial rfl
  have hRun := hRun.step (Action.telemetry 1 anyTelemetry) trivial rfl
  have hRun := hRun.step Action.proceed trivial rfl
  have hRun := hRun.step Action.proceed trivial rfl
  have hRun := hRun.step Action.proceed trivial rfl
  have hRun := hRun.step Action.proceed trivial rfl
  have hRun := hRun.step (Action.draw 3) trivial rfl
  have hRun := hRun.step (Action.telemetry 2 anyTelemetry) trivial rfl
  have hRun := hRun.step (Action.draw 50) trivial rfl
  have hRun := hRun.step (Action.draw 7) (by decide : (5 : ℤ) ≤ 7) rfl
  have hRun := hRun.step (Action.draw 0)
    (by decide +kernel : HeaderFree (flipBit (generatedPacket 2 anyTelemetry) 7 0).tail) rfl
  have hCut : ∀ bytes : BytesArray, [bytes.map fun byte => [byte]].flatten.flatten = bytes := by
    intro bytes
    induction bytes with
    | nil => rfl
    | cons byte bytes ih => exact congrArg (byte :: ·) ih
  have hReport := traffic_conclusion twoPackets (by decide) (by decide) _ hRun _ (hCut _)
  exact ⟨_, rfl, rfl, rfl, hReport.1, hReport.2.1⟩

end CounterDroneServer.DroneDataSimulator

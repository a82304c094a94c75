import CounterDroneServer.Library.Interleaving
import CounterDroneServer.DroneDataSensor.Receivers
import CounterDroneServer.SensorDataParser.Scanned

/-!
# Delivery from several clients

As long as chunks are pushed between packets, at most one client is in the
middle of a packet, and the bytes pushed are the packets of an interleaving
followed by that client's part. The parser delivers the complete packets of
such a stream.
-/

set_option autoImplicit false

namespace CounterDroneServer.DroneDataSensor

open SensorDataParser (scanned deserializePayload)
open Interleaving

universe u

variable {ι : Type u}

/-! ## Streams of whole packets and one part -/

def mergedStream (tagged : List (ι × TelemetryData)) : BytesArray :=
  packetStream (tagged.map Prod.snd)

theorem mergedStream_append_tag (tagged : List (ι × TelemetryData)) (i : ι)
    (ts : List TelemetryData) :
    mergedStream (tagged ++ tag i ts) = mergedStream tagged ++ packetStream ts := by
  rw [mergedStream, List.map_append, map_snd_tag, packetStream_append]
  rfl

variable [DecidableEq ι]

/-- Client `i` has pushed exactly the packets tagged with it. -/
def PushedWhole (records : ι → List TelemetryData) (left : ι → BytesArray)
    (tagged : List (ι × TelemetryData)) (i : ι) : Prop :=
  ∃ rest, projection i tagged ++ rest = records i ∧ left i = packetStream rest

/-- The bytes pushed, when `left i` is what client `i` has still to push. -/
inductive Framed (records : ι → List TelemetryData) (left : ι → BytesArray)
    (pushed : BytesArray) : Prop
  | whole (tagged : List (ι × TelemetryData)) (hPushed : pushed = mergedStream tagged)
    (hWhole : ∀ i, PushedWhole records left tagged i)
  | cut (tagged : List (ι × TelemetryData)) (owner : ι) (rest : List TelemetryData)
    (part : BytesArray) (hPushed : pushed = mergedStream tagged ++ part)
    (hOwner : projection owner tagged ++ rest = records owner)
    (hPart : part ++ left owner = packetStream rest)
    (hWhole : ∀ i, i ≠ owner → PushedWhole records left tagged i)

theorem PushedWhole.append_tag {records : ι → List TelemetryData} {left : ι → BytesArray}
    {tagged : List (ι × TelemetryData)} {i owner : ι} (h : PushedWhole records left tagged i)
    (hOwner : i ≠ owner) (ts : List TelemetryData) :
    PushedWhole records left (tagged ++ tag owner ts) i := by
  obtain ⟨rest, hRecords, hLeft⟩ := h
  exact ⟨rest, by rwa [projection_append_tag_of_ne hOwner], hLeft⟩

theorem PushedWhole.of_left_eq {records : ι → List TelemetryData} {left left' : ι → BytesArray}
    {tagged : List (ι × TelemetryData)} {i : ι} (h : PushedWhole records left tagged i)
    (hLeft : left' i = left i) : PushedWhole records left' tagged i := by
  obtain ⟨rest, hRecords, hRest⟩ := h
  exact ⟨rest, hRecords, hLeft.trans hRest⟩

/-- Two suffixes of one list are comparable, and the shorter stream belongs to
the shorter list. -/
theorem suffix_of_packetStream_split {records rest later : List TelemetryData} {part : BytesArray}
    (hRest : rest <:+ records) (hLater : later <:+ records)
    (hPart : part ++ packetStream later = packetStream rest) :
    ∃ new, rest = new ++ later ∧ part = packetStream new := by
  have hSuffix : later <:+ rest := by
    rcases List.suffix_or_suffix_of_suffix hLater hRest with h | ⟨more, hMore⟩
    · exact h
    · have hLengths := congrArg List.length hPart
      rw [← hMore, packetStream_append, List.length_append, List.length_append] at hLengths
      have hEmpty : packetStream more = [] := List.length_eq_zero_iff.mp (by omega)
      rw [eq_nil_of_packetStream_eq_nil hEmpty, List.nil_append] at hMore
      rw [hMore]
  obtain ⟨new, hNew⟩ := hSuffix
  refine ⟨new, hNew.symm, ?_⟩
  rw [← hNew, packetStream_append] at hPart
  exact List.append_cancel_right hPart

/-- At a packet boundary a part is a whole number of packets. -/
theorem Framed.owned {records : ι → List TelemetryData} {left : ι → BytesArray}
    {pushed : BytesArray} (h : Framed records left pushed) (i : ι)
    (hBoundary : ∀ j, j ≠ i → ∃ rest, rest <:+ records j ∧ left j = packetStream rest) :
    ∃ tagged rest part, pushed = mergedStream tagged ++ part ∧
      projection i tagged ++ rest = records i ∧ part ++ left i = packetStream rest ∧
      ∀ j, j ≠ i → PushedWhole records left tagged j := by
  cases h with
  | whole tagged hPushed hWhole =>
    obtain ⟨rest, hRecords, hLeft⟩ := hWhole i
    exact ⟨tagged, rest, [], by rw [hPushed, List.append_nil], hRecords, hLeft,
      fun j _ => hWhole j⟩
  | cut tagged owner rest part hPushed hOwner hPart hWhole =>
    by_cases hSame : i = owner
    · subst hSame
      exact ⟨tagged, rest, part, hPushed, hOwner, hPart, hWhole⟩
    · obtain ⟨later, hLater, hLeft⟩ := hBoundary owner (Ne.symm hSame)
      rw [hLeft] at hPart
      obtain ⟨new, rfl, rfl⟩ := suffix_of_packetStream_split ⟨_, hOwner⟩ hLater hPart
      obtain ⟨mine, hMine, hLeftMine⟩ := (hWhole i hSame).append_tag hSame new
      refine ⟨tagged ++ tag owner new, mine, [], ?_, hMine, hLeftMine, fun j _ => ?_⟩
      · rw [mergedStream_append_tag, List.append_nil, hPushed]
      · by_cases hOther : j = owner
        · subst hOther
          refine ⟨later, ?_, hLeft⟩
          rw [projection_append_tag_self, List.append_assoc, hOwner]
        · exact (hWhole j hOther).append_tag hOther new

theorem Framed.push {records : ι → List TelemetryData} {left left' : ι → BytesArray}
    {pushed chunk : BytesArray} (h : Framed records left pushed) (i : ι)
    (hBoundary : ∀ j, j ≠ i → ∃ rest, rest <:+ records j ∧ left j = packetStream rest)
    (hChunk : left i = chunk ++ left' i) (hOthers : ∀ j, j ≠ i → left' j = left j) :
    Framed records left' (pushed ++ chunk) := by
  obtain ⟨tagged, rest, part, hPushed, hOwner, hPart, hWhole⟩ := h.owned i hBoundary
  refine .cut tagged i rest (part ++ chunk) ?_ hOwner ?_ fun j hj => ?_
  · rw [hPushed, List.append_assoc]
  · rw [List.append_assoc, ← hChunk, hPart]
  · exact (hWhole j hj).of_left_eq (hOthers j hj)

/-- What has been pushed is a prefix of the packets of an interleaving. -/
theorem Framed.completed {records : ι → List TelemetryData} {left : ι → BytesArray}
    {pushed : BytesArray} (h : Framed records left pushed) :
    ∃ tagged more, pushed ++ more = mergedStream tagged ∧
      (∀ i, projection i tagged <+: records i) ∧
      ((∀ i, left i = []) → more = [] ∧ ∀ i, projection i tagged = records i) := by
  have hEmpty : ∀ {tagged : List (ι × TelemetryData)} {i : ι},
      PushedWhole records left tagged i → left i = [] → projection i tagged = records i := by
    rintro tagged i ⟨rest, hRecords, hLeft⟩ hNone
    rw [eq_nil_of_packetStream_eq_nil (hLeft.symm.trans hNone), List.append_nil] at hRecords
    exact hRecords
  have hPrefix : ∀ {tagged : List (ι × TelemetryData)} {i : ι},
      PushedWhole records left tagged i → projection i tagged <+: records i := by
    rintro tagged i ⟨rest, hRecords, -⟩
    exact ⟨rest, hRecords⟩
  cases h with
  | whole tagged hPushed hWhole =>
    refine ⟨tagged, [], by rw [List.append_nil, hPushed], fun i => hPrefix (hWhole i), ?_⟩
    exact fun hNone => ⟨rfl, fun i => hEmpty (hWhole i) (hNone i)⟩
  | cut tagged owner rest part hPushed hOwner hPart hWhole =>
    have hAll : projection owner (tagged ++ tag owner rest) = records owner := by
      rw [projection_append_tag_self, hOwner]
    refine ⟨tagged ++ tag owner rest, left owner, ?_, fun i => ?_, fun hNone => ⟨hNone owner, ?_⟩⟩
    · rw [mergedStream_append_tag, hPushed, List.append_assoc, hPart]
    · by_cases hSame : i = owner
      · rw [hSame, hAll]
      · exact hPrefix ((hWhole i hSame).append_tag hSame rest)
    · intro i
      by_cases hSame : i = owner
      · rw [hSame, hAll]
      · exact hEmpty ((hWhole i hSame).append_tag hSame rest) (hNone i)

/-! ## Delivery -/

/-- The records delivered so far are an interleaving of prefixes of the clients'
records, and of all of them once everything has been processed. -/
def DeliversInterleaving (records : ι → List TelemetryData) (s : RawDataPath ι) : Prop :=
  ∃ tagged : List (ι × TelemetryData),
    s.parser.pushedTelemetry = tagged.map (fun e => some e.2) ∧
      (∀ i, projection i tagged <+: records i) ∧
      (Drained s → ∀ i, projection i tagged = records i)

theorem delivers_of_framed {records : ι → List TelemetryData}
    (hIds : ∀ i, ∀ t ∈ records i, t.droneId.length ≤ 39) {s : RawDataPath ι} {pushed : BytesArray}
    (hOrder : PushOrder s pushed) (h : Framed records (outstanding s) pushed) :
    DeliversInterleaving records s := by
  obtain ⟨batches, hParser, rfl⟩ := hOrder
  obtain ⟨tagged, more, hMerged, hPrefix, hAll⟩ := h.completed
  have hTagged : ∀ t ∈ tagged.map Prod.snd, t.droneId.length ≤ 39 := by
    intro t ht
    obtain ⟨⟨i, t⟩, hMem, rfl⟩ := List.mem_map.mp ht
    exact hIds i t ((hPrefix i).subset ((mem_projection_iff i t tagged).mpr hMem))
  rw [List.append_assoc, List.append_assoc] at hMerged
  obtain ⟨n, hScanned, hComplete⟩ :=
    SensorDataParser.scanned_packetStream_prefix (tagged.map Prod.snd) hTagged hMerged
  have hPackets : s.parser.receivedValidPackets =
      (((tagged.take n).map Prod.snd).map buildTelemetryPacket) := by
    rw [hParser, List.map_take, ← hScanned, ← SensorDataParser.processBatches_scanned]
  have hDecoded : SensorDataParser.Decoded deserializePayload s.parser := by
    rw [hParser]
    exact SensorDataParser.processBatches_decoded deserializePayload batches
  have hRecords := hDecoded.eq_map buildTelemetryPacket some _ hPackets fun t ht tail =>
    SensorDataParser.deserializePayload_build t tail
      (hTagged t (List.map_subset _ (List.take_subset n tagged) ht))
  refine ⟨tagged.take n, ?_, fun i => ?_, fun hDrained i => ?_⟩
  · rw [hRecords, List.map_map]
    rfl
  · exact (projection_mono i (List.take_prefix n tagged)).trans (hPrefix i)
  · obtain ⟨hReceivers, hQueue, hChunks⟩ := hDrained
    obtain ⟨hMore, hEqual⟩ := hAll hReceivers
    have hLength := hComplete (by rw [hMore, hQueue, hChunks]; rfl)
    rw [List.length_map] at hLength
    rw [List.take_of_length_le hLength, hEqual i]

/-- In every run in which no chunk is pushed into the middle of another client's
packet, the records are delivered as an interleaving of the clients' records. -/
theorem delivers_interleaving (records : ι → List TelemetryData)
    (hIds : ∀ i, ∀ t ∈ records i, t.droneId.length ≤ 39) (s : RawDataPath ι)
    (hRun : rawDataPath.ReachesVia (PushesBetweenPackets records) (connected records) s) :
    DeliversInterleaving records s := by
  have hInv : ∃ pushed, PushOrder s pushed ∧ Framed records (outstanding s) pushed := by
    refine hRun.invariant
      (fun s => ∃ pushed, PushOrder s pushed ∧ Framed records (outstanding s) pushed) ?_ ?_
    · refine ⟨[], ⟨[], rfl, rfl⟩, .whole [] rfl fun i => ⟨records i, rfl, rfl⟩⟩
    · rintro s s' a ⟨pushed, hOrder, hFramed⟩ hOk hStep
      cases step_effect hStep with
      | silent hOutstanding hPushed =>
        exact ⟨pushed, hPushed pushed hOrder, hOutstanding ▸ hFramed⟩
      | pushed i chunk hAction hChunk hOthers hPushed =>
        subst hAction
        exact ⟨pushed ++ chunk, hPushed pushed hOrder, hFramed.push i hOk hChunk hOthers⟩
  obtain ⟨pushed, hOrder, hFramed⟩ := hInv
  exact delivers_of_framed hIds hOrder hFramed

theorem delivers_interleaving_two_clients :
    let records : Bool → List TelemetryData := fun i =>
      if i then [⟨[7], 1, 2, 3, 4, 5⟩] else [⟨[], 0, 0, 0, 0, 0⟩]
    ∃ s, Drained s ∧ DeliversInterleaving records s := by
  intro records
  have hRun := rawDataPath.reachesVia_refl (PushesBetweenPackets records) (connected records)
  have hRun := hRun.step (Action.recv true 49) trivial rfl
  have hRun := hRun.step (Action.pushData true)
    (fun j hj => ⟨records j, List.suffix_refl _, by cases j with | false => rfl | true => exact absurd rfl hj⟩)
    rfl
  have hRun := hRun.step (Action.recv false 20) trivial rfl
  have hRun := hRun.step (Action.pushData false)
    (fun j hj => ⟨[], List.nil_suffix, by cases j with | true => rfl | false => exact absurd rfl hj⟩)
    rfl
  have hRun := hRun.step (Action.recv false 28) trivial rfl
  have hRun := hRun.step (Action.pushData false)
    (fun j hj => ⟨[], List.nil_suffix, by cases j with | true => rfl | false => exact absurd rfl hj⟩)
    rfl
  have hRun := hRun.step Action.popAll trivial rfl
  have hRun := hRun.step Action.process trivial rfl
  refine ⟨_, ⟨?_, rfl, rfl⟩, delivers_interleaving records (by decide) _ hRun⟩
  intro i
  cases i with
  | false => rfl
  | true => rfl

/-! ## A chunk inside a packet -/

theorem pushedTelemetry_length_of_spliced (t u : TelemetryData) (hId : u.droneId.length ≤ 39)
    (hSize : t.droneId = []) (batches : List (List BytesArray))
    (hStream : batches.flatten.flatten = (buildTelemetryPacket t).take 2 ++
      (buildTelemetryPacket u ++ (buildTelemetryPacket t).drop 2)) :
    (SensorDataParser.processBatches deserializePayload {} batches).pushedTelemetry.length = 1 := by
  have hDecoded := SensorDataParser.processBatches_decoded deserializePayload batches
  have hTail : (scanned ((buildTelemetryPacket t).drop 2)).1 = [] := by
    apply SensorDataParser.scanned_of_short
    rw [List.length_drop, buildTelemetryPacket_length, hSize]
    decide
  have hFirst : SensorDataParser.RejectAt ((buildTelemetryPacket t).take 2 ++
      (buildTelemetryPacket u ++ (buildTelemetryPacket t).drop 2)) := by
    refine .unknownType ⟨_, rfl⟩ ?_ (show ¬(headerByte0 = 1 ∨ headerByte0 = 2 ∨ headerByte0 = 4) by decide)
    rw [List.length_append, List.length_append, buildTelemetryPacket_length]
    omega
  have hSecond : SensorDataParser.RejectAt (headerByte1 ::
      (buildTelemetryPacket u ++ (buildTelemetryPacket t).drop 2)) := by
    refine .garbage (List.cons_ne_nil _ _) ?_ ?_
    · intro h
      exact absurd ((SensorDataParser.headerAt_cons_cons _ _ _).mp h).1 (by decide)
    · intro h
      exact absurd (List.cons.inj h).1 (by decide)
  have hScanned := congrArg Prod.fst
    (SensorDataParser.processBatches_scanned deserializePayload batches)
  rw [hStream, SensorDataParser.scanned_of_reject hFirst] at hScanned
  change _ = (scanned (headerByte1 :: (buildTelemetryPacket u ++ _))).1 at hScanned
  rw [SensorDataParser.scanned_of_reject hSecond, List.tail_cons,
    SensorDataParser.scanned_build_append u _ hId, hTail] at hScanned
  rw [← hDecoded.length_eq]
  exact congrArg List.length hScanned

theorem step_recv (s : RawDataPath ι) (i : ι) (n : Nat) (hChunk : (s.receivers i).dataChunk = none)
    (hPositive : 0 < n) (hSize : n ≤ recvBufferSize) (hAvailable : n ≤ (s.receivers i).socket.length) :
    rawDataPath.step s (.recv i n) = some (setReceiver s i
      ⟨(s.receivers i).socket.drop n, some ((s.receivers i).socket.take n)⟩) :=
  if_pos ⟨hChunk, hPositive, hSize, hAvailable⟩

/-- Two clients send the same bytes, and one of them is read in one piece
between the first two bytes of the other and the rest. -/
theorem spliced_run (bytes : BytesArray) (hLong : 2 < bytes.length)
    (hSize : bytes.length ≤ recvBufferSize) :
    ∃ s : RawDataPath Bool, rawDataPath.Reaches { receivers := fun _ => ⟨bytes, none⟩ } s ∧
      Drained s ∧ PushOrder s (bytes.take 2 ++ (bytes ++ bytes.drop 2)) := by
  have hRun := rawDataPath.reachesVia_refl (fun _ _ => True)
    ({ receivers := fun _ => ⟨bytes, none⟩ } : RawDataPath Bool)
  have hRun := hRun.step (Action.recv true 2) trivial
    (step_recv _ true 2 rfl (by decide) (by decide) (Nat.le_of_lt hLong))
  have hRun := hRun.step (Action.pushData true) trivial rfl
  have hRun := hRun.step (Action.recv false bytes.length) trivial
    (step_recv _ false bytes.length rfl (by omega) hSize (Nat.le_refl _))
  have hRun := hRun.step (Action.pushData false) trivial rfl
  have hRun := hRun.step (Action.recv true (bytes.length - 2)) trivial
    (step_recv _ true _ rfl (by omega) (Nat.le_trans (Nat.sub_le _ _) hSize)
      (Nat.le_of_eq List.length_drop.symm))
  have hRun := hRun.step (Action.pushData true) trivial rfl
  have hRun := hRun.step Action.popAll trivial rfl
  have hRun := hRun.step Action.process trivial rfl
  refine ⟨_, hRun, ⟨fun i => ?_, rfl, rfl⟩, ?_⟩
  · cases i with
    | false => exact List.drop_length
    | true =>
      change (bytes.drop 2).drop (bytes.length - 2) = []
      exact List.drop_eq_nil_of_le (Nat.le_of_eq List.length_drop)
  · refine ⟨[[bytes.take 2, bytes.take bytes.length, (bytes.drop 2).take (bytes.length - 2)]],
      rfl, ?_⟩
    rw [List.take_length, List.take_of_length_le (Nat.le_of_eq List.length_drop)]
    simp [setReceiver, ThreadsSharedDataManager.popAll]

/-- One client's packet arrives between the second and the third byte of
another's, and the other's record is never delivered. -/
theorem not_delivers_interleaving_spliced :
    ¬∀ records : Bool → List TelemetryData, (∀ i, ∀ t ∈ records i, t.droneId.length ≤ 39) →
      ∀ s, rawDataPath.Reaches (connected records) s → DeliversInterleaving records s := by
  intro h
  have hStream : packetStream [(⟨[], 0, 0, 0, 0, 0⟩ : TelemetryData)] =
      buildTelemetryPacket ⟨[], 0, 0, 0, 0, 0⟩ := List.append_nil _
  obtain ⟨s, hRun, hDrained, batches, hParser, hPushed⟩ :=
    spliced_run (packetStream [⟨[], 0, 0, 0, 0, 0⟩]) (by decide) (by decide)
  rw [hDrained.2.1, hDrained.2.2, hStream] at hPushed
  have hLength := pushedTelemetry_length_of_spliced ⟨[], 0, 0, 0, 0, 0⟩ ⟨[], 0, 0, 0, 0, 0⟩
    (by decide) rfl batches (by rw [hPushed]; simp)
  rw [← hParser] at hLength
  obtain ⟨tagged, hRecords, -, hAll⟩ := h _ (by decide) s hRun
  rw [hRecords, List.length_map] at hLength
  have hProjections := hAll hDrained
  have hOther := (mem_projection_iff false ⟨[], 0, 0, 0, 0, 0⟩ tagged).mp
    (by rw [hProjections false]; exact List.mem_cons_self)
  have hSpliced := (mem_projection_iff true ⟨[], 0, 0, 0, 0, 0⟩ tagged).mp
    (by rw [hProjections true]; exact List.mem_cons_self)
  obtain ⟨e, rfl⟩ := List.length_eq_one_iff.mp hLength
  cases (List.mem_singleton.mp hOther).trans (List.mem_singleton.mp hSpliced).symm

end CounterDroneServer.DroneDataSensor

import CounterDroneServer.DroneDataSimulator.Packet
import CounterDroneServer.Library.MachineInt
import CounterDroneServer.Library.StepSystem

/-!
# The sending loop

`process_loop` of the simulator. One step is a test of a loop, a draw or a pass
over the packets of a burst; the sends of a packet, its entry in
`m_sent_valid_packets` and its counters belong to the step before them. What the
generator returns is the argument of the action, and a draw has to lie in the
range of its distribution.
-/

set_option autoImplicit false

namespace CounterDroneServer.DroneDataSimulator

open MachineInt

/-- `MAX_PKGS_AMOUNT`, and the `batch_size` computed from `PKGS_RATE`. -/
structure Configuration where
  maxPkgsAmount : ℤ
  batchSize : ℤ
  maxPkgsAmount_inRange : InRange maxPkgsAmount
  batchSize_inRange : InRange batchSize

/-- The arguments of a `uniform_int_distribution`. -/
structure Range where
  a : ℤ
  b : ℤ
  deriving DecidableEq

def Range.Contains (r : Range) (n : ℤ) : Prop := r.a ≤ n ∧ n ≤ r.b

instance (r : Range) (n : ℤ) : Decidable (r.Contains n) :=
  inferInstanceAs (Decidable (r.a ≤ n ∧ n ≤ r.b))

/-- The scenarios 0, 2 and 3, which generate one packet. -/
inductive Single
  | valid
  | fragmented
  | corrupted
  deriving DecidableEq

/-- `gaveUp` is a return before the loops, `returned` one behind them. -/
inductive Pc
  | setUp
  | connecting
  | connected
  | outerTest
  | innerTest
  | scenario
  | generate (scenario : Single)
  | garbageLen
  | garbageBytes (garbageLen : ℤ)
  | splitIdx (packetToSend : BytesArray)
  | chance (packetToSend : BytesArray)
  | targetByte (packetToSend : BytesArray)
  | bit (packetToSend : BytesArray) (targetByte : ℤ)
  | amount
  | generateBurst (amount j : ℤ) (packetsToSend : List BytesArray)
  | sendBurst (packetsToSend : List BytesArray)
  | sleep
  | gaveUp
  | returned
  deriving DecidableEq

/-- `sent` is the chunks given to `send`. -/
structure State where
  keepRunningSystem : Bool := true
  pc : Pc := .setUp
  sentPacketsAmount : ℤ := 0
  i : ℤ := 0
  sentValidPackets : List BytesArray := []
  fragmentedPacketsCount : ℤ := 0
  corruptedPacketsCount : ℤ := 0
  garbageSequencesCount : ℤ := 0
  sent : List BytesArray := []

inductive Action
  | signalHandler
  | setUp (succeeds : Bool)
  | connect (succeeds : Bool)
  | proceed
  | draw (n : ℤ)
  | telemetry (droneNum : ℤ) (data : TelemetryData)
  | garbage (bytes : List ℤ)

/-! ## Parts of the loop body -/

/-- `"DRN-" + std::to_string(drone_num)`. -/
def droneId (droneNum : ℤ) : BytesArray :=
  [0x44, 0x52, 0x4E, 0x2D] ++ (Nat.toDigits 10 droneNum.toNat).map fun c => BitVec.ofNat 8 c.toNat

/-- The packet of `generate_valid_telemetry_data` and `build_telemetry_packet`. -/
def generatedPacket (droneNum : ℤ) (data : TelemetryData) : BytesArray :=
  buildTelemetryPacket { data with droneId := droneId droneNum }

/-- `packet.size() - 1` in `size_t`. -/
def lastIndex (packet : BytesArray) : ℤ := ((packet.length : ℤ) - 1) % 2 ^ 64

/-- `packet[target_byte] ^= (1 << bit)`. -/
def flipBit (packet : BytesArray) (targetByte bit : ℤ) : BytesArray :=
  packet.modify targetByte.toNat (· ^^^ BitVec.twoPow 8 bit.toNat)

def unlimitedOrBelow (config : Configuration) (s : State) : Prop :=
  config.maxPkgsAmount = -1 ∨ s.sentPacketsAmount < config.maxPkgsAmount

instance (config : Configuration) (s : State) : Decidable (unlimitedOrBelow config s) :=
  inferInstanceAs (Decidable (_ ∨ _))

/-- `MAX_PKGS_AMOUNT - sent_packets_amount`. -/
def remaining (config : Configuration) (s : State) : ℤ :=
  wrap (config.maxPkgsAmount - s.sentPacketsAmount)

/-- The `switch`, behind the line that replaces a burst when one packet remains. -/
def switch (config : Configuration) (s : State) (scenario : ℤ) : Pc :=
  let scenario := if scenario = 4 ∧ remaining config s = 1 then 1 else scenario
  if scenario = 0 then .generate .valid
  else if scenario = 1 then .garbageLen
  else if scenario = 2 then .generate .fragmented
  else if scenario = 3 then .generate .corrupted
  else if scenario = 4 then .amount
  else .innerTest

/-- The distribution that the next draw comes from. `scenario_dist` is built once,
before the loops; every other one where it is used. -/
def distribution (config : Configuration) (s : State) : Option Range :=
  match s.pc with
  | .scenario => some ⟨0, 4⟩
  | .generate _ => some ⟨1, 5⟩
  | .garbageLen => some ⟨5, 50⟩
  | .garbageBytes _ => some ⟨0, 255⟩
  | .splitIdx packetToSend => some ⟨1, lastIndex packetToSend⟩
  | .chance _ => some ⟨1, 100⟩
  | .targetByte packetToSend => some ⟨3, lastIndex packetToSend⟩
  | .bit _ _ => some ⟨0, 7⟩
  | .amount => some ⟨2, min 5 (increment (remaining config s))⟩
  | .generateBurst amount j _ => if j < amount then some ⟨1, 5⟩ else none
  | _ => none

namespace State

def send (s : State) (chunk : BytesArray) : State := { s with sent := s.sent ++ [chunk] }

def pushValid (s : State) (packet : BytesArray) : State :=
  { s with sentValidPackets := s.sentValidPackets ++ [packet] }

/-- `sent_packets_amount++; i++;` -/
def count (s : State) : State :=
  { s with sentPacketsAmount := increment s.sentPacketsAmount, i := increment s.i }

end State

/-! ## Steps -/

def drawn (config : Configuration) (s : State) (n : ℤ) : Option State :=
  match s.pc with
  | .scenario => some { s with pc := switch config s n }
  | .garbageLen => some { s with pc := .garbageBytes n }
  | .splitIdx packetToSend =>
    some { (((s.send (packetToSend.take n.toNat)).send (packetToSend.drop n.toNat)).pushValid
        packetToSend).count with
      pc := .innerTest
      fragmentedPacketsCount := increment s.fragmentedPacketsCount }
  | .chance packetToSend =>
    if n ≤ 50 then some { s with pc := .targetByte packetToSend }
    else some { ((s.pushValid packetToSend).send packetToSend).count with pc := .innerTest }
  | .targetByte packetToSend => some { s with pc := .bit packetToSend n }
  | .bit packetToSend targetByte =>
    some { (s.send (flipBit packetToSend targetByte n)).count with
      pc := .innerTest
      corruptedPacketsCount := increment s.corruptedPacketsCount }
  | .amount => some { s with pc := .generateBurst n 0 [] }
  | _ => none

def generated (s : State) (packet : BytesArray) : Option State :=
  match s.pc with
  | .generate .valid => some { ((s.send packet).pushValid packet).count with pc := .innerTest }
  | .generate .fragmented => some { s with pc := .splitIdx packet }
  | .generate .corrupted => some { s with pc := .chance packet }
  | .generateBurst amount j packetsToSend =>
    if j < amount then
      some { s with pc := .generateBurst amount (increment j) (packetsToSend ++ [packet]) }
    else none
  | _ => none

def proceed (config : Configuration) (s : State) : Option State :=
  match s.pc with
  | .connected => some { s with pc := if s.keepRunningSystem then .outerTest else .gaveUp }
  | .outerTest =>
    if s.keepRunningSystem = true ∧ unlimitedOrBelow config s then
      some { s with pc := .innerTest, i := 0 }
    else some { s with pc := .returned }
  | .innerTest =>
    some { s with
      pc := if s.i < config.batchSize ∧ unlimitedOrBelow config s then .scenario else .sleep }
  | .generateBurst amount j packetsToSend =>
    if j < amount then none else some { s with pc := .sendBurst packetsToSend }
  | .sendBurst [] => some { s with pc := .innerTest }
  | .sendBurst (packet :: packetsToSend) =>
    some { ((s.send packet).count.pushValid packet) with pc := .sendBurst packetsToSend }
  | .sleep => some { s with pc := .outerTest }
  | _ => none

def step (config : Configuration) (s : State) : Action → Option State
  | .signalHandler => some { s with keepRunningSystem := false }
  | .setUp succeeds =>
    if s.pc = .setUp then some { s with pc := if succeeds then .connecting else .gaveUp } else none
  | .connect succeeds =>
    if s.pc = .connecting then
      some { s with pc := if !succeeds && s.keepRunningSystem then .connecting else .connected }
    else none
  | .proceed => proceed config s
  | .draw n =>
    if ∀ r ∈ distribution config s, r.Contains n then drawn config s n else none
  | .telemetry droneNum data =>
    if ∀ r ∈ distribution config s, r.Contains droneNum then
      generated s (generatedPacket droneNum data)
    else none
  | .garbage bytes =>
    match s.pc with
    | .garbageBytes garbageLen =>
      if (bytes.length : ℤ) = garbageLen ∧
          ∀ r ∈ distribution config s, ∀ n ∈ bytes, r.Contains n then
        some { s.send (bytes.map (BitVec.ofInt 8)) with
          pc := .innerTest
          garbageSequencesCount := increment s.garbageSequencesCount }
      else none
    | _ => none

def simulator (config : Configuration) : StepSystem State Action := ⟨step config⟩

/-! ## What a step does -/

/-- The steps by what they do to the members. -/
inductive Effect (config : Configuration) (s : State) : Action → State → Prop
  | signalHandler : Effect config s .signalHandler { s with keepRunningSystem := false }
  | before (a : Action) (pc : Pc) (hPc : s.pc ∈ [.setUp, .connecting, .connected])
    (hNext : pc ∈ [.connecting, .connected, .gaveUp, .outerTest]) :
    Effect config s a { s with pc := pc }
  | enter (hPc : s.pc = .outerTest) (hBelow : unlimitedOrBelow config s) :
    Effect config s .proceed { s with pc := .innerTest, i := 0 }
  | leave (hPc : s.pc = .outerTest)
    (hEnd : ¬(s.keepRunningSystem = true ∧ unlimitedOrBelow config s)) :
    Effect config s .proceed { s with pc := .returned }
  | repeats (hPc : s.pc = .innerTest) (hBatch : s.i < config.batchSize)
    (hBelow : unlimitedOrBelow config s) : Effect config s .proceed { s with pc := .scenario }
  | batchEnds (hPc : s.pc = .innerTest) : Effect config s .proceed { s with pc := .sleep }
  | sleep (hPc : s.pc = .sleep) : Effect config s .proceed { s with pc := .outerTest }
  | scenario (n : ℤ) (hPc : s.pc = .scenario) :
    Effect config s (.draw n) { s with pc := switch config s n }
  | garbageLen (n : ℤ) (hPc : s.pc = .garbageLen) :
    Effect config s (.draw n) { s with pc := .garbageBytes n }
  | garbage (bytes : List ℤ) (garbageLen : ℤ) (hPc : s.pc = .garbageBytes garbageLen) :
    Effect config s (.garbage bytes) { s.send (bytes.map (BitVec.ofInt 8)) with
      pc := .innerTest
      garbageSequencesCount := increment s.garbageSequencesCount }
  | valid (droneNum : ℤ) (data : TelemetryData) (hPc : s.pc = .generate .valid)
    (hNum : Range.Contains ⟨1, 5⟩ droneNum) :
    Effect config s (.telemetry droneNum data)
      { ((s.send (generatedPacket droneNum data)).pushValid (generatedPacket droneNum data)).count with
        pc := .innerTest }
  | fragmented (droneNum : ℤ) (data : TelemetryData) (hPc : s.pc = .generate .fragmented)
    (hNum : Range.Contains ⟨1, 5⟩ droneNum) :
    Effect config s (.telemetry droneNum data)
      { s with pc := .splitIdx (generatedPacket droneNum data) }
  | splitIdx (n : ℤ) (packetToSend : BytesArray) (hPc : s.pc = .splitIdx packetToSend)
    (hIndex : Range.Contains ⟨1, lastIndex packetToSend⟩ n) :
    Effect config s (.draw n)
      { (((s.send (packetToSend.take n.toNat)).send (packetToSend.drop n.toNat)).pushValid
          packetToSend).count with
        pc := .innerTest
        fragmentedPacketsCount := increment s.fragmentedPacketsCount }
  | corrupted (droneNum : ℤ) (data : TelemetryData) (hPc : s.pc = .generate .corrupted)
    (hNum : Range.Contains ⟨1, 5⟩ droneNum) :
    Effect config s (.telemetry droneNum data)
      { s with pc := .chance (generatedPacket droneNum data) }
  | spared (n : ℤ) (packetToSend : BytesArray) (hPc : s.pc = .chance packetToSend) :
    Effect config s (.draw n)
      { ((s.pushValid packetToSend).send packetToSend).count with pc := .innerTest }
  | hit (n : ℤ) (packetToSend : BytesArray) (hPc : s.pc = .chance packetToSend) :
    Effect config s (.draw n) { s with pc := .targetByte packetToSend }
  | targetByte (n : ℤ) (packetToSend : BytesArray) (hPc : s.pc = .targetByte packetToSend)
    (hIndex : Range.Contains ⟨3, lastIndex packetToSend⟩ n) :
    Effect config s (.draw n) { s with pc := .bit packetToSend n }
  | bit (n targetByte : ℤ) (packetToSend : BytesArray) (hPc : s.pc = .bit packetToSend targetByte) :
    Effect config s (.draw n)
      { (s.send (flipBit packetToSend targetByte n)).count with
        pc := .innerTest
        corruptedPacketsCount := increment s.corruptedPacketsCount }
  | amount (n : ℤ) (hPc : s.pc = .amount)
    (hAmount : Range.Contains ⟨2, min 5 (increment (remaining config s))⟩ n) :
    Effect config s (.draw n) { s with pc := .generateBurst n 0 [] }
  | generateBurst (droneNum : ℤ) (data : TelemetryData) (amount j : ℤ)
    (packetsToSend : List BytesArray) (hPc : s.pc = .generateBurst amount j packetsToSend)
    (hMore : j < amount) (hNum : Range.Contains ⟨1, 5⟩ droneNum) :
    Effect config s (.telemetry droneNum data)
      { s with
        pc := .generateBurst amount (increment j)
          (packetsToSend ++ [generatedPacket droneNum data]) }
  | burstGenerated (amount j : ℤ) (packetsToSend : List BytesArray)
    (hPc : s.pc = .generateBurst amount j packetsToSend) (hDone : ¬j < amount) :
    Effect config s .proceed { s with pc := .sendBurst packetsToSend }
  | sendBurst (packet : BytesArray) (packetsToSend : List BytesArray)
    (hPc : s.pc = .sendBurst (packet :: packetsToSend)) :
    Effect config s .proceed
      { ((s.send packet).count.pushValid packet) with pc := .sendBurst packetsToSend }
  | burstSent (hPc : s.pc = .sendBurst []) : Effect config s .proceed { s with pc := .innerTest }

section

variable {config : Configuration} {s s' : State}

theorem drawn_effect {n : ℤ} (hDraw : ∀ r ∈ distribution config s, r.Contains n)
    (hStep : drawn config s n = some s') : Effect config s (.draw n) s' := by
  unfold drawn at hStep
  split at hStep
  all_goals rename_i hPc
  all_goals simp only [distribution, hPc, Option.mem_some_iff, forall_eq'] at hDraw
  · cases hStep
    exact .scenario n hPc
  · cases hStep
    exact .garbageLen n hPc
  · cases hStep
    exact .splitIdx n _ hPc hDraw
  · split at hStep
    · cases hStep
      exact .hit n _ hPc
    · cases hStep
      exact .spared n _ hPc
  · cases hStep
    exact .targetByte n _ hPc hDraw
  · cases hStep
    exact .bit n _ _ hPc
  · cases hStep
    exact .amount n hPc hDraw
  · cases hStep

theorem generated_effect {droneNum : ℤ} {data : TelemetryData}
    (hDraw : ∀ r ∈ distribution config s, r.Contains droneNum)
    (hStep : generated s (generatedPacket droneNum data) = some s') :
    Effect config s (.telemetry droneNum data) s' := by
  unfold generated at hStep
  split at hStep
  all_goals rename_i hPc
  all_goals simp only [distribution, hPc, Option.mem_some_iff, forall_eq'] at hDraw
  · cases hStep
    exact .valid droneNum data hPc hDraw
  · cases hStep
    exact .fragmented droneNum data hPc hDraw
  · cases hStep
    exact .corrupted droneNum data hPc hDraw
  · obtain ⟨hMore, hNext⟩ := Option.ite_none_right_eq_some.mp hStep
    cases hNext
    rw [if_pos hMore] at hDraw
    exact .generateBurst droneNum data _ _ _ hPc hMore (hDraw _ rfl)
  · cases hStep

theorem proceed_effect (hStep : proceed config s = some s') : Effect config s .proceed s' := by
  unfold proceed at hStep
  split at hStep
  all_goals rename_i hPc
  · cases hStep
    refine .before .proceed _ (by simp [hPc]) ?_
    cases s.keepRunningSystem <;> decide
  · split at hStep
    · rename_i hEnter
      cases hStep
      exact .enter hPc hEnter.2
    · rename_i hEnd
      cases hStep
      exact .leave hPc hEnd
  · cases hStep
    split
    · rename_i hRepeats
      exact .repeats hPc hRepeats.1 hRepeats.2
    · exact .batchEnds hPc
  · obtain ⟨hDone, hNext⟩ := Option.ite_none_left_eq_some.mp hStep
    cases hNext
    exact .burstGenerated _ _ _ hPc hDone
  · cases hStep
    exact .burstSent hPc
  · cases hStep
    exact .sendBurst _ _ hPc
  · cases hStep
    exact .sleep hPc
  · cases hStep

theorem step_effect {a : Action} (hStep : step config s a = some s') : Effect config s a s' := by
  cases a with
  | signalHandler =>
    cases hStep
    exact .signalHandler
  | setUp succeeds =>
    obtain ⟨hPc, hNext⟩ := Option.ite_none_right_eq_some.mp hStep
    cases hNext
    refine .before _ _ (by simp [hPc]) ?_
    cases succeeds <;> decide
  | connect succeeds =>
    obtain ⟨hPc, hNext⟩ := Option.ite_none_right_eq_some.mp hStep
    cases hNext
    refine .before _ _ (by simp [hPc]) ?_
    cases !succeeds && s.keepRunningSystem <;> decide
  | proceed => exact proceed_effect hStep
  | draw n =>
    obtain ⟨hDraw, hNext⟩ := Option.ite_none_right_eq_some.mp hStep
    exact drawn_effect hDraw hNext
  | telemetry droneNum data =>
    obtain ⟨hDraw, hNext⟩ := Option.ite_none_right_eq_some.mp hStep
    exact generated_effect hDraw hNext
  | garbage bytes =>
    simp only [step] at hStep
    split at hStep
    · rename_i hPc
      obtain ⟨-, hNext⟩ := Option.ite_none_right_eq_some.mp hStep
      cases hNext
      exact .garbage bytes _ hPc
    · cases hStep

end

end CounterDroneServer.DroneDataSimulator

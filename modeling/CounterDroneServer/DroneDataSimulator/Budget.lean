import CounterDroneServer.DroneDataSimulator.ProcessLoop

/-!
# The packet budget

The upper end of the burst distribution is one more than what remains, so a
burst can exceed `MAX_PKGS_AMOUNT`, by at most one packet. `slack` is that
excess: none in the runs whose bursts fit, one in every run.
-/

set_option autoImplicit false

namespace CounterDroneServer.DroneDataSimulator

open MachineInt

/-- What the loop body still has to count, by the place in it. -/
def Pending (config : Configuration) (slack sent : ℤ) : Pc → Prop
  | .scenario | .generate _ | .splitIdx _ | .chance _ | .targetByte _ | .bit _ _ =>
    sent < config.maxPkgsAmount
  | .amount => sent + 2 ≤ config.maxPkgsAmount
  | .generateBurst amount j packetsToSend =>
    packetsToSend.length = j ∧ j ≤ amount ∧ sent + amount ≤ config.maxPkgsAmount + slack
  | .sendBurst packetsToSend => sent + packetsToSend.length ≤ config.maxPkgsAmount + slack
  | _ => True

structure Budget (config : Configuration) (slack : ℤ) (s : State) : Prop where
  nonneg : 0 ≤ s.sentPacketsAmount
  bounded : s.sentPacketsAmount ≤ config.maxPkgsAmount + slack
  pending : Pending config slack s.sentPacketsAmount s.pc
  spent : s.pc = .returned → s.keepRunningSystem = true →
    config.maxPkgsAmount ≤ s.sentPacketsAmount

section

variable {config : Configuration} {slack : ℤ} {s s' : State} {a : Action}

theorem budget_init (hMax : 0 ≤ config.maxPkgsAmount) (hSlack : 0 ≤ slack) :
    Budget config slack {} where
  nonneg := Int.le_refl 0
  bounded := Int.add_nonneg hMax hSlack
  pending := trivial
  spent := nofun

theorem below_of_unlimitedOrBelow (hMax : 0 ≤ config.maxPkgsAmount)
    (h : unlimitedOrBelow config s) : s.sentPacketsAmount < config.maxPkgsAmount := by
  rcases h with hUnlimited | hBelow
  · omega
  · exact hBelow

theorem remaining_eq (hSent : 0 ≤ s.sentPacketsAmount)
    (hBelow : s.sentPacketsAmount < config.maxPkgsAmount) :
    remaining config s = config.maxPkgsAmount - s.sentPacketsAmount := by
  have hRange := config.maxPkgsAmount_inRange
  apply wrap_of_inRange
  simp only [InRange, intMin, intMax] at hRange ⊢
  omega

theorem pending_switch (hSent : 0 ≤ s.sentPacketsAmount)
    (hBelow : s.sentPacketsAmount < config.maxPkgsAmount) (n : ℤ) :
    Pending config slack s.sentPacketsAmount (switch config s n) := by
  have hRemaining := remaining_eq hSent hBelow
  unfold switch
  extract_lets scenario
  split_ifs with h0 h1 h2 h3 h4
  · exact hBelow
  · trivial
  · exact hBelow
  · exact hBelow
  · have hMore : ¬(n = 4 ∧ remaining config s = 1) := by
      intro hLast
      rw [show scenario = 1 from if_pos hLast] at h1
      exact h1 rfl
    have hBurst : n = 4 := by
      rw [← h4]
      exact (if_neg hMore).symm
    change s.sentPacketsAmount + 2 ≤ config.maxPkgsAmount
    omega
  · trivial

theorem switch_ne_returned (config : Configuration) (s : State) (n : ℤ) :
    switch config s n ≠ .returned := by
  unfold switch
  extract_lets scenario
  split_ifs <;> simp

/-- A packet counted where one was still owed. -/
theorem Budget.count (h : Budget config slack s) (hLimit : config.maxPkgsAmount + slack ≤ intMax)
    (hBelow : s.sentPacketsAmount < config.maxPkgsAmount + slack)
    (hSent : s'.sentPacketsAmount = increment s.sentPacketsAmount)
    (hPending : Pending config slack (s.sentPacketsAmount + 1) s'.pc) (hPc : s'.pc ≠ .returned) :
    Budget config slack s' := by
  have hNonneg := h.nonneg
  have hMin : intMin ≤ 0 := by decide
  have hCount : s'.sentPacketsAmount = s.sentPacketsAmount + 1 := by
    rw [hSent, increment_of_lt (by omega) (by omega)]
  constructor
  · omega
  · omega
  · rwa [hCount]
  · intro hReturned
    exact absurd hReturned hPc

/-- A step that counts nothing and does not end the outer loop. -/
theorem Budget.move (h : Budget config slack s)
    (hSent : s'.sentPacketsAmount = s.sentPacketsAmount)
    (hPending : Pending config slack s.sentPacketsAmount s'.pc) (hPc : s'.pc ≠ .returned) :
    Budget config slack s' := by
  constructor
  · rw [hSent]
    exact h.nonneg
  · rw [hSent]
    exact h.bounded
  · rwa [hSent]
  · intro hReturned
    exact absurd hReturned hPc

theorem effect_budget (hMax : 0 ≤ config.maxPkgsAmount) (hSlack : 0 ≤ slack)
    (hLimit : config.maxPkgsAmount + slack ≤ intMax) (h : Budget config slack s)
    (hBurst : ∀ n, s.pc = .amount → a = .draw n →
      Range.Contains ⟨2, min 5 (increment (remaining config s))⟩ n →
      n ≤ config.maxPkgsAmount - s.sentPacketsAmount + slack)
    (hEffect : Effect config s a s') : Budget config slack s' := by
  have hPending := h.pending
  have hBounded := h.bounded
  cases hEffect with
  | signalHandler => exact { h with spent := nofun }
  | before _ pc hPc hNext =>
    simp only [List.mem_cons, List.not_mem_nil, or_false] at hNext
    rcases hNext with rfl | rfl | rfl | rfl
    all_goals exact h.move rfl trivial nofun
  | enter hPc hBelow => exact h.move rfl trivial nofun
  | leave hPc hEnd =>
    refine { h with pending := trivial, spent := ?_ }
    intro _ hFlag
    have hNotBelow : ¬unlimitedOrBelow config s := fun hBelow => hEnd ⟨hFlag, hBelow⟩
    exact not_lt.mp fun hBelow => hNotBelow (.inr hBelow)
  | repeats hPc hBatch hBelow => exact h.move rfl (below_of_unlimitedOrBelow hMax hBelow) nofun
  | batchEnds hPc | sleep hPc | garbageLen n hPc | burstSent hPc => exact h.move rfl trivial nofun
  | garbage bytes garbageLen hPc => exact h.move rfl trivial nofun
  | scenario n hPc =>
    rw [hPc] at hPending
    exact h.move rfl (pending_switch h.nonneg hPending n) (switch_ne_returned config s n)
  | fragmented droneNum data hPc | corrupted droneNum data hPc | hit n packetToSend hPc
  | targetByte n packetToSend hPc =>
    rw [hPc] at hPending
    exact h.move rfl hPending nofun
  | valid droneNum data hPc | splitIdx n packetToSend hPc | spared n packetToSend hPc
  | bit n targetByte packetToSend hPc =>
    rw [hPc] at hPending
    have hBelow : s.sentPacketsAmount < config.maxPkgsAmount + slack := lt_add_of_lt_of_nonneg hPending hSlack
    exact h.count hLimit hBelow rfl trivial nofun
  | amount n hPc hAmount =>
    have hFits := hBurst n hPc rfl hAmount
    have hTwo : 2 ≤ n := hAmount.1
    exact h.move rfl ⟨rfl, by omega, by omega⟩ nofun
  | generateBurst droneNum data amount j packetsToSend hPc hMore =>
    rw [hPc] at hPending
    obtain ⟨hLength, -, hFits⟩ := hPending
    have hMin : intMin ≤ 0 := by decide
    have hNonneg := h.nonneg
    have hNext : increment j = j + 1 := increment_of_lt (by omega) (by omega)
    refine h.move rfl ⟨?_, ?_, hFits⟩ nofun
    · rw [List.length_append, List.length_singleton, hNext]
      omega
    · omega
  | burstGenerated amount j packetsToSend hPc hDone =>
    rw [hPc] at hPending
    obtain ⟨hLength, hAmount, hFits⟩ := hPending
    refine h.move rfl ?_ nofun
    change s.sentPacketsAmount + packetsToSend.length ≤ config.maxPkgsAmount + slack
    omega
  | sendBurst packet packetsToSend hPc =>
    rw [hPc] at hPending
    have hLeft : s.sentPacketsAmount + ((packetsToSend.length + 1 : ℕ) : ℤ) ≤
        config.maxPkgsAmount + slack := hPending
    refine h.count hLimit (by omega) rfl ?_ nofun
    change s.sentPacketsAmount + 1 + packetsToSend.length ≤ config.maxPkgsAmount + slack
    omega

/-! ## Every run -/

theorem Budget.two_remain (h : Budget config slack s) (hPc : s.pc = .amount) :
    s.sentPacketsAmount + 2 ≤ config.maxPkgsAmount := by
  have hPending := h.pending
  rwa [hPc] at hPending

theorem step_budget (hMax : 0 ≤ config.maxPkgsAmount) (hLimit : config.maxPkgsAmount < intMax)
    (h : Budget config 1 s) (hStep : step config s a = some s') : Budget config 1 s' := by
  refine effect_budget hMax (by decide) hLimit h ?_ (step_effect hStep)
  intro n hPc _ hDraw
  have hNonneg := h.nonneg
  have hTwo := h.two_remain hPc
  have hMin : intMin ≤ 0 := by decide
  have hUpper : n ≤ increment (remaining config s) := le_trans hDraw.2 (min_le_right _ _)
  rw [remaining_eq hNonneg (by omega), increment_of_lt (by omega) (by omega)] at hUpper
  exact hUpper

/-- Below the largest limit, the budget is exceeded by at most one packet. -/
theorem budget_of_reaches (hMax : 0 ≤ config.maxPkgsAmount) (hLimit : config.maxPkgsAmount < intMax)
    (hRun : (simulator config).Reaches {} s) : Budget config 1 s :=
  hRun.invariant (Budget config 1) (budget_init hMax (by decide)) (step_budget hMax hLimit)

/-- Every packet counted is recorded as valid or counted as corrupted. -/
structure Accounted (s : State) : Prop where
  corrupted : 0 ≤ s.corruptedPacketsCount
  total : s.sentPacketsAmount = s.sentValidPackets.length + s.corruptedPacketsCount

theorem Accounted.pushValid (h : Accounted s) {packet : BytesArray}
    (hSent : s'.sentPacketsAmount = s.sentPacketsAmount + 1)
    (hValid : s'.sentValidPackets = s.sentValidPackets ++ [packet])
    (hCorrupted : s'.corruptedPacketsCount = s.corruptedPacketsCount) : Accounted s' := by
  have hTotal := h.total
  constructor
  · rw [hCorrupted]
    exact h.corrupted
  · rw [hSent, hValid, hCorrupted, List.length_append, List.length_singleton, Nat.cast_succ]
    omega

theorem effect_accounted (hLimit : config.maxPkgsAmount < intMax) (hBudget : Budget config 1 s)
    (hBudget' : Budget config 1 s') (h : Accounted s) (hEffect : Effect config s a s') :
    Accounted s' := by
  have hSent := hBudget.nonneg
  have hBounded := hBudget.bounded
  have hSmall : s.sentPacketsAmount ≤ intMax := by omega
  have hNext := hBudget'.nonneg
  have hCorrupted := h.corrupted
  have hTotal := h.total
  cases hEffect with
  | valid droneNum data hPc | splitIdx n packetToSend hPc | spared n packetToSend hPc
  | sendBurst packet packetsToSend hPc =>
    exact h.pushValid (increment_of_nonneg hSent hSmall hNext) rfl rfl
  | bit n targetByte packetToSend hPc =>
    have hCount : increment s.sentPacketsAmount = s.sentPacketsAmount + 1 :=
      increment_of_nonneg hSent hSmall hNext
    have hMin : intMin ≤ 0 := by decide
    have hNextBounded : increment s.sentPacketsAmount ≤ config.maxPkgsAmount + 1 := hBudget'.bounded
    have hHit : increment s.corruptedPacketsCount = s.corruptedPacketsCount + 1 :=
      increment_of_lt (by omega) (by omega)
    constructor
    · change 0 ≤ increment s.corruptedPacketsCount
      omega
    · change increment s.sentPacketsAmount =
        s.sentValidPackets.length + increment s.corruptedPacketsCount
      omega
  | _ => exact ⟨hCorrupted, hTotal⟩

end

/-- `sent_packets_amount` is the number of valid packets and of corrupted ones. -/
theorem sent_accounted {config : Configuration} (hMax : 0 ≤ config.maxPkgsAmount)
    (hLimit : config.maxPkgsAmount < intMax) {s : State}
    (hRun : (simulator config).Reaches {} s) :
    s.sentPacketsAmount = s.sentValidPackets.length + s.corruptedPacketsCount := by
  have hInit : Budget config 1 {} ∧ Accounted {} :=
    ⟨budget_init hMax (by decide), ⟨Int.le_refl 0, rfl⟩⟩
  have hBoth := hRun.invariant (fun s => Budget config 1 s ∧ Accounted s) hInit ?_
  · exact hBoth.2.total
  · rintro s s' a ⟨hBudget, hAccounted⟩ hStep
    have hBudget' := step_budget hMax hLimit hBudget hStep
    exact ⟨hBudget', effect_accounted hLimit hBudget hBudget' hAccounted (step_effect hStep)⟩

/-! ## A larger burst -/

def anyTelemetry : TelemetryData := ⟨[], 0, 0, 0, 0, 0⟩

section

variable {config : Configuration} {s₀ s : State}

theorem sendBurst_reaches {packetsToSend : List BytesArray}
    (hReach : (simulator config).Reaches s₀ s) (hPc : s.pc = .sendBurst packetsToSend)
    (hSent : 0 ≤ s.sentPacketsAmount) (hLimit : s.sentPacketsAmount + packetsToSend.length ≤ intMax) :
    ∃ s', (simulator config).Reaches s₀ s' ∧
      s'.sentPacketsAmount = s.sentPacketsAmount + packetsToSend.length := by
  induction packetsToSend generalizing s with
  | nil => exact ⟨s, hReach, (Int.add_zero _).symm⟩
  | cons packet packetsToSend ih =>
    have hMin : intMin ≤ 0 := by decide
    rw [List.length_cons, Nat.cast_succ] at hLimit
    have hIncrement : increment s.sentPacketsAmount = s.sentPacketsAmount + 1 :=
      increment_of_lt (by omega) (by omega)
    let next : State :=
      { ((s.send packet).count.pushValid packet) with pc := .sendBurst packetsToSend }
    have hStep : (simulator config).step s .proceed = some next := by
      simp only [simulator, step, proceed, hPc]
      rfl
    have hCount : next.sentPacketsAmount = s.sentPacketsAmount + 1 := hIncrement
    obtain ⟨s', hNext, hAll⟩ := ih (hReach.step .proceed trivial hStep) rfl (by omega) (by omega)
    refine ⟨s', hNext, ?_⟩
    rw [hAll, List.length_cons, Nat.cast_succ]
    omega

theorem generateBurst_reaches {amount j : ℤ} {packetsToSend : List BytesArray}
    (hReach : (simulator config).Reaches s₀ s)
    (hPc : s.pc = .generateBurst amount j packetsToSend) (hLength : packetsToSend.length = j)
    (hAmount : j ≤ amount) (hLimit : amount ≤ intMax) :
    ∃ s' packets, (simulator config).Reaches s₀ s' ∧ s'.pc = .sendBurst packets ∧
      packets.length = amount ∧ s'.sentPacketsAmount = s.sentPacketsAmount := by
  generalize hLeft : (amount - j).toNat = left
  induction left generalizing s j packetsToSend with
  | zero =>
    have hDone : ¬j < amount := by omega
    have hStep : (simulator config).step s .proceed =
        some { s with pc := .sendBurst packetsToSend } := by
      simp only [simulator, step, proceed, hPc, if_neg hDone]
    exact ⟨_, packetsToSend, hReach.step .proceed trivial hStep, rfl, by omega, rfl⟩
  | succ left ih =>
    have hMore : j < amount := by omega
    have hMin : intMin ≤ 0 := by decide
    have hNext : increment j = j + 1 := increment_of_lt (by omega) (by omega)
    have hNum : Range.Contains ⟨1, 5⟩ 1 := by decide
    have hStep : (simulator config).step s (.telemetry 1 anyTelemetry) = some { s with
        pc := .generateBurst amount (increment j)
          (packetsToSend ++ [generatedPacket 1 anyTelemetry]) } := by
      simp only [simulator, step, generated, distribution, hPc, if_pos hMore, Option.mem_some_iff,
        forall_eq', if_pos hNum]
    have hNextLength : ((packetsToSend ++ [generatedPacket 1 anyTelemetry]).length : ℤ) =
        increment j := by
      rw [List.length_append, List.length_singleton, hNext, ← hLength, Nat.cast_succ]
    have hNextReach := hReach.step (.telemetry 1 anyTelemetry) trivial hStep
    have hRest := ih hNextReach rfl hNextLength (by omega) (by omega)
    exact hRest

/-- Once a burst larger than what remains is drawn, the loop goes on to exceed the
budget. -/
theorem budget_exceeded (hReach : (simulator config).Reaches s₀ s) (hPc : s.pc = .amount)
    (hSent : 0 ≤ s.sentPacketsAmount) {n : ℤ}
    (hDraw : Range.Contains ⟨2, min 5 (increment (remaining config s))⟩ n)
    (hLimit : s.sentPacketsAmount + n ≤ intMax)
    (hLarger : config.maxPkgsAmount - s.sentPacketsAmount < n) :
    ∃ s', (simulator config).Reaches s₀ s' ∧ config.maxPkgsAmount < s'.sentPacketsAmount := by
  have hTwo : 2 ≤ n := hDraw.1
  have hStep : (simulator config).step s (.draw n) =
      some { s with pc := .generateBurst n 0 [] } := by
    simp only [simulator, step, drawn, distribution, hPc, Option.mem_some_iff, forall_eq',
      if_pos hDraw]
  obtain ⟨t, packets, hGenerated, hSend, hLength, hSame⟩ :=
    generateBurst_reaches (hReach.step (.draw n) trivial hStep) rfl rfl (by omega) (by omega)
  dsimp only at hSame
  obtain ⟨s', hAll, hTotal⟩ := sendBurst_reaches hGenerated hSend (by omega) (by omega)
  exact ⟨s', hAll, by omega⟩

end

/-! ## Runs whose bursts fit -/

/-- The burst drawn, if one is, is at most what remains. -/
def BurstFits (config : Configuration) (s : State) : Action → Prop
  | .draw n => s.pc = .amount → n ≤ config.maxPkgsAmount - s.sentPacketsAmount
  | _ => True

theorem budget_of_burstFits {config : Configuration} (hMax : 0 ≤ config.maxPkgsAmount) {s : State}
    (hRun : (simulator config).ReachesVia (BurstFits config) {} s) : Budget config 0 s := by
  have hLimit : config.maxPkgsAmount + 0 ≤ intMax := by
    rw [Int.add_zero]
    exact config.maxPkgsAmount_inRange.2
  refine hRun.invariant (Budget config 0) (budget_init hMax (Int.le_refl 0)) ?_
  intro s s' a h hFits hStep
  refine effect_budget hMax (Int.le_refl 0) hLimit h ?_ (step_effect hStep)
  rintro n hPc rfl -
  rw [Int.add_zero]
  exact hFits hPc

/-- As long as no burst is larger than what remains, the budget is never exceeded,
and it is spent when the count ends the outer loop. -/
theorem budget_respected (config : Configuration) (hMax : 0 ≤ config.maxPkgsAmount) (s : State)
    (hRun : (simulator config).ReachesVia (BurstFits config) {} s) :
    s.sentPacketsAmount ≤ config.maxPkgsAmount ∧
      (s.pc = .returned → s.keepRunningSystem = true →
        s.sentPacketsAmount = config.maxPkgsAmount) := by
  have hBudget := budget_of_burstFits hMax hRun
  have hBounded : s.sentPacketsAmount ≤ config.maxPkgsAmount := by
    have h := hBudget.bounded
    rwa [Int.add_zero] at h
  exact ⟨hBounded, fun hPc hFlag => le_antisymm hBounded (hBudget.spent hPc hFlag)⟩

def twoPackets : Configuration := ⟨2, 1, by decide, by decide⟩

/-- A burst of two where two packets remain. -/
theorem budget_respected_burst_of_two :
    ∃ s : State, s.pc = .returned ∧ s.keepRunningSystem = true ∧ s.sentPacketsAmount = 2 ∧
      s.sentPacketsAmount ≤ twoPackets.maxPkgsAmount := by
  have hRun := (simulator twoPackets).reachesVia_refl (BurstFits twoPackets) {}
  have hRun := hRun.step (Action.setUp true) trivial rfl
  have hRun := hRun.step (Action.connect true) trivial rfl
  have hRun := hRun.step Action.proceed trivial rfl
  have hRun := hRun.step Action.proceed trivial rfl
  have hRun := hRun.step Action.proceed trivial rfl
  have hRun := hRun.step (Action.draw 4) nofun rfl
  have hRun := hRun.step (Action.draw 2) (fun _ => by decide) rfl
  have hRun := hRun.step (Action.telemetry 1 anyTelemetry) trivial rfl
  have hRun := hRun.step (Action.telemetry 2 anyTelemetry) trivial rfl
  have hRun := hRun.step Action.proceed trivial rfl
  have hRun := hRun.step Action.proceed trivial rfl
  have hRun := hRun.step Action.proceed trivial rfl
  have hRun := hRun.step Action.proceed trivial rfl
  have hRun := hRun.step Action.proceed trivial rfl
  have hRun := hRun.step Action.proceed trivial rfl
  have hRun := hRun.step Action.proceed trivial rfl
  exact ⟨_, rfl, rfl, rfl, (budget_respected twoPackets (by decide) _ hRun).1⟩

/-- Two packets remain and the distribution admits a burst of three. -/
theorem not_budget_respected :
    ¬∀ config : Configuration, 0 ≤ config.maxPkgsAmount → 1 ≤ config.batchSize →
      ∀ s : State, (simulator config).Reaches {} s →
        s.sentPacketsAmount ≤ config.maxPkgsAmount ∧
          (s.pc = .returned → s.keepRunningSystem = true →
            s.sentPacketsAmount = config.maxPkgsAmount) := by
  intro h
  have hRun := (simulator twoPackets).reachesVia_refl (fun _ _ => True) {}
  have hRun := hRun.step (Action.setUp true) trivial rfl
  have hRun := hRun.step (Action.connect true) trivial rfl
  have hRun := hRun.step Action.proceed trivial rfl
  have hRun := hRun.step Action.proceed trivial rfl
  have hRun := hRun.step Action.proceed trivial rfl
  have hRun := hRun.step (Action.draw 4) trivial rfl
  obtain ⟨s, hReach, hExceeded⟩ := budget_exceeded hRun rfl (Int.le_refl 0)
    (show Range.Contains ⟨2, min 5 (increment (remaining twoPackets { pc := .amount }))⟩ 3 by decide)
    (by decide) (by decide)
  have hRespected := (h twoPackets (by decide) (by decide) s hReach).1
  exact absurd hRespected (not_le.mpr hExceeded)

end CounterDroneServer.DroneDataSimulator

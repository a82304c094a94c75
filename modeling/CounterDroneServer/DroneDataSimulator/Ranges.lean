import CounterDroneServer.DroneDataSimulator.Budget

/-!
# The random ranges

Every `uniform_int_distribution(a, b)` needs `a ≤ b`. The ranges over a packet
follow from the size of the generated packets; the range of a burst follows from
the budget, where there is one.
-/

set_option autoImplicit false

namespace CounterDroneServer.DroneDataSimulator

open MachineInt

def Range.NonEmpty (r : Range) : Prop := r.a ≤ r.b

instance (r : Range) : Decidable r.NonEmpty := inferInstanceAs (Decidable (r.a ≤ r.b))

/-! ## The size of a packet -/

theorem droneId_length {droneNum : ℤ} (hNum : Range.Contains ⟨1, 5⟩ droneNum) :
    (droneId droneNum).length = 5 := by
  obtain ⟨hLower, hUpper⟩ := hNum
  dsimp only at hLower hUpper
  have hCases : droneNum = 1 ∨ droneNum = 2 ∨ droneNum = 3 ∨ droneNum = 4 ∨ droneNum = 5 := by omega
  rcases hCases with rfl | rfl | rfl | rfl | rfl
  all_goals rfl

theorem generatedPacket_length {droneNum : ℤ} (hNum : Range.Contains ⟨1, 5⟩ droneNum)
    (data : TelemetryData) : (generatedPacket droneNum data).length = 53 := by
  rw [generatedPacket, buildTelemetryPacket_length, droneId_length hNum]

/-- The packet that a draw is about has the size of a generated one. -/
def WholePacket : Pc → Prop
  | .splitIdx packetToSend | .chance packetToSend | .targetByte packetToSend =>
    packetToSend.length = 53
  | _ => True

theorem wholePacket_switch (config : Configuration) (s : State) (n : ℤ) :
    WholePacket (switch config s n) := by
  unfold switch
  extract_lets scenario
  split_ifs <;> trivial

section

variable {config : Configuration} {s s' : State} {a : Action}

theorem effect_wholePacket (h : WholePacket s.pc) (hEffect : Effect config s a s') :
    WholePacket s'.pc := by
  cases hEffect with
  | signalHandler => exact h
  | before _ pc hPc hNext =>
    simp only [List.mem_cons, List.not_mem_nil, or_false] at hNext
    rcases hNext with rfl | rfl | rfl | rfl
    all_goals trivial
  | scenario n hPc => exact wholePacket_switch config s n
  | fragmented droneNum data hPc hNum | corrupted droneNum data hPc hNum =>
    exact generatedPacket_length hNum data
  | hit n packetToSend hPc =>
    rw [hPc] at h
    exact h
  | _ => trivial

theorem wholePacket_of_reaches (hRun : (simulator config).Reaches {} s) : WholePacket s.pc := by
  refine hRun.invariant (fun s => WholePacket s.pc) ?_ ?_
  · exact trivial
  · intro s s' a h hStep
    exact effect_wholePacket h (step_effect hStep)

theorem burst_nonEmpty_iff :
    Range.NonEmpty ⟨2, min 5 (increment (remaining config s))⟩ ↔
      1 ≤ remaining config s ∧ remaining config s < intMax := by
  have hRange : InRange (remaining config s) := wrap_inRange _
  simp only [Range.NonEmpty, InRange, increment, wrap, intMin, intMax] at hRange ⊢
  omega

theorem distribution_nonEmpty_iff (h : WholePacket s.pc) :
    (∀ r ∈ distribution config s, r.NonEmpty) ↔
      (s.pc = .amount → 1 ≤ remaining config s ∧ remaining config s < intMax) := by
  rw [← burst_nonEmpty_iff]
  cases hPc : s.pc with
  | amount => simp [distribution, hPc]
  | splitIdx packetToSend | targetByte packetToSend =>
    rw [hPc] at h
    have hLength : packetToSend.length = 53 := h
    simp [distribution, hPc, Range.NonEmpty, lastIndex, hLength]
  | generateBurst amount j packetsToSend =>
    by_cases hMore : j < amount
    · simp [distribution, hPc, Range.NonEmpty, if_pos hMore]
    · simp [distribution, hPc, if_neg hMore]
  | _ => simp [distribution, hPc, Range.NonEmpty]

theorem Budget.remaining_inside {slack : ℤ} (hLimit : config.maxPkgsAmount < intMax)
    (h : Budget config slack s) (hPc : s.pc = .amount) :
    1 ≤ remaining config s ∧ remaining config s < intMax := by
  have hNonneg := h.nonneg
  have hTwo := h.two_remain hPc
  rw [remaining_eq hNonneg (by omega)]
  omega

/-! ## The batch that sends nothing -/

/-- Places outside the loop body, with the counter of the inner loop at zero. -/
def Outside (s : State) : Prop :=
  s.i = 0 ∧ s.pc ∈ [.setUp, .connecting, .connected, .outerTest, .innerTest, .sleep, .gaveUp, .returned]

theorem effect_outside (hBatch : config.batchSize ≤ 0) (h : Outside s)
    (hEffect : Effect config s a s') : Outside s' := by
  obtain ⟨hZero, hPlace⟩ := h
  cases hEffect with
  | signalHandler => exact ⟨hZero, hPlace⟩
  | before _ pc hPc hNext =>
    refine ⟨hZero, ?_⟩
    simp only [List.mem_cons, List.not_mem_nil, or_false] at hNext
    rcases hNext with rfl | rfl | rfl | rfl
    all_goals simp
  | enter hPc hBelow => exact ⟨rfl, by simp⟩
  | leave | batchEnds | sleep => exact ⟨hZero, by simp⟩
  | repeats hPc hMore hBelow => omega
  | _ => simp_all

theorem outside_of_reaches (hBatch : config.batchSize ≤ 0)
    (hRun : (simulator config).Reaches {} s) : Outside s := by
  refine hRun.invariant Outside ⟨rfl, by simp⟩ ?_
  intro s s' a h hStep
  exact effect_outside hBatch h (step_effect hStep)

/-! ## Every run -/

/-- With no limit, and with the largest one, the first packet may be a burst. -/
theorem amount_reached (hBatch : 0 < config.batchSize)
    (hMax : config.maxPkgsAmount = -1 ∨ config.maxPkgsAmount = intMax) :
    (simulator config).Reaches {} { pc := .amount } := by
  have hMore : ∀ s : State, s.sentPacketsAmount = 0 → unlimitedOrBelow config s := by
    intro s hSent
    refine hMax.imp_right fun hLargest => ?_
    rw [hSent, hLargest]
    decide
  have hNotLast : ∀ s : State, s.sentPacketsAmount = 0 → remaining config s ≠ 1 := by
    intro s hSent
    rw [remaining, hSent]
    rcases hMax with hNone | hLargest
    · rw [hNone]
      decide
    · rw [hLargest]
      decide
  have hConnected : (simulator config).Reaches {} { pc := .outerTest } := by
    refine StepSystem.Reaches.runActions .refl
      (show (simulator config).runActions {} [.setUp true, .connect true, .proceed] = _ from rfl)
  have hEnter : (simulator config).step { pc := .outerTest } .proceed =
      some { pc := .innerTest } :=
    if_pos ⟨rfl, hMore _ rfl⟩
  have hRepeats : (simulator config).step { pc := .innerTest } .proceed =
      some { pc := .scenario } := by
    have hAgain : (0 : ℤ) < config.batchSize ∧ unlimitedOrBelow config { pc := .innerTest } :=
      ⟨hBatch, hMore _ rfl⟩
    simp only [simulator, step, proceed, if_pos hAgain]
  have hBurst : (simulator config).step { pc := .scenario } (.draw 4) = some { pc := .amount } := by
    have hRange : Range.Contains ⟨0, 4⟩ 4 := by decide
    have hSwitch : switch config { pc := .scenario } 4 = .amount := by
      simp [switch, hNotLast]
    simp only [simulator, step, drawn, distribution, Option.mem_some_iff, forall_eq', if_pos hRange,
      hSwitch]
  exact ((hConnected.step .proceed trivial hEnter).step .proceed trivial hRepeats).step (.draw 4)
    trivial hBurst

end

/-- The ranges are non-empty at every place and in every configuration but one: the
range of a burst is empty unless the int that remains is positive and below the
largest. -/
theorem distributions_nonEmpty_iff (config : Configuration)
    (hMax : config.maxPkgsAmount = -1 ∨ 0 ≤ config.maxPkgsAmount) :
    (∀ s : State, (simulator config).Reaches {} s →
      ((∀ r ∈ distribution config s, r.NonEmpty) ↔
        (s.pc = .amount → 1 ≤ remaining config s ∧ remaining config s < intMax))) ∧
    ((∀ s : State, (simulator config).Reaches {} s → ∀ r ∈ distribution config s, r.NonEmpty) ↔
      (config.maxPkgsAmount ≠ -1 ∧ config.maxPkgsAmount ≠ intMax) ∨ config.batchSize ≤ 0) := by
  have hState : ∀ s : State, (simulator config).Reaches {} s →
      ((∀ r ∈ distribution config s, r.NonEmpty) ↔
        (s.pc = .amount → 1 ≤ remaining config s ∧ remaining config s < intMax)) :=
    fun s hRun => distribution_nonEmpty_iff (wholePacket_of_reaches hRun)
  refine ⟨hState, ?_, ?_⟩
  · intro hAll
    by_contra hBad
    obtain ⟨hLimits, hBatch⟩ := not_or.mp hBad
    have hMax : config.maxPkgsAmount = -1 ∨ config.maxPkgsAmount = intMax :=
      (not_and_or.mp hLimits).imp not_not.mp not_not.mp
    have hReached := amount_reached (not_le.mp hBatch) hMax
    have hInside := (hState _ hReached).mp (hAll _ hReached) rfl
    rcases hMax with hNone | hLargest
    · simp only [remaining, hNone] at hInside
      exact absurd hInside.1 (by decide)
    · simp only [remaining, hLargest] at hInside
      exact absurd hInside.2 (by decide)
  · rintro (⟨hNone, hLargest⟩ | hBatch) s hRun
    · have hLimit : config.maxPkgsAmount < intMax :=
        lt_of_le_of_ne config.maxPkgsAmount_inRange.2 hLargest
      have hBudget := budget_of_reaches (hMax.resolve_left hNone) hLimit hRun
      exact (hState s hRun).mpr (hBudget.remaining_inside hLimit)
    · have hOutside := outside_of_reaches hBatch hRun
      refine (hState s hRun).mpr fun hPc => ?_
      rw [Outside, hPc] at hOutside
      exact absurd hOutside.2 (by decide)

/-- The default limit, at the first burst. -/
theorem distributions_nonEmpty_iff_default :
    ∃ s : State, s.pc = .amount ∧
      distribution ⟨1000, 1, by decide, by decide⟩ s = some ⟨2, 5⟩ ∧
      ∀ r ∈ distribution ⟨1000, 1, by decide, by decide⟩ s, r.NonEmpty := by
  have hRun : (simulator ⟨1000, 1, by decide, by decide⟩).runActions {}
      [.setUp true, .connect true, .proceed, .proceed, .proceed, .draw 4] = some _ := rfl
  have hAll := (distributions_nonEmpty_iff ⟨1000, 1, by decide, by decide⟩ (.inr (by decide))).2.mpr
    (.inl (by decide))
  exact ⟨_, rfl, rfl, hAll _ (StepSystem.Reaches.runActions .refl hRun)⟩

/-- Without a limit the first burst is drawn from 2 to 0. -/
theorem not_distributions_nonEmpty :
    ¬∀ config : Configuration, config.maxPkgsAmount = -1 ∨ 0 ≤ config.maxPkgsAmount →
      ∀ s : State, (simulator config).Reaches {} s → ∀ r ∈ distribution config s, r.NonEmpty := by
  intro h
  have hRun : (simulator ⟨-1, 1, by decide, by decide⟩).runActions {}
      [.setUp true, .connect true, .proceed, .proceed, .proceed, .draw 4] = some _ := rfl
  have hBurst := h ⟨-1, 1, by decide, by decide⟩ (.inl rfl) _
    (StepSystem.Reaches.runActions .refl hRun) ⟨2, 0⟩ rfl
  exact absurd hBurst (by decide)

end CounterDroneServer.DroneDataSimulator

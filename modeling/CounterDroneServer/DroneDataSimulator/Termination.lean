import CounterDroneServer.DroneDataSimulator.Ranges

/-!
# The loops of the simulator end

The inner loop counts packets, and garbage is none, so it can go on for as long as
garbage is drawn; the flag is not tested there. Every other step is paid for by a packet
of the budget or, behind the signal, of the batch. A batch that has begun sends at least
one.
-/

set_option autoImplicit false

namespace CounterDroneServer.DroneDataSimulator

open MachineInt

/-! ## Prices -/

/-- A step of the thread, unless `connect` failed. -/
def Action.works : Action → Bool
  | .signalHandler | .connect false => false
  | _ => true

def Action.sendsGarbage : Action → Bool
  | .garbage _ => true
  | _ => false

/-- The last step of a garbage sequence gives back what its four steps cost. -/
def price : Action → ℤ
  | .signalHandler | .connect false => 0
  | .garbage _ => -3
  | _ => 1

/-- What a place of the loop body has spent since `innerTest`, or will need behind the
packets that it still sends. -/
def bodyCredit : Pc → ℤ
  | .scenario => -1
  | .generate _ | .garbageLen | .amount => -2
  | .splitIdx _ | .chance _ | .garbageBytes _ => -3
  | .targetByte _ => -4
  | .bit _ _ => -5
  | .generateBurst _ _ packetsToSend => -3 - packetsToSend.length
  | .sendBurst packetsToSend => 1 - 5 * packetsToSend.length
  | _ => 0

/-- The first packet of a batch brings the three steps that end the batch. -/
def credit (s : State) : ℤ :=
  match s.pc with
  | .setUp => 4
  | .connecting => 3
  | .connected | .sleep => 2
  | .outerTest => 1
  | .gaveUp | .returned => 0
  | pc => (if 0 < s.i then 3 else 0) + bodyCredit pc

/-- Each packet pays nine steps. -/
def potential (s : State) : ℤ := credit s - 9 * s.sentPacketsAmount

/-! ## Batches -/

/-- A batch that has sent nothing has still something to send. -/
def BatchOpen (config : Configuration) (s : State) : Pc → Prop
  | .innerTest | .garbageLen | .garbageBytes _ =>
    s.i = 0 → s.sentPacketsAmount < config.maxPkgsAmount
  | .generateBurst amount _ _ => 2 ≤ amount
  | .sendBurst packetsToSend => packetsToSend = [] → 0 < s.i
  | _ => True

structure Batched (config : Configuration) (s : State) : Prop where
  nonneg : 0 ≤ s.i
  counted : s.i ≤ s.sentPacketsAmount
  batchOpen : BatchOpen config s s.pc

section

variable {config : Configuration} {s s' : State} {a : Action}

theorem batchOpen_switch (hBelow : s.sentPacketsAmount < config.maxPkgsAmount) (n : ℤ) :
    BatchOpen config s (switch config s n) := by
  unfold switch
  extract_lets scenario
  split_ifs
  · trivial
  · exact fun _ => hBelow
  · trivial
  · trivial
  · trivial
  · exact fun _ => hBelow

/-- A step that counts nothing. -/
theorem Batched.move (h : Batched config s) (hI : s'.i = s.i)
    (hSent : s'.sentPacketsAmount = s.sentPacketsAmount)
    (hOpen : BatchOpen config s' s'.pc) : Batched config s' := by
  constructor
  · rw [hI]
    exact h.nonneg
  · rw [hI, hSent]
    exact h.counted
  · exact hOpen

/-- The two counters behind a packet. -/
theorem Batched.increments (h : Batched config s) (hBudget : Budget config 1 s)
    (hLimit : config.maxPkgsAmount < intMax)
    (hBelow : s.sentPacketsAmount < config.maxPkgsAmount + 1) :
    increment s.sentPacketsAmount = s.sentPacketsAmount + 1 ∧ increment s.i = s.i + 1 := by
  have hMin : intMin ≤ 0 := by decide
  have hSent := hBudget.nonneg
  have hNonneg := h.nonneg
  have hCounted := h.counted
  constructor
  · exact increment_of_lt (by omega) (by omega)
  · exact increment_of_lt (by omega) (by omega)

/-- A step that counts a packet. -/
theorem Batched.count (h : Batched config s) (hBudget : Budget config 1 s)
    (hLimit : config.maxPkgsAmount < intMax)
    (hBelow : s.sentPacketsAmount < config.maxPkgsAmount + 1) (hI : s'.i = increment s.i)
    (hSent : s'.sentPacketsAmount = increment s.sentPacketsAmount)
    (hOpen : 0 < s'.i → BatchOpen config s' s'.pc) : Batched config s' := by
  obtain ⟨hSentNext, hINext⟩ := h.increments hBudget hLimit hBelow
  have hNonneg := h.nonneg
  have hCounted := h.counted
  constructor
  · omega
  · omega
  · exact hOpen (by omega)

theorem effect_batched (hMax : 0 ≤ config.maxPkgsAmount) (hLimit : config.maxPkgsAmount < intMax)
    (hBudget : Budget config 1 s) (h : Batched config s) (hEffect : Effect config s a s') :
    Batched config s' := by
  have hPending := hBudget.pending
  have hOpen := h.batchOpen
  cases hEffect with
  | signalHandler => exact h.move rfl rfl hOpen
  | before _ pc hPc hNext =>
    simp only [List.mem_cons, List.not_mem_nil, or_false] at hNext
    rcases hNext with rfl | rfl | rfl | rfl
    all_goals exact h.move rfl rfl trivial
  | enter hPc hBelow =>
    exact ⟨Int.le_refl 0, hBudget.nonneg, fun _ => below_of_unlimitedOrBelow hMax hBelow⟩
  | leave hPc | repeats hPc | batchEnds hPc | sleep hPc => exact h.move rfl rfl trivial
  | fragmented droneNum data hPc | corrupted droneNum data hPc | hit n packetToSend hPc
  | targetByte n packetToSend hPc => exact h.move rfl rfl trivial
  | scenario n hPc =>
    rw [hPc] at hPending
    exact h.move rfl rfl (batchOpen_switch hPending n)
  | garbageLen n hPc | garbage bytes garbageLen hPc =>
    rw [hPc] at hOpen
    exact h.move rfl rfl hOpen
  | valid droneNum data hPc | splitIdx n packetToSend hPc | spared n packetToSend hPc
  | bit n targetByte packetToSend hPc =>
    rw [hPc] at hPending
    have hBelow : s.sentPacketsAmount < config.maxPkgsAmount + 1 := lt_add_of_lt_of_nonneg hPending (by decide)
    exact h.count hBudget hLimit hBelow rfl rfl fun hPos hZero => absurd hZero hPos.ne'
  | amount n hPc hAmount => exact h.move rfl rfl hAmount.1
  | generateBurst droneNum data amount j packetsToSend hPc hMore =>
    rw [hPc] at hOpen
    exact h.move rfl rfl hOpen
  | burstGenerated amount j packetsToSend hPc hDone =>
    rw [hPc] at hOpen hPending
    obtain ⟨hLength, -, -⟩ := hPending
    have hTwo : 2 ≤ amount := hOpen
    refine h.move rfl rfl fun hNone => ?_
    rw [hNone, List.length_nil] at hLength
    omega
  | sendBurst packet packetsToSend hPc =>
    rw [hPc] at hPending
    have hLeft : s.sentPacketsAmount + ((packetsToSend.length + 1 : ℕ) : ℤ) ≤
        config.maxPkgsAmount + 1 := hPending
    exact h.count hBudget hLimit (by omega) rfl rfl fun hPos _ => hPos
  | burstSent hPc =>
    rw [hPc] at hOpen
    exact h.move rfl rfl fun hZero => absurd hZero (hOpen rfl).ne'

/-! ## What a step pays -/

/-- The steps up to the loops. -/
theorem start_paid (hPc : s.pc ∈ [.setUp, .connecting, .connected])
    (hStep : step config s a = some s') : potential s' + price a ≤ potential s := by
  simp only [List.mem_cons, List.not_mem_nil, or_false] at hPc
  cases a with
  | signalHandler =>
    cases hStep
    exact Int.le_of_eq (Int.add_zero (potential s))
  | setUp succeeds =>
    obtain ⟨hPc, hNext⟩ := Option.ite_none_right_eq_some.mp hStep
    cases hNext
    cases succeeds
    all_goals
      simp only [potential, credit, hPc, price, Bool.false_eq_true, if_true, if_false]
      omega
  | connect succeeds =>
    obtain ⟨hPc, hNext⟩ := Option.ite_none_right_eq_some.mp hStep
    cases hNext
    cases succeeds
    · cases hFlag : s.keepRunningSystem
      all_goals
        simp only [potential, credit, hPc, price, Bool.not_false, Bool.and_true, Bool.and_false,
          Bool.false_eq_true, if_true, if_false]
        omega
    · simp only [potential, credit, hPc, price, Bool.not_true, Bool.false_and,
        Bool.false_eq_true, if_false]
      omega
  | proceed =>
    rcases hPc with hPc | hPc | hPc
    · simp [step, proceed, hPc] at hStep
    · simp [step, proceed, hPc] at hStep
    · simp only [step, proceed, hPc, Option.some.injEq] at hStep
      subst hStep
      cases hFlag : s.keepRunningSystem
      all_goals
        simp only [potential, credit, hPc, price, Bool.false_eq_true, if_true, if_false]
        omega
  | draw n =>
    rcases hPc with hPc | hPc | hPc
    all_goals simp [step, drawn, hPc] at hStep
  | telemetry droneNum data =>
    rcases hPc with hPc | hPc | hPc
    all_goals simp [step, generated, hPc] at hStep
  | garbage bytes =>
    rcases hPc with hPc | hPc | hPc
    all_goals simp [step, hPc] at hStep

/-- A batch does not end before it has sent something. -/
theorem innerTest_paid (hBatch : 0 < config.batchSize) (h : Batched config s)
    (hPc : s.pc = .innerTest) (hStep : step config s a = some s') :
    potential s' + price a ≤ potential s := by
  cases a with
  | signalHandler =>
    cases hStep
    exact Int.le_of_eq (Int.add_zero (potential s))
  | proceed =>
    simp only [step, proceed, hPc, Option.some.injEq] at hStep
    subst hStep
    split
    · simp only [potential, credit, hPc, price, bodyCredit]
      omega
    · rename_i hEnded
      have hOpen := h.batchOpen
      rw [hPc] at hOpen
      have hSome : 0 < s.i := by
        refine lt_of_le_of_ne h.nonneg fun hZero => hEnded ⟨?_, .inr (hOpen hZero.symm)⟩
        rwa [← hZero]
      simp only [potential, credit, hPc, price, bodyCredit, if_pos hSome]
      omega
  | draw n | telemetry droneNum data =>
    simp [step, drawn, generated, distribution, hPc] at hStep
  | _ => simp [step, hPc] at hStep

/-- Every scenario drawn is one of the five. -/
theorem scenario_paid (hPc : s.pc = .scenario) (hStep : step config s a = some s') :
    potential s' + price a ≤ potential s := by
  cases a with
  | signalHandler =>
    cases hStep
    exact Int.le_of_eq (Int.add_zero (potential s))
  | draw n =>
    obtain ⟨hDraw, hNext⟩ := Option.ite_none_right_eq_some.mp hStep
    simp only [drawn, hPc, Option.some.injEq] at hNext
    subst hNext
    simp only [distribution, hPc, Option.mem_some_iff, forall_eq', Range.Contains] at hDraw
    have hStart : potential s = (if 0 < s.i then 3 else 0) + -1 - 9 * s.sentPacketsAmount := by
      simp only [potential, credit, hPc, bodyCredit]
    rw [hStart]
    unfold switch
    extract_lets scenario
    have hScenario : scenario = 1 ∨ scenario = n := by
      unfold scenario
      split
      · exact .inl rfl
      · exact .inr rfl
    split_ifs
    all_goals
      simp only [potential, credit, bodyCredit, price]
      omega
  | telemetry droneNum data => simp [step, generated, hPc] at hStep
  | _ => simp [step, proceed, hPc] at hStep

theorem effect_paid (hLimit : config.maxPkgsAmount < intMax) (hBudget : Budget config 1 s)
    (h : Batched config s)
    (hLoops : s.pc ∉ [.setUp, .connecting, .connected]) (hInner : s.pc ≠ .innerTest)
    (hScenario : s.pc ≠ .scenario) (hEffect : Effect config s a s') : potential s' + price a ≤ potential s := by
  have hPending := hBudget.pending
  have hOpen := h.batchOpen
  have hNonneg := h.nonneg
  cases hEffect with
  | signalHandler => exact Int.le_of_eq (Int.add_zero (potential s))
  | before _ pc hPc hNext => exact absurd hPc hLoops
  | repeats hPc | batchEnds hPc => exact absurd hPc hInner
  | scenario n hPc => exact absurd hPc hScenario
  | enter hPc hBelow =>
    simp only [potential, credit, hPc, price, bodyCredit, lt_irrefl, if_false]
    omega
  | leave hPc | sleep hPc =>
    simp only [potential, credit, hPc, price]
    omega
  | fragmented droneNum data hPc | corrupted droneNum data hPc | hit n packetToSend hPc
  | targetByte n packetToSend hPc =>
    simp only [potential, credit, hPc, price, bodyCredit]
    omega
  | garbageLen n hPc | garbage bytes garbageLen hPc =>
    simp only [potential, credit, hPc, price, bodyCredit, State.send]
    omega
  | valid droneNum data hPc | splitIdx n packetToSend hPc | spared n packetToSend hPc
  | bit n targetByte packetToSend hPc =>
    rw [hPc] at hPending
    have hBelow : s.sentPacketsAmount < config.maxPkgsAmount + 1 := lt_add_of_lt_of_nonneg hPending (by decide)
    obtain ⟨hSent, hI⟩ := h.increments hBudget hLimit hBelow
    simp only [potential, credit, hPc, price, bodyCredit, State.send, State.count, State.pushValid,
      hSent, hI]
    split <;> split <;> omega
  | amount n hPc hAmount =>
    simp only [potential, credit, hPc, price, bodyCredit, List.length_nil]
    omega
  | generateBurst droneNum data amount j packetsToSend hPc hMore =>
    simp only [potential, credit, hPc, price, bodyCredit, List.length_append, List.length_singleton]
    omega
  | burstGenerated amount j packetsToSend hPc hDone =>
    rw [hPc] at hOpen hPending
    obtain ⟨hLength, -, -⟩ := hPending
    have hTwo : 2 ≤ amount := hOpen
    simp only [potential, credit, hPc, price, bodyCredit]
    omega
  | sendBurst packet packetsToSend hPc =>
    rw [hPc] at hPending
    have hLeft : s.sentPacketsAmount + ((packetsToSend.length + 1 : ℕ) : ℤ) ≤
        config.maxPkgsAmount + 1 := hPending
    obtain ⟨hSent, hI⟩ := h.increments hBudget hLimit (by omega)
    simp only [potential, credit, hPc, price, bodyCredit, State.send, State.count, State.pushValid,
      hSent, hI, List.length_cons]
    split <;> split <;> omega
  | burstSent hPc =>
    simp only [potential, credit, hPc, price, bodyCredit, List.length_nil]
    omega

theorem step_paid (hMax : 0 ≤ config.maxPkgsAmount) (hLimit : config.maxPkgsAmount < intMax)
    (hBatch : 0 < config.batchSize) (h : Budget config 1 s ∧ Batched config s)
    (hStep : step config s a = some s') :
    (Budget config 1 s' ∧ Batched config s') ∧ potential s' + price a ≤ potential s := by
  obtain ⟨hBudget, hBatched⟩ := h
  have hEffect := step_effect hStep
  refine ⟨⟨step_budget hMax hLimit hBudget hStep,
    effect_batched hMax hLimit hBudget hBatched hEffect⟩, ?_⟩
  by_cases hLoops : s.pc ∈ [.setUp, .connecting, .connected]
  · exact start_paid hLoops hStep
  by_cases hInner : s.pc = .innerTest
  · exact innerTest_paid hBatch hBatched hInner hStep
  by_cases hScenario : s.pc = .scenario
  · exact scenario_paid hScenario hStep
  exact effect_paid hLimit hBudget hBatched hLoops hInner hScenario hEffect

/-- What has been spent in advance is owed by packets that are still to be sent. -/
theorem potential_bounded (hBudget : Budget config 1 s) (h : Batched config s) :
    -(9 * (config.maxPkgsAmount + 1)) ≤ potential s := by
  have hBounded := hBudget.bounded
  have hPending := hBudget.pending
  have hOpen := h.batchOpen
  cases hPc : s.pc with
  | scenario | generate scenario | splitIdx packetToSend | chance packetToSend
  | targetByte packetToSend | bit packetToSend targetByte | amount =>
    rw [hPc] at hPending
    simp only [Pending] at hPending
    simp only [potential, credit, hPc, bodyCredit]
    omega
  | garbageLen | garbageBytes garbageLen =>
    rw [hPc] at hOpen
    simp only [BatchOpen] at hOpen
    have hNonneg := h.nonneg
    simp only [potential, credit, hPc, bodyCredit]
    omega
  | generateBurst amount j packetsToSend =>
    rw [hPc] at hPending hOpen
    simp only [Pending] at hPending
    simp only [BatchOpen] at hOpen
    simp only [potential, credit, hPc, bodyCredit]
    omega
  | sendBurst packetsToSend =>
    rw [hPc] at hPending
    simp only [Pending] at hPending
    simp only [potential, credit, hPc, bodyCredit]
    omega
  | _ =>
    simp only [potential, credit, hPc, bodyCredit]
    omega

theorem price_eq (a : Action) :
    price a = (if a.works then 1 else 0) - 4 * (if a.sendsGarbage then 1 else 0) := by
  cases a with
  | connect succeeds => cases succeeds <;> rfl
  | _ => rfl

/-! ## A step that is left -/

def GarbageSized : Pc → Prop
  | .garbageBytes garbageLen => 0 ≤ garbageLen
  | _ => True

theorem garbageSized_switch (config : Configuration) (s : State) (n : ℤ) :
    GarbageSized (switch config s n) := by
  unfold switch
  extract_lets scenario
  split_ifs <;> trivial

theorem step_garbageSized (h : GarbageSized s.pc) (hStep : step config s a = some s') :
    GarbageSized s'.pc := by
  cases step_effect hStep with
  | signalHandler => exact h
  | before _ pc hPc hNext =>
    simp only [List.mem_cons, List.not_mem_nil, or_false] at hNext
    rcases hNext with rfl | rfl | rfl | rfl
    all_goals trivial
  | scenario n hPc => exact garbageSized_switch config s n
  | garbageLen n hPc =>
    obtain ⟨hDraw, -⟩ := Option.ite_none_right_eq_some.mp hStep
    simp only [distribution, hPc, Option.mem_some_iff, forall_eq', Range.Contains] at hDraw
    change 0 ≤ n
    omega
  | _ => trivial

theorem garbageSized_of_reaches (hRun : (simulator config).Reaches {} s) : GarbageSized s.pc := by
  refine hRun.invariant (fun s => GarbageSized s.pc) ?_ ?_
  · exact trivial
  · intro s s' a h hStep
    exact step_garbageSized h hStep

/-- Until the thread has returned, some draw or system call takes it on. -/
theorem exists_works (hLimit : config.maxPkgsAmount < intMax) (hBudget : Budget config 1 s)
    (hWhole : WholePacket s.pc) (hSized : GarbageSized s.pc) (hGaveUp : s.pc ≠ .gaveUp)
    (hReturned : s.pc ≠ .returned) :
    ∃ a : Action, a.works = true ∧ (step config s a).isSome = true := by
  have hRanges := (distribution_nonEmpty_iff hWhole).mpr fun hPc => hBudget.remaining_inside hLimit hPc
  cases hPc : s.pc with
  | gaveUp => exact absurd hPc hGaveUp
  | returned => exact absurd hPc hReturned
  | setUp => exact ⟨.setUp true, rfl, by simp [step, hPc]⟩
  | connecting => exact ⟨.connect true, rfl, by simp [step, hPc]⟩
  | connected | innerTest | sleep => exact ⟨.proceed, rfl, by simp [step, proceed, hPc]⟩
  | outerTest =>
    refine ⟨.proceed, rfl, ?_⟩
    simp only [step, proceed, hPc]
    split <;> rfl
  | sendBurst packetsToSend =>
    refine ⟨.proceed, rfl, ?_⟩
    cases packetsToSend <;> simp [step, proceed, hPc]
  | scenario => exact ⟨.draw 0, rfl, by simp [step, drawn, distribution, hPc, Range.Contains]⟩
  | garbageLen => exact ⟨.draw 5, rfl, by simp [step, drawn, distribution, hPc, Range.Contains]⟩
  | bit packetToSend targetByte =>
    exact ⟨.draw 0, rfl, by simp [step, drawn, distribution, hPc, Range.Contains]⟩
  | chance packetToSend =>
    exact ⟨.draw 1, rfl, by simp [step, drawn, distribution, hPc, Range.Contains]⟩
  | splitIdx packetToSend =>
    simp only [distribution, hPc, Option.mem_some_iff, forall_eq', Range.NonEmpty] at hRanges
    exact ⟨.draw 1, rfl, by simp [step, drawn, distribution, hPc, Range.Contains, hRanges]⟩
  | targetByte packetToSend =>
    simp only [distribution, hPc, Option.mem_some_iff, forall_eq', Range.NonEmpty] at hRanges
    exact ⟨.draw 3, rfl, by simp [step, drawn, distribution, hPc, Range.Contains, hRanges]⟩
  | amount =>
    simp only [distribution, hPc, Option.mem_some_iff, forall_eq', Range.NonEmpty, le_min_iff]
      at hRanges
    exact ⟨.draw 2, rfl, by simp [step, drawn, distribution, hPc, Range.Contains, hRanges.2]⟩
  | generate scenario =>
    refine ⟨.telemetry 1 anyTelemetry, rfl, ?_⟩
    cases scenario <;> simp [step, generated, distribution, hPc, Range.Contains]
  | generateBurst amount j packetsToSend =>
    by_cases hMore : j < amount
    · refine ⟨.telemetry 1 anyTelemetry, rfl, ?_⟩
      simp [step, generated, distribution, hPc, hMore, Range.Contains]
    · exact ⟨.proceed, rfl, by simp [step, proceed, hPc, hMore]⟩
  | garbageBytes garbageLen =>
    rw [hPc] at hSized
    have hNonneg : 0 ≤ garbageLen := hSized
    refine ⟨.garbage (List.replicate garbageLen.toNat 0), rfl, ?_⟩
    simp [step, distribution, hPc, Range.Contains, hNonneg]

/-- In every run the thread takes at most thirteen steps, nine for each packet of the
limit and four for each garbage sequence, failed calls of `connect` apart, and until it
has returned it has a step. -/
theorem work_bounded (config : Configuration) (hMax : 0 ≤ config.maxPkgsAmount)
    (hLimit : config.maxPkgsAmount < intMax) (hBatch : 0 < config.batchSize)
    (actions : List Action) (s : State)
    (hRun : (simulator config).runActions {} actions = some s) :
    (actions.countP Action.works : ℤ) ≤
      13 + 9 * config.maxPkgsAmount + 4 * actions.countP Action.sendsGarbage ∧
    (s.pc = .gaveUp ∨ s.pc = .returned ∨
      ∃ a s', a.works = true ∧ (simulator config).step s a = some s') := by
  have hReaches := StepSystem.Reaches.runActions .refl hRun
  have hStart : Budget config 1 {} ∧ Batched config {} :=
    ⟨budget_init hMax (by decide), by decide, by decide, trivial⟩
  obtain ⟨⟨hBudget, hBatched⟩, hPaid⟩ := (simulator config).runActions_price_le price potential
    (fun h _ hStep => step_paid hMax hLimit hBatch h hStep) hStart (fun _ _ => trivial) hRun
  constructor
  · have hBegin : potential {} = 4 := by decide
    have hEnd := potential_bounded hBudget hBatched
    rw [StepSystem.sum_price_eq price_eq, hBegin] at hPaid
    omega
  · by_cases hGaveUp : s.pc = .gaveUp
    · exact .inl hGaveUp
    by_cases hReturned : s.pc = .returned
    · exact .inr (.inl hReturned)
    obtain ⟨a, hWorks, hStep⟩ := exists_works hLimit hBudget (wholePacket_of_reaches hReaches)
      (garbageSized_of_reaches hReaches) hGaveUp hReturned
    obtain ⟨s', hStep⟩ := Option.isSome_iff_exists.mp hStep
    exact .inr (.inr ⟨a, s', hWorks, hStep⟩)

end

/-- A garbage sequence, and then the first of two packets. -/
def garbageThenPacket : List Action :=
  [.setUp true, .connect false, .connect true, .proceed, .proceed, .proceed, .draw 1, .draw 5,
    .garbage [1, 2, 3, 4, 5], .proceed, .draw 0, .telemetry 1 anyTelemetry]

theorem work_bounded_garbageThenPacket :
    ∃ s, (simulator twoPackets).runActions {} garbageThenPacket = some s ∧
      s.sentPacketsAmount = 1 ∧ s.garbageSequencesCount = 1 ∧
      (garbageThenPacket.countP Action.works : ℤ) ≤
        13 + 9 * twoPackets.maxPkgsAmount + 4 * garbageThenPacket.countP Action.sendsGarbage ∧
      (s.pc = .gaveUp ∨ s.pc = .returned ∨
        ∃ a s', a.works = true ∧ (simulator twoPackets).step s a = some s') := by
  have hRun : (simulator twoPackets).runActions {} garbageThenPacket =
      some (((simulator twoPackets).runActions {} garbageThenPacket).get (by rfl)) :=
    (Option.some_get _).symm
  exact ⟨_, hRun, rfl, rfl,
    work_bounded twoPackets (by decide) (by decide) (by decide) garbageThenPacket _ hRun⟩

/-! ## After the signal

The inner loop goes on until its batch is full, and the last burst may begin one packet
before that. -/

/-- What the batch still has to count, by the place in the loop body. -/
def BatchFits (config : Configuration) (i : ℤ) : Pc → Prop
  | .scenario | .generate _ | .splitIdx _ | .chance _ | .targetByte _ | .bit _ _ | .amount =>
    i < config.batchSize
  | .generateBurst amount _ _ => i + amount ≤ config.batchSize + 4
  | .sendBurst packetsToSend => i + packetsToSend.length ≤ config.batchSize + 4
  | _ => i ≤ config.batchSize + 4

section

variable {config : Configuration} {s s' : State} {a : Action}

theorem batchFits_switch (hBatch : s.i < config.batchSize) (n : ℤ) :
    BatchFits config s.i (switch config s n) := by
  have hLess : s.i ≤ config.batchSize + 4 := by omega
  unfold switch
  extract_lets scenario
  split_ifs
  · exact hBatch
  · exact hLess
  · exact hBatch
  · exact hBatch
  · exact hBatch
  · exact hLess

theorem effect_batchFits (hLimit : config.maxPkgsAmount < intMax) (hBatch : 0 < config.batchSize)
    (hBudget : Budget config 1 s) (hBatched : Batched config s) (h : BatchFits config s.i s.pc)
    (hEffect : Effect config s a s') : BatchFits config s'.i s'.pc := by
  have hPending := hBudget.pending
  cases hEffect with
  | signalHandler => exact h
  | before _ pc hPc hNext =>
    have hLess : s.i ≤ config.batchSize + 4 := by
      simp only [List.mem_cons, List.not_mem_nil, or_false] at hPc
      rcases hPc with hPc | hPc | hPc
      all_goals rwa [hPc] at h
    simp only [List.mem_cons, List.not_mem_nil, or_false] at hNext
    rcases hNext with rfl | rfl | rfl | rfl
    all_goals exact hLess
  | enter hPc hBelow =>
    change (0 : ℤ) ≤ config.batchSize + 4
    omega
  | repeats hPc hMore => exact hMore
  | leave hPc | batchEnds hPc | sleep hPc | garbageLen n hPc | garbage bytes garbageLen hPc
  | fragmented droneNum data hPc | corrupted droneNum data hPc | hit n packetToSend hPc
  | targetByte n packetToSend hPc | generateBurst droneNum data amount j packetsToSend hPc =>
    rw [hPc] at h
    exact h
  | scenario n hPc =>
    rw [hPc] at h
    exact batchFits_switch h n
  | valid droneNum data hPc | splitIdx n packetToSend hPc | spared n packetToSend hPc
  | bit n targetByte packetToSend hPc =>
    rw [hPc] at h hPending
    have hRoom : s.sentPacketsAmount < config.maxPkgsAmount + 1 :=
      lt_add_of_lt_of_nonneg hPending (by decide)
    have hMore : s.i < config.batchSize := h
    obtain ⟨-, hI⟩ := hBatched.increments hBudget hLimit hRoom
    change increment s.i ≤ config.batchSize + 4
    omega
  | amount n hPc hAmount =>
    rw [hPc] at h
    have hMore : s.i < config.batchSize := h
    have hFive : n ≤ 5 := le_trans hAmount.2 (min_le_left _ _)
    change s.i + n ≤ config.batchSize + 4
    omega
  | burstGenerated amount j packetsToSend hPc hDone =>
    rw [hPc] at h hPending
    obtain ⟨hLength, hAmount, -⟩ := hPending
    have hBurst : s.i + amount ≤ config.batchSize + 4 := h
    change s.i + packetsToSend.length ≤ config.batchSize + 4
    omega
  | sendBurst packet packetsToSend hPc =>
    rw [hPc] at h hPending
    have hLeft : s.sentPacketsAmount + ((packetsToSend.length + 1 : ℕ) : ℤ) ≤
        config.maxPkgsAmount + 1 := hPending
    have hBurst : s.i + ((packetsToSend.length + 1 : ℕ) : ℤ) ≤ config.batchSize + 4 := h
    obtain ⟨-, hI⟩ := hBatched.increments hBudget hLimit (by omega)
    change increment s.i + packetsToSend.length ≤ config.batchSize + 4
    omega
  | burstSent hPc =>
    rw [hPc] at h
    have hBurst : s.i + ((0 : ℕ) : ℤ) ≤ config.batchSize + 4 := h
    change s.i ≤ config.batchSize + 4
    omega

/-- What holds once the flag has fallen, `offset` packets having been sent before the
batch. -/
structure Draining (config : Configuration) (offset : ℤ) (s : State) : Prop where
  budget : Budget config 1 s
  batched : Batched config s
  fits : BatchFits config s.i s.pc
  flag : s.keepRunningSystem = false
  sent : s.sentPacketsAmount = offset + s.i

theorem Draining.step {offset : ℤ} (hMax : 0 ≤ config.maxPkgsAmount)
    (hLimit : config.maxPkgsAmount < intMax) (hBatch : 0 < config.batchSize)
    (h : Draining config offset s) (hStep : step config s a = some s') :
    Draining config offset s' := by
  have hEffect := step_effect hStep
  obtain ⟨hBudget, hBatched⟩ := (step_paid hMax hLimit hBatch ⟨h.budget, h.batched⟩ hStep).1
  have hFits := effect_batchFits hLimit hBatch h.budget h.batched h.fits hEffect
  have hPending := h.budget.pending
  have hSum := h.sent
  cases hEffect with
  | signalHandler => exact ⟨hBudget, hBatched, hFits, rfl, hSum⟩
  | enter hPc hBelow => simp [DroneDataSimulator.step, proceed, hPc, h.flag] at hStep
  | valid droneNum data hPc | splitIdx n packetToSend hPc | spared n packetToSend hPc
  | bit n targetByte packetToSend hPc =>
    rw [hPc] at hPending
    have hRoom : s.sentPacketsAmount < config.maxPkgsAmount + 1 :=
      lt_add_of_lt_of_nonneg hPending (by decide)
    obtain ⟨hSent, hI⟩ := h.batched.increments h.budget hLimit hRoom
    refine ⟨hBudget, hBatched, hFits, h.flag, ?_⟩
    change increment s.sentPacketsAmount = offset + increment s.i
    omega
  | sendBurst packet packetsToSend hPc =>
    rw [hPc] at hPending
    have hLeft : s.sentPacketsAmount + ((packetsToSend.length + 1 : ℕ) : ℤ) ≤
        config.maxPkgsAmount + 1 := hPending
    obtain ⟨hSent, hI⟩ := h.batched.increments h.budget hLimit (by omega)
    refine ⟨hBudget, hBatched, hFits, h.flag, ?_⟩
    change increment s.sentPacketsAmount = offset + increment s.i
    omega
  | _ => exact ⟨hBudget, hBatched, hFits, h.flag, hSum⟩

theorem credit_le (s : State) : credit s ≤ 4 := by
  unfold credit
  split
  all_goals try decide
  unfold bodyCredit
  split <;> split <;> omega

/-- The counter of the batch, and what is owed by the packets that are still in it. -/
theorem Draining.bounded {offset : ℤ} (hBatch : 0 < config.batchSize)
    (h : Draining config offset s) :
    s.i ≤ config.batchSize + 4 ∧ 9 * s.i - credit s ≤ 9 * (config.batchSize + 4) := by
  have hFits := h.fits
  have hOpen := h.batched.batchOpen
  have hPending := h.budget.pending
  cases hPc : s.pc with
  | generateBurst amount j packetsToSend =>
    rw [hPc] at hFits hOpen hPending
    simp only [BatchFits] at hFits
    simp only [BatchOpen] at hOpen
    simp only [Pending] at hPending
    simp only [credit, hPc, bodyCredit]
    omega
  | _ =>
    rw [hPc] at hFits
    simp only [BatchFits] at hFits
    simp only [credit, hPc, bodyCredit]
    omega

theorem batchFits_of_reaches (hMax : 0 ≤ config.maxPkgsAmount)
    (hLimit : config.maxPkgsAmount < intMax) (hBatch : 0 < config.batchSize)
    (hRun : (simulator config).Reaches {} s) :
    (Budget config 1 s ∧ Batched config s) ∧ BatchFits config s.i s.pc := by
  refine hRun.invariant
    (fun s => (Budget config 1 s ∧ Batched config s) ∧ BatchFits config s.i s.pc) ?_ ?_
  · refine ⟨⟨budget_init hMax (by decide), by decide, by decide, trivial⟩, ?_⟩
    change (0 : ℤ) ≤ config.batchSize + 4
    omega
  · rintro s s' a ⟨hBoth, hFits⟩ hStep
    exact ⟨(step_paid hMax hLimit hBatch hBoth hStep).1,
      effect_batchFits hLimit hBatch hBoth.1 hBoth.2 hFits (step_effect hStep)⟩

/-- Behind the signal the thread sends what is missing in its batch and four packets
more at most, and takes no more steps than these and the garbage need. -/
theorem sent_after_signal (config : Configuration) (hMax : 0 ≤ config.maxPkgsAmount)
    (hLimit : config.maxPkgsAmount < intMax) (hBatch : 0 < config.batchSize) (s s' : State)
    (hReaches : (simulator config).Reaches {} s) (hFlag : s.keepRunningSystem = false)
    (actions : List Action) (hRun : (simulator config).runActions s actions = some s') :
    s'.sentPacketsAmount ≤ s.sentPacketsAmount + (config.batchSize - s.i) + 4 ∧
    (actions.countP Action.works : ℤ) ≤
      40 + 9 * (config.batchSize - s.i) + 4 * actions.countP Action.sendsGarbage := by
  obtain ⟨⟨hBudget, hBatched⟩, hFits⟩ := batchFits_of_reaches hMax hLimit hBatch hReaches
  have hStart : Draining config (s.sentPacketsAmount - s.i) s :=
    ⟨hBudget, hBatched, hFits, hFlag, by omega⟩
  obtain ⟨hEnd, hPaid⟩ := (simulator config).runActions_price_le price potential
    (fun h _ hStep => ⟨h.step hMax hLimit hBatch hStep,
      (step_paid hMax hLimit hBatch ⟨h.budget, h.batched⟩ hStep).2⟩)
    hStart (fun _ _ => trivial) hRun
  obtain ⟨hBound, hOwed⟩ := hEnd.bounded hBatch
  have hSent := hEnd.sent
  have hCredit := credit_le s
  rw [StepSystem.sum_price_eq price_eq] at hPaid
  simp only [potential] at hPaid
  constructor
  · omega
  · omega

end

def tenPackets : Configuration :=
  { twoPackets with maxPkgsAmount := 10, maxPkgsAmount_inRange := by decide }

def untilScenario : List Action :=
  [.setUp true, .connect true, .proceed, .proceed, .proceed, .signalHandler]

def burstOfFive : List Action :=
  [.draw 4, .draw 5, .telemetry 1 anyTelemetry, .telemetry 1 anyTelemetry,
    .telemetry 1 anyTelemetry, .telemetry 1 anyTelemetry, .telemetry 1 anyTelemetry, .proceed,
    .proceed, .proceed, .proceed, .proceed, .proceed, .proceed, .proceed, .proceed, .proceed]

/-- The signal comes before the scenario of a batch of one is drawn. -/
theorem sent_after_signal_burst_of_five :
    ∃ s s' : State, s.sentPacketsAmount = 0 ∧ s.i = 0 ∧ s.keepRunningSystem = false ∧
      s'.pc = .returned ∧ s'.sentPacketsAmount = 5 ∧
      s'.sentPacketsAmount ≤ s.sentPacketsAmount + (tenPackets.batchSize - s.i) + 4 ∧
      (burstOfFive.countP Action.works : ℤ) ≤ 40 + 9 * (tenPackets.batchSize - s.i) +
        4 * burstOfFive.countP Action.sendsGarbage := by
  have hBefore : (simulator tenPackets).runActions {} untilScenario =
      some (((simulator tenPackets).runActions {} untilScenario).get (by rfl)) :=
    (Option.some_get _).symm
  have hReaches := StepSystem.Reaches.runActions .refl hBefore
  have hRun : (simulator tenPackets).runActions _ burstOfFive =
      some (((simulator tenPackets).runActions
        (((simulator tenPackets).runActions {} untilScenario).get (by rfl)) burstOfFive).get (by rfl)) :=
    (Option.some_get _).symm
  exact ⟨_, _, rfl, rfl, rfl, rfl, rfl, sent_after_signal tenPackets (by decide) (by decide)
    (by decide) _ _ hReaches rfl burstOfFive hRun⟩

end CounterDroneServer.DroneDataSimulator

import CounterDroneServer.LockFree.SPSCFifo

/-!
# The ring is wait-free

Neither thread ever has to try again. A call of either ends after a number of its own
steps that the other thread cannot change; the batch drain moves the values that it
found, never those that are pushed meanwhile.
-/

set_option autoImplicit false

namespace CounterDroneServer.SPSCQueue

universe u

variable {T : Type u}

def Action.ofProducer : Action T → Bool
  | .callPush _ | .producerLoadTail | .producerLoadHead | .writeCell | .storeTail => true
  | _ => false

def Action.ofConsumer : Action T → Bool
  | .callPop | .callPopAll | .consumerLoadHead | .consumerLoadTail | .readCell | .moveCell
  | .storeHead => true
  | _ => false

def Action.startsCall : Action T → Bool
  | .callPush _ | .callPop | .callPopAll => true
  | _ => false

/-- The most steps to the end of the call. -/
def ProducerPc.ownSteps : ProducerPc T → Nat
  | .idle => 0
  | .push _ => 4
  | .tailLoaded _ _ => 3
  | .writing _ _ _ => 2
  | .storing _ _ => 1

def ConsumerPc.ownSteps (capacity : Nat) : ConsumerPc T → Nat
  | .idle => 0
  | .pop => 4
  | .popHeadLoaded _ => 3
  | .popReading _ => 2
  | .popStoring _ _ => 1
  | .popAll => capacity + 3
  | .popAllHeadLoaded _ => capacity + 2
  | .popAllMoving _ _ outData _ => capacity + 1 - outData.length

section

variable {capacity : Nat} {movedFrom : T → T} {s s' : State T} {a : Action T}

theorem producerStep_ownSteps (hOther : a.startsCall = false)
    (hStep : producerStep capacity s a = some s') :
    s'.producer.ownSteps + 1 ≤ s.producer.ownSteps := by
  cases a with
  | callPush data => cases hOther
  | producerLoadTail | writeCell | storeTail =>
    simp only [producerStep] at hStep
    split at hStep
    · rename_i hPc
      cases hStep
      rw [hPc]
      exact Nat.le_refl _
    · cases hStep
  | producerLoadHead =>
    simp only [producerStep] at hStep
    split at hStep
    · rename_i hPc
      rw [hPc]
      split at hStep
      · cases hStep
        exact Nat.le_add_left 1 2
      · cases hStep
        exact Nat.le_refl _
    · cases hStep
  | _ => cases hStep

/-- The batch drain moves no more values than were stored when it loaded the tail. -/
theorem consumerStep_ownSteps (h : Fifo capacity s) (hOther : a.startsCall = false)
    (hStep : consumerStep capacity movedFrom s a = some s') :
    s'.consumer.ownSteps capacity + 1 ≤ s.consumer.ownSteps capacity := by
  have hConsumer := h.consumer
  have hBound := h.bound
  cases a with
  | callPop | callPopAll => cases hOther
  | consumerLoadHead =>
    simp only [consumerStep] at hStep
    split at hStep
    · rename_i hPc
      cases hStep
      rw [hPc]
      exact Nat.le_refl _
    · rename_i hPc
      cases hStep
      rw [hPc]
      exact Nat.le_refl _
    · cases hStep
  | consumerLoadTail =>
    simp only [consumerStep] at hStep
    split at hStep
    · rename_i hPc
      rw [hPc]
      split at hStep
      · cases hStep
        exact Nat.le_add_left 1 2
      · cases hStep
        exact Nat.le_refl _
    · rename_i hPc
      rw [hPc]
      split at hStep
      · cases hStep
        exact Nat.le_add_left 1 (capacity + 1)
      · cases hStep
        exact Nat.le_refl _
    · cases hStep
  | readCell =>
    simp only [consumerStep] at hStep
    split at hStep
    · rename_i hPc
      cases hStep
      rw [hPc]
      exact Nat.le_refl _
    · cases hStep
  | moveCell =>
    simp only [consumerStep] at hStep
    split at hStep
    · rename_i currentHead currentTail outData count hPc
      rw [hPc] at hConsumer
      obtain ⟨hMoved, -, hCurrent, hTail, hLess, hLoaded⟩ := hConsumer
      obtain ⟨hMore, hNext⟩ := Option.ite_none_right_eq_some.mp hStep
      cases hNext
      simp only [hPc, ConsumerPc.ownSteps, List.length_append, List.length_singleton]
      omega
    · cases hStep
  | storeHead =>
    simp only [consumerStep] at hStep
    split at hStep
    · rename_i hPc
      cases hStep
      rw [hPc]
      exact Nat.le_refl _
    · rename_i currentHead currentTail outData count hPc
      rw [hPc] at hConsumer
      obtain ⟨-, -, -, -, hLess, hLoaded⟩ := hConsumer
      obtain ⟨-, hNext⟩ := Option.ite_none_right_eq_some.mp hStep
      cases hNext
      simp only [hPc, ConsumerPc.ownSteps]
      omega
    · cases hStep
  | _ => cases hStep

theorem producerStep_frame (hStep : producerStep capacity s a = some s') :
    a.ofProducer = true ∧ a.ofConsumer = false ∧ s'.consumer = s.consumer := by
  cases a with
  | callPush data | producerLoadTail | writeCell | storeTail =>
    simp only [producerStep] at hStep
    split at hStep
    · cases hStep
      exact ⟨rfl, rfl, rfl⟩
    · cases hStep
  | producerLoadHead =>
    simp only [producerStep] at hStep
    split at hStep
    · split at hStep
      all_goals
        cases hStep
        exact ⟨rfl, rfl, rfl⟩
    · cases hStep
  | _ => cases hStep

theorem consumerStep_frame (hStep : consumerStep capacity movedFrom s a = some s') :
    a.ofProducer = false ∧ a.ofConsumer = true ∧ s'.producer = s.producer := by
  cases a with
  | callPop | callPopAll | readCell =>
    simp only [consumerStep] at hStep
    split at hStep
    · cases hStep
      exact ⟨rfl, rfl, rfl⟩
    · cases hStep
  | consumerLoadHead =>
    simp only [consumerStep] at hStep
    split at hStep
    · cases hStep
      exact ⟨rfl, rfl, rfl⟩
    · cases hStep
      exact ⟨rfl, rfl, rfl⟩
    · cases hStep
  | consumerLoadTail =>
    simp only [consumerStep] at hStep
    split at hStep
    · split at hStep
      all_goals
        cases hStep
        exact ⟨rfl, rfl, rfl⟩
    · split at hStep
      all_goals
        cases hStep
        exact ⟨rfl, rfl, rfl⟩
    · cases hStep
  | moveCell =>
    simp only [consumerStep] at hStep
    split at hStep
    · obtain ⟨-, hNext⟩ := Option.ite_none_right_eq_some.mp hStep
      cases hNext
      exact ⟨rfl, rfl, rfl⟩
    · cases hStep
  | storeHead =>
    simp only [consumerStep] at hStep
    split at hStep
    · cases hStep
      exact ⟨rfl, rfl, rfl⟩
    · obtain ⟨-, hNext⟩ := Option.ite_none_right_eq_some.mp hStep
      cases hNext
      exact ⟨rfl, rfl, rfl⟩
    · cases hStep
  | _ => cases hStep

theorem step_producer (hOther : a.ofProducer = true → a.startsCall = false)
    (hStep : step capacity movedFrom s a = some s') :
    s'.producer.ownSteps + (if a.ofProducer then 1 else 0) ≤ s.producer.ownSteps := by
  rcases Option.or_eq_some_iff.mp hStep with hProducer | ⟨-, hConsumer⟩
  · obtain ⟨hOwn, -, -⟩ := producerStep_frame hProducer
    rw [if_pos hOwn]
    exact producerStep_ownSteps (hOther hOwn) hProducer
  · obtain ⟨hOwn, -, hSame⟩ := consumerStep_frame hConsumer
    rw [hOwn, hSame]
    exact Nat.le_refl _

theorem step_consumer (h : Fifo capacity s) (hOther : a.ofConsumer = true → a.startsCall = false)
    (hStep : step capacity movedFrom s a = some s') :
    s'.consumer.ownSteps capacity + (if a.ofConsumer then 1 else 0) ≤
      s.consumer.ownSteps capacity := by
  rcases Option.or_eq_some_iff.mp hStep with hProducer | ⟨-, hConsumer⟩
  · obtain ⟨-, hOwn, hSame⟩ := producerStep_frame hProducer
    rw [hOwn, hSame]
    exact Nat.le_refl _
  · obtain ⟨-, hOwn, -⟩ := consumerStep_frame hConsumer
    rw [if_pos hOwn]
    exact consumerStep_ownSteps h (hOther hOwn) hConsumer

/-! ## The next step is enabled -/

theorem producer_enabled (capacity : Nat) (movedFrom : T → T) (hPc : s.producer ≠ .idle) :
    ∃ a : Action T, a.ofProducer = true ∧ a.startsCall = false ∧
      (step capacity movedFrom s a).isSome = true := by
  cases hAt : s.producer with
  | idle => exact absurd hAt hPc
  | push data => exact ⟨.producerLoadTail, rfl, rfl, by simp [step, producerStep, hAt]⟩
  | tailLoaded data currentTail =>
    refine ⟨.producerLoadHead, rfl, rfl, ?_⟩
    simp only [step, producerStep, hAt]
    split <;> rfl
  | writing data currentTail nextTail =>
    exact ⟨.writeCell, rfl, rfl, by simp [step, producerStep, hAt]⟩
  | storing data nextTail => exact ⟨.storeTail, rfl, rfl, by simp [step, producerStep, hAt]⟩

theorem consumer_enabled (capacity : Nat) (movedFrom : T → T) (hPc : s.consumer ≠ .idle) :
    ∃ a : Action T, a.ofConsumer = true ∧ a.startsCall = false ∧
      (step capacity movedFrom s a).isSome = true := by
  cases hAt : s.consumer with
  | idle => exact absurd hAt hPc
  | pop | popAll =>
    exact ⟨.consumerLoadHead, rfl, rfl, by simp [step, producerStep, consumerStep, hAt]⟩
  | popHeadLoaded currentHead | popAllHeadLoaded currentHead =>
    refine ⟨.consumerLoadTail, rfl, rfl, ?_⟩
    simp only [step, producerStep, consumerStep, hAt, Option.none_or]
    split <;> rfl
  | popReading currentHead =>
    exact ⟨.readCell, rfl, rfl, by simp [step, producerStep, consumerStep, hAt]⟩
  | popStoring currentHead outData =>
    exact ⟨.storeHead, rfl, rfl, by simp [step, producerStep, consumerStep, hAt]⟩
  | popAllMoving currentHead currentTail outData count =>
    by_cases hDone : currentHead = currentTail
    · exact ⟨.storeHead, rfl, rfl, by simp [step, producerStep, consumerStep, hAt, hDone]⟩
    · exact ⟨.moveCell, rfl, rfl, by simp [step, producerStep, consumerStep, hAt, hDone]⟩

/-- In every interleaving a call of either thread ends after at most the steps that
`ownSteps` gives it, whatever the other thread does, and its next step is enabled. -/
theorem call_waitFree [Inhabited T] (capacity : Nat) (hCapacity : capacity < sizeRange - 1)
    (movedFrom : T → T) (s s' : State T) (hReaches : (queue capacity movedFrom).Reaches init s)
    (actions : List (Action T)) (hRun : (queue capacity movedFrom).runActions s actions = some s') :
    ((∀ a ∈ actions, a.ofProducer = true → a.startsCall = false) →
      actions.countP Action.ofProducer ≤ s.producer.ownSteps) ∧
    ((∀ a ∈ actions, a.ofConsumer = true → a.startsCall = false) →
      actions.countP Action.ofConsumer ≤ s.consumer.ownSteps capacity) ∧
    (s'.producer ≠ .idle → ∃ a : Action T, a.ofProducer = true ∧ a.startsCall = false ∧
      ((queue capacity movedFrom).step s' a).isSome = true) ∧
    (s'.consumer ≠ .idle → ∃ a : Action T, a.ofConsumer = true ∧ a.startsCall = false ∧
      ((queue capacity movedFrom).step s' a).isSome = true) := by
  refine ⟨?_, ?_, producer_enabled capacity movedFrom, consumer_enabled capacity movedFrom⟩
  · intro hCall
    have hCount := (queue capacity movedFrom).runActions_countP_le Action.ofProducer
      (fun s => s.producer.ownSteps) (fun _ hOther hStep => ⟨trivial, step_producer hOther hStep⟩)
      trivial hCall hRun
    omega
  · intro hCall
    have hCount := (queue capacity movedFrom).runActions_countP_le Action.ofConsumer
      (fun s => s.consumer.ownSteps capacity)
      (fun {s s' a} (h : (queue capacity movedFrom).Reaches init s) hOther hStep =>
        ⟨h.step a trivial hStep, step_consumer (fifo_of_reaches hCapacity h) hOther hStep⟩)
      hReaches hCall hRun
    omega

end

/-- A full ring is drained, and a push between the steps is refused; only the store of
the head is left. -/
theorem call_waitFree_full :
    let drain : List (Action Nat) := [.consumerLoadHead, .producerLoadTail, .consumerLoadTail,
      .moveCell, .producerLoadHead, .moveCell]
    ∃ s s' : State Nat, s.producer = .push 7 ∧ s.consumer = .popAll ∧ s'.producer = .idle ∧
      s'.consumer = .popAllMoving 2 2 [5, 6] 2 ∧
      drain.countP Action.ofProducer ≤ s.producer.ownSteps ∧
      drain.countP Action.ofConsumer ≤ s.consumer.ownSteps 2 ∧
      ∃ a : Action Nat, a.ofConsumer = true ∧ a.startsCall = false ∧
        ((queue 2 id).step s' a).isSome = true := by
  intro drain
  have hSchedule : (queue 2 id).runActions (init : State Nat)
      [.callPush 5, .producerLoadTail, .producerLoadHead, .writeCell, .storeTail, .callPush 6,
        .producerLoadTail, .producerLoadHead, .writeCell, .storeTail, .callPush 7,
        .callPopAll] = some _ := rfl
  have hReaches := StepSystem.Reaches.runActions .refl hSchedule
  obtain ⟨hProducer, hConsumer, -, hEnabled⟩ :=
    call_waitFree 2 (by decide) id _ _ hReaches drain rfl
  refine ⟨_, _, ?_, ?_, ?_, ?_, hProducer (by decide), hConsumer (by decide), hEnabled ?_⟩
  · rfl
  · rfl
  · rfl
  · rfl
  · simp

end CounterDroneServer.SPSCQueue

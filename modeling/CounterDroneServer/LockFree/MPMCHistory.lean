import CounterDroneServer.LockFree.MPMCProgress

/-!
# Accepted calls in the order of their exchanges

An accepted push or pop takes effect at the compare-exchange that reserves its
cell. Put in this order, the accepted calls of all threads are a history of the bounded
list queue, although an item may be written long after its push has taken effect.
-/

set_option autoImplicit false

namespace CounterDroneServer.MPMCQueue

open BoundedQueue TicketRing

universe u v

variable {T : Type u} {τ : Type v} {m : Nat} {mask : SizeT}

/-- The accepted call that takes effect when a thread goes from `pc` to `pc'`. -/
def effect (mask : SizeT) (q : Shared T) : Pc T → Pc T → List (Call T × Result T)
  | .pushExchange data _, .pushWrite _ _ => [(.push data, .pushed true)]
  | .popExchange pos, .popRead _ => [(.pop, .popped (some (q.cell mask pos).data))]
  | _, _ => []

def accepted (mask : SizeT) (s : State τ T) (a : τ × Access T) (s' : State τ T) :
    List (Call T × Result T) :=
  effect mask s.shared (s.pcs a.1) (s'.pcs a.1)

/-- The queue together with the history of the accepted calls. -/
def queueHistory [DecidableEq τ] (mask : SizeT) :
    StepSystem (State τ T × List (Call T × Result T)) (τ × Access T) :=
  (queue mask).recording (accepted mask)

/-- The history accounts for every item that a thread has in its hands. -/
structure Accounted (m : Nat) (s : State τ T) (history : List (Call T × Result T)) : Prop where
  legal : Legal m history
  pushes : (pushedItems history).length = s.shared.pushTickets.length
  pops : (poppedItems history).length = s.shared.popTickets.length
  writing : ∀ u data pos, s.pcs u = .pushWrite data pos ∨ s.pcs u = .pushStore data pos →
    (pushedItems history)[pos.toNat]? = some data
  stored : ∀ e ∈ s.shared.stored, (pushedItems history)[e.1.toNat]? = some e.2
  returned : ∀ e ∈ s.shared.returned, (poppedItems history)[e.1.toNat]? = some e.2

theorem accounted_init [Inhabited T] : Accounted m (init : State τ T) [] where
  legal := rfl
  pushes := rfl
  pops := rfl
  writing _ _ _ h := by rcases h with h | h <;> cases h
  stored _ h := absurd h List.not_mem_nil
  returned _ h := absurd h List.not_mem_nil

/-! ## What each step does to the history -/

theorem getElem?_concat_of_some {α : Type u} {l : List α} {i : Nat} {x : α} (h : l[i]? = some x)
    (y : α) : (l ++ [y])[i]? = some x := by
  obtain ⟨hi, -⟩ := List.getElem?_eq_some_iff.mp h
  rwa [List.getElem?_append_left hi]

/-- The item that a pop hands out is the one of its ticket. -/
theorem Accounted.popped (hGeometry : Geometry mask m) {s : State τ T} {u : τ}
    {history : List (Call T × Result T)} (hTicketed : Ticketed m s) (h : Accounted m s history)
    {pos : SizeT} {outData : T} (hPc : s.pcs u = .popStore pos outData) :
    (poppedItems history)[pos.toNat]? = some outData := by
  obtain ⟨hServes, hStored, -⟩ := hTicketed.of_popStore hGeometry hPc
  have hDrawn : pos.toNat < (poppedItems history).length := by
    rw [h.pops]
    cases hServes.lap with
    | reading => assumption
  have hItem := h.stored _ hStored
  rwa [h.legal.pushedItems_eq, List.getElem?_append_left hDrawn] at hItem

section

variable [DecidableEq τ] {s : State τ T} {u : τ} {history : List (Call T × Result T)}

/-- What a thread holds after its step is in the history, if what the stepping thread
holds is. -/
theorem writing_after {q : Shared T} {pc : Pc T} {items : List T}
    (hOthers : ∀ v data pos, s.pcs v = .pushWrite data pos ∨ s.pcs v = .pushStore data pos →
      items[pos.toNat]? = some data)
    (hHere : ∀ data pos, pc = .pushWrite data pos ∨ pc = .pushStore data pos →
      items[pos.toNat]? = some data) (v : τ) (data : T) (pos : SizeT)
    (hPc : (after s u q pc).pcs v = .pushWrite data pos ∨ (after s u q pc).pcs v = .pushStore data pos) :
    items[pos.toNat]? = some data := by
  by_cases hThread : v = u
  · rw [hThread, after_pcs_self] at hPc
    exact hHere data pos hPc
  · rw [after_pcs_of_ne s hThread] at hPc
    exact hOthers v data pos hPc

theorem reservePush_accounted (hGeometry : Geometry mask m) {data : T} {pos : SizeT}
    (hTicketed : Ticketed m s) (h : Accounted m s history) (hPc : s.pcs u = .pushExchange data pos)
    (hPos : s.shared.enqueuePos = pos) :
    Accounted m (after s u { s.shared with
      enqueuePos := pos + 1, pushTickets := s.shared.pushTickets ++ [pos] } (.pushWrite data pos))
      (history ++ [(.push data, .pushed true)]) := by
  have hTicket : pos.toNat = (pushedItems history).length := by
    rw [← hPos, hTicketed.enqueuePos, h.pushes]
  have hSeen := hTicketed.seen u
  rw [hPc] at hSeen
  have hLap := (hTicketed.serves_empty hGeometry hPos hSeen).lap
  have hPushed : pushedItems (history ++ [(.push data, .pushed true)]) = pushedItems history ++ [data] :=
    List.filterMap_append
  have hPopped : poppedItems (history ++ [(.push data, .pushed true)]) = poppedItems history :=
    List.filterMap_append.trans (List.append_nil _)
  have hRoom : (contents m [] (history.map Prod.fst)).length < m := by
    have hLength := congrArg List.length h.legal.pushedItems_eq
    rw [List.length_append, h.pushes, h.pops] at hLength
    rw [h.pushes] at hTicket
    cases hLap with
    | empty => omega
  have hWritten : (pushedItems history ++ [data])[pos.toNat]? = some data := by
    rw [hTicket, List.getElem?_concat_length]
  constructor
  · exact legal_concat_iff.mpr ⟨h.legal, by rw [call_push_room data hRoom]⟩
  · have hDrawn : (s.shared.pushTickets ++ [pos]).length = s.shared.pushTickets.length + 1 :=
      List.length_append
    rw [hPushed, List.length_append, h.pushes]
    exact hDrawn.symm
  · rw [hPopped]
    exact h.pops
  · rw [hPushed]
    refine writing_after (fun v data' pos' hWriting => ?_) fun data' pos' hWriting => ?_
    · exact getElem?_concat_of_some (h.writing v data' pos' hWriting) data
    · rcases hWriting with hWrite | hStore
      · cases hWrite
        exact hWritten
      · cases hStore
  · rw [hPushed]
    exact fun e hMem => getElem?_concat_of_some (h.stored e hMem) data
  · rw [hPopped]
    exact h.returned

theorem reservePop_accounted (hGeometry : Geometry mask m) {pos : SizeT} (hTicketed : Ticketed m s)
    (h : Accounted m s history) (hPc : s.pcs u = .popExchange pos) (hPos : s.shared.dequeuePos = pos) :
    Accounted m (after s u { s.shared with
      dequeuePos := pos + 1, popTickets := s.shared.popTickets ++ [pos] } (.popRead pos))
      (history ++ [(.pop, .popped (some (s.shared.cell mask pos).data))]) := by
  have hTicket : pos.toNat = (poppedItems history).length := by
    rw [← hPos, hTicketed.dequeuePos, h.pops]
  have hSeen := hTicketed.seen u
  rw [hPc] at hSeen
  have hServes := hTicketed.serves_full hGeometry hPos hSeen
  obtain ⟨data, hData⟩ : ∃ data, (s.shared.cell mask pos).data = data := ⟨_, rfl⟩
  have hStored : (pos, data) ∈ s.shared.stored := by
    rw [cell_eq hGeometry] at hData
    rw [← hData]
    cases hServes.role with
    | full _ hStored => exact hStored
  rw [hData]
  have hPushed : pushedItems (history ++ [(.pop, .popped (some data))]) = pushedItems history :=
    List.filterMap_append.trans (List.append_nil _)
  have hPopped : poppedItems (history ++ [(.pop, .popped (some data))]) = poppedItems history ++ [data] :=
    List.filterMap_append
  have hOldest : (contents m [] (history.map Prod.fst))[0]? = some data := by
    have hItem := h.stored _ hStored
    rw [h.legal.pushedItems_eq, hTicket, List.getElem?_append_right (Nat.le_refl _),
      Nat.sub_self] at hItem
    exact hItem
  constructor
  · refine legal_concat_iff.mpr ⟨h.legal, ?_⟩
    cases hItems : contents m [] (history.map Prod.fst) with
    | nil =>
      rw [hItems] at hOldest
      cases hOldest
    | cons item items =>
      rw [hItems] at hOldest
      cases hOldest
      rfl
  · rw [hPushed]
    exact h.pushes
  · have hDrawn : (s.shared.popTickets ++ [pos]).length = s.shared.popTickets.length + 1 :=
      List.length_append
    rw [hPopped, List.length_append, h.pops]
    exact hDrawn.symm
  · rw [hPushed]
    refine writing_after h.writing fun data' pos' hWriting => ?_
    rcases hWriting with hWrite | hStore
    · cases hWrite
    · cases hStore
  · rw [hPushed]
    exact h.stored
  · rw [hPopped]
    exact fun e hMem => getElem?_concat_of_some (h.returned e hMem) data

/-- A step that takes no ticket leaves the history as it is. -/
theorem Accounted.of_no_ticket (h : Accounted m s history) {q : Shared T} {pc : Pc T}
    (hPushes : q.pushTickets = s.shared.pushTickets) (hPops : q.popTickets = s.shared.popTickets)
    (hHere : ∀ data pos, pc = .pushWrite data pos ∨ pc = .pushStore data pos →
      (pushedItems history)[pos.toNat]? = some data)
    (hStored : ∀ e ∈ q.stored, (pushedItems history)[e.1.toNat]? = some e.2)
    (hReturned : ∀ e ∈ q.returned, (poppedItems history)[e.1.toNat]? = some e.2) :
    Accounted m (after s u q pc) (history ++ []) := by
  rw [List.append_nil]
  refine ⟨h.legal, ?_, ?_, writing_after h.writing hHere, hStored, hReturned⟩
  · rw [h.pushes, ← hPushes]
    rfl
  · rw [h.pops, ← hPops]
    rfl

theorem step_accounted (hGeometry : Geometry mask m) {s' : State τ T} {a : τ × Access T}
    (hTicketed : Ticketed m s) (h : Accounted m s history) (hStep : step mask s a = some s') :
    Accounted m s' (history ++ accepted mask s a s') := by
  obtain ⟨⟨q, pc'⟩, hThread, rfl⟩ := Option.map_eq_some_iff.mp hStep
  have hEffect := threadStep_effect hThread
  have hAccepted : accepted mask s a (after s a.1 q pc') = effect mask s.shared (s.pcs a.1) pc' := by
    rw [accepted, after_pcs_self]
  change Accounted m (after s a.1 q pc') (history ++ accepted mask s a (after s a.1 q pc'))
  rw [hAccepted]
  generalize hPc : s.pcs a.1 = pc at hEffect
  cases hEffect with
  | quiet _ _ hBefore hAfter =>
    have hNone : effect mask s.shared pc pc' = [] := by
      cases pc' with
      | pushWrite | popRead => cases hAfter
      | _ => cases pc <;> rfl
    rw [hNone]
    refine h.of_no_ticket rfl rfl (fun data pos hWriting => ?_) h.stored h.returned
    rcases hWriting with rfl | rfl <;> cases hAfter
  | reservePush data pos hPos => exact reservePush_accounted hGeometry hTicketed h hPc hPos
  | reservePop pos hPos => exact reservePop_accounted hGeometry hTicketed h hPc hPos
  | write data pos =>
    refine h.of_no_ticket rfl rfl (fun data' pos' hWriting => ?_) h.stored h.returned
    rcases hWriting with hWrite | hStore
    · cases hWrite
    · cases hStore
      exact h.writing _ _ _ (.inl hPc)
  | publish data pos =>
    refine h.of_no_ticket rfl rfl (fun _ _ hWriting => ?_)
      (StepSystem.forall_mem_concat h.stored (h.writing _ _ _ (.inr hPc))) h.returned
    rcases hWriting with hWrite | hStore
    · cases hWrite
    · cases hStore
  | read pos =>
    refine h.of_no_ticket rfl rfl (fun _ _ hWriting => ?_) h.stored h.returned
    rcases hWriting with hWrite | hStore
    · cases hWrite
    · cases hStore
  | release pos outData =>
    refine h.of_no_ticket rfl rfl (fun _ _ hWriting => ?_) h.stored
      (StepSystem.forall_mem_concat h.returned (h.popped hGeometry hTicketed hPc))
    rcases hWriting with hWrite | hStore
    · cases hWrite
    · cases hStore

end

variable [DecidableEq τ]

/-- In every interleaving the accepted calls, in the order in which they take effect, are
answered as the bounded list queue answers them. The push with ticket `pos` stored the
item of the history's push number `pos`, and the pop with ticket `pos` returned that
of its pop number `pos`. -/
theorem accepted_linearized [Inhabited T] (capacity : SizeT) (hPower : ∃ k, capacity.toNat = 2 ^ k)
    (hCapacity : 2 ≤ capacity.toNat) (s : State τ T) (history : List (Call T × Result T))
    (hRun : (queueHistory (capacityMask capacity)).Reaches (init, []) (s, history))
    (hSmall : successes s < 2 ^ 63) :
    Legal capacity.toNat history ∧
      (∀ e ∈ s.shared.stored, (pushedItems history)[e.1.toNat]? = some e.2) ∧
      ∀ e ∈ s.shared.returned, (poppedItems history)[e.1.toNat]? = some e.2 := by
  obtain ⟨k, hPower⟩ := hPower
  have hGeometry := geometry_of_two_pow hPower hCapacity
  have hAccounted : Known capacity.toNat s ∧
      (successes s < 2 ^ 63 → Accounted capacity.toNat s history) := by
    refine hRun.invariant (fun r => Known capacity.toNat r.1 ∧
      (successes r.1 < 2 ^ 63 → Accounted capacity.toNat r.1 r.2)) ?_ ?_
    · exact ⟨known_init hGeometry, fun _ => accounted_init⟩
    · rintro ⟨s, history⟩ ⟨s', history'⟩ a ⟨hKnown, hBefore⟩ hStep
      obtain ⟨hNext, hHistory⟩ := StepSystem.recording_step_cases hStep
      refine ⟨step_known hGeometry hKnown hNext, fun hSmall => ?_⟩
      have hSmallBefore := Nat.lt_of_le_of_lt (successes_le_of_step hNext) hSmall
      change history' = _ at hHistory
      rw [hHistory]
      exact step_accounted hGeometry (hKnown hSmallBefore).1 (hBefore hSmallBefore) hNext
  have hHere := hAccounted.2 hSmall
  exact ⟨hHere.legal, hHere.stored, hHere.returned⟩

/-- The push of 8 has taken effect but not stored its item, the pop of 7 has not returned. -/
theorem accepted_linearized_pop_between :
    ∃ (s : State Bool Nat) (history : List (Call Nat × Result Nat)),
      s.pcs true = .pushWrite 8 1 ∧ s.pcs false = .popRead 0 ∧
      history = [(.push 7, .pushed true), (.pop, .popped (some 7)), (.push 8, .pushed true)] ∧
      Legal 2 history ∧ ∀ e ∈ s.shared.stored, (pushedItems history)[e.1.toNat]? = some e.2 := by
  have hSchedule : (queueHistory (capacityMask 2)).runActions ((init, []) : State Bool Nat × _)
      [(true, .callPush 7), (true, .loadPos), (true, .loadSequence), (true, .compareExchange false),
        (true, .accessData), (true, .storeSequence), (false, .callPop), (false, .loadPos),
        (false, .loadSequence), (true, .callPush 8), (true, .loadPos), (true, .loadSequence),
        (false, .compareExchange false), (true, .compareExchange false)] = some (_, _) := rfl
  have hRun := StepSystem.Reaches.runActions .refl hSchedule
  obtain ⟨hLegal, hStored, -⟩ := accepted_linearized 2 ⟨1, rfl⟩ (by decide) _ _ hRun (by decide)
  exact ⟨_, _, rfl, rfl, rfl, hLegal, hStored⟩

end CounterDroneServer.MPMCQueue

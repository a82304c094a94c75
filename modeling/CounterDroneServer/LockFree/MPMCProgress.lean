import CounterDroneServer.LockFree.MPMCCalls

/-!
# Refused calls and retries

A push or pop that gives up has looked at the newest position, and either the queue
is full or empty or another thread still works on the cell. A thread in the middle of
a call is never blocked, and goes round again only when another reservation has
succeeded meanwhile or its own compare-exchange has failed spuriously.
-/

set_option autoImplicit false

namespace CounterDroneServer.MPMCQueue

open TicketRing

universe u v

variable {T : Type u} {τ : Type v} {m : Nat} {mask : SizeT}

/-! ## The positions in the threads' hands -/

/-- The position that a pushing thread tries. -/
def Pc.triesPush : Pc T → Option SizeT
  | .pushLoadSequence _ pos | .pushExchange _ pos => some pos
  | _ => none

def Pc.triesPop : Pc T → Option SizeT
  | .popLoadSequence pos | .popExchange pos => some pos
  | _ => none

/-- The counters are never more than a lap apart, and no thread is ahead of them. -/
structure Paced (m : Nat) (s : State τ T) : Prop where
  order : s.shared.popTickets.length ≤ s.shared.pushTickets.length
  room : s.shared.pushTickets.length ≤ s.shared.popTickets.length + m
  triesPush : ∀ u pos, (s.pcs u).triesPush = some pos → pos.toNat ≤ s.shared.pushTickets.length
  triesPop : ∀ u pos, (s.pcs u).triesPop = some pos → pos.toNat ≤ s.shared.popTickets.length

theorem paced_init [Inhabited T] : Paced m (init : State τ T) where
  order := Nat.le_refl _
  room := Nat.zero_le _
  triesPush _ _ h := by cases h
  triesPop _ _ h := by cases h

/-- What is known of the states that any interleaving reaches. -/
def Known (m : Nat) (s : State τ T) : Prop := successes s < 2 ^ 63 → Ticketed m s ∧ Paced m s

theorem known_init [Inhabited T] (hGeometry : Geometry mask m) : Known m (init : State τ T) :=
  fun _ => ⟨ticketed_init hGeometry.atMost, paced_init⟩

/-- A thread goes on with the position that it has, or with the newest one. -/
theorem threadStep_tries {q q' : Shared T} {pc pc' : Pc T} {a : Access T}
    (h : threadStep mask q pc a = some (q', pc')) :
    (∀ pos, pc'.triesPush = some pos → pc.triesPush = some pos ∨ pos = q.enqueuePos) ∧
      ∀ pos, pc'.triesPop = some pos → pc.triesPop = some pos ∨ pos = q.dequeuePos := by
  unfold threadStep at h
  split at h
  case h_3 =>
    cases h
    exact ⟨fun _ hPos => .inr (Option.some.inj hPos).symm, nofun⟩
  case h_8 =>
    cases h
    exact ⟨nofun, fun _ hPos => .inr (Option.some.inj hPos).symm⟩
  case h_4 | h_9 =>
    cases h
    split
    · exact ⟨fun _ hPos => .inl hPos, fun _ hPos => .inl hPos⟩
    · split
      · exact ⟨nofun, nofun⟩
      · exact ⟨nofun, nofun⟩
  case h_5 =>
    split at h
    · cases h
      exact ⟨nofun, nofun⟩
    · cases h
      exact ⟨fun _ hPos => .inr (Option.some.inj hPos).symm, nofun⟩
  case h_10 =>
    split at h
    · cases h
      exact ⟨nofun, nofun⟩
    · cases h
      exact ⟨nofun, fun _ hPos => .inr (Option.some.inj hPos).symm⟩
  case h_13 => cases h
  all_goals
    cases h
    exact ⟨nofun, nofun⟩

section

variable [DecidableEq τ]

/-- The invariant holds as long as the positions do not wrap. -/
theorem step_paced (hGeometry : Geometry mask m) {s s' : State τ T} {a : τ × Access T}
    (hTicketed : Ticketed m s) (h : Paced m s) (hStep : step mask s a = some s') : Paced m s' := by
  obtain ⟨⟨q, pc'⟩, hThread, rfl⟩ := Option.map_eq_some_iff.mp hStep
  obtain ⟨hTriesPush, hTriesPop⟩ := threadStep_tries hThread
  have hCounters : s.shared.pushTickets.length ≤ q.pushTickets.length ∧
      s.shared.popTickets.length ≤ q.popTickets.length ∧
      q.popTickets.length ≤ q.pushTickets.length ∧
      q.pushTickets.length ≤ q.popTickets.length + m := by
    have hOrder := h.order
    have hRoom := h.room
    have hEffect := threadStep_effect hThread
    generalize hPc : s.pcs a.1 = pc at hEffect
    cases hEffect with
    | reservePush data pos hPos =>
      have hSeen := hTicketed.seen a.1
      rw [hPc] at hSeen
      have hLap := (hTicketed.serves_empty hGeometry hPos hSeen).lap
      have hTicket := hTicketed.enqueuePos
      rw [hPos] at hTicket
      simp only [List.length_append, List.length_singleton]
      cases hLap with
      | empty => omega
    | reservePop pos hPos =>
      have hSeen := hTicketed.seen a.1
      rw [hPc] at hSeen
      have hLap := (hTicketed.serves_full hGeometry hPos hSeen).lap
      have hTicket := hTicketed.dequeuePos
      rw [hPos] at hTicket
      simp only [List.length_append, List.length_singleton]
      cases hLap with
      | full => omega
    | _ => exact ⟨Nat.le_refl _, Nat.le_refl _, hOrder, hRoom⟩
  obtain ⟨hPushes, hPops, hOrder, hRoom⟩ := hCounters
  refine ⟨hOrder, hRoom, fun u pos hPos => ?_, fun u pos hPos => ?_⟩
  · by_cases hThread : u = a.1
    · rw [hThread] at hPos
      change (Function.update s.pcs a.1 pc' a.1).triesPush = some pos at hPos
      rw [Function.update_self] at hPos
      rcases hTriesPush pos hPos with hOld | rfl
      · exact Nat.le_trans (h.triesPush _ _ hOld) hPushes
      · exact Nat.le_trans (Nat.le_of_eq hTicketed.enqueuePos) hPushes
    · change (Function.update s.pcs a.1 pc' u).triesPush = some pos at hPos
      rw [Function.update_of_ne hThread] at hPos
      exact Nat.le_trans (h.triesPush _ _ hPos) hPushes
  · by_cases hThread : u = a.1
    · rw [hThread] at hPos
      change (Function.update s.pcs a.1 pc' a.1).triesPop = some pos at hPos
      rw [Function.update_self] at hPos
      rcases hTriesPop pos hPos with hOld | rfl
      · exact Nat.le_trans (h.triesPop _ _ hOld) hPops
      · exact Nat.le_trans (Nat.le_of_eq hTicketed.dequeuePos) hPops
    · change (Function.update s.pcs a.1 pc' u).triesPop = some pos at hPos
      rw [Function.update_of_ne hThread] at hPos
      exact Nat.le_trans (h.triesPop _ _ hPos) hPops

theorem successes_le_of_step {s s' : State τ T} {a : τ × Access T} (hStep : step mask s a = some s') :
    successes s ≤ successes s' := by
  obtain ⟨⟨q, pc'⟩, hThread, rfl⟩ := Option.map_eq_some_iff.mp hStep
  have hEffect := threadStep_effect hThread
  generalize s.pcs a.1 = pc at hEffect
  cases hEffect with
  | reservePush | reservePop =>
    simp only [successes, List.length_append]
    omega
  | _ => exact Nat.le_refl _

theorem step_known (hGeometry : Geometry mask m) {s s' : State τ T} {a : τ × Access T}
    (h : Known m s) (hStep : step mask s a = some s') : Known m s' := by
  intro hSmall
  obtain ⟨hTicketed, hPaced⟩ := h (Nat.lt_of_le_of_lt (successes_le_of_step hStep) hSmall)
  exact ⟨step_ticketed hGeometry (fun _ => hTicketed) hStep hSmall,
    step_paced hGeometry hTicketed hPaced hStep⟩

theorem known_of_reaches [Inhabited T] (hGeometry : Geometry mask m) {s : State τ T}
    (hRun : (queue mask).Reaches init s) : Known m s :=
  hRun.invariant (Known m) (known_init hGeometry) fun h hStep => step_known hGeometry h hStep

end

/-! ## What a refused call shows -/

def PushUnderWay (s : State τ T) (ticket : Nat) : Prop :=
  ∃ v pos, pos.toNat = ticket ∧ ∃ data, s.pcs v = .pushWrite data pos ∨ s.pcs v = .pushStore data pos

def PopUnderWay (s : State τ T) (ticket : Nat) : Prop :=
  ∃ v pos, pos.toNat = ticket ∧ (s.pcs v = .popRead pos ∨ ∃ outData, s.pcs v = .popStore pos outData)

/-- The thread's next step makes its call return without a reservation. -/
def GivesUp (mask : SizeT) (s : State τ T) (u : τ) : Prop :=
  (threadStep mask s.shared (s.pcs u) .loadSequence).map Prod.snd = some .idle

theorem Serves.sequence_lt {s : State τ T} {pos : SizeT} {phase : Phase} (h : Serves m s pos phase)
    (hCells : 0 < m) (hSmall : successes s + m ≤ 2 ^ 63) :
    (cellOf m s pos).sequence.toNat < 2 ^ 63 := by
  have hLap := h.lap
  unfold successes at hSmall
  cases hLap with
  | empty | writing | full | reading => omega

theorem givesUp_push_iff {s : State τ T} {u : τ} {data : T} {pos : SizeT}
    (hPc : s.pcs u = .pushLoadSequence data pos) (hPos : pos.toNat < 2 ^ 63)
    (hSequence : (s.shared.cell mask pos).sequence.toNat < 2 ^ 63) :
    GivesUp mask s u ↔ (s.shared.cell mask pos).sequence.toNat < pos.toNat := by
  have hDif := toInt_sub_of_small hSequence hPos
  rw [GivesUp, hPc]
  simp only [threadStep, Option.map_some, Option.some.injEq, hDif]
  split
  · exact iff_of_false (fun h => by cases h) (by omega)
  · split
    · exact iff_of_true rfl (by omega)
    · exact iff_of_false (fun h => by cases h) (by omega)

theorem givesUp_pop_iff {s : State τ T} {u : τ} {pos : SizeT}
    (hPc : s.pcs u = .popLoadSequence pos) (hPos : pos.toNat + 1 < 2 ^ 63)
    (hSequence : (s.shared.cell mask pos).sequence.toNat < 2 ^ 63) :
    GivesUp mask s u ↔ (s.shared.cell mask pos).sequence.toNat < pos.toNat + 1 := by
  have hNext : (pos + 1).toNat = pos.toNat + 1 := toNat_add_one (by omega)
  have hDif := toInt_sub_of_small hSequence (hNext ▸ hPos)
  rw [hNext] at hDif
  rw [GivesUp, hPc]
  simp only [threadStep, Option.map_some, Option.some.injEq, hDif]
  split
  · exact iff_of_false (fun h => by cases h) (by omega)
  · split
    · exact iff_of_true rfl (by omega)
    · exact iff_of_false (fun h => by cases h) (by omega)

section

variable {s : State τ T} {u : τ}

theorem push_givesUp_iff_of_serves (hGeometry : Geometry mask m) (hTicketed : Ticketed m s)
    (hPaced : Paced m s) (hSmall : successes s + m ≤ 2 ^ 63) {data : T} {pos ticket : SizeT}
    {phase : Phase} (hPc : s.pcs u = .pushLoadSequence data pos) (hServes : Serves m s ticket phase)
    (hCell : ticket.toNat % m = pos.toNat % m) :
    GivesUp mask s u ↔ pos = s.shared.enqueuePos ∧
      (s.shared.pushTickets.length = s.shared.popTickets.length + m ∨
        phase = .reading ∧ ticket.toNat + m = s.shared.pushTickets.length) := by
  have hSame : s.shared.cell mask pos = cellOf m s ticket := by
    rw [cell_eq hGeometry, cellOf, cellOf, hCell]
  have hSequence := hServes.sequence_lt hGeometry.cells_pos hSmall
  have hPos := hPaced.triesPush u pos (by rw [hPc]; rfl)
  have hCells := hGeometry.atLeastTwo
  have hNewest : pos = s.shared.enqueuePos ↔ pos.toNat = s.shared.pushTickets.length := by
    rw [← hTicketed.enqueuePos, BitVec.toNat_eq]
  unfold successes at hSmall
  rw [givesUp_push_iff hPc (by omega) (by rwa [hSame]), hSame, hNewest]
  exact hServes.lap.behind_enqueued_iff hCells hPaced.room hCell hPos

theorem pop_givesUp_iff_of_serves (hGeometry : Geometry mask m) (hTicketed : Ticketed m s)
    (hPaced : Paced m s) (hSmall : successes s + m ≤ 2 ^ 63) {pos ticket : SizeT} {phase : Phase}
    (hPc : s.pcs u = .popLoadSequence pos) (hServes : Serves m s ticket phase)
    (hCell : ticket.toNat % m = pos.toNat % m) :
    GivesUp mask s u ↔ pos = s.shared.dequeuePos ∧
      (s.shared.pushTickets.length = s.shared.popTickets.length ∨
        phase = .writing ∧ ticket.toNat = s.shared.popTickets.length) := by
  have hSame : s.shared.cell mask pos = cellOf m s ticket := by
    rw [cell_eq hGeometry, cellOf, cellOf, hCell]
  have hSequence := hServes.sequence_lt hGeometry.cells_pos hSmall
  have hPos := hPaced.triesPop u pos (by rw [hPc]; rfl)
  have hCells := hGeometry.atLeastTwo
  have hNewest : pos = s.shared.dequeuePos ↔ pos.toNat = s.shared.popTickets.length := by
    rw [← hTicketed.dequeuePos, BitVec.toNat_eq]
  unfold successes at hSmall
  rw [givesUp_pop_iff hPc (by omega) (by rwa [hSame]), hSame, hNewest]
  exact hServes.lap.behind_dequeued_iff hPaced.order hCell hPos

theorem Serves.popUnderWay {ticket : SizeT} (h : Serves m s ticket .reading) :
    PopUnderWay s ticket.toNat := by
  cases h.role with
  | reading v _ hReading =>
    obtain ⟨hPc, -⟩ | ⟨outData, hPc, -⟩ := hReading
    · exact ⟨v, ticket, rfl, .inl hPc⟩
    · exact ⟨v, ticket, rfl, .inr ⟨outData, hPc⟩⟩

theorem Serves.pushUnderWay {ticket : SizeT} (h : Serves m s ticket .writing) :
    PushUnderWay s ticket.toNat := by
  cases h.role with
  | writing v _ hWriting =>
    obtain ⟨data, hPc | ⟨hPc, -⟩⟩ := hWriting
    · exact ⟨v, ticket, rfl, data, .inl hPc⟩
    · exact ⟨v, ticket, rfl, data, .inr hPc⟩

theorem Ticketed.serves_of_popUnderWay (hGeometry : Geometry mask m) (h : Ticketed m s) {ticket : Nat}
    (hPop : PopUnderWay s ticket) : ∃ pos, pos.toNat = ticket ∧ Serves m s pos .reading := by
  obtain ⟨v, pos, hTicket, hPc | ⟨outData, hPc⟩⟩ := hPop
  · exact ⟨pos, hTicket, (h.of_popRead hGeometry hPc).1⟩
  · exact ⟨pos, hTicket, (h.of_popStore hGeometry hPc).1⟩

theorem Ticketed.serves_of_pushUnderWay (hGeometry : Geometry mask m) (h : Ticketed m s) {ticket : Nat}
    (hPush : PushUnderWay s ticket) : ∃ pos, pos.toNat = ticket ∧ Serves m s pos .writing := by
  obtain ⟨v, pos, hTicket, data, hPc | hPc⟩ := hPush
  · exact ⟨pos, hTicket, (h.of_pushWrite hGeometry hPc).1⟩
  · exact ⟨pos, hTicket, (h.of_pushStore hGeometry hPc).1⟩

end

section

variable [DecidableEq τ]

/-- A push that looks at a cell is refused exactly when its position is the newest and
either every cell is reserved or the pop one lap before it is still under way. -/
theorem push_refused_iff [Inhabited T] (capacity : SizeT) (hPower : ∃ k, capacity.toNat = 2 ^ k)
    (hCapacity : 2 ≤ capacity.toNat) (s : State τ T) (hRun : (queue (capacityMask capacity)).Reaches init s)
    (hSmall : successes s + capacity.toNat ≤ 2 ^ 63) (u : τ) (data : T) (pos : SizeT)
    (hPc : s.pcs u = .pushLoadSequence data pos) :
    GivesUp (capacityMask capacity) s u ↔ pos = s.shared.enqueuePos ∧
      (s.shared.pushTickets.length = s.shared.popTickets.length + capacity.toNat ∨
        ∃ ticket, ticket + capacity.toNat = s.shared.pushTickets.length ∧ PopUnderWay s ticket) := by
  obtain ⟨k, hPower⟩ := hPower
  have hGeometry := geometry_of_two_pow hPower hCapacity
  obtain ⟨hTicketed, hPaced⟩ := known_of_reaches hGeometry hRun (by omega)
  obtain ⟨ticket, phase, hCell, hServes⟩ :=
    hTicketed.cells (pos.toNat % capacity.toNat) (Nat.mod_lt _ hGeometry.cells_pos)
  have hHere := push_givesUp_iff_of_serves hGeometry hTicketed hPaced hSmall hPc hServes hCell
  constructor
  · intro hGivesUp
    obtain ⟨hNewest, hFull | ⟨rfl, hLap⟩⟩ := hHere.mp hGivesUp
    · exact ⟨hNewest, .inl hFull⟩
    · exact ⟨hNewest, .inr ⟨_, hLap, hServes.popUnderWay⟩⟩
  · rintro ⟨hNewest, hFull | ⟨_, hLap, hPop⟩⟩
    · exact hHere.mpr ⟨hNewest, .inl hFull⟩
    · obtain ⟨reader, rfl, hReading⟩ := hTicketed.serves_of_popUnderWay hGeometry hPop
      have hSame : reader.toNat % capacity.toNat = pos.toNat % capacity.toNat := by
        rw [hNewest, hTicketed.enqueuePos, ← hLap, Nat.add_mod_right]
      exact (push_givesUp_iff_of_serves hGeometry hTicketed hPaced hSmall hPc hReading hSame).mpr
        ⟨hNewest, .inr ⟨rfl, hLap⟩⟩

/-- Two cells, and only one item behind the pop that is under way. -/
theorem push_refused_iff_pop_under_way :
    ∃ s : State Bool Nat, s.pcs true = .pushLoadSequence 9 2 ∧
      s.shared.pushTickets.length = s.shared.popTickets.length + 1 ∧
      GivesUp (capacityMask 2) s true := by
  have hSchedule : (queue (capacityMask 2)).runActions (init : State Bool Nat)
      [(true, .callPush 7), (true, .loadPos), (true, .loadSequence), (true, .compareExchange false),
        (true, .accessData), (true, .storeSequence), (true, .callPush 8), (true, .loadPos),
        (true, .loadSequence), (true, .compareExchange false), (true, .accessData),
        (true, .storeSequence), (false, .callPop), (false, .loadPos), (false, .loadSequence),
        (false, .compareExchange false), (true, .callPush 9), (true, .loadPos)] = some _ := rfl
  have hRun := StepSystem.Reaches.runActions .refl hSchedule
  refine ⟨_, rfl, rfl, (push_refused_iff 2 ⟨1, rfl⟩ (by decide) _ hRun (by decide) true 9 2 rfl).mpr ?_⟩
  exact ⟨rfl, .inr ⟨0, rfl, false, 0, rfl, .inl rfl⟩⟩

/-- A pop is refused exactly when its position is the newest and either no item is left
or the push of the next one is still under way. -/
theorem pop_refused_iff [Inhabited T] (capacity : SizeT) (hPower : ∃ k, capacity.toNat = 2 ^ k)
    (hCapacity : 2 ≤ capacity.toNat) (s : State τ T) (hRun : (queue (capacityMask capacity)).Reaches init s)
    (hSmall : successes s + capacity.toNat ≤ 2 ^ 63) (u : τ) (pos : SizeT)
    (hPc : s.pcs u = .popLoadSequence pos) :
    GivesUp (capacityMask capacity) s u ↔ pos = s.shared.dequeuePos ∧
      (s.shared.pushTickets.length = s.shared.popTickets.length ∨
        PushUnderWay s s.shared.popTickets.length) := by
  obtain ⟨k, hPower⟩ := hPower
  have hGeometry := geometry_of_two_pow hPower hCapacity
  obtain ⟨hTicketed, hPaced⟩ := known_of_reaches hGeometry hRun (by omega)
  obtain ⟨ticket, phase, hCell, hServes⟩ :=
    hTicketed.cells (pos.toNat % capacity.toNat) (Nat.mod_lt _ hGeometry.cells_pos)
  have hHere := pop_givesUp_iff_of_serves hGeometry hTicketed hPaced hSmall hPc hServes hCell
  constructor
  · intro hGivesUp
    obtain ⟨hNewest, hEmpty | ⟨rfl, hTicket⟩⟩ := hHere.mp hGivesUp
    · exact ⟨hNewest, .inl hEmpty⟩
    · exact ⟨hNewest, .inr (hTicket ▸ hServes.pushUnderWay)⟩
  · rintro ⟨hNewest, hEmpty | hPush⟩
    · exact hHere.mpr ⟨hNewest, .inl hEmpty⟩
    · obtain ⟨writer, hTicket, hWriting⟩ := hTicketed.serves_of_pushUnderWay hGeometry hPush
      have hSame : writer.toNat % capacity.toNat = pos.toNat % capacity.toNat := by
        rw [hNewest, hTicketed.dequeuePos, hTicket]
      exact (pop_givesUp_iff_of_serves hGeometry hTicketed hPaced hSmall hPc hWriting hSame).mpr
        ⟨hNewest, .inr ⟨rfl, hTicket⟩⟩

/-- The second item is published, the first is not. -/
theorem pop_refused_iff_push_under_way :
    ∃ s : State (Fin 3) Nat, s.pcs 2 = .popLoadSequence 0 ∧ s.shared.stored = [(1, 8)] ∧
      GivesUp (capacityMask 2) s 2 := by
  have hSchedule : (queue (capacityMask 2)).runActions (init : State (Fin 3) Nat)
      [(0, .callPush 7), (0, .loadPos), (0, .loadSequence), (0, .compareExchange false),
        (1, .callPush 8), (1, .loadPos), (1, .loadSequence), (1, .compareExchange false),
        (1, .accessData), (1, .storeSequence), (2, .callPop), (2, .loadPos)] = some _ := rfl
  have hRun := StepSystem.Reaches.runActions .refl hSchedule
  refine ⟨_, rfl, rfl, (pop_refused_iff 2 ⟨1, rfl⟩ (by decide) _ hRun (by decide) 2 0 rfl).mpr ?_⟩
  exact ⟨rfl, .inr ⟨0, 0, rfl, 7, .inl rfl⟩⟩

end

/-! ## Retries are paid for -/

/-- The most steps to the end of the call that a thread alone takes. A position that is
out of date costs two more. -/
def remaining (q : Shared T) : Pc T → Nat
  | .idle => 0
  | .pushLoadPos _ | .popLoadPos => 5
  | .pushLoadSequence _ pos => if pos = q.enqueuePos then 4 else 6
  | .pushExchange _ pos => if pos = q.enqueuePos then 3 else 5
  | .popLoadSequence pos => if pos = q.dequeuePos then 4 else 6
  | .popExchange pos => if pos = q.dequeuePos then 3 else 5
  | .pushWrite _ _ | .popRead _ => 2
  | .pushStore _ _ | .popStore _ _ => 1

theorem remaining_le (q : Shared T) (pc : Pc T) : remaining q pc ≤ 6 := by
  unfold remaining
  cases pc with
  | pushLoadSequence | pushExchange | popLoadSequence | popExchange =>
    dsimp only
    split <;> omega
  | _ => dsimp only; omega

def Shared.reservations (q : Shared T) : Nat := q.pushTickets.length + q.popTickets.length

def Access.startsCall : Access T → Bool
  | .callPush _ | .callPop => true
  | _ => false

def Access.failsSpuriously : Access T → Bool
  | .compareExchange failsSpuriously => failsSpuriously
  | _ => false

section

variable {s : State τ T} {u : τ}

/-- At the newest position the cell is never numbered beyond it. -/
theorem Ticketed.push_not_ahead (h : Ticketed m s) (hGeometry : Geometry mask m)
    (hSmall : successes s < 2 ^ 63) :
    ((s.shared.cell mask s.shared.enqueuePos).sequence - s.shared.enqueuePos).toInt ≤ 0 := by
  obtain ⟨ticket, phase, hCell, hServes⟩ :=
    h.cells (s.shared.enqueuePos.toNat % m) (Nat.mod_lt _ hGeometry.cells_pos)
  have hSame : s.shared.cell mask s.shared.enqueuePos = cellOf m s ticket := by
    rw [cell_eq hGeometry, cellOf, cellOf, hCell]
  have hPos := h.enqueuePos
  rw [hPos] at hCell
  have hBound := hServes.lap.sequence_le_enqueued hCell
  unfold successes at hSmall
  rw [hSame, toInt_sub_of_small (by omega) (by omega)]
  omega

theorem Ticketed.pop_not_ahead (h : Ticketed m s) (hGeometry : Geometry mask m)
    (hPaced : Paced m s) (hSmall : successes s < 2 ^ 63) :
    ((s.shared.cell mask s.shared.dequeuePos).sequence - (s.shared.dequeuePos + 1)).toInt ≤ 0 := by
  obtain ⟨ticket, phase, hCell, hServes⟩ :=
    h.cells (s.shared.dequeuePos.toNat % m) (Nat.mod_lt _ hGeometry.cells_pos)
  have hSame : s.shared.cell mask s.shared.dequeuePos = cellOf m s ticket := by
    rw [cell_eq hGeometry, cellOf, cellOf, hCell]
  have hPos := h.dequeuePos
  rw [hPos] at hCell
  have hBound := hServes.lap.sequence_le_dequeued hCell
  have hOrder := hPaced.order
  unfold successes at hSmall
  have hNext : (s.shared.dequeuePos + 1).toNat = s.shared.dequeuePos.toNat + 1 :=
    toNat_add_one (by omega)
  rw [hSame, toInt_sub_of_small (by omega) (by omega), hNext]
  omega

theorem ownStep_remaining (hGeometry : Geometry mask m) (hTicketed : Ticketed m s)
    (hPaced : Paced m s) (hSmall : successes s < 2 ^ 63) {a : Access T} {q' : Shared T} {pc' : Pc T}
    (hCall : a.startsCall = false) (hStep : threadStep mask s.shared (s.pcs u) a = some (q', pc')) :
    1 + remaining q' pc' + 2 * s.shared.reservations ≤
      remaining s.shared (s.pcs u) + 2 * q'.reservations + 2 * a.failsSpuriously.toNat := by
  generalize s.pcs u = pc at hStep
  unfold threadStep at hStep
  split at hStep
  case h_1 | h_2 => cases hCall
  case h_3 | h_8 =>
    cases hStep
    simp only [remaining, if_true]
    omega
  case h_4 data pos =>
    cases hStep
    split
    · simp only [remaining]
      split <;> omega
    · split
      · simp only [remaining]
        split <;> omega
      · rename_i hNonzero hNotBehind
        have hOld : pos ≠ s.shared.enqueuePos := by
          rintro rfl
          have hNotAhead := hTicketed.push_not_ahead hGeometry hSmall
          omega
        simp only [remaining, if_neg hOld]
        omega
  case h_9 pos =>
    cases hStep
    split
    · simp only [remaining]
      split <;> omega
    · split
      · simp only [remaining]
        split <;> omega
      · rename_i hNonzero hNotBehind
        have hOld : pos ≠ s.shared.dequeuePos := by
          rintro rfl
          have hNotAhead := hTicketed.pop_not_ahead hGeometry hPaced hSmall
          omega
        simp only [remaining, if_neg hOld]
        omega
  case h_5 data pos fails =>
    split at hStep
    · rename_i hSucceeds
      cases hStep
      simp only [remaining, Shared.reservations, List.length_append, List.length_singleton,
        if_pos hSucceeds.1.symm]
      omega
    · rename_i hFails
      cases hStep
      simp only [remaining, if_true]
      split
      · rename_i hNewest
        have hSpurious : fails = true := by simpa [hNewest] using hFails
        simp only [Access.failsSpuriously, hSpurious, Bool.toNat_true]
        omega
      · omega
  case h_10 pos fails =>
    split at hStep
    · rename_i hSucceeds
      cases hStep
      simp only [remaining, Shared.reservations, List.length_append, List.length_singleton,
        if_pos hSucceeds.1.symm]
      omega
    · rename_i hFails
      cases hStep
      simp only [remaining, if_true]
      split
      · rename_i hNewest
        have hSpurious : fails = true := by simpa [hNewest] using hFails
        simp only [Access.failsSpuriously, hSpurious, Bool.toNat_true]
        omega
      · omega
  case h_13 => cases hStep
  all_goals
    cases hStep
    simp only [remaining, Shared.reservations, Shared.setCell]
    omega

end

/-- Another thread's step makes a position old only by a reservation. -/
theorem otherStep_remaining {q q' : Shared T} {pc pc' : Pc T} {a : Access T}
    (hStep : threadStep mask q pc a = some (q', pc')) (other : Pc T) :
    remaining q' other + 2 * q.reservations ≤ remaining q other + 2 * q'.reservations := by
  have hEffect := threadStep_effect hStep
  cases hEffect with
  | reservePush data pos =>
    have hOther : remaining { q with enqueuePos := pos + 1, pushTickets := q.pushTickets ++ [pos] }
        other ≤ remaining q other + 2 := by
      cases other with
      | pushLoadSequence | pushExchange =>
        simp only [remaining]
        split <;> split <;> omega
      | _ => exact Nat.le_add_right _ _
    simp only [Shared.reservations, List.length_append, List.length_singleton]
    omega
  | reservePop pos =>
    have hOther : remaining { q with dequeuePos := pos + 1, popTickets := q.popTickets ++ [pos] }
        other ≤ remaining q other + 2 := by
      cases other with
      | popLoadSequence | popExchange =>
        simp only [remaining]
        split <;> split <;> omega
      | _ => exact Nat.le_add_right _ _
    simp only [Shared.reservations, List.length_append, List.length_singleton]
    omega
  | _ => exact Nat.le_refl _

/-- A thread in the middle of a call is never blocked. -/
theorem threadStep_enabled (mask : SizeT) (q : Shared T) {pc : Pc T} (hPc : pc ≠ .idle)
    (failsSpuriously : Bool) : (threadStep mask q pc (pc.access failsSpuriously)).isSome := by
  cases pc with
  | idle => exact absurd rfl hPc
  | pushExchange | popExchange =>
    simp only [Pc.access, threadStep]
    split <;> rfl
  | _ => rfl

variable [DecidableEq τ]

/-- The steps of one thread, and its spurious failures. -/
def stepsOf (u : τ) (actions : List (τ × Access T)) : Nat := actions.countP fun a => a.1 = u

def spuriousFailuresOf (u : τ) (actions : List (τ × Access T)) : Nat :=
  actions.countP fun a => a.1 = u ∧ a.2.failsSpuriously = true

theorem stepsOf_cons (u : τ) (a : τ × Access T) (rest : List (τ × Access T)) :
    stepsOf u (a :: rest) = stepsOf u [a] + stepsOf u rest := by
  rw [← List.singleton_append]
  exact List.countP_append

theorem spuriousFailuresOf_cons (u : τ) (a : τ × Access T) (rest : List (τ × Access T)) :
    spuriousFailuresOf u (a :: rest) = spuriousFailuresOf u [a] + spuriousFailuresOf u rest := by
  rw [← List.singleton_append]
  exact List.countP_append

theorem step_remaining (hGeometry : Geometry mask m) {s s' : State τ T} {a : τ × Access T}
    (hTicketed : Ticketed m s) (hPaced : Paced m s) (hSmall : successes s < 2 ^ 63) (u : τ)
    (hCall : a.1 = u → a.2.startsCall = false) (hStep : step mask s a = some s') :
    stepsOf u [a] + remaining s'.shared (s'.pcs u) + 2 * successes s ≤
      remaining s.shared (s.pcs u) + 2 * successes s' + 2 * spuriousFailuresOf u [a] := by
  obtain ⟨⟨q, pc'⟩, hThread, rfl⟩ := Option.map_eq_some_iff.mp hStep
  change stepsOf u [a] + remaining q (Function.update s.pcs a.1 pc' u) + 2 * s.shared.reservations ≤
    remaining s.shared (s.pcs u) + 2 * q.reservations + 2 * spuriousFailuresOf u [a]
  by_cases hOwn : a.1 = u
  · have hPaid := ownStep_remaining hGeometry hTicketed hPaced hSmall (hCall hOwn) hThread
    have hOne : stepsOf u [a] = 1 := by simp [stepsOf, hOwn]
    have hFails : spuriousFailuresOf u [a] = a.2.failsSpuriously.toNat := by
      cases hSpurious : a.2.failsSpuriously <;> simp [spuriousFailuresOf, hOwn, hSpurious]
    rw [hOwn] at hPaid
    rw [hOne, hFails, hOwn, Function.update_self]
    exact hPaid
  · have hPaid := otherStep_remaining hThread (s.pcs u)
    have hNone : stepsOf u [a] = 0 := by simp [stepsOf, hOwn]
    have hFails : spuriousFailuresOf u [a] = 0 := by simp [spuriousFailuresOf, hOwn]
    rw [hNone, hFails, Function.update_of_ne (Ne.symm hOwn)]
    omega

theorem successes_le_of_runActions {actions : List (τ × Access T)} {s s' : State τ T}
    (hRun : (queue mask).runActions s actions = some s') : successes s ≤ successes s' := by
  induction actions generalizing s with
  | nil =>
    cases hRun
    exact Nat.le_refl _
  | cons a rest ih =>
    obtain ⟨next, hStep, hRest⟩ := Option.bind_eq_some_iff.mp hRun
    exact Nat.le_trans (successes_le_of_step hStep) (ih hRest)

theorem runActions_remaining (hGeometry : Geometry mask m) {actions : List (τ × Access T)}
    {s s' : State τ T} (hKnown : Known m s) (u : τ)
    (hCall : ∀ a ∈ actions, a.1 = u → a.2.startsCall = false)
    (hRun : (queue mask).runActions s actions = some s') (hSmall : successes s' < 2 ^ 63) :
    stepsOf u actions + remaining s'.shared (s'.pcs u) + 2 * successes s ≤
      remaining s.shared (s.pcs u) + 2 * successes s' + 2 * spuriousFailuresOf u actions := by
  induction actions generalizing s with
  | nil =>
    cases hRun
    exact Nat.le_of_eq (by simp [stepsOf, spuriousFailuresOf])
  | cons a rest ih =>
    obtain ⟨next, hStep, hRest⟩ := Option.bind_eq_some_iff.mp hRun
    obtain ⟨hHere, hLater⟩ := List.forall_mem_cons.mp hCall
    have hBefore := Nat.lt_of_le_of_lt (successes_le_of_step hStep)
      (Nat.lt_of_le_of_lt (successes_le_of_runActions hRest) hSmall)
    obtain ⟨hTicketed, hPaced⟩ := hKnown hBefore
    have hFirst := step_remaining hGeometry hTicketed hPaced hBefore u hHere hStep
    have hRemaining := ih (step_known hGeometry hKnown hStep) hLater hRest
    rw [stepsOf_cons, spuriousFailuresOf_cons]
    omega

/-- A thread in the middle of a call takes at most six steps to its end, and two more for
each reservation that any thread makes meanwhile and each spurious failure of its own;
and while it has not come to the end, a step of it is enabled. -/
theorem call_lockFree [Inhabited T] (capacity : SizeT) (hPower : ∃ k, capacity.toNat = 2 ^ k)
    (hCapacity : 2 ≤ capacity.toNat) (s s' : State τ T)
    (hRun : (queue (capacityMask capacity)).Reaches init s) (u : τ) (actions : List (τ × Access T))
    (hActions : (queue (capacityMask capacity)).runActions s actions = some s')
    (hCall : ∀ a ∈ actions, a.1 = u → a.2.startsCall = false) (hSmall : successes s' < 2 ^ 63) :
    stepsOf u actions ≤ 6 + 2 * (successes s' - successes s) + 2 * spuriousFailuresOf u actions ∧
      (s'.pcs u ≠ .idle → ∃ a : Access T, a.startsCall = false ∧
        ((queue (capacityMask capacity)).step s' (u, a)).isSome) := by
  obtain ⟨k, hPower⟩ := hPower
  have hGeometry := geometry_of_two_pow hPower hCapacity
  constructor
  · have hPaid := runActions_remaining hGeometry (known_of_reaches hGeometry hRun) u hCall hActions hSmall
    have hFirst := remaining_le s.shared (s.pcs u)
    have hMore := successes_le_of_runActions hActions
    omega
  · intro hPc
    refine ⟨(s'.pcs u).access false, ?_, ?_⟩
    · cases hAt : s'.pcs u with
      | idle => exact absurd hAt hPc
      | _ => rfl
    · have hEnabled := threadStep_enabled (capacityMask capacity) s'.shared hPc false
      simpa [queue, step] using hEnabled

/-- Two pushes try the same cell, and the one that loses goes on to the next. -/
theorem call_lockFree_retry :
    let retry : List (Bool × Access Nat) := [(false, .compareExchange false),
      (true, .compareExchange false), (true, .loadSequence), (true, .compareExchange false),
      (true, .accessData), (true, .storeSequence)]
    ∃ s s' : State Bool Nat, s.pcs true = .pushExchange 7 0 ∧ s'.pcs true = .idle ∧
      s'.shared.stored = [(1, 7)] ∧ stepsOf true retry ≤ 6 + 2 * (successes s' - successes s) := by
  intro retry
  have hSchedule : (queue (capacityMask 2)).runActions (init : State Bool Nat)
      [(true, .callPush 7), (true, .loadPos), (true, .loadSequence), (false, .callPush 8),
        (false, .loadPos), (false, .loadSequence)] = some _ := rfl
  have hRun := StepSystem.Reaches.runActions .refl hSchedule
  exact ⟨_, _, rfl, rfl, rfl,
    (call_lockFree 2 ⟨1, rfl⟩ (by decide) _ _ hRun true retry rfl (by decide) (by decide)).1⟩

end CounterDroneServer.MPMCQueue

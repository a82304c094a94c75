import CounterDroneServer.Library.BoundedQueue
import CounterDroneServer.Library.PartialLoop
import CounterDroneServer.LockFree.MPMCTickets

/-!
# The multi-producer multi-consumer queue in one thread

One thread makes its calls one after another. The compare-exchange may fail
spuriously, finitely often in each call. The cells from `m_dequeue_pos` on hold
the items in their order, each marked with the number behind its ticket, and the
other cells wait for the tickets that come next.
-/

set_option autoImplicit false

namespace CounterDroneServer.MPMCQueue

open BoundedQueue (Call Result)

universe u

variable {T : Type u}

/-- A call, and what its first compare-exchanges are to do: `true` for a spurious
failure. None of the later ones fails. -/
structure Attempt (T : Type u) where
  call : Call T
  spuriousFailures : List Bool := []

/-- One thread in the middle of a call. -/
structure Running (T : Type u) where
  shared : Shared T
  pc : Pc T
  spuriousFailures : List Bool

def enter : Call T → Pc T
  | .push data => .pushLoadPos data
  | .pop => .popLoadPos

/-- The access that the code makes next. -/
def Pc.access (failsSpuriously : Bool) : Pc T → Access T
  | .idle => .callPop
  | .pushLoadPos _ | .popLoadPos => .loadPos
  | .pushLoadSequence _ _ | .popLoadSequence _ => .loadSequence
  | .pushExchange _ _ | .popExchange _ => .compareExchange failsSpuriously
  | .pushWrite _ _ | .popRead _ => .accessData
  | .pushStore _ _ | .popStore _ _ => .storeSequence

/-- What a call returns if the step from here is its last one. -/
def Pc.result : Pc T → Result T
  | .pushStore _ _ => .pushed true
  | .popStore _ outData => .popped (some outData)
  | .popLoadSequence _ => .popped none
  | _ => .pushed false

def Pc.exchanges : Pc T → Bool
  | .pushExchange _ _ | .popExchange _ => true
  | _ => false

/-- A call as a loop: it goes on until the thread is idle again. -/
def callLoop (capacityMask : SizeT) : PartialLoop (Running T) (Shared T × Result T) where
  body r :=
    match threadStep capacityMask r.shared r.pc (r.pc.access (r.spuriousFailures.headD false)) with
    | some (q, .idle) => .inr (q, r.pc.result)
    | some (q, pc) =>
      .inl ⟨q, pc, if r.pc.exchanges then r.spuriousFailures.tail else r.spuriousFailures⟩
    | none => .inl r

def CallReturns (capacityMask : SizeT) (q : Shared T) (a : Attempt T) (q' : Shared T)
    (result : Result T) : Prop :=
  (callLoop capacityMask).Returns ⟨q, enter a.call, a.spuriousFailures⟩ (q', result)

/-! ## The calls are runs of the queue -/

/-- A state with the one thread at `pc`. -/
def atPc (q : Shared T) (pc : Pc T) : State Unit T := ⟨q, fun _ => pc⟩

theorem step_atPc {mask : SizeT} {q q' : Shared T} {pc pc' : Pc T} {a : Access T}
    (h : threadStep mask q pc a = some (q', pc')) :
    (queue mask).step (atPc q pc) ((), a) = some (atPc q' pc') := by
  simp only [queue, step, atPc, h, Option.map_some, Option.some.injEq, State.mk.injEq, true_and]
  funext i
  exact Function.update_self _ _ _

theorem runFuel_reaches {mask : SizeT} {s : State Unit T} {fuel : Nat} {r : Running T}
    {q' : Shared T} {result : Result T} (h : (queue mask).Reaches s (atPc r.shared r.pc))
    (hRun : (callLoop mask).runFuel fuel r = some (q', result)) :
    (queue mask).Reaches s (atPc q' .idle) := by
  induction fuel generalizing r with
  | zero => cases hRun
  | succ fuel ih =>
    simp only [PartialLoop.runFuel, callLoop] at hRun
    cases hStep : threadStep mask r.shared r.pc
        (r.pc.access (r.spuriousFailures.headD false)) with
    | none =>
      rw [hStep] at hRun
      exact ih h hRun
    | some next =>
      obtain ⟨q, pc⟩ := next
      have hNext : (queue mask).Reaches s (atPc q pc) := .step _ h trivial (step_atPc hStep)
      rw [hStep] at hRun
      cases pc with
      | idle =>
        cases hRun
        exact hNext
      | _ => exact ih hNext hRun

/-- So what every interleaving keeps holds between the calls of one thread. -/
theorem CallReturns.reaches {mask : SizeT} {s : State Unit T} {q q' : Shared T} {a : Attempt T}
    {result : Result T} (h : CallReturns mask q a q' result)
    (hBefore : (queue mask).Reaches s (atPc q .idle)) :
    (queue mask).Reaches s (atPc q' .idle) := by
  obtain ⟨call, failures⟩ := a
  obtain ⟨fuel, hRun⟩ := h
  cases call with
  | push data =>
    have hEnter : threadStep mask q .idle (.callPush data) = some (q, .pushLoadPos data) := rfl
    exact runFuel_reaches (.step _ hBefore trivial (step_atPc hEnter)) hRun
  | pop =>
    have hEnter : threadStep mask q .idle .callPop = some (q, .popLoadPos) := rfl
    exact runFuel_reaches (.step _ hBefore trivial (step_atPc hEnter)) hRun

/-! ## What a successful call leaves behind -/

def Shared.afterPush (q : Shared T) (capacityMask : SizeT) (data : T) : Shared T :=
  let pos := q.enqueuePos
  let reserved := { q with enqueuePos := pos + 1, pushTickets := q.pushTickets ++ [pos] }
  let written := reserved.setCell capacityMask pos
    { reserved.cell capacityMask pos with data := data }
  { written.setCell capacityMask pos { written.cell capacityMask pos with sequence := pos + 1 } with
    stored := written.stored ++ [(pos, data)] }

def Shared.afterPop (q : Shared T) (capacityMask : SizeT) : Shared T :=
  let pos := q.dequeuePos
  let outData := (q.cell capacityMask pos).data
  let taken := { q with
    dequeuePos := pos + 1
    popTickets := q.popTickets ++ [pos]
    taken := q.taken ++ [(pos, outData)] }
  let cell := { taken.cell capacityMask pos with sequence := pos + capacityMask + 1 }
  { taken.setCell capacityMask pos cell with returned := taken.returned ++ [(pos, outData)] }

variable {mask : SizeT}

/-- A spurious failure sends the loop back to the sequence number. -/
theorem callLoop_pushExchange (mask : SizeT) (q : Shared T) (data : T) (failures : List Bool) :
    (callLoop mask).body ⟨q, .pushExchange data q.enqueuePos, failures⟩ =
      if failures.headD false then
        .inl ⟨q, .pushLoadSequence data q.enqueuePos, failures.tail⟩
      else
        .inl ⟨{ q with enqueuePos := q.enqueuePos + 1, pushTickets := q.pushTickets ++ [q.enqueuePos] },
          .pushWrite data q.enqueuePos, failures.tail⟩ := by
  cases failures with
  | nil => simp [callLoop, Pc.access, threadStep, Pc.exchanges]
  | cons fails failures =>
    cases fails with
    | true => simp [callLoop, Pc.access, threadStep, Pc.exchanges]
    | false => simp [callLoop, Pc.access, threadStep, Pc.exchanges]

theorem callLoop_popExchange (mask : SizeT) (q : Shared T) (failures : List Bool) :
    (callLoop mask).body ⟨q, .popExchange q.dequeuePos, failures⟩ =
      if failures.headD false then .inl ⟨q, .popLoadSequence q.dequeuePos, failures.tail⟩
      else
        .inl ⟨{ q with dequeuePos := q.dequeuePos + 1, popTickets := q.popTickets ++ [q.dequeuePos] },
          .popRead q.dequeuePos, failures.tail⟩ := by
  cases failures with
  | nil => simp [callLoop, Pc.access, threadStep, Pc.exchanges]
  | cons fails failures =>
    cases fails with
    | true => simp [callLoop, Pc.access, threadStep, Pc.exchanges]
    | false => simp [callLoop, Pc.access, threadStep, Pc.exchanges]

theorem callReturns_push_accepted {q : Shared T} (data : T) (spuriousFailures : List Bool)
    (hTurn : (q.cell mask q.enqueuePos).sequence = q.enqueuePos) :
    CallReturns mask q ⟨.push data, spuriousFailures⟩ (q.afterPush mask data) (.pushed true) := by
  have hDif : ((q.cell mask q.enqueuePos).sequence - q.enqueuePos).toInt = 0 := by
    rw [hTurn, BitVec.sub_self]
    rfl
  have hTry : ∀ failures, (callLoop mask).body ⟨q, .pushLoadSequence data q.enqueuePos, failures⟩ =
      .inl ⟨q, .pushExchange data q.enqueuePos, failures⟩ := by
    intro failures
    simp only [callLoop, Pc.access, threadStep, hDif, if_true, Pc.exchanges]
    rfl
  have hReserved : ∀ failures, (callLoop mask).Returns
      ⟨{ q with enqueuePos := q.enqueuePos + 1, pushTickets := q.pushTickets ++ [q.enqueuePos] },
        .pushWrite data q.enqueuePos, failures⟩ (q.afterPush mask data, .pushed true) := by
    intro failures
    apply PartialLoop.returns_of_inl rfl
    exact PartialLoop.returns_of_inr rfl
  have hCall := PartialLoop.returns_of_attempts hTry (callLoop_pushExchange mask q data) hReserved
  exact PartialLoop.returns_of_inl rfl (hCall spuriousFailures)

theorem callReturns_pop_accepted {q : Shared T} (spuriousFailures : List Bool)
    (hTurn : (q.cell mask q.dequeuePos).sequence = q.dequeuePos + 1) :
    CallReturns mask q ⟨.pop, spuriousFailures⟩ (q.afterPop mask)
      (.popped (some (q.cell mask q.dequeuePos).data)) := by
  have hDif : ((q.cell mask q.dequeuePos).sequence - (q.dequeuePos + 1)).toInt = 0 := by
    rw [hTurn, BitVec.sub_self]
    rfl
  have hTry : ∀ failures, (callLoop mask).body ⟨q, .popLoadSequence q.dequeuePos, failures⟩ =
      .inl ⟨q, .popExchange q.dequeuePos, failures⟩ := by
    intro failures
    simp only [callLoop, Pc.access, threadStep, hDif, if_true, Pc.exchanges]
    rfl
  have hReserved : ∀ failures, (callLoop mask).Returns
      ⟨{ q with dequeuePos := q.dequeuePos + 1, popTickets := q.popTickets ++ [q.dequeuePos] },
        .popRead q.dequeuePos, failures⟩
      (q.afterPop mask, .popped (some (q.cell mask q.dequeuePos).data)) := by
    intro failures
    apply PartialLoop.returns_of_inl rfl
    exact PartialLoop.returns_of_inr rfl
  have hCall := PartialLoop.returns_of_attempts hTry (callLoop_popExchange mask q) hReserved
  exact PartialLoop.returns_of_inl rfl (hCall spuriousFailures)

theorem callReturns_push_rejected {q : Shared T} (data : T) (spuriousFailures : List Bool)
    (hBehind : ((q.cell mask q.enqueuePos).sequence - q.enqueuePos).toInt < 0) :
    CallReturns mask q ⟨.push data, spuriousFailures⟩ q (.pushed false) := by
  apply PartialLoop.returns_of_inl rfl
  apply PartialLoop.returns_of_inr
  simp only [callLoop, Pc.access, threadStep, if_neg (Int.ne_of_lt hBehind), if_pos hBehind]
  rfl

theorem callReturns_pop_rejected {q : Shared T} (spuriousFailures : List Bool)
    (hBehind : ((q.cell mask q.dequeuePos).sequence - (q.dequeuePos + 1)).toInt < 0) :
    CallReturns mask q ⟨.pop, spuriousFailures⟩ q (.popped none) := by
  apply PartialLoop.returns_of_inl rfl
  apply PartialLoop.returns_of_inr
  simp only [callLoop, Pc.access, threadStep, if_neg (Int.ne_of_lt hBehind), if_pos hBehind]
  rfl

/-! ## The cells hold the items -/

theorem toInt_sub_of_small {x y : SizeT} (hx : x.toNat < 2 ^ 63) (hy : y.toNat < 2 ^ 63) :
    (x - y).toInt = (x.toNat : ℤ) - y.toNat := by
  rw [BitVec.toInt_sub, BitVec.toInt_eq_toNat_of_lt (by omega), BitVec.toInt_eq_toNat_of_lt (by omega),
    Int.bmod_eq_of_le (by omega) (by omega)]

structure Holds (m : Nat) (q : Shared T) (items : List T) : Prop where
  enqueuePos : q.enqueuePos.toNat = q.dequeuePos.toNat + items.length
  bounded : items.length ≤ m
  stored : ∀ k item, items[k]? = some item →
    (q.buffer ((q.dequeuePos.toNat + k) % m)).sequence.toNat = q.dequeuePos.toNat + k + 1 ∧
      (q.buffer ((q.dequeuePos.toNat + k) % m)).data = item
  free : ∀ k, items.length ≤ k → k < m →
    (q.buffer ((q.dequeuePos.toNat + k) % m)).sequence.toNat = q.dequeuePos.toNat + k

variable {m : Nat}

theorem cell_buffer (hRing : Ring mask m) (q : Shared T) (pos : SizeT) :
    q.cell mask pos = q.buffer (pos.toNat % m) := by
  rw [Shared.cell, hRing.index]

theorem afterPush_buffer (hRing : Ring mask m) (q : Shared T) (data : T) :
    (q.afterPush mask data).buffer = Function.update q.buffer (q.enqueuePos.toNat % m)
      ⟨q.enqueuePos + 1, data⟩ := by
  simp [Shared.afterPush, Shared.setCell, Shared.cell, hRing.index]

theorem afterPop_buffer (hRing : Ring mask m) (q : Shared T) :
    (q.afterPop mask).buffer = Function.update q.buffer (q.dequeuePos.toNat % m)
      ⟨q.dequeuePos + mask + 1, (q.buffer (q.dequeuePos.toNat % m)).data⟩ := by
  simp [Shared.afterPop, Shared.setCell, Shared.cell, hRing.index]

theorem holds_init [Inhabited T] (hRing : Ring mask m) :
    Holds m (init : State Unit T).shared [] where
  enqueuePos := rfl
  bounded := Nat.zero_le m
  stored _ _ h := by cases h
  free k _ hk := by
    have hSize := hRing.atMost
    change (BitVec.ofNat 64 ((0 + k) % m)).toNat = 0 + k
    rw [Nat.zero_add, Nat.mod_eq_of_lt hk, BitVec.toNat_ofNat]
    exact Nat.mod_eq_of_lt (by omega)

theorem Holds.afterPush (hRing : Ring mask m) {q : Shared T} {items : List T}
    (h : Holds m q items) (hSmall : q.enqueuePos.toNat < 2 ^ 63) (hRoom : items.length < m)
    (data : T) : Holds m (q.afterPush mask data) (items ++ [data]) := by
  have hBuffer := afterPush_buffer hRing q data
  have hPos : (q.afterPush mask data).enqueuePos.toNat = q.enqueuePos.toNat + 1 :=
    toNat_add_one hSmall
  have hSame : (q.afterPush mask data).dequeuePos = q.dequeuePos := rfl
  have hOther : ∀ k, k < m → k ≠ items.length →
      (q.dequeuePos.toNat + k) % m ≠ q.enqueuePos.toNat % m := by
    intro k hk hNe
    rw [h.enqueuePos]
    rcases Nat.lt_or_gt_of_ne hNe with hLower | hUpper
    · exact RingBuffer.mod_ne_of_lt (by omega) (by omega)
    · exact (RingBuffer.mod_ne_of_lt (by omega) (by omega)).symm
  have hLength : (items ++ [data]).length = items.length + 1 := List.length_append
  constructor
  · rw [hPos, hSame, hLength, h.enqueuePos, Nat.add_assoc]
  · rw [hLength]
    exact hRoom
  · intro k item hItem
    rw [hSame, hBuffer]
    obtain ⟨hk, hGet⟩ := List.getElem?_eq_some_iff.mp hItem
    rw [hLength] at hk
    rcases Nat.lt_succ_iff_lt_or_eq.mp hk with hOld | rfl
    · rw [Function.update_of_ne (hOther k (by omega) (by omega))]
      rw [List.getElem?_append_left hOld] at hItem
      exact h.stored k item hItem
    · rw [List.getElem?_concat_length] at hItem
      rw [← h.enqueuePos, Function.update_self, ← Option.some.inj hItem]
      exact ⟨toNat_add_one hSmall, rfl⟩
  · intro k hLower hUpper
    rw [hSame, hBuffer]
    rw [hLength] at hLower
    rw [Function.update_of_ne (hOther k hUpper (by omega))]
    exact h.free k (by omega) hUpper

theorem Holds.afterPop (hRing : Ring mask m) {q : Shared T} {item : T} {items : List T}
    (h : Holds m q (item :: items)) (hSmall : q.enqueuePos.toNat < 2 ^ 63) :
    Holds m (q.afterPop mask) items := by
  have hBuffer := afterPop_buffer hRing q
  have hEnqueue := h.enqueuePos
  have hBounded := h.bounded
  rw [List.length_cons] at hEnqueue hBounded
  have hDequeue : q.dequeuePos.toNat < 2 ^ 63 := by omega
  have hPos : (q.afterPop mask).dequeuePos.toNat = q.dequeuePos.toNat + 1 := toNat_add_one hDequeue
  have hSame : (q.afterPop mask).enqueuePos = q.enqueuePos := rfl
  have hShift : ∀ k, q.dequeuePos.toNat + 1 + k = q.dequeuePos.toNat + (k + 1) := by
    intro k
    omega
  have hOther : ∀ k, k + 1 < m → (q.dequeuePos.toNat + (k + 1)) % m ≠ q.dequeuePos.toNat % m := by
    intro k hk
    exact (RingBuffer.mod_ne_of_lt (by omega) (by omega)).symm
  constructor
  · rw [hPos, hSame, hEnqueue]
    omega
  · exact Nat.le_of_succ_le hBounded
  · intro k next hNext
    obtain ⟨hk, -⟩ := List.getElem?_eq_some_iff.mp hNext
    rw [hPos, hBuffer, hShift, Function.update_of_ne (hOther k (by omega))]
    exact h.stored (k + 1) next hNext
  · intro k hLower hUpper
    rw [hPos, hBuffer, hShift]
    rcases Nat.lt_or_eq_of_le (Nat.succ_le_of_lt hUpper) with hOld | hLast
    · rw [Function.update_of_ne (hOther k hOld)]
      exact h.free (k + 1) (Nat.succ_le_succ hLower) hOld
    · -- the cell just emptied is that of the ticket one lap on
      have hLap : k + 1 = m := hLast
      rw [hLap, Nat.add_mod_right, Function.update_self]
      exact toNat_next_lap hRing hDequeue

/-! ## Each call -/

theorem Holds.push_returns (hRing : Ring mask m) {q : Shared T} {items : List T}
    (h : Holds m q items) (hRoom : items.length < m) (data : T) (spuriousFailures : List Bool) :
    CallReturns mask q ⟨.push data, spuriousFailures⟩ (q.afterPush mask data) (.pushed true) := by
  have hFree := h.free items.length (Nat.le_refl _) hRoom
  apply callReturns_push_accepted
  apply BitVec.eq_of_toNat_eq
  rw [cell_buffer hRing, h.enqueuePos]
  exact hFree

/-- The cell behind a full lap holds the oldest item, so its number is one more
than that item's ticket. -/
theorem Holds.sequence_full (hRing : Ring mask m) {q : Shared T} {items : List T}
    (h : Holds m q items) (hFull : items.length = m) :
    (q.cell mask q.enqueuePos).sequence.toNat = q.dequeuePos.toNat + 1 := by
  have hPositive := hRing.positive
  have hOldest := (h.stored 0 _ (List.getElem?_eq_getElem (by omega))).1
  rw [cell_buffer hRing, h.enqueuePos, hFull, Nat.add_mod_right]
  exact hOldest

theorem Holds.push_returns_full (hRing : Ring mask m) {q : Shared T} {items : List T}
    (h : Holds m q items) (hSmall : q.enqueuePos.toNat < 2 ^ 63) (hFull : items.length = m)
    (hCells : 2 ≤ m) (data : T) (spuriousFailures : List Bool) :
    CallReturns mask q ⟨.push data, spuriousFailures⟩ q (.pushed false) := by
  have hSequence := h.sequence_full hRing hFull
  have hEnqueue := h.enqueuePos
  apply callReturns_push_rejected
  rw [toInt_sub_of_small (by omega) hSmall]
  omega

/-- With one cell, the number behind the stored item is the next position too, so
the push takes the full queue for an empty one. -/
theorem Holds.push_overwrites (hRing : Ring mask 1) {q : Shared T} {item : T}
    (h : Holds 1 q [item]) (data : T) (spuriousFailures : List Bool) :
    CallReturns mask q ⟨.push data, spuriousFailures⟩ (q.afterPush mask data) (.pushed true) := by
  have hSequence := h.sequence_full hRing rfl
  apply callReturns_push_accepted
  apply BitVec.eq_of_toNat_eq
  rw [hSequence, h.enqueuePos]
  rfl

theorem Holds.pop_returns (hRing : Ring mask m) {q : Shared T} {item : T} {items : List T}
    (h : Holds m q (item :: items)) (hSmall : q.enqueuePos.toNat < 2 ^ 63)
    (spuriousFailures : List Bool) :
    CallReturns mask q ⟨.pop, spuriousFailures⟩ (q.afterPop mask) (.popped (some item)) := by
  have hEnqueue := h.enqueuePos
  rw [List.length_cons] at hEnqueue
  obtain ⟨hSequence, hData⟩ := h.stored 0 item rfl
  rw [Nat.add_zero, ← cell_buffer hRing] at hSequence hData
  rw [← hData]
  apply callReturns_pop_accepted
  apply BitVec.eq_of_toNat_eq
  rw [hSequence, toNat_add_one (by omega)]

theorem Holds.pop_returns_empty (hRing : Ring mask m) {q : Shared T} (h : Holds m q [])
    (hSmall : q.enqueuePos.toNat + 1 < 2 ^ 63) (spuriousFailures : List Bool) :
    CallReturns mask q ⟨.pop, spuriousFailures⟩ q (.popped none) := by
  have hEnqueue : q.enqueuePos.toNat = q.dequeuePos.toNat := h.enqueuePos
  have hSequence := h.free 0 (Nat.le_refl _) hRing.positive
  rw [Nat.add_zero, ← cell_buffer hRing] at hSequence
  have hNext : (q.dequeuePos + 1).toNat = q.dequeuePos.toNat + 1 := toNat_add_one (by omega)
  apply callReturns_pop_rejected
  rw [toInt_sub_of_small (by omega) (by omega), hSequence, hNext]
  omega

/-- A call returns what the list queue answers, unless it pushes on a full queue
of one cell. -/
theorem Holds.call_returns (hRing : Ring mask m) {q : Shared T} {items : List T}
    (h : Holds m q items) (hSmall : q.enqueuePos.toNat + 1 < 2 ^ 63) (a : Attempt T)
    (hRoom : 2 ≤ m ∨ (a.call.isPush = true → items.length < m)) :
    ∃ q', CallReturns mask q a q' (BoundedQueue.call m items a.call).2 ∧
      Holds m q' (BoundedQueue.call m items a.call).1 ∧
      q'.enqueuePos.toNat ≤ q.enqueuePos.toNat + 1 := by
  obtain ⟨call, failures⟩ := a
  cases call with
  | push data =>
    rcases Nat.eq_or_lt_of_le h.bounded with hFull | hFree
    · rw [BoundedQueue.call_push_full data hFull]
      rcases hRoom with hCells | hNotFull
      · exact ⟨q, h.push_returns_full hRing (by omega) hFull hCells data failures, h,
          Nat.le_succ _⟩
      · exact absurd hFull (Nat.ne_of_lt (hNotFull rfl))
    · rw [BoundedQueue.call_push_room data hFree]
      refine ⟨q.afterPush mask data, h.push_returns hRing hFree data failures,
        h.afterPush hRing (by omega) hFree data, ?_⟩
      exact Nat.le_of_eq (toNat_add_one (by omega))
  | pop =>
    cases items with
    | nil => exact ⟨q, h.pop_returns_empty hRing hSmall failures, h, Nat.le_succ _⟩
    | cons item items =>
      exact ⟨q.afterPop mask, h.pop_returns hRing (by omega) failures,
        h.afterPop hRing (by omega), Nat.le_succ _⟩

/-! ## Every sequence of calls -/

theorem CallReturns.unique {q q' q'' : Shared T} {a : Attempt T} {r r' : Result T}
    (h : CallReturns mask q a q' r) (h' : CallReturns mask q a q'' r') : q' = q'' ∧ r = r' :=
  Prod.ext_iff.mp (PartialLoop.Returns.unique h h')

/-- `attempts` are the calls still to be made. -/
structure Ready (m : Nat) (attempts : List (Attempt T)) (q : Shared T) (items : List T) : Prop where
  holds : Holds m q items
  small : q.enqueuePos.toNat + attempts.length < 2 ^ 63
  alternates : m = 1 → BoundedQueue.Alternates items (attempts.map Attempt.call)

theorem Ready.call_returns (hRing : Ring mask m) {a : Attempt T} {attempts : List (Attempt T)}
    {q : Shared T} {items : List T} (h : Ready m (a :: attempts) q items) :
    ∃ q', CallReturns mask q a q' (BoundedQueue.call m items a.call).2 ∧
      Ready m attempts q' (BoundedQueue.call m items a.call).1 := by
  have hSmall := h.small
  rw [List.length_cons] at hSmall
  have hNext : m = 1 → (a.call.isPush = true → items = []) ∧
      BoundedQueue.Alternates (BoundedQueue.call m items a.call).1 (attempts.map Attempt.call) := by
    rintro rfl
    exact (BoundedQueue.alternates_cons_iff h.holds.bounded _ _).mp (h.alternates rfl)
  have hRoom : 2 ≤ m ∨ (a.call.isPush = true → items.length < m) := by
    rcases Nat.eq_or_lt_of_le (Nat.succ_le_of_lt hRing.positive) with hOne | hMore
    · right
      intro hPush
      rw [(hNext hOne.symm).1 hPush]
      exact hRing.positive
    · exact .inl hMore
  obtain ⟨q', hReturns, hHolds, hPos⟩ := h.holds.call_returns hRing (by omega) a hRoom
  exact ⟨q', hReturns, hHolds, by omega, fun hOne => (hNext hOne).2⟩

/-- With one cell, a push that returns what the list queue answers was made on the
empty queue. -/
theorem Holds.empty_of_push_agrees (hRing : Ring mask 1) {q q' : Shared T} {items : List T}
    {a : Attempt T} (h : Holds 1 q items)
    (hCall : CallReturns mask q a q' (BoundedQueue.call 1 items a.call).2)
    (hPush : a.call.isPush = true) : items = [] := by
  obtain ⟨call, failures⟩ := a
  cases call with
  | pop => cases hPush
  | push data =>
    match items with
    | [] => rfl
    | [item] =>
      have hOverwrites := h.push_overwrites hRing data failures
      have hSame : Result.pushed false = Result.pushed true := (hCall.unique hOverwrites).2
      cases hSame
    | item :: next :: rest =>
      have hBounded := h.bounded
      simp only [List.length_cons] at hBounded
      omega

theorem alternates_of_answers (hRing : Ring mask 1) {q : Shared T} {items : List T}
    {attempts : List (Attempt T)} (h : Holds 1 q items)
    (hSmall : q.enqueuePos.toNat + attempts.length < 2 ^ 63)
    (hAnswers : BoundedQueue.Answers (CallReturns mask) q attempts
      (BoundedQueue.results 1 items (attempts.map Attempt.call))) :
    BoundedQueue.Alternates items (attempts.map Attempt.call) := by
  induction attempts generalizing q items with
  | nil => exact ⟨.nil, fun _ _ hMem => absurd hMem (by simp)⟩
  | cons a attempts ih =>
    rw [List.length_cons] at hSmall
    rw [List.map_cons, BoundedQueue.alternates_cons_iff h.bounded]
    rw [List.map_cons, BoundedQueue.results] at hAnswers
    cases hAnswers with
    | cons hCall hRest =>
      have hEmpty := h.empty_of_push_agrees hRing hCall
      refine ⟨hEmpty, ?_⟩
      have hRoom : a.call.isPush = true → items.length < 1 := by
        intro hPush
        rw [hEmpty hPush]
        exact Nat.one_pos
      obtain ⟨q', hReturns, hHolds, hPos⟩ := h.call_returns hRing (by omega) a (.inr hRoom)
      rw [(hCall.unique hReturns).1] at hRest
      exact ih hHolds (by omega) hRest

/-- One thread finds the queue to be a bounded first-in first-out queue exactly
when it has more than one cell or no push directly follows a push. -/
theorem single_thread_boundedFifo_iff [Inhabited T] (capacity : SizeT)
    (hPower : ∃ k, capacity.toNat = 2 ^ k) (attempts : List (Attempt T))
    (hFew : attempts.length < 2 ^ 63) :
    BoundedQueue.Answers (CallReturns (capacityMask capacity)) (init : State Unit T).shared attempts
        (BoundedQueue.results capacity.toNat [] (attempts.map Attempt.call)) ↔
      capacity.toNat ≠ 1 ∨ (attempts.map Attempt.call).IsChain
        fun call next => ¬(call.isPush = true ∧ next.isPush = true) := by
  obtain ⟨k, hPower⟩ := hPower
  have hRing := ring_of_two_pow hPower
  have hSmall : (init : State Unit T).shared.enqueuePos.toNat + attempts.length < 2 ^ 63 := by
    change 0 + attempts.length < 2 ^ 63
    rwa [Nat.zero_add]
  constructor
  · intro hAnswers
    rcases eq_or_ne capacity.toNat 1 with hOne | hMore
    · right
      rw [hOne] at hRing hAnswers
      exact (alternates_of_answers hRing (holds_init hRing) hSmall hAnswers).1
    · exact .inl hMore
  · intro hCondition
    have hReady : Ready capacity.toNat attempts (init : State Unit T).shared [] := by
      refine ⟨holds_init hRing, hSmall, ?_⟩
      intro hOne
      rcases hCondition with hMore | hChain
      · exact absurd hOne hMore
      · exact ⟨hChain, fun hNotEmpty => absurd rfl hNotEmpty⟩
    exact BoundedQueue.answers_results Attempt.call (Ready capacity.toNat)
      (fun a attempts q items h => h.call_returns hRing) hReady

/-- Two cells, a push that fails spuriously once, and a third push that finds the
queue full. -/
theorem single_thread_boundedFifo_iff_two_cells :
    BoundedQueue.Answers (CallReturns (capacityMask 2)) (init : State Unit Nat).shared
      [⟨.push 7, [true]⟩, ⟨.push 8, []⟩, ⟨.push 9, []⟩, ⟨.pop, []⟩]
      [.pushed true, .pushed true, .pushed false, .popped (some 7)] :=
  (single_thread_boundedFifo_iff 2 ⟨1, rfl⟩
    [⟨.push 7, [true]⟩, ⟨.push 8, []⟩, ⟨.push 9, []⟩, ⟨.pop, []⟩] (by decide)).mpr
    (.inl (by decide))

/-- One cell: the second push is accepted and overwrites the first item. -/
theorem not_single_thread_boundedFifo :
    ¬∀ (capacity : SizeT), (∃ k, capacity.toNat = 2 ^ k) → ∀ attempts : List (Attempt Nat),
      attempts.length < 2 ^ 63 →
      BoundedQueue.Answers (CallReturns (capacityMask capacity)) (init : State Unit Nat).shared
        attempts (BoundedQueue.results capacity.toNat [] (attempts.map Attempt.call)) := by
  intro h
  have hRing : Ring (capacityMask 1) 1 := ring_of_two_pow (show (1 : SizeT).toNat = 2 ^ 0 from rfl)
  have hAnswers := h 1 ⟨0, rfl⟩ [⟨.push 7, []⟩, ⟨.push 8, []⟩] (by decide)
  have hAlternates := alternates_of_answers hRing (holds_init hRing) (by decide) hAnswers
  have hPushes := List.isChain_cons_cons.mp hAlternates.1
  exact hPushes.1 ⟨rfl, rfl⟩

/-- A cell numbered beyond the position sends the loop of `pop` round for ever. -/
theorem pop_never_returns {q : Shared T}
    (hAhead : 0 < ((q.cell mask q.dequeuePos).sequence - (q.dequeuePos + 1)).toInt)
    (spuriousFailures : List Bool) (q' : Shared T) (result : Result T) :
    ¬CallReturns mask q ⟨.pop, spuriousFailures⟩ q' result := by
  apply PartialLoop.not_returns fun r => ∃ failures, r = ⟨q, .popLoadPos, failures⟩ ∨
    r = ⟨q, .popLoadSequence q.dequeuePos, failures⟩
  · rintro _ ⟨failures, rfl | rfl⟩
    · exact ⟨_, rfl, failures, .inr rfl⟩
    · have hNotBehind : ¬((q.cell mask q.dequeuePos).sequence - (q.dequeuePos + 1)).toInt < 0 := by
        omega
      refine ⟨⟨q, .popLoadPos, failures⟩, ?_, failures, .inl rfl⟩
      simp only [callLoop, Pc.access, threadStep, if_neg (Int.ne_of_gt hAhead), if_neg hNotBehind]
      rfl
  · exact ⟨spuriousFailures, .inl rfl⟩

/-- So the pop after an overwriting push never returns. -/
theorem Holds.pop_spins (hRing : Ring mask 1) {q : Shared T} {item : T} (h : Holds 1 q [item])
    (hSmall : q.enqueuePos.toNat + 1 < 2 ^ 63) (data : T) (spuriousFailures : List Bool)
    (q' : Shared T) (result : Result T) :
    ¬CallReturns mask (q.afterPush mask data) ⟨.pop, spuriousFailures⟩ q' result := by
  have hEnqueue : q.enqueuePos.toNat = q.dequeuePos.toNat + 1 := h.enqueuePos
  have hNext : (q.enqueuePos + 1).toNat = q.enqueuePos.toNat + 1 := toNat_add_one (by omega)
  have hDequeue : (q.dequeuePos + 1).toNat = q.dequeuePos.toNat + 1 := toNat_add_one (by omega)
  have hCell : ((q.afterPush mask data).cell mask q.dequeuePos).sequence = q.enqueuePos + 1 := by
    rw [cell_buffer hRing, afterPush_buffer hRing, Nat.mod_one, Nat.mod_one, Function.update_self]
  apply pop_never_returns
  change 0 < (((q.afterPush mask data).cell mask q.dequeuePos).sequence - (q.dequeuePos + 1)).toInt
  rw [hCell, toInt_sub_of_small (by omega) (by omega)]
  omega

end CounterDroneServer.MPMCQueue

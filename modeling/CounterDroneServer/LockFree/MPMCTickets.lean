import CounterDroneServer.LockFree.MPMCQueue
import CounterDroneServer.Library.TicketRing

/-!
# Tickets of the multi-producer multi-consumer queue

The positions count the tickets drawn. Each cell is in one phase of the lap of
one ticket, and in the two phases in which a thread works on it that thread is
the only one. A stale position is harmless: the sequence number of a cell only
grows, so what a thread has seen of it is a lower bound.
-/

set_option autoImplicit false

namespace CounterDroneServer.MPMCQueue

open StepSystem (forall_mem_concat)
open TicketRing

universe u v

variable {T : Type u} {τ : Type v}

/-! ## What one step does -/

inductive Effect (mask : SizeT) (q : Shared T) : Pc T → Shared T → Pc T → Prop
  | quiet (pc pc' : Pc T) (hBefore : pc.reserved = none) (hAfter : pc'.reserved = none)
    (hPush : ∀ data pos, pc' = .pushExchange data pos → (q.cell mask pos).sequence = pos)
    (hPopPos : ∀ pos, pc' = .popLoadSequence pos → pos = q.dequeuePos)
    (hPop : ∀ pos, pc' = .popExchange pos →
      pc = .popLoadSequence pos ∧ (q.cell mask pos).sequence = pos + 1) :
    Effect mask q pc q pc'
  | reservePush (data : T) (pos : SizeT) (hPos : q.enqueuePos = pos) :
    Effect mask q (.pushExchange data pos)
      { q with enqueuePos := pos + 1, pushTickets := q.pushTickets ++ [pos] } (.pushWrite data pos)
  | reservePop (pos : SizeT) (hPos : q.dequeuePos = pos) :
    Effect mask q (.popExchange pos)
      { q with dequeuePos := pos + 1, popTickets := q.popTickets ++ [pos] } (.popRead pos)
  | write (data : T) (pos : SizeT) :
    Effect mask q (.pushWrite data pos)
      (q.setCell mask pos { q.cell mask pos with data := data })
      (.pushStore data pos)
  | publish (data : T) (pos : SizeT) :
    Effect mask q (.pushStore data pos)
      { q.setCell mask pos { q.cell mask pos with sequence := pos + 1 } with
        stored := q.stored ++ [(pos, data)] } .idle
  | read (pos : SizeT) :
    Effect mask q (.popRead pos)
      { q with taken := q.taken ++ [(pos, (q.cell mask pos).data)] }
      (.popStore pos (q.cell mask pos).data)
  | release (pos : SizeT) (outData : T) :
    Effect mask q (.popStore pos outData)
      { q.setCell mask pos
          { q.cell mask pos with sequence := pos + mask + 1 } with
        returned := q.returned ++ [(pos, outData)] } .idle

theorem eq_of_toInt_sub_eq_zero {x y : SizeT} (h : (x - y).toInt = 0) : x = y := by
  have hZero : x - y = 0 := BitVec.eq_of_toInt_eq (h.trans rfl)
  bv_omega

theorem threadStep_effect {mask : SizeT} {q q' : Shared T} {pc pc' : Pc T} {a : Access T}
    (h : threadStep mask q pc a = some (q', pc')) : Effect mask q pc q' pc' := by
  unfold threadStep at h
  split at h
  · cases h
    exact .quiet _ _ rfl rfl nofun nofun nofun
  · cases h
    exact .quiet _ _ rfl rfl nofun nofun nofun
  · cases h
    exact .quiet _ _ rfl rfl nofun nofun nofun
  · rename_i data pos
    cases h
    split
    · rename_i hDif
      refine .quiet _ _ rfl rfl ?_ nofun nofun
      rintro _ _ hPc
      cases hPc
      exact eq_of_toInt_sub_eq_zero hDif
    · split
      · exact .quiet _ _ rfl rfl nofun nofun nofun
      · exact .quiet _ _ rfl rfl nofun nofun nofun
  · split at h
    · rename_i hExchange
      cases h
      exact .reservePush _ _ hExchange.1
    · cases h
      exact .quiet _ _ rfl rfl nofun nofun nofun
  · cases h
    exact .write _ _
  · cases h
    exact .publish _ _
  · cases h
    refine .quiet _ _ rfl rfl nofun ?_ nofun
    rintro _ hPc
    cases hPc
    rfl
  · rename_i pos
    cases h
    split
    · rename_i hDif
      refine .quiet _ _ rfl rfl nofun nofun ?_
      rintro _ hPc
      cases hPc
      exact ⟨rfl, eq_of_toInt_sub_eq_zero hDif⟩
    · split
      · exact .quiet _ _ rfl rfl nofun nofun nofun
      · exact .quiet _ _ rfl rfl nofun nofun nofun
  · split at h
    · rename_i hExchange
      cases h
      exact .reservePop _ hExchange.1
    · cases h
      refine .quiet _ _ rfl rfl nofun ?_ nofun
      rintro _ hPc
      cases hPc
      rfl
  · cases h
    exact .read _
  · cases h
    exact .release _ _
  · cases h

/-! ## The geometry of the ring -/

/-- The mask selects the remainder modulo the number of cells. -/
structure Ring (mask : SizeT) (m : Nat) : Prop where
  positive : 0 < m
  atMost : m ≤ 2 ^ 63
  toNat_mask : mask.toNat + 1 = m
  index : ∀ pos, cellIndex mask pos = pos.toNat % m

theorem ring_of_two_pow {capacity : SizeT} {k : Nat} (hPower : capacity.toNat = 2 ^ k) :
    Ring (capacityMask capacity) capacity.toNat := by
  have hPositive : 0 < capacity.toNat := hPower ▸ Nat.two_pow_pos k
  have hMask : (capacityMask capacity).toNat = capacity.toNat - 1 := by
    rw [capacityMask]
    bv_omega
  have hExponent : k ≤ 63 := by
    by_contra hLarge
    have hAtLeast : 2 ^ 64 ≤ 2 ^ k := Nat.pow_le_pow_right (by decide) (by omega)
    have hSize := capacity.isLt
    omega
  refine ⟨hPositive, ?_, by omega, fun pos => ?_⟩
  · rw [hPower]
    exact Nat.pow_le_pow_right (by decide) hExponent
  · rw [cellIndex, BitVec.toNat_and, hMask, hPower, Nat.and_two_pow_sub_one_eq_mod]

structure Geometry (mask : SizeT) (m : Nat) : Prop where
  atLeastTwo : 2 ≤ m
  atMost : m ≤ 2 ^ 63
  toNat_mask : mask.toNat + 1 = m
  index : ∀ pos, cellIndex mask pos = pos.toNat % m

theorem Geometry.cells_pos {mask : SizeT} {m : Nat} (h : Geometry mask m) : 0 < m :=
  Nat.lt_of_lt_of_le (by decide) h.atLeastTwo

theorem Geometry.ring {mask : SizeT} {m : Nat} (h : Geometry mask m) : Ring mask m :=
  ⟨h.cells_pos, h.atMost, h.toNat_mask, h.index⟩

theorem geometry_of_two_pow {capacity : SizeT} {k : Nat} (hPower : capacity.toNat = 2 ^ k)
    (hCapacity : 2 ≤ capacity.toNat) : Geometry (capacityMask capacity) capacity.toNat := by
  have hRing := ring_of_two_pow hPower
  exact ⟨hCapacity, hRing.atMost, hRing.toNat_mask, hRing.index⟩

/-! ## The invariant -/

def HoldsCell (m : Nat) (pc : Pc T) (c : Nat) : Prop :=
  ∃ pos, pc.reserved = some pos ∧ pos.toNat % m = c

variable (m : Nat)

def cellOf (s : State τ T) (pos : SizeT) : Cell T := s.shared.buffer (pos.toNat % m)

def OnlyHolder (s : State τ T) (c : Nat) (u : τ) : Prop := ∀ v, HoldsCell m (s.pcs v) c → v = u

def Vacant (s : State τ T) (c : Nat) : Prop := ∀ v, ¬HoldsCell m (s.pcs v) c

def WritingBy (s : State τ T) (pos : SizeT) (u : τ) : Prop :=
  ∃ data, s.pcs u = .pushWrite data pos ∨
    s.pcs u = .pushStore data pos ∧ (cellOf m s pos).data = data

def ReadingBy (s : State τ T) (pos : SizeT) (u : τ) : Prop :=
  s.pcs u = .popRead pos ∧ (pos, (cellOf m s pos).data) ∈ s.shared.stored ∨
    ∃ outData, s.pcs u = .popStore pos outData ∧ (pos, outData) ∈ s.shared.stored

/-- Who works on the cell of ticket `pos` in each phase. -/
inductive Role (s : State τ T) (pos : SizeT) : Phase → Prop
  | empty (hVacant : Vacant m s (pos.toNat % m)) : Role s pos .empty
  | writing (u : τ) (hOnly : OnlyHolder m s (pos.toNat % m) u) (hWriting : WritingBy m s pos u) :
    Role s pos .writing
  | full (hVacant : Vacant m s (pos.toNat % m))
    (hStored : (pos, (cellOf m s pos).data) ∈ s.shared.stored) : Role s pos .full
  | reading (u : τ) (hOnly : OnlyHolder m s (pos.toNat % m) u) (hReading : ReadingBy m s pos u) :
    Role s pos .reading

structure Serves (s : State τ T) (pos : SizeT) (phase : Phase) : Prop where
  lap : Lap m s.shared.pushTickets.length s.shared.popTickets.length
    (cellOf m s pos).sequence.toNat pos.toNat phase
  role : Role m s pos phase

/-- What a thread knows from an earlier load. -/
def Seen (q : Shared T) : Pc T → Prop
  | .pushExchange _ pos => pos.toNat ≤ (q.buffer (pos.toNat % m)).sequence.toNat
  | .popLoadSequence pos => pos.toNat ≤ q.popTickets.length
  | .popExchange pos => pos.toNat + 1 ≤ (q.buffer (pos.toNat % m)).sequence.toNat
  | _ => True

structure Ticketed (s : State τ T) : Prop where
  enqueuePos : s.shared.enqueuePos.toNat = s.shared.pushTickets.length
  dequeuePos : s.shared.dequeuePos.toNat = s.shared.popTickets.length
  pushTickets : s.shared.pushTickets.map BitVec.toNat = List.range s.shared.pushTickets.length
  popTickets : s.shared.popTickets.map BitVec.toNat = List.range s.shared.popTickets.length
  cells : ∀ c, c < m → ∃ pos phase, pos.toNat % m = c ∧ Serves m s pos phase
  seen : ∀ u, Seen m s.shared (s.pcs u)
  storedBelow : ∀ e ∈ s.shared.stored, e.1.toNat < (cellOf m s e.1).sequence.toNat
  storedOnce : (s.shared.stored.map Prod.fst).Nodup
  storedTickets : ∀ e ∈ s.shared.stored, e.1 ∈ s.shared.pushTickets
  taken : ∀ e ∈ s.shared.taken, e ∈ s.shared.stored
  returned : ∀ e ∈ s.shared.returned, e ∈ s.shared.stored
  returnedBelow : ∀ e ∈ s.shared.returned, e.1.toNat + 1 < (cellOf m s e.1).sequence.toNat
  returnedOnce : (s.shared.returned.map Prod.fst).Nodup
  returnedTickets : ∀ e ∈ s.shared.returned, e.1 ∈ s.shared.popTickets

variable {m}

theorem ticketed_init [Inhabited T] (hCells : m ≤ 2 ^ 63) : Ticketed m (init : State τ T) where
  enqueuePos := rfl
  dequeuePos := rfl
  pushTickets := rfl
  popTickets := rfl
  cells c hc := by
    have hPos : (BitVec.ofNat 64 c).toNat = c := by
      rw [BitVec.toNat_ofNat]
      exact Nat.mod_eq_of_lt (by omega)
    have hCell : c % m = c := Nat.mod_eq_of_lt hc
    refine ⟨BitVec.ofNat 64 c, .empty, by rw [hPos, hCell], ?_, .empty ?_⟩
    · refine .empty ?_ (Nat.zero_le _) ?_ (Nat.zero_le _) ?_
      · rw [cellOf, hPos, hCell]
        exact hPos
      · rw [hPos]
        exact Nat.lt_of_lt_of_le hc (Nat.le_add_left _ _)
      · rw [hPos]
        exact Nat.lt_of_lt_of_le hc (Nat.le_add_left _ _)
    · rintro v ⟨pos, hReserved, -⟩
      cases hReserved
  seen _ := trivial
  storedBelow _ h := absurd h List.not_mem_nil
  storedOnce := List.nodup_nil
  storedTickets _ h := absurd h List.not_mem_nil
  taken _ h := absurd h List.not_mem_nil
  returned _ h := absurd h List.not_mem_nil
  returnedBelow _ h := absurd h List.not_mem_nil
  returnedOnce := List.nodup_nil
  returnedTickets _ h := absurd h List.not_mem_nil

/-! ## Frames -/

/-- A step of thread `u` leaves the cells alone that it does not hold. -/
structure Frame (m : Nat) (s s' : State τ T) (u : τ) (c : Nat) : Prop where
  others : ∀ v, v ≠ u → s'.pcs v = s.pcs v
  before : ¬HoldsCell m (s.pcs u) c
  after : ¬HoldsCell m (s'.pcs u) c
  cell : s'.shared.buffer c = s.shared.buffer c
  stored : s.shared.stored ⊆ s'.shared.stored

theorem Vacant.onlyHolder {s : State τ T} {c : Nat} (h : Vacant m s c) (u : τ) :
    OnlyHolder m s c u :=
  fun v hHolds => absurd hHolds (h v)

theorem Frame.vacant {s s' : State τ T} {u : τ} {c : Nat} (h : Frame m s s' u c)
    (hVacant : Vacant m s c) : Vacant m s' c := by
  intro v
  by_cases hThread : v = u
  · rw [hThread]
    exact h.after
  · rw [h.others v hThread]
    exact hVacant v

theorem Frame.onlyHolder {s s' : State τ T} {u w : τ} {c : Nat} (h : Frame m s s' u c)
    (hOnly : OnlyHolder m s c w) : OnlyHolder m s' c w := by
  intro v hHolds
  by_cases hThread : v = u
  · rw [hThread] at hHolds
    exact absurd hHolds h.after
  · rw [h.others v hThread] at hHolds
    exact hOnly v hHolds

theorem WritingBy.reserved {s : State τ T} {pos : SizeT} {u : τ} (h : WritingBy m s pos u) :
    (s.pcs u).reserved = some pos := by
  obtain ⟨data, hPc | ⟨hPc, -⟩⟩ := h
  · rw [hPc]
    rfl
  · rw [hPc]
    rfl

theorem ReadingBy.reserved {s : State τ T} {pos : SizeT} {u : τ} (h : ReadingBy m s pos u) :
    (s.pcs u).reserved = some pos := by
  obtain ⟨hPc, -⟩ | ⟨outData, hPc, -⟩ := h
  · rw [hPc]
    rfl
  · rw [hPc]
    rfl

theorem Role.frame {s s' : State τ T} {pos : SizeT} {phase : Phase} {u : τ}
    (h : Role m s pos phase) (hFrame : Frame m s s' u (pos.toNat % m)) : Role m s' pos phase := by
  have hCell : cellOf m s' pos = cellOf m s pos := hFrame.cell
  have hOther : ∀ w, (s.pcs w).reserved = some pos → s'.pcs w = s.pcs w := by
    intro w hReserved
    apply hFrame.others
    rintro rfl
    exact hFrame.before ⟨pos, hReserved, rfl⟩
  cases h with
  | empty hVacant => exact .empty (hFrame.vacant hVacant)
  | writing w hOnly hWriting =>
    refine .writing w (hFrame.onlyHolder hOnly) ?_
    rw [WritingBy, hOther w hWriting.reserved, hCell]
    exact hWriting
  | full hVacant hStored =>
    refine .full (hFrame.vacant hVacant) ?_
    rw [hCell]
    exact hFrame.stored hStored
  | reading w hOnly hReading =>
    refine .reading w (hFrame.onlyHolder hOnly) ?_
    rw [ReadingBy, hOther w hReading.reserved, hCell]
    rcases hReading with ⟨hPc, hStored⟩ | ⟨outData, hPc, hStored⟩
    · exact .inl ⟨hPc, hFrame.stored hStored⟩
    · exact .inr ⟨outData, hPc, hFrame.stored hStored⟩

theorem Seen.mono {q q' : Shared T} {pc : Pc T} (h : Seen m q pc)
    (hSequence : ∀ c, (q.buffer c).sequence.toNat ≤ (q'.buffer c).sequence.toNat)
    (hPops : q.popTickets.length ≤ q'.popTickets.length) : Seen m q' pc := by
  cases pc with
  | pushExchange data pos => exact Nat.le_trans h (hSequence _)
  | popLoadSequence pos => exact Nat.le_trans h hPops
  | popExchange pos => exact Nat.le_trans h (hSequence _)
  | _ => trivial

/-- A thread that has reserved a cell is the one that the cell's phase names. -/
theorem Ticketed.held {s : State τ T} (h : Ticketed m s) (hCells : 0 < m) {u : τ} {pos : SizeT}
    (hReserved : (s.pcs u).reserved = some pos) :
    OnlyHolder m s (pos.toNat % m) u ∧
      (Serves m s pos .writing ∧ WritingBy m s pos u ∨
        Serves m s pos .reading ∧ ReadingBy m s pos u) := by
  obtain ⟨pos', phase, hCell, hServes⟩ := h.cells (pos.toNat % m) (Nat.mod_lt _ hCells)
  have hHolds : HoldsCell m (s.pcs u) (pos'.toNat % m) := ⟨pos, hReserved, hCell.symm⟩
  rw [← hCell]
  cases hServes.role with
  | empty hVacant => exact absurd hHolds (hVacant u)
  | full hVacant => exact absurd hHolds (hVacant u)
  | writing w hOnly hWriting =>
    cases hOnly u hHolds
    cases hReserved.symm.trans hWriting.reserved
    exact ⟨hOnly, .inl ⟨hServes, hWriting⟩⟩
  | reading w hOnly hReading =>
    cases hOnly u hHolds
    cases hReserved.symm.trans hReading.reserved
    exact ⟨hOnly, .inr ⟨hServes, hReading⟩⟩

/-! ## Holders -/

theorem not_holdsCell_of_not_reserved {pc : Pc T} (h : pc.reserved = none) (c : Nat) :
    ¬HoldsCell m pc c := by
  rintro ⟨pos, hReserved, -⟩
  cases h.symm.trans hReserved

theorem not_holdsCell_of_reserved {pc : Pc T} {pos : SizeT} (h : pc.reserved = some pos) {c : Nat}
    (hCell : pos.toNat % m ≠ c) : ¬HoldsCell m pc c := by
  rintro ⟨pos', hReserved, rfl⟩
  cases h.symm.trans hReserved
  exact hCell rfl

theorem toNat_add_one {pos : SizeT} (h : pos.toNat < 2 ^ 63) : (pos + 1).toNat = pos.toNat + 1 := by
  rw [BitVec.toNat_add]
  change (pos.toNat + 1) % 2 ^ 64 = _
  exact Nat.mod_eq_of_lt (by omega)

variable {mask : SizeT}

theorem cell_eq (hGeometry : Geometry mask m) (s : State τ T) (pos : SizeT) :
    s.shared.cell mask pos = cellOf m s pos := by
  rw [Shared.cell, hGeometry.index]
  rfl

theorem Ticketed.of_pushWrite (hGeometry : Geometry mask m) {s : State τ T}
    (h : Ticketed m s) {u : τ} {data : T} {pos : SizeT} (hPc : s.pcs u = .pushWrite data pos) :
    Serves m s pos .writing ∧ OnlyHolder m s (pos.toNat % m) u := by
  obtain ⟨hOnly, ⟨hServes, -⟩ | ⟨-, ⟨hReading, -⟩ | ⟨_, hReading, -⟩⟩⟩ :=
    h.held hGeometry.cells_pos (by rw [hPc]; rfl)
  · exact ⟨hServes, hOnly⟩
  · cases hPc.symm.trans hReading
  · cases hPc.symm.trans hReading

theorem Ticketed.of_pushStore (hGeometry : Geometry mask m) {s : State τ T}
    (h : Ticketed m s) {u : τ} {data : T} {pos : SizeT} (hPc : s.pcs u = .pushStore data pos) :
    Serves m s pos .writing ∧ (cellOf m s pos).data = data ∧ OnlyHolder m s (pos.toNat % m) u := by
  obtain ⟨hOnly, ⟨hServes, _, hWriting | ⟨hStoring, hData⟩⟩ |
    ⟨-, ⟨hReading, -⟩ | ⟨_, hReading, -⟩⟩⟩ :=
    h.held hGeometry.cells_pos (by rw [hPc]; rfl)
  · cases hPc.symm.trans hWriting
  · cases hPc.symm.trans hStoring
    exact ⟨hServes, hData, hOnly⟩
  · cases hPc.symm.trans hReading
  · cases hPc.symm.trans hReading

theorem Ticketed.of_popRead (hGeometry : Geometry mask m) {s : State τ T}
    (h : Ticketed m s) {u : τ} {pos : SizeT} (hPc : s.pcs u = .popRead pos) :
    Serves m s pos .reading ∧ (pos, (cellOf m s pos).data) ∈ s.shared.stored ∧
      OnlyHolder m s (pos.toNat % m) u := by
  obtain ⟨hOnly, ⟨-, _, hWriting | ⟨hWriting, -⟩⟩ |
    ⟨hServes, ⟨-, hStored⟩ | ⟨_, hStoring, -⟩⟩⟩ :=
    h.held hGeometry.cells_pos (by rw [hPc]; rfl)
  · cases hPc.symm.trans hWriting
  · cases hPc.symm.trans hWriting
  · exact ⟨hServes, hStored, hOnly⟩
  · cases hPc.symm.trans hStoring

theorem Ticketed.of_popStore (hGeometry : Geometry mask m) {s : State τ T}
    (h : Ticketed m s) {u : τ} {pos : SizeT} {outData : T}
    (hPc : s.pcs u = .popStore pos outData) :
    Serves m s pos .reading ∧ (pos, outData) ∈ s.shared.stored ∧
      OnlyHolder m s (pos.toNat % m) u := by
  obtain ⟨hOnly, ⟨-, _, hWriting | ⟨hWriting, -⟩⟩ |
    ⟨hServes, ⟨hReading, -⟩ | ⟨_, hStoring, hStored⟩⟩⟩ :=
    h.held hGeometry.cells_pos (by rw [hPc]; rfl)
  · cases hPc.symm.trans hWriting
  · cases hPc.symm.trans hWriting
  · cases hPc.symm.trans hReading
  · cases hPc.symm.trans hStoring
    exact ⟨hServes, hStored, hOnly⟩

/-- The cell of the next ticket is empty as soon as its sequence number has
reached the ticket, however long ago that was seen. -/
theorem Ticketed.serves_empty (hGeometry : Geometry mask m) {s : State τ T} (h : Ticketed m s)
    {pos : SizeT} (hPos : s.shared.enqueuePos = pos)
    (hSeen : pos.toNat ≤ (cellOf m s pos).sequence.toNat) : Serves m s pos .empty := by
  obtain ⟨pos', phase, hCell, hServes⟩ := h.cells (pos.toNat % m) (Nat.mod_lt _ hGeometry.cells_pos)
  have hLap := hServes.lap
  rw [← h.enqueuePos, hPos] at hLap
  rw [cellOf, ← hCell] at hSeen
  obtain ⟨rfl, hSame⟩ := hLap.empty_of_enqueued hGeometry.atLeastTwo hCell hSeen
  obtain rfl := BitVec.eq_of_toNat_eq hSame
  exact hServes

theorem Ticketed.serves_full (hGeometry : Geometry mask m) {s : State τ T} (h : Ticketed m s)
    {pos : SizeT} (hPos : s.shared.dequeuePos = pos)
    (hSeen : pos.toNat + 1 ≤ (cellOf m s pos).sequence.toNat) : Serves m s pos .full := by
  obtain ⟨pos', phase, hCell, hServes⟩ := h.cells (pos.toNat % m) (Nat.mod_lt _ hGeometry.cells_pos)
  have hLap := hServes.lap
  rw [← h.dequeuePos, hPos] at hLap
  rw [cellOf, ← hCell] at hSeen
  obtain ⟨rfl, hSame⟩ := hLap.full_of_dequeued hCell hSeen
  obtain rfl := BitVec.eq_of_toNat_eq hSame
  exact hServes

/-! ## What the invariant gives -/

/-- What the queue promises to its threads. -/
structure NothingLostOrTorn (mask : SizeT) (s : State τ T) : Prop where
  pushTicketsOnce : s.shared.pushTickets.Nodup
  popTicketsOnce : s.shared.popTickets.Nodup
  exclusive : ∀ u v pos pos', (s.pcs u).reserved = some pos → (s.pcs v).reserved = some pos' →
    cellIndex mask pos = cellIndex mask pos' → u = v
  readsStored : ∀ u pos, s.pcs u = .popRead pos →
    (pos, (s.shared.cell mask pos).data) ∈ s.shared.stored
  taken : ∀ e ∈ s.shared.taken, e ∈ s.shared.stored
  returned : ∀ e ∈ s.shared.returned, e ∈ s.shared.stored
  storedOnce : (s.shared.stored.map Prod.fst).Nodup
  storedTickets : ∀ e ∈ s.shared.stored, e.1 ∈ s.shared.pushTickets
  returnedOnce : (s.shared.returned.map Prod.fst).Nodup
  returnedTickets : ∀ e ∈ s.shared.returned, e.1 ∈ s.shared.popTickets

theorem nodup_of_map_toNat {tickets : List SizeT} {n : Nat}
    (h : tickets.map BitVec.toNat = List.range n) : tickets.Nodup := by
  apply List.Nodup.of_map BitVec.toNat
  rw [h]
  exact List.nodup_range

theorem Ticketed.nothingLostOrTorn (hGeometry : Geometry mask m) {s : State τ T}
    (h : Ticketed m s) : NothingLostOrTorn mask s where
  pushTicketsOnce := nodup_of_map_toNat h.pushTickets
  popTicketsOnce := nodup_of_map_toNat h.popTickets
  exclusive u v pos pos' hu hv hSame := by
    rw [hGeometry.index, hGeometry.index] at hSame
    obtain ⟨hOnly, -⟩ := h.held hGeometry.cells_pos hu
    exact (hOnly v ⟨pos', hv, hSame.symm⟩).symm
  readsStored u pos hPc := by
    rw [cell_eq hGeometry]
    exact (h.of_popRead hGeometry hPc).2.1
  taken := h.taken
  returned := h.returned
  storedOnce := h.storedOnce
  storedTickets := h.storedTickets
  returnedOnce := h.returnedOnce
  returnedTickets := h.returnedTickets

/-! ## The state after a step -/

variable [DecidableEq τ]

def after (s : State τ T) (u : τ) (q : Shared T) (pc : Pc T) : State τ T :=
  ⟨q, Function.update s.pcs u pc⟩

theorem after_pcs_self (s : State τ T) (u : τ) (q : Shared T) (pc : Pc T) :
    (after s u q pc).pcs u = pc :=
  Function.update_self _ _ _

theorem after_pcs_of_ne (s : State τ T) {u v : τ} (hThread : v ≠ u) (q : Shared T) (pc : Pc T) :
    (after s u q pc).pcs v = s.pcs v :=
  Function.update_of_ne hThread _ _

theorem frame_after {s : State τ T} {u : τ} {q : Shared T} {pc : Pc T} {c : Nat}
    (hBefore : ¬HoldsCell m (s.pcs u) c) (hAfter : ¬HoldsCell m pc c)
    (hCell : q.buffer c = s.shared.buffer c) (hStored : s.shared.stored ⊆ q.stored) :
    Frame m s (after s u q pc) u c where
  others _ hThread := after_pcs_of_ne s hThread q pc
  before := hBefore
  after := by rwa [after_pcs_self]
  cell := hCell
  stored := hStored

theorem seen_after {s : State τ T} {u : τ} {q : Shared T} {pc : Pc T} (h : Ticketed m s)
    (hSequence : ∀ c, (s.shared.buffer c).sequence.toNat ≤ (q.buffer c).sequence.toNat)
    (hPops : s.shared.popTickets.length ≤ q.popTickets.length) (hPc : Seen m q pc) (v : τ) :
    Seen m q ((after s u q pc).pcs v) := by
  by_cases hThread : v = u
  · rw [hThread, after_pcs_self]
    exact hPc
  · rw [after_pcs_of_ne s hThread]
    exact (h.seen v).mono hSequence hPops

theorem OnlyHolder.after {s : State τ T} {u : τ} {c : Nat} (h : OnlyHolder m s c u) (q : Shared T)
    (pc : Pc T) : OnlyHolder m (after s u q pc) c u := by
  intro v hHolds
  by_contra hThread
  rw [after_pcs_of_ne s hThread] at hHolds
  exact hThread (h v hHolds)

theorem OnlyHolder.vacant {s : State τ T} {u : τ} {c : Nat} (h : OnlyHolder m s c u) (q : Shared T)
    {pc : Pc T} (hPc : pc.reserved = none) : Vacant m (MPMCQueue.after s u q pc) c := by
  intro v hHolds
  obtain rfl := h.after q pc v hHolds
  rw [after_pcs_self] at hHolds
  exact not_holdsCell_of_not_reserved hPc _ hHolds

/-- A step that touches the cell of one ticket needs a new account of that cell
only. -/
theorem cells_after {s : State τ T} {u : τ} {pos : SizeT} {q : Shared T} {pc : Pc T}
    (h : Ticketed m s) (hBefore : ∀ c, pos.toNat % m ≠ c → ¬HoldsCell m (s.pcs u) c)
    (hAfter : ∀ c, pos.toNat % m ≠ c → ¬HoldsCell m pc c)
    (hLap : ∀ sequence ticket phase, pos.toNat % m ≠ ticket % m →
      Lap m s.shared.pushTickets.length s.shared.popTickets.length sequence ticket phase →
      Lap m q.pushTickets.length q.popTickets.length sequence ticket phase)
    (hBuffer : ∀ c, pos.toNat % m ≠ c → q.buffer c = s.shared.buffer c)
    (hStored : s.shared.stored ⊆ q.stored) {next : SizeT} {phase : Phase}
    (hNext : next.toNat % m = pos.toNat % m) (hServes : Serves m (after s u q pc) next phase) :
    ∀ c, c < m → ∃ pos phase, pos.toNat % m = c ∧ Serves m (after s u q pc) pos phase := by
  intro c hc
  by_cases hCell : pos.toNat % m = c
  · exact ⟨next, phase, hNext.trans hCell, hServes⟩
  · obtain ⟨pos', phase', rfl, hOther⟩ := h.cells c hc
    have hSame : cellOf m (after s u q pc) pos' = cellOf m s pos' := hBuffer _ hCell
    have hFrame : Frame m s (after s u q pc) u (pos'.toNat % m) :=
      frame_after (hBefore _ hCell) (hAfter _ hCell) (hBuffer _ hCell) hStored
    refine ⟨pos', phase', rfl, ?_, hOther.role.frame hFrame⟩
    rw [hSame]
    exact hLap _ _ _ hCell hOther.lap

/-! ## Steps of a thread that holds no cell -/

theorem quiet_ticketed (hGeometry : Geometry mask m) {s : State τ T} {u : τ} {pc' : Pc T}
    (h : Ticketed m s) (hSmall : successes s < 2 ^ 63) (hBefore : (s.pcs u).reserved = none)
    (hAfter : pc'.reserved = none)
    (hPush : ∀ data pos, pc' = .pushExchange data pos →
      (s.shared.cell mask pos).sequence = pos)
    (hPopPos : ∀ pos, pc' = .popLoadSequence pos → pos = s.shared.dequeuePos)
    (hPop : ∀ pos, pc' = .popExchange pos →
      s.pcs u = .popLoadSequence pos ∧ (s.shared.cell mask pos).sequence = pos + 1) :
    Ticketed m (after s u s.shared pc') := by
  have hSeen : Seen m s.shared pc' := by
    cases pc' with
    | pushExchange data pos =>
      have hSequence := hPush data pos rfl
      rw [Shared.cell, hGeometry.index] at hSequence
      rw [Seen, hSequence]
    | popLoadSequence pos =>
      rw [Seen, hPopPos pos rfl, h.dequeuePos]
    | popExchange pos =>
      obtain ⟨hPc, hSequence⟩ := hPop pos rfl
      have hLoaded := h.seen u
      rw [hPc] at hLoaded
      have hBound : pos.toNat ≤ s.shared.popTickets.length := hLoaded
      rw [successes] at hSmall
      rw [Shared.cell, hGeometry.index] at hSequence
      rw [Seen, hSequence, toNat_add_one (by omega)]
    | _ => trivial
  refine { h with cells := ?_, seen := seen_after h (fun _ => Nat.le_refl _) (Nat.le_refl _) hSeen }
  intro c hc
  obtain ⟨pos, phase, rfl, hServes⟩ := h.cells c hc
  refine ⟨pos, phase, rfl, hServes.lap, hServes.role.frame (u := u) (frame_after ?_ ?_ rfl ?_)⟩
  · exact not_holdsCell_of_not_reserved hBefore _
  · exact not_holdsCell_of_not_reserved hAfter _
  · exact List.Subset.refl _

/-- The tickets drawn are all below their number. -/
theorem mem_of_lt_length {tickets : List SizeT} {pos : SizeT}
    (h : tickets.map BitVec.toNat = List.range tickets.length) (hPos : pos.toNat < tickets.length) :
    pos ∈ tickets := by
  have hNumber : pos.toNat ∈ tickets.map BitVec.toNat := h ▸ List.mem_range.mpr hPos
  obtain ⟨ticket, hMem, hSame⟩ := List.mem_map.mp hNumber
  rwa [← BitVec.eq_of_toNat_eq hSame]

theorem nodup_fst_concat {entries : List (SizeT × T)} {e : SizeT × T}
    (h : (entries.map Prod.fst).Nodup) (hNew : ∀ old ∈ entries, old.1 ≠ e.1) :
    ((entries ++ [e]).map Prod.fst).Nodup := by
  rw [List.map_append]
  refine List.Nodup.append h (List.nodup_singleton e.1) ?_
  intro ticket hOld hHere
  obtain ⟨old, hMem, rfl⟩ := List.mem_map.mp hOld
  exact hNew old hMem (List.mem_singleton.mp hHere)

theorem range_concat {tickets : List SizeT} {pos : SizeT}
    (h : tickets.map BitVec.toNat = List.range tickets.length) (hPos : pos.toNat = tickets.length) :
    (tickets ++ [pos]).map BitVec.toNat = List.range (tickets ++ [pos]).length := by
  rw [List.map_append, h, List.length_append, List.length_singleton, List.range_succ, ← hPos]
  rfl

theorem reservePush_ticketed (hGeometry : Geometry mask m) {s : State τ T} {u : τ}
    {data : T} {pos : SizeT} (h : Ticketed m s) (hSmall : successes s + 1 < 2 ^ 63)
    (hPc : s.pcs u = .pushExchange data pos) (hPos : s.shared.enqueuePos = pos) :
    Ticketed m (after s u { s.shared with
      enqueuePos := pos + 1, pushTickets := s.shared.pushTickets ++ [pos] } (.pushWrite data pos)) := by
  have hTicket : pos.toNat = s.shared.pushTickets.length := by rw [← hPos, h.enqueuePos]
  have hLength : (s.shared.pushTickets ++ [pos]).length = pos.toNat + 1 := by
    rw [List.length_append, hTicket]
    rfl
  have hSeen : pos.toNat ≤ (cellOf m s pos).sequence.toNat := by
    have hThread := h.seen u
    rwa [hPc] at hThread
  have hServes := h.serves_empty hGeometry hPos hSeen
  have hVacant : Vacant m s (pos.toNat % m) := by
    cases hServes.role with
    | empty hVacant => exact hVacant
  rw [successes] at hSmall
  refine { h with
    enqueuePos := by
      dsimp only [after]
      rw [hLength, toNat_add_one (by omega)]
    pushTickets := range_concat h.pushTickets hTicket
    cells := cells_after h ?_ (fun _ => not_holdsCell_of_reserved rfl) ?_ (fun _ _ => rfl)
      (List.Subset.refl _) rfl
      ⟨?_, .writing u ((hVacant.onlyHolder u).after _ _) ⟨data, .inl (after_pcs_self _ _ _ _)⟩⟩
    seen := seen_after h (fun _ => Nat.le_refl _) (Nat.le_refl _) trivial
    storedTickets := fun e he => List.mem_append_left _ (h.storedTickets e he) }
  · intro c _
    rw [hPc]
    exact not_holdsCell_of_not_reserved rfl c
  · intro sequence ticket phase hOther hLap
    rw [← hTicket] at hLap
    rw [hLength]
    exact hLap.enqueue_other (Ne.symm hOther)
  · have hLap := hServes.lap
    rw [← hTicket] at hLap
    dsimp only [after]
    rw [hLength]
    exact hLap.enqueue

theorem reservePop_ticketed (hGeometry : Geometry mask m) {s : State τ T} {u : τ} {pos : SizeT}
    (h : Ticketed m s) (hSmall : successes s + 1 < 2 ^ 63) (hPc : s.pcs u = .popExchange pos)
    (hPos : s.shared.dequeuePos = pos) :
    Ticketed m (after s u { s.shared with
      dequeuePos := pos + 1, popTickets := s.shared.popTickets ++ [pos] } (.popRead pos)) := by
  have hTicket : pos.toNat = s.shared.popTickets.length := by rw [← hPos, h.dequeuePos]
  have hLength : (s.shared.popTickets ++ [pos]).length = pos.toNat + 1 := by
    rw [List.length_append, hTicket]
    rfl
  have hSeen : pos.toNat + 1 ≤ (cellOf m s pos).sequence.toNat := by
    have hThread := h.seen u
    rwa [hPc] at hThread
  have hServes := h.serves_full hGeometry hPos hSeen
  obtain ⟨hVacant, hStored⟩ : Vacant m s (pos.toNat % m) ∧
      (pos, (cellOf m s pos).data) ∈ s.shared.stored := by
    cases hServes.role with
    | full hVacant hStored => exact ⟨hVacant, hStored⟩
  rw [successes] at hSmall
  refine { h with
    dequeuePos := by
      dsimp only [after]
      rw [hLength, toNat_add_one (by omega)]
    popTickets := range_concat h.popTickets hTicket
    cells := cells_after h ?_ (fun _ => not_holdsCell_of_reserved rfl) ?_ (fun _ _ => rfl)
      (List.Subset.refl _) rfl
      ⟨?_, .reading u ((hVacant.onlyHolder u).after _ _) (.inl ⟨after_pcs_self _ _ _ _, hStored⟩)⟩
    seen := seen_after h (fun _ => Nat.le_refl _)
      (List.prefix_append s.shared.popTickets [pos]).length_le trivial
    returnedTickets := fun e he => List.mem_append_left _ (h.returnedTickets e he) }
  · intro c _
    rw [hPc]
    exact not_holdsCell_of_not_reserved rfl c
  · intro sequence ticket phase hOther hLap
    rw [← hTicket] at hLap
    rw [hLength]
    exact hLap.dequeue_other (Ne.symm hOther)
  · have hLap := hServes.lap
    rw [← hTicket] at hLap
    dsimp only [after]
    rw [hLength]
    exact hLap.dequeue

/-! ## Steps of a thread that holds a cell -/

theorem setCell_buffer_self (hRing : Ring mask m) (q : Shared T) (pos : SizeT)
    (cell : Cell T) : (q.setCell mask pos cell).buffer (pos.toNat % m) = cell := by
  rw [Shared.setCell, hRing.index]
  exact Function.update_self _ _ _

theorem setCell_buffer_of_ne (hRing : Ring mask m) (q : Shared T) {pos : SizeT}
    {c : Nat} (hCell : pos.toNat % m ≠ c) (cell : Cell T) :
    (q.setCell mask pos cell).buffer c = q.buffer c := by
  rw [Shared.setCell, hRing.index]
  exact Function.update_of_ne hCell.symm _ _

theorem sequence_le_setCell (hGeometry : Geometry mask m) (q : Shared T) (pos : SizeT)
    (cell : Cell T) (hCell : (q.buffer (pos.toNat % m)).sequence.toNat ≤ cell.sequence.toNat)
    (c : Nat) : (q.buffer c).sequence.toNat ≤
      ((q.setCell mask pos cell).buffer c).sequence.toNat := by
  by_cases hSame : pos.toNat % m = c
  · rw [← hSame, setCell_buffer_self hGeometry.ring]
    exact hCell
  · rw [setCell_buffer_of_ne hGeometry.ring _ hSame]

theorem write_ticketed (hGeometry : Geometry mask m) {s : State τ T} {u : τ} {data : T}
    {pos : SizeT} (h : Ticketed m s) (hPc : s.pcs u = .pushWrite data pos) :
    Ticketed m (after s u
      (s.shared.setCell mask pos { s.shared.cell mask pos with data := data })
      (.pushStore data pos)) := by
  obtain ⟨hServes, hOnly⟩ := h.of_pushWrite hGeometry hPc
  have hReserved : (s.pcs u).reserved = some pos := by rw [hPc]; rfl
  have hGrows := sequence_le_setCell hGeometry s.shared pos
    { s.shared.cell mask pos with data := data } (by rw [cell_eq hGeometry]; rfl)
  have hCell : cellOf m (after s u
      (s.shared.setCell mask pos { s.shared.cell mask pos with data := data })
      (.pushStore data pos)) pos = ⟨(cellOf m s pos).sequence, data⟩ := by
    rw [← cell_eq hGeometry s pos]
    exact setCell_buffer_self hGeometry.ring _ _ _
  refine { h with
    cells := cells_after h (fun _ => not_holdsCell_of_reserved hReserved)
      (fun _ => not_holdsCell_of_reserved rfl) (fun _ _ _ _ hLap => hLap)
      (fun _ hOther => setCell_buffer_of_ne hGeometry.ring _ hOther _) (List.Subset.refl _) rfl
      ⟨?_, .writing u (hOnly.after _ _) ⟨data, .inr ⟨after_pcs_self _ _ _ _, ?_⟩⟩⟩
    seen := seen_after h hGrows (Nat.le_refl _) trivial
    storedBelow := fun e he => Nat.lt_of_lt_of_le (h.storedBelow e he) (hGrows _)
    returnedBelow := fun e he => Nat.lt_of_lt_of_le (h.returnedBelow e he) (hGrows _) }
  · rw [hCell]
    exact hServes.lap
  · rw [hCell]

theorem publish_ticketed (hGeometry : Geometry mask m) {s : State τ T} {u : τ} {data : T}
    {pos : SizeT} (h : Ticketed m s) (hSmall : successes s < 2 ^ 63)
    (hPc : s.pcs u = .pushStore data pos) :
    Ticketed m (after s u
      { s.shared.setCell mask pos
          { s.shared.cell mask pos with sequence := pos + 1 } with
        stored := s.shared.stored ++ [(pos, data)] } .idle) := by
  obtain ⟨hServes, hData, hOnly⟩ := h.of_pushStore hGeometry hPc
  have hReserved : (s.pcs u).reserved = some pos := by rw [hPc]; rfl
  obtain ⟨hSequence, hDrawn⟩ : (cellOf m s pos).sequence.toNat = pos.toNat ∧
      pos.toNat < s.shared.pushTickets.length := by
    cases hServes.lap with
    | writing => exact ⟨‹_›, ‹_›⟩
  rw [successes] at hSmall
  have hNext : (pos + 1).toNat = pos.toNat + 1 := toNat_add_one (by omega)
  have hGrows := sequence_le_setCell hGeometry s.shared pos
    { s.shared.cell mask pos with sequence := pos + 1 }
    (by change (cellOf m s pos).sequence.toNat ≤ (pos + 1).toNat; omega)
  have hCell : cellOf m (after s u
      { s.shared.setCell mask pos
          { s.shared.cell mask pos with sequence := pos + 1 } with
        stored := s.shared.stored ++ [(pos, data)] } .idle) pos = ⟨pos + 1, data⟩ := by
    rw [← hData, ← cell_eq hGeometry s pos]
    exact setCell_buffer_self hGeometry.ring _ _ _
  refine { h with
    cells := cells_after h (fun _ => not_holdsCell_of_reserved hReserved)
      (fun c _ => not_holdsCell_of_not_reserved rfl c) (fun _ _ _ _ hLap => hLap)
      (fun _ hOther => setCell_buffer_of_ne hGeometry.ring _ hOther _) (List.subset_append_left _ _) rfl
      ⟨?_, .full (hOnly.vacant _ rfl) ?_⟩
    seen := seen_after h hGrows (Nat.le_refl _) trivial
    storedBelow := forall_mem_concat (fun e he => Nat.lt_of_lt_of_le (h.storedBelow e he) (hGrows _)) ?_
    storedOnce := nodup_fst_concat h.storedOnce fun old hOld => ?_
    storedTickets := forall_mem_concat h.storedTickets (mem_of_lt_length h.pushTickets hDrawn)
    taken := fun e he => List.mem_append_left _ (h.taken e he)
    returned := fun e he => List.mem_append_left _ (h.returned e he)
    returnedBelow := fun e he => Nat.lt_of_lt_of_le (h.returnedBelow e he) (hGrows _) }
  · rw [hCell, hNext]
    exact hServes.lap.publish
  · rw [hCell]
    exact List.mem_append_right _ List.mem_cons_self
  · rw [hCell, hNext]
    exact Nat.lt_succ_self _
  · rintro rfl
    have hBelow := h.storedBelow old hOld
    rw [hSequence] at hBelow
    exact Nat.lt_irrefl _ hBelow

theorem read_ticketed (hGeometry : Geometry mask m) {s : State τ T} {u : τ} {pos : SizeT}
    (h : Ticketed m s) (hPc : s.pcs u = .popRead pos) :
    Ticketed m (after s u
      { s.shared with taken := s.shared.taken ++ [(pos, (s.shared.cell mask pos).data)] }
      (.popStore pos (s.shared.cell mask pos).data)) := by
  obtain ⟨hServes, hStored, hOnly⟩ := h.of_popRead hGeometry hPc
  have hReserved : (s.pcs u).reserved = some pos := by rw [hPc]; rfl
  rw [cell_eq hGeometry]
  refine { h with
    cells := cells_after h (fun _ => not_holdsCell_of_reserved hReserved)
      (fun _ => not_holdsCell_of_reserved rfl) (fun _ _ _ _ hLap => hLap)
      (fun _ _ => rfl) (List.Subset.refl _) rfl
      ⟨hServes.lap, .reading u (hOnly.after _ _) (.inr ⟨_, after_pcs_self _ _ _ _, hStored⟩)⟩
    seen := seen_after h (fun _ => Nat.le_refl _) (Nat.le_refl _) trivial
    taken := forall_mem_concat h.taken hStored }

theorem toNat_next_lap (hRing : Ring mask m) {pos : SizeT}
    (h : pos.toNat < 2 ^ 63) : (pos + mask + 1).toNat = pos.toNat + m := by
  have hMask := hRing.toNat_mask
  have hBound := hRing.atMost
  rw [BitVec.toNat_add, BitVec.toNat_add]
  change ((pos.toNat + mask.toNat) % 2 ^ 64 + 1) % 2 ^ 64 = _
  omega

theorem release_ticketed (hGeometry : Geometry mask m) {s : State τ T} {u : τ} {outData : T}
    {pos : SizeT} (h : Ticketed m s) (hSmall : successes s < 2 ^ 63)
    (hPc : s.pcs u = .popStore pos outData) :
    Ticketed m (after s u
      { s.shared.setCell mask pos
          { s.shared.cell mask pos with sequence := pos + mask + 1 } with
        returned := s.shared.returned ++ [(pos, outData)] } .idle) := by
  obtain ⟨hServes, hStored, hOnly⟩ := h.of_popStore hGeometry hPc
  have hReserved : (s.pcs u).reserved = some pos := by rw [hPc]; rfl
  obtain ⟨hSequence, hDrawn⟩ : (cellOf m s pos).sequence.toNat = pos.toNat + 1 ∧
      pos.toNat < s.shared.popTickets.length := by
    cases hServes.lap with
    | reading => exact ⟨‹_›, ‹_›⟩
  rw [successes] at hSmall
  have hAtLeast := hGeometry.atLeastTwo
  have hNext := toNat_next_lap hGeometry.ring (by omega : pos.toNat < 2 ^ 63)
  have hSame : (pos + mask + 1).toNat % m = pos.toNat % m := by
    rw [hNext, Nat.add_mod_right]
  have hGrows := sequence_le_setCell hGeometry s.shared pos
    { s.shared.cell mask pos with sequence := pos + mask + 1 }
    (by change (cellOf m s pos).sequence.toNat ≤ (pos + mask + 1).toNat; omega)
  have hCell : (cellOf m (after s u
      { s.shared.setCell mask pos
          { s.shared.cell mask pos with sequence := pos + mask + 1 } with
        returned := s.shared.returned ++ [(pos, outData)] } .idle)
      (pos + mask + 1)).sequence = pos + mask + 1 := by
    rw [cellOf, hSame]
    exact congrArg Cell.sequence (setCell_buffer_self hGeometry.ring _ _ _)
  have hHere := hCell
  rw [cellOf, hSame] at hHere
  refine { h with
    cells := cells_after h (fun _ => not_holdsCell_of_reserved hReserved)
      (fun c _ => not_holdsCell_of_not_reserved rfl c) (fun _ _ _ _ hLap => hLap)
      (fun _ hOther => setCell_buffer_of_ne hGeometry.ring _ hOther _) (List.Subset.refl _) hSame
      ⟨?_, .empty ?_⟩
    seen := seen_after h hGrows (Nat.le_refl _) trivial
    storedBelow := fun e he => Nat.lt_of_lt_of_le (h.storedBelow e he) (hGrows _)
    returned := forall_mem_concat h.returned hStored
    returnedBelow :=
      forall_mem_concat (fun e he => Nat.lt_of_lt_of_le (h.returnedBelow e he) (hGrows _)) ?_
    returnedOnce := nodup_fst_concat h.returnedOnce fun old hOld => ?_
    returnedTickets := forall_mem_concat h.returnedTickets (mem_of_lt_length h.popTickets hDrawn) }
  · rw [hCell, hNext]
    exact hServes.lap.release
  · rw [hSame]
    exact hOnly.vacant _ rfl
  · -- the next lap is at least two tickets away
    rw [cellOf, hHere, hNext]
    exact Nat.add_lt_add_left hAtLeast _
  · rintro rfl
    have hBelow := h.returnedBelow old hOld
    rw [hSequence] at hBelow
    exact Nat.lt_irrefl _ hBelow

/-! ## Every interleaving -/

theorem step_ticketed (hGeometry : Geometry mask m) {s s' : State τ T} {a : τ × Access T}
    (h : successes s < 2 ^ 63 → Ticketed m s) (hStep : step mask s a = some s')
    (hSmall : successes s' < 2 ^ 63) : Ticketed m s' := by
  obtain ⟨⟨q, pc'⟩, hThread, rfl⟩ := Option.map_eq_some_iff.mp hStep
  have hEffect := threadStep_effect hThread
  generalize hPc : s.pcs a.1 = pc at hEffect
  cases hEffect with
  | quiet _ _ hBefore hAfter hPush hPopPos hPop =>
    subst hPc
    exact quiet_ticketed hGeometry (h hSmall) hSmall hBefore hAfter hPush hPopPos hPop
  | reservePush data pos hPos =>
    have hLength : (s.shared.pushTickets ++ [pos]).length = s.shared.pushTickets.length + 1 :=
      List.length_append
    have hBefore : successes s + 1 < 2 ^ 63 := by
      simp only [successes] at hSmall ⊢
      omega
    exact reservePush_ticketed hGeometry (h (by omega)) hBefore hPc hPos
  | reservePop pos hPos =>
    have hLength : (s.shared.popTickets ++ [pos]).length = s.shared.popTickets.length + 1 :=
      List.length_append
    have hBefore : successes s + 1 < 2 ^ 63 := by
      simp only [successes] at hSmall ⊢
      omega
    exact reservePop_ticketed hGeometry (h (by omega)) hBefore hPc hPos
  | write data pos => exact write_ticketed hGeometry (h hSmall) hPc
  | publish data pos => exact publish_ticketed hGeometry (h hSmall) hSmall hPc
  | read pos => exact read_ticketed hGeometry (h hSmall) hPc
  | release pos outData => exact release_ticketed hGeometry (h hSmall) hSmall hPc

/-- In every interleaving of any threads' pushes and pops, as long as the
positions do not wrap. -/
theorem queue_nothingLostOrTorn [Inhabited T] (capacity : SizeT)
    (hPower : ∃ k, capacity.toNat = 2 ^ k) (hCapacity : 2 ≤ capacity.toNat) (s : State τ T)
    (hRun : (queue (capacityMask capacity)).Reaches init s)
    (hSuccesses : successes s < 2 ^ 63) :
    NothingLostOrTorn (capacityMask capacity) s := by
  obtain ⟨k, hPower⟩ := hPower
  have hGeometry := geometry_of_two_pow hPower hCapacity
  have hTicketed : successes s < 2 ^ 63 → Ticketed capacity.toNat s := by
    refine hRun.invariant (fun s => successes s < 2 ^ 63 → Ticketed capacity.toNat s) ?_ ?_
    · exact fun _ => ticketed_init hGeometry.atMost
    · exact fun h hStep hSmall => step_ticketed hGeometry h hStep hSmall
  exact (hTicketed hSuccesses).nothingLostOrTorn hGeometry

/-- Two cells and two threads: the pop has reserved the cell of the only item
while the second push is about to publish the next one. -/
theorem queue_nothingLostOrTorn_two_cells :
    ∃ s : State Bool Nat, s.shared.stored = [(0, 7)] ∧ s.pcs true = .pushStore 8 1 ∧
      s.pcs false = .popRead 0 ∧ NothingLostOrTorn (capacityMask 2) s := by
  have hSchedule : (queue (capacityMask 2)).runActions (init : State Bool Nat)
      [(true, .callPush 7), (true, .loadPos), (true, .loadSequence), (true, .compareExchange false),
        (true, .accessData), (true, .storeSequence), (false, .callPop), (false, .loadPos),
        (false, .loadSequence), (true, .callPush 8), (true, .loadPos), (true, .loadSequence),
        (true, .compareExchange false), (false, .compareExchange false), (true, .accessData)] =
      some _ := rfl
  have hRun := StepSystem.Reaches.runActions .refl hSchedule
  exact ⟨_, rfl, rfl, rfl,
    queue_nothingLostOrTorn 2 ⟨1, rfl⟩ (by decide) _ hRun (by decide)⟩

end CounterDroneServer.MPMCQueue

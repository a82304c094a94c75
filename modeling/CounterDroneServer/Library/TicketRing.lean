import CounterDroneServer.Library.RingBuffer

/-!
# Laps of a ticketed cell

Writers and readers of a ring of `m` cells draw tickets from two counters; the
cell of ticket `t` is `t` modulo `m`, and its sequence number says whose turn it
is. `Lap` relates the counters, the sequence number and the ticket that a cell
is serving, for each phase of a lap.
-/

set_option autoImplicit false

namespace TicketRing

inductive Phase
  | empty
  | writing
  | full
  | reading

inductive Lap (m enqueued dequeued sequence ticket : Nat) : Phase → Prop
  | empty (hSequence : sequence = ticket) (hEnqueued : enqueued ≤ ticket)
    (hEnqueuedLap : ticket < enqueued + m) (hDequeued : dequeued ≤ ticket)
    (hDequeuedLap : ticket < dequeued + m) : Lap m enqueued dequeued sequence ticket .empty
  | writing (hSequence : sequence = ticket) (hEnqueued : ticket < enqueued)
    (hEnqueuedLap : enqueued ≤ ticket + m) (hDequeued : dequeued ≤ ticket)
    (hDequeuedLap : ticket < dequeued + m) : Lap m enqueued dequeued sequence ticket .writing
  | full (hSequence : sequence = ticket + 1) (hEnqueued : ticket < enqueued)
    (hEnqueuedLap : enqueued ≤ ticket + m) (hDequeued : dequeued ≤ ticket)
    (hDequeuedLap : ticket < dequeued + m) : Lap m enqueued dequeued sequence ticket .full
  | reading (hSequence : sequence = ticket + 1) (hEnqueued : ticket < enqueued)
    (hEnqueuedLap : enqueued ≤ ticket + m) (hDequeued : ticket < dequeued)
    (hDequeuedLap : dequeued ≤ ticket + m) : Lap m enqueued dequeued sequence ticket .reading

theorem ne_of_mod_ne {m i j : Nat} (hMod : i % m ≠ j % m) : i ≠ j ∧ j ≠ i + m := by
  constructor
  · rintro rfl
    exact hMod rfl
  · rintro rfl
    exact hMod (Nat.add_mod_right i m).symm

variable {m enqueued dequeued sequence ticket : Nat} {phase : Phase}

/-! ## A counter passes another cell -/

theorem Lap.enqueue_other (h : Lap m enqueued dequeued sequence ticket phase)
    (hOther : ticket % m ≠ enqueued % m) : Lap m (enqueued + 1) dequeued sequence ticket phase := by
  obtain ⟨hSame, hLap⟩ := ne_of_mod_ne hOther
  cases h with
  | empty => exact .empty ‹_› (by omega) (by omega) ‹_› ‹_›
  | writing => exact .writing ‹_› (by omega) (by omega) ‹_› ‹_›
  | full => exact .full ‹_› (by omega) (by omega) ‹_› ‹_›
  | reading => exact .reading ‹_› (by omega) (by omega) ‹_› ‹_›

theorem Lap.dequeue_other (h : Lap m enqueued dequeued sequence ticket phase)
    (hOther : ticket % m ≠ dequeued % m) : Lap m enqueued (dequeued + 1) sequence ticket phase := by
  obtain ⟨hSame, hLap⟩ := ne_of_mod_ne hOther
  cases h with
  | empty => exact .empty ‹_› ‹_› ‹_› (by omega) (by omega)
  | writing => exact .writing ‹_› ‹_› ‹_› (by omega) (by omega)
  | full => exact .full ‹_› ‹_› ‹_› (by omega) (by omega)
  | reading => exact .reading ‹_› ‹_› ‹_› (by omega) (by omega)

/-! ## A counter stands at the cell

The sequence number only has to be at least what the drawing thread has seen
some time ago. -/

theorem Lap.empty_of_enqueued (h : Lap m enqueued dequeued sequence ticket phase) (hCells : 2 ≤ m)
    (hCell : ticket % m = enqueued % m) (hSeen : enqueued ≤ sequence) :
    phase = .empty ∧ ticket = enqueued := by
  cases h with
  | empty => exact ⟨rfl, ((RingBuffer.mod_eq_iff ‹_› ‹_›).mp hCell.symm).symm⟩
  | writing | full | reading =>
    rw [← Nat.add_mod_right] at hCell
    have hLap := (RingBuffer.mod_eq_iff ‹_› (by omega)).mp hCell.symm
    omega

theorem Lap.full_of_dequeued (h : Lap m enqueued dequeued sequence ticket phase)
    (hCell : ticket % m = dequeued % m) (hSeen : dequeued + 1 ≤ sequence) :
    phase = .full ∧ ticket = dequeued := by
  cases h with
  | full => exact ⟨rfl, ((RingBuffer.mod_eq_iff ‹_› ‹_›).mp hCell.symm).symm⟩
  | empty | writing =>
    have hTicket := (RingBuffer.mod_eq_iff ‹_› ‹_›).mp hCell.symm
    omega
  | reading =>
    rw [← Nat.add_mod_right] at hCell
    have hLap := (RingBuffer.mod_eq_iff ‹_› (by omega)).mp hCell.symm
    omega

/-! ## What a number shows of the counters

A position read from a counter may be out of date, but never ahead of it. -/

theorem add_le_of_mod_eq {i j : Nat} (hLess : i < j) (hCell : i % m = j % m) : i + m ≤ j := by
  by_contra hNear
  exact RingBuffer.mod_ne_of_lt hLess (by omega) hCell

theorem Lap.sequence_le_enqueued (h : Lap m enqueued dequeued sequence ticket phase)
    (hCell : ticket % m = enqueued % m) : sequence ≤ enqueued := by
  cases h with
  | empty =>
    have hTicket := (RingBuffer.mod_eq_iff ‹_› ‹_›).mp hCell.symm
    omega
  | writing | full | reading => omega

theorem Lap.sequence_le_dequeued (h : Lap m enqueued dequeued sequence ticket phase)
    (hCell : ticket % m = dequeued % m) : sequence ≤ dequeued + 1 := by
  cases h with
  | empty | writing | full =>
    have hTicket := (RingBuffer.mod_eq_iff ‹_› ‹_›).mp hCell.symm
    omega
  | reading => omega

/-- A writer finds its cell taken only if it is not out of date, and either all cells
are reserved or the reader of the lap before has not given the cell up. -/
theorem Lap.behind_enqueued_iff (h : Lap m enqueued dequeued sequence ticket phase) (hCells : 2 ≤ m)
    (hRoom : enqueued ≤ dequeued + m) {pos : Nat} (hCell : ticket % m = pos % m)
    (hPos : pos ≤ enqueued) :
    sequence < pos ↔
      pos = enqueued ∧ (enqueued = dequeued + m ∨ phase = .reading ∧ ticket + m = enqueued) := by
  constructor
  · intro hBehind
    cases h with
    | empty => omega
    | writing | full =>
      have hLap := add_le_of_mod_eq (by omega) hCell
      exact ⟨by omega, .inl (by omega)⟩
    | reading =>
      have hLap := add_le_of_mod_eq (by omega) hCell
      exact ⟨by omega, .inr ⟨rfl, by omega⟩⟩
  · rintro ⟨rfl, hFull | ⟨rfl, hLap⟩⟩
    · cases h with
      | empty => omega
      | writing | full | reading =>
        have hLap := add_le_of_mod_eq (by omega) hCell
        omega
    · cases h with
      | reading => omega

/-- A reader finds nothing in its cell only if it is not out of date, and either no
ticket is left to read or the writer of the next one has not published it. -/
theorem Lap.behind_dequeued_iff (h : Lap m enqueued dequeued sequence ticket phase)
    (hOrder : dequeued ≤ enqueued) {pos : Nat} (hCell : ticket % m = pos % m) (hPos : pos ≤ dequeued) :
    sequence < pos + 1 ↔
      pos = dequeued ∧ (enqueued = dequeued ∨ phase = .writing ∧ ticket = dequeued) := by
  constructor
  · intro hBehind
    cases h with
    | empty => exact ⟨by omega, .inl (by omega)⟩
    | writing => exact ⟨by omega, .inr ⟨rfl, by omega⟩⟩
    | full => omega
    | reading =>
      have hLap := add_le_of_mod_eq (by omega) hCell
      exact ⟨by omega, .inl (by omega)⟩
  · rintro ⟨rfl, hEmpty | ⟨rfl, hTicket⟩⟩
    · cases h with
      | empty =>
        have hTicket := (RingBuffer.mod_eq_iff ‹_› ‹_›).mp hCell.symm
        omega
      | writing | full | reading => omega
    · cases h with
      | writing => omega

/-! ## The cell goes on to its next phase -/

theorem Lap.enqueue (h : Lap m enqueued dequeued sequence enqueued .empty) :
    Lap m (enqueued + 1) dequeued sequence enqueued .writing := by
  cases h with
  | empty => exact .writing ‹_› (by omega) (by omega) ‹_› ‹_›

theorem Lap.publish (h : Lap m enqueued dequeued sequence ticket .writing) :
    Lap m enqueued dequeued (ticket + 1) ticket .full := by
  cases h with
  | writing => exact .full rfl ‹_› ‹_› ‹_› ‹_›

theorem Lap.dequeue (h : Lap m enqueued dequeued sequence dequeued .full) :
    Lap m enqueued (dequeued + 1) sequence dequeued .reading := by
  cases h with
  | full => exact .reading ‹_› ‹_› ‹_› (by omega) (by omega)

theorem Lap.release (h : Lap m enqueued dequeued sequence ticket .reading) :
    Lap m enqueued dequeued (ticket + m) (ticket + m) .empty := by
  cases h with
  | reading => exact .empty rfl ‹_› (by omega) ‹_› (by omega)

end TicketRing

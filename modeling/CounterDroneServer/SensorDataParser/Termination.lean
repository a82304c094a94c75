import CounterDroneServer.SensorDataParser.Process

/-!
# The parsing loop ends

From any members whatever, reachable or not. A round that sets `state_changed`
gives up a byte or goes forward in the cycle of the states; the measure of
`Cursor.rank` combines the two.
-/

set_option autoImplicit false

namespace CounterDroneServer.SensorDataParser

universe u

variable {ρ : Type u}

/-- What one round does to the view and the state. `phase` counts down from
`WAIT_FOR_SYNC` to `READ_PAYLOAD`, so a lower phase is a state further on. -/
structure Advances (deserializePayload : BytesArray → ρ) (c : Cursor ρ) : Prop where
  removes_held : (round deserializePayload c.parser c.view).removed ≤ c.view.length
  view_suffix : (c.next deserializePayload).view <:+ c.view
  shorter_or_forward : (c.next deserializePayload).stateChanged = true →
    (c.next deserializePayload).view.length < c.view.length ∨
      phase (c.next deserializePayload).parser.state < phase c.parser.state

theorem Cursor.advances (d : BytesArray → ρ) {c : Cursor ρ} (hGuard : c.guard = true) :
    Advances d c where
  removes_held := round_removed_le d c.parser c.view (view_ne_nil hGuard)
  view_suffix := List.drop_suffix _ _
  shorter_or_forward hChanged := by
    have hPositive := List.length_pos_iff.mpr (view_ne_nil hGuard)
    rcases round_phase_lt d c.parser c.view hChanged with ⟨hRemoved, -⟩ | hForward
    · left
      rw [Cursor.next, List.length_drop]
      omega
    · exact .inr hForward

/-- The loop of `process_accumulated_data` ends, and each of its rounds advances. -/
theorem parsing_loop_ends (d : BytesArray → ρ) (p : SensorDataParser ρ) :
    (∃ rounds, ((Cursor.next d)^[rounds] ⟨p, p.accumulatedData, true⟩).guard = false) ∧
      ∀ c : Cursor ρ, c.guard = true → Advances d c := by
  constructor
  · obtain ⟨rounds, hStop, -⟩ := (loop d).exists_rounds ⟨p, p.accumulatedData, true⟩
    exact ⟨rounds, hStop⟩
  · intro c hGuard
    exact c.advances d hGuard

end CounterDroneServer.SensorDataParser

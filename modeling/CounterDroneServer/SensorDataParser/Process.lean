import CounterDroneServer.SensorDataParser.Rounds

/-!
# The parsing loop and the batches it is fed

The loop runs while `state_changed` holds and the view is not empty. Its
variant counts four for every byte of the view, so that giving up one byte pays
for a return to `WAIT_FOR_SYNC`, and one more for a raised `state_changed`.
-/

set_option autoImplicit false

namespace CounterDroneServer.SensorDataParser

universe u v

variable {ρ : Type u}

/-- The members and the local variables of `process_accumulated_data`. -/
structure Cursor (ρ : Type u) where
  parser : SensorDataParser ρ
  view : BytesArray
  stateChanged : Bool

def Cursor.guard (c : Cursor ρ) : Bool := c.stateChanged && !c.view.isEmpty

def Cursor.next (deserializePayload : BytesArray → ρ) (c : Cursor ρ) : Cursor ρ :=
  let r := round deserializePayload c.parser c.view
  { parser := r.parser, view := c.view.drop r.removed, stateChanged := r.stateChanged }

def Cursor.rank (c : Cursor ρ) : Nat :=
  2 * (4 * c.view.length + phase c.parser.state) + if c.stateChanged then 1 else 0

theorem Cursor.view_ne_nil {c : Cursor ρ} (h : c.guard = true) : c.view ≠ [] := by
  intro hView
  simp [Cursor.guard, hView] at h

theorem Cursor.rank_next (d : BytesArray → ρ) (c : Cursor ρ) (h : c.guard = true) :
    (c.next d).rank < c.rank := by
  have hRemoved := round_removed_le d c.parser c.view (view_ne_nil h)
  have hChanged : c.stateChanged = true := (Bool.and_eq_true_iff.mp h).1
  simp only [rank, next, List.length_drop, hChanged, if_true]
  rcases Bool.eq_false_or_eq_true (round d c.parser c.view).stateChanged with hNext | hNext
  · have hPhase := round_phase_lt d c.parser c.view hNext
    simp only [hNext, if_true]
    omega
  · rw [round_parser_of_not_changed d c.parser c.view hNext]
    simp only [hNext, Bool.false_eq_true, if_false]
    omega

/-- The loop of `process_accumulated_data`. -/
def loop (deserializePayload : BytesArray → ρ) : WhileLoop (Cursor ρ) where
  guard := Cursor.guard
  body := Cursor.next deserializePayload
  rank := Cursor.rank
  rank_body := Cursor.rank_next deserializePayload

def processAccumulatedData (deserializePayload : BytesArray → ρ) (p : SensorDataParser ρ) :
    SensorDataParser ρ :=
  let last := (loop deserializePayload).run ⟨p, p.accumulatedData, true⟩
  let processedBytes := p.accumulatedData.length - last.view.length
  { last.parser with accumulatedData := p.accumulatedData.drop processedBytes }

/-- One pass of `process_loop`: the popped chunks are appended and processed. -/
def processBatch (deserializePayload : BytesArray → ρ) (p : SensorDataParser ρ)
    (newDataChunks : List BytesArray) : SensorDataParser ρ :=
  processAccumulatedData deserializePayload
    { p with accumulatedData := newDataChunks.foldl (· ++ ·) p.accumulatedData }

def withBuffer (p : SensorDataParser ρ) (buffer : BytesArray) : SensorDataParser ρ :=
  { p with accumulatedData := buffer }

def append (p : SensorDataParser ρ) (bytes : BytesArray) : SensorDataParser ρ :=
  p.withBuffer (p.accumulatedData ++ bytes)

theorem processBatch_eq (d : BytesArray → ρ) (p : SensorDataParser ρ) (chunks : List BytesArray) :
    processBatch d p chunks = processAccumulatedData d (p.append chunks.flatten) := by
  have hChunks := @List.foldl_append_eq_append _ _ chunks id p.accumulatedData
  rw [List.map_id] at hChunks
  exact congrArg (fun buffer => processAccumulatedData d (p.withBuffer buffer)) hChunks

def processBatches (deserializePayload : BytesArray → ρ) (p : SensorDataParser ρ)
    (batches : List (List BytesArray)) : SensorDataParser ρ :=
  batches.foldl (processBatch deserializePayload) p

/-- The parsers that some stream, cut and batched in some way, leads to. -/
def Reachable (deserializePayload : BytesArray → ρ) (p : SensorDataParser ρ) : Prop :=
  ∃ batches, p = processBatches deserializePayload {} batches

/-! ## The loop as a function of the members and the view -/

def scanView (deserializePayload : BytesArray → ρ) (p : SensorDataParser ρ) (view : BytesArray) :
    SensorDataParser ρ × BytesArray :=
  let last := (loop deserializePayload).run ⟨p, view, true⟩
  (last.parser, last.view)

@[simp] theorem scanView_nil (d : BytesArray → ρ) (p : SensorDataParser ρ) :
    scanView d p [] = (p, []) := by
  rw [scanView, WhileLoop.run_of_not_guard _ rfl]

theorem scanView_of_changed (d : BytesArray → ρ) (p : SensorDataParser ρ) {view : BytesArray}
    (hView : view ≠ []) (h : (round d p view).stateChanged = true) :
    scanView d p view = scanView d (round d p view).parser (view.drop (round d p view).removed) := by
  have hGuard : (loop d).guard ⟨p, view, true⟩ = true := by
    simpa [loop, Cursor.guard] using hView
  rw [scanView, WhileLoop.run_of_guard _ hGuard, scanView, ← h]
  rfl

theorem scanView_of_not_changed (d : BytesArray → ρ) (p : SensorDataParser ρ) {view : BytesArray}
    (hView : view ≠ []) (h : (round d p view).stateChanged = false) :
    scanView d p view = (p, view.drop (round d p view).removed) := by
  have hGuard : (loop d).guard ⟨p, view, true⟩ = true := by
    simpa [loop, Cursor.guard] using hView
  have hStop : (loop d).guard ((loop d).body ⟨p, view, true⟩) = false := by
    simp [loop, Cursor.guard, Cursor.next, h]
  rw [scanView, WhileLoop.run_of_guard _ hGuard, WhileLoop.run_of_not_guard _ hStop]
  exact Prod.ext (round_parser_of_not_changed d p view h) rfl

/-- Induction along the rounds of one execution of the loop. -/
theorem scanView_induction (d : BytesArray → ρ)
    {motive : SensorDataParser ρ → BytesArray → Prop}
    (empty : ∀ p, motive p [])
    (stopped : ∀ p view, view ≠ [] → (round d p view).stateChanged = false → motive p view)
    (advanced : ∀ p view, view ≠ [] → (round d p view).stateChanged = true →
      motive (round d p view).parser (view.drop (round d p view).removed) → motive p view)
    (p : SensorDataParser ρ) (view : BytesArray) : motive p view := by
  have h : ∀ c : Cursor ρ, c.stateChanged = true → motive c.parser c.view := by
    intro c
    induction c using (loop d).induction with
    | stop c hGuard =>
      intro hChanged
      have hView : c.view = [] := by simpa [loop, Cursor.guard, hChanged] using hGuard
      exact hView ▸ empty c.parser
    | round c hGuard ih =>
      intro _
      have hView := Cursor.view_ne_nil hGuard
      cases hNext : (round d c.parser c.view).stateChanged with
      | false => exact stopped c.parser c.view hView hNext
      | true => exact advanced c.parser c.view hView hNext (ih hNext)
  exact h ⟨p, view, true⟩ rfl

theorem scanView_suffix (d : BytesArray → ρ) (p : SensorDataParser ρ) (view : BytesArray) :
    (scanView d p view).2 <:+ view := by
  induction p, view using scanView_induction d with
  | empty p => simp
  | stopped p view hView h =>
    rw [scanView_of_not_changed d p hView h]
    exact List.drop_suffix _ _
  | advanced p view hView h ih =>
    rw [scanView_of_changed d p hView h]
    exact ih.trans (List.drop_suffix _ _)

/-- The single erase at the end leaves exactly the view. -/
theorem processAccumulatedData_eq (d : BytesArray → ρ) (p : SensorDataParser ρ) :
    processAccumulatedData d p =
      (scanView d p p.accumulatedData).1.withBuffer (scanView d p p.accumulatedData).2 := by
  have hDrop := List.suffix_iff_eq_drop.mp (scanView_suffix d p p.accumulatedData)
  conv => rhs; rw [hDrop]
  rfl

/-- A property of the members that no round breaks survives a call. -/
theorem scanView_invariant (d : BytesArray → ρ) {Inv : SensorDataParser ρ → Prop}
    (hRound : ∀ p view, Inv p → Inv (round d p view).parser)
    (p : SensorDataParser ρ) (view : BytesArray) (h : Inv p) : Inv (scanView d p view).1 := by
  induction p, view using scanView_induction d with
  | empty p => rwa [scanView_nil]
  | stopped p view hView hChanged => rwa [scanView_of_not_changed d p hView hChanged]
  | advanced p view hView hChanged ih =>
    rw [scanView_of_changed d p hView hChanged]
    exact ih (hRound p view h)

/-- Records are only added behind those already pushed. -/
theorem scanView_pushedTelemetry (d : BytesArray → ρ) (p : SensorDataParser ρ)
    (view : BytesArray) : p.pushedTelemetry <+: (scanView d p view).1.pushedTelemetry := by
  have hRound : ∀ q view', p.pushedTelemetry <+: q.pushedTelemetry →
      p.pushedTelemetry <+: (round d q view').parser.pushedTelemetry := by
    intro q view' hGrows
    exact hGrows.trans (round_pushedTelemetry d q view')
  exact scanView_invariant d hRound p view (List.prefix_refl _)

theorem processBatch_pushedTelemetry (d : BytesArray → ρ) (p : SensorDataParser ρ)
    (chunks : List BytesArray) :
    p.pushedTelemetry <+: (processBatch d p chunks).pushedTelemetry := by
  rw [processBatch_eq, processAccumulatedData_eq]
  exact scanView_pushedTelemetry d (p.append chunks.flatten) _

end CounterDroneServer.SensorDataParser

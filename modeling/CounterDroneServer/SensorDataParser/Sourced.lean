import CounterDroneServer.SensorDataParser.Scanner

/-!
# Where a record comes from

Each received packet is a frame of the stream, and the record pushed for it was
decoded where that frame starts, in front of the bytes that had arrived by then.
-/

set_option autoImplicit false

namespace CounterDroneServer.SensorDataParser

universe u

variable {ρ : Type u}

/-- The packet is a frame of the stream and the record what is decoded there,
with the bytes that had arrived by then. -/
def FromFrame (d : BytesArray → ρ) (stream packet : BytesArray) (record : ρ) : Prop :=
  ∃ view, view <:+: stream ∧ FrameAt view ∧ packet = view.take (7 + frameLength view) ∧
    record = d (view.drop 5)

def Sourced (d : BytesArray → ρ) (stream : BytesArray) (p : SensorDataParser ρ) : Prop :=
  List.Forall₂ (FromFrame d stream) p.receivedValidPackets p.pushedTelemetry

theorem Sourced.mono {d : BytesArray → ρ} {stream stream' : BytesArray} {p : SensorDataParser ρ}
    (h : Sourced d stream p) (hMore : stream <:+: stream') : Sourced d stream' p := by
  apply List.Forall₂.imp _ h
  rintro packet record ⟨view, hView, hSource⟩
  exact ⟨view, hView.trans hMore, hSource⟩

theorem round_sourced (d : BytesArray → ρ) {stream : BytesArray} {p : SensorDataParser ρ}
    {view : BytesArray} (hSynced : Synced p view) (hView : view <:+: stream)
    (h : Sourced d stream p) : Sourced d stream (round d p view).parser := by
  generalize hRound : round d p view = r
  cases hRound ▸ round_spec d p view with
  | packetValid hState hType n hTotal hSize hCrc =>
    obtain ⟨hFive, hField, hValid⟩ := hSynced.length hState
    obtain ⟨-, hByte, -⟩ := hSynced.type (.inr hState)
    have hLength : n = 7 + frameLength view := by
      rw [← hTotal, hField, totalPacketSize_eq, frameLength_eq]
    rw [hField] at hValid
    subst hLength
    refine List.rel_append h (.cons ⟨view, hView, ?_, rfl, rfl⟩ .nil)
    refine ⟨hSynced.header (by simp [hState]), hFive, ?_, (admittedLength_iff view).mpr hValid, hSize,
      (crcMatches_iff view).mp hCrc⟩
    exact (ofByte_telemetry_iff _).mp (hByte.trans hType)
  | _ => exact h

theorem scanView_sourced (d : BytesArray → ρ) {stream : BytesArray} (p : SensorDataParser ρ)
    (view : BytesArray) (hSynced : Synced p view) (hView : view <:+: stream)
    (h : Sourced d stream p) : Sourced d stream (scanView d p view).1 := by
  induction p, view using scanView_induction d with
  | empty p => rwa [scanView_nil]
  | stopped p view hNonempty hChanged => rwa [scanView_of_not_changed d p hNonempty hChanged]
  | advanced p view hNonempty hChanged ih =>
    rw [scanView_of_changed d p hNonempty hChanged]
    exact ih (round_synced d p view hSynced) ((List.drop_suffix _ _).isInfix.trans hView)
      (round_sourced d hSynced hView h)

theorem processBatches_concat (d : BytesArray → ρ) (p : SensorDataParser ρ)
    (batches : List (List BytesArray)) (chunks : List BytesArray) :
    processBatches d p (batches ++ [chunks]) = processBatch d (processBatches d p batches) chunks := by
  rw [processBatches, List.foldl_append]
  rfl

theorem append_suffix {p : SensorDataParser ρ} {stream : BytesArray}
    (h : p.accumulatedData <:+ stream) (bytes : BytesArray) :
    (p.append bytes).accumulatedData <:+ stream ++ bytes := by
  obtain ⟨front, hFront⟩ := h
  refine ⟨front, ?_⟩
  rw [← hFront, List.append_assoc]
  rfl

/-- What is left of the stream is its end. -/
theorem processBatches_suffix (d : BytesArray → ρ) (batches : List (List BytesArray)) :
    (processBatches d {} batches).accumulatedData <:+ batches.flatten.flatten := by
  induction batches using List.reverseRecOn with
  | nil => exact List.suffix_refl _
  | append_singleton batches chunks ih =>
    rw [processBatches_concat, processBatch_eq, processAccumulatedData_eq]
    simp only [List.flatten_append, List.flatten_singleton]
    exact (scanView_suffix d _ _).trans (append_suffix ih chunks.flatten)

theorem processBatches_sourced (d : BytesArray → ρ) (batches : List (List BytesArray)) :
    Sourced d batches.flatten.flatten (processBatches d {} batches) := by
  induction batches using List.reverseRecOn with
  | nil => exact .nil
  | append_singleton batches chunks ih =>
    have hIdle := idle_init.processBatches d batches
    have hSynced := hIdle.synced.append chunks.flatten
    have hBuffer := processBatches_suffix d batches
    rw [processBatches_concat, processBatch_eq, processAccumulatedData_eq]
    simp only [List.flatten_append, List.flatten_singleton]
    exact scanView_sourced d _ _ ⟨hSynced.header, hSynced.type, hSynced.length⟩
      (append_suffix hBuffer chunks.flatten).isInfix (ih.mono (List.prefix_append _ _).isInfix)

end CounterDroneServer.SensorDataParser

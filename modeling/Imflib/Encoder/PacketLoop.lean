import Imflib.Base.Loop
import Imflib.Encoder.Decode

/-! The loop over one packet, for every reaction of the decoders and of the callbacks. -/

namespace Imflib.Encoder

universe u v w

/-- What `HandleFrame` does with a frame. -/
inductive Handled where
  | success
  | failure
  | thrown

/-- One turn of the loop: it is left, with the value of `noError` or by an exception, or it goes on
with the rest of the packet. -/
inductive Turn (σ : Type u) where
  | again (state : σ) (data : List UInt8)
  | leave (state : σ) (noError : Bool)
  | thrown (state : σ)

/-- The decoders and what is done with their frames. A call of a decoder may fail, or use some of
the bytes it is given, or none. -/
structure PacketDecoder (σ : Type u) (Frame : Type v) where
  videoIndex : Option Int
  audioIndices : List Int
  decode : StreamId → σ → List UInt8 → Decoded σ Frame
  handleFrame : StreamId → Frame → σ → Handled × σ

namespace PacketDecoder

variable {σ : Type u} {Frame : Type v} (decoder : PacketDecoder σ Frame)

/-- The stream that `DecodePacket` finds for a stream index. -/
def findStream (streamIndex : Int) : Option StreamId :=
  if decoder.videoIndex = some streamIndex then some .video
  else (decoder.audioIndices.findIdx? (· == streamIndex)).map .audio

def handleGot (id : StreamId) (gotFrame : Option Frame) (state : σ) : Handled × σ :=
  match gotFrame with
  | some frame => decoder.handleFrame id frame state
  | none => (.success, state)

def turnOf (id : StreamId) (state : σ) (data : List UInt8) : Turn σ :=
  let decoded := decoder.decode id state data
  if decoded.processedBytes < 0 then .leave decoded.state true
  else match decoder.handleGot id decoded.gotFrame decoded.state with
    | (.failure, state) => .leave state false
    | (.thrown, state) => .thrown state
    | (.success, state) =>
        if remaining data decoded.processedBytes = [] then .leave state true
        else .again state (remaining data decoded.processedBytes)

/-- Without a stream `DecodePacket` returns an error, and the loop is left. -/
def turn (streamIndex : Int) (state : σ) (data : List UInt8) : Turn σ :=
  match decoder.findStream streamIndex with
  | some id => decoder.turnOf id state data
  | none => .leave state true

def body (streamIndex : Int) (current : σ × List UInt8) : Option (σ × List UInt8) :=
  match decoder.turn streamIndex current.1 current.2 with
  | .again state data => some (state, data)
  | .leave _ _ | .thrown _ => none

/-- The loop over a packet makes finitely many turns. -/
def Ends (streamIndex : Int) (state : σ) (data : List UInt8) : Prop :=
  Loop.Ends (decoder.body streamIndex) (state, data)

/-- A call that does not fail and whose frame, if it gives one, is handled. -/
def use (id : StreamId) (current : σ × List UInt8) : Option (σ × List UInt8) :=
  let decoded := decoder.decode id current.1 current.2
  if decoded.processedBytes < 0 then none
  else match decoder.handleGot id decoded.gotFrame decoded.state with
    | (.success, state) => some (state, remaining current.2 decoded.processedBytes)
    | _ => none

def idleCall (id : StreamId) (data : List UInt8) (state : σ) : Option σ :=
  if (decoder.decode id state data).processedBytes = 0 then
    (decoder.use id (state, data)).map (·.1)
  else none

/-- From a state on the decoder uses nothing of what it is given, however often it is called. -/
def Starves (id : StreamId) (state : σ) (data : List UInt8) : Prop :=
  data ≠ [] ∧ ∀ n, ∃ later, Loop.after (decoder.idleCall id data) n state = some later

/-- The decoder of the packet's stream comes into such a state on its way through the packet. -/
def Stalls (streamIndex : Int) (state : σ) (data : List UInt8) : Prop :=
  ∃ id n later rest, decoder.findStream streamIndex = some id ∧
    Loop.after (decoder.use id) n (state, data) = some (later, rest) ∧ decoder.Starves id later rest

section Turns

variable {decoder} {streamIndex : Int} {id : StreamId} {state later : σ} {data rest : List UInt8}

theorem length_remaining_le (data : List UInt8) (processedBytes : Int) :
    (remaining data processedBytes).length ≤ data.length := by
  rw [remaining, List.length_drop]
  exact Nat.sub_le _ _

theorem use_eq_some : decoder.use id (state, data) = some (later, rest) ↔
    0 ≤ (decoder.decode id state data).processedBytes ∧
      decoder.handleGot id (decoder.decode id state data).gotFrame
        (decoder.decode id state data).state = (.success, later) ∧
      remaining data (decoder.decode id state data).processedBytes = rest := by
  unfold use
  by_cases failed : (decoder.decode id state data).processedBytes < 0
  · rw [if_pos failed]
    simp [Int.not_le.mpr failed]
  · rw [if_neg failed]
    have nonnegative := Int.not_lt.mp failed
    rcases decoder.handleGot id (decoder.decode id state data).gotFrame
      (decoder.decode id state data).state with ⟨handled, after⟩
    cases handled <;> simp [nonnegative]

theorem body_eq (found : decoder.findStream streamIndex = some id) (current : σ × List UInt8) :
    decoder.body streamIndex current = (decoder.use id current).filter (·.2 ≠ []) := by
  simp only [body, turn, found, turnOf, use]
  by_cases failed : (decoder.decode id current.1 current.2).processedBytes < 0
  · simp [failed]
  · rw [if_neg failed, if_neg failed]
    rcases decoder.handleGot id (decoder.decode id current.1 current.2).gotFrame
      (decoder.decode id current.1 current.2).state with ⟨handled, after⟩
    cases handled with
    | failure => rfl
    | thrown => rfl
    | success =>
        by_cases used :
            remaining current.2 (decoder.decode id current.1 current.2).processedBytes = []
        · simp [used, Option.filter]
        · simp [used, Option.filter]

theorem body_eq_some (found : decoder.findStream streamIndex = some id)
    {current next : σ × List UInt8} :
    decoder.body streamIndex current = some next ↔
      decoder.use id current = some next ∧ next.2 ≠ [] := by
  rw [body_eq found, Option.filter_eq_some_iff, decide_eq_true_iff]

theorem use_nil (current : σ × List UInt8) (nothing : current.2 = []) {next : σ × List UInt8}
    (used : decoder.use id current = some next) : next.2 = [] := by
  obtain ⟨-, -, left⟩ := use_eq_some.mp used
  rw [← left, nothing, remaining, List.drop_nil]

theorem after_body_iff (found : decoder.findStream streamIndex = some id) (bytes : rest ≠ [])
    (n : Nat) : Loop.after (decoder.body streamIndex) n (state, data) = some (later, rest) ↔
      Loop.after (decoder.use id) n (state, data) = some (later, rest) := by
  induction n generalizing later rest with
  | zero => rfl
  | succ n ih =>
      rw [Loop.after_succ, Loop.after_succ, Option.bind_eq_some_iff, Option.bind_eq_some_iff]
      constructor
      · rintro ⟨⟨middle, left⟩, reached, taken⟩
        have used := ((body_eq_some found).mp taken).1
        have leftBytes : left ≠ [] := fun nothing => bytes (use_nil _ nothing used)
        exact ⟨(middle, left), (ih leftBytes).mp reached, used⟩
      · rintro ⟨⟨middle, left⟩, reached, used⟩
        have leftBytes : left ≠ [] := fun nothing => bytes (use_nil _ nothing used)
        exact ⟨(middle, left), (ih leftBytes).mpr reached, (body_eq_some found).mpr ⟨used, bytes⟩⟩

theorem length_body_le (current next : σ × List UInt8)
    (taken : decoder.body streamIndex current = some next) : next.2.length ≤ current.2.length := by
  cases found : decoder.findStream streamIndex with
  | none => simp [body, turn, found] at taken
  | some id =>
      obtain ⟨-, -, left⟩ := use_eq_some.mp ((body_eq_some found).mp taken).1
      rw [← left]
      exact length_remaining_le _ _

theorem idleCall_eq_some : decoder.idleCall id data state = some later ↔
    (decoder.decode id state data).processedBytes = 0 ∧
      decoder.use id (state, data) = some (later, data) := by
  unfold idleCall
  by_cases idle : (decoder.decode id state data).processedBytes = 0
  · rw [if_pos idle, Option.map_eq_some_iff]
    constructor
    · rintro ⟨⟨state', rest⟩, used, rfl⟩
      obtain ⟨-, -, left⟩ := use_eq_some.mp used
      rw [idle, remaining, Int.toNat_zero, List.drop_zero] at left
      exact ⟨idle, left ▸ used⟩
    · rintro ⟨-, used⟩
      exact ⟨(later, data), used, rfl⟩
  · simp [idle]

theorem body_idle_iff (found : decoder.findStream streamIndex = some id) (bytes : data ≠ []) :
    decoder.body streamIndex (state, data) = some (later, rest) ∧ rest.length = data.length ↔
      decoder.idleCall id data state = some later ∧ rest = data := by
  rw [body_eq_some found, idleCall_eq_some]
  constructor
  · rintro ⟨⟨used, -⟩, same⟩
    obtain ⟨nonnegative, -, left⟩ := use_eq_some.mp used
    have positive := List.length_pos_iff.mpr bytes
    have idle : (decoder.decode id state data).processedBytes = 0 := by
      rw [← left, remaining, List.length_drop] at same
      omega
    rw [idle, remaining, Int.toNat_zero, List.drop_zero] at left
    exact ⟨⟨idle, left ▸ used⟩, left.symm⟩
  · rintro ⟨⟨idle, used⟩, rfl⟩
    exact ⟨⟨used, bytes⟩, rfl⟩

theorem after_idle_iff (found : decoder.findStream streamIndex = some id) (bytes : data ≠ [])
    (n : Nat) :
    Loop.after (decoder.body streamIndex) n (state, data) = some (later, rest) ∧
        rest.length = data.length ↔
      Loop.after (decoder.idleCall id data) n state = some later ∧ rest = data := by
  induction n generalizing later rest with
  | zero =>
      simp only [Loop.after, Option.some.injEq, Prod.mk.injEq]
      constructor
      · rintro ⟨⟨rfl, rfl⟩, -⟩
        exact ⟨rfl, rfl⟩
      · rintro ⟨rfl, rfl⟩
        exact ⟨⟨rfl, rfl⟩, rfl⟩
  | succ n ih =>
      rw [Loop.after_succ, Loop.after_succ, Option.bind_eq_some_iff, Option.bind_eq_some_iff]
      constructor
      · rintro ⟨⟨⟨middle, left⟩, reached, taken⟩, same⟩
        -- the bytes were not used before the last turn either
        have before := Loop.measure_after length_body_le reached
        have last := length_body_le _ _ taken
        obtain ⟨idled, rfl⟩ := ih.mp ⟨reached, Nat.le_antisymm before (same ▸ last)⟩
        obtain ⟨idle, whole⟩ := (body_idle_iff found bytes).mp ⟨taken, same⟩
        exact ⟨⟨middle, idled, idle⟩, whole⟩
      · rintro ⟨⟨middle, idled, idle⟩, whole⟩
        have taken := ((body_idle_iff found bytes).mpr ⟨idle, whole⟩).1
        exact ⟨⟨(middle, data), (ih.mpr ⟨idled, rfl⟩).1, taken⟩, whole ▸ rfl⟩

/-- A decoder starves where the turns of the loop use nothing more. -/
theorem starves_iff (found : decoder.findStream streamIndex = some id) :
    decoder.Starves id state data ↔ ∀ n, ∃ next,
      Loop.after (decoder.body streamIndex) n (state, data) = some next ∧
        next.2.length = data.length := by
  constructor
  · rintro ⟨bytes, starved⟩ n
    obtain ⟨later, idled⟩ := starved n
    exact ⟨(later, data), (after_idle_iff found bytes n).mpr ⟨idled, rfl⟩⟩
  · intro stays
    have bytes : data ≠ [] := by
      obtain ⟨next, taken, same⟩ := stays 1
      rw [Loop.after_one] at taken
      intro nothing
      apply ((body_eq_some found).mp taken).2
      rw [nothing] at same
      exact List.length_eq_zero_iff.mp same
    refine ⟨bytes, fun n => ?_⟩
    obtain ⟨next, reached, same⟩ := stays n
    exact ⟨next.1, ((after_idle_iff found bytes n).mp ⟨reached, same⟩).1⟩

theorem not_ends_iff_stalls (streamIndex : Int) (state : σ) (data : List UInt8) :
    ¬ decoder.Ends streamIndex state data ↔ decoder.Stalls streamIndex state data := by
  refine (Loop.not_ends_iff_of_measure length_body_le _).trans ?_
  constructor
  · rintro ⟨n, ⟨later, rest⟩, reached, stays⟩
    cases found : decoder.findStream streamIndex with
    | none =>
        obtain ⟨next, taken, -⟩ := stays 1
        rw [Loop.after_one] at taken
        simp [body, turn, found] at taken
    | some id =>
        have starved := (starves_iff found).mpr stays
        exact ⟨id, n, later, rest, found, (after_body_iff found starved.1 n).mp reached, starved⟩
  · rintro ⟨id, n, later, rest, found, reached, starved⟩
    exact ⟨n, (later, rest), (after_body_iff found starved.1 n).mpr reached,
      (starves_iff found).mp starved⟩

end Turns

/-- The decoders of an opened input, with what the callbacks make of their frames. -/
def ofInput {ρ : Type w} (input : Input σ ρ Frame) :
    PacketDecoder (DecodeState σ ρ Frame) Frame where
  videoIndex := input.videoIndex
  audioIndices := input.audioIndices
  decode id state data :=
    let decoded := (input.codec id).decode (state.decoder id) data
    ⟨decoded.processedBytes, decoded.gotFrame, Input.setDecoder state id decoded.state⟩
  handleFrame id frame state :=
    let handled := input.handleFrame state frame id
    (if handled.2 then .success else .failure, handled.1)

theorem decoder_of_handleGot {ρ : Type w} {input : Input σ ρ Frame} {id : StreamId}
    {gotFrame : Option Frame} {state later : DecodeState σ ρ Frame}
    (handled : (ofInput input).handleGot id gotFrame state = (.success, later)) :
    later.decoder id = state.decoder id := by
  have kept : ((ofInput input).handleGot id gotFrame state).2 = later := by rw [handled]
  cases gotFrame with
  | none => rw [← kept, handleGot]
  | some frame =>
      rw [← kept]
      exact congrFun (input.handleFrame_decoder state frame id) id

/-- Codecs that use a packet up after finitely many calls never starve. -/
theorem ends_ofInput {ρ : Type w} (input : Input σ ρ Frame) (streamIndex : Int)
    (state : DecodeState σ ρ Frame) (data : List UInt8) :
    (ofInput input).Ends streamIndex state data := by
  cases found : (ofInput input).findStream streamIndex with
  | none => exact ⟨1, by simp [body, turn, found]⟩
  | some id =>
      apply Loop.ends_of_measure fun current =>
        (input.codec id).calls (current.1.decoder id) current.2
      intro current next taken
      obtain ⟨used, bytes⟩ := (body_eq_some found).mp taken
      obtain ⟨nonnegative, handled, left⟩ := use_eq_some.mp used
      rw [decoder_of_handleGot handled, ← left]
      rw [← left] at bytes
      have fewer := (input.codec id).ends (current.1.decoder id) current.2 nonnegative bytes
      simpa [ofInput] using fewer

/-- The loop ends on a packet exactly if its decoder does not come to starve on it. -/
theorem packet_loop_ends_iff (decoder : PacketDecoder σ Frame) (streamIndex : Int) (state : σ)
    (data : List UInt8) :
    decoder.Ends streamIndex state data ↔ ¬ decoder.Stalls streamIndex state data :=
  not_iff_comm.mp (not_ends_iff_stalls streamIndex state data) |>.symm

/-- A decoder of one stream that answers every call with no byte used and no frame. -/
def silent : PacketDecoder Unit Unit where
  videoIndex := some 0
  audioIndices := []
  decode _ state _ := ⟨0, none, state⟩
  handleFrame _ _ state := (.success, state)

theorem silent_never_ends : ¬ silent.Ends 0 () [0] := by
  apply Loop.not_ends_iff.mpr
  intro n
  induction n with
  | zero => exact ⟨((), [0]), rfl⟩
  | succ n ih => exact ih

end PacketDecoder

end Imflib.Encoder

import Mathlib.Logic.Function.Basic
import Mathlib.Tactic.Common

/-! Demultiplexing and decoding. The decoders and the resamplers are parameters. They
come with what their library promises about them. -/

namespace Imflib.Encoder

universe u v w

/-- What one call of `avcodec_decode_video2` or `avcodec_decode_audio4` gives back. -/
structure Decoded (σ : Type u) (Frame : Type v) where
  processedBytes : Int
  gotFrame : Option Frame
  state : σ

/-- What is left of a packet after some bytes of it have been used. -/
def remaining (data : List UInt8) (processedBytes : Int) : List UInt8 :=
  data.drop processedBytes.toNat

/-- A decoder may hold frames back. Called without data it hands them out, one a call.
A packet is used up after finitely many calls. -/
structure Codec (σ : Type u) (Frame : Type v) where
  decode : σ → List UInt8 → Decoded σ Frame
  held : σ → List Frame
  calls : σ → List UInt8 → Nat
  drains : ∀ state, (decode state []).gotFrame = (held state).head? ∧
    held (decode state []).state = (held state).tail
  ends : ∀ state data, 0 ≤ (decode state data).processedBytes →
    remaining data (decode state data).processedBytes ≠ [] →
      calls (decode state data).state (remaining data (decode state data).processedBytes) <
        calls state data

/-- `swr_convert`: the number of samples it gives for a frame, or for no frame when the
samples it has kept are fetched. -/
structure Resampler (ρ : Type w) (Frame : Type v) where
  convert : ρ → Option Frame → Int × ρ
  kept : ρ → Nat
  drains : ∀ state, 0 < (convert state none).1 → kept (convert state none).2 < kept state

inductive StreamId where
  | video
  | audio (index : Nat)
  deriving DecidableEq, Repr

/-- A call of one of the two callbacks. An audio callback gets converted samples, of a
decoded frame or of no frame in particular. -/
inductive Callback (Frame : Type v) where
  | video (frameNumber : Nat) (frame : Frame)
  | audio (index : Nat) (source : Option Frame) (samples : Int)

structure Packet where
  streamIndex : Int
  data : List UInt8

/-- The opened input: its streams, with the decoder of each and the resampler of each
audio stream. -/
structure Input (σ : Type u) (ρ : Type w) (Frame : Type v) where
  videoIndex : Option Int
  audioIndices : List Int
  distinct : (videoIndex.toList ++ audioIndices).Nodup
  codec : StreamId → Codec σ Frame
  resampler : Nat → Resampler ρ Frame
  extractAudio : Bool
  /-- The answer of a callback may depend on all calls before. -/
  answer : List (Callback Frame) → Callback Frame → Bool

structure DecodeState (σ : Type u) (ρ : Type w) (Frame : Type v) where
  decoder : StreamId → σ
  resample : Nat → ρ
  currentFrame : Nat
  /-- The calls of the callbacks with their answers. -/
  log : List (Callback Frame × Bool)

variable {σ : Type u} {ρ : Type w} {Frame : Type v}

namespace Input

variable (input : Input σ ρ Frame)

/-- The stream that `DecodePacket` finds for a stream index. -/
def findStream (streamIndex : Int) : Option StreamId :=
  if input.videoIndex = some streamIndex then some .video
  else (input.audioIndices.findIdx? (· == streamIndex)).map .audio

def call (state : DecodeState σ ρ Frame) (callback : Callback Frame) :
    DecodeState σ ρ Frame × Bool :=
  let answer := input.answer (state.log.map (·.1)) callback
  ({ state with log := state.log ++ [(callback, answer)] }, answer)

def handleVideoFrame (state : DecodeState σ ρ Frame) (frame : Frame) :
    DecodeState σ ρ Frame × Bool :=
  input.call { state with currentFrame := state.currentFrame + 1 }
    (.video (state.currentFrame + 1) frame)

def handleAudioFrame (state : DecodeState σ ρ Frame) (index : Nat) (frame : Frame) :
    DecodeState σ ρ Frame × Bool :=
  let converted := (input.resampler index).convert (state.resample index) (some frame)
  let state := { state with resample := Function.update state.resample index converted.2 }
  if converted.1 < 0 then (state, false)
  else ((input.call state (.audio index (some frame) converted.1)).1, true)

def handleFrame (state : DecodeState σ ρ Frame) (frame : Frame) :
    StreamId → DecodeState σ ρ Frame × Bool
  | .video => input.handleVideoFrame state frame
  | .audio index =>
      if input.extractAudio then input.handleAudioFrame state index frame else (state, true)

@[simp] theorem call_decoder (state : DecodeState σ ρ Frame) (callback : Callback Frame) :
    (input.call state callback).1.decoder = state.decoder := rfl

@[simp] theorem handleFrame_decoder (state : DecodeState σ ρ Frame) (frame : Frame)
    (id : StreamId) : (input.handleFrame state frame id).1.decoder = state.decoder := by
  cases id with
  | video => rfl
  | audio index =>
      simp only [handleFrame, handleAudioFrame]
      split
      · split <;> rfl
      · rfl

def handleGot (state : DecodeState σ ρ Frame) (id : StreamId) :
    Option Frame → DecodeState σ ρ Frame × Bool
  | some frame => input.handleFrame state frame id
  | none => (state, true)

@[simp] theorem handleGot_decoder (state : DecodeState σ ρ Frame) (id : StreamId)
    (gotFrame : Option Frame) :
    (input.handleGot state id gotFrame).1.decoder = state.decoder := by
  cases gotFrame with
  | some frame => exact input.handleFrame_decoder state frame id
  | none => rfl

def setDecoder (state : DecodeState σ ρ Frame) (id : StreamId) (decoder : σ) :
    DecodeState σ ρ Frame :=
  { state with decoder := Function.update state.decoder id decoder }

@[simp] theorem setDecoder_decoder_self (state : DecodeState σ ρ Frame) (id : StreamId)
    (decoder : σ) : (setDecoder state id decoder).decoder id = decoder := by
  simp [setDecoder]

/-- Decode a packet of a known stream, until it is used up, decoding fails, or a frame
is not handled. -/
def decodePacket (id : StreamId) (state : DecodeState σ ρ Frame) (data : List UInt8) :
    DecodeState σ ρ Frame × Bool :=
  let decoded := (input.codec id).decode (state.decoder id) data
  let state' := setDecoder state id decoded.state
  if _failed : decoded.processedBytes < 0 then (state', true)
  else
    let handled := input.handleGot state' id decoded.gotFrame
    if handled.2 = false then (handled.1, false)
    else if _used : remaining data decoded.processedBytes = [] then (handled.1, true)
    else decodePacket id handled.1 (remaining data decoded.processedBytes)
  termination_by (input.codec id).calls (state.decoder id) data
  decreasing_by
    simp only [handleGot_decoder, setDecoder_decoder_self]
    exact (input.codec id).ends (state.decoder id) data (Int.not_lt.mp _failed) _used

/-- The decoding loop: the state behind it and the stream index left in the packet. A
packet of no known stream is an error and is passed over. -/
def decodeLoop (eofIndex : Int) :
    List Packet → DecodeState σ ρ Frame → DecodeState σ ρ Frame × Int
  | [], state => (state, eofIndex)
  | packet :: packets, state =>
      let decoded := match input.findStream packet.streamIndex with
        | some id => input.decodePacket id state packet.data
        | none => (state, true)
      if decoded.2 then decodeLoop eofIndex packets decoded.1
      else (decoded.1, packet.streamIndex)

/-- Flush one decoder: call it without data until it gives no frame. -/
def flush (id : StreamId) (state : DecodeState σ ρ Frame) : DecodeState σ ρ Frame :=
  let decoded := (input.codec id).decode (state.decoder id) []
  let state' := setDecoder state id decoded.state
  match _got : decoded.gotFrame with
  | some frame => flush id (input.handleFrame state' frame id).1
  | none => state'
  termination_by ((input.codec id).held (state.decoder id)).length
  decreasing_by
    obtain ⟨head, rest⟩ := (input.codec id).drains (state.decoder id)
    simp only [handleFrame_decoder, setDecoder_decoder_self, rest, List.length_tail]
    rw [_got] at head
    cases held : (input.codec id).held (state.decoder id) with
    | nil => simp [held] at head
    | cons => simp

/-- The flush loop asks for the stream of the index left in the packet. -/
def flushRemaining (streamIndex : Int) (state : DecodeState σ ρ Frame) : DecodeState σ ρ Frame :=
  match input.findStream streamIndex with
  | some id => input.flush id state
  | none => state

/-- Fetch the samples that a resampler has kept, until it gives none. -/
def handleDelayedAudioFrames (index : Nat) (state : DecodeState σ ρ Frame) :
    DecodeState σ ρ Frame :=
  let converted := (input.resampler index).convert (state.resample index) none
  let state' := { state with resample := Function.update state.resample index converted.2 }
  if converted.1 < 0 then state'
  else
    let called := (input.call state' (.audio index none converted.1)).1
    if _more : 0 < converted.1 then handleDelayedAudioFrames index called else called
  termination_by (input.resampler index).kept (state.resample index)
  decreasing_by
    simpa [call] using (input.resampler index).drains (state.resample index) _more

/-- `InputStreamDecoder::Decode` -/
def decode (eofIndex : Int) (packets : List Packet) (state : DecodeState σ ρ Frame) :
    DecodeState σ ρ Frame :=
  let looped := input.decodeLoop eofIndex packets state
  let flushed := input.flushRemaining looped.2 looped.1
  if input.extractAudio then
    (List.range input.audioIndices.length).foldl
      (fun state index => input.handleDelayedAudioFrames index state) flushed
  else flushed

end Input

end Imflib.Encoder

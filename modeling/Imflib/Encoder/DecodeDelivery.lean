import Imflib.Encoder.Decode

/-! Which frames the callbacks get. A decoder on its own, fed its packets and then
flushed, says which frames there are. -/

namespace Imflib.Encoder

universe u v w

variable {σ : Type u} {ρ : Type w} {Frame : Type v}

namespace Codec

variable (codec : Codec σ Frame)

/-- The frames a decoder gives for one packet, and its state behind it. -/
def feedPacket (state : σ) (data : List UInt8) : List Frame × σ :=
  let decoded := codec.decode state data
  if _failed : decoded.processedBytes < 0 then ([], decoded.state)
  else if _used : remaining data decoded.processedBytes = [] then
    (decoded.gotFrame.toList, decoded.state)
  else
    let rest := feedPacket decoded.state (remaining data decoded.processedBytes)
    (decoded.gotFrame.toList ++ rest.1, rest.2)
  termination_by codec.calls state data
  decreasing_by exact codec.ends state data (Int.not_lt.mp _failed) _used

def feed (state : σ) : List (List UInt8) → List Frame × σ
  | [] => ([], state)
  | data :: packets =>
      let fed := codec.feedPacket state data
      let rest := feed fed.2 packets
      (fed.1 ++ rest.1, rest.2)

def produced (state : σ) (packets : List (List UInt8)) : List Frame :=
  (codec.feed state packets).1 ++ codec.held (codec.feed state packets).2

end Codec

def Callback.frameOf (id : StreamId) : Callback Frame → Option Frame
  | .video _ frame => if id = .video then some frame else none
  | .audio index source _ => if id = .audio index then source else none

def delivered (id : StreamId) (log : List (Callback Frame × Bool)) : List Frame :=
  log.filterMap fun entry => entry.1.frameOf id

def Accepted (log : List (Callback Frame × Bool)) : Prop := ∀ entry ∈ log, entry.2 = true

theorem Accepted.of_prefix {earlier later : List (Callback Frame × Bool)}
    (accepted : Accepted later) (grows : earlier <+: later) : Accepted earlier :=
  fun entry member => accepted entry (grows.subset member)

namespace Input

variable (input : Input σ ρ Frame)

def index : StreamId → Option Int
  | .video => input.videoIndex
  | .audio index => input.audioIndices[index]?

def packetsOf (id : StreamId) (packets : List Packet) : List (List UInt8) :=
  (packets.filter fun packet => input.index id = some packet.streamIndex).map (·.data)

/-- `swr_convert` reports no error for a decoded frame. -/
def Converts : Prop :=
  ∀ index state frame, 0 ≤ ((input.resampler index).convert state (some frame)).1

theorem findStream_iff (streamIndex : Int) (id : StreamId) :
    input.findStream streamIndex = some id ↔ input.index id = some streamIndex := by
  have nodup := List.nodup_append.mp input.distinct
  unfold findStream
  split
  · rename_i isVideo
    have notAudio : streamIndex ∉ input.audioIndices := fun member =>
      nodup.2.2 streamIndex (by simp [isVideo]) streamIndex member rfl
    cases id with
    | video => simp [index, isVideo]
    | audio audioIndex =>
        simp only [reduceCtorEq, Option.some.injEq, index, false_iff]
        exact fun found => notAudio (List.mem_of_getElem? found)
  · rename_i notVideo
    cases id with
    | video => simp [index, notVideo]
    | audio audioIndex =>
        simp only [Option.map_eq_some_iff, StreamId.audio.injEq, exists_eq_right, index]
        rw [List.findIdx?_eq_some_iff_getElem]
        constructor
        · rintro ⟨inside, found, _⟩
          rw [List.getElem?_eq_getElem inside]
          exact congrArg some (eq_of_beq found)
        · intro found
          obtain ⟨inside, value⟩ := List.getElem?_eq_some_iff.mp found
          refine ⟨inside, by simp [value], fun earlier before => ?_⟩
          have different : input.audioIndices[earlier] ≠ input.audioIndices[audioIndex] :=
            List.pairwise_iff_getElem.mp nodup.2.1 earlier audioIndex _ inside before
          simpa [value] using different

theorem packetsOf_cons (id : StreamId) (packet : Packet) (packets : List Packet) :
    input.packetsOf id (packet :: packets) =
      if input.findStream packet.streamIndex = some id then
        packet.data :: input.packetsOf id packets
      else input.packetsOf id packets := by
  simp only [findStream_iff, packetsOf]
  by_cases own : input.index id = some packet.streamIndex <;> simp [own]

def Kept (property : List (Callback Frame × Bool) → Prop) : Prop :=
  ∀ (state : DecodeState σ ρ Frame) callback, property state.log →
    property (input.call state callback).1.log

theorem kept_prefix (log : List (Callback Frame × Bool)) :
    input.Kept fun later => log <+: later :=
  fun _ _ grown => grown.trans ⟨_, rfl⟩

theorem kept_accepted (agrees : ∀ calls callback, input.answer calls callback = true) :
    input.Kept Accepted := by
  intro state callback accepted entry member
  rcases List.mem_append.mp member with earlier | last
  · exact accepted entry earlier
  · rw [List.mem_singleton.mp last]
    exact agrees _ callback

variable {input} {property : List (Callback Frame × Bool) → Prop}

theorem delivered_call (id : StreamId) (state : DecodeState σ ρ Frame)
    (callback : Callback Frame) :
    delivered id (input.call state callback).1.log =
      delivered id state.log ++ (callback.frameOf id).toList := by
  cases found : callback.frameOf id <;> simp [call, delivered, found]

theorem handleFrame_keeps (kept : input.Kept property) (state : DecodeState σ ρ Frame)
    (frame : Frame) (id : StreamId) (before : property state.log) :
    property (input.handleFrame state frame id).1.log := by
  cases id with
  | video => exact kept _ _ before
  | audio index =>
      simp only [handleFrame, handleAudioFrame]
      split
      · split
        · exact before
        · exact kept _ _ before
      · exact before

theorem delivered_handleFrame (extracts : input.extractAudio = true) (converts : input.Converts)
    (state : DecodeState σ ρ Frame) (frame : Frame) (id other : StreamId) :
    delivered other (input.handleFrame state frame id).1.log =
      delivered other state.log ++ if other = id then [frame] else [] := by
  cases id with
  | video =>
      rw [handleFrame, handleVideoFrame, delivered_call]
      by_cases own : other = .video <;> simp [Callback.frameOf, own]
  | audio index =>
      have good := Int.not_lt.mpr (converts index (state.resample index) frame)
      simp only [handleFrame, extracts, if_true, handleAudioFrame, good, if_false, delivered_call]
      by_cases own : other = .audio index <;> simp [Callback.frameOf, own]

theorem handleFrame_succeeds (converts : input.Converts) (state : DecodeState σ ρ Frame)
    (frame : Frame) (id : StreamId)
    (accepted : Accepted (input.handleFrame state frame id).1.log) :
    (input.handleFrame state frame id).2 = true := by
  cases id with
  | video =>
      exact accepted (_, _) (List.mem_append_right _ (List.mem_singleton_self _))
  | audio index =>
      have good := Int.not_lt.mpr (converts index (state.resample index) frame)
      simp only [handleFrame, handleAudioFrame, good, if_false]
      split <;> rfl

theorem handleGot_keeps (kept : input.Kept property) (state : DecodeState σ ρ Frame)
    (id : StreamId) (gotFrame : Option Frame) (before : property state.log) :
    property (input.handleGot state id gotFrame).1.log := by
  cases gotFrame with
  | some frame => exact handleFrame_keeps kept state frame id before
  | none => exact before

theorem delivered_handleGot (extracts : input.extractAudio = true) (converts : input.Converts)
    (state : DecodeState σ ρ Frame) (gotFrame : Option Frame) (id other : StreamId) :
    delivered other (input.handleGot state id gotFrame).1.log =
      delivered other state.log ++ if other = id then gotFrame.toList else [] := by
  cases gotFrame with
  | some frame => exact delivered_handleFrame extracts converts state frame id other
  | none => simp [handleGot]

theorem handleGot_succeeds (converts : input.Converts) (state : DecodeState σ ρ Frame)
    (gotFrame : Option Frame) (id : StreamId)
    (accepted : Accepted (input.handleGot state id gotFrame).1.log) :
    (input.handleGot state id gotFrame).2 = true := by
  cases gotFrame with
  | some frame => exact handleFrame_succeeds converts state frame id accepted
  | none => rfl

theorem decodePacket_keeps (kept : input.Kept property) (id : StreamId)
    (state : DecodeState σ ρ Frame) (data : List UInt8) (before : property state.log) :
    property (input.decodePacket id state data).1.log := by
  fun_induction decodePacket input id state data with
  | case1 state data decoded state' => exact before
  | case2 state data decoded state' => exact handleGot_keeps kept state' id decoded.gotFrame before
  | case3 state data decoded state' => exact handleGot_keeps kept state' id decoded.gotFrame before
  | case4 state data decoded state' _ _ _ _ ih =>
      exact ih (handleGot_keeps kept state' id decoded.gotFrame before)

theorem decodePacket_feeds (extracts : input.extractAudio = true) (converts : input.Converts)
    (id : StreamId) (state : DecodeState σ ρ Frame) (data : List UInt8)
    (accepted : Accepted (input.decodePacket id state data).1.log) :
    (input.decodePacket id state data).2 = true ∧
      (input.decodePacket id state data).1.decoder = Function.update state.decoder id
        ((input.codec id).feedPacket (state.decoder id) data).2 ∧
      ∀ other, delivered other (input.decodePacket id state data).1.log =
        delivered other state.log ++
          if other = id then ((input.codec id).feedPacket (state.decoder id) data).1 else [] := by
  fun_induction decodePacket input id state data with
  | case1 state data decoded state' failed =>
      rw [Codec.feedPacket, dif_pos failed]
      exact ⟨rfl, rfl, fun other => by simp [state', setDecoder]⟩
  | case2 state data decoded state' failed handled rejected =>
      have succeeded := handleGot_succeeds converts state' decoded.gotFrame id accepted
      exact absurd succeeded (by simpa [handled] using rejected)
  | case3 state data decoded state' failed handled _ used =>
      rw [Codec.feedPacket, dif_neg failed, dif_pos used]
      refine ⟨rfl, by simp [handled, state', setDecoder]; rfl, fun other => ?_⟩
      exact delivered_handleGot extracts converts state' decoded.gotFrame id other
  | case4 state data decoded state' failed handled _ used ih =>
      obtain ⟨succeeded, decoders, frames⟩ := ih accepted
      have decoder : handled.1.decoder = Function.update state.decoder id decoded.state := by
        simp [handled, state', setDecoder]
      rw [decoder, Function.update_self] at decoders frames
      rw [Codec.feedPacket, dif_neg failed, dif_neg used]
      refine ⟨succeeded, by rw [decoders, Function.update_idem], fun other => ?_⟩
      rw [frames other,
        delivered_handleGot extracts converts state' decoded.gotFrame id other, List.append_assoc]
      by_cases own : other = id <;> simp [own, decoded, state', setDecoder]

theorem decodeLoop_keeps (kept : input.Kept property) (eofIndex : Int) (packets : List Packet)
    (state : DecodeState σ ρ Frame) (before : property state.log) :
    property (input.decodeLoop eofIndex packets state).1.log := by
  induction packets generalizing state with
  | nil => exact before
  | cons packet packets ih =>
      cases found : input.findStream packet.streamIndex with
      | none => simpa [decodeLoop, found] using ih state before
      | some id =>
          have own := decodePacket_keeps kept id state packet.data before
          simp only [decodeLoop, found]
          split
          · exact ih _ own
          · exact own

theorem decodeLoop_feeds (extracts : input.extractAudio = true) (converts : input.Converts)
    (eofIndex : Int) (packets : List Packet) (state : DecodeState σ ρ Frame)
    (accepted : Accepted (input.decodeLoop eofIndex packets state).1.log) :
    (input.decodeLoop eofIndex packets state).2 = eofIndex ∧
      ∀ id, (input.decodeLoop eofIndex packets state).1.decoder id =
          ((input.codec id).feed (state.decoder id) (input.packetsOf id packets)).2 ∧
        delivered id (input.decodeLoop eofIndex packets state).1.log =
          delivered id state.log ++
            ((input.codec id).feed (state.decoder id) (input.packetsOf id packets)).1 := by
  induction packets generalizing state with
  | nil => exact ⟨rfl, fun id => ⟨rfl, (List.append_nil _).symm⟩⟩
  | cons packet packets ih =>
      cases found : input.findStream packet.streamIndex with
      | none =>
          simp only [decodeLoop, found, if_true] at accepted ⊢
          simpa only [packetsOf_cons, found, reduceCtorEq, if_false] using ih state accepted
      | some own =>
          have grows := decodeLoop_keeps (input.kept_prefix _) eofIndex packets
            (input.decodePacket own state packet.data).1 List.prefix_rfl
          have acceptedPacket : Accepted (input.decodePacket own state packet.data).1.log := by
            simp only [decodeLoop, found] at accepted
            split at accepted
            · exact accepted.of_prefix grows
            · exact accepted
          obtain ⟨succeeded, decoders, frames⟩ :=
            decodePacket_feeds extracts converts own state packet.data acceptedPacket
          simp only [decodeLoop, found, succeeded, if_true] at accepted ⊢
          obtain ⟨ended, rest⟩ := ih _ accepted
          refine ⟨ended, fun id => ?_⟩
          rw [(rest id).1, (rest id).2, decoders, frames id, packetsOf_cons, found]
          by_cases same : id = own
          · subst same
            simp [Codec.feed]
          · have other : own ≠ id := Ne.symm same
            simp [same, other]

theorem flush_keeps (kept : input.Kept property) (id : StreamId) (state : DecodeState σ ρ Frame)
    (before : property state.log) : property (input.flush id state).log := by
  fun_induction flush input id state with
  | case1 state decoded state' frame _ ih => exact ih (handleFrame_keeps kept state' frame id before)
  | case2 => exact before

theorem flush_feeds (extracts : input.extractAudio = true) (converts : input.Converts)
    (id : StreamId) (state : DecodeState σ ρ Frame) (other : StreamId) :
    delivered other (input.flush id state).log = delivered other state.log ++
      if other = id then (input.codec id).held (state.decoder id) else [] := by
  fun_induction flush input id state with
  | case1 state decoded state' frame got ih =>
      obtain ⟨head, rest⟩ := (input.codec id).drains (state.decoder id)
      have decoder : (input.handleFrame state' frame id).1.decoder id = decoded.state := by
        simp [state']
      have heldBack : (input.codec id).held (state.decoder id) =
          frame :: (input.codec id).held decoded.state := by
        rw [rest]
        cases shape : (input.codec id).held (state.decoder id) with
        | nil => simp [decoded, got, shape] at head
        | cons first others =>
            have same : frame = first := by simpa [decoded, got, shape] using head
            simp [same]
      rw [ih, delivered_handleFrame extracts converts, decoder, heldBack, List.append_assoc]
      by_cases own : other = id <;> simp [own, state', setDecoder]
  | case2 state decoded state' got =>
      obtain ⟨head, _⟩ := (input.codec id).drains (state.decoder id)
      have heldBack : (input.codec id).held (state.decoder id) = [] := by
        cases shape : (input.codec id).held (state.decoder id) with
        | nil => rfl
        | cons first others => simp [decoded, got, shape] at head
      simp [heldBack, state', setDecoder]

theorem flushRemaining_feeds (extracts : input.extractAudio = true) (converts : input.Converts)
    (streamIndex : Int) (state : DecodeState σ ρ Frame) (id : StreamId) :
    delivered id (input.flushRemaining streamIndex state).log = delivered id state.log ++
      if input.index id = some streamIndex then (input.codec id).held (state.decoder id)
      else [] := by
  simp only [← findStream_iff, flushRemaining]
  cases found : input.findStream streamIndex with
  | none => simp
  | some own =>
      simp only [flush_feeds extracts converts, Option.some.injEq]
      by_cases same : id = own
      · simp [same]
      · simp [same, Ne.symm same]

theorem flushRemaining_keeps (kept : input.Kept property) (streamIndex : Int)
    (state : DecodeState σ ρ Frame) (before : property state.log) :
    property (input.flushRemaining streamIndex state).log := by
  unfold flushRemaining
  split
  · exact flush_keeps kept _ state before
  · exact before

theorem handleDelayed_keeps (kept : input.Kept property) (index : Nat)
    (state : DecodeState σ ρ Frame) (before : property state.log) :
    property (input.handleDelayedAudioFrames index state).log := by
  fun_induction handleDelayedAudioFrames input index state with
  | case1 => exact before
  | case2 _ _ state' _ _ _ ih => exact ih (kept state' _ before)
  | case3 _ _ state' => exact kept state' _ before

theorem handleDelayed_feeds (index : Nat) (state : DecodeState σ ρ Frame) (id : StreamId) :
    delivered id (input.handleDelayedAudioFrames index state).log = delivered id state.log := by
  have silent (state : DecodeState σ ρ Frame) (samples : Int) :
      delivered id (input.call state (.audio index none samples)).1.log =
        delivered id state.log := by
    simp [delivered_call, Callback.frameOf]
  fun_induction handleDelayedAudioFrames input index state with
  | case1 => rfl
  | case2 state converted state' _ _ _ ih => rw [ih]; exact silent state' converted.1
  | case3 state converted state' => exact silent state' converted.1

theorem handleAllDelayed_keeps (kept : input.Kept property) (indices : List Nat)
    (state : DecodeState σ ρ Frame) (before : property state.log) :
    property (indices.foldl
      (fun state index => input.handleDelayedAudioFrames index state) state).log := by
  induction indices generalizing state with
  | nil => exact before
  | cons index indices ih => exact ih _ (handleDelayed_keeps kept index state before)

theorem handleAllDelayed_feeds (indices : List Nat) (state : DecodeState σ ρ Frame)
    (id : StreamId) :
    delivered id (indices.foldl
      (fun state index => input.handleDelayedAudioFrames index state) state).log =
        delivered id state.log := by
  induction indices generalizing state with
  | nil => rfl
  | cons index indices ih => exact (ih _).trans (handleDelayed_feeds index state id)

/-- `Decode` starts on fresh decoders and has called nobody yet. -/
def start (decoder : StreamId → σ) (resample : Nat → ρ) : DecodeState σ ρ Frame :=
  { decoder := decoder, resample := resample, currentFrame := 0, log := [] }

theorem decode_keeps (kept : input.Kept property) (eofIndex : Int) (packets : List Packet)
    (state : DecodeState σ ρ Frame) (before : property state.log) :
    property (input.decode eofIndex packets state).log := by
  have looped := decodeLoop_keeps kept eofIndex packets state before
  have flushed := flushRemaining_keeps kept (input.decodeLoop eofIndex packets state).2 _ looped
  unfold decode
  simp only
  split
  · exact handleAllDelayed_keeps kept _ _ flushed
  · exact flushed

/-- The frames that reach a callback: those for the stream's packets, and for one stream
those its decoder has held back. -/
theorem delivered_decode (extracts : input.extractAudio = true) (converts : input.Converts)
    (decoder : StreamId → σ) (resample : Nat → ρ) (eofIndex : Int) (packets : List Packet)
    (accepted : Accepted (input.decode eofIndex packets (start decoder resample)).log)
    (id : StreamId) :
    delivered id (input.decode eofIndex packets (start decoder resample)).log =
      ((input.codec id).feed (decoder id) (input.packetsOf id packets)).1 ++
        if input.index id = some eofIndex then
          (input.codec id).held
            ((input.codec id).feed (decoder id) (input.packetsOf id packets)).2
        else [] := by
  let looped := input.decodeLoop eofIndex packets (start decoder resample)
  have kept := input.kept_prefix looped.1.log
  have grows := handleAllDelayed_keeps kept (List.range input.audioIndices.length) _
    (flushRemaining_keeps kept looped.2 looped.1 List.prefix_rfl)
  simp only [decode, extracts, if_true] at accepted ⊢
  obtain ⟨ended, fed⟩ := decodeLoop_feeds extracts converts eofIndex packets
    (start decoder resample) (accepted.of_prefix grows)
  rw [handleAllDelayed_feeds, flushRemaining_feeds extracts converts, ended, (fed id).1,
    (fed id).2]
  rfl

/-- Every decoded frame reaches its callback exactly if only the decoder whose stream
index is left in the packet at the end of the file still holds frames. -/
theorem decode_delivers_iff (input : Input σ ρ Frame) (extracts : input.extractAudio = true)
    (converts : input.Converts) (decoder : StreamId → σ) (resample : Nat → ρ) (eofIndex : Int)
    (packets : List Packet)
    (accepted : Accepted (input.decode eofIndex packets (start decoder resample)).log) :
    (∀ id, (input.index id).isSome →
      delivered id (input.decode eofIndex packets (start decoder resample)).log =
        (input.codec id).produced (decoder id) (input.packetsOf id packets)) ↔
    ∀ id, (input.index id).isSome → input.index id ≠ some eofIndex →
      (input.codec id).held
        ((input.codec id).feed (decoder id) (input.packetsOf id packets)).2 = [] := by
  simp only [delivered_decode extracts converts decoder resample eofIndex packets accepted,
    Codec.produced, List.append_cancel_left_eq]
  refine forall_congr' fun id => imp_congr_right fun _ => ?_
  by_cases left : input.index id = some eofIndex
  · simp [left]
  · simp only [left, if_false, ne_eq, not_false_eq_true, forall_const]
    exact eq_comm

end Input

def oneFrameDelay : Codec (List UInt8) UInt8 where
  decode state data :=
    if data = [] then ⟨0, state.head?, state.tail⟩
    else ⟨data.length, state.head?, state.tail ++ data.take 1⟩
  held := id
  calls _ _ := 0
  drains state := by simp
  ends state data := by
    by_cases empty : data = [] <;> simp [empty, remaining]

def noResampling : Resampler Unit UInt8 where
  convert _ _ := (0, ())
  kept _ := 0
  drains _ positive := absurd positive (Int.lt_irrefl 0)

def audioFirst : Input (List UInt8) Unit UInt8 where
  videoIndex := some 1
  audioIndices := [0]
  distinct := by decide
  codec _ := oneFrameDelay
  resampler _ := noResampling
  extractAudio := true
  answer _ _ := true

namespace Input

theorem audioFirst_accepted (eofIndex : Int) (packets : List Packet) :
    Accepted (audioFirst.decode eofIndex packets (start (fun _ => []) fun _ => ())).log :=
  decode_keeps (audioFirst.kept_accepted fun _ _ => rfl) eofIndex packets _ fun _ member => by
    cases member

theorem audioFirst_converts : audioFirst.Converts := fun _ _ _ => Int.le_refl 0

theorem audioFirst_held :
    oneFrameDelay.feed [] (audioFirst.packetsOf .video [⟨1, [7]⟩]) = ([], [7]) := by
  have own : audioFirst.packetsOf .video [⟨1, [7]⟩] = [[7]] := by decide
  rw [own, Codec.feed, Codec.feedPacket]
  simp [oneFrameDelay, remaining, Codec.feed]

theorem audioFirst_silent (index : Nat) :
    oneFrameDelay.feed [] (audioFirst.packetsOf (.audio index) [⟨1, [7]⟩]) = ([], []) := by
  have absent : audioFirst.packetsOf (.audio index) [⟨1, [7]⟩] = [] := by
    cases index <;> simp [packetsOf, Input.index, audioFirst]
  rw [absent, Codec.feed]

/-- With the index of the video left in the packet its last frame is delivered. -/
theorem decode_delivers_video :
    delivered .video (audioFirst.decode 1 [⟨1, [7]⟩] (start (fun _ => []) fun _ => ())).log =
      oneFrameDelay.produced [] (audioFirst.packetsOf .video [⟨1, [7]⟩]) ∧
    delivered (.audio 0) (audioFirst.decode 1 [⟨1, [7]⟩] (start (fun _ => []) fun _ => ())).log =
      oneFrameDelay.produced [] (audioFirst.packetsOf (.audio 0) [⟨1, [7]⟩]) := by
  have all := (decode_delivers_iff audioFirst rfl audioFirst_converts (fun _ => []) (fun _ => ()) 1
    [⟨1, [7]⟩] (audioFirst_accepted 1 _)).mpr fun id _ other => by
      cases id with
      | video => exact absurd rfl other
      | audio index => exact congrArg Prod.snd (audioFirst_silent index)
  exact ⟨all .video rfl, all (.audio 0) rfl⟩

/-- With the index of the audio stream left in the packet the last video frame is lost. -/
theorem held_frame_is_lost :
    ¬ ∀ (σ ρ Frame : Type) (input : Input σ ρ Frame), input.extractAudio = true →
      input.Converts → ∀ (decoder : StreamId → σ) (resample : Nat → ρ) (eofIndex : Int)
        (packets : List Packet),
        Accepted (input.decode eofIndex packets (start decoder resample)).log →
        ∀ id, (input.index id).isSome →
          delivered id (input.decode eofIndex packets (start decoder resample)).log =
            (input.codec id).produced (decoder id) (input.packetsOf id packets) := by
  intro claimed
  have accepted := audioFirst_accepted 0 [⟨1, [7]⟩]
  have all := claimed _ _ _ audioFirst rfl audioFirst_converts (fun _ => []) (fun _ => ()) 0
    [⟨1, [7]⟩] accepted .video rfl
  rw [delivered_decode rfl audioFirst_converts _ _ _ _ accepted] at all
  have fed : (audioFirst.codec .video).feed [] (audioFirst.packetsOf .video [⟨1, [7]⟩]) =
      ([], [7]) := audioFirst_held
  rw [Codec.produced, fed] at all
  exact absurd all (by decide)

end Input

end Imflib.Encoder

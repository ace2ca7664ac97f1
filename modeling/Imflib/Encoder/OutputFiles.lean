import Imflib.Encoder.EncoderRun

/-! The names of the files that a run of `imfenc` makes, and the files it leaves alone. -/

namespace Imflib.Encoder

def targetName (number : Nat) : String :=
  String.ofList (Text.padLeft 7 '0' (Text.digits number)) ++ ".j2k"

def wavName (index : Nat) : String :=
  "AUDIO_" ++ String.ofList (Text.padLeft 7 '0' (Text.digits index)) ++ ".wav"

section Names

structure Plain (name : String) : Prop where
  noSlash : '/' ∉ name.toList
  nonempty : name ≠ ""

theorem getLast_append (front : String) {suffix : String} (nonempty : suffix.toList ≠ []) :
    (front ++ suffix).toList.getLast? = suffix.toList.getLast? := by
  rw [String.toList_append, List.getLast?_append_of_ne_nil _ nonempty]

theorem ne_of_suffix {first second one other : String} (filled : one.toList ≠ [])
    (otherFilled : other.toList ≠ []) (differ : one.toList.getLast? ≠ other.toList.getLast?) :
    first ++ one ≠ second ++ other := by
  intro same
  have last := congrArg (fun name : String => name.toList.getLast?) same
  simp only [getLast_append _ filled, getLast_append _ otherFilled] at last
  exact differ last

theorem plain_of_parts {front suffix : String} {middle : List Char} (frontPlain : '/' ∉ front.toList)
    (middlePlain : '/' ∉ middle) (suffixPlain : '/' ∉ suffix.toList) (filled : suffix.toList ≠ []) :
    Plain (front ++ String.ofList middle ++ suffix) where
  noSlash := by
    rw [String.toList_append, String.toList_append, String.toList_ofList]
    simp only [List.mem_append, not_or]
    exact ⟨⟨frontPlain, middlePlain⟩, suffixPlain⟩
  nonempty := by
    intro empty
    have both := congrArg String.toList empty
    rw [String.toList_append] at both
    exact filled (List.append_eq_nil_iff.mp both).2

theorem not_mem_padLeft {number : Nat} : '/' ∉ Text.padLeft 7 '0' (Text.digits number) :=
  fun member => absurd (Text.isDigit_of_mem_padLeft member) (by decide)

theorem not_mem_digits {number : Nat} : '/' ∉ Text.digits number :=
  fun member => absurd (Text.isDigit_of_mem_digits member) (by decide)

theorem not_mem_number {number : Int} : '/' ∉ Text.decimal number :=
  Text.not_mem_decimal (by decide) (by decide)

theorem plain_targetName (number : Nat) : Plain (targetName number) := by
  have plain : Plain ("" ++ String.ofList (Text.padLeft 7 '0' (Text.digits number)) ++ ".j2k") :=
    plain_of_parts (by decide) not_mem_padLeft (by decide) (by decide)
  rwa [String.empty_append] at plain

theorem plain_wavName (index : Nat) : Plain (wavName index) :=
  plain_of_parts (by decide) not_mem_padLeft (by decide) (by decide)

variable (rateText : RationalNumber → List Char) (options : ProgramOptions)

theorem plain_audioFileName (channels bitsPerSample : Int) (index : Nat) :
    Plain (audioFileName options channels bitsPerSample index) := by
  refine plain_of_parts (by decide) ?_ (by decide) (by decide)
  have letters : '/' ∉ "ch_".toList ∧ '/' ∉ "bits".toList := by decide
  simp only [List.mem_append, List.mem_cons, not_mem_digits, not_mem_number, letters]
  decide

theorem not_mem_colorName : '/' ∉ (colorName options).toList := by
  unfold colorName
  cases options.colorFormat <;> cases options.fullRange <;> decide

theorem plain_videoFileName (numbers : ∀ rate, '/' ∉ rateText rate) (width height : Int)
    (editRate : RationalNumber) : Plain (videoFileName rateText options width height editRate) := by
  refine plain_of_parts (by decide) ?_ (by decide) (by decide)
  have rate : '/' ∉ fpsString rateText editRate := fun member =>
    numbers editRate (List.mem_filter.mp member).1
  have letters : '/' ∉ "_BCPL".toList ∧ '/' ∉ "fps_".toList ∧ '/' ∉ "bits".toList := by decide
  simp only [List.mem_append, List.mem_cons, not_mem_digits, not_mem_number, not_mem_colorName, rate,
    letters]
  decide

end Names

section Entries

variable (rateText : RationalNumber → List Char) (options : ProgramOptions) (source : Source)
  (disk : FileSystem OutputFile)

inductive TempEntry : String × String → Prop where
  | frame (number : Nat) : TempEntry (disk.folderOf options.tempFilePath, targetName number)
  | wav (index : Nat) : TempEntry (disk.folderOf options.tempFilePath, wavName index)

inductive OutputEntry : String × String → Prop where
  | video (video : VideoSource) (given : source.video = some video) :
      OutputEntry (disk.folderOf options.outputPath,
        videoFileName rateText options video.width video.height video.editRate)
  | audio (track : AudioSource × Nat) (member : track ∈ (audioTracks options source).zipIdx) :
      OutputEntry (disk.folderOf options.outputPath,
        audioFileName options track.1.channels 24 track.2)

variable {options disk}

theorem entry_targetFile (frame : RawVideoFrame) : disk.entry (targetFile options.tempFilePath frame) =
    (disk.folderOf options.tempFilePath, targetName frame.frameNumber) := by
  have plain := plain_targetName frame.frameNumber
  rw [targetFile, String.append_assoc]
  exact disk.entry_join _ plain.noSlash plain.nonempty

theorem entry_wavFileName (index : Nat) : disk.entry (wavFileName options.tempFilePath index) =
    (disk.folderOf options.tempFilePath, wavName index) := by
  have plain := plain_wavName index
  have split : "/AUDIO_" = "/" ++ "AUDIO_" := by decide
  have joined : wavFileName options.tempFilePath index =
      options.tempFilePath ++ "/" ++ wavName index := by
    rw [wavFileName, wavName, split]
    simp only [String.append_assoc]
  rw [joined]
  exact disk.entry_join _ plain.noSlash plain.nonempty

theorem entry_audioFile (channels : Int) (index : Nat) :
    disk.entry (getAudioFileName options channels 24 index) =
      (disk.folderOf options.outputPath, audioFileName options channels 24 index) := by
  have plain := plain_audioFileName options channels 24 index
  exact disk.entry_join _ plain.noSlash plain.nonempty

theorem entry_videoFile (numbers : ∀ rate, '/' ∉ rateText rate) (video : VideoSource) :
    disk.entry (getVideoFileName rateText options video.width video.height video.editRate) =
      (disk.folderOf options.outputPath,
        videoFileName rateText options video.width video.height video.editRate) := by
  have plain := plain_videoFileName rateText options numbers video.width video.height video.editRate
  exact disk.entry_join _ plain.noSlash plain.nonempty

/-- Temporary files and outputs are apart, even in one folder. -/
theorem not_output_of_temp {entry : String × String} (temp : TempEntry options disk entry) :
    ¬ OutputEntry rateText options source disk entry := by
  intro output
  cases temp <;> generalize same : Prod.mk _ _ = entry at output <;> cases output <;>
    exact ne_of_suffix (by decide) (by decide) (by decide) (congrArg Prod.snd same)

end Entries

section Traces

variable {rateText : RationalNumber → List Char} {options : ProgramOptions} {source : Source}
  {before disk : FileSystem OutputFile} {state : RunState} {count : Nat} {phase : Phase}

open FileSystem

theorem changes_clear {allowed : String × String → Prop} {name : String}
    (changes : Changes allowed before disk) (own : allowed (before.entry name)) :
    Changes allowed before (clearOutput options name disk).state := by
  unfold clearOutput
  split
  · split
    · refine changes.trans ((Changes.removeFile disk name).mono ?_)
      rintro entry rfl
      exact changes.entry ▸ own
    · exact changes
  · exact changes

theorem changes_write {allowed : String × String → Prop} {path : String} {content : OutputFile}
    (changes : Changes allowed before disk) (own : allowed (before.entry path)) :
    Changes allowed before (writeToFile disk path content) := by
  unfold writeToFile
  cases written : disk.write path content with
  | none => exact changes
  | some after =>
      refine changes.trans ((Changes.write written).mono ?_)
      rintro entry rfl
      exact changes.entry ▸ own

theorem changes_clean {allowed : String × String → Prop} {files : List String}
    (changes : Changes allowed before disk) (own : ∀ file ∈ files, allowed (before.entry file)) :
    Changes allowed before (cleanFiles files disk) := by
  induction files generalizing disk with
  | nil => exact changes
  | cons file rest ih =>
      refine ih (changes.trans ((Changes.removeFile disk file).mono ?_)) ?_
      · rintro entry rfl
        exact changes.entry ▸ own file List.mem_cons_self
      · exact fun other member => own other (List.mem_cons_of_mem file member)

theorem gone_of_clean {files : List String} {entry : String × String}
    (gone : disk.file entry = none ∨ ∃ file ∈ files, entry = disk.entry file) :
    (cleanFiles files disk).file entry = none := by
  induction files generalizing disk with
  | nil =>
      rcases gone with gone | ⟨file, member, -⟩
      · exact gone
      · cases member
  | cons file rest ih =>
      refine ih ?_
      by_cases own : entry = disk.entry file
      · exact .inl (own ▸ disk.read_removeFile file)
      · rcases gone with gone | ⟨other, member, same⟩
        · exact .inl (((Changes.removeFile disk file).file entry own).trans gone)
        · rcases List.mem_cons.mp member with rfl | inRest
          · exact absurd same own
          · exact .inr ⟨other, inRest, same⟩

/-- What a run has changed is an output, or one of the temporary files, which are listed or missed
by the list. -/
structure RunState.Traced (rateText : RationalNumber → List Char) (options : ProgramOptions)
    (source : Source) (phase : Phase) (before : FileSystem OutputFile) (state : RunState) :
    Prop where
  changes : Changes (fun entry => OutputEntry rateText options source before entry ∨
    ∃ file ∈ phase.unlisted ++ (state.j2kFiles ++ state.wavFiles), entry = before.entry file)
      before state.disk
  temporary : ∀ file ∈ phase.unlisted ++ (state.j2kFiles ++ state.wavFiles),
    TempEntry options before (before.entry file)
  late : state.late ⊆ phase.late

theorem changes_initVideo (numbers : ∀ rate, '/' ∉ rateText rate) :
    Changes (OutputEntry rateText options source disk) disk
      (initVideo rateText options source disk).state := by
  unfold initVideo
  split
  · exact .refl disk
  · rename_i video given
    refine Imflib.Outcome.andThen_keeps (Changes (OutputEntry rateText options source disk) disk)
      (changes_clear (.refl disk) ?_) ?_
    · rw [entry_videoFile rateText numbers]
      exact .video video given
    · intro next changed
      split <;> exact changed

theorem changes_initAudio (changes : Changes (OutputEntry rateText options source before) before disk) :
    Changes (OutputEntry rateText options source before) before
      (initAudio options source disk).state := by
  refine Imflib.Outcome.forEach_keeps _ ?_ changes
  intro track member next changed
  unfold initTrack
  split
  · exact changed
  · refine changes_clear changed ?_
    rw [entry_audioFile]
    exact .audio track member

/-- Every encoded frame has a file of its own, and no other file is listed. -/
structure Phase.Sound (tempFilePath : String) (phase : Phase) : Prop where
  files : ∀ context ∈ phase.encoded ++ phase.late.map Prod.fst,
    context.targetFile = targetFile tempFilePath context.videoFrame
  nodup : (phase.encoded.map (·.targetFile)).Nodup
  listed : phase.j2kFiles ⊆ phase.encoded.map (·.targetFile)

theorem Phase.Sound.temp (sound : phase.Sound options.tempFilePath)
    (before : FileSystem OutputFile) {context : ThreadContext}
    (member : context ∈ phase.encoded ++ phase.late.map Prod.fst) :
    TempEntry options before (before.entry context.targetFile) := by
  rw [sound.files context member, entry_targetFile]
  exact .frame _

theorem file_of_mem_frames {outFilePath : String} {context : ThreadContext}
    (member : context ∈ framesUpTo outFilePath count) :
    context.targetFile = targetFile outFilePath context.videoFrame := by
  rcases List.mem_map.mp member with ⟨number, -, rfl⟩
  rfl

/-- What detached workers do to a state is nothing that it could not become anyway. -/
theorem reachable_of_workers {n : Nat} {outFilePath : String} {state later : EncodeState n}
    (reached : Transition.Reachable (EncodeState.Steps outFilePath) (EncodeState.start n) state)
    (worked : Transition.Reachable (EncodeState.WorkerSteps outFilePath) state later) :
    Transition.Reachable (EncodeState.Steps outFilePath) (EncodeState.start n) later :=
  worked.invariant (Transition.Reachable (EncodeState.Steps outFilePath) (EncodeState.start n))
    reached fun _ _ _ before taken => before.tail taken.2

theorem files_of_ends {n : Nat} {outFilePath : String} {state : EncodeState n}
    {late : List (ThreadContext × List UInt8)} {error : Option Interruption}
    (reached : Transition.Reachable (EncodeState.Steps outFilePath) (EncodeState.start n) state)
    (ends : state.Ends outFilePath late error) :
    ∀ context ∈ state.encoded ++ late.map Prod.fst,
      context.targetFile = targetFile outFilePath context.videoFrame := by
  have named {state : EncodeState n}
      (reached : Transition.Reachable (EncodeState.Steps outFilePath) (EncodeState.start n) state)
      (context : ThreadContext) (member : context ∈ state.encoded) :
      context.targetFile = targetFile outFilePath context.videoFrame :=
    file_of_mem_frames
      ((EncodeState.encoded_subperm (EncodeState.conserved_of_reachable reached)).subset member)
  cases error with
  | none =>
      rw [ends.2, List.map_nil, List.append_nil]
      exact named reached
  | some interruption =>
      cases interruption with
      | caught what =>
          obtain ⟨-, later, worked, encoded⟩ := ends
          rw [← encoded]
          exact named (reachable_of_workers reached worked)
      | terminated =>
          rw [ends.2, List.map_nil, List.append_nil]
          exact named reached

theorem sound_of_encodes (encodes : Encodes options count phase) : phase.Sound options.tempFilePath := by
  unfold Encodes at encodes
  split at encodes
  · obtain ⟨encoded, listed, late⟩ := encodes
    rw [filesST_eq] at listed
    refine ⟨fun context member => ?_, encoded ▸ framesUpTo_files_nodup _ count, ?_⟩
    · rw [late, List.map_nil, List.append_nil, encoded] at member
      exact file_of_mem_frames member
    · rw [encoded, listed]
      exact List.Subset.refl _
  · obtain ⟨state, reached, -, encoded, listed, ends⟩ := encodes
    have sound := EncodeState.conserved_of_reachable reached
    refine ⟨encoded ▸ files_of_ends reached ends, ?_, ?_⟩
    · obtain ⟨frames, perm, sublist⟩ := EncodeState.encoded_subperm sound
      have nodup := (sublist.map (·.targetFile)).nodup
        (framesUpTo_files_nodup options.tempFilePath state.currentFrame)
      rw [encoded]
      exact (perm.map (·.targetFile)).nodup nodup
    · rw [encoded, listed]
      exact EncodeState.listed_subset sound

theorem leftover_of_encodes (encodes : Encodes options count phase)
    (regular : options.threads = 1 ∨ phase.error = none) : phase.leftover = [] := by
  have covered : phase.encoded.map (·.targetFile) ⊆ phase.j2kFiles ∧ phase.late = [] := by
    unfold Encodes at encodes
    split at encodes
    · obtain ⟨encoded, listed, late⟩ := encodes
      rw [filesST_eq] at listed
      exact ⟨by rw [encoded, listed]; exact List.Subset.refl _, late⟩
    · rename_i several
      obtain ⟨state, reached, -, encoded, listed, ends⟩ := encodes
      rw [regular.resolve_left several] at ends
      obtain ⟨joined, late⟩ := ends
      have sound := EncodeState.conserved_of_reachable reached
      have finished : state.Finished :=
        ⟨sound.done.mpr (.inr joined), (EncodeState.sortedWhenJoined_of_reachable reached joined).1⟩
      rw [encoded, listed]
      exact ⟨(EncodeState.listed_perm sound finished).subset, late⟩
  rw [Phase.leftover, Phase.unlisted, covered.2, List.map_nil, List.append_nil]
  exact List.filter_eq_nil_iff.mpr fun file member => by simpa using covered.1 member

theorem changes_writeFrames {allowed : String × String → Prop}
    (changes : Changes allowed before disk)
    (own : ∀ context ∈ phase.encoded, allowed (before.entry context.targetFile)) :
    Changes allowed before (writeFrames source phase disk) := by
  unfold writeFrames
  split
  · exact changes
  · generalize phase.encoded = encoded at own ⊢
    induction encoded generalizing disk with
    | nil => exact changes
    | cons context rest ih =>
        exact ih (changes_write changes (own context List.mem_cons_self))
          fun other member => own other (List.mem_cons_of_mem context member)

theorem traced_encode (sound : phase.Sound options.tempFilePath)
    (changes : Changes (OutputEntry rateText options source before) before disk) :
    (encode source phase disk).state.Traced rateText options source phase before := by
  have written (file : String) : file ∈ phase.encoded.map (·.targetFile) ↔
      file ∈ phase.unlisted ++ (phase.j2kFiles ++ []) := by
    rw [List.append_nil, List.mem_append, Phase.unlisted, List.mem_filter, decide_eq_true_iff]
    constructor
    · intro member
      by_cases listed : file ∈ phase.j2kFiles
      · exact .inr listed
      · exact .inl ⟨member, listed⟩
    · rintro (missed | listed)
      · exact missed.1
      · exact sound.listed listed
  refine ⟨changes_writeFrames (changes.mono fun entry => .inl) fun context member => ?_, ?_,
    List.Subset.refl _⟩
  · exact .inr ⟨context.targetFile, (written _).mp (List.mem_map_of_mem member), rfl⟩
  · intro file member
    rcases List.mem_map.mp ((written file).mpr member) with ⟨context, encoded, rfl⟩
    exact sound.temp before (List.mem_append_left _ encoded)

theorem traced_runVideoMux (numbers : ∀ rate, '/' ∉ rateText rate)
    (traced : state.Traced rateText options source phase before) :
    (runVideoMux rateText options source state).state.Traced rateText options source phase before := by
  unfold runVideoMux
  split
  · exact traced
  · rename_i video given
    have own : OutputEntry rateText options source before _ := .video video given
    rw [← entry_videoFile rateText numbers] at own
    have written : (writeVideo rateText options video state).Traced rateText options source phase
        before := by
      unfold writeVideo
      split
      · exact ⟨changes_write traced.changes (.inl own), traced.temporary, traced.late⟩
      · exact traced
    split
    · exact traced
    · split <;> exact written

theorem traced_writeWav (track : AudioSource × Nat)
    (traced : state.Traced rateText options source phase before) :
    (writeWav options state track).Traced rateText options source phase before := by
  let wavName := wavFileName options.tempFilePath track.2
  have grown : phase.unlisted ++ (state.j2kFiles ++ (state.wavFiles ++ [wavName])) =
      (phase.unlisted ++ (state.j2kFiles ++ state.wavFiles)) ++ [wavName] := by
    simp only [List.append_assoc]
  refine ⟨changes_write (traced.changes.mono ?_) (.inr ⟨wavName, ?_, rfl⟩), ?_, traced.late⟩
  · rintro entry (output | ⟨file, member, same⟩)
    · exact .inl output
    · exact .inr ⟨file, grown ▸ List.mem_append_left _ member, same⟩
  · exact grown ▸ List.mem_append_right _ (List.mem_singleton_self _)
  · intro file member
    rw [writeWav, grown] at member
    rcases List.mem_append.mp member with earlier | new
    · exact traced.temporary file earlier
    · rw [List.mem_singleton.mp new, entry_wavFileName]
      exact .wav _

theorem traced_runAudioMux {track : AudioSource × Nat}
    (member : track ∈ (audioTracks options source).zipIdx)
    (traced : state.Traced rateText options source phase before) :
    (runAudioMux options state track).state.Traced rateText options source phase before := by
  have listed := traced_writeWav track traced
  have written : (writeAudio options (writeWav options state track) track).Traced rateText options
      source phase before := by
    unfold writeAudio
    split
    · refine ⟨changes_write listed.changes (.inl ?_), listed.temporary, listed.late⟩
      rw [entry_audioFile]
      exact .audio track member
    · exact listed
  unfold runAudioMux
  dsimp only
  split
  · exact listed
  · split <;> exact written

theorem traced_runBody (numbers : ∀ rate, '/' ∉ rateText rate)
    (sound : phase.Sound options.tempFilePath) :
    (runBody rateText options source phase before).state.Traced rateText options source phase before := by
  have opened : Changes (OutputEntry rateText options source before) before
      ((initVideo rateText options source before).andThen (initAudio options source)).state :=
    Imflib.Outcome.andThen_keeps _ (changes_initVideo numbers) fun _ => changes_initAudio
  unfold runBody
  dsimp only
  split
  · refine ⟨opened.mono fun entry => .inl, fun file member => ?_, List.nil_subset _⟩
    have missed : file ∈ phase.unlisted := by simpa [Imflib.Outcome.fail] using member
    rcases List.mem_map.mp (List.mem_filter.mp missed).1 with ⟨context, encoded, rfl⟩
    exact sound.temp before (List.mem_append_left _ encoded)
  · let kept := RunState.Traced rateText options source phase before
    refine Imflib.Outcome.andThen_keeps kept ?_ ?_
    · exact Imflib.Outcome.andThen_keeps kept (traced_encode sound opened) fun _ =>
        traced_runVideoMux numbers
    · exact fun _ traced => Imflib.Outcome.forEach_keeps kept
        (fun _ member _ => traced_runAudioMux member) traced

theorem RunState.Traced.cleaned (traced : state.Traced rateText options source phase before) :
    Changes (fun entry => TempEntry options before entry ∨
        OutputEntry rateText options source before entry) before
      (cleanFiles state.wavFiles (cleanFiles state.j2kFiles state.disk)) ∧
    ∀ entry, TempEntry options before entry →
      (cleanFiles state.wavFiles (cleanFiles state.j2kFiles state.disk)).file entry = none ∨
      (cleanFiles state.wavFiles (cleanFiles state.j2kFiles state.disk)).file entry =
        before.file entry ∨ ∃ file ∈ phase.unlisted, entry = before.entry file := by
  have inFrames (file : String) (member : file ∈ state.j2kFiles) :
      file ∈ phase.unlisted ++ (state.j2kFiles ++ state.wavFiles) :=
    List.mem_append_right _ (List.mem_append_left _ member)
  have inWavs (file : String) (member : file ∈ state.wavFiles) :
      file ∈ phase.unlisted ++ (state.j2kFiles ++ state.wavFiles) :=
    List.mem_append_right _ (List.mem_append_right _ member)
  have frames := changes_clean traced.changes fun file member =>
    Or.inr ⟨file, inFrames file member, rfl⟩
  have both := changes_clean frames fun file member => Or.inr ⟨file, inWavs file member, rfl⟩
  refine ⟨both.mono ?_, fun entry temp => ?_⟩
  · rintro entry (output | ⟨file, member, rfl⟩)
    · exact .inr output
    · exact .inl (traced.temporary file member)
  · by_cases own : ∃ file ∈ phase.unlisted ++ (state.j2kFiles ++ state.wavFiles),
        entry = before.entry file
    · rcases own with ⟨file, member, same⟩
      rcases List.mem_append.mp member with missed | listed
      · exact .inr (.inr ⟨file, missed, same⟩)
      · refine .inl (gone_of_clean ?_)
        rcases List.mem_append.mp listed with early | late
        · exact .inl (gone_of_clean (.inr ⟨file, early, by rw [traced.changes.entry, same]⟩))
        · exact .inr ⟨file, late, by rw [frames.entry, same]⟩
    · refine .inr (.inl (both.file entry ?_))
      rintro (output | changed)
      · exact not_output_of_temp rateText source temp output
      · exact own changed

theorem changes_writeLate {late : List (ThreadContext × List UInt8)}
    {allowed : String × String → Prop} (changes : Changes allowed before disk)
    (own : ∀ frame ∈ late, allowed (before.entry frame.1.targetFile)) :
    Changes allowed before (writeLate late disk) := by
  unfold writeLate
  induction late generalizing disk with
  | nil => exact changes
  | cons frame rest ih =>
      exact ih (changes_write changes (own frame List.mem_cons_self))
        fun other member => own other (List.mem_cons_of_mem frame member)

/-- After late writes, too, only the files are left that were not listed in time. -/
theorem RunState.Traced.interrupted (traced : state.Traced rateText options source phase before)
    (sound : phase.Sound options.tempFilePath) :
    let after := writeLate state.late
      (cleanFiles state.wavFiles (cleanFiles state.j2kFiles state.disk))
    Changes (fun entry => TempEntry options before entry ∨
        OutputEntry rateText options source before entry) before after ∧
    ∀ entry, TempEntry options before entry → after.file entry = none ∨
      after.file entry = before.file entry ∨
      ∃ file ∈ phase.leftover, entry = before.entry file := by
  intro after
  obtain ⟨cleaned, left⟩ := traced.cleaned
  have temporary (frame : ThreadContext × List UInt8) (member : frame ∈ state.late) :
      TempEntry options before (before.entry frame.1.targetFile) :=
    sound.temp before (List.mem_append_right _ (List.mem_map_of_mem (traced.late member)))
  refine ⟨changes_writeLate cleaned fun frame member => .inl (temporary frame member), ?_⟩
  intro entry temp
  by_cases own : ∃ frame ∈ state.late, entry = before.entry frame.1.targetFile
  · rcases own with ⟨frame, member, same⟩
    exact .inr (.inr ⟨_, List.mem_append_right _ (List.mem_map_of_mem (traced.late member)), same⟩)
  · have late : Changes (fun entry => ∃ frame ∈ state.late,
        entry = before.entry frame.1.targetFile)
        (cleanFiles state.wavFiles (cleanFiles state.j2kFiles state.disk)) after := by
      refine changes_writeLate (.refl _) fun frame member => ⟨frame, member, ?_⟩
      rw [cleaned.entry]
    have kept := late.file entry own
    rcases left entry temp with none_ | same | ⟨file, missed, named⟩
    · exact .inl (kept.trans none_)
    · exact .inr (.inl (kept.trans same))
    · exact .inr (.inr ⟨file, List.mem_append_left _ missed, named⟩)

theorem error_of_clearOutput {name : String} {error : Abort}
    (failed : (clearOutput options name disk).error = some error) :
    error = .outputExists name := by
  unfold clearOutput at failed
  split at failed
  · split at failed
    · cases failed
    · exact (Option.some.inj failed).symm
  · cases failed

theorem error_of_opened {error : Abort}
    (failed : ((initVideo rateText options source before).andThen
      (initAudio options source)).error = some error) : error ≠ .terminated := by
  rintro rfl
  rcases Imflib.Outcome.error_of_andThen failed with video | audio
  · unfold initVideo at video
    split at video
    · cases video
    · rcases Imflib.Outcome.error_of_andThen video with cleared | initialized
      · cases error_of_clearOutput cleared
      · split at initialized <;> cases initialized
  · rcases Imflib.Outcome.error_of_forEach audio with ⟨track, -, disk, initialized⟩
    unfold initTrack at initialized
    split at initialized
    · cases initialized
    · cases error_of_clearOutput initialized

theorem error_of_runBody {error : Abort}
    (failed : (runBody rateText options source phase before).error = some error) :
    (error ≠ .terminated ∧ (runBody rateText options source phase before).state.j2kFiles = [] ∧
      (runBody rateText options source phase before).state.wavFiles = []) ∨
    (∃ interruption, phase.error = some interruption ∧ error = interruption.abort) ∨
    ∃ message, error = .exception message := by
  revert failed
  unfold runBody
  dsimp only
  split
  · rename_i first refused
    intro failed
    cases failed
    exact .inl ⟨error_of_opened refused, rfl, rfl⟩
  · intro failed
    rcases Imflib.Outcome.error_of_andThen failed with early | late
    · rcases Imflib.Outcome.error_of_andThen early with encoding | muxing
      · rcases Option.map_eq_some_iff.mp encoding with ⟨interruption, given, same⟩
        exact .inr (.inl ⟨interruption, given, same.symm⟩)
      · unfold runVideoMux at muxing
        split at muxing
        · cases muxing
        · split at muxing
          · cases muxing
          · split at muxing <;> cases muxing
            exact .inr (.inr ⟨_, rfl⟩)
    · rcases Imflib.Outcome.error_of_forEach late with ⟨track, -, state, muxing⟩
      unfold runAudioMux at muxing
      dsimp only at muxing
      split at muxing
      · cases muxing
      · split at muxing <;> cases muxing
        exact .inr (.inr ⟨_, rfl⟩)

end Traces

section Unforced

variable {rateText : RationalNumber → List Char} {options : ProgramOptions} {source : Source}
  {disk : FileSystem OutputFile}

theorem clear_unforced (unforced : options.overwriteFiles = false) (name : String) :
    (clearOutput options name disk).state = disk ∧
      ((clearOutput options name disk).error = none → disk.read name = none) := by
  unfold clearOutput
  split
  · rw [if_neg (by rw [unforced]; decide)]
    exact ⟨rfl, nofun⟩
  · rename_i absent
    exact ⟨rfl, fun _ => Option.not_isSome_iff_eq_none.mp absent⟩

theorem initVideo_unforced (unforced : options.overwriteFiles = false) :
    (initVideo rateText options source disk).state = disk ∧
      ((initVideo rateText options source disk).error = none → ∀ video, source.video = some video →
        disk.read (getVideoFileName rateText options video.width video.height video.editRate) =
          none) := by
  unfold initVideo
  split
  · rename_i absent
    exact ⟨rfl, fun _ video given => by cases absent.symm.trans given⟩
  · rename_i video given
    let name := getVideoFileName rateText options video.width video.height video.editRate
    have clear : (clearOutput options name disk).state = disk ∧
        ((clearOutput options name disk).error = none → disk.read name = none) :=
      clear_unforced unforced name
    constructor
    · refine Imflib.Outcome.andThen_keeps (· = disk) clear.1 fun next same => ?_
      split <;> exact same
    · intro succeeded other found
      cases given.symm.trans found
      exact clear.2 (Imflib.Outcome.andThen_succeeded.mp succeeded).1

theorem initAudio_unforced (unforced : options.overwriteFiles = false) :
    (initAudio options source disk).state = disk ∧
      ((initAudio options source disk).error = none →
        ∀ track ∈ (audioTracks options source).zipIdx,
          disk.read (getAudioFileName options track.1.channels 24 track.2) = none) := by
  have same (track : AudioSource × Nat) (next : FileSystem OutputFile) (start : next = disk) :
      (initTrack options next track).state = disk := by
    unfold initTrack
    split
    · exact start
    · exact (clear_unforced unforced _).1.trans start
  have kept (tracks : List (AudioSource × Nat)) :
      (Imflib.Outcome.forEach (initTrack options) tracks disk).state = disk :=
    Imflib.Outcome.forEach_keeps (· = disk) (fun track _ => same track) rfl
  refine ⟨kept _, fun succeeded => ?_⟩
  have achieved := Imflib.Outcome.forEach_achieves (· = disk) (fun (track : AudioSource × Nat) next =>
    next = disk ∧ disk.read (getAudioFileName options track.1.channels 24 track.2) = none)
    (fun track _ => same track) ?_
    (fun track _ other _ next start holds => ⟨same other next start, holds.2⟩) rfl succeeded
  · exact fun track member => (achieved track member).2
  · intro track _ next start reached
    refine ⟨same track next start, ?_⟩
    unfold initTrack at reached
    split at reached
    · cases reached
    · exact start ▸ (clear_unforced unforced _).2 reached

end Unforced

section Run

variable {rateText : RationalNumber → List Char} {options : ProgramOptions} {source : Source}
  {before after : FileSystem OutputFile} {count code : Nat} {phase : Phase}

open FileSystem

theorem opened_unforced (unforced : options.overwriteFiles = false)
    (numbers : ∀ rate, '/' ∉ rateText rate) :
    let opened := (initVideo rateText options source before).andThen (initAudio options source)
    opened.state = before ∧ (opened.error = none →
      ∀ entry, OutputEntry rateText options source before entry → before.file entry = none) := by
  have video : (initVideo rateText options source before).state = before ∧ _ :=
    initVideo_unforced unforced
  constructor
  · exact Imflib.Outcome.andThen_keeps (· = before) video.1 fun next same =>
      same ▸ (initAudio_unforced unforced).1
  · intro succeeded entry output
    obtain ⟨first, second⟩ := Imflib.Outcome.andThen_succeeded.mp succeeded
    rw [video.1] at second
    cases output with
    | video source given =>
        rw [← entry_videoFile rateText numbers]
        exact video.2 first source given
    | audio track member =>
        rw [← entry_audioFile]
        exact (initAudio_unforced unforced).2 second track member

/-- The files are cleaned, with or without late writes, or they are as the body leaves them. -/
theorem ended_cases (ended : runMain rateText options source phase before = some (code, after)) :
    let body := runBody rateText options source phase before
    let clean := cleanFiles body.state.wavFiles (cleanFiles body.state.j2kFiles body.state.disk)
    after = clean ∨ after = writeLate body.state.late clean ∨
      after = body.state.disk ∧ (code = 0 ∧ options.noMux = true ∨
        body.state.j2kFiles = [] ∧ body.state.wavFiles = [] ∨ phase.error = some .terminated) := by
  intro body clean
  unfold runMain at ended
  dsimp only at ended
  split at ended
  · cases muxed : options.noMux <;> rw [muxed] at ended <;> cases ended
    · exact .inl rfl
    · exact .inr (.inr ⟨rfl, .inl ⟨rfl, rfl⟩⟩)
  · rename_i exists_
    cases ended
    refine .inr (.inr ⟨rfl, .inr (.inl ?_)⟩)
    rcases error_of_runBody exists_ with opened | ⟨interruption, -, same⟩ | ⟨message, same⟩
    · exact opened.2
    · cases interruption <;> cases same
    · cases same
  · cases ended
    exact .inr (.inl rfl)
  · rename_i terminated
    cases ended
    refine .inr (.inr ⟨rfl, .inr (.inr ?_)⟩)
    rcases error_of_runBody terminated with opened | ⟨interruption, given, same⟩ | ⟨message, same⟩
    · exact absurd rfl opened.1
    · cases interruption with
      | caught what => cases same
      | terminated => exact given
    · cases same
  · cases ended

theorem unchanged_of_refused (unforced : options.overwriteFiles = false)
    (numbers : ∀ rate, '/' ∉ rateText rate)
    (ended : runMain rateText options source phase before = some (code, after))
    (refused : ((initVideo rateText options source before).andThen
      (initAudio options source)).error ≠ none) : after = before := by
  have opened : ((initVideo rateText options source before).andThen
      (initAudio options source)).state = before := (opened_unforced unforced numbers).1
  have body : (runBody rateText options source phase before).state = ⟨before, [], [], []⟩ := by
    unfold runBody
    dsimp only
    split
    · exact congrArg (fun disk => (⟨disk, [], [], []⟩ : RunState)) opened
    · rename_i passed
      exact absurd passed refused
  have cases_ := ended_cases ended
  simp only [body] at cases_
  rcases cases_ with cleaned | late | ⟨same, -⟩
  · exact cleaned
  · exact late
  · exact same

/-- A run changes only the files it is for, and temporary files, even if an exception ends it. Without
`-f` no other file that was there is changed. -/
theorem run_keeps_files (numbers : ∀ rate, '/' ∉ rateText rate)
    (encodes : Encodes options count phase)
    (ended : runMain rateText options source phase before = some (code, after)) :
    Changes (fun entry => TempEntry options before entry ∨
        OutputEntry rateText options source before entry) before after ∧
      (options.overwriteFiles = false → ∀ entry, ¬ TempEntry options before entry →
        (before.file entry).isSome = true → after.file entry = before.file entry) := by
  have sound := sound_of_encodes encodes
  have traced : (runBody rateText options source phase before).state.Traced rateText options source
      phase before := traced_runBody numbers sound
  have changes : Changes (fun entry => TempEntry options before entry ∨
      OutputEntry rateText options source before entry) before after := by
    rcases ended_cases ended with rfl | rfl | ⟨rfl, -⟩
    · exact traced.cleaned.1
    · exact (traced.interrupted sound).1
    · refine traced.changes.mono ?_
      rintro entry (output | ⟨file, member, rfl⟩)
      · exact .inr output
      · exact .inl (traced.temporary file member)
  refine ⟨changes, fun unforced entry notTemp present => ?_⟩
  by_cases refused : ((initVideo rateText options source before).andThen
      (initAudio options source)).error = none
  · refine changes.file entry ?_
    rintro (temp | output)
    · exact notTemp temp
    · rw [(opened_unforced unforced numbers).2 refused entry output] at present
      cases present
  · rw [unchanged_of_refused unforced numbers ended refused]

/-- The input lies in the same folder, and stays there. -/
theorem sample_keeps_files : ∃ after, sampleRun = some (0, after) ∧
    after.file ("out", "film.avi") = some .other := by
  rcases sampleRun_ended with ⟨after, ended⟩
  refine ⟨after, ended, (run_keeps_files (fun _ => by decide) sample_encodes ended).2 rfl _ ?_ rfl⟩
  intro temp
  have split : "film.avi" = "film" ++ ".avi" := by decide
  generalize same : Prod.mk "out" "film.avi" = entry at temp
  cases temp <;>
    exact ne_of_suffix (by decide) (by decide) (by decide) (split.symm.trans (congrArg Prod.snd same))

/-- No temporary file is left behind, unless it is kept on purpose, or an exception comes between
writing and listing it while several threads encode. -/
theorem no_temporary_file_left (numbers : ∀ rate, '/' ∉ rateText rate)
    (encodes : Encodes options count phase)
    (ended : runMain rateText options source phase before = some (code, after))
    (cleans : code = 0 → options.noMux = false) (alive : phase.error ≠ some .terminated)
    {entry : String × String} (temp : TempEntry options before entry) :
    after.file entry = none ∨ after.file entry = before.file entry ∨
      options.threads ≠ 1 ∧ phase.error ≠ none ∧
        ∃ file ∈ phase.leftover, entry = before.entry file := by
  have sound := sound_of_encodes encodes
  have traced : (runBody rateText options source phase before).state.Traced rateText options source
      phase before := traced_runBody numbers sound
  have left : after.file entry = none ∨ after.file entry = before.file entry ∨
      ∃ file ∈ phase.leftover, entry = before.entry file := by
    have unlisted {file : String} (missed : file ∈ phase.unlisted) : file ∈ phase.leftover :=
      List.mem_append_left _ missed
    rcases ended_cases ended with rfl | rfl | ⟨rfl, ⟨success, keeps⟩ | ⟨noFrames, noWavs⟩ | terminated⟩
    · rcases traced.cleaned.2 entry temp with gone | same | ⟨file, missed, named⟩
      · exact .inl gone
      · exact .inr (.inl same)
      · exact .inr (.inr ⟨file, unlisted missed, named⟩)
    · exact (traced.interrupted sound).2 entry temp
    · rw [cleans success] at keeps
      cases keeps
    · by_cases own : ∃ file ∈ phase.unlisted, entry = before.entry file
      · obtain ⟨file, missed, named⟩ := own
        exact .inr (.inr ⟨file, unlisted missed, named⟩)
      · refine .inr (.inl (traced.changes.file entry ?_))
        rintro (output | ⟨file, member, named⟩)
        · exact not_output_of_temp rateText source temp output
        · rw [noFrames, noWavs, List.append_nil, List.append_nil] at member
          exact own ⟨file, member, named⟩
    · exact absurd terminated alive
  rcases left with gone | same | ⟨file, member, named⟩
  · exact .inl gone
  · exact .inr (.inl same)
  · refine .inr (.inr ⟨fun single => ?_, fun regular => ?_, file, member, named⟩)
    · rw [leftover_of_encodes encodes (.inl single)] at member
      cases member
    · rw [leftover_of_encodes encodes (.inr regular)] at member
      cases member

theorem sample_leaves_no_frame : ∃ after, sampleRun = some (0, after) ∧
    after.file ("out", "0000001.j2k") = none := by
  rcases sampleRun_ended with ⟨after, ended⟩
  have temp : TempEntry sampleOptions sampleDisk ("out", "0000001.j2k") := .frame 1
  have left := no_temporary_file_left (fun _ => by decide) sample_encodes ended (fun _ => rfl) nofun
    temp
  rcases left with gone | same | ⟨several, -⟩
  · exact ⟨after, ended, gone⟩
  · exact ⟨after, ended, same⟩
  · exact absurd rfl several

/-- One of two workers has written a frame and not listed it, when audio cannot be encoded. -/
def cutPhase : Phase :=
  ⟨[threadContext "out" ⟨1⟩], [], some (.caught "[PCM] error encoding audio"), []⟩

/-- Then the frame stays. -/
example : Encodes { sampleOptions with threads := 2 } 1 cutPhase ∧
    (runMain (fun _ => ['2', '5']) { sampleOptions with threads := 2 } sampleSource cutPhase
      sampleDisk).map (fun ended => (ended.1, ended.2.file ("out", "0000001.j2k"))) =
        some (1, some (.j2k [1])) := by
  have reached := Transition.reachable_of_replay (EncodeState.step "out")
    [.decodeFrame, .push none, .work 0, .work 0, .work 0] (EncodeState.start 2) _ rfl
  exact ⟨⟨_, reached, rfl, rfl, rfl, rfl, _, .refl, rfl⟩, by decide +kernel⟩

end Run

end Imflib.Encoder

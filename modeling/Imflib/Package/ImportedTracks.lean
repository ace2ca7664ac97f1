import Imflib.Package.MXFReader

/-! A track that is read of a file and its descriptor come from the same header, and agree. -/

namespace Imflib.Package

def EssenceDescriptorData.trackType : EssenceDescriptorData → TrackType
  | .wave _ => .audio
  | .rgba _ _ _ _ | .cdci _ _ _ _ _ _ => .video

namespace EssenceDescriptorData

variable (data : EssenceDescriptorData) (subDescriptors : List SubDescriptor)

@[simp] theorem base_setSubDescriptors : (data.setSubDescriptors subDescriptors).base =
    { data.base with subDescriptors } := by
  cases data <;> rfl

@[simp] theorem trackType_setSubDescriptors :
    (data.setSubDescriptors subDescriptors).trackType = data.trackType := by
  cases data <;> rfl

end EssenceDescriptorData

/-- The duration of a track whose descriptor has a length. An index is asked only for a video of the
one length that looks like a missing one. -/
def durationOf (length indexDuration : Int32) : TrackType → Int32
  | .video => if length = -1 then if indexDuration = 0 then -1 else indexDuration else length
  | .audio => if length = 0 then -1 else length

/-- What a playlist says of a track is what its descriptor says. -/
structure IMFTrack.Agrees (track : IMFTrack) (indexDuration : UInt32) : Prop where
  type : track.type = track.essenceDescriptor.essenceDescriptor.trackType
  editRate : track.editRate = track.essenceDescriptor.essenceDescriptor.base.sampleRate
  duration : track.duration =
    durationOf
      (MXFReader.storeInt track.essenceDescriptor.essenceDescriptor.base.essenceLength.toNat)
      (MXFReader.storeInt indexDuration.toNat) track.type
  subDescriptors : track.essenceDescriptor.essenceDescriptor.base.subDescriptors ≠ []

structure Picture.Agrees (picture : Picture) : Prop where
  type : picture.essence.trackType = .video
  editRate : .ofMxf picture.editRate = picture.essence.base.sampleRate
  duration : picture.containerDuration = some picture.essence.base.essenceLength

variable {context : ReaderContext} {file : MXF.TrackFile}

theorem readMXFEssenceDescriptorBase_agrees {gen : MXF.FileDescriptor}
    {base : MXFEssenceDescriptorBase} (read : readMXFEssenceDescriptorBase gen = some base) :
    base.sampleRate = .ofMxf gen.sampleRate ∧ gen.containerDuration = some base.essenceLength := by
  obtain ⟨containerDuration, found, read⟩ := Option.bind_eq_some_iff.mp read
  obtain ⟨linkedTrackID, -, read⟩ := Option.bind_eq_some_iff.mp read
  cases read
  exact ⟨rfl, found⟩

theorem readVideoEssenceDescriptor_agrees {gen : MXF.GenericPictureEssenceDescriptor}
    {video : VideoEssenceDescriptor} (read : readVideoEssenceDescriptor gen = some video) :
    video.base.sampleRate = .ofMxf gen.sampleRate ∧
      gen.containerDuration = some video.base.essenceLength := by
  obtain ⟨base, baseRead, read⟩ := Option.bind_eq_some_iff.mp read
  obtain ⟨transferCharacteristic, -, read⟩ := Option.bind_eq_some_iff.mp read
  obtain ⟨codingEquations, -, read⟩ := Option.bind_eq_some_iff.mp read
  obtain ⟨colorPrimaries, -, read⟩ := Option.bind_eq_some_iff.mp read
  cases read
  exact readMXFEssenceDescriptorBase_agrees baseRead

theorem rgbaPicture_agrees {rgba : MXF.RGBAEssenceDescriptor} {picture : Picture}
    (read : rgbaPicture context rgba = some picture) : picture.Agrees := by
  obtain ⟨essence, essenceRead, read⟩ := Option.bind_eq_some_iff.mp read
  obtain ⟨componentMinRef, -, read⟩ := Option.bind_eq_some_iff.mp read
  obtain ⟨componentMaxRef, -, read⟩ := Option.bind_eq_some_iff.mp read
  cases read
  obtain ⟨video, videoRead, essenceRead⟩ := Option.bind_eq_some_iff.mp essenceRead
  obtain ⟨maxRef, -, essenceRead⟩ := Option.bind_eq_some_iff.mp essenceRead
  obtain ⟨minRef, -, essenceRead⟩ := Option.bind_eq_some_iff.mp essenceRead
  cases essenceRead
  obtain ⟨editRate, duration⟩ := readVideoEssenceDescriptor_agrees videoRead
  exact ⟨rfl, editRate.symm, duration⟩

theorem cdciPicture_agrees {cdci : MXF.CDCIEssenceDescriptor} {picture : Picture}
    (read : cdciPicture cdci = some picture) : picture.Agrees := by
  obtain ⟨essence, essenceRead, read⟩ := Option.bind_eq_some_iff.mp read
  cases read
  obtain ⟨video, videoRead, essenceRead⟩ := Option.bind_eq_some_iff.mp essenceRead
  cases essenceRead
  obtain ⟨editRate, duration⟩ := readVideoEssenceDescriptor_agrees videoRead
  exact ⟨rfl, editRate.symm, duration⟩

theorem readPicture_agrees {picture : Picture} (read : readPicture context file = .ok picture) :
    picture.Agrees := by
  unfold readPicture at read
  split at read
  · exact rgbaPicture_agrees (orThrow_eq_ok.mp read)
  · split at read
    · exact cdciPicture_agrees (orThrow_eq_ok.mp read)
    · cases read

theorem readVideoTrack_agrees {video : IMFVideoTrack} (read : readVideoTrack context file = .ok video) :
    video.track.Agrees file.indexDuration := by
  obtain ⟨opened, -, read⟩ := bind_eq_ok.mp read
  obtain ⟨info, -, read⟩ := bind_eq_ok.mp read
  obtain ⟨picture, pictureRead, read⟩ := bind_eq_ok.mp read
  obtain ⟨pictureSubDescriptor, -, read⟩ := bind_eq_ok.mp read
  obtain ⟨jpeg2000SubDescriptor, -, read⟩ := bind_eq_ok.mp read
  obtain ⟨tracks, -, read⟩ := bind_eq_ok.mp read
  cases read
  have agrees := readPicture_agrees pictureRead
  refine ⟨?_, ?_, ?_, ?_⟩
  · simp [videoTrackOf, agrees.type]
  · simp [videoTrackOf, agrees.editRate]
  · simp [videoTrackOf, MXFReader.videoDuration, durationOf, agrees.duration]
  · simp [videoTrackOf]

theorem readLabels_ne_nil {labels : List SubDescriptor} (read : readLabels file = some labels) :
    labels ≠ [] := by
  obtain ⟨channels, -, read⟩ := Option.bind_eq_some_iff.mp read
  obtain ⟨groups, -, read⟩ := Option.bind_eq_some_iff.mp read
  split at read
  · cases read
  · rename_i labelled
    cases read
    simpa using labelled

theorem readAudioTrack_agrees {audio : IMFAudioTrack} (read : readAudioTrack context file = .ok audio) :
    audio.track.Agrees file.indexDuration := by
  obtain ⟨opened, -, read⟩ := bind_eq_ok.mp read
  obtain ⟨waveDescriptor, -, read⟩ := bind_eq_ok.mp read
  obtain ⟨info, -, read⟩ := bind_eq_ok.mp read
  obtain ⟨wave, waveRead, read⟩ := bind_eq_ok.mp read
  obtain ⟨labels, labelsRead, read⟩ := bind_eq_ok.mp read
  cases read
  obtain ⟨base, baseRead, waveRead⟩ := Option.bind_eq_some_iff.mp (orThrow_eq_ok.mp waveRead)
  obtain ⟨channelAssignment, -, waveRead⟩ := Option.bind_eq_some_iff.mp waveRead
  cases waveRead
  obtain ⟨editRate, duration⟩ := readMXFEssenceDescriptorBase_agrees baseRead
  refine ⟨rfl, ?_, ?_, ?_⟩
  · exact editRate.symm
  · change MXFReader.audioDuration waveDescriptor.containerDuration file.indexDuration =
      durationOf (MXFReader.storeInt base.essenceLength.toNat)
        (MXFReader.storeInt file.indexDuration.toNat) .audio
    rw [duration]
    rfl
  · exact readLabels_ne_nil (orThrow_eq_ok.mp labelsRead)

theorem IMFTrack.Agrees.returned {track : IMFTrack} {indexDuration : UInt32}
    (agrees : track.Agrees indexDuration) : MXFReader.Returned track := by
  refine ⟨indexDuration, ?_⟩
  rw [agrees.duration]
  cases track.type <;> rfl

/-- An imported track agrees with its descriptor. -/
theorem imported_agrees {track : IMFTrack} (imported : fileOf context file = .mxf (.ok track)) :
    track.Agrees file.indexDuration ∧ MXFReader.Returned track := by
  unfold fileOf at imported
  split at imported
  · obtain ⟨video, read, rfl⟩ := map_eq_ok.mp (File.mxf.inj imported)
    have agrees := readVideoTrack_agrees read
    exact ⟨agrees, agrees.returned⟩
  · obtain ⟨audio, read, rfl⟩ := map_eq_ok.mp (File.mxf.inj imported)
    have agrees := readAudioTrack_agrees read
    exact ⟨agrees, agrees.returned⟩
  · cases imported

section Sample

def readerContext : ReaderContext where
  log2 := fun level => Int32.ofNat (Nat.log2 level.toNatClampNeg)
  makeUUID := "descriptor"
  rgbaBuffer := []
  jpeg2000Buffer := []

def channelLabel (tag : String) (channel : UInt32) : MXF.AudioChannelLabelSubDescriptor where
  instanceUID := tag
  mcaLabelDictionaryID := tag
  mcaLinkID := tag
  mcaTagSymbol := tag
  mcaTagName := some tag
  mcaChannelID := some channel
  rfc5646SpokenLanguage := some "en"
  mcaTitle := none
  mcaTitleVersion := none
  mcaAudioContentKind := none
  mcaAudioElementKind := none
  soundfieldGroupLinkID := some "stereo"

def waveAudio : MXF.WaveAudioDescriptor where
  instanceUID := "wave"
  linkedTrackID := some 2
  sampleRate := ⟨48000, 1⟩
  containerDuration := some 96000
  essenceContainer := "pcm"
  audioSamplingRate := ⟨48000, 1⟩
  locked := 0
  channelCount := 2
  quantizationBits := 24
  soundEssenceCoding := ""
  blockAlign := 6
  avgBps := 288000
  channelAssignment := some "mca"

def stereoFile : MXF.TrackFile where
  initFromFile := true
  operationalPattern := .op1a
  objects := [.track, .waveAudio waveAudio, .audioChannelLabel (channelLabel "chL" 1),
    .audioChannelLabel (channelLabel "chR" 2)]
  openRead := true
  fillWriterInfo := true
  assetUUID := "sound"
  indexDuration := 96000

theorem stereo_agrees : ∃ track, fileOf readerContext stereoFile = .mxf (.ok track) ∧
    track.duration = 96000 ∧ track.Agrees 96000 := by
  obtain ⟨track, imported, duration⟩ :
      ∃ track, fileOf readerContext stereoFile = .mxf (.ok track) ∧ track.duration = 96000 :=
    ⟨_, rfl, rfl⟩
  exact ⟨track, imported, duration, (imported_agrees imported).1⟩

end Sample

end Imflib.Package

import Imflib.Package.ImportedTracks
import Imflib.Package.SaveErrors

/-! Which playlists can be saved whose tracks have been read of files. -/

namespace Imflib.Package

namespace ComponentSizing

def Readable (component : ComponentSizing) : Prop :=
  ∀ byte ∈ component.bytes, byte.toNat / 16 < 10 ∧ byte.toNat % 16 < 10

instance (component : ComponentSizing) : Decidable component.Readable :=
  List.decidableBAll (fun byte : UInt8 => byte.toNat / 16 < 10 ∧ byte.toNat % 16 < 10) component.bytes

theorem lexicalCast_succeeds (byte : UInt8) :
    (∃ value, lexicalCast (Text.hexByte byte) = .ok value) ↔
      byte.toNat / 16 < 10 ∧ byte.toNat % 16 < 10 := by
  rw [lexicalCast_hexByte]
  split
  · rename_i decimal
    exact iff_of_true ⟨_, rfl⟩ decimal
  · rename_i other
    exact iff_of_false (fun ⟨_, read⟩ => nomatch read) other

theorem sizingNode_succeeds (component : ComponentSizing) :
    (∃ node, component.sizingNode = .ok node) ↔ component.Readable := by
  have steps : (∃ node, component.sizingNode = .ok node) ↔
      (∃ value, lexicalCast (Text.hexByte component.yrSiz) = .ok value) ∧
        (∃ value, lexicalCast (Text.hexByte component.xrSiz) = .ok value) ∧
          ∃ value, lexicalCast (Text.hexByte component.ssiz) = .ok value := by
    refine succeeds_bind_iff fun yrSiz => succeeds_bind_iff fun xrSiz => ?_
    exact (succeeds_bind_iff fun ssiz => iff_of_true ⟨_, rfl⟩ trivial).trans
      (iff_of_eq (and_true _))
  rw [steps, lexicalCast_succeeds, lexicalCast_succeeds, lexicalCast_succeeds]
  constructor
  · rintro ⟨yrSiz, xrSiz, ssiz⟩
    exact List.forall_mem_cons.mpr
      ⟨ssiz, List.forall_mem_cons.mpr ⟨xrSiz, List.forall_mem_singleton.mpr yrSiz⟩⟩
  · intro readable
    obtain ⟨ssiz, readable⟩ := List.forall_mem_cons.mp readable
    obtain ⟨xrSiz, readable⟩ := List.forall_mem_cons.mp readable
    exact ⟨readable _ (List.mem_singleton_self _), xrSiz, ssiz⟩

theorem sizingsWellFormed_iff (components : List ComponentSizing) :
    sizingsWellFormed (sizingText components).toList.reverse = true ↔
      ∀ component ∈ components, component.Readable := by
  obtain ⟨header, digits, text⟩ := reverse_sizingText components
  have checked := failure_componentSizings (components.reverse.flatMap backwards ++ header)
  rw [componentSizings_eq _ digits] at checked
  have written : sizingsWellFormed (components.reverse.flatMap backwards ++ header) = true ↔
      ∃ nodes, components.reverse.mapM sizingNode = .ok nodes := by
    rw [← failure_eq_none, checked]
    cases sizingsWellFormed (components.reverse.flatMap backwards ++ header) <;> simp
  rw [text, written, succeeds_mapM]
  simp only [sizingNode_succeeds, List.mem_reverse]

end ComponentSizing

variable {context : ReaderContext} {file : MXF.TrackFile}

theorem video_subDescriptors {video : IMFVideoTrack} (read : readVideoTrack context file = .ok video) :
    video.track.type = .video ∧
      ∃ found ∈ file.getMDObjectByType MXF.InterchangeObject.asJPEG2000Picture, ∃ descriptor,
        readJPEG2000SubDescriptor context.jpeg2000Buffer found = some descriptor ∧
        video.track.essenceDescriptor.essenceDescriptor.base.subDescriptors =
          [.jpeg2000 descriptor] := by
  obtain ⟨opened, -, read⟩ := bind_eq_ok.mp read
  obtain ⟨info, -, read⟩ := bind_eq_ok.mp read
  obtain ⟨picture, -, read⟩ := bind_eq_ok.mp read
  obtain ⟨found, foundRead, read⟩ := bind_eq_ok.mp read
  obtain ⟨descriptor, descriptorRead, read⟩ := bind_eq_ok.mp read
  obtain ⟨tracks, -, read⟩ := bind_eq_ok.mp read
  cases read
  refine ⟨rfl, found, orThrow_eq_ok.mp foundRead, descriptor, orThrow_eq_ok.mp descriptorRead, ?_⟩
  simp [videoTrackOf]

theorem wellFormed_of_readLabels {labels : List SubDescriptor} (read : readLabels file = some labels) :
    ∀ label ∈ labels, label.wellFormed = true := by
  obtain ⟨channels, channelsRead, read⟩ := Option.bind_eq_some_iff.mp read
  obtain ⟨groups, groupsRead, read⟩ := Option.bind_eq_some_iff.mp read
  split at read
  · cases read
  cases read
  intro label member
  rcases List.mem_append.mp member with channel | group
  · obtain ⟨source, -, labelRead⟩ := exists_of_mem_mapM channelsRead channel
    obtain ⟨base, -, labelRead⟩ := Option.bind_eq_some_iff.mp labelRead
    obtain ⟨channelID, -, labelRead⟩ := Option.bind_eq_some_iff.mp labelRead
    obtain ⟨linkID, -, labelRead⟩ := Option.bind_eq_some_iff.mp labelRead
    cases labelRead
    rfl
  · obtain ⟨source, -, labelRead⟩ := exists_of_mem_mapM groupsRead group
    obtain ⟨base, -, rfl⟩ := Option.map_eq_some_iff.mp labelRead
    rfl

theorem audio_subDescriptors {audio : IMFAudioTrack} (read : readAudioTrack context file = .ok audio) :
    audio.track.type = .audio ∧
      ∀ label ∈ audio.track.essenceDescriptor.essenceDescriptor.base.subDescriptors,
        label.wellFormed = true := by
  obtain ⟨opened, -, read⟩ := bind_eq_ok.mp read
  obtain ⟨waveDescriptor, -, read⟩ := bind_eq_ok.mp read
  obtain ⟨info, -, read⟩ := bind_eq_ok.mp read
  obtain ⟨wave, -, read⟩ := bind_eq_ok.mp read
  obtain ⟨labels, labelsRead, read⟩ := bind_eq_ok.mp read
  cases read
  exact ⟨rfl, wellFormed_of_readLabels (orThrow_eq_ok.mp labelsRead)⟩

/-- The sizing of a file, if it has one, is an array of the components given. -/
structure Sized (file : MXF.TrackFile) (components : List ComponentSizing) : Prop where
  short : components.length ≤ 18
  stored : ∀ descriptor ∈ file.getMDObjectByType MXF.InterchangeObject.asJPEG2000Picture,
    descriptor.pictureComponentSizing =
      some (ComponentSizing.arrayHeader components.length 3 ++ components.flatMap ComponentSizing.bytes)

theorem length_flatMap_bytes (components : List ComponentSizing) :
    (components.flatMap ComponentSizing.bytes).length = 3 * components.length := by
  induction components with
  | nil => rfl
  | cons component rest ih =>
      rw [List.flatMap_cons, List.length_append, ih, List.length_cons]
      have bytes : component.bytes.length = 3 := rfl
      omega

theorem Sized.text {components : List ComponentSizing} (sized : Sized file components)
    {found : MXF.JPEG2000PictureSubDescriptor}
    (member : found ∈ file.getMDObjectByType MXF.InterchangeObject.asJPEG2000Picture)
    {buffer : List Char} {descriptor : JPEG2000SubDescriptor}
    (read : readJPEG2000SubDescriptor buffer found = some descriptor) :
    descriptor.pictureComponentSizing = ComponentSizing.sizingText components := by
  obtain ⟨sizing, sizingFound, read⟩ := Option.bind_eq_some_iff.mp read
  obtain ⟨coding, -, read⟩ := Option.bind_eq_some_iff.mp read
  obtain ⟨quantization, -, read⟩ := Option.bind_eq_some_iff.mp read
  obtain ⟨layout, -, read⟩ := Option.bind_eq_some_iff.mp read
  cases read
  cases (sized.stored found member).symm.trans sizingFound
  apply MXF.bufferText_encodeRaw
  have short := sized.short
  have header : (ComponentSizing.arrayHeader components.length 3).length = 8 := rfl
  rw [List.length_append, length_flatMap_bytes, header]
  omega

theorem descriptorCheck_imported {resource : CPLResource} {components : List ComponentSizing}
    (imported : fileOf context file = .mxf (.ok resource.track)) (sized : Sized file components) :
    descriptorCheck resource = none ↔
      (resource.track.type = .video → ∀ component ∈ components, component.Readable) := by
  have checked : descriptorCheck resource = none ↔
      ∀ label ∈ resource.track.essenceDescriptor.essenceDescriptor.base.subDescriptors,
        label.wellFormed = true := by
    rw [descriptorCheck, ← List.all_eq_true]
    split <;> simp [*]
  rw [checked]
  unfold fileOf at imported
  split at imported
  · obtain ⟨video, read, same⟩ := map_eq_ok.mp (File.mxf.inj imported)
    obtain ⟨type, found, member, descriptor, descriptorRead, only⟩ := video_subDescriptors read
    rw [← same, type, only, List.forall_mem_singleton, SubDescriptor.wellFormed,
      sized.text member descriptorRead, ComponentSizing.sizingsWellFormed_iff]
    simp
  · obtain ⟨audio, read, same⟩ := map_eq_ok.mp (File.mxf.inj imported)
    obtain ⟨type, wellFormed⟩ := audio_subDescriptors read
    rw [← same, type]
    exact iff_of_true wellFormed nofun
  · cases imported

/-- A playlist of imported tracks can be saved if none of its sequences is mixed, and the sizings
of its videos can be read as decimal numbers. -/
theorem imported_savable_iff (playlist : IMFCompositionPlaylist) (file : CPLResource → MXF.TrackFile)
    (context : CPLResource → ReaderContext) (sizings : CPLResource → List ComponentSizing)
    (imported : ∀ resource ∈ playlist.resources,
      fileOf (context resource) (file resource) = .mxf (.ok resource.track))
    (sized : ∀ resource ∈ playlist.resources, Sized (file resource) (sizings resource)) :
    (∃ tree, playlist.write = .ok tree) ↔
      (∀ address ∈ playlist.sequences, (playlist.sequence address).Homogeneous) ∧
      ∀ resource ∈ playlist.resources, resource.track.type = .video →
        ∀ component ∈ sizings resource, component.Readable := by
  have sequence (address : Nat) : sequenceCheck (playlist.sequence address) = none ↔
      (playlist.sequence address).Homogeneous := by
    rw [CPLSequence.homogeneous_iff, sequenceCheck]
    split <;> simp [*]
  have tree := failure_writePlaylist playlist
  rw [← failure_eq_none, tree, firstFailure_eq_none, List.forall_mem_append, List.forall_mem_map,
    List.forall_mem_map, and_comm]
  apply and_congr
  · exact forall₂_congr fun address _ => sequence address
  · exact forall₂_congr fun resource member =>
      descriptorCheck_imported (imported resource member) (sized resource member)

section Sample

theorem length_zeros : (List.replicate 16 (0 : UInt8)).length = 16 := List.length_replicate

def noComponents : RGBALayout := ⟨List.replicate 16 0, length_zeros⟩

def pictureDescriptor : MXF.RGBAEssenceDescriptor where
  instanceUID := "picture"
  linkedTrackID := some 2
  sampleRate := ⟨25, 1⟩
  containerDuration := some 50
  essenceContainer := "jpeg2000"
  storedWidth := 1920
  storedHeight := 1080
  aspectRatio := ⟨16, 9⟩
  pictureEssenceCoding := ""
  transferCharacteristic := some ""
  codingEquations := some ""
  colorPrimaries := some ""
  componentMaxRef := some 940
  componentMinRef := some 64
  pixelLayout := noComponents

def tenBits : List ComponentSizing := [⟨9, 1, 1⟩, ⟨9, 1, 1⟩, ⟨9, 1, 1⟩]

def codeStreamDescriptor : MXF.JPEG2000PictureSubDescriptor where
  instanceUID := "codestream"
  rsize := 0
  xsize := 1920
  ysize := 1080
  xOsize := 0
  yOsize := 0
  xTsize := 1920
  yTsize := 1080
  xTOsize := 0
  yTOsize := 0
  csize := 3
  pictureComponentSizing :=
    some (ComponentSizing.arrayHeader 3 3 ++ tenBits.flatMap ComponentSizing.bytes)
  codingStyleDefault := some [1, 4, 0, 1]
  quantizationDefault := some [0x22]
  j2cLayout := some noComponents

def pictureFile : MXF.TrackFile where
  initFromFile := true
  operationalPattern := .op1a
  objects := [.track, .rgba pictureDescriptor, .jpeg2000Picture codeStreamDescriptor]
  openRead := true
  fillWriterInfo := true
  assetUUID := "pictures"
  indexDuration := 50

def reel (video audio : IMFTrack) : IMFCompositionPlaylist :=
  .build "/cpl.xml"
    { uuid := "cpl"
      header := .standard
      editRate := ⟨25, 1⟩
      segments := [⟨"reel", [
        ⟨"image", "v1", [standardResource "picture" video ⟨25, 1⟩]⟩,
        ⟨"sound", "a1", [standardResource "sound" audio ⟨25, 1⟩]⟩]⟩] }

theorem reel_savable : ∃ video audio, fileOf readerContext pictureFile = .mxf (.ok video) ∧
    fileOf readerContext stereoFile = .mxf (.ok audio) ∧
    ∃ tree, (reel video audio).write = .ok tree := by
  obtain ⟨video, videoRead, videoType⟩ : ∃ video,
      fileOf readerContext pictureFile = .mxf (.ok video) ∧ video.type = .video := ⟨_, rfl, rfl⟩
  obtain ⟨audio, audioRead, audioType⟩ : ∃ audio,
      fileOf readerContext stereoFile = .mxf (.ok audio) ∧ audio.type = .audio := ⟨_, rfl, rfl⟩
  have either (resource : CPLResource) (member : resource ∈ (reel video audio).resources) :
      resource = standardResource "picture" video ⟨25, 1⟩ ∨
        resource = standardResource "sound" audio ⟨25, 1⟩ := by
    have listed : resource ∈ [standardResource "picture" video ⟨25, 1⟩,
      standardResource "sound" audio ⟨25, 1⟩] := member
    simpa using listed
  refine ⟨video, audio, videoRead, audioRead, ?_⟩
  apply (imported_savable_iff (reel video audio)
    (fun resource => if resource.track.type = .video then pictureFile else stereoFile)
    (fun _ => readerContext) (fun _ => tenBits) ?_ ?_).mpr
  · refine ⟨?_, fun _ _ _ => by decide +kernel⟩
    intro address member
    have listed : address ∈ [0, 1] := member
    rcases List.mem_cons.mp listed with rfl | last
    · exact ⟨.video, fun resource inside => by rw [List.mem_singleton.mp inside]; exact videoType⟩
    · cases List.mem_singleton.mp last
      exact ⟨.audio, fun resource inside => by rw [List.mem_singleton.mp inside]; exact audioType⟩
  · intro resource member
    rcases either resource member with rfl | rfl
    · simpa [standardResource, videoType] using videoRead
    · simpa [standardResource, audioType] using audioRead
  · intro resource member
    refine ⟨by decide, ?_⟩
    intro descriptor found
    split at found
    · cases Option.mem_some.mp found
      rfl
    · cases found

end Sample

end Imflib.Package

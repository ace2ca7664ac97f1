import Imflib.Encoder.SamplePlacement
import Imflib.Mxf.Import
import Imflib.Package.ImportedPlaylists

/-! What becomes of the videos of `imfenc` when a playlist with them is saved. -/

namespace Imflib.MXF

open Package (SubDescriptor)
open Package.ComponentSizing (sizingText)

section Sizing

theorem componentParameter_eq {encoder : Encoder.J2KEncoder}
    {parameters : Fin 3 → Encoder.ComponentParameter}
    (accepted : encoder.initEncoder = .ok parameters) (i : Fin 3) :
    (parameters i).prec = encoder.targetBitDepth.bits ∧ (parameters i).sgnd = 0 ∧
      (parameters i).dx = (if i = 0 then 1 else if encoder.subsampledChroma then 2 else 1) ∧
      (parameters i).dy = 1 := by
  simp only [Encoder.J2KEncoder.initEncoder] at accepted
  split at accepted
  · contradiction
  split at accepted
  · contradiction
  cases profile : encoder.setBroadcastProfile with
  | error => simp [profile, bind, Except.bind] at accepted
  | ok subsampling =>
      have sampling := Encoder.setBroadcastProfile_ok profile
      simp only [profile, bind, Except.bind] at accepted
      split at accepted
      · contradiction
      · have value := congrFun (Except.ok.inj accepted) i
        rw [← value, sampling]
        cases encoder.subsampledChroma <;> simp

end Sizing

namespace EncodedVideo

variable {encoded : EncodedVideo} {context : Package.ReaderContext} {track : Package.IMFTrack}
  {descriptor : Package.JPEG2000SubDescriptor}

theorem subDescriptors_imported (imported : Package.fileOf context encoded.file = .mxf (.ok track)) :
    track.type = .video ∧ ∃ descriptor,
      Package.readJPEG2000SubDescriptor context.jpeg2000Buffer encoded.subDescriptor =
        some descriptor ∧
      track.essenceDescriptor.essenceDescriptor.base.subDescriptors = [.jpeg2000 descriptor] := by
  rw [Package.fileOf, getEssenceType_file] at imported
  obtain ⟨video, read, rfl⟩ := map_eq_ok.mp (Package.File.mxf.inj imported)
  obtain ⟨type, found, member, descriptor, descriptorRead, only⟩ := Package.video_subDescriptors read
  cases jpeg2000_found.symm.trans member
  exact ⟨type, descriptor, descriptorRead, only⟩

section Sizing

def sizing (encoded : EncodedVideo) (xrSiz : UInt8) : Package.ComponentSizing :=
  ⟨UInt8.ofNat (encoded.options.bitsPerComponent.bits - 1), xrSiz, 1⟩

def chromaDistance (encoded : EncodedVideo) : UInt8 :=
  if encoded.options.colorFormat = .yuv422 then 2 else 1

theorem imageComponents_eq (encoded : EncodedVideo) (i : Fin 3) : encoded.parsed.imageComponents i =
    encoded.sizing (if i = 0 then 1 else encoded.chromaDistance) := by
  obtain ⟨prec, sgnd, dx, dy⟩ := componentParameter_eq encoded.initialized i
  rw [encoded.sized, Encoder.ComponentParameter.siz, prec, sgnd, dx, dy, chromaDistance]
  by_cases first : i = 0
  · rw [if_pos first, if_pos first]
    rfl
  · rw [if_neg first, if_neg first]
    cases format : encoded.options.colorFormat <;>
      simp [Encoder.EncoderOptions.j2kEncoder, format, sizing]

theorem components_eq (encoded : EncodedVideo) : encoded.parsed.components =
    [encoded.sizing 1, encoded.sizing encoded.chromaDistance,
      encoded.sizing encoded.chromaDistance] := by
  simp [Encoder.PictureDescriptor.components, imageComponents_eq]

theorem small_sizing (other : encoded.options.bitsPerComponent ≠ .br12bit) :
    ∀ component ∈ encoded.parsed.components, component.Small := by
  have size : UInt8.ofNat (encoded.options.bitsPerComponent.bits - 1) < 10 := by
    cases depth : encoded.options.bitsPerComponent with
    | br8bit => decide
    | br10bit => decide
    | br12bit => exact absurd depth other
  have distance : encoded.chromaDistance < 10 := by
    unfold chromaDistance
    split <;> decide
  have one : (1 : UInt8) < 10 := by decide
  simp only [components_eq, List.forall_mem_cons]
  exact ⟨⟨size, one, one⟩, ⟨size, distance, one⟩, ⟨size, distance, one⟩, nofun⟩

theorem readable_iff : (∀ component ∈ encoded.parsed.components, component.Readable) ↔
    encoded.options.bitsPerComponent ≠ .br12bit := by
  rw [components_eq]
  unfold chromaDistance sizing
  cases encoded.options.bitsPerComponent <;> cases encoded.options.colorFormat <;> decide +kernel

/-- The header has eight bytes, and each of the three components three. -/
def sizingBytes (encoded : EncodedVideo) : List UInt8 :=
  Package.ComponentSizing.arrayHeader 3 3 ++
    encoded.parsed.components.flatMap Package.ComponentSizing.bytes

theorem length_sizingBytes (encoded : EncodedVideo) : encoded.sizingBytes.length = 17 := rfl

theorem sized_file (encoded : EncodedVideo) : Package.Sized encoded.file encoded.parsed.components where
  short := show 3 ≤ 18 by decide
  stored := by
    intro found member
    cases jpeg2000_found.symm.trans member
    rfl

theorem pictureComponentSizing_read {buffer : List Char}
    (read : Package.readJPEG2000SubDescriptor buffer encoded.subDescriptor = some descriptor) :
    descriptor.pictureComponentSizing = sizingText encoded.parsed.components :=
  (sized_file encoded).text jpeg2000_found read

theorem descriptorCheck_encoded {resource : Package.CPLResource}
    (imported : Package.fileOf context encoded.file = .mxf (.ok resource.track)) :
    Package.descriptorCheck resource =
      if encoded.options.bitsPerComponent = .br12bit then some .escaping else none := by
  have passed := Package.descriptorCheck_imported imported (sized_file encoded)
  rw [readable_iff] at passed
  have video := (subDescriptors_imported imported).1
  by_cases twelve : encoded.options.bitsPerComponent = .br12bit
  · have failed : Package.descriptorCheck resource ≠ none := fun fine => passed.mp fine video twelve
    rw [if_pos twelve]
    unfold Package.descriptorCheck at failed ⊢
    split
    · rename_i fine
      exact absurd (if_pos fine) failed
    · rfl
  · rw [if_neg twelve]
    exact passed.mpr fun _ => twelve

/-- Videos of twelve bits keep a playlist from being written, with an exception that nobody handles.
All others can be written. -/
theorem videos_savable (playlist : Package.IMFCompositionPlaylist)
    (source : Package.CPLResource → EncodedVideo)
    (context : Package.CPLResource → Package.ReaderContext)
    (imported : ∀ resource ∈ playlist.resources,
      Package.fileOf (context resource) (source resource).file = .mxf (.ok resource.track)) :
    failure Package.Exn.savingDefect playlist.write =
      if ∃ resource ∈ playlist.resources, (source resource).options.bitsPerComponent = .br12bit then
        some .escaping
      else none := by
  have sequences : ∀ check ∈ playlist.sequences.map fun address =>
      Package.sequenceCheck (playlist.sequence address), check = none := by
    intro check member
    obtain ⟨address, listed, rfl⟩ := List.mem_map.mp member
    have allVideo : (playlist.sequence address).allVideo = true := by
      apply List.all_eq_true.mpr
      intro resource inside
      have type := (subDescriptors_imported (imported resource
        (List.mem_flatMap.mpr ⟨address, listed, inside⟩))).1
      rw [type]
      rfl
    rw [Package.sequenceCheck, if_neg fun mixed => by rw [allVideo] at mixed; cases mixed.2]
  rw [Package.failure_writePlaylist, firstFailure_append, firstFailure_eq_none.mpr sequences,
    Option.or_none, List.map_congr_left fun resource member =>
      descriptorCheck_encoded (imported resource member)]
  induction playlist.resources with
  | nil => simp
  | cons resource rest ih =>
      rw [List.map_cons, firstFailure_cons, ih]
      by_cases twelve : (source resource).options.bitsPerComponent = .br12bit
      · simp [twelve]
      · simp [twelve]

def filmPlaylist (track : Package.IMFTrack) : Package.IMFCompositionPlaylist :=
  .build "/cpl.xml"
    { uuid := "cpl"
      header := .standard
      editRate := ⟨25, 1⟩
      segments := [⟨"reel", [⟨"image", "v1", [Package.standardResource "take" track ⟨25, 1⟩]⟩]⟩] }

theorem film_savable : ∃ track,
    Package.fileOf Package.readerContext film.file = .mxf (.ok track) ∧
      failure Package.Exn.savingDefect (filmPlaylist track).write = none := by
  obtain ⟨track, imported⟩ :
      ∃ track, Package.fileOf Package.readerContext film.file = .mxf (.ok track) := ⟨_, rfl⟩
  have saved := videos_savable (filmPlaylist track) (fun _ => film) (fun _ => Package.readerContext)
    fun resource member => by
      rw [List.mem_singleton.mp (show resource ∈ [Package.standardResource "take" track ⟨25, 1⟩]
        from member)]
      exact imported
  refine ⟨track, imported, saved.trans (if_neg ?_)⟩
  rintro ⟨resource, -, twelve⟩
  exact absurd twelve (by decide)

/-- Two sizings that differ are not the same in reverse. -/
theorem palindrome_iff : encoded.parsed.components.reverse = encoded.parsed.components ↔
    encoded.options.colorFormat ≠ .yuv422 := by
  rw [components_eq, chromaDistance]
  by_cases format : encoded.options.colorFormat = .yuv422
  · simp [format, sizing]
  · simp [format]

end Sizing

section Layout

open Package (LayoutCode LayoutEntry LayoutWritten)

def pictureEntry (depth : Encoder.BitRate) (code : LayoutCode) : LayoutEntry where
  code := code
  depth := UInt8.ofNat depth.bits
  least := by cases depth <;> decide
  most := by cases depth <;> decide

def codes (encoded : EncodedVideo) : Fin 3 → LayoutCode :=
  if encoded.muxOptions.yuvEssence then ![.luma, .colorDifferenceU, .colorDifferenceV]
  else ![.red, .green, .blue]

def entry (encoded : EncodedVideo) (i : Fin 3) : LayoutEntry :=
  pictureEntry encoded.options.bitsPerComponent (encoded.codes i)

def writtenEntry (encoded : EncodedVideo) (i : Fin 3) : LayoutEntry :=
  Encoder.layoutEntry (encoded.codes i) encoded.muxOptions.bits

theorem encodeString_j2cLayout (encoded : EncodedVideo) :
    (Encoder.j2cLayout encoded.muxOptions).encodeString =
      (encoded.writtenEntry 0).text ++ ' ' ::
        ((encoded.writtenEntry 1).text ++ ' ' :: (encoded.writtenEntry 2).text) := by
  unfold Encoder.j2cLayout writtenEntry codes
  split <;> exact Package.encodeString_three _ _ _ _

theorem nul_not_mem_text (entry : LayoutEntry) : nul ∉ entry.text := by
  have symbol (code : LayoutCode) : nul ≠ Package.getCharForCode code.byte := by
    cases code <;> decide
  intro member
  rcases List.mem_cons.mp member with same | member
  · exact symbol entry.code same
  rcases List.mem_cons.mp member with same | member
  · exact absurd same (by decide)
  rcases List.mem_append.mp member with digit | last
  · exact absurd (Text.isDigit_of_mem_digits digit) (by decide)
  · exact absurd (List.mem_singleton.mp last) (by decide)

theorem nul_not_mem_j2cLayout (encoded : EncodedVideo) :
    nul ∉ (Encoder.j2cLayout encoded.muxOptions).encodeString := by
  have blank : nul ≠ ' ' := by decide
  rw [encodeString_j2cLayout]
  simp only [List.mem_append, List.mem_cons, nul_not_mem_text, blank, or_self, not_false_eq_true]

theorem depth_writtenEntry (encoded : EncodedVideo) (i : Fin 3) :
    (encoded.writtenEntry i).depth = Encoder.layoutDepth encoded.options.bitsPerComponent.bits := rfl

theorem large_writtenEntry (wide : encoded.options.bitsPerComponent ≠ .br8bit) (i : Fin 3) :
    ¬ (encoded.writtenEntry i).depth < 10 := by
  rw [depth_writtenEntry]
  cases depth : encoded.options.bitsPerComponent with
  | br8bit => exact absurd depth wide
  | br10bit => decide
  | br12bit => decide

theorem length_writtenEntry (wide : encoded.options.bitsPerComponent ≠ .br8bit) (i : Fin 3) :
    (encoded.writtenEntry i).text.length = 5 := by
  rw [LayoutEntry.length_text, if_neg (large_writtenEntry wide i)]

theorem texts_writtenEntry_iff (wide : encoded.options.bitsPerComponent ≠ .br8bit) (i : Fin 3) :
    (encoded.writtenEntry i).texts = (encoded.entry i).texts ↔
      encoded.options.bitsPerComponent = .br10bit := by
  have depths : (encoded.writtenEntry i).texts = (encoded.entry i).texts ↔
      (Encoder.layoutDepth encoded.options.bitsPerComponent.bits).toNat =
        (UInt8.ofNat encoded.options.bitsPerComponent.bits).toNat := by
    constructor
    · intro same
      exact Package.ComponentSizing.numberText_injective
        (Option.some.inj (congrArg (fun texts => texts.2.2) same))
    · intro same
      exact congrArg (fun depth => ("r2:RGBAComponent", some (encoded.codes i).name,
        some (Package.ComponentSizing.numberText depth))) same
  rw [depths]
  cases depth : encoded.options.bitsPerComponent with
  | br8bit => exact absurd depth wide
  | br10bit => decide
  | br12bit => decide

def quantizationBuf (encoded : EncodedVideo) (buffer : List Char) : List Char :=
  encodeRaw (encoded.parsed.sqcd :: encoded.parsed.spqcd)
    (encodeRaw (encoded.parsed.codingStyle ++ encoded.parsed.precinctSize.takeWhile (· ≠ 0))
      (encodeRaw encoded.sizingBytes (nul :: buffer)))

/-- Behind the layout stands what is left of the texts before it. -/
theorem j2cLayout_read {buffer : List Char}
    (read : Package.readJPEG2000SubDescriptor buffer encoded.subDescriptor = some descriptor) :
    descriptor.j2cLayout.toList = (Encoder.j2cLayout encoded.muxOptions).encodeString ++
      terminated nul ((encoded.quantizationBuf buffer).drop
        (Encoder.j2cLayout encoded.muxOptions).encodeString.length) := by
  cases read
  exact String.toList_ofList.trans (terminated_overwrite (nul_not_mem_j2cLayout encoded))

/-- A layout of seventeen characters always leaves something, since the terminators of the other
texts are at even positions, and the first of them is longer. -/
theorem leftover_ne_nil (wide : encoded.options.bitsPerComponent ≠ .br8bit) (buffer : List Char) :
    terminated nul ((encoded.quantizationBuf buffer).drop
      (Encoder.j2cLayout encoded.muxOptions).encodeString.length) ≠ [] := by
  have length : (Encoder.j2cLayout encoded.muxOptions).encodeString.length = 17 := by
    rw [encodeString_j2cLayout]
    simp [length_writtenEntry wide]
  have fits : encoded.sizingBytes.length ≤ 63 ∧ 17 < encoded.sizingBytes.length * 2 := by
    rw [length_sizingBytes]
    decide
  rw [length]
  apply terminated_drop_ne_nil
  have sizing := holds_of_encodeRaw fits.1 fits.2 (nul :: buffer)
  exact holds_encodeRaw rfl (holds_encodeRaw rfl sizing _) _

theorem layoutWritten_picture_iff {buffer : List Char}
    (read : Package.readJPEG2000SubDescriptor buffer encoded.subDescriptor = some descriptor)
    (pt : PTree) :
    LayoutWritten [encoded.entry 0, encoded.entry 1, encoded.entry 2] descriptor.j2cLayout.toList pt ↔
      encoded.options.bitsPerComponent = .br10bit := by
  obtain ⟨leftover, text, remains⟩ : ∃ leftover,
      descriptor.j2cLayout.toList = (encoded.writtenEntry 0).text ++ ' ' ::
        ((encoded.writtenEntry 1).text ++ ' ' :: ((encoded.writtenEntry 2).text ++ leftover)) ∧
      (encoded.options.bitsPerComponent ≠ .br8bit → leftover ≠ []) := by
    refine ⟨terminated nul ((encoded.quantizationBuf buffer).drop
      (Encoder.j2cLayout encoded.muxOptions).encodeString.length), ?_,
      fun wide => leftover_ne_nil wide buffer⟩
    rw [j2cLayout_read read]
    simp only [encodeString_j2cLayout, List.append_assoc, List.cons_append]
  rw [Package.layoutWritten_iff, text]
  by_cases narrow : encoded.options.bitsPerComponent = .br8bit
  · have small : (encoded.writtenEntry 0).depth < 10 := by
      rw [depth_writtenEntry, narrow]
      decide
    obtain ⟨behind, late⟩ := LayoutEntry.drop_of_small small (encoded.writtenEntry 1)
      (' ' :: ((encoded.writtenEntry 2).text ++ leftover))
    apply iff_of_false
    · intro written
      exact (encoded.entry 1).not_shown late written.2.2.1
    · rw [narrow]
      decide
  · have large := large_writtenEntry narrow
    have texts := texts_writtenEntry_iff narrow
    rw [LayoutEntry.drop_twelve (large 0), LayoutEntry.drop_of_large (large 0),
      LayoutEntry.drop_of_large (large 1), LayoutEntry.shown_take, LayoutEntry.shown_take,
      LayoutEntry.shown_take, texts, texts, texts]
    have more := List.length_pos_iff.mpr (remains narrow)
    have long : 18 ≤ ((encoded.writtenEntry 0).text ++ ' ' :: ((encoded.writtenEntry 1).text ++
        ' ' :: ((encoded.writtenEntry 2).text ++ leftover))).length := by
      simp only [List.length_append, List.length_cons, length_writtenEntry narrow]
      omega
    tauto

structure KeptIn (encoded : EncodedVideo) (descriptor : Package.JPEG2000SubDescriptor) (pt : PTree) :
    Prop where
  stored : descriptor.pictureComponentSizing = sizingText encoded.parsed.components
  sizing : Package.ComponentSizing.SizingWritten encoded.parsed.components pt
  layout : LayoutWritten [encoded.entry 0, encoded.entry 1, encoded.entry 2]
    descriptor.j2cLayout.toList pt

/-- Of all videos those are saved as they are that have ten bits and are not subsampled. -/
theorem components_kept_iff (encoded : EncodedVideo) (context : Package.ReaderContext)
    (track : Package.IMFTrack) (descriptor : Package.JPEG2000SubDescriptor) (pt : PTree)
    (imported : Package.fileOf context encoded.file = .mxf (.ok track))
    (held : SubDescriptor.jpeg2000 descriptor ∈
      track.essenceDescriptor.essenceDescriptor.base.subDescriptors) :
    encoded.KeptIn descriptor pt ↔
      encoded.options.bitsPerComponent = .br10bit ∧ encoded.options.colorFormat ≠ .yuv422 := by
  obtain ⟨-, only, read, subDescriptors⟩ := subDescriptors_imported imported
  rw [subDescriptors] at held
  cases List.mem_singleton.mp held
  rw [← layoutWritten_picture_iff read pt, ← palindrome_iff]
  constructor
  · intro kept
    exact ⟨kept.layout, kept.sizing.reverse_eq⟩
  · rintro ⟨layout, palindrome⟩
    have ten := (layoutWritten_picture_iff read pt).mp layout
    have other : encoded.options.bitsPerComponent ≠ .br12bit := by
      rw [ten]
      decide
    exact ⟨pictureComponentSizing_read read,
      Package.ComponentSizing.sizingWritten_of_palindrome palindrome (small_sizing other) pt, layout⟩

/-- The chroma of the film is subsampled. -/
theorem film_not_kept : ∃ track descriptor,
    Package.fileOf Package.readerContext film.file = .mxf (.ok track) ∧
      SubDescriptor.jpeg2000 descriptor ∈
        track.essenceDescriptor.essenceDescriptor.base.subDescriptors ∧
      ¬ film.KeptIn descriptor .empty := by
  obtain ⟨track, imported⟩ :
      ∃ track, Package.fileOf Package.readerContext film.file = .mxf (.ok track) := ⟨_, rfl⟩
  obtain ⟨-, descriptor, -, subDescriptors⟩ := subDescriptors_imported imported
  have held : SubDescriptor.jpeg2000 descriptor ∈
      track.essenceDescriptor.essenceDescriptor.base.subDescriptors := by
    rw [subDescriptors]
    exact List.mem_singleton_self _
  refine ⟨track, descriptor, imported, held, fun kept => ?_⟩
  exact ((components_kept_iff film Package.readerContext track descriptor .empty imported held).mp
    kept).2 rfl

end Layout

end EncodedVideo

end Imflib.MXF

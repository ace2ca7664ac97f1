import Imflib.Package.PlaylistSchema
import Imflib.View.EditRuns

/-! Which runs of the user's actions end in a playlist that is written as a valid document. -/

namespace Imflib.View

open Imflib.Package

namespace MXFReader

open Imflib.Package.MXFReader

end MXFReader

namespace CPLSequenceView

variable {view : CPLSequenceView}

def KnownDuration (_ : CPLSequenceView) (action : Action) : Prop :=
  ∀ drop ∈ action.dropped, 0 ≤ drop.1.duration

theorem standardResource_inRange {madeUUID : String} {track : IMFTrack} {editRate : RationalNumber}
    (known : 0 ≤ track.duration) : (standardResource madeUUID track editRate).InRange :=
  { duration := known
    entryPoint := (by decide : (0 : Int32) ≤ 0)
    sourceDuration := known
    repeatCount := (by decide : (0 : Int32) < 1) }

/-- From a playlist with numbers in range, as long as the durations of the dropped tracks are
known, every playlist is written as a valid document. -/
theorem written_valid {playlist : IMFCompositionPlaylist} (opened : Opened playlist)
    (range : ∀ resource ∈ playlist.resources, resource.InRange) {before : CPLSequenceView}
    {trace : List (CPLSequenceView × Action)}
    (run : Transition.Run Performs (before.compositionPlaylistChanged playlist) trace view)
    (known : Transition.Guarded KnownDuration trace)
    (nonempty : view.compositionPlaylist.segments ≠ []) {tree : PTree}
    (written : view.compositionPlaylist.write = .ok tree) : PlaylistSchema.ValidPlaylist tree := by
  have all := all_held (fun _ resource => resource.InRange) opened range run
    fun visited member drop dropped => standardResource_inRange (known visited member drop dropped)
  apply (IMFCompositionPlaylist.validPlaylist_iff written).mpr
  exact ⟨nonempty, fun resource member => all.2 resource (.of_mem_resources member)⟩

section Sample

def unknownAudio : IMFTrack :=
  { Sample.audio with
    duration := -1
    essenceDescriptor :=
      { uuid := "audio-descriptor"
        essenceDescriptor := .wave ⟨{ Sample.descriptorBase with essenceLength := 0 }, 1, "",
          ⟨48000, 1⟩, 2, 24, 6, 288000, ""⟩ } }

theorem unknownAudio_returned : Imflib.Package.MXFReader.Returned unknownAudio := ⟨0, by decide⟩

def emptyPlaylist : IMFCompositionPlaylist :=
  { IMFCompositionPlaylist.new "cpl" "cpl.xml" with editRate := ⟨25, 1⟩, header := .standard }

def emptyView : CPLSequenceView :=
  (CPLSequenceView.mk (.new "" "") (fun _ => 0) []).compositionPlaylistChanged emptyPlaylist

def droppedView (track : IMFTrack) : CPLSequenceView :=
  emptyView.compositionPlaylistChanged
    (createFirstSegmentAction emptyPlaylist track ⟨"s1", "q1", "t1", "r1"⟩)

theorem run_droppedView (track : IMFTrack) : Transition.Run Performs emptyView
    [(emptyView, .createFirstSegment track ⟨"s1", "q1", "t1", "r1"⟩)] (droppedView track) :=
  Transition.Run.start.step rfl

theorem written_valid_sample : ∃ tree,
    (droppedView Sample.video).compositionPlaylist.write = .ok tree ∧
      PlaylistSchema.ValidPlaylist tree := by
  have written : ∃ tree, (droppedView Sample.video).compositionPlaylist.write = .ok tree :=
    ⟨_, rfl⟩
  obtain ⟨tree, written⟩ := written
  refine ⟨tree, written, written_valid (.new "cpl" "cpl.xml" ⟨25, 1⟩ .standard) nofun
    (run_droppedView Sample.video) ?_ (List.cons_ne_nil _ _) written⟩
  intro visited member drop dropped
  cases List.mem_singleton.mp member
  cases Option.some.inj dropped
  decide

/-- A sound file of unknown length is written with negative durations. -/
theorem unknown_duration_written : Imflib.Package.MXFReader.Returned unknownAudio ∧
    Opened emptyPlaylist ∧
    Transition.Run Performs emptyView
      [(emptyView, .createFirstSegment unknownAudio ⟨"s1", "q1", "t1", "r1"⟩)]
      (droppedView unknownAudio) ∧
    (droppedView unknownAudio).compositionPlaylist.segments ≠ [] ∧
    ∃ tree, (droppedView unknownAudio).compositionPlaylist.write = .ok tree ∧
      ¬PlaylistSchema.ValidPlaylist tree := by
  have written : ∃ tree, (droppedView unknownAudio).compositionPlaylist.write = .ok tree :=
    ⟨_, rfl⟩
  obtain ⟨tree, written⟩ := written
  refine ⟨unknownAudio_returned, .new "cpl" "cpl.xml" ⟨25, 1⟩ .standard,
    run_droppedView unknownAudio, List.cons_ne_nil _ _, tree, written, fun valid => ?_⟩
  have range := ((IMFCompositionPlaylist.validPlaylist_iff written).mp valid).2
    (standardResource "r1" unknownAudio ⟨25, 1⟩) (by decide)
  exact absurd range.duration (by decide)

end Sample

end CPLSequenceView

end Imflib.View

import Imflib.Package.PlaylistOrder
import Imflib.View.TrackTypes

/-! Which runs of the view's actions keep the virtual tracks in an order that survives saving
and loading. -/

namespace Imflib.View

open Imflib.Package IMFCompositionPlaylist

variable {playlist : IMFCompositionPlaylist}

def laterSequences (playlist : IMFCompositionPlaylist) (place : Nat) : List Nat :=
  (playlist.segments.drop place).flatMap fun address => (playlist.segment address).items

/-- A new sequence of the virtual track at a height comes behind all those that it has to, if it
is played before the segments from a place on. -/
def FitsBefore (playlist : IMFCompositionPlaylist) (y : Int) (place : Nat) : Prop :=
  ∀ other ∈ playlist.predecessors (getVirtualTrackFromY playlist y),
    other ∉ laterSequences playlist place

def insertPlace (append : Bool) (position : Nat) : Nat :=
  if append then position + 1 else position

namespace CPLSequenceView

/-- An action that leaves the virtual tracks in order. A new sequence comes behind those of its
virtual track. A new virtual track begins behind all others. If the first sequence of a virtual
track is deleted, the next one still comes before the virtual tracks behind. -/
def KeepsOrder (view : CPLSequenceView) : Action → Prop
  | .createFirstSegment _ _ => True
  | .insertSegment position _ y append _ =>
      FitsBefore view.compositionPlaylist y (insertPlace append position)
  | .insertResource _ _ _ _ _ _ => True
  | .addResource position _ y _ =>
      -- Without a new sequence if the segment has one of the virtual track.
      (∃ segmentRect ∈ view.scene[position]?,
        ∃ track ∈ getVirtualTrackFromY view.compositionPlaylist y,
          (findSequence view.compositionPlaylist segmentRect.item track).isSome) ∨
        FitsBefore view.compositionPlaylist y (position + 1)
  | .deleteResource position drawnSequence drawnResource =>
      ∀ segmentRect sequenceRect shown,
        view.resourceAt position drawnSequence drawnResource =
          some (segmentRect, sequenceRect, shown) →
        KeyedList.delete CPLResource.uuid shown.uuid
          (view.compositionPlaylist.sequence sequenceRect.sequence).items = [] →
        ∀ track ∈ nextVirtualTrack view.compositionPlaylist sequenceRect.trackIndex,
        ∀ next rest, (view.compositionPlaylist.virtualTrack track).items =
          sequenceRect.sequence :: next :: rest →
        (next :: view.compositionPlaylist.firstSequences
          (view.compositionPlaylist.virtualTracks.drop (sequenceRect.trackIndex.toNat + 1))).Sublist
          view.compositionPlaylist.sequences

end CPLSequenceView

section Actions

theorem getVirtualTrackFromY_mem {y : Int} :
    ∀ track ∈ getVirtualTrackFromY playlist y, track ∈ playlist.virtualTracks :=
  fun _ found => List.mem_of_getElem? found

theorem insertSegment_place (distinct : (playlist.segments.map playlist.segmentUUID).Nodup)
    {position other : Nat} (drawn : playlist.segments[position]? = some other) (append : Bool)
    (address : Nat) :
    (if append then playlist.insertSegmentAfter address other
      else playlist.insertSegmentBefore address other) =
      { playlist with
        segments := playlist.segments.take (insertPlace append position) ++ address ::
          playlist.segments.drop (insertPlace append position) } := by
  cases append with
  | true =>
      have place := KeyedList.insertAfter_eq playlist.segmentUUID distinct drawn address
      exact congrArg (fun segments => { playlist with segments := segments }) place
  | false =>
      have place := KeyedList.insertBefore_eq playlist.segmentUUID distinct drawn address
      exact congrArg (fun segments => { playlist with segments := segments }) place

theorem newSegment_place (indexed : playlist.Indexed) (unique : playlist.Distinct)
    {after : IMFCompositionPlaylist} {track : Nat} (ready : TrackReady playlist after track)
    {position other : Nat}
    (drawn : playlist.segments[position]? = some other) (append : Bool) {uuid : String}
    {sequence : CPLSequence} {placed : IMFCompositionPlaylist}
    (made : placed = (after.insertEmptySegment uuid playlist.segments).link
      playlist.segmentStore.size track sequence) :
    (if append then placed.insertSegmentAfter playlist.segmentStore.size other
      else placed.insertSegmentBefore playlist.segmentStore.size other) =
      (after.insertEmptySegment uuid
        (playlist.segments.take (insertPlace append position) ++ playlist.segmentStore.size ::
          playlist.segments.drop (insertPlace append position))).link playlist.segmentStore.size
        track sequence := by
  obtain ⟨virtualTracks, trackStore, rfl⟩ := ready.same
  have segments : placed.segments = playlist.segments := made ▸ rfl
  have store : placed.segmentStore = (playlist.segmentStore.alloc ⟨uuid, []⟩).modify
      playlist.segmentStore.size fun segment =>
        { segment with items := segment.items ++ [playlist.sequenceStore.size] } := made ▸ rfl
  -- The segments that were there keep their identifiers.
  have uuids : playlist.segments.map placed.segmentUUID =
      playlist.segments.map playlist.segmentUUID := by
    refine List.map_congr_left fun address member => ?_
    have used := indexed.segments address member
    rw [segmentUUID, IMFCompositionPlaylist.segment, store,
      Store.cell_modify_of_ne _ _ (Nat.ne_of_lt used), Store.cell_alloc_of_lt _ _ used]
    rfl
  have distinct : (placed.segments.map placed.segmentUUID).Nodup := by
    rw [segments, uuids]
    exact unique.segments
  rw [insertSegment_place distinct (segments.symm ▸ drawn) append playlist.segmentStore.size,
    segments, made]
  rfl

theorem insertSegmentAction_place (indexed : playlist.Indexed) (unique : playlist.Distinct)
    {segmentRect : CPLSegmentRect} {position : Nat}
    (drawn : playlist.segments[position]? = some segmentRect.item)
    (track : IMFTrack) (y : Int) (append : Bool) {made : MadeUUIDs}
    (fresh : Fresh playlist made) :
    insertSegmentAction playlist segmentRect track y append made =
      ((virtualTrackAt playlist y made.track).1.insertEmptySegment made.segment
        (playlist.segments.take (insertPlace append position) ++ playlist.segmentStore.size ::
          playlist.segments.drop (insertPlace append position))).link playlist.segmentStore.size
        (virtualTrackAt playlist y made.track).2
        ⟨made.sequence, (virtualTrackAt playlist y made.track).1.trackUUID
            (virtualTrackAt playlist y made.track).2,
          [standardResource made.resource track playlist.editRate]⟩ := by
  have prepared := newSegment_eq playlist (getVirtualTrackFromY playlist y) track made
  have ready := virtualTrackAt_ready indexed y fresh.track
  exact newSegment_place indexed unique ready drawn append prepared

theorem inOrder_insertSegment_iff (sound : Sound playlist) (ordered : playlist.InOrder)
    {segmentRect : CPLSegmentRect} {position : Nat}
    (drawn : playlist.segments[position]? = some segmentRect.item) (track : IMFTrack) (y : Int)
    (append : Bool) {made : MadeUUIDs} (fresh : Fresh playlist made) :
    (insertSegmentAction playlist segmentRect track y append made).InOrder ↔
      FitsBefore playlist y (insertPlace append position) := by
  rw [insertSegmentAction_place sound.indexed sound.distinct drawn track y append fresh]
  exact inOrder_newSegment_iff sound.indexed sound.filled.tracks ordered getVirtualTrackFromY_mem
    (fun _ => fresh.track) made.segment
    (List.take_append_drop (insertPlace append position) playlist.segments).symm rfl

theorem inOrder_createFirstSegment (sound : Sound playlist) (ordered : playlist.InOrder)
    (track : IMFTrack) {made : MadeUUIDs} (fresh : Fresh playlist made) :
    (createFirstSegmentAction playlist track made).InOrder := by
  rw [createFirstSegmentAction_eq]
  have notFound : ∀ track ∈ (none : Option Nat), track ∈ playlist.virtualTracks :=
    fun _ absent => by cases absent
  refine (inOrder_newSegment_iff sound.indexed sound.filled.tracks ordered notFound
    (fun _ => fresh.track) made.segment (List.append_nil _).symm ?_).mpr ?_
  · exact (playlist.trackUUID_addEmptyTrack made.track).symm
  · intro other _
    exact List.not_mem_nil

theorem inOrder_modifySequence (address : Nat) (change : CPLSequence → CPLSequence)
    (virtualTrackId : (change (playlist.sequence address)).virtualTrackId =
      (playlist.sequence address).virtualTrackId) :
    (playlist.modifySequence address change).InOrder ↔ playlist.InOrder := by
  rw [InOrder, playlist.index_modifySequence address change virtualTrackId]
  exact Iff.rfl

theorem inOrder_addResource_iff (sound : Sound playlist) (ordered : playlist.InOrder)
    {segmentRect : CPLSegmentRect} {position : Nat}
    (drawn : playlist.segments[position]? = some segmentRect.item) (track : IMFTrack) (y : Int)
    {made : MadeUUIDs} (fresh : Fresh playlist made) :
    (addResourceAction playlist segmentRect track y made).InOrder ↔
      (∃ track ∈ getVirtualTrackFromY playlist y,
        (findSequence playlist segmentRect.item track).isSome) ∨
        FitsBefore playlist y (position + 1) := by
  rcases addResourceAction_eq playlist segmentRect track y made with
    ⟨virtualTrack, sequence, found, searched, same⟩ | ⟨notFound, same⟩
  · rw [same]
    refine iff_of_true ((inOrder_modifySequence sequence _ rfl).mpr ordered) (Or.inl ?_)
    exact ⟨virtualTrack, found, searched ▸ rfl⟩
  · have none : ¬∃ track ∈ getVirtualTrackFromY playlist y,
        (findSequence playlist segmentRect.item track).isSome := by
      intro there
      obtain ⟨virtualTrack, found, searched⟩ := there
      rw [notFound virtualTrack found] at searched
      cases searched
    rw [same, or_iff_right none]
    exact inOrder_link_iff sound.indexed sound.filled.tracks ordered getVirtualTrackFromY_mem
      (fun _ => fresh.track) (KeyedList.eq_take_cons_drop drawn) rfl

theorem inOrder_deleteResource_iff (sound : Sound playlist) (ordered : playlist.InOrder)
    {segmentRect : CPLSegmentRect} {sequenceRect : CPLSequenceRect} (resource : CPLResource)
    (drawn : segmentRect.item ∈ playlist.segments)
    (inside : sequenceRect.sequence ∈ (playlist.segment segmentRect.item).items) {track : Nat}
    (index : nextVirtualTrack playlist sequenceRect.trackIndex = some track)
    (carried : (playlist.sequence sequenceRect.sequence).virtualTrackId = playlist.trackUUID track)
    {after : IMFCompositionPlaylist}
    (deleted : deleteResourceAction playlist segmentRect sequenceRect resource = some after) :
    after.InOrder ↔
      (KeyedList.delete CPLResource.uuid resource.uuid
        (playlist.sequence sequenceRect.sequence).items = [] →
      ∀ next rest, (playlist.virtualTrack track).items = sequenceRect.sequence :: next :: rest →
        (next :: playlist.firstSequences
          (playlist.virtualTracks.drop (sequenceRect.trackIndex.toNat + 1))).Sublist
          playlist.sequences) := by
  rw [deleteResourceAction_eq playlist segmentRect resource index] at deleted
  have remaining : ((playlist.deleteFromSequence sequenceRect.sequence resource).sequence
      sequenceRect.sequence).items = KeyedList.delete CPLResource.uuid resource.uuid
        (playlist.sequence sequenceRect.sequence).items := by
    rw [deleteFromSequence, playlist.sequence_modifySequence_self]
  rw [remaining] at deleted
  cases Option.some.inj deleted
  by_cases empty : KeyedList.delete CPLResource.uuid resource.uuid
      (playlist.sequence sequenceRect.sequence).items = []
  · rw [if_pos (List.isEmpty_iff.mpr empty), forall_prop_of_true empty]
    unfold nextVirtualTrack at index
    split at index
    · have tracks := KeyedList.eq_take_cons_drop index
      have trackMember := List.mem_of_getElem? index
      have removed := sound.index_deleteSequence resource drawn inside trackMember carried
      rw [InOrder, removed]
      exact CrossIndex.inOrder_remove_iff sound.indexed.consistent ordered drawn inside tracks
        carried
    · cases index
  · rw [if_neg (fun isEmpty => empty (List.isEmpty_iff.mp isEmpty)), forall_prop_of_false empty]
    exact iff_of_true ((inOrder_modifySequence _ _ rfl).mpr ordered) trivial

end Actions

namespace CPLSequenceView

variable {view next : CPLSequenceView} {action : Action}

theorem Shown.position (shown : view.Shown) {position : Nat} {segmentRect : CPLSegmentRect}
    (found : view.scene[position]? = some segmentRect) :
    view.compositionPlaylist.segments[position]? = some segmentRect.item := by
  rw [shown.scene, paintScene, List.getElem?_map] at found
  obtain ⟨item, listed, rfl⟩ := Option.map_eq_some_iff.mp found
  exact listed

/-- From a playlist in order, exactly the steps that keep the order lead to one. -/
theorem step_inOrder_iff (shown : view.Shown) (sound : Sound view.compositionPlaylist)
    (ordered : view.compositionPlaylist.InOrder) (taken : Step view action next) :
    next.compositionPlaylist.InOrder ↔ view.KeepsOrder action := by
  obtain ⟨enabled, performed⟩ := taken
  obtain ⟨playlist, acted, rfl⟩ := Option.map_eq_some_iff.mp performed
  change playlist.InOrder ↔ _
  cases action with
  | createFirstSegment track made =>
      obtain ⟨empty, fresh⟩ := enabled
      rw [act, empty] at acted
      cases Option.some.inj acted
      exact iff_of_true (inOrder_createFirstSegment sound ordered track fresh) trivial
  | insertSegment position track y append made =>
      obtain ⟨-, fresh⟩ := enabled
      obtain ⟨segmentRect, found, rfl⟩ := Option.map_eq_some_iff.mp acted
      exact inOrder_insertSegment_iff sound ordered (shown.position found) track y append fresh
  | insertResource position drawnSequence drawnResource track append made =>
      obtain ⟨⟨segmentRect, sequenceRect, item⟩, -, rfl⟩ := Option.map_eq_some_iff.mp acted
      exact iff_of_true ((inOrder_modifySequence _ _ rfl).mpr ordered) trivial
  | addResource position track y made =>
      obtain ⟨-, fresh⟩ := enabled
      obtain ⟨segmentRect, found, rfl⟩ := Option.map_eq_some_iff.mp acted
      rw [inOrder_addResource_iff sound ordered (shown.position found) track y fresh, KeepsOrder,
        found]
      simp
  | deleteResource position drawnSequence drawnResource =>
      obtain ⟨⟨segmentRect, sequenceRect, item⟩, found, deleted⟩ := Option.bind_eq_some_iff.mp acted
      obtain ⟨member, inside, mapped⟩ := shown.inside found
      obtain ⟨track, index, -, carried⟩ := shown.track sound.indexed member inside
      rw [← mapped] at index
      rw [inOrder_deleteResource_iff sound ordered item member inside index carried deleted,
        KeepsOrder, found]
      constructor
      · intro keeps segmentRect sequenceRect item same emptied track listed
        cases Option.some.inj same
        cases Option.some.inj (index.symm.trans listed)
        exact keeps emptied
      · intro keeps emptied
        exact keeps segmentRect sequenceRect item rfl emptied track index

theorem StartedEmpty.inOrder (empty : StartedEmpty view) : view.compositionPlaylist.InOrder := by
  obtain ⟨before, playlist, -, virtualTracks, rfl⟩ := empty
  have tracks : playlist.index.tracks = [] := virtualTracks
  constructor
  · intro track member
    exact absurd (tracks ▸ member) List.not_mem_nil
  · exact (congrArg playlist.index.headsOf tracks) ▸ List.nil_sublist _

theorem playlists_inOrder_iff {start : CPLSequenceView} (empty : StartedEmpty start)
    {trace : List (CPLSequenceView × Action)} (run : Transition.Run Step start trace view) :
    ((∀ visited ∈ trace, visited.1.compositionPlaylist.InOrder) ∧
      view.compositionPlaylist.InOrder) ↔ Transition.Guarded KeepsOrder trace := by
  refine run.always_iff (fun view => view.compositionPlaylist.InOrder) empty.inOrder ?_
  intro state action next reached taken ordered
  obtain ⟨shown, sound⟩ := shown_and_sound empty.started reached
  exact step_inOrder_iff shown sound ordered taken

theorem trackLists_iff {start : CPLSequenceView} (started : Started start)
    (reached : Transition.Reachable Step start view) {path : String} {tracks : List IMFTrack}
    {tree : PTree} {loaded : IMFCompositionPlaylist}
    (written : view.compositionPlaylist.write = .ok tree)
    (reloaded : load path tree tracks = .ok loaded) :
    loaded.trackLists = view.compositionPlaylist.trackLists ↔
      view.compositionPlaylist.InOrder := by
  have sound := (shown_and_sound started reached).2
  rw [trackLists_of_reload sound.distinct sound.resources written reloaded, eq_comm]
  exact trackLists_eq_timelineTracks_iff sound.indexed sound.filled.tracks sound.distinct

/-- A playlist that is saved and loaded has its virtual tracks with their sequences again, in the
order of the timeline. This is the order that they had exactly if they were in order, and they
are so after every run whose steps all keep the order. -/
theorem tracks_survive {start : CPLSequenceView} (empty : StartedEmpty start)
    {trace : List (CPLSequenceView × Action)} (run : Transition.Run Step start trace view)
    {path : String} {tracks : List IMFTrack} {tree : PTree} {loaded : IMFCompositionPlaylist}
    (written : view.compositionPlaylist.write = .ok tree)
    (reloaded : load path tree tracks = .ok loaded) :
    loaded.trackLists = view.compositionPlaylist.timelineTracks ∧
    SameTracks loaded.trackLists view.compositionPlaylist.trackLists ∧
    (loaded.trackLists = view.compositionPlaylist.trackLists ↔
      view.compositionPlaylist.InOrder) ∧
    (Transition.Guarded KeepsOrder trace →
      loaded.trackLists = view.compositionPlaylist.trackLists) := by
  have sound := (shown_and_sound empty.started ⟨trace, run⟩).2
  have timeline := trackLists_of_reload sound.distinct sound.resources written reloaded
  have survive := trackLists_iff empty.started ⟨trace, run⟩ written reloaded
  refine ⟨timeline, ?_, survive, fun guarded => ?_⟩
  · rw [timeline]
    exact sameTracks_timelineTracks sound.indexed sound.filled.tracks
  · exact survive.mpr ((playlists_inOrder_iff empty run).mpr guarded).2

section Sample

def introView : CPLSequenceView :=
  firstView.compositionPlaylistChanged (insertSegmentAction firstView.compositionPlaylist ⟨0, []⟩
    Sample.audio 40 false ⟨"s2", "q2", "t2", "r2"⟩)

theorem step_introView : Step firstView
    (.insertSegment 0 Sample.audio 40 false ⟨"s2", "q2", "t2", "r2"⟩) introView :=
  ⟨⟨by decide, by decide, by decide, by decide⟩, rfl⟩

def shuffledView : CPLSequenceView :=
  introView.compositionPlaylistChanged (insertSegmentAction introView.compositionPlaylist ⟨0, []⟩
    Sample.video 0 false ⟨"s3", "q3", "t3", "r3"⟩)

theorem step_shuffledView : Step introView
    (.insertSegment 1 Sample.video 0 false ⟨"s3", "q3", "t3", "r3"⟩) shuffledView :=
  ⟨⟨by decide, by decide, by decide, by decide⟩, rfl⟩

theorem load_of_sample {playlist : IMFCompositionPlaylist} {tree : PTree}
    (written : playlist.write = .ok tree)
    (resolved : playlist.Resolved [Sample.video, Sample.audio]) :
    ∃ loaded, load "cpl.xml" tree [Sample.video, Sample.audio] = .ok loaded := by
  obtain ⟨loaded, reloaded, -⟩ := load_of_write "cpl.xml" written (by decide) resolved
  exact ⟨loaded, reloaded⟩

/-- The video is in the first virtual track and the audio in the second. They change places when
the playlist is saved and loaded, and so do the two sequences of the video. -/
theorem tracks_change_places :
    Transition.Reachable Step newView shuffledView ∧
    ∃ tree, shuffledView.compositionPlaylist.write = .ok tree ∧
    ∃ loaded, load "cpl.xml" tree [Sample.video, Sample.audio] = .ok loaded ∧
      shuffledView.compositionPlaylist.trackLists = [("t1", ["q1", "q3"]), ("t2", ["q2"])] ∧
      loaded.trackLists = [("t2", ["q2"]), ("t1", ["q3", "q1"])] := by
  have reached := ((Transition.Reachable.refl.tail step_firstView).tail step_introView).tail
    step_shuffledView
  have written : ∃ tree, shuffledView.compositionPlaylist.write = .ok tree := ⟨_, rfl⟩
  obtain ⟨tree, written⟩ := written
  obtain ⟨loaded, reloaded⟩ := load_of_sample written (by unfold Resolved; decide)
  refine ⟨reached, tree, written, loaded, reloaded, by decide, ?_⟩
  have sound := (shown_and_sound newView_empty.started reached).2
  rw [trackLists_of_reload sound.distinct sound.resources written reloaded]
  decide

/-- Audio below the video in the same segment stays there. -/
theorem tracks_survive_below : ∃ tree, secondView.compositionPlaylist.write = .ok tree ∧
    ∃ loaded, load "cpl.xml" tree [Sample.video, Sample.audio] = .ok loaded ∧
      loaded.trackLists = [("t1", ["q1"]), ("t2", ["q2"])] := by
  have run := (Transition.Run.start.step step_firstView).step step_secondView
  have written : ∃ tree, secondView.compositionPlaylist.write = .ok tree := ⟨_, rfl⟩
  obtain ⟨tree, written⟩ := written
  obtain ⟨loaded, reloaded⟩ := load_of_sample written (by unfold Resolved; decide)
  refine ⟨tree, written, loaded, reloaded, ?_⟩
  refine ((tracks_survive newView_empty run written reloaded).2.2.2 ?_).trans (by decide)
  refine Transition.guarded_append_singleton.mpr
    ⟨Transition.guarded_append_singleton.mpr ⟨Transition.guarded_nil, trivial⟩, Or.inr ?_⟩
  intro other _
  exact List.not_mem_nil

end Sample

end CPLSequenceView

end Imflib.View

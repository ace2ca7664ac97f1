import Imflib.Package.PlaylistRoundTrip

/-! The list of essence descriptors in a written playlist, and the resources that refer to it. -/

namespace Imflib.Package

def childrenAt (path : List String) (tree : PTree) : List (String × PTree) :=
  (tree.getChild? path).elim [] PTree.children

def describedIds (pt : PTree) : List String :=
  ((childrenAt ["CompositionPlaylist", "EssenceDescriptorList"] pt).filter
    fun child => child.1 = "EssenceDescriptor").map fun child => child.2.getStringD ["Id"] ""

def sourceEncodings (pt : PTree) : List String :=
  (childrenAt ["CompositionPlaylist", "SegmentList"] pt).flatMap fun segment =>
    (childrenAt ["SequenceList"] segment.2).flatMap fun sequence =>
      (childrenAt ["ResourceList"] sequence.2).map fun resource =>
        resource.2.getStringD ["SourceEncoding"] ""

/-- Every descriptor that is referred to is listed once, and no other. -/
structure FaithfulIndex (pt : PTree) : Prop where
  distinct : (describedIds pt).Nodup
  same : ∀ id, id ∈ describedIds pt ↔ id ∈ sourceEncodings pt

theorem childrenAt_of_some {path : List String} {tree child : PTree}
    (present : tree.getChild? path = some child) : childrenAt path tree = child.children := by
  rw [childrenAt, present, Option.elim_some]

def CPLResource.sourceEncoding (resource : CPLResource) : String :=
  uuidStr resource.track.essenceDescriptor.uuid

theorem IMFEssenceDescriptor.write_eq_ok {descriptor : IMFEssenceDescriptor} {ptParent result : PTree}
    (written : descriptor.write ptParent = .ok result) :
    ∃ pt, result = ptParent.addChild "EssenceDescriptor" pt ∧
      pt.getStringD ["Id"] "" = uuidStr descriptor.uuid := by
  obtain ⟨subDescs, -, last⟩ := bind_eq_ok.mp written
  refine ⟨_, (Except.ok.inj last).symm, ?_⟩
  rw [PTree.getStringD_eq]
  cases descriptor.essenceDescriptor <;>
    simp [EssenceDescriptorData.getTypeAsString]

theorem writeDescriptors_eq_ok {resources : List CPLResource} {pt result : PTree}
    (written : resources.foldlM (fun pt resource => resource.track.essenceDescriptor.write pt) pt =
      .ok result) :
    ∃ nodes : List PTree, result = .node pt.data
        (pt.children ++ nodes.map fun node => ("EssenceDescriptor", node)) ∧
      nodes.map (fun node => node.getStringD ["Id"] "") = resources.map CPLResource.sourceEncoding := by
  induction resources generalizing pt with
  | nil =>
      cases written
      refine ⟨[], ?_, rfl⟩
      cases result
      simp
  | cons resource rest ih =>
      rw [List.foldlM_cons] at written
      obtain ⟨middle, first, others⟩ := bind_eq_ok.mp written
      obtain ⟨node, rfl, id⟩ := IMFEssenceDescriptor.write_eq_ok first
      obtain ⟨nodes, same, ids⟩ := ih others
      refine ⟨node :: nodes, ?_, ?_⟩
      · rw [same]
        simp [PTree.addChild]
      · rw [List.map_cons, List.map_cons, ids, id]
        rfl

theorem sourceEncoding_tree (resource : CPLResource) :
    resource.tree.getStringD ["SourceEncoding"] "" = resource.sourceEncoding := by
  rw [PTree.getStringD_eq]
  simp [CPLResource.tree, CPLResource.sourceEncoding]

theorem sourceEncodings_nodes (sequence : CPLSequence) :
    sequence.nodes.flatMap (fun node => (childrenAt ["ResourceList"] node.2).map fun resource =>
      resource.2.getStringD ["SourceEncoding"] "") =
      sequence.items.map CPLResource.sourceEncoding := by
  by_cases empty : sequence.items = []
  · rw [CPLSequence.nodes, if_pos empty, empty]
    rfl
  · obtain ⟨key, nodes⟩ := CPLSequence.nodes_of_ne_nil empty
    rw [nodes, List.flatMap_singleton, childrenAt_of_some sequence.getChild?_tree, PTree.children_node,
      List.map_map]
    exact List.map_congr_left fun resource _ => sourceEncoding_tree resource

theorem childrenAt_node (segment : SegmentValue) : childrenAt ["SequenceList"] segment.node.2 =
    segment.sequences.flatMap CPLSequence.nodes := by
  have list : segment.node.2.getChild? ["SequenceList"] =
      some (.node "" (segment.sequences.flatMap CPLSequence.nodes)) :=
    PTree.getChild?_addChild_self [] _ _ (by simp)
  rw [childrenAt_of_some list, PTree.children_node]

namespace IMFCompositionPlaylist

variable {playlist : IMFCompositionPlaylist} {tree : PTree}

theorem sourceEncodings_of_write (written : playlist.write = .ok tree) :
    sourceEncodings tree = playlist.resources.map CPLResource.sourceEncoding := by
  obtain ⟨root, rfl, -, -, -, list⟩ := write_eq_ok written
  have segments : childrenAt ["CompositionPlaylist", "SegmentList"]
      (PTree.empty.addChild "CompositionPlaylist" root) = playlist.timeline.map SegmentValue.node :=
    childrenAt_of_some ((PTree.getChild?_addChild_self ["SegmentList"] root _ rfl).trans list)
  have inSegment (segment : SegmentValue) :
      (childrenAt ["SequenceList"] segment.node.2).flatMap (fun sequence =>
        (childrenAt ["ResourceList"] sequence.2).map fun resource =>
          resource.2.getStringD ["SourceEncoding"] "") =
        segment.sequences.flatMap fun sequence => sequence.items.map CPLResource.sourceEncoding := by
    rw [childrenAt_node, List.flatMap_assoc]
    simp only [sourceEncodings_nodes]
  rw [sourceEncodings, segments, List.flatMap_map]
  simp only [inSegment, timeline, segmentValue, resources, sequences, List.flatMap_map,
    List.map_flatMap, List.flatMap_assoc]

theorem describedIds_of_write (written : playlist.write = .ok tree) :
    describedIds tree = playlist.resources.map CPLResource.sourceEncoding := by
  unfold write at written
  obtain ⟨descriptorList, descriptors, rest⟩ := bind_eq_ok.mp written
  obtain ⟨segmentList, -, last⟩ := bind_eq_ok.mp rest
  obtain ⟨nodes, same, ids⟩ := writeDescriptors_eq_ok descriptors
  cases Except.ok.inj last
  rw [describedIds, childrenAt, PTree.getChild?_addChild_self _ _ _ rfl]
  by_cases empty : playlist.resources.isEmpty = true
  · have noResources : playlist.resources = [] := List.isEmpty_iff.mp empty
    rw [if_pos empty, noResources]
    simp [XMLHeaderCompositionPlaylist.write]
  · rw [if_neg empty]
    simp only [PTree.getChild?_addChild_of_ne, PTree.getChild?_put_of_ne, ne_eq, String.reduceEq,
      not_false_eq_true]
    rw [PTree.getChild?_addChild_self _ _ _ (by simp [XMLHeaderCompositionPlaylist.write])]
    have listed : (nodes.map fun node => ("EssenceDescriptor", node)).filter
        (fun child => child.1 = "EssenceDescriptor") =
          nodes.map fun node => ("EssenceDescriptor", node) :=
      List.filter_eq_self.mpr fun child member => by
        obtain ⟨node, -, rfl⟩ := List.mem_map.mp member
        rfl
    rw [PTree.getChild?, Option.elim_some, same, PTree.children_node, List.filter_append, listed,
      ← ids]
    simp [PTree.put, PTree.modify, PTree.modifyChild]

/-- The essence descriptors of a written playlist are a faithful index if and only if no two
resources of the playlist refer to the same descriptor. -/
theorem faithfulIndex_iff (written : playlist.write = .ok tree) :
    FaithfulIndex tree ↔
      (playlist.resources.map fun resource => resource.track.essenceDescriptor.uuid).Nodup := by
  have described := describedIds_of_write written
  have same : playlist.resources.map CPLResource.sourceEncoding = (playlist.resources.map
      fun resource => resource.track.essenceDescriptor.uuid).map uuidStr := by
    rw [List.map_map]
    rfl
  rw [← List.nodup_map_iff uuidStr_injective, ← same]
  constructor
  · intro faithful
    exact described ▸ faithful.distinct
  · intro distinct
    refine ⟨described.symm ▸ distinct, fun id => ?_⟩
    rw [described, sourceEncodings_of_write written]

/-- A track that is used twice is described twice. -/
theorem sample_not_faithful : ∃ tree, sample.write = .ok tree ∧ ¬ FaithfulIndex tree := by
  have written : ∃ tree, sample.write = .ok tree := ⟨_, rfl⟩
  obtain ⟨tree, written⟩ := written
  refine ⟨tree, written, fun faithful => ?_⟩
  have distinct := faithful.distinct
  rw [describedIds_of_write written] at distinct
  exact absurd distinct (by decide)

def smallSample : IMFCompositionPlaylist :=
  build "cpl.xml"
    { uuid := "cpl"
      header := .standard
      editRate := ⟨25, 1⟩
      segments := [⟨"segment", [
        ⟨"image", "v1", [standardResource "first" Sample.video ⟨25, 1⟩]⟩,
        ⟨"sound", "a1", [standardResource "second" Sample.audio ⟨25, 1⟩]⟩]⟩] }

theorem smallSample_faithful : ∃ tree, smallSample.write = .ok tree ∧ FaithfulIndex tree := by
  have written : ∃ tree, smallSample.write = .ok tree := ⟨_, rfl⟩
  obtain ⟨tree, written⟩ := written
  exact ⟨tree, written, (faithfulIndex_iff written).mpr (by decide)⟩

end IMFCompositionPlaylist

end Imflib.Package

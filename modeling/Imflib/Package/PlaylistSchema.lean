import Imflib.Base.ContentModel
import Imflib.Package.PlaylistRoundTrip

/-! The content models of `imf-cpl.xsd`, and what of a written playlist satisfies them. -/

namespace Imflib.Package

namespace MXFReader

/-- Unsigned numbers are stored in an `int`. -/
def storeInt (value : Nat) : Int32 := Int32.ofNat value

/-- The duration of an audio track: that of the descriptor, or that of the index. An
unknown duration is 0 there and is stored as -1. -/
def audioDuration (containerDuration : Option UInt64) (indexDuration : UInt32) : Int32 :=
  let duration := match containerDuration with
    | none => storeInt indexDuration.toNat
    | some duration => storeInt duration.toNat
  if duration = 0 then -1 else duration

def videoDuration (containerDuration : Option UInt64) (indexDuration : UInt32) : Int32 :=
  let duration := match containerDuration with
    | none => -1
    | some duration => storeInt duration.toNat
  if duration = -1 then
    let duration := storeInt indexDuration.toNat
    if duration = 0 then -1 else duration
  else duration

/-- A track as the reader returns it. Its descriptor holds the container duration, without
which a file is not read. -/
def Returned (track : IMFTrack) : Prop :=
  let containerDuration := some track.essenceDescriptor.essenceDescriptor.base.essenceLength
  ∃ indexDuration, track.duration = match track.type with
    | .audio => audioDuration containerDuration indexDuration
    | .video => videoDuration containerDuration indexDuration

end MXFReader

namespace PlaylistSchema

/-- Texts are not looked at where their type is not one of numbers. -/
def text (attributes : List String) : PTree → Prop := HasText attributes fun _ => True

def uuidType : PTree → Prop := text []

def userTextType : PTree → Prop := text ["language"]

def nonNegative : PTree → Prop := HasText [] nonNegativeInteger

def positive : PTree → Prop := HasText [] positiveInteger

/-- Content that is not modelled: of `xs:any`, and of parts that are never written. -/
def anyType : PTree → Prop := fun _ => True

def baseResourceModel : List Particle :=
  [.required "Id" uuidType,
    .optional "Annotation" userTextType,
    .optional "EditRate" (text []),
    .required "IntrinsicDuration" nonNegative,
    .optional "EntryPoint" nonNegative,
    .optional "SourceDuration" nonNegative,
    .optional "RepeatCount" positive]

def trackFileResourceModel : List Particle :=
  baseResourceModel ++
    [.required "SourceEncoding" uuidType,
      .required "TrackFileId" uuidType,
      .optional "KeyId" uuidType,
      .optional "Hash" (text [])]

/-- The base type of resources is abstract. An attribute names the type, and this one is
that of track files. -/
def resourceType (tree : PTree) : Prop :=
  tree.text? ["<xmlattr>", "xsi:type"] = some "TrackFileResourceType" ∧
    HasContent [] trackFileResourceModel tree

def sequenceType : PTree → Prop :=
  HasContent []
    [.required "Id" uuidType,
      .required "TrackId" uuidType,
      .required "ResourceList" (HasContent [] [.repeated "Resource" resourceType])]

/-- The sequences that have no name of their own in this schema are of its sequence type
too. -/
def segmentType : PTree → Prop :=
  HasContent []
    [.required "Id" uuidType,
      .optional "Annotation" userTextType,
      .required "SequenceList" (HasContent []
        [.optional "MarkerSequence" anyType, .others sequenceType 0])]

def essenceDescriptorBaseType : PTree → Prop :=
  HasContent [] [.required "Id" uuidType, .others anyType 0]

def compositionPlaylistType : PTree → Prop :=
  HasContent []
    [.required "Id" uuidType,
      .optional "Annotation" userTextType,
      .required "IssueDate" (text []),
      .optional "Issuer" userTextType,
      .optional "Creator" userTextType,
      .optional "ContentOriginator" userTextType,
      .required "ContentTitle" userTextType,
      .optional "ContentKind" (text ["scope"]),
      .optional "ContentVersionList" anyType,
      .optional "EssenceDescriptorList"
        (HasContent [] [.repeated "EssenceDescriptor" essenceDescriptorBaseType]),
      .optional "CompositionTimecode" anyType,
      .required "EditRate" (text []),
      .optional "TotalRunningTime" (text []),
      .optional "LocaleList" anyType,
      .optional "ExtensionProperties" (HasContent [] [.others anyType 1]),
      .required "SegmentList" (HasContent [] [.repeated "Segment" segmentType]),
      .optional "Signer" anyType,
      .optional "ds:Signature" anyType]

def ValidPlaylist (tree : PTree) : Prop :=
  HasContent [] [.required "CompositionPlaylist" compositionPlaylistType] tree

end PlaylistSchema

structure CPLResource.InRange (resource : CPLResource) : Prop where
  duration : 0 ≤ resource.track.duration
  entryPoint : 0 ≤ resource.entryPoint
  sourceDuration : 0 ≤ resource.sourceDuration
  repeatCount : 0 < resource.repeatCount

open PlaylistSchema PTree

section Put

variable {tree : PTree} {key : String}

theorem find_putNonempty_of_ne {other : String} (different : other ≠ key) (value : String) :
    (putNonempty key value tree).find other = tree.find other := by
  unfold putNonempty
  split
  · rfl
  · exact find_put_of_ne different [] value

theorem elements_putNonempty (absent : tree.find key = none) (element : isElement key = true)
    (value : String) :
    (putNonempty key value tree).elements = tree.elements ++ optionalLeaf key value := by
  unfold putNonempty optionalLeaf
  split
  · rw [List.append_nil]
  · exact elements_put absent element value

theorem onlyAttributes_putNonempty {attributes : List String}
    (only : tree.OnlyAttributes attributes) (element : isElement key = true) (value : String) :
    (putNonempty key value tree).OnlyAttributes attributes := by
  unfold putNonempty
  split
  · exact only
  · exact only.put element [] value

end Put

theorem numberOf_decimal (n : Int) : numberOf (String.ofList (Text.decimal n)) = some n := by
  simp [numberOf]

theorem text_leaf (attributes : List String) (value : String) : text attributes (.leaf value) :=
  .leaf trivial

theorem number_decimal (valid : Int → Prop) (n : Int) :
    HasText [] (fun text => ∃ m, numberOf text = some m ∧ valid m)
      (.leaf (String.ofList (Text.decimal n))) ↔ valid n := by
  constructor
  · intro written
    obtain ⟨number, read, holds⟩ := written.text
    rwa [Option.some.inj ((numberOf_decimal n).symm.trans read)]
  · intro holds
    exact .leaf ⟨n, numberOf_decimal n, holds⟩

theorem nonNegative_decimal (n : Int32) :
    nonNegative (.leaf (String.ofList (Text.decimal n.toInt))) ↔ 0 ≤ n := by
  rw [Int32.le_iff_toInt_le]
  exact number_decimal (0 ≤ ·) n.toInt

theorem positive_decimal (n : Int32) :
    positive (.leaf (String.ofList (Text.decimal n.toInt))) ↔ 0 < n := by
  rw [Int32.lt_iff_toInt_lt]
  exact number_decimal (0 < ·) n.toInt

namespace CPLResource

variable (resource : CPLResource)

theorem elements_tree : resource.tree.elements =
    [("Id", .leaf (uuidStr resource.uuid)), ("Annotation", .leaf ""),
      ("EditRate", .leaf resource.track.editRate.asIMFString),
      ("IntrinsicDuration", .leaf (String.ofList (Text.decimal resource.track.duration.toInt))),
      ("EntryPoint", .leaf (String.ofList (Text.decimal resource.entryPoint.toInt))),
      ("SourceDuration", .leaf (String.ofList (Text.decimal resource.sourceDuration.toInt))),
      ("RepeatCount", .leaf (String.ofList (Text.decimal resource.repeatCount.toInt))),
      ("SourceEncoding", .leaf (uuidStr resource.track.essenceDescriptor.uuid)),
      ("TrackFileId", .leaf (uuidStr resource.track.uuid))] ++
      (optionalLeaf "KeyId" resource.keyId ++ optionalLeaf "Hash" resource.hash) := by
  simp [CPLResource.tree, putInt, elements_put, elements_putNonempty, elements_put_attribute,
    find_put_of_ne, find_putNonempty_of_ne, isElement]

theorem onlyAttributes_tree : resource.tree.OnlyAttributes [] := by
  unfold CPLResource.tree
  refine onlyAttributes_putNonempty (onlyAttributes_putNonempty ?_ (by decide) _) (by decide) _
  repeat refine OnlyAttributes.put ?_ (by decide) [] _
  exact OnlyAttributes.empty.put_attribute (by decide) (.inl (by decide)) _

theorem resourceType_tree : resourceType resource.tree ↔ resource.InRange := by
  constructor
  · intro typed
    have number (name : String) (n : Int) (type : PTree → Prop)
        (member : (name, .leaf (String.ofList (Text.decimal n))) ∈ resource.tree.elements)
        (only : ∀ particle ∈ trackFileResourceModel, particle.named name →
          ∀ tree, particle.type tree → type tree) :
        type (.leaf (String.ofList (Text.decimal n))) :=
      typed.2.content.typed_of_mem only member
    have listed := resource.elements_tree
    have duration := number "IntrinsicDuration" resource.track.duration.toInt nonNegative
      (by simp [listed]) (by simp [trackFileResourceModel, baseResourceModel])
    have entryPoint := number "EntryPoint" resource.entryPoint.toInt nonNegative
      (by simp [listed]) (by simp [trackFileResourceModel, baseResourceModel])
    have sourceDuration := number "SourceDuration" resource.sourceDuration.toInt nonNegative
      (by simp [listed]) (by simp [trackFileResourceModel, baseResourceModel])
    have repeatCount := number "RepeatCount" resource.repeatCount.toInt positive
      (by simp [listed]) (by simp [trackFileResourceModel, baseResourceModel])
    exact
      { duration := (nonNegative_decimal _).mp duration
        entryPoint := (nonNegative_decimal _).mp entryPoint
        sourceDuration := (nonNegative_decimal _).mp sourceDuration
        repeatCount := (positive_decimal _).mp repeatCount }
  · intro range
    have type : resource.tree.text? ["<xmlattr>", "xsi:type"] = some "TrackFileResourceType" := by
      simp [CPLResource.tree]
    refine ⟨type, ?_, resource.onlyAttributes_tree⟩
    rw [elements_tree]
    have keys : Matches [.optional "KeyId" uuidType, .optional "Hash" (text [])]
        (optionalLeaf "KeyId" resource.keyId ++ optionalLeaf "Hash" resource.hash) :=
      .optionalLeaf (text_leaf [] _) (.optionalLeaf_last (text_leaf [] _))
    exact .required (text_leaf [] _) (.optional (text_leaf _ _) (.optional (text_leaf [] _)
      (.required ((nonNegative_decimal _).mpr range.duration)
        (.optional ((nonNegative_decimal _).mpr range.entryPoint)
          (.optional ((nonNegative_decimal _).mpr range.sourceDuration)
            (.optional ((positive_decimal _).mpr range.repeatCount)
              (.required (text_leaf [] _) (.required (text_leaf [] _) keys))))))))

end CPLResource

namespace CPLSequence

variable (sequence : CPLSequence)

theorem elements_tree : sequence.tree.elements =
    [("Id", .leaf (uuidStr sequence.uuid)), ("TrackId", .leaf (uuidStr sequence.virtualTrackId)),
      ("ResourceList",
        .node "" (sequence.items.map fun resource => ("Resource", resource.tree)))] := by
  have list := PTree.foldl_addChild (fun _ => "Resource") CPLResource.tree sequence.items .empty
  have list : sequence.items.foldl (fun tree resource => resource.write tree) PTree.empty =
      .node "" (sequence.items.map fun resource => ("Resource", resource.tree)) := list
  simp [CPLSequence.tree, list, elements_put_empty, elements_put, elements_addChild,
    find_put_of_ne, isElement]

theorem onlyAttributes_tree : sequence.tree.OnlyAttributes [] := by
  unfold CPLSequence.tree
  exact ((OnlyAttributes.empty.put (by decide) [] _).put (by decide) [] _).addChild (by decide) _

theorem resourceListType_iff :
    HasContent [] [.repeated "Resource" resourceType]
        (.node "" (sequence.items.map fun resource => ("Resource", resource.tree))) ↔
      sequence.items ≠ [] ∧ ∀ resource ∈ sequence.items, resource.InRange := by
  have elements : ∀ child ∈ sequence.items.map fun resource => ("Resource", resource.tree),
      isElement child.1 = true := by
    intro child member
    obtain ⟨resource, -, rfl⟩ := List.mem_map.mp member
    exact (by decide : isElement "Resource" = true)
  constructor
  · intro valid
    have content := valid.content
    rw [PTree.elements_of_all "" elements, Matches.repeated_iff] at content
    refine ⟨fun empty => content.1 (by rw [empty, List.map_nil]), fun resource member => ?_⟩
    exact resource.resourceType_tree.mp
      (content.2 _ (List.mem_map_of_mem member)).2
  · intro range
    refine .of_elements elements (Matches.repeated_iff.mpr ⟨by simpa using range.1, ?_⟩)
    intro child member
    obtain ⟨resource, inside, rfl⟩ := List.mem_map.mp member
    exact ⟨rfl, resource.resourceType_tree.mpr (range.2 resource inside)⟩

theorem sequenceType_tree : sequenceType sequence.tree ↔
    sequence.items ≠ [] ∧ ∀ resource ∈ sequence.items, resource.InRange := by
  rw [← resourceListType_iff]
  constructor
  · intro valid
    have listed : ("ResourceList",
        .node "" (sequence.items.map fun resource => ("Resource", resource.tree))) ∈
          sequence.tree.elements := by
      simp [elements_tree]
    exact valid.content.typed_of_mem (by simp) listed
  · intro list
    refine ⟨?_, sequence.onlyAttributes_tree⟩
    rw [elements_tree]
    exact .required (text_leaf [] _) (.required (text_leaf [] _) (.required list .nil))

theorem key_of_mem_nodes {child : String × PTree} (member : child ∈ sequence.nodes) :
    sequence.items ≠ [] ∧ child.2 = sequence.tree ∧
      (child.1 = "imf:MainAudioSequence" ∨ child.1 = "imf:MainImageSequence") := by
  unfold nodes at member
  split at member
  · cases member
  · rename_i nonempty
    split at member
    · cases List.mem_singleton.mp member
      exact ⟨nonempty, rfl, .inl rfl⟩
    · cases List.mem_singleton.mp member
      exact ⟨nonempty, rfl, .inr rfl⟩

end CPLSequence

namespace SegmentValue

variable (segment : SegmentValue)

theorem elements_node : segment.node.2.elements =
    [("Id", .leaf (uuidStr segment.uuid)),
      ("SequenceList", .node "" (segment.sequences.flatMap CPLSequence.nodes))] := by
  simp [SegmentValue.node, elements_put_empty, elements_addChild, isElement]

theorem segmentType_node : segmentType segment.node.2 ↔
    ∀ sequence ∈ segment.sequences, ∀ resource ∈ sequence.items, resource.InRange := by
  have nodes : ∀ child ∈ segment.sequences.flatMap CPLSequence.nodes, ∃ sequence ∈ segment.sequences,
      sequence.items ≠ [] ∧ child.2 = sequence.tree ∧
        (child.1 = "imf:MainAudioSequence" ∨ child.1 = "imf:MainImageSequence") := by
    intro child member
    obtain ⟨sequence, inside, listed⟩ := List.mem_flatMap.mp member
    exact ⟨sequence, inside, sequence.key_of_mem_nodes listed⟩
  have elements : ∀ child ∈ segment.sequences.flatMap CPLSequence.nodes,
      isElement child.1 = true := by
    intro child member
    obtain ⟨_, _, _, _, key | key⟩ := nodes child member <;> rw [key] <;> decide
  constructor
  · intro valid sequence member resource inside
    have first : ("SequenceList", .node "" (segment.sequences.flatMap CPLSequence.nodes)) ∈
        segment.node.2.elements := by
      simp [elements_node]
    have list : HasContent [] [.optional "MarkerSequence" anyType, .others sequenceType 0]
        (.node "" (segment.sequences.flatMap CPLSequence.nodes)) :=
      valid.content.typed_of_mem (by simp) first
    have content := list.content
    rw [PTree.elements_of_all "" elements] at content
    obtain ⟨key, node⟩ := CPLSequence.nodes_of_ne_nil (List.ne_nil_of_mem inside)
    have listed : (key, sequence.tree) ∈ segment.sequences.flatMap CPLSequence.nodes :=
      List.mem_flatMap.mpr ⟨sequence, member, by rw [node]; exact List.mem_singleton_self _⟩
    obtain ⟨_, _, _, _, named⟩ := nodes _ listed
    have typed : sequenceType sequence.tree := by
      refine content.typed_of_mem ?_ listed
      rcases named with rfl | rfl <;> simp
    exact (sequence.sequenceType_tree.mp typed).2 resource inside
  · intro range
    have attributes : segment.node.2.OnlyAttributes [] :=
      (OnlyAttributes.empty.put (by decide) [] _).addChild (by decide) _
    refine ⟨?_, attributes⟩
    rw [elements_node]
    refine .required (text_leaf [] _) (.missing rfl (.required ?_ .nil))
    refine .of_elements elements (.missing rfl (Matches.others_iff.mpr ⟨Nat.zero_le _, ?_⟩))
    intro child member
    obtain ⟨sequence, inside, nonempty, tree, named⟩ := nodes child member
    refine ⟨by rcases named with key | key <;> rw [key] <;> decide, ?_⟩
    rw [tree]
    exact sequence.sequenceType_tree.mpr ⟨nonempty, range sequence inside⟩

end SegmentValue

namespace IMFEssenceDescriptor

theorem colon_of_type (data : EssenceDescriptorData) :
    isElement ("r0:" ++ data.getTypeAsString) = true ∧
      ':' ∈ ("r0:" ++ data.getTypeAsString).toList := by
  have named : ∀ name ∈ ["WAVEPCMDescriptor", "RGBADescriptor", "CDCIDescriptor"],
      isElement ("r0:" ++ name) = true ∧ ':' ∈ ("r0:" ++ name).toList := by decide
  cases data <;> exact named _ (by simp [EssenceDescriptorData.getTypeAsString])

theorem write_typed {descriptor : IMFEssenceDescriptor} {pt result : PTree}
    (written : descriptor.write pt = .ok result) : ∃ node, essenceDescriptorBaseType node ∧
      result = pt.addChild "EssenceDescriptor" node := by
  obtain ⟨subDescs, -, last⟩ := bind_eq_ok.mp written
  refine ⟨_, ?_, (Except.ok.inj last).symm⟩
  obtain ⟨element, colon⟩ := colon_of_type descriptor.essenceDescriptor
  refine ⟨?_, (OnlyAttributes.empty.put (by decide) [] _).addChild element _⟩
  rw [elements_addChild element, elements_put_empty (by decide)]
  refine .required (text_leaf [] _) (Matches.others_iff.mpr ⟨Nat.zero_le _, ?_⟩)
  intro child member
  rw [List.mem_singleton.mp member]
  exact ⟨colon, trivial⟩

theorem writeAll_typed (resources : List CPLResource) {pt result : PTree}
    (written : resources.foldlM
      (fun pt resource => resource.track.essenceDescriptor.write pt) pt = .ok result) :
    ∃ nodes : List PTree, nodes.length = resources.length ∧
      (∀ node ∈ nodes, essenceDescriptorBaseType node) ∧
      result.elements = pt.elements ++ nodes.map (fun node => ("EssenceDescriptor", node)) ∧
      (pt.OnlyAttributes [] → result.OnlyAttributes []) := by
  induction resources generalizing pt with
  | nil =>
      cases written
      exact ⟨[], rfl, nofun, (List.append_nil _).symm, id⟩
  | cons resource rest ih =>
      rw [List.foldlM_cons] at written
      obtain ⟨middle, first, others⟩ := bind_eq_ok.mp written
      obtain ⟨node, typed, rfl⟩ := write_typed first
      obtain ⟨nodes, length, all, elements, only⟩ := ih others
      refine ⟨node :: nodes, by simp [length], ?_, ?_, fun start => ?_⟩
      · exact List.forall_mem_cons.mpr ⟨typed, all⟩
      · simp [elements, elements_addChild, isElement]
      · exact only (start.addChild (by decide) _)

end IMFEssenceDescriptor

namespace XMLHeaderCompositionPlaylist

variable (header : XMLHeaderCompositionPlaylist)

def elements : List (String × PTree) :=
  optionalLeaf "Annotation" header.annotation ++ [("IssueDate", .leaf header.issueDate)] ++
    optionalLeaf "Issuer" header.issuer ++ optionalLeaf "Creator" header.creator ++
    optionalLeaf "ContentOriginator" header.contentOriginator ++
    [("ContentTitle", .leaf header.contentTitle)] ++ optionalLeaf "ContentKind" header.contentKind

theorem find_write {key : String} (other : key ∉ keys) (tree : PTree) :
    (header.write tree).find key = tree.find key := by
  simp only [keys, List.mem_cons, not_or] at other
  obtain ⟨annotationText, issueDate, issuer, creator, originator, title, kind, -⟩ := other
  simp only [write, find_putNonempty_of_ne kind, find_put_of_ne title,
    find_putNonempty_of_ne originator, find_putNonempty_of_ne creator, find_putNonempty_of_ne issuer,
    find_put_of_ne issueDate, find_putNonempty_of_ne annotationText]

theorem elements_write {tree : PTree} (absent : ∀ key ∈ keys, tree.find key = none) :
    (header.write tree).elements = tree.elements ++ header.elements := by
  simp only [keys, List.forall_mem_cons] at absent
  obtain ⟨annotationText, issueDate, issuer, creator, originator, title, kind, -⟩ := absent
  simp [write, XMLHeaderCompositionPlaylist.elements, elements_put, elements_putNonempty,
    find_put_of_ne, find_putNonempty_of_ne, isElement, annotationText, issueDate, issuer, creator,
    originator, title, kind]

theorem matches_elements {model : List Particle} {children : List (String × PTree)}
    (rest : Matches model children) :
    Matches (.optional "Annotation" userTextType :: .required "IssueDate" (text []) ::
      .optional "Issuer" userTextType :: .optional "Creator" userTextType ::
      .optional "ContentOriginator" userTextType :: .required "ContentTitle" userTextType ::
      .optional "ContentKind" (text ["scope"]) :: model) (header.elements ++ children) := by
  simp only [XMLHeaderCompositionPlaylist.elements, List.append_assoc, List.singleton_append]
  refine .optionalLeaf (text_leaf _ _) (.required (text_leaf _ _) ?_)
  refine .optionalLeaf (text_leaf _ _) (.optionalLeaf (text_leaf _ _) ?_)
  refine .optionalLeaf (text_leaf _ _) (.required (text_leaf _ _) ?_)
  exact .optionalLeaf (text_leaf _ _) rest

theorem onlyAttributes_write {tree : PTree} (only : tree.OnlyAttributes []) :
    (header.write tree).OnlyAttributes [] := by
  unfold write
  refine onlyAttributes_putNonempty ?_ (by decide) _
  refine OnlyAttributes.put ?_ (by decide) [] _
  refine onlyAttributes_putNonempty (onlyAttributes_putNonempty (onlyAttributes_putNonempty
    (OnlyAttributes.put ?_ (by decide) [] _) (by decide) _) (by decide) _) (by decide) _
  exact onlyAttributes_putNonempty only (by decide) _

end XMLHeaderCompositionPlaylist

namespace IMFCompositionPlaylist

variable {playlist : IMFCompositionPlaylist} {tree : PTree}

theorem elements_header (uuid : String) (header : XMLHeaderCompositionPlaylist) :
    let start := header.write (PTree.empty
      |>.put ["<xmlattr>", "xmlns"] "http://www.smpte-ra.org/schemas/2067-3/2013"
      |>.put ["<xmlattr>", "xmlns:xsi"] "http://www.w3.org/2001/XMLSchema-instance"
      |>.put ["<xmlattr>", "xmlns:imf"] "http://www.smpte-ra.org/schemas/2067-2/2013"
      |>.put ["Id"] (uuidStr uuid))
    start.elements = ("Id", .leaf (uuidStr uuid)) :: header.elements ∧ start.OnlyAttributes [] ∧
      start.find "EditRate" = none := by
  refine ⟨?_, header.onlyAttributes_write ?_, ?_⟩
  · rw [header.elements_write (by simp [XMLHeaderCompositionPlaylist.keys, find_put_of_ne])]
    simp [elements_put, elements_put_attribute, find_put_of_ne, isElement]
  · refine OnlyAttributes.put ?_ (by decide) [] _
    refine OnlyAttributes.put_attribute ?_ (by decide) (.inl (by decide)) _
    refine OnlyAttributes.put_attribute ?_ (by decide) (.inl (by decide)) _
    exact OnlyAttributes.empty.put_attribute (by decide) (.inl (by decide)) _
  · rw [header.find_write (by decide)]
    simp [find_put_of_ne]

theorem elements_rest {start : PTree} (only : start.OnlyAttributes [])
    (absent : start.find "EditRate" = none) (editRate : String) (extension segmentList : PTree) :
    let root := ((start.put ["EditRate"] editRate).addChild "ExtensionProperties"
      extension).addChild "SegmentList" segmentList
    root.elements = start.elements ++ [("EditRate", .leaf editRate),
      ("ExtensionProperties", extension), ("SegmentList", segmentList)] ∧
        root.OnlyAttributes [] := by
  refine ⟨?_, OnlyAttributes.addChild (OnlyAttributes.addChild (only.put (by decide) [] _)
    (by decide) _) (by decide) _⟩
  simp [elements_addChild, elements_put absent, isElement]

theorem elements_of_write (written : playlist.write = .ok tree) :
    ∃ (root : PTree) (descriptors : List (String × PTree)),
      tree = PTree.empty.addChild "CompositionPlaylist" root ∧ root.OnlyAttributes [] ∧
      root.elements = ("Id", .leaf (uuidStr playlist.uuid)) :: (playlist.header.elements ++
        (descriptors ++
          [("EditRate", .leaf playlist.editRate.asIMFString),
            ("ExtensionProperties", .node "" [("imf:ApplicationIdentification",
              .leaf "http://www.smpte-ra.org/schemas/2067-21/2016")]),
            ("SegmentList", .node "" (playlist.timeline.map SegmentValue.node))])) ∧
      (descriptors = [] ∨ ∃ list, descriptors = [("EssenceDescriptorList", list)] ∧
        HasContent [] [.repeated "EssenceDescriptor" essenceDescriptorBaseType] list) := by
  unfold write at written
  obtain ⟨essenceDescriptorList, listed, rest⟩ := bind_eq_ok.mp written
  obtain ⟨segmentList, segments, last⟩ := bind_eq_ok.mp rest
  obtain ⟨nodes, length, typed, elements, only⟩ := IMFEssenceDescriptor.writeAll_typed _ listed
  have list : segmentList = .node "" (playlist.timeline.map SegmentValue.node) :=
    playlist.writeSegments_eq_ok playlist.segments segments
  obtain ⟨header, attributes, noRate⟩ := elements_header playlist.uuid playlist.header
  have noDescriptors : (PTree.empty
      |>.put ["<xmlattr>", "xmlns:r0"] "http://www.smpte-ra.org/reg/395/2014/13/1/aaf"
      |>.put ["<xmlattr>", "xmlns:r1"] "http://www.smpte-ra.org/reg/335/2012"
      |>.put ["<xmlattr>", "xmlns:r2"] "http://www.smpte-ra.org/reg/2003/2012").elements = [] := by
    simp [elements_put_attribute, isElement]
  by_cases empty : playlist.resources.isEmpty
  · rw [if_pos empty, list] at last
    obtain ⟨whole, complete⟩ := elements_rest attributes noRate playlist.editRate.asIMFString
      (.node "" [("imf:ApplicationIdentification",
        .leaf "http://www.smpte-ra.org/schemas/2067-21/2016")])
      (.node "" (playlist.timeline.map SegmentValue.node))
    refine ⟨_, [], (Except.ok.inj last).symm, complete, ?_, .inl rfl⟩
    rw [header] at whole
    exact whole
  · rw [if_neg empty, list] at last
    obtain ⟨whole, complete⟩ := elements_rest
      (attributes.addChild (by decide : isElement "EssenceDescriptorList" = true)
        essenceDescriptorList)
      ((find_addChild_of_ne (by decide) _ _).trans noRate) playlist.editRate.asIMFString
      (.node "" [("imf:ApplicationIdentification",
        .leaf "http://www.smpte-ra.org/schemas/2067-21/2016")])
      (.node "" (playlist.timeline.map SegmentValue.node))
    refine ⟨_, [("EssenceDescriptorList", essenceDescriptorList)], (Except.ok.inj last).symm,
      complete, ?_, .inr ⟨_, rfl, ?_, only ?_⟩⟩
    · refine whole.trans ?_
      rw [elements_addChild (by decide), header]
      simp
    · rw [elements, noDescriptors, List.nil_append, Matches.repeated_iff]
      refine ⟨?_, fun child member => ?_⟩
      · rw [List.isEmpty_iff_length_eq_zero, ← length, List.length_eq_zero_iff] at empty
        simpa using empty
      · obtain ⟨node, inside, rfl⟩ := List.mem_map.mp member
        exact ⟨rfl, typed node inside⟩
    · refine OnlyAttributes.put_attribute ?_ (by decide) (.inl (by decide)) _
      refine OnlyAttributes.put_attribute ?_ (by decide) (.inl (by decide)) _
      exact OnlyAttributes.empty.put_attribute (by decide) (.inl (by decide)) _

theorem forall_resources_iff (good : CPLResource → Prop) :
    (∀ resource ∈ playlist.resources, good resource) ↔ ∀ segment ∈ playlist.timeline,
      ∀ sequence ∈ segment.sequences, ∀ resource ∈ sequence.items, good resource := by
  simp only [resources, sequences, timeline, segmentValue, List.mem_flatMap, List.mem_map,
    forall_exists_index, and_imp, forall_apply_eq_imp_iff₂]
  constructor
  · intro all segment member sequence inside resource listed
    exact all resource sequence segment member inside listed
  · intro all resource sequence segment member inside listed
    exact all segment member sequence inside resource listed

theorem segmentListType_iff : HasContent [] [.repeated "Segment" segmentType]
    (.node "" (playlist.timeline.map SegmentValue.node)) ↔ playlist.segments ≠ [] ∧
      ∀ resource ∈ playlist.resources, resource.InRange := by
  have elements : ∀ child ∈ playlist.timeline.map SegmentValue.node,
      isElement child.1 = true := by
    intro child member
    obtain ⟨segment, -, rfl⟩ := List.mem_map.mp member
    exact (by decide : isElement "Segment" = true)
  have nonempty : playlist.timeline.map SegmentValue.node ≠ [] ↔ playlist.segments ≠ [] := by
    simp [timeline]
  rw [forall_resources_iff]
  constructor
  · intro valid
    have content := valid.content
    rw [PTree.elements_of_all "" elements, Matches.repeated_iff] at content
    refine ⟨nonempty.mp content.1, fun segment member => ?_⟩
    exact segment.segmentType_node.mp (content.2 _ (List.mem_map_of_mem member)).2
  · intro range
    refine .of_elements elements (Matches.repeated_iff.mpr ⟨nonempty.mpr range.1, ?_⟩)
    intro child member
    obtain ⟨segment, inside, rfl⟩ := List.mem_map.mp member
    exact ⟨rfl, segment.segmentType_node.mpr (range.2 segment inside)⟩

/-- A written document is valid if and only if the playlist has segments and the numbers
of its resources are in range. -/
theorem validPlaylist_iff (written : playlist.write = .ok tree) :
    ValidPlaylist tree ↔ playlist.segments ≠ [] ∧
      ∀ resource ∈ playlist.resources, resource.InRange := by
  obtain ⟨root, descriptors, rfl, only, elements, described⟩ := elements_of_write written
  have document : (PTree.empty.addChild "CompositionPlaylist" root).elements =
      [("CompositionPlaylist", root)] := by
    simp [elements_addChild, isElement]
  rw [← segmentListType_iff]
  constructor
  · intro valid
    have playlistTyped : compositionPlaylistType root :=
      valid.content.typed_of_mem (by simp) (document ▸ List.mem_singleton_self _)
    have listed : ("SegmentList", .node "" (playlist.timeline.map SegmentValue.node)) ∈
        root.elements := by
      simp [elements]
    exact playlistTyped.content.typed_of_mem (by simp) listed
  · intro list
    have extension : HasContent [] [.others anyType 1] (.node "" [("imf:ApplicationIdentification",
        .leaf "http://www.smpte-ra.org/schemas/2067-21/2016")]) := by
      refine .of_elements (by decide) (Matches.others_iff.mpr ⟨le_rfl, fun child member => ?_⟩)
      rw [List.mem_singleton.mp member]
      exact ⟨(by decide : ':' ∈ "imf:ApplicationIdentification".toList), trivial⟩
    have signatures : Matches [.optional "Signer" anyType, .optional "ds:Signature" anyType] [] :=
      .missing rfl (.missing rfl .nil)
    refine ⟨?_, OnlyAttributes.empty.addChild (by decide) _⟩
    rw [document]
    refine .required ⟨?_, only⟩ .nil
    rw [elements]
    refine .required (text_leaf [] _) (playlist.header.matches_elements (.missing rfl ?_))
    rcases described with rfl | ⟨essenceDescriptorList, rfl, typed⟩
    · exact .missing rfl (.missing rfl (.required (text_leaf [] _) (.missing rfl (.missing rfl
        (.optional extension (.required list signatures))))))
    · exact .optional typed (.missing rfl (.required (text_leaf [] _) (.missing rfl (.missing rfl
        (.optional extension (.required list signatures))))))

end IMFCompositionPlaylist

end Imflib.Package

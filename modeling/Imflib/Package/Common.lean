import Imflib.Base.PropertyTree

/-! What all items of a package share: rational numbers, identifiers, the exceptions of
the model classes and the headers of the XML files. -/

namespace Imflib.Package

inductive Exn where
  | ptreeBadPath (path : List String)
  | ptreeBadData (path : List String)
  | xmlParserError (what : String)
  | badLexicalCast
  | filesystemError (what : String)
  | mxfReaderException (what : String)
  | compositionPlaylistException (what : String)
  | packageException (what : String)
  | invalidReferenceException (what : String)
  deriving DecidableEq, Repr

def Exn.what : Exn → String
  | .ptreeBadPath path => "No such node (" ++ String.intercalate "." path ++ ")"
  | .ptreeBadData _ => "conversion of data to type \"i\" failed"
  | .badLexicalCast =>
      "bad lexical cast: source type value could not be interpreted as target"
  | .xmlParserError what => what
  | .filesystemError what => what
  | .mxfReaderException what => what
  | .compositionPlaylistException what => what
  | .packageException what => what
  | .invalidReferenceException what => what

section Failure

variable {ε α β : Type}

@[simp] theorem ok_bind (value : α) (next : α → Except ε β) :
    (Except.ok value >>= next) = next value := rfl

@[simp] theorem error_bind (error : ε) (next : α → Except ε β) :
    (Except.error error >>= next) = Except.error error := rfl

@[simp] theorem map_ok (value : α) (change : α → β) :
    (Except.ok value : Except ε α).map change = .ok (change value) := rfl

@[simp] theorem map_error (error : ε) (change : α → β) :
    (Except.error error : Except ε α).map change = .error error := rfl

@[simp] theorem pure_eq_ok (value : α) : (pure value : Except ε α) = .ok value := rfl

theorem bind_eq_ok {first : Except ε α} {next : α → Except ε β} {result : β} :
    first >>= next = .ok result ↔ ∃ value, first = .ok value ∧ next value = .ok result := by
  cases first with
  | ok value => simp
  | error error => simp

theorem bind_eq_error {first : Except ε α} {next : α → Except ε β} {error : ε} :
    first >>= next = .error error ↔
      first = .error error ∨ ∃ value, first = .ok value ∧ next value = .error error := by
  cases first with
  | ok value => simp
  | error error => simp

theorem foldlM_eq_error {step : β → α → Except ε β} {items : List α} {start : β} {error only : ε}
    (steps : ∀ item ∈ items, ∀ state error, step state item = .error error → error = only)
    (failed : items.foldlM step start = .error error) : error = only := by
  induction items generalizing start with
  | nil => cases failed
  | cons item rest ih =>
      rw [List.foldlM_cons] at failed
      rcases bind_eq_error.mp failed with atHead | ⟨next, -, later⟩
      · exact steps item List.mem_cons_self start error atHead
      · exact ih (fun other member => steps other (List.mem_cons_of_mem _ member)) later

/-- Every step of a fold that succeeds has succeeded, in a state that meets the invariant. -/
theorem foldlM_eq_ok {step : β → α → Except ε β} {items : List α} {start result : β}
    (invariant : β → Prop) (initially : invariant start)
    (kept : ∀ item state next, invariant state → step state item = .ok next → invariant next)
    (succeeded : items.foldlM step start = .ok result) :
    invariant result ∧ ∀ item ∈ items, ∃ state next, invariant state ∧ step state item = .ok next := by
  induction items generalizing start with
  | nil =>
      cases succeeded
      exact ⟨initially, fun item member => absurd member List.not_mem_nil⟩
  | cons head rest ih =>
      rw [List.foldlM_cons] at succeeded
      obtain ⟨next, atHead, later⟩ := bind_eq_ok.mp succeeded
      obtain ⟨atEnd, others⟩ := ih (kept head start next initially atHead) later
      refine ⟨atEnd, fun item member => ?_⟩
      rcases List.mem_cons.mp member with rfl | inRest
      · exact ⟨start, next, initially, atHead⟩
      · exact others item inRest

theorem foldlM_steps {step : β → α → Except ε β} {items : List α} {start result : β}
    (succeeded : items.foldlM step start = .ok result) :
    ∀ item ∈ items, ∃ state next, step state item = .ok next := by
  intro item member
  obtain ⟨state, next, -, taken⟩ :=
    (foldlM_eq_ok (fun _ => True) trivial (fun _ _ _ _ _ => trivial) succeeded).2 item member
  exact ⟨state, next, taken⟩

end Failure

def ofTree {α : Type} : Except TreeError α → Except Exn α
  | .ok value => .ok value
  | .error (.badPath path) => .error (.ptreeBadPath path)
  | .error (.badData path) => .error (.ptreeBadData path)

/-- `pt.get<std::string>(path)` -/
def getString (path : List String) (tree : PTree) : Except Exn String :=
  ofTree (tree.getString path)

/-- `pt.get<int>(path)` -/
def getInt (path : List String) (tree : PTree) : Except Exn Int32 :=
  ofTree (tree.getInt path)

/-- `pt.get_child(path)` -/
def getChild (path : List String) (tree : PTree) : Except Exn PTree :=
  ofTree (tree.getChild path)

structure RationalNumber where
  num : Int32
  denum : Int32
  deriving DecidableEq, Repr

/-- `boost::lexical_cast<int>` -/
def lexicalCast (text : List Char) : Except Exn Int32 :=
  match Text.readInt32 text with
  | some value => .ok value
  | none => .error .badLexicalCast

theorem lexicalCast_eq_error {text : List Char} {error : Exn}
    (failed : lexicalCast text = .error error) : error = .badLexicalCast := by
  unfold lexicalCast at failed
  split at failed
  · cases failed
  · exact (Except.error.inj failed).symm

namespace RationalNumber

def fromIMFString (s : String) : Except Exn RationalNumber :=
  match Text.splitOn ' ' s.toList with
  | [first, second] => do
      let num ← lexicalCast first
      let denum ← lexicalCast second
      pure ⟨num, denum⟩
  | _ => .ok ⟨0, 0⟩

def asIMFString (r : RationalNumber) : String :=
  String.ofList (Text.decimal r.num.toInt ++ ' ' :: Text.decimal r.denum.toInt)

theorem lexicalCast_decimal (n : Int32) : lexicalCast (Text.decimal n.toInt) = .ok n := by
  rw [lexicalCast, Text.readInt32_decimal]

theorem fromIMFString_asIMFString (r : RationalNumber) : fromIMFString r.asIMFString = .ok r := by
  have noSpace (n : Int) : ' ' ∉ Text.decimal n := Text.not_mem_decimal (by decide) (by decide)
  have pieces : Text.splitOn ' ' (Text.decimal r.num.toInt ++ ' ' :: Text.decimal r.denum.toInt) =
      [Text.decimal r.num.toInt, Text.decimal r.denum.toInt] := by
    rw [Text.splitOn_append _ (noSpace _), Text.splitOn_of_not_mem (noSpace _)]
  rw [fromIMFString, asIMFString, String.toList_ofList, pieces]
  simp only [lexicalCast_decimal]
  rfl

end RationalNumber

def ulStr (ul : String) : String := "urn:smpte:ul:" ++ ul

def uuidStr (uuid : String) : String := "urn:uuid:" ++ uuid

/-- Erase as many characters as `urn:uuid:` has. -/
def uuidClean (s : String) : String := String.ofList (s.toList.drop "urn:uuid:".toList.length)

@[simp] theorem uuidClean_uuidStr (uuid : String) : uuidClean (uuidStr uuid) = uuid := by
  simp [uuidClean, uuidStr]

theorem uuidStr_injective : Function.Injective uuidStr := by
  intro first second same
  rw [← uuidClean_uuidStr first, same, uuidClean_uuidStr]

def putNonempty (key : String) (value : String) (tree : PTree) : PTree :=
  if value = "" then tree else tree.put [key] value

@[simp] theorem getChild?_putNonempty_of_ne {key other : String} (different : other ≠ key)
    (rest : List String) (value : String) (tree : PTree) :
    (putNonempty key value tree).getChild? (other :: rest) = tree.getChild? (other :: rest) := by
  unfold putNonempty
  split
  · rfl
  · exact PTree.getChild?_put_of_ne different [] rest value tree

@[simp] theorem text?_putNonempty_of_ne {key other : String} (different : other ≠ key)
    (rest : List String) (value : String) (tree : PTree) :
    (putNonempty key value tree).text? (other :: rest) = tree.text? (other :: rest) := by
  simp [PTree.text?, different]

@[simp] theorem getStringD_putNonempty_of_ne {key other : String} (different : other ≠ key)
    (rest : List String) (value fallback : String) (tree : PTree) :
    (putNonempty key value tree).getStringD (other :: rest) fallback =
      tree.getStringD (other :: rest) fallback := by
  simp [PTree.getStringD_eq, different]

theorem getStringD_putNonempty_self (key value : String) (tree : PTree)
    (absent : tree.text? [key] = none) :
    (putNonempty key value tree).getStringD [key] "" = value := by
  rw [PTree.getStringD_eq]
  unfold putNonempty
  split
  · rename_i empty
    simp [absent, empty]
  · simp

theorem putNonempty_empty (key : String) (tree : PTree) : putNonempty key "" tree = tree :=
  if_pos rfl

theorem text?_putNonempty_self {key value : String} (nonempty : value ≠ "") (tree : PTree) :
    (putNonempty key value tree).text? [key] = some value := by
  rw [putNonempty, if_neg nonempty, PTree.text?_put_self]

theorem getString_eq (path : List String) (tree : PTree) :
    getString path tree = match tree.text? path with
      | some value => .ok value
      | none => .error (.ptreeBadPath path) := by
  unfold getString PTree.getString PTree.getChild PTree.text?
  cases tree.getChild? path <;> rfl

theorem getInt_eq (path : List String) (tree : PTree) :
    getInt path tree = match tree.text? path with
      | none => .error (.ptreeBadPath path)
      | some text => match Text.readInt32 (Text.trim text.toList) with
        | some value => .ok value
        | none => .error (.ptreeBadData path) := by
  unfold getInt PTree.getInt PTree.getChild PTree.text?
  cases tree.getChild? path with
  | none => rfl
  | some child =>
      have read : child.readInt = Text.readInt32 (Text.trim child.data.toList) := rfl
      simp only [Except.bind, Option.map_some, read]
      cases Text.readInt32 (Text.trim child.data.toList) <;> rfl

theorem getString_of_text {path : List String} {tree : PTree} {value : String}
    (present : tree.text? path = some value) : getString path tree = .ok value := by
  simp [getString, PTree.getString_of_text present, ofTree]

theorem getInt_of_text {path : List String} {tree : PTree} {value : Int32}
    (present : tree.text? path = some (String.ofList (Text.decimal value.toInt))) :
    getInt path tree = .ok value := by
  simp [getInt, PTree.getInt_of_text present, ofTree]

theorem text_of_getString {path : List String} {tree : PTree} {value : String}
    (read : getString path tree = .ok value) : tree.text? path = some value := by
  rw [getString_eq] at read
  cases present : tree.text? path with
  | none => simp [present] at read
  | some text =>
      simp only [present] at read
      rw [Except.ok.inj read]

theorem getStringD_of_getString {path : List String} {tree : PTree} {value : String}
    (read : getString path tree = .ok value) (fallback : String) :
    tree.getStringD path fallback = value := by
  rw [PTree.getStringD_eq, text_of_getString read]
  rfl

theorem some_of_getChild {path : List String} {tree child : PTree}
    (read : getChild path tree = .ok child) : tree.getChild? path = some child := by
  unfold getChild PTree.getChild at read
  cases present : tree.getChild? path with
  | none =>
      rw [present] at read
      cases read
  | some node =>
      rw [present] at read
      rw [Except.ok.inj read]

theorem getIntD_of_getInt {path : List String} {tree : PTree} {value : Int32}
    (read : getInt path tree = .ok value) (fallback : Int32) :
    tree.getIntD path fallback = value := by
  unfold getInt PTree.getInt PTree.getChild at read
  unfold PTree.getIntD
  cases present : tree.getChild? path with
  | none =>
      rw [present] at read
      cases read
  | some child =>
      cases number : child.readInt with
      | none =>
          simp [present, number, Except.bind, ofTree] at read
      | some text =>
          simp [present, number, Except.bind, ofTree] at read
          simp [number, read]

theorem getChild_of_some {path : List String} {tree child : PTree}
    (present : tree.getChild? path = some child) : getChild path tree = .ok child := by
  simp [getChild, PTree.getChild, present, ofTree]

structure XMLHeaderAssetMap where
  annotation : String
  issuer : String
  creator : String
  issueDate : String
  volumeCount : Int32
  deriving DecidableEq, Repr

namespace XMLHeaderAssetMap

def standard : XMLHeaderAssetMap :=
  { annotation := "For testing purposes only"
    issuer := "ContentCoders (Research and Development)"
    creator := "ODMedia IMF Suite dev-0.1"
    issueDate := "2017-03-01T21:56:47.4247570Z"
    volumeCount := 1 }

def write (header : XMLHeaderAssetMap) (tree : PTree) : PTree :=
  let tree := putNonempty "AnnotationText" header.annotation tree
  let tree := putNonempty "Creator" header.creator tree
  -- Only the creator depends on the condition above these two.
  let tree := tree.putInt ["VolumeCount"] header.volumeCount.toInt
  let tree := tree.put ["IssueDate"] header.issueDate
  putNonempty "Issuer" header.issuer tree

def read (tree : PTree) : Except Exn XMLHeaderAssetMap := do
  let annotationText := tree.getStringD ["AnnotationText"] ""
  let creator ← getString ["Creator"] tree
  let volumeCount ← getInt ["VolumeCount"] tree
  let issueDate ← getString ["IssueDate"] tree
  let issuer ← getString ["Issuer"] tree
  pure ⟨annotationText, issuer, creator, issueDate, volumeCount⟩

def keys : List String := ["AnnotationText", "Creator", "VolumeCount", "IssueDate", "Issuer"]

theorem read_congr {first second : PTree}
    (same : ∀ key ∈ keys, first.text? [key] = second.text? [key]) : read first = read second := by
  simp only [keys, List.forall_mem_cons] at same
  obtain ⟨annotationText, creator, volumeCount, issueDate, issuer, -⟩ := same
  simp only [read, getString_eq, getInt_eq, PTree.getStringD_eq, annotationText, creator, volumeCount,
    issueDate, issuer]

theorem read_write {header : XMLHeaderAssetMap} (creator : header.creator ≠ "")
    (issuer : header.issuer ≠ "") (tree : PTree) (absent : tree.text? ["AnnotationText"] = none) :
    read (header.write tree) = .ok header := by
  have annotation : (header.write tree).getStringD ["AnnotationText"] "" = header.annotation := by
    simp [write, getStringD_putNonempty_self, absent]
  have readCreator : getString ["Creator"] (header.write tree) = .ok header.creator :=
    getString_of_text (by simp [write, text?_putNonempty_self creator])
  have volumeCount : getInt ["VolumeCount"] (header.write tree) = .ok header.volumeCount :=
    getInt_of_text (by simp [write])
  have issueDate : getString ["IssueDate"] (header.write tree) = .ok header.issueDate :=
    getString_of_text (by simp [write])
  have readIssuer : getString ["Issuer"] (header.write tree) = .ok header.issuer :=
    getString_of_text (by simp [write, text?_putNonempty_self issuer])
  simp [read, annotation, readCreator, volumeCount, issueDate, readIssuer]

theorem texts_of_read {tree : PTree} {header : XMLHeaderAssetMap} (done : read tree = .ok header) :
    tree.text? ["Creator"] = some header.creator ∧ tree.text? ["Issuer"] = some header.issuer := by
  obtain ⟨creator, readCreator, done⟩ := bind_eq_ok.mp done
  obtain ⟨volumeCount, -, done⟩ := bind_eq_ok.mp done
  obtain ⟨issueDate, -, done⟩ := bind_eq_ok.mp done
  obtain ⟨issuer, readIssuer, done⟩ := bind_eq_ok.mp done
  cases Except.ok.inj done
  exact ⟨text_of_getString readCreator, text_of_getString readIssuer⟩

theorem read_write_iff {header : XMLHeaderAssetMap} {tree : PTree}
    (absent : ∀ key ∈ keys, tree.text? [key] = none) :
    read (header.write tree) = .ok header ↔ header.creator ≠ "" ∧ header.issuer ≠ "" := by
  have noCreator : tree.text? ["Creator"] = none := absent "Creator" (by decide)
  have noIssuer : tree.text? ["Issuer"] = none := absent "Issuer" (by decide)
  constructor
  · intro done
    have texts := texts_of_read done
    constructor
    · intro empty
      have missing : (header.write tree).text? ["Creator"] = none := by
        simp [write, empty, putNonempty_empty, noCreator]
      rw [missing] at texts
      cases texts.1
    · intro empty
      have missing : (header.write tree).text? ["Issuer"] = none := by
        simp [write, empty, putNonempty_empty, noIssuer]
      rw [missing] at texts
      cases texts.2
  · intro nonempty
    exact read_write nonempty.1 nonempty.2 tree (absent "AnnotationText" (by decide))

end XMLHeaderAssetMap

structure XMLHeaderCompositionPlaylist where
  annotation : String
  issuer : String
  creator : String
  contentOriginator : String
  contentKind : String
  issueDate : String
  contentTitle : String
  deriving DecidableEq, Repr

namespace XMLHeaderCompositionPlaylist

def standard : XMLHeaderCompositionPlaylist :=
  { annotation := "For testing purposes only"
    issuer := "ContentCoders (Research and Development)"
    creator := "ODMedia IMF Suite dev-0.1"
    contentOriginator := ""
    contentKind := "TestPackage"
    issueDate := "2017-03-01T21:56:47.4247570Z"
    contentTitle := "CONTENT_TITLE" }

def write (header : XMLHeaderCompositionPlaylist) (tree : PTree) : PTree :=
  let tree := putNonempty "Annotation" header.annotation tree
  let tree := tree.put ["IssueDate"] header.issueDate
  let tree := putNonempty "Issuer" header.issuer tree
  let tree := putNonempty "Creator" header.creator tree
  let tree := putNonempty "ContentOriginator" header.contentOriginator tree
  let tree := tree.put ["ContentTitle"] header.contentTitle
  putNonempty "ContentKind" header.contentKind tree

def read (tree : PTree) : Except Exn XMLHeaderCompositionPlaylist := do
  let annotationText := tree.getStringD ["Annotation"] ""
  let issueDate ← getString ["IssueDate"] tree
  let issuer := tree.getStringD ["Issuer"] ""
  let creator := tree.getStringD ["Creator"] ""
  let contentOriginator := tree.getStringD ["ContentOriginator"] ""
  let contentTitle ← getString ["ContentTitle"] tree
  let contentKind := tree.getStringD ["ContentKind"] ""
  pure ⟨annotationText, issuer, creator, contentOriginator, contentKind, issueDate, contentTitle⟩

def keys : List String :=
  ["Annotation", "IssueDate", "Issuer", "Creator", "ContentOriginator", "ContentTitle",
    "ContentKind"]

theorem read_congr {first second : PTree}
    (same : ∀ key ∈ keys, first.text? [key] = second.text? [key]) : read first = read second := by
  simp only [keys, List.forall_mem_cons] at same
  obtain ⟨annotationText, issueDate, issuer, creator, contentOriginator, contentTitle, contentKind,
    -⟩ := same
  simp only [read, getString_eq, PTree.getStringD_eq, annotationText, issueDate, issuer, creator,
    contentOriginator, contentTitle, contentKind]

theorem read_write (header : XMLHeaderCompositionPlaylist) (tree : PTree)
    (absent : ∀ key ∈ keys, tree.text? [key] = none) : read (header.write tree) = .ok header := by
  simp only [keys, List.forall_mem_cons] at absent
  obtain ⟨noAnnotationText, -, noIssuer, noCreator, noOriginator, -, noKind, -⟩ := absent
  have issueDate : getString ["IssueDate"] (header.write tree) = .ok header.issueDate :=
    getString_of_text (by simp [write])
  have contentTitle : getString ["ContentTitle"] (header.write tree) = .ok header.contentTitle :=
    getString_of_text (by simp [write])
  have annotation : (header.write tree).getStringD ["Annotation"] "" = header.annotation := by
    simp [write, getStringD_putNonempty_self, noAnnotationText]
  have issuer : (header.write tree).getStringD ["Issuer"] "" = header.issuer := by
    simp [write, getStringD_putNonempty_self, noIssuer]
  have creator : (header.write tree).getStringD ["Creator"] "" = header.creator := by
    simp [write, getStringD_putNonempty_self, noCreator]
  have contentOriginator : (header.write tree).getStringD ["ContentOriginator"] "" =
      header.contentOriginator := by
    simp [write, getStringD_putNonempty_self, noOriginator]
  have contentKind : (header.write tree).getStringD ["ContentKind"] "" = header.contentKind := by
    simp [write, getStringD_putNonempty_self, noKind]
  simp [read, issueDate, contentTitle, annotation, issuer, creator, contentOriginator, contentKind]

end XMLHeaderCompositionPlaylist

/-- Creator and issuer of an asset map are left out where they are empty, but have to be there.
All other fields of both headers are read back as they were. -/
theorem headers_read_back_iff (assetMap : XMLHeaderAssetMap) (playlist : XMLHeaderCompositionPlaylist) :
    (XMLHeaderAssetMap.read (assetMap.write .empty) = .ok assetMap ∧
      XMLHeaderCompositionPlaylist.read (playlist.write .empty) = .ok playlist) ↔
      assetMap.creator ≠ "" ∧ assetMap.issuer ≠ "" := by
  have playlistBack : XMLHeaderCompositionPlaylist.read (playlist.write .empty) = .ok playlist :=
    XMLHeaderCompositionPlaylist.read_write playlist .empty fun _ _ => rfl
  rw [and_iff_left playlistBack]
  exact XMLHeaderAssetMap.read_write_iff fun _ _ => rfl

/-- A header that was read with an empty creator is not read again. -/
theorem header_not_read_back : ¬ ∀ (assetMap : XMLHeaderAssetMap)
    (playlist : XMLHeaderCompositionPlaylist),
    XMLHeaderAssetMap.read (assetMap.write .empty) = .ok assetMap ∧
      XMLHeaderCompositionPlaylist.read (playlist.write .empty) = .ok playlist := by
  intro readBack
  have standard := (readBack { XMLHeaderAssetMap.standard with creator := "" } .standard).1
  have creator := (XMLHeaderAssetMap.read_write_iff fun _ _ => rfl).mp standard
  exact creator.1 rfl

structure XMLHeaderPackageList where
  issuer : String
  creator : String
  issueDate : String
  deriving DecidableEq, Repr

namespace XMLHeaderPackageList

def standard : XMLHeaderPackageList :=
  { issuer := "ContentCoders (Research and Development)"
    creator := "ODMedia IMF Suite dev-0.1"
    issueDate := "2017-03-01T21:56:47.4247570Z" }

def write (header : XMLHeaderPackageList) (tree : PTree) : PTree :=
  let tree := tree.put ["IssueDate"] header.issueDate
  let tree := putNonempty "Issuer" header.issuer tree
  putNonempty "Creator" header.creator tree

end XMLHeaderPackageList

end Imflib.Package

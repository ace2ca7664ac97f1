import Imflib.Base.PropertyTree

/-! Content models of XML elements, over the property trees that XML is read into. Attributes
and comments are children there too, under keys in angle brackets. -/

namespace Imflib

/-- A run of elements: their names, how many there may be, and what each has to be. -/
structure Particle where
  named : String → Bool
  least : Nat
  most : Option Nat
  type : PTree → Prop

namespace Particle

variable (name : String) (type : PTree → Prop)

def required : Particle := ⟨fun other => other = name, 1, some 1, type⟩

def optional : Particle := ⟨fun other => other = name, 0, some 1, type⟩

def repeated : Particle := ⟨fun other => other = name, 1, none, type⟩

/-- `<xs:any namespace="##other">`: elements of other namespaces, which are named with a
prefix. -/
def others (least : Nat) : Particle := ⟨fun other => ':' ∈ other.toList, least, none, type⟩

@[simp] theorem named_required (other : String) :
    (required name type).named other = decide (other = name) := rfl

@[simp] theorem named_optional (other : String) :
    (optional name type).named other = decide (other = name) := rfl

@[simp] theorem named_repeated (other : String) :
    (repeated name type).named other = decide (other = name) := rfl

@[simp] theorem named_others (least : Nat) (other : String) :
    (others type least).named other = decide (':' ∈ other.toList) := rfl

@[simp] theorem type_others (least : Nat) : (others type least).type = type := rfl

@[simp] theorem type_required : (required name type).type = type := rfl

@[simp] theorem type_optional : (optional name type).type = type := rfl

@[simp] theorem type_repeated : (repeated name type).type = type := rfl

end Particle

/-- Particles are matched one after another, each by a run of children. -/
inductive Matches : List Particle → List (String × PTree) → Prop where
  | nil : Matches [] []
  | cons {particle : Particle} {model : List Particle} {run rest : List (String × PTree)}
      (named : ∀ child ∈ run, particle.named child.1)
      (typed : ∀ child ∈ run, particle.type child.2)
      (least : particle.least ≤ run.length)
      (most : ∀ bound ∈ particle.most, run.length ≤ bound)
      (others : Matches model rest) : Matches (particle :: model) (run ++ rest)

def isElement (key : String) : Bool := key.toList.head? ≠ some '<'

def PTree.elements (tree : PTree) : List (String × PTree) :=
  tree.children.filter fun child => isElement child.1

/-- Declarations of namespaces and the attributes of schema instances may stand anywhere. -/
def isNamespaceAttribute (name : String) : Bool :=
  name = "xmlns" || "xmlns:".toList.isPrefixOf name.toList || "xsi:".toList.isPrefixOf name.toList

/-- What is no element has attributes of the given names only. -/
def PTree.OnlyAttributes (attributes : List String) (tree : PTree) : Prop :=
  ∀ child ∈ tree.children, isElement child.1 = false →
    ∀ entry ∈ child.2.children, isNamespaceAttribute entry.1 ∨ entry.1 ∈ attributes

structure HasContent (attributes : List String) (model : List Particle) (tree : PTree) : Prop where
  content : Matches model tree.elements
  attributes : tree.OnlyAttributes attributes

structure HasText (attributes : List String) (valid : String → Prop) (tree : PTree) : Prop where
  simple : HasContent attributes [] tree
  text : valid tree.data

def PTree.leaf (text : String) : PTree := .node text []

def optionalLeaf (key text : String) : List (String × PTree) :=
  if text = "" then [] else [(key, .leaf text)]

def numberOf (text : String) : Option Int := Text.readDecimal (Text.trim text.toList)

def positiveInteger (text : String) : Prop := ∃ n, numberOf text = some n ∧ 0 < n

def nonNegativeInteger (text : String) : Prop := ∃ n, numberOf text = some n ∧ 0 ≤ n

def boolean (text : String) : Prop :=
  String.ofList (Text.trim text.toList) ∈ ["true", "false", "1", "0"]

def isHexDigit (c : Char) : Bool := c.isDigit || ('a' ≤ c && c ≤ 'f') || ('A' ≤ c && c ≤ 'F')

/-- `urn:uuid:` and five groups of hexadecimal digits. -/
def isUUID (text : String) : Bool :=
  let text := Text.trim text.toList
  let groups := Text.splitOn '-' (text.drop "urn:uuid:".toList.length)
  "urn:uuid:".toList.isPrefixOf text && groups.map List.length == [8, 4, 4, 4, 12] &&
    groups.all fun group => group.all isHexDigit

def PTree.numberAt (path : List String) (tree : PTree) : Option Int :=
  (tree.text? path).bind numberOf

variable {model : List Particle} {children : List (String × PTree)} {name : String}

theorem PTree.mem_of_findChild {child : PTree} (found : findChild name children = some child) :
    (name, child) ∈ children := by
  induction children with
  | nil => cases found
  | cons entry rest ih =>
      simp only [findChild] at found
      split at found
      · rename_i same
        rw [← same, ← Option.some.inj found]
        exact List.mem_cons_self
      · exact List.mem_cons_of_mem _ (ih found)

theorem PTree.findChild_isSome {child : PTree} (member : (name, child) ∈ children) :
    ∃ first, findChild name children = some first := by
  induction children with
  | nil => exact absurd member List.not_mem_nil
  | cons entry rest ih =>
      simp only [findChild]
      split
      · exact ⟨_, rfl⟩
      · rename_i different
        rcases List.mem_cons.mp member with rfl | inRest
        · exact absurd rfl different
        · exact ih inRest

theorem PTree.getChild?_cons {key : String} {tree child : PTree} (found : tree.find key = some child)
    (path : List String) : tree.getChild? (key :: path) = child.getChild? path := by
  rw [getChild?, found, Option.bind_some]

theorem PTree.text?_cons {key : String} {tree child : PTree} (found : tree.find key = some child)
    (path : List String) : tree.text? (key :: path) = child.text? path := by
  rw [text?, getChild?_cons found, text?]

theorem PTree.findChild_elements (element : isElement name = true) (tree : PTree) :
    findChild name tree.elements = tree.find name := by
  unfold elements find
  induction tree.children with
  | nil => rfl
  | cons entry rest ih =>
      by_cases same : entry.1 = name
      · simp [findChild, same, element]
      · by_cases other : isElement entry.1 = true
        · simpa [findChild, same, other] using ih
        · simpa [findChild, same, other] using ih

namespace Matches

theorem typed_of_mem {good : PTree → Prop} (matched : Matches model children)
    (only : ∀ particle ∈ model, particle.named name → ∀ tree, particle.type tree → good tree)
    {child : PTree} (member : (name, child) ∈ children) : good child := by
  induction matched with
  | nil => exact absurd member List.not_mem_nil
  | cons named typed _ _ _ ih =>
      rcases List.mem_append.mp member with inRun | inRest
      · exact only _ List.mem_cons_self (named _ inRun) child (typed _ inRun)
      · exact ih (fun particle inModel => only particle (List.mem_cons_of_mem _ inModel)) inRest

theorem present {type : PTree → Prop} (matched : Matches model children)
    (member : Particle.required name type ∈ model) :
    ∃ child, PTree.findChild name children = some child := by
  induction matched with
  | nil => exact absurd member List.not_mem_nil
  | @cons particle model run rest named typed least most others ih =>
      rcases List.mem_cons.mp member with rfl | inModel
      · obtain ⟨first, inRun⟩ := List.exists_mem_of_length_pos least
        have same : first.1 = name := of_decide_eq_true (named first inRun)
        have inside : (name, first.2) ∈ run ++ rest :=
          same ▸ List.mem_append_left rest inRun
        exact PTree.findChild_isSome inside
      · obtain ⟨child, found⟩ := ih inModel
        exact PTree.findChild_isSome (List.mem_append_right run (PTree.mem_of_findChild found))

theorem repeated_iff {type : PTree → Prop} :
    Matches [.repeated name type] children ↔
      children ≠ [] ∧ ∀ child ∈ children, child.1 = name ∧ type child.2 := by
  constructor
  · intro matched
    rcases matched with _ | ⟨named, typed, least, _, ⟨⟩⟩
    rw [List.append_nil]
    exact ⟨List.ne_nil_of_length_pos least,
      fun child member => ⟨of_decide_eq_true (named child member), typed child member⟩⟩
  · intro holds
    rw [← List.append_nil children]
    refine .cons ?_ (fun child member => (holds.2 child member).2)
      (List.length_pos_iff.mpr holds.1) nofun .nil
    exact fun child member => decide_eq_true (holds.2 child member).1

theorem single {particle : Particle} {child : PTree} (named : particle.named name)
    (typed : particle.type child) (least : particle.least ≤ 1)
    (most : ∀ bound ∈ particle.most, 1 ≤ bound) (others : Matches model children) :
    Matches (particle :: model) ((name, child) :: children) := by
  refine @cons particle model [(name, child)] children ?_ ?_ least most others
  · intro entry member
    rwa [List.mem_singleton.mp member]
  · intro entry member
    rwa [List.mem_singleton.mp member]

theorem required {type : PTree → Prop} {child : PTree} (typed : type child)
    (others : Matches model children) :
    Matches (.required name type :: model) ((name, child) :: children) :=
  single (decide_eq_true rfl) typed le_rfl (by simp [Particle.required]) others

theorem optional {type : PTree → Prop} {child : PTree} (typed : type child)
    (others : Matches model children) :
    Matches (.optional name type :: model) ((name, child) :: children) :=
  single (decide_eq_true rfl) typed (Nat.zero_le 1) (by simp [Particle.optional]) others

theorem missing {particle : Particle} (least : particle.least = 0)
    (others : Matches model children) : Matches (particle :: model) children :=
  @cons particle model [] children nofun nofun (Nat.le_of_eq least) (fun _ _ => Nat.zero_le _) others

theorem repeated_singleton {type : PTree → Prop} {child : PTree} (typed : type child) :
    Matches [.repeated name type] [(name, child)] :=
  repeated_iff.mpr ⟨List.cons_ne_nil _ _, fun entry member => by
    rw [List.mem_singleton.mp member]
    exact ⟨rfl, typed⟩⟩

end Matches

theorem PTree.elements_of_all {children : List (String × PTree)} (data : String)
    (all : ∀ child ∈ children, isElement child.1 = true) :
    (node data children).elements = children :=
  List.filter_eq_self.mpr all

theorem HasText.leaf {attributes : List String} {valid : String → Prop} {text : String}
    (holds : valid text) : HasText attributes valid (.node text []) :=
  ⟨⟨.nil, nofun⟩, holds⟩

namespace HasContent

variable {attributes : List String} {tree : PTree}

theorem of_elements {data : String} (all : ∀ child ∈ children, isElement child.1 = true)
    (matched : Matches model children) : HasContent attributes model (.node data children) := by
  refine ⟨by rwa [PTree.elements_of_all data all], fun child member noElement => ?_⟩
  rw [all child member] at noElement
  cases noElement

theorem present {type : PTree → Prop} (valid : HasContent attributes model tree)
    (element : isElement name = true) (member : Particle.required name type ∈ model) :
    ∃ child, tree.find name = some child := by
  obtain ⟨child, found⟩ := valid.content.present member
  exact ⟨child, by rw [← PTree.findChild_elements element, found]⟩

theorem required {type : PTree → Prop} (valid : HasContent attributes model tree)
    (element : isElement name = true) (member : Particle.required name type ∈ model)
    (only : ∀ particle ∈ model, particle.named name → ∀ tree, particle.type tree → type tree) :
    ∃ child, tree.find name = some child ∧ type child := by
  obtain ⟨child, found⟩ := valid.present element member
  refine ⟨child, found, valid.content.typed_of_mem only ?_⟩
  rw [← PTree.findChild_elements element] at found
  exact PTree.mem_of_findChild found

theorem optional {type : PTree → Prop} (valid : HasContent attributes model tree)
    (element : isElement name = true)
    (only : ∀ particle ∈ model, particle.named name → ∀ tree, particle.type tree → type tree)
    {child : PTree} (found : tree.find name = some child) : type child := by
  rw [← PTree.findChild_elements element] at found
  exact valid.content.typed_of_mem only (PTree.mem_of_findChild found)

theorem find_attribute (valid : HasContent attributes model tree) {child : String × PTree}
    (member : child ∈ tree.children) (noElement : isElement child.1 = false)
    (foreign : isNamespaceAttribute name = false) (absent : name ∉ attributes) :
    child.2.find name = none := by
  cases found : child.2.find name with
  | none => rfl
  | some inner =>
      rcases valid.attributes child member noElement _ (PTree.mem_of_findChild found) with space | own
      · rw [foreign] at space
        cases space
      · exact absurd own absent

end HasContent

namespace PTree

variable {tree : PTree} {key : String}

theorem modifyChild_of_absent (absent : findChild key children = none) (change : PTree → PTree) :
    modifyChild key change children = children ++ [(key, change empty)] := by
  induction children with
  | nil => rfl
  | cons entry rest ih =>
      by_cases same : entry.1 = key
      · simp [findChild, same] at absent
      · simp only [findChild, same, if_false] at absent
        simp [modifyChild, same, ih absent]

@[simp] theorem elements_empty : empty.elements = [] := rfl

theorem elements_put (absent : tree.find key = none) (element : isElement key = true)
    (value : String) : (tree.put [key] value).elements = tree.elements ++ [(key, .leaf value)] := by
  have children : (tree.put [key] value).children = tree.children ++ [(key, .leaf value)] :=
    modifyChild_of_absent absent _
  simp [elements, children, element]

theorem elements_put_empty (element : isElement key = true) (value : String) :
    (empty.put [key] value).elements = [(key, .leaf value)] :=
  elements_put rfl element value

theorem elements_addChild (element : isElement key = true) (child : PTree) :
    (tree.addChild key child).elements = tree.elements ++ [(key, child)] := by
  simp [elements, addChild, element]

theorem elements_put_attribute (noElement : isElement key = false) (path : List String)
    (value : String) : (tree.put (key :: path) value).elements = tree.elements := by
  have kept : (modifyChild key (modify path fun tree => node value tree.children)
      tree.children).filter (fun child => isElement child.1) =
        tree.children.filter fun child => isElement child.1 := by
    induction tree.children with
    | nil => simp [modifyChild, noElement]
    | cons entry rest ih =>
        by_cases same : entry.1 = key
        · simp [modifyChild, same, noElement]
        · simp [modifyChild, same, List.filter_cons, ih]
  exact kept

theorem mem_modifyChild {change : PTree → PTree} {child : String × PTree}
    (member : child ∈ modifyChild key change children) :
    child ∈ children ∨ child.1 = key ∧ ∃ old, child.2 = change old ∧
      (old = empty ∨ (key, old) ∈ children) := by
  induction children with
  | nil =>
      rw [List.mem_singleton.mp member]
      exact .inr ⟨rfl, empty, rfl, .inl rfl⟩
  | cons entry rest ih =>
      simp only [modifyChild] at member
      split at member
      · rename_i same
        rcases List.mem_cons.mp member with rfl | inRest
        · exact .inr ⟨same, entry.2, rfl, .inr (same ▸ List.mem_cons_self)⟩
        · exact .inl (List.mem_cons_of_mem _ inRest)
      · rcases List.mem_cons.mp member with rfl | inRest
        · exact .inl List.mem_cons_self
        · rcases ih inRest with old | ⟨same, old, value, before⟩
          · exact .inl (List.mem_cons_of_mem _ old)
          · exact .inr ⟨same, old, value, before.imp_right (List.mem_cons_of_mem _)⟩

namespace OnlyAttributes

variable {attributes : List String}

theorem empty : OnlyAttributes attributes .empty := nofun

theorem put (only : OnlyAttributes attributes tree) (element : isElement key = true)
    (path : List String) (value : String) :
    OnlyAttributes attributes (tree.put (key :: path) value) := by
  intro child member noElement
  rcases mem_modifyChild member with old | ⟨same, -⟩
  · exact only child old noElement
  · rw [same, element] at noElement
    cases noElement

theorem put_attribute (only : OnlyAttributes attributes tree) {name : String}
    (noElement : isElement key = false) (known : isNamespaceAttribute name ∨ name ∈ attributes)
    (value : String) : OnlyAttributes attributes (tree.put [key, name] value) := by
  intro child member _ entry inside
  rcases mem_modifyChild member with old | ⟨same, old, changed, before⟩
  · exact only child old ‹_› entry inside
  · rw [changed] at inside
    rcases mem_modifyChild inside with earlier | ⟨named, -⟩
    · rcases before with rfl | listed
      · cases earlier
      · exact only (key, old) listed noElement entry earlier
    · rwa [named]

theorem addChild (only : OnlyAttributes attributes tree) (element : isElement key = true)
    (child : PTree) : OnlyAttributes attributes (tree.addChild key child) := by
  intro other member noElement
  rcases List.mem_append.mp member with old | new
  · exact only other old noElement
  · rw [List.mem_singleton.mp new, element] at noElement
    cases noElement

end OnlyAttributes

theorem find_put_of_ne {other : String} (different : other ≠ key) (path : List String)
    (value : String) : (tree.put (key :: path) value).find other = tree.find other :=
  findChild_modifyChild_of_ne different _ _

end PTree

namespace Matches

theorem optionalLeaf {type : PTree → Prop} {text : String} (typed : type (.leaf text))
    (rest : Matches model children) :
    Matches (.optional name type :: model) (Imflib.optionalLeaf name text ++ children) := by
  unfold Imflib.optionalLeaf
  split
  · exact missing rfl rest
  · exact optional typed rest

theorem optionalLeaf_last {type : PTree → Prop} {text : String} (typed : type (.leaf text)) :
    Matches [.optional name type] (Imflib.optionalLeaf name text) := by
  rw [← List.append_nil (Imflib.optionalLeaf name text)]
  exact optionalLeaf typed .nil

theorem others_iff {type : PTree → Prop} {least : Nat} :
    Matches [.others type least] children ↔
      least ≤ children.length ∧ ∀ child ∈ children, ':' ∈ child.1.toList ∧ type child.2 := by
  constructor
  · intro matched
    rcases matched with _ | ⟨named, typed, least, _, ⟨⟩⟩
    rw [List.append_nil]
    exact ⟨least, fun child member => ⟨of_decide_eq_true (named child member), typed child member⟩⟩
  · intro holds
    rw [← List.append_nil children]
    exact .cons (fun child member => decide_eq_true (holds.2 child member).1)
      (fun child member => (holds.2 child member).2) holds.1 nofun .nil

end Matches

end Imflib

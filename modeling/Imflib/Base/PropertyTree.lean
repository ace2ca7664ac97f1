import Imflib.Base.Text

/-! Trees of keyed children with text at every node, read and written along paths of
keys. Several children may have the same key, and a path follows the first one. -/

namespace Imflib

inductive PTree where
  | node (data : String) (children : List (String × PTree))

/-- Reading fails where there is no node, or where its text has not the wanted form. -/
inductive TreeError where
  | badPath (path : List String)
  | badData (path : List String)
  deriving DecidableEq, Repr

namespace PTree

def data : PTree → String
  | node data _ => data

def children : PTree → List (String × PTree)
  | node _ children => children

def empty : PTree := node "" []

instance : Inhabited PTree := ⟨empty⟩

def findChild (key : String) : List (String × PTree) → Option PTree
  | [] => none
  | (other, child) :: rest => if other = key then some child else findChild key rest

/-- Change the first child with a key, or append one that is changed from empty. -/
def modifyChild (key : String) (change : PTree → PTree) :
    List (String × PTree) → List (String × PTree)
  | [] => [(key, change empty)]
  | (other, child) :: rest =>
      if other = key then (other, change child) :: rest
      else (other, child) :: modifyChild key change rest

def find (key : String) (tree : PTree) : Option PTree := findChild key tree.children

def modify : List String → (PTree → PTree) → PTree → PTree
  | [], change, tree => change tree
  | key :: path, change, tree => node tree.data (modifyChild key (modify path change) tree.children)

def put (path : List String) (value : String) : PTree → PTree :=
  modify path fun tree => node value tree.children

/-- Append a child, whether there is one with its key or not. -/
def addChild (tree : PTree) (key : String) (child : PTree) : PTree :=
  node tree.data (tree.children ++ [(key, child)])

def getChild? : List String → PTree → Option PTree
  | [], tree => some tree
  | key :: path, tree => (tree.find key).bind (getChild? path)

def getChild (path : List String) (tree : PTree) : Except TreeError PTree :=
  match tree.getChild? path with
  | some child => .ok child
  | none => .error (.badPath path)

def getString (path : List String) (tree : PTree) : Except TreeError String :=
  (tree.getChild path).map (·.data)

def getStringD (path : List String) (fallback : String) (tree : PTree) : String :=
  match tree.getChild? path with
  | some child => child.data
  | none => fallback

def readInt (tree : PTree) : Option Int32 := Text.readInt32 (Text.trim tree.data.toList)

def getInt (path : List String) (tree : PTree) : Except TreeError Int32 :=
  (tree.getChild path).bind fun child =>
    match child.readInt with
    | some value => .ok value
    | none => .error (.badData path)

/-- The fallback also stands in for a text that is no number. -/
def getIntD (path : List String) (fallback : Int32) (tree : PTree) : Int32 :=
  ((tree.getChild? path).bind readInt).getD fallback

def putInt (path : List String) (value : Int) : PTree → PTree :=
  put path (String.ofList (Text.decimal value))

@[simp] theorem data_node (data : String) (children : List (String × PTree)) :
    (node data children).data = data := rfl

@[simp] theorem children_node (data : String) (children : List (String × PTree)) :
    (node data children).children = children := rfl

@[simp] theorem find_empty (key : String) : find key empty = none := rfl

@[simp] theorem children_empty : empty.children = [] := rfl

theorem findChild_modifyChild_self (key : String) (change : PTree → PTree)
    (children : List (String × PTree)) :
    findChild key (modifyChild key change children) =
      some (change ((findChild key children).getD empty)) := by
  induction children with
  | nil => simp [modifyChild, findChild]
  | cons entry rest ih =>
      by_cases same : entry.1 = key
      · simp [modifyChild, findChild, same]
      · simpa [modifyChild, findChild, same] using ih

theorem findChild_modifyChild_of_ne {key other : String} (different : other ≠ key)
    (change : PTree → PTree) (children : List (String × PTree)) :
    findChild other (modifyChild key change children) = findChild other children := by
  induction children with
  | nil => simp [modifyChild, findChild, Ne.symm different]
  | cons entry rest ih =>
      by_cases same : entry.1 = key
      · simp [modifyChild, findChild, same, Ne.symm different]
      · simp [modifyChild, findChild, same, ih]

theorem findChild_append (key : String) (front back : List (String × PTree)) :
    findChild key (front ++ back) = (findChild key front).or (findChild key back) := by
  induction front with
  | nil => simp [findChild]
  | cons entry rest ih =>
      by_cases same : entry.1 = key
      · simp [findChild, same]
      · simpa [findChild, same] using ih

theorem find_addChild_self (key : String) (child tree : PTree) :
    find key (tree.addChild key child) = some ((find key tree).getD child) := by
  simp only [find, addChild, children_node, findChild_append]
  cases findChild key tree.children <;> simp [findChild]

theorem find_addChild_of_ne {key other : String} (different : other ≠ key) (child tree : PTree) :
    find other (tree.addChild key child) = find other tree := by
  simp [find, addChild, findChild_append, findChild, Ne.symm different]

theorem getChild?_modify_of_ne {key other : String} (different : other ≠ key)
    (path rest : List String) (change : PTree → PTree) (tree : PTree) :
    getChild? (other :: rest) (modify (key :: path) change tree) =
      getChild? (other :: rest) tree := by
  simp [getChild?, modify, find, findChild_modifyChild_of_ne different]

theorem getChild?_modify_self (path : List String) (change : PTree → PTree) (tree : PTree) :
    getChild? path (modify path change tree) = some (change ((getChild? path tree).getD empty)) := by
  induction path generalizing tree with
  | nil => rfl
  | cons key path ih =>
      simp only [getChild?, modify, find, children_node, findChild_modifyChild_self,
        Option.bind_some, ih]
      cases findChild key tree.children with
      | some child => rfl
      | none =>
          cases path <;> rfl

theorem getChild?_modify_beside {key other : String} (different : other ≠ key) (first : String)
    (path rest : List String) (change : PTree → PTree) (tree : PTree) :
    getChild? (first :: other :: rest) (modify (first :: key :: path) change tree) =
      getChild? (first :: other :: rest) tree := by
  have descend (tree : PTree) : getChild? (first :: other :: rest) tree =
      (findChild first tree.children).bind (getChild? (other :: rest)) := rfl
  rw [descend, descend, modify, children_node, findChild_modifyChild_self, Option.bind_some,
    getChild?_modify_of_ne different]
  cases findChild first tree.children with
  | none => rfl
  | some child => rfl

def text? (path : List String) (tree : PTree) : Option String := (tree.getChild? path).map (·.data)

theorem getStringD_eq (path : List String) (fallback : String) (tree : PTree) :
    tree.getStringD path fallback = (tree.text? path).getD fallback := by
  unfold getStringD text?
  cases tree.getChild? path <;> rfl

theorem getIntD_eq (path : List String) (fallback : Int32) (tree : PTree) :
    tree.getIntD path fallback =
      ((tree.text? path).bind fun text => Text.readInt32 (Text.trim text.toList)).getD fallback := by
  unfold getIntD text?
  cases tree.getChild? path <;> rfl

theorem getString_of_text {path : List String} {tree : PTree} {value : String}
    (present : tree.text? path = some value) : tree.getString path = .ok value := by
  obtain ⟨child, found, same⟩ := Option.map_eq_some_iff.mp present
  simp [getString, getChild, found, Except.map, same]

theorem getInt_of_text {path : List String} {tree : PTree} {value : Int32}
    (present : tree.text? path = some (String.ofList (Text.decimal value.toInt))) :
    tree.getInt path = .ok value := by
  obtain ⟨child, found, same⟩ := Option.map_eq_some_iff.mp present
  simp [getInt, getChild, found, Except.bind, readInt, same]

theorem getIntD_of_text {path : List String} {tree : PTree} {value : Int32} (fallback : Int32)
    (present : tree.text? path = some (String.ofList (Text.decimal value.toInt))) :
    tree.getIntD path fallback = value := by
  obtain ⟨child, found, same⟩ := Option.map_eq_some_iff.mp present
  simp [getIntD, found, readInt, same]

@[simp] theorem text?_put_self (path : List String) (value : String) (tree : PTree) :
    text? path (put path value tree) = some value := by
  simp [text?, put, getChild?_modify_self]

@[simp] theorem text?_putInt_self (path : List String) (value : Int) (tree : PTree) :
    text? path (putInt path value tree) = some (String.ofList (Text.decimal value)) :=
  text?_put_self path _ tree

@[simp] theorem getChild?_put_of_ne {key other : String} (different : other ≠ key)
    (path rest : List String) (value : String) (tree : PTree) :
    getChild? (other :: rest) (put (key :: path) value tree) = getChild? (other :: rest) tree :=
  getChild?_modify_of_ne different path rest _ tree

@[simp] theorem getChild?_putInt_of_ne {key other : String} (different : other ≠ key)
    (path rest : List String) (value : Int) (tree : PTree) :
    getChild? (other :: rest) (putInt (key :: path) value tree) = getChild? (other :: rest) tree :=
  getChild?_modify_of_ne different path rest _ tree

@[simp] theorem text?_put_of_ne {key other : String} (different : other ≠ key)
    (path rest : List String) (value : String) (tree : PTree) :
    text? (other :: rest) (put (key :: path) value tree) = text? (other :: rest) tree := by
  simp [text?, different]

@[simp] theorem text?_putInt_of_ne {key other : String} (different : other ≠ key)
    (path rest : List String) (value : Int) (tree : PTree) :
    text? (other :: rest) (putInt (key :: path) value tree) = text? (other :: rest) tree :=
  text?_put_of_ne different path rest _ tree

@[simp] theorem getStringD_put_of_ne {key other : String} (different : other ≠ key)
    (path rest : List String) (value fallback : String) (tree : PTree) :
    getStringD (other :: rest) fallback (put (key :: path) value tree) =
      getStringD (other :: rest) fallback tree := by
  simp [getStringD_eq, different]

@[simp] theorem getStringD_putInt_of_ne {key other : String} (different : other ≠ key)
    (path rest : List String) (value : Int) (fallback : String) (tree : PTree) :
    getStringD (other :: rest) fallback (putInt (key :: path) value tree) =
      getStringD (other :: rest) fallback tree :=
  getStringD_put_of_ne different path rest _ fallback tree

@[simp] theorem getChild?_addChild_of_ne {key other : String} (different : other ≠ key)
    (rest : List String) (child tree : PTree) :
    getChild? (other :: rest) (tree.addChild key child) = getChild? (other :: rest) tree := by
  simp [getChild?, find_addChild_of_ne different]

@[simp] theorem text?_addChild_of_ne {key other : String} (different : other ≠ key)
    (rest : List String) (child tree : PTree) :
    text? (other :: rest) (tree.addChild key child) = text? (other :: rest) tree := by
  simp [text?, different]

theorem addChild_injective {tree first second : PTree} {key : String}
    (same : tree.addChild key first = tree.addChild key second) : first = second := by
  simp only [addChild, node.injEq, true_and, List.append_cancel_left_eq] at same
  simpa using same

theorem getChild?_addChild_self {key : String} (rest : List String) (child tree : PTree)
    (first : tree.getChild? [key] = none) :
    getChild? (key :: rest) (tree.addChild key child) = getChild? rest child := by
  have absent : find key tree = none := by simpa [getChild?] using first
  simp [getChild?, find_addChild_self, absent]

@[simp] theorem getChild?_empty (key : String) (rest : List String) :
    getChild? (key :: rest) empty = none := rfl

@[simp] theorem text?_empty (key : String) (rest : List String) :
    text? (key :: rest) empty = none := rfl

theorem foldl_addChild {α : Type*} (key : α → String) (child : α → PTree) (items : List α)
    (tree : PTree) :
    items.foldl (fun tree item => tree.addChild (key item) (child item)) tree =
      node tree.data (tree.children ++ items.map fun item => (key item, child item)) := by
  induction items generalizing tree with
  | nil => cases tree; simp
  | cons item items ih =>
      rw [List.foldl_cons, ih]
      simp [addChild]

end PTree

end Imflib

import Imflib.Package.EssenceDescriptor

/-! The texts of a JPEG 2000 descriptor in the form that the MXF library encodes them, and what
becomes of them in a playlist. -/

namespace Imflib.Package

structure ComponentSizing where
  ssiz : UInt8
  xrSiz : UInt8
  yrSiz : UInt8
  deriving DecidableEq, Repr

namespace ComponentSizing

variable (component : ComponentSizing)

def bytes : List UInt8 := [component.ssiz, component.xrSiz, component.yrSiz]

def bigEndian (n : Nat) : List UInt8 :=
  [UInt8.ofNat (n / 2 ^ 24), UInt8.ofNat (n / 2 ^ 16), UInt8.ofNat (n / 2 ^ 8), UInt8.ofNat n]

/-- How many items an array has, and how many bytes each of them. -/
def arrayHeader (count itemSize : Nat) : List UInt8 := bigEndian count ++ bigEndian itemSize

def sizingText (components : List ComponentSizing) : String :=
  String.ofList (Text.hexText (arrayHeader components.length 3 ++ components.flatMap bytes))

def numberText (n : Nat) : String := String.ofList (Text.decimal n)

def numbers : Nat × Nat × Nat :=
  (component.ssiz.toNat, component.xrSiz.toNat, component.yrSiz.toNat)

def texts (values : Nat × Nat × Nat) : String × Option String × Option String × Option String :=
  ("r2:J2KComponentSizing", some (numberText values.1), some (numberText values.2.1),
    some (numberText values.2.2))

def textsOf (child : String × PTree) : String × Option String × Option String × Option String :=
  (child.1, child.2.text? ["r2:Ssiz"], child.2.text? ["r2:XRSiz"], child.2.text? ["r2:YRSiz"])

/-- One child is added for each component, in their order and with their values. -/
def SizingWritten (components : List ComponentSizing) (pt : PTree) : Prop :=
  ∃ tree, writePictureComponentSizing (sizingText components) pt =
      .ok (pt.addChild "r1:PictureComponentSizing" tree) ∧
    tree.children.map textsOf = components.map fun component => texts component.numbers

def readByte (byte : UInt8) : Nat := 10 * (byte.toNat / 16) + byte.toNat % 16

theorem readByte_le (byte : UInt8) : readByte byte ≤ byte.toNat := by
  unfold readByte
  omega

theorem lexicalCast_hexByte (byte : UInt8) : lexicalCast (Text.hexByte byte) =
    if byte.toNat / 16 < 10 ∧ byte.toNat % 16 < 10 then .ok (Int32.ofInt (readByte byte))
    else .error .badLexicalCast := by
  rw [lexicalCast, Text.readInt32_hexByte]
  by_cases decimal : byte.toNat / 16 < 10 ∧ byte.toNat % 16 < 10
  · rw [if_pos decimal, if_pos decimal]
    rfl
  · rw [if_neg decimal, if_neg decimal]

theorem toInt_readByte (byte : UInt8) : (Int32.ofInt (readByte byte)).toInt = readByte byte := by
  have small := readByte_le byte
  have bound := byte.toNat_lt
  apply Int32.toInt_ofInt_of_le <;> omega

theorem lexicalCast_small {byte : UInt8} (small : byte < 10) :
    lexicalCast (Text.hexByte byte) = .ok (Int32.ofInt byte.toNat) := by
  have bound : byte.toNat < 10 := UInt8.lt_iff_toNat_lt.mp small
  have read : readByte byte = byte.toNat := by
    unfold readByte
    omega
  rw [lexicalCast_hexByte, if_pos, read]
  constructor <;> omega

theorem decimal_of_lexicalCast {byte : UInt8} {value : Int32}
    (read : lexicalCast (Text.hexByte byte) = .ok value) :
    byte.toNat % 16 < 10 ∧ value.toInt = readByte byte := by
  rw [lexicalCast_hexByte] at read
  split at read
  · rename_i decimal
    cases Except.ok.inj read
    exact ⟨decimal.2, toInt_readByte byte⟩
  · cases read

def readNumbers : Nat × Nat × Nat :=
  (readByte component.ssiz, readByte component.xrSiz, readByte component.yrSiz)

def sizingNode : Except Exn PTree := do
  let yrSiz ← lexicalCast (Text.hexByte component.yrSiz)
  let xrSiz ← lexicalCast (Text.hexByte component.xrSiz)
  let ssiz ← lexicalCast (Text.hexByte component.ssiz)
  pure (PTree.empty
    |>.putInt ["r2:YRSiz"] yrSiz.toInt
    |>.putInt ["r2:XRSiz"] xrSiz.toInt
    |>.putInt ["r2:Ssiz"] ssiz.toInt)

def backwards : List Char := (Text.hexText component.bytes).reverse

theorem componentSizings_eq (components : List ComponentSizing) {header : List Char}
    (digits : header.length = 16) :
    componentSizings (components.flatMap backwards ++ header) = components.mapM sizingNode := by
  induction components with
  | nil =>
      obtain ⟨a, b, c, d, e, f, rest, rfl⟩ : ∃ a b c d e f rest,
          header = a :: b :: c :: d :: e :: f :: rest := by
        rcases header with _ | ⟨a, _ | ⟨b, _ | ⟨c, _ | ⟨d, _ | ⟨e, _ | ⟨f, rest⟩⟩⟩⟩⟩⟩ <;>
          first
            | exact ⟨a, b, c, d, e, f, rest, rfl⟩
            | simp at digits
      have last : ¬ rest.length + 6 > 3 * 6 := by
        simp only [List.length_cons] at digits
        omega
      rw [List.flatMap_nil, List.nil_append, componentSizings, if_neg last]
      rfl
  | cons component rest ih =>
      have more : (rest.flatMap backwards ++ header).length + 6 > 3 * 6 := by
        rw [List.length_append, digits]
        omega
      have digits : (component :: rest).flatMap backwards ++ header =
          (component.yrSiz.toNat % 16).digitChar :: (component.yrSiz.toNat / 16).digitChar ::
          (component.xrSiz.toNat % 16).digitChar :: (component.xrSiz.toNat / 16).digitChar ::
          (component.ssiz.toNat % 16).digitChar :: (component.ssiz.toNat / 16).digitChar ::
          (rest.flatMap backwards ++ header) := rfl
      rw [digits, componentSizings, if_pos more, ih, List.mapM_cons]
      simp only [sizingNode, bind_assoc, pure_bind]
      rfl

theorem reverse_sizingText (components : List ComponentSizing) :
    ∃ header : List Char, header.length = 16 ∧
      (sizingText components).toList.reverse = components.reverse.flatMap backwards ++ header := by
  refine ⟨(Text.hexText (arrayHeader components.length 3)).reverse, rfl, ?_⟩
  rw [sizingText, String.toList_ofList, Text.hexText, List.flatMap_append, List.reverse_append,
    List.flatMap_assoc, List.reverse_flatMap]
  rfl

theorem numberText_injective : Function.Injective numberText := by
  intro first second same
  have read := congrArg (fun text : String => Text.readDecimal text.toList) same
  simp only [numberText, String.toList_ofList, Text.readDecimal_decimal] at read
  exact Int.ofNat_inj.mp (Option.some.inj read)

theorem texts_injective : Function.Injective texts := by
  intro first second same
  simp only [texts, Prod.mk.injEq, Option.some.injEq, true_and] at same
  obtain ⟨ssiz, xrSiz, yrSiz⟩ := same
  exact Prod.ext (numberText_injective ssiz)
    (Prod.ext (numberText_injective xrSiz) (numberText_injective yrSiz))

def Decimal : Prop :=
  component.ssiz.toNat % 16 < 10 ∧ component.xrSiz.toNat % 16 < 10 ∧ component.yrSiz.toNat % 16 < 10

/-- All values are below ten. -/
def Small : Prop := component.ssiz < 10 ∧ component.xrSiz < 10 ∧ component.yrSiz < 10

variable {component}

theorem textsOf_sizingNode {node : PTree} (made : component.sizingNode = .ok node) :
    textsOf ("r2:J2KComponentSizing", node) = texts component.readNumbers ∧ component.Decimal := by
  obtain ⟨yrSiz, readYR, made⟩ := bind_eq_ok.mp made
  obtain ⟨xrSiz, readXR, made⟩ := bind_eq_ok.mp made
  obtain ⟨ssiz, readS, made⟩ := bind_eq_ok.mp made
  cases Except.ok.inj made
  obtain ⟨decimalYR, valueYR⟩ := decimal_of_lexicalCast readYR
  obtain ⟨decimalXR, valueXR⟩ := decimal_of_lexicalCast readXR
  obtain ⟨decimalS, valueS⟩ := decimal_of_lexicalCast readS
  refine ⟨?_, decimalS, decimalXR, decimalYR⟩
  simp [textsOf, texts, readNumbers, numberText, valueYR, valueXR, valueS]

theorem sizingNode_of_small (small : component.Small) :
    ∃ node, component.sizingNode = .ok node := by
  obtain ⟨smallS, smallXR, smallYR⟩ := small
  simp only [sizingNode, lexicalCast_small smallS, lexicalCast_small smallXR,
    lexicalCast_small smallYR, ok_bind, pure_eq_ok]
  exact ⟨_, rfl⟩

theorem readNumbers_of_small (small : component.Small) :
    component.readNumbers = component.numbers := by
  have kept {byte : UInt8} (small : byte < 10) : readByte byte = byte.toNat := by
    have bound : byte.toNat < 10 := UInt8.lt_iff_toNat_lt.mp small
    unfold readByte
    omega
  rw [readNumbers, numbers, kept small.1, kept small.2.1, kept small.2.2]

theorem small_of_readNumbers (decimal : component.Decimal)
    (kept : component.readNumbers = component.numbers) : component.Small := by
  have small {byte : UInt8} (digit : byte.toNat % 16 < 10) (same : readByte byte = byte.toNat) :
      byte < 10 := by
    apply UInt8.lt_iff_toNat_lt.mpr
    change byte.toNat < 10
    unfold readByte at same
    omega
  simp only [readNumbers, numbers, Prod.mk.injEq] at kept
  exact ⟨small decimal.1 kept.1, small decimal.2.1 kept.2.1, small decimal.2.2 kept.2.2⟩

theorem textsOf_sizingNodes {components : List ComponentSizing} {nodes : List PTree}
    (made : components.mapM sizingNode = .ok nodes) :
    (nodes.map fun node => textsOf ("r2:J2KComponentSizing", node)) =
      components.map (fun component => texts component.readNumbers) ∧
    ∀ component ∈ components, component.Decimal := by
  induction components generalizing nodes with
  | nil =>
      cases made
      exact ⟨rfl, nofun⟩
  | cons component rest ih =>
      rw [List.mapM_cons] at made
      obtain ⟨node, first, made⟩ := bind_eq_ok.mp made
      obtain ⟨others, later, made⟩ := bind_eq_ok.mp made
      cases Except.ok.inj made
      obtain ⟨text, decimal⟩ := textsOf_sizingNode first
      obtain ⟨texts, decimals⟩ := ih later
      exact ⟨congrArg₂ List.cons text texts, List.forall_mem_cons.mpr ⟨decimal, decimals⟩⟩

theorem sizingNodes_of_small {components : List ComponentSizing}
    (small : ∀ component ∈ components, component.Small) :
    ∃ nodes, components.mapM sizingNode = .ok nodes := by
  induction components with
  | nil => exact ⟨[], rfl⟩
  | cons component rest ih =>
      obtain ⟨firstSmall, restSmall⟩ := List.forall_mem_cons.mp small
      obtain ⟨node, first⟩ := sizingNode_of_small firstSmall
      obtain ⟨others, later⟩ := ih restSmall
      rw [List.mapM_cons, first, later]
      exact ⟨node :: others, rfl⟩

theorem writePictureComponentSizing_eq (components : List ComponentSizing) (pt : PTree) :
    writePictureComponentSizing (sizingText components) pt =
      components.reverse.mapM sizingNode >>= fun nodes =>
        .ok (pt.addChild "r1:PictureComponentSizing"
          (.node "" (nodes.map fun node => ("r2:J2KComponentSizing", node)))) := by
  obtain ⟨header, digits, text⟩ := reverse_sizingText components
  rw [writePictureComponentSizing, text, componentSizings_eq _ digits]
  simp only [PTree.foldl_addChild]
  rfl

theorem eq_of_reverse {α : Type} {items : List α} {value shrunk : α → Nat}
    (shrinks : ∀ item ∈ items, shrunk item ≤ value item)
    (same : items.map value = items.reverse.map shrunk) : ∀ item ∈ items, shrunk item = value item := by
  have sums : (items.map value).sum = (items.map shrunk).sum := by
    rw [same]
    exact ((List.reverse_perm items).map shrunk).sum_eq
  intro item member
  by_contra different
  have less := lt_of_le_of_ne (shrinks item member) different
  have below := List.sum_lt_sum shrunk value shrinks ⟨item, member, less⟩
  omega

theorem readNumbers_of_reverse {components : List ComponentSizing}
    (same : components.map numbers = components.reverse.map readNumbers) :
    ∀ component ∈ components, component.readNumbers = component.numbers := by
  have each (value : Nat × Nat × Nat → Nat)
      (shrinks : ∀ component : ComponentSizing, value component.readNumbers ≤ value component.numbers) :
      ∀ component ∈ components, value component.readNumbers = value component.numbers := by
    apply eq_of_reverse fun component _ => shrinks component
    have projected := congrArg (List.map value) same
    rwa [List.map_map, List.map_map] at projected
  intro component member
  have ssiz := each Prod.fst (fun component => readByte_le component.ssiz) component member
  have xrSiz := each (·.2.1) (fun component => readByte_le component.xrSiz) component member
  have yrSiz := each (·.2.2) (fun component => readByte_le component.yrSiz) component member
  exact Prod.ext ssiz (Prod.ext xrSiz yrSiz)

theorem numbers_injective : Function.Injective numbers := by
  intro first second same
  simp only [numbers, Prod.mk.injEq, UInt8.toNat_inj] at same
  cases first
  cases second
  simp_all

/-- Written as they are stored, the components have values that are read as they are in reverse. -/
theorem SizingWritten.values {components : List ComponentSizing} {pt : PTree}
    (written : SizingWritten components pt) :
    components.map numbers = components.reverse.map readNumbers ∧
      ∀ component ∈ components, component.Decimal := by
  obtain ⟨tree, written, same⟩ := written
  rw [writePictureComponentSizing_eq] at written
  obtain ⟨nodes, made, written⟩ := bind_eq_ok.mp written
  cases PTree.addChild_injective (Except.ok.inj written)
  obtain ⟨read, decimal⟩ := textsOf_sizingNodes made
  refine ⟨?_, fun component member => decimal component (List.mem_reverse.mpr member)⟩
  apply texts_injective.list_map
  rw [List.map_map, List.map_map]
  calc
    _ = (nodes.map fun node => ("r2:J2KComponentSizing", node)).map textsOf := same.symm
    _ = nodes.map (fun node => textsOf ("r2:J2KComponentSizing", node)) := List.map_map
    _ = _ := read

theorem SizingWritten.reverse_eq {components : List ComponentSizing} {pt : PTree}
    (written : SizingWritten components pt) : components.reverse = components := by
  have values := written.values.1
  apply numbers_injective.list_map
  rw [values]
  exact List.map_congr_left fun component member =>
    (readNumbers_of_reverse values component (List.mem_reverse.mp member)).symm

theorem sizingWritten_of_palindrome {components : List ComponentSizing}
    (palindrome : components.reverse = components)
    (small : ∀ component ∈ components, component.Small) (pt : PTree) :
    SizingWritten components pt := by
  unfold SizingWritten
  rw [writePictureComponentSizing_eq, palindrome]
  obtain ⟨nodes, made⟩ := sizingNodes_of_small small
  refine ⟨.node "" (nodes.map fun node => ("r2:J2KComponentSizing", node)), ?_, ?_⟩
  · rw [made]
    rfl
  · calc
      _ = nodes.map (fun node => textsOf ("r2:J2KComponentSizing", node)) := List.map_map
      _ = components.map (fun component => texts component.readNumbers) :=
        (textsOf_sizingNodes made).1
      _ = _ := List.map_congr_left fun component member => by
        rw [readNumbers_of_small (small component member)]

/-- The children are added from the last component to the first, and the hexadecimal digits of
their values are read as decimal numbers. -/
theorem sizing_written_iff (components : List ComponentSizing) (pt : PTree) :
    SizingWritten components pt ↔
      components.reverse = components ∧ ∀ component ∈ components, component.Small := by
  constructor
  · intro written
    obtain ⟨values, decimal⟩ := written.values
    have kept := readNumbers_of_reverse values
    exact ⟨written.reverse_eq, fun component member =>
      small_of_readNumbers (decimal component member) (kept component member)⟩
  · rintro ⟨palindrome, small⟩
    exact sizingWritten_of_palindrome palindrome small pt

/-- Twelve bits, one sample for each pixel. The stored value is one less, 0b in hexadecimal. -/
def twelveBit : ComponentSizing := ⟨11, 1, 1⟩

/-- The sizing of three such components is not written. -/
theorem sizing_not_written : ¬ ∀ (components : List ComponentSizing) (pt : PTree),
    components ≠ [] → SizingWritten components pt := by
  intro written
  have three := written [twelveBit, twelveBit, twelveBit] .empty (List.cons_ne_nil _ _)
  have small := ((sizing_written_iff _ _).mp three).2 twelveBit List.mem_cons_self
  exact absurd small.1 (by decide)

end ComponentSizing

/-- `RGBALayoutTable`, without the descriptions. -/
def rgbaLayoutTable : List (UInt8 × Char) :=
  [(0x52, 'R'), (0x47, 'G'), (0x42, 'B'), (0x41, 'A'), (0x72, 'r'), (0x67, 'g'), (0x62, 'b'),
    (0x61, 'a'), (0x46, 'F'), (0x50, 'P'), (0x55, 'U'), (0x56, 'V'), (0x57, 'W'), (0x58, 'X'),
    (0x59, 'Y'), (0x5a, 'Z'), (0x75, 'u'), (0x76, 'v'), (0x77, 'w'), (0x78, 'x'), (0x79, 'y'),
    (0x7a, 'z'), (0xd8, 'X'), (0xd9, 'Y'), (0xda, 'Z')]

def getCharForCode (c : UInt8) : Char :=
  match rgbaLayoutTable.find? fun entry => entry.1 == c with
  | some entry => entry.2
  | none => '_'

/-- Pairs of a code and a depth. A code of zero ends them. -/
structure RGBALayout where
  value : List UInt8
  length : value.length = 16

namespace RGBALayout

def encodeComponents : List UInt8 → List (List Char)
  | code :: depth :: rest =>
      if code = 0 then []
      else (getCharForCode code :: '(' :: (Text.digits depth.toNat ++ [')'])) :: encodeComponents rest
  | _ => []

theorem encodeComponents_end (rest : List UInt8) : encodeComponents (0 :: rest) = [] := by
  cases rest <;> rfl

/-- The characters that are put into the buffer of the caller. No terminator is put behind them. -/
def encodeString (layout : RGBALayout) : List Char :=
  List.intercalate [' '] (encodeComponents layout.value)

end RGBALayout

inductive LayoutCode where
  | red
  | green
  | blue
  | luma
  | colorDifferenceU
  | colorDifferenceV

namespace LayoutCode

def byte : LayoutCode → UInt8
  | red => 0x52
  | green => 0x47
  | blue => 0x42
  | luma => 0x59
  | colorDifferenceU => 0x55
  | colorDifferenceV => 0x56

def name : LayoutCode → String
  | red => "CompRed"
  | green => "CompGreen"
  | blue => "CompBlue"
  | luma => "CompLuma"
  | colorDifferenceU => "CompColorDifferenceU"
  | colorDifferenceV => "CompColorDifferenceV"

end LayoutCode

structure LayoutEntry where
  code : LayoutCode
  depth : UInt8
  least : 1 ≤ depth
  most : depth ≤ 32

/-- A layout of three components. What stands behind the end is not used. -/
def RGBALayout.three (first second third : LayoutEntry) (unused : Vector UInt8 9) : RGBALayout where
  value := [first.code.byte, first.depth, second.code.byte, second.depth, third.code.byte,
    third.depth, 0] ++ unused.toList
  length := by simp

namespace LayoutEntry

variable (entry : LayoutEntry)

def text : List Char :=
  getCharForCode entry.code.byte :: '(' :: (Text.digits entry.depth.toNat ++ [')'])

def texts : String × Option String × Option String :=
  ("r2:RGBAComponent", some entry.code.name, some (ComponentSizing.numberText entry.depth.toNat))

end LayoutEntry

def layoutTexts (child : String × PTree) : String × Option String × Option String :=
  (child.1, child.2.text? ["r2:Code"], child.2.text? ["r2:ComponentSize"])

def ReadsInside (text : List Char) : Prop :=
  ∀ index < 3, ∀ position < 6, 6 * index + position < text.length

/-- A text is not left, and eight children are added: those of the entries, and five for nothing. -/
def LayoutWritten (entries : List LayoutEntry) (text : List Char) (pt : PTree) : Prop :=
  ReadsInside text ∧ ∃ tree,
    writeJ2CLayout (String.ofList text) pt = pt.addChild "r1:J2CLayout" tree ∧
    tree.children.map layoutTexts = entries.map LayoutEntry.texts ++
      List.replicate 5 ("r2:RGBAComponent", some "CompNull", some "0")

theorem encodeString_three (first second third : LayoutEntry) (unused : Vector UInt8 9) :
    (RGBALayout.three first second third unused).encodeString =
      first.text ++ ' ' :: (second.text ++ ' ' :: third.text) := by
  have coded (code : LayoutCode) : code.byte ≠ 0 := by
    cases code <;> decide
  simp [RGBALayout.encodeString, RGBALayout.three, RGBALayout.encodeComponents,
    RGBALayout.encodeComponents_end, coded, List.intercalate, LayoutEntry.text]

theorem readsInside_iff (text : List Char) : ReadsInside text ↔ 18 ≤ text.length := by
  constructor
  · intro inside
    have last := inside 2 (by decide) 5 (by decide)
    omega
  · intro long index third position sixth
    omega

theorem writeJ2CLayout_eq (text : List Char) (pt : PTree) :
    writeJ2CLayout (String.ofList text) pt = pt.addChild "r1:J2CLayout"
      (.node "" (([text.take 6, (text.drop 6).take 6, (text.drop 12).take 6].map fun piece =>
        ("r2:RGBAComponent", layoutComponent piece)) ++
          List.replicate 5 ("r2:RGBAComponent", compNull))) := by
  rw [writeJ2CLayout, String.toList_ofList, PTree.foldl_addChild]
  rfl

def shown (piece : List Char) : String × Option String × Option String :=
  layoutTexts ("r2:RGBAComponent", layoutComponent piece)

theorem layoutWritten_iff (first second third : LayoutEntry) (text : List Char) (pt : PTree) :
    LayoutWritten [first, second, third] text pt ↔ 18 ≤ text.length ∧
      shown (text.take 6) = first.texts ∧ shown ((text.drop 6).take 6) = second.texts ∧
      shown ((text.drop 12).take 6) = third.texts := by
  have children : (PTree.node "" (([text.take 6, (text.drop 6).take 6, (text.drop 12).take 6].map
      fun piece => ("r2:RGBAComponent", layoutComponent piece)) ++
        List.replicate 5 ("r2:RGBAComponent", compNull))).children.map layoutTexts =
      [shown (text.take 6), shown ((text.drop 6).take 6), shown ((text.drop 12).take 6)] ++
        List.replicate 5 ("r2:RGBAComponent", some "CompNull", some "0") := rfl
  have pieces : [shown (text.take 6), shown ((text.drop 6).take 6), shown ((text.drop 12).take 6)] =
      [first, second, third].map LayoutEntry.texts ↔
      shown (text.take 6) = first.texts ∧ shown ((text.drop 6).take 6) = second.texts ∧
        shown ((text.drop 12).take 6) = third.texts := by
    simp
  unfold LayoutWritten
  rw [readsInside_iff, writeJ2CLayout_eq, ← pieces]
  apply and_congr_right
  intro _
  constructor
  · rintro ⟨tree, written, same⟩
    rw [← PTree.addChild_injective written, children] at same
    exact List.append_cancel_right same
  · intro same
    exact ⟨_, rfl, children.trans (congrArg (· ++ _) same)⟩

theorem shown_parenthesis (rest : List Char) :
    shown ('(' :: rest) = ("r2:RGBAComponent", none, none) := rfl

theorem findIdx?_digits {c : Char} (other : c.isDigit = false) {digits : List Char}
    (onlyDigits : ∀ d ∈ digits, d.isDigit) (rest : List Char) :
    (digits ++ c :: rest).findIdx? (· == c) = some digits.length := by
  induction digits with
  | nil => simp [List.findIdx?_cons]
  | cons d digits ih =>
      obtain ⟨isDigit, onlyDigits⟩ := List.forall_mem_cons.mp onlyDigits
      have different : (d == c) = false := by
        apply beq_eq_false_iff_ne.mpr
        rintro rfl
        rw [other] at isDigit
        cases isDigit
      simp [List.findIdx?_cons, different, ih onlyDigits]

theorem shown_piece (code : LayoutCode) {digits : List Char} (onlyDigits : ∀ d ∈ digits, d.isDigit)
    (short : digits.length < 2 ^ 31) (rest : List Char) :
    shown (getCharForCode code.byte :: '(' :: (digits ++ ')' :: rest)) =
      ("r2:RGBAComponent", some code.name, some (String.ofList digits)) := by
  have symbol : getCharForCode code.byte ≠ '(' ∧ getCharForCode code.byte ≠ ')' ∧
      compMap (getCharForCode code.byte) = some code.name := by
    cases code <;> decide
  obtain ⟨notOpen, notClosed, named⟩ := symbol
  have opened : findUnsigned '(' (getCharForCode code.byte :: '(' :: (digits ++ ')' :: rest)) = 1 := by
    simp [findUnsigned, List.findIdx?_cons, notOpen]
  have closed : findUnsigned ')' (getCharForCode code.byte :: '(' :: (digits ++ ')' :: rest)) =
      digits.length + 2 := by
    simp [findUnsigned, List.findIdx?_cons, notClosed, findIdx?_digits _ onlyDigits]
  have size : ((digits.length + 2) + (2 ^ 32 - 1 - 1)) % 2 ^ 32 = digits.length := by
    omega
  unfold shown layoutTexts layoutComponent
  simp only [opened, closed, size, List.head?_cons, Option.bind_some, named]
  simp

namespace LayoutEntry

variable {entry : LayoutEntry}

theorem depth_le (entry : LayoutEntry) : entry.depth.toNat ≤ 32 := UInt8.le_iff_toNat_le.mp entry.most

theorem digits_of_small (small : entry.depth < 10) :
    Text.digits entry.depth.toNat = [entry.depth.toNat.digitChar] :=
  Text.digits_of_lt_ten (UInt8.lt_iff_toNat_lt.mp small)

theorem digits_of_large (large : ¬ entry.depth < 10) : Text.digits entry.depth.toNat =
    [(entry.depth.toNat / 10).digitChar, (entry.depth.toNat % 10).digitChar] := by
  have least : 10 ≤ entry.depth.toNat :=
    Nat.le_of_not_lt fun less => large (UInt8.lt_iff_toNat_lt.mpr less)
  have most := entry.depth_le
  exact Text.digits_of_lt_hundred least (by omega)

theorem shown_texts (entry : LayoutEntry) (rest : List Char) :
    shown (getCharForCode entry.code.byte :: '(' :: (Text.digits entry.depth.toNat ++ ')' :: rest)) =
      entry.texts := by
  have short : (Text.digits entry.depth.toNat).length < 2 ^ 31 := by
    by_cases small : entry.depth < 10
    · simp [digits_of_small small]
    · simp [digits_of_large small]
  rw [shown_piece _ (fun d member => Text.isDigit_of_mem_digits member) short]
  rfl

theorem shown_take (entry : LayoutEntry) (rest : List Char) :
    shown ((entry.text ++ rest).take 6) = entry.texts := by
  by_cases small : entry.depth < 10
  · have piece := entry.shown_texts (rest.take 2)
    rw [digits_of_small small] at piece
    rw [text, digits_of_small small]
    exact piece
  · have piece := entry.shown_texts (rest.take 1)
    rw [digits_of_large small] at piece
    rw [text, digits_of_large small]
    exact piece

/-- The next piece starts too late if the depth of an entry has one digit only. -/
theorem drop_of_small (small : entry.depth < 10) (next : LayoutEntry) (rest : List Char) :
    ∃ behind, ((entry.text ++ ' ' :: (next.text ++ rest)).drop 6).take 6 = '(' :: behind := by
  rw [text, digits_of_small small]
  exact ⟨_, rfl⟩

theorem drop_of_large (large : ¬ entry.depth < 10) (rest : List Char) :
    (entry.text ++ ' ' :: rest).drop 6 = rest := by
  rw [text, digits_of_large large]
  rfl

theorem drop_twelve (large : ¬ entry.depth < 10) (rest : List Char) :
    (entry.text ++ ' ' :: rest).drop 12 = rest.drop 6 := by
  calc
    _ = ((entry.text ++ ' ' :: rest).drop 6).drop 6 := List.drop_drop.symm
    _ = rest.drop 6 := by rw [drop_of_large large]

theorem not_shown (entry : LayoutEntry) {piece behind : List Char} (late : piece = '(' :: behind) :
    shown piece ≠ entry.texts := by
  rw [late, shown_parenthesis]
  simp [texts]

theorem length_text (entry : LayoutEntry) :
    entry.text.length = if entry.depth < 10 then 4 else 5 := by
  by_cases small : entry.depth < 10
  · simp [text, digits_of_small small, small]
  · simp [text, digits_of_large small, small]

end LayoutEntry

/-- A layout is written if the first two depths have two digits each, and enough characters are
left over behind the third entry. -/
theorem layout_written_iff (first second third : LayoutEntry) (unused : Vector UInt8 9)
    (leftover : List Char) (pt : PTree) :
    LayoutWritten [first, second, third]
        ((RGBALayout.three first second third unused).encodeString ++ leftover) pt ↔
      ¬ first.depth < 10 ∧ ¬ second.depth < 10 ∧
        (if third.depth < 10 then 2 else 1) ≤ leftover.length := by
  rw [layoutWritten_iff, encodeString_three]
  simp only [List.append_assoc, List.cons_append]
  by_cases firstSmall : first.depth < 10
  · obtain ⟨behind, late⟩ := LayoutEntry.drop_of_small firstSmall second
      (' ' :: (third.text ++ leftover))
    apply iff_of_false
    · intro written
      exact second.not_shown late written.2.2.1
    · exact fun holds => holds.1 firstSmall
  have fromSecond := LayoutEntry.drop_of_large firstSmall
    (second.text ++ ' ' :: (third.text ++ leftover))
  have fromThird := LayoutEntry.drop_twelve firstSmall
    (second.text ++ ' ' :: (third.text ++ leftover))
  rw [fromSecond, fromThird]
  by_cases secondSmall : second.depth < 10
  · obtain ⟨behind, late⟩ := LayoutEntry.drop_of_small secondSmall third leftover
    apply iff_of_false
    · intro written
      exact third.not_shown late written.2.2.2
    · exact fun holds => holds.2.1 secondSmall
  have long : 18 ≤ (first.text ++ ' ' :: (second.text ++ ' ' :: (third.text ++ leftover))).length ↔
      (if third.depth < 10 then 2 else 1) ≤ leftover.length := by
    simp only [List.length_append, List.length_cons, LayoutEntry.length_text, firstSmall, secondSmall,
      if_false]
    split <;> omega
  rw [LayoutEntry.drop_of_large secondSmall, first.shown_take, second.shown_take, third.shown_take, long]
  tauto

def eightBit (code : LayoutCode) : LayoutEntry := ⟨code, 8, by decide, by decide⟩

/-- The layout of such pictures is not written, whatever is left over. -/
theorem layout_not_written : ¬ ∀ (first second third : LayoutEntry) (unused : Vector UInt8 9)
    (leftover : List Char) (pt : PTree), LayoutWritten [first, second, third]
      ((RGBALayout.three first second third unused).encodeString ++ leftover) pt := by
  intro written
  have colours := written (eightBit .red) (eightBit .green) (eightBit .blue)
    (Vector.replicate 9 0) "7f007f007ee0".toList .empty
  exact ((layout_written_iff _ _ _ _ _ _).mp colours).1 (by decide)

end Imflib.Package

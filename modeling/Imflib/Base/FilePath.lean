import Imflib.Base.Text

/-! Paths with slashes, without root names: their last element, what it lies in, and the stem and
the extension of the last element. -/

namespace Imflib.FilePath

def filename (path : String) : String :=
  let name := Text.afterLast '/' path.toList
  if name = [] ∧ path ≠ "" then "." else String.ofList name

def folder (front : List Char) : String :=
  match (front.reverse.dropWhile (· = '/')).reverse with
  | [] => "/"
  | name => String.ofList name

def parentPath (path : String) : String :=
  match Text.beforeLast '/' path.toList with
  | none => ""
  | some front => folder front

def stem (path : String) : String :=
  let name := filename path
  if name = "." ∨ name = ".." then name
  else match Text.beforeLast '.' name.toList with
    | none => name
    | some front => String.ofList front

def extension (path : String) : String :=
  let name := filename path
  if name = "." ∨ name = ".." then ""
  else match Text.beforeLast '.' name.toList with
    | none => ""
    | some _ => String.ofList ('.' :: Text.afterLast '.' name.toList)

theorem toList_join (front name : String) :
    (front ++ "/" ++ name).toList = front.toList ++ '/' :: name.toList := by
  simp [String.toList_append]

theorem filename_join (front : String) {name : String} (plain : '/' ∉ name.toList)
    (nonempty : name ≠ "") : filename (front ++ "/" ++ name) = name := by
  have last : Text.afterLast '/' (front ++ "/" ++ name).toList = name.toList := by
    rw [toList_join, Text.afterLast_append _ plain]
  have filled : name.toList ≠ [] := fun empty => nonempty (String.toList_eq_nil_iff.mp empty)
  rw [filename, last, if_neg fun both => filled both.1, String.ofList_toList]

theorem extension_empty : extension "" = "" := by decide

theorem filename_behind (front : String) {name : String} (extended : extension name ≠ "") :
    filename (front ++ "/" ++ name) = filename name := by
  have last : Text.afterLast '/' (front ++ "/" ++ name).toList = Text.afterLast '/' name.toList := by
    rw [toList_join, Text.afterLast_behind]
  have nonempty : name ≠ "" := fun empty => extended (empty ▸ extension_empty)
  have filled : Text.afterLast '/' name.toList ≠ [] := by
    intro empty
    have dot : filename name = "." := by rw [filename, if_pos ⟨empty, nonempty⟩]
    exact extended (by rw [extension, if_pos (Or.inl dot)])
  rw [filename, filename, last, if_neg fun both => filled both.1, if_neg fun both => filled both.1]

theorem filename_append (front : String) {suffix : String} (plain : '/' ∉ suffix.toList)
    (nonempty : suffix ≠ "") : ∃ base, filename (front ++ suffix) = base ++ suffix := by
  have last : Text.afterLast '/' (front ++ suffix).toList =
      Text.afterLast '/' front.toList ++ suffix.toList := by
    rw [String.toList_append, Text.afterLast_append_of_not_mem _ plain]
  have filled : Text.afterLast '/' front.toList ++ suffix.toList ≠ [] := fun empty =>
    nonempty (String.toList_eq_nil_iff.mp (List.append_eq_nil_iff.mp empty).2)
  refine ⟨String.ofList (Text.afterLast '/' front.toList), ?_⟩
  rw [filename, last, if_neg fun both => filled both.1]
  exact String.toList_injective (by simp)

theorem filename_of_plain {name : String} (plain : '/' ∉ name.toList) (nonempty : name ≠ "") :
    filename name = name := by
  have filled : name.toList ≠ [] := fun empty => nonempty (String.toList_eq_nil_iff.mp empty)
  rw [filename, Text.afterLast_of_not_mem plain, if_neg fun both => filled both.1,
    String.ofList_toList]

theorem parentPath_join (front : String) {name : String} (plain : '/' ∉ name.toList) :
    parentPath (front ++ "/" ++ name) = folder front.toList := by
  rw [parentPath, toList_join, Text.beforeLast_append _ plain]

theorem slash_not_mem_filename (path : String) : '/' ∉ (filename path).toList := by
  rw [filename]
  split
  · decide
  · rw [String.toList_ofList]
    exact Text.not_mem_afterLast '/' path.toList

theorem stem_congr {first second : String} (same : filename first = filename second) :
    stem first = stem second := by
  rw [stem, stem, same]

theorem extension_congr {first second : String} (same : filename first = filename second) :
    extension first = extension second := by
  rw [extension, extension, same]

theorem filename_filename (path : String) : filename (filename path) = filename path := by
  by_cases empty : filename path = ""
  · rw [empty]
    rfl
  · exact filename_of_plain (slash_not_mem_filename path) empty

section Suffix

variable {path base suffix : String} (named : filename path = base ++ "." ++ suffix)
  (plain : '.' ∉ suffix.toList) (nonempty : suffix ≠ "")

include plain nonempty

omit named in
theorem not_dots : ¬ (base ++ "." ++ suffix = "." ∨ base ++ "." ++ suffix = "..") := by
  have filled : suffix.toList ≠ [] := fun empty => nonempty (String.toList_eq_nil_iff.mp empty)
  have last : (base ++ "." ++ suffix).toList.getLast? = some (suffix.toList.getLast filled) := by
    rw [String.toList_append, List.getLast?_append, List.getLast?_eq_getLast_of_ne_nil filled,
      Option.some_or]
  have member := List.getLast_mem filled
  intro dots
  rcases dots with same | same <;>
  · rw [same] at last
    have dot := Option.some.inj last
    rw [← dot] at member
    exact plain member

include named

theorem stem_of_suffix : stem path = base := by
  have split : Text.beforeLast '.' (base ++ "." ++ suffix).toList = some base.toList := by
    have text : (base ++ "." ++ suffix).toList = base.toList ++ '.' :: suffix.toList := by
      simp [String.toList_append]
    rw [text, Text.beforeLast_append _ plain]
  rw [stem, named, if_neg (not_dots plain nonempty), split]
  exact String.ofList_toList

theorem extension_of_suffix : extension path = "." ++ suffix := by
  have text : (base ++ "." ++ suffix).toList = base.toList ++ '.' :: suffix.toList := by
    simp [String.toList_append]
  rw [extension, named, if_neg (not_dots plain nonempty), text, Text.beforeLast_append _ plain,
    Text.afterLast_append _ plain]
  exact String.toList_injective (by simp [String.toList_append])

end Suffix

theorem stem_append_extension (path : String) : stem path ++ extension path = filename path := by
  rw [stem, extension]
  split
  · exact String.append_empty
  · cases split : Text.beforeLast '.' (filename path).toList with
    | none => exact String.append_empty
    | some front =>
        refine String.toList_injective ?_
        rw [String.toList_append, String.toList_ofList, String.toList_ofList]
        exact (Text.beforeLast_afterLast split).symm

theorem slash_not_mem_stem (path : String) : '/' ∉ (stem path).toList := by
  intro member
  refine slash_not_mem_filename path ?_
  rw [← stem_append_extension, String.toList_append]
  exact List.mem_append_left _ member

end Imflib.FilePath

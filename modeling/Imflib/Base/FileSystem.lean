import Imflib.Base.FilePath
import Mathlib.Logic.Equiv.Basic
import Mathlib.Logic.Function.Basic

/-! A file system: what stands under each name of each folder. Several paths may lead to the same
folder, but no file is a symbolic link, so that to move a name is to move what it stands for. -/

namespace Imflib

universe u

structure FileSystem (α : Type u) where
  /-- What the paths of folders stand for, whatever is there. -/
  canonical : String → String
  directory : String → Bool
  file : String × String → Option α
  /-- Files lie in folders that exist. -/
  inside : ∀ entry, (file entry).isSome = true → directory entry.1 = true

namespace FileSystem

variable {α : Type u} (fs : FileSystem α)

def entry (path : String) : String × String :=
  (fs.canonical (FilePath.parentPath path), FilePath.filename path)

def read (path : String) : Option α := fs.file (fs.entry path)

def fileExists (path : String) : Bool := (fs.read path).isSome

def folderOf (path : String) : String := fs.canonical (FilePath.folder path.toList)

def directoryExists (path : String) : Bool := fs.directory (fs.folderOf path)

def place (entry : String × String) (content : α) (present : fs.directory entry.1 = true) :
    FileSystem α :=
  { fs with
    file := Function.update fs.file entry (some content)
    inside := by
      intro other filled
      by_cases same : other = entry
      · exact same ▸ present
      · rw [Function.update_of_ne same] at filled
        exact fs.inside other filled }

def remove (entry : String × String) : FileSystem α :=
  { fs with
    file := Function.update fs.file entry none
    inside := by
      intro other filled
      by_cases same : other = entry
      · rw [same, Function.update_self] at filled
        cases filled
      · rw [Function.update_of_ne same] at filled
        exact fs.inside other filled }

def write (path : String) (content : α) : Option (FileSystem α) :=
  if present : fs.directory (fs.entry path).1 = true then
    some (fs.place (fs.entry path) content present)
  else none

def rename (source target : String) : Option (FileSystem α) :=
  match fs.read source with
  | none => none
  | some content => (fs.remove (fs.entry source)).write target content

/-- Make a folder where there was nothing. Its entry has the content given. -/
def mkdir (path : String) (content : α) : Option (FileSystem α) :=
  if fs.fileExists (FilePath.folder path.toList) = true then none
  else (fs.write (FilePath.folder path.toList) content).map fun fs =>
    { fs with
      directory := Function.update fs.directory (fs.folderOf path) true
      inside := by
        intro entry filled
        by_cases same : entry.1 = fs.folderOf path
        · rw [same, Function.update_self]
        · rw [Function.update_of_ne same]
          exact fs.inside entry filled }

def map (change : α → α) : FileSystem α :=
  { fs with
    file := fun entry => (fs.file entry).map change
    inside := by
      intro entry filled
      rw [Option.isSome_map] at filled
      exact fs.inside entry filled }

theorem read_map (change : α → α) (path : String) :
    (fs.map change).read path = (fs.read path).map change := rfl

theorem map_map (change other : α → α) :
    (fs.map change).map other = fs.map fun content => other (change content) := by
  simp only [map, Option.map_map, Function.comp_def]

variable {fs} {after : FileSystem α}

theorem entry_join (fs : FileSystem α) (front : String) {name : String} (plain : '/' ∉ name.toList)
    (nonempty : name ≠ "") : fs.entry (front ++ "/" ++ name) = (fs.folderOf front, name) := by
  rw [entry, FilePath.parentPath_join front plain, FilePath.filename_join front plain nonempty]
  rfl

theorem filename_of_entry {first second : String} (same : fs.entry first = fs.entry second) :
    FilePath.filename first = FilePath.filename second := congrArg Prod.snd same

theorem entry_congr (same : after.canonical = fs.canonical) : after.entry = fs.entry := by
  funext path
  rw [entry, entry, same]

theorem folderOf_congr (same : after.canonical = fs.canonical) : after.folderOf = fs.folderOf := by
  funext path
  rw [folderOf, folderOf, same]

theorem vacant {folder : String} (absent : fs.directory folder = false) (name : String) :
    fs.file (folder, name) = none := by
  cases found : fs.file (folder, name) with
  | none => rfl
  | some content =>
      have present := fs.inside (folder, name) (by rw [found, Option.isSome_some])
      rw [absent] at present
      cases present

theorem write_eq_some {path : String} {content : α} (written : fs.write path content = some after) :
    after.canonical = fs.canonical ∧
      after.file = Function.update fs.file (fs.entry path) (some content) := by
  unfold write at written
  split at written
  · cases Option.some.inj written
    exact ⟨rfl, rfl⟩
  · cases written

theorem rename_eq_some {source target : String} (moved : fs.rename source target = some after) :
    after.canonical = fs.canonical ∧ ∃ content, fs.read source = some content ∧
      after.file = Function.update (Function.update fs.file (fs.entry source) none)
        (fs.entry target) (some content) := by
  unfold rename at moved
  cases found : fs.read source with
  | none =>
      rw [found] at moved
      cases moved
  | some content =>
      rw [found] at moved
      obtain ⟨canonical, file⟩ := write_eq_some moved
      exact ⟨canonical, content, rfl, file⟩

theorem read_rename_target {source target : String} (moved : fs.rename source target = some after) :
    after.read target = fs.read source := by
  obtain ⟨canonical, content, found, file⟩ := rename_eq_some moved
  rw [read, entry_congr canonical, file, Function.update_self, found]

theorem read_rename_of_ne {source target path : String}
    (moved : fs.rename source target = some after) (notSource : fs.entry path ≠ fs.entry source)
    (notTarget : fs.entry path ≠ fs.entry target) : after.read path = fs.read path := by
  obtain ⟨canonical, content, -, file⟩ := rename_eq_some moved
  rw [read, entry_congr canonical, file, Function.update_of_ne notTarget,
    Function.update_of_ne notSource, read]

theorem held_of_rename {source target : String} (moved : fs.rename source target = some after)
    {entry : String × String} {held : α} (present : after.file entry = some held) :
    entry = fs.entry target ∧ fs.read source = some held ∨
      entry ≠ fs.entry source ∧ fs.file entry = some held := by
  obtain ⟨-, content, found, file⟩ := rename_eq_some moved
  rw [file] at present
  by_cases atTarget : entry = fs.entry target
  · rw [atTarget, Function.update_self] at present
    exact Or.inl ⟨atTarget, found.trans present⟩
  · rw [Function.update_of_ne atTarget] at present
    by_cases atSource : entry = fs.entry source
    · rw [atSource, Function.update_self] at present
      cases present
    · rw [Function.update_of_ne atSource] at present
      exact Or.inr ⟨atSource, present⟩

/-- Moving a file to a free name exchanges the two names. -/
theorem rename_swap {source target : String} (moved : fs.rename source target = some after)
    (free : fs.read target = none) (entry : String × String) :
    after.file (Equiv.swap (fs.entry source) (fs.entry target) entry) = fs.file entry := by
  obtain ⟨-, content, found, file⟩ := rename_eq_some moved
  rw [read] at found free
  have apart : fs.entry source ≠ fs.entry target := by
    intro same
    rw [same, free] at found
    cases found
  by_cases atSource : entry = fs.entry source
  · rw [atSource, Equiv.swap_apply_left, file, Function.update_self, found]
  · by_cases atTarget : entry = fs.entry target
    · rw [atTarget, Equiv.swap_apply_right, file, Function.update_of_ne apart, Function.update_self,
        free]
    · rw [Equiv.swap_apply_of_ne_of_ne atSource atTarget, file, Function.update_of_ne atTarget,
        Function.update_of_ne atSource]

theorem mkdir_eq_some {path : String} {content : α} (absent : fs.directoryExists path = false)
    (made : fs.mkdir path content = some after) :
    after.canonical = fs.canonical ∧ (∀ name, after.file (fs.folderOf path, name) = none) ∧
      ∃ entry, fs.file entry = none ∧ after.file = Function.update fs.file entry (some content) := by
  unfold mkdir at made
  split at made
  · cases made
  · rename_i free
    obtain ⟨written, wrote, rfl⟩ := Option.map_eq_some_iff.mp made
    obtain ⟨canonical, file⟩ := write_eq_some wrote
    have present : fs.directory (fs.entry (FilePath.folder path.toList)).1 = true := by
      unfold write at wrote
      split at wrote
      · assumption
      · cases wrote
    refine ⟨canonical, fun name => ?_, _, ?_, file⟩
    · have elsewhere : (fs.folderOf path, name) ≠ fs.entry (FilePath.folder path.toList) := by
        intro same
        rw [← same] at present
        rw [directoryExists, present] at absent
        cases absent
      have nothing : written.file (fs.folderOf path, name) = none := by
        rw [file, Function.update_of_ne elsewhere]
        exact vacant absent name
      exact nothing
    · rwa [fileExists, Option.not_isSome_iff_eq_none] at free

def removeFile (fs : FileSystem α) (path : String) : FileSystem α := fs.remove (fs.entry path)

structure Changes (allowed : String × String → Prop) (before after : FileSystem α) : Prop where
  canonical : after.canonical = before.canonical
  directory : after.directory = before.directory
  file : ∀ entry, ¬ allowed entry → after.file entry = before.file entry

namespace Changes

variable {allowed : String × String → Prop} {first second third : FileSystem α}

theorem refl (fs : FileSystem α) : Changes allowed fs fs := ⟨rfl, rfl, fun _ _ => rfl⟩

theorem trans (before : Changes allowed first second) (after : Changes allowed second third) :
    Changes allowed first third := by
  refine ⟨after.canonical.trans before.canonical, after.directory.trans before.directory, ?_⟩
  intro entry other
  exact (after.file entry other).trans (before.file entry other)

theorem mono {more : String × String → Prop} (changes : Changes allowed first second)
    (weaker : ∀ entry, allowed entry → more entry) : Changes more first second :=
  ⟨changes.canonical, changes.directory, fun entry other =>
    changes.file entry fun inside => other (weaker entry inside)⟩

theorem entry (changes : Changes allowed first second) : second.entry = first.entry :=
  entry_congr changes.canonical

theorem read (changes : Changes allowed first second) {path : String}
    (other : ¬ allowed (first.entry path)) : second.read path = first.read path := by
  rw [FileSystem.read, changes.entry]
  exact changes.file _ other

theorem removeFile (fs : FileSystem α) (path : String) :
    Changes (· = fs.entry path) fs (fs.removeFile path) :=
  ⟨rfl, rfl, fun _ other => Function.update_of_ne other _ _⟩

theorem write {path : String} {content : α} (written : first.write path content = some second) :
    Changes (· = first.entry path) first second := by
  unfold FileSystem.write at written
  split at written
  · cases written
    exact ⟨rfl, rfl, fun _ other => Function.update_of_ne other _ _⟩
  · cases written

end Changes

theorem read_removeFile (fs : FileSystem α) (path : String) :
    (fs.removeFile path).read path = none := Function.update_self _ _ _

end FileSystem

end Imflib

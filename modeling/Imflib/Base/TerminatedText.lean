import Mathlib.Data.List.TakeDrop
import Mathlib.Tactic.Common

/-! Texts that a terminator ends, in a buffer that is written more than once. What is left of the
older texts shows behind a newer one that has no terminator of its own. -/

namespace Imflib

universe u

section Buffer

variable {α : Type u} {terminator : α} {text buffer : List α} {position : Nat}

def overwrite (text buffer : List α) : List α := text ++ buffer.drop text.length

def Holds (terminator : α) (buffer : List α) (position : Nat) : Prop :=
  ∃ item, buffer[position]? = some item ∧ item ≠ terminator

theorem getElem?_overwrite_of_lt (inside : position < text.length) :
    (overwrite text buffer)[position]? = text[position]? := List.getElem?_append_left inside

theorem getElem?_overwrite_of_le (behind : text.length ≤ position) :
    (overwrite text buffer)[position]? = buffer[position]? := by
  rw [overwrite, List.getElem?_append_right behind, List.getElem?_drop]
  congr 1
  omega

namespace Holds

theorem of_text (absent : terminator ∉ text) (inside : position < text.length) :
    Holds terminator text position :=
  ⟨text[position], List.getElem?_eq_getElem inside, fun same => absent (same ▸ List.getElem_mem inside)⟩

theorem overwrite (holds : Holds terminator buffer position)
    (kept : position < text.length → Holds terminator text position) :
    Holds terminator (Imflib.overwrite text buffer) position := by
  by_cases inside : position < text.length
  · obtain ⟨item, found, other⟩ := kept inside
    exact ⟨item, (getElem?_overwrite_of_lt inside).trans found, other⟩
  · obtain ⟨item, found, other⟩ := holds
    exact ⟨item, (getElem?_overwrite_of_le (Nat.le_of_not_lt inside)).trans found, other⟩

theorem overwrite_terminated (holds : Holds terminator buffer position)
    (absent : terminator ∉ text) (elsewhere : text.length ≠ position) :
    Holds terminator (Imflib.overwrite (text ++ [terminator]) buffer) position := by
  apply holds.overwrite
  intro inside
  rw [List.length_append, List.length_singleton] at inside
  have before : position < text.length := by omega
  obtain ⟨item, found, other⟩ := of_text absent before
  exact ⟨item, (List.getElem?_append_left before).trans found, other⟩

theorem of_overwrite_terminated (absent : terminator ∉ text) (inside : position < text.length) :
    Holds terminator (Imflib.overwrite (text ++ [terminator]) buffer) position := by
  obtain ⟨item, found, other⟩ := of_text absent inside
  refine ⟨item, ?_, other⟩
  rw [Imflib.overwrite, List.append_assoc, List.getElem?_append_left inside, found]

end Holds

variable [DecidableEq α]

/-- What is read of a buffer: everything in front of the first terminator. -/
def terminated (terminator : α) (buffer : List α) : List α := buffer.takeWhile (· ≠ terminator)

theorem terminated_overwrite_self (absent : terminator ∉ text) :
    terminated terminator (overwrite (text ++ [terminator]) buffer) = text := by
  rw [terminated, overwrite, List.append_assoc, List.takeWhile_append_of_pos]
  · simp
  · intro item member
    exact decide_eq_true fun same => absent (same ▸ member)

/-- Behind a text without a terminator stands what is left of the older texts. -/
theorem terminated_overwrite (absent : terminator ∉ text) :
    terminated terminator (overwrite text buffer) =
      text ++ terminated terminator (buffer.drop text.length) := by
  rw [terminated, overwrite, List.takeWhile_append_of_pos]
  · rfl
  · intro item member
    exact decide_eq_true fun same => absent (same ▸ member)

theorem terminated_drop_ne_nil (holds : Holds terminator buffer position) :
    terminated terminator (buffer.drop position) ≠ [] := by
  obtain ⟨item, found, other⟩ := holds
  obtain ⟨inside, rfl⟩ := List.getElem?_eq_some_iff.mp found
  rw [terminated, List.drop_eq_getElem_cons inside, List.takeWhile_cons_of_pos (by simpa using other)]
  exact List.cons_ne_nil _ _

end Buffer

end Imflib

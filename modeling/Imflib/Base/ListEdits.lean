import Imflib.Base.KeyedList
import Mathlib.Data.List.InsertIdx

/-! Edits of a list at one position, and what takes them back. -/

namespace Imflib.ListEdits

universe u v w

variable {α : Type u} {β : Type v} {κ : Type w}

/-- Shrink the item at a position, and drop it if that leaves it empty. -/
def shrinkAt (empty : α → Bool) (shrink : α → α) (position : Nat) (items : List α) : List α :=
  match items[position]? with
  | none => items
  | some item =>
      if empty (shrink item) then items.eraseIdx position else items.modify position shrink

section Position

variable {items : List α} {position : Nat} {item : α}

theorem shrinkAt_of_empty {empty : α → Bool} {shrink : α → α}
    (found : items[position]? = some item) (emptied : empty (shrink item) = true) :
    shrinkAt empty shrink position items = items.eraseIdx position := by
  rw [shrinkAt, found]
  exact if_pos emptied

theorem shrinkAt_of_nonempty {empty : α → Bool} {shrink : α → α}
    (found : items[position]? = some item) (kept : empty (shrink item) = false) :
    shrinkAt empty shrink position items = items.modify position shrink := by
  rw [shrinkAt, found]
  apply if_neg
  rw [kept]
  exact Bool.false_ne_true

theorem modify_congr {first second : α → α} (found : items[position]? = some item)
    (same : first item = second item) :
    items.modify position first = items.modify position second := by
  apply List.ext_getElem?
  intro other
  by_cases here : position = other
  · subst here
    rw [List.getElem?_modify_eq, List.getElem?_modify_eq, found]
    exact congrArg some same
  · rw [List.getElem?_modify_ne first items here, List.getElem?_modify_ne second items here]

theorem modify_eq_self {change : α → α} (found : items[position]? = some item)
    (same : change item = item) : items.modify position change = items := by
  rw [modify_congr found (same.trans (id_eq item).symm), List.modify_id]

theorem shrinkAt_congr {empty : α → Bool} {first second : α → α}
    (found : items[position]? = some item) (same : first item = second item) :
    shrinkAt empty first position items = shrinkAt empty second position items := by
  cases emptied : empty (first item) with
  | true =>
      rw [shrinkAt_of_empty found emptied, shrinkAt_of_empty found (same ▸ emptied)]
  | false =>
      rw [shrinkAt_of_nonempty found emptied, shrinkAt_of_nonempty found (same ▸ emptied)]
      exact modify_congr found same

theorem modify_modify {grow shrink : α → α} (found : items[position]? = some item)
    (undone : shrink (grow item) = item) :
    (items.modify position grow).modify position shrink = items := by
  rw [List.modify_modify_eq]
  exact modify_eq_self found undone

theorem getElem?_modify_self {change : α → α} (found : items[position]? = some item) :
    (items.modify position change)[position]? = some (change item) := by
  rw [List.getElem?_modify_eq, found]
  rfl

theorem of_getElem?_modify {change : α → α} {other : Nat} {result : α}
    (found : (items.modify position change)[other]? = some result) :
    (other = position ∧ ∃ item, items[position]? = some item ∧ result = change item) ∨
      items[other]? = some result := by
  by_cases here : position = other
  · subst here
    rw [List.getElem?_modify_eq] at found
    obtain ⟨item, present, same⟩ := Option.map_eq_some_iff.mp found
    exact .inl ⟨rfl, item, present, same.symm⟩
  · rw [List.getElem?_modify_ne change items here] at found
    exact .inr found

theorem of_getElem?_insertIdx {other : Nat} {result : α}
    (found : (items.insertIdx position item)[other]? = some result) :
    (other = position ∧ result = item) ∨ ∃ old : Nat, items[old]? = some result := by
  rw [List.getElem?_insertIdx] at found
  split at found
  · exact .inr ⟨other, found⟩
  · split at found
    · rename_i here
      split at found
      · exact .inl ⟨here, (Option.some.inj found).symm⟩
      · cases found
    · exact .inr ⟨other - 1, found⟩

theorem of_getElem?_singleton {other : Nat} {result : α} (found : [item][other]? = some result) :
    other = 0 ∧ result = item := by
  rw [List.getElem?_singleton] at found
  split at found
  · rename_i first
    exact ⟨first, (Option.some.inj found).symm⟩
  · cases found

theorem shrinkAt_modify {empty : α → Bool} {grow shrink : α → α}
    (found : items[position]? = some item) (undone : shrink (grow item) = item)
    (filled : empty item = false) :
    shrinkAt empty shrink position (items.modify position grow) = items := by
  have kept : empty (shrink (grow item)) = false := by rw [undone, filled]
  rw [shrinkAt_of_nonempty (getElem?_modify_self found) kept]
  exact modify_modify found undone

theorem shrinkAt_modify_same {empty : α → Bool} {change shrink : α → α}
    (found : items[position]? = some item) (same : shrink (change item) = shrink item) :
    shrinkAt empty shrink position (items.modify position change) =
      shrinkAt empty shrink position items := by
  have changed := @getElem?_modify_self α items position item change found
  cases emptied : empty (shrink item) with
  | true =>
      rw [shrinkAt_of_empty changed (same ▸ emptied), shrinkAt_of_empty found emptied,
        List.eraseIdx_modify_of_eq]
  | false =>
      rw [shrinkAt_of_nonempty changed (same ▸ emptied), shrinkAt_of_nonempty found emptied,
        List.modify_modify_eq]
      exact modify_congr found same

theorem shrinkAt_insertIdx {empty : α → Bool} {shrink : α → α} (within : position ≤ items.length)
    (emptied : empty (shrink item) = true) :
    shrinkAt empty shrink position (items.insertIdx position item) = items := by
  have found : (items.insertIdx position item)[position]? = some item := by
    rw [List.getElem?_insertIdx_self, if_pos within]
  rw [shrinkAt_of_empty found emptied, List.eraseIdx_insertIdx_self]

theorem modify_insertIdx (items : List α) (position : Nat) (item : α) (change : α → α) :
    (items.insertIdx position item).modify position change =
      items.insertIdx position (change item) := by
  induction items generalizing position with
  | nil => cases position <;> rfl
  | cons head tail ih =>
      cases position with
      | zero => rfl
      | succ position =>
          rw [List.insertIdx_succ_cons, List.insertIdx_succ_cons, List.modify_succ_cons, ih]

theorem map_modify_same {view : α → β} {change : α → α} (same : ∀ item, view (change item) = view item)
    (items : List α) (position : Nat) : (items.modify position change).map view = items.map view := by
  induction items generalizing position with
  | nil => rw [List.modify_nil]
  | cons head tail ih =>
      cases position with
      | zero => rw [List.modify_zero_cons, List.map_cons, List.map_cons, same]
      | succ position => rw [List.modify_succ_cons, List.map_cons, List.map_cons, ih]

theorem take_cons_drop (within : position ≤ items.length) (item : α) :
    items.take position ++ item :: items.drop position = items.insertIdx position item := by
  induction items generalizing position with
  | nil =>
      cases Nat.le_zero.mp within
      rfl
  | cons head tail ih =>
      cases position with
      | zero => rfl
      | succ position =>
          rw [List.insertIdx_succ_cons, ← ih (Nat.le_of_succ_le_succ within)]
          rfl

theorem filter_ne_eq_eraseIdx [DecidableEq α] (nodup : items.Nodup)
    (found : items[position]? = some item) : items.filter (· ≠ item) = items.eraseIdx position := by
  induction items generalizing position with
  | nil => cases found
  | cons head tail ih =>
      obtain ⟨new, rest⟩ := List.nodup_cons.mp nodup
      cases position with
      | zero =>
          cases Option.some.inj found
          have others : tail.filter (· ≠ item) = tail := by
            apply List.filter_eq_self.mpr
            intro other member
            exact decide_eq_true fun same => new (same ▸ member)
          rw [List.filter_cons_of_neg (by simp), others]
          rfl
      | succ position =>
          have later : tail[position]? = some item := found
          have different : head ≠ item := fun same => new (same ▸ List.mem_of_getElem? later)
          rw [List.filter_cons_of_pos (by simpa using different), ih rest later]
          rfl

theorem delete_eq_eraseIdx [DecidableEq α] [DecidableEq κ] {key : α → κ}
    (distinct : (items.map key).Nodup) (found : items[position]? = some item) :
    KeyedList.delete key (key item) items = items.eraseIdx position := by
  have present := List.mem_of_getElem? found
  rw [KeyedList.delete_eq_filter key distinct (fun _ member => member) present]
  exact filter_ne_eq_eraseIdx distinct.of_map found

theorem findIdx_key [DecidableEq κ] {key : α → κ} (distinct : (items.map key).Nodup)
    (found : items[position]? = some item) :
    items.findIdx (fun other => key other = key item) = position := by
  induction items generalizing position with
  | nil => cases found
  | cons head tail ih =>
      obtain ⟨new, rest⟩ := List.nodup_cons.mp distinct
      cases position with
      | zero =>
          cases Option.some.inj found
          rw [List.findIdx_cons, decide_eq_true rfl]
          rfl
      | succ position =>
          have later : tail[position]? = some item := found
          rw [List.findIdx_cons, decide_eq_false (KeyedList.key_ne_of_later key new later),
            ih rest later]
          rfl

end Position

section Map

variable {items : List α} {position : Nat} {item : α} {before after : α → β} {change : β → β}

theorem map_eq_modify (nodup : items.Nodup) (found : items[position]? = some item)
    (changed : after item = change (before item))
    (kept : ∀ other ∈ items, other ≠ item → after other = before other) :
    items.map after = (items.map before).modify position change := by
  obtain ⟨within, here⟩ := List.getElem?_eq_some_iff.mp found
  apply List.ext_getElem?
  intro other
  by_cases same : position = other
  · subst same
    rw [List.getElem?_modify_eq, List.getElem?_map, List.getElem?_map, found]
    exact congrArg some changed
  · rw [List.getElem?_modify_ne change _ same, List.getElem?_map, List.getElem?_map]
    cases elsewhere : items[other]? with
    | none => rfl
    | some neighbour =>
        obtain ⟨otherWithin, there⟩ := List.getElem?_eq_some_iff.mp elsewhere
        have different : neighbour ≠ item := by
          intro equal
          exact same (nodup.getElem_inj_iff.mp (here.trans (equal.symm.trans there.symm)))
        rw [Option.map_some, Option.map_some,
          kept neighbour (List.mem_of_getElem? elsewhere) different]

theorem map_eq_shrinkAt [DecidableEq α] (empty : β → Bool) (nodup : items.Nodup)
    (found : items[position]? = some item) {left : List α}
    (dropped : left = if empty (after item) then items.filter (· ≠ item) else items)
    (changed : after item = change (before item))
    (kept : ∀ other ∈ items, other ≠ item → after other = before other) :
    left.map after = shrinkAt empty change position (items.map before) := by
  rw [dropped]
  have seen : (items.map before)[position]? = some (before item) := by
    rw [List.getElem?_map, found, Option.map_some]
  cases emptied : empty (after item) with
  | true =>
      rw [if_pos rfl, shrinkAt_of_empty seen (changed ▸ emptied), filter_ne_eq_eraseIdx nodup found,
        ← List.eraseIdx_map after, map_eq_modify nodup found changed kept, List.eraseIdx_modify_of_eq]
  | false =>
      rw [if_neg Bool.false_ne_true, shrinkAt_of_nonempty seen (changed ▸ emptied)]
      exact map_eq_modify nodup found changed kept

end Map

end Imflib.ListEdits

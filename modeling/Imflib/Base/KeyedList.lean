import Mathlib.Data.List.Nodup
import Mathlib.Data.List.Perm.Basic
import Mathlib.Data.List.TakeDrop
import Mathlib.Tactic.Common

/-! Lists whose items are found, inserted and deleted by a key. -/

namespace Imflib.KeyedList

universe u v

variable {α : Type u} {κ : Type v} [DecidableEq κ] (key : α → κ)

/-- Insert behind the first item with a key, at the end if there is none. -/
def insertAfter (wanted : κ) (item : α) : List α → List α
  | [] => [item]
  | head :: tail =>
      if key head = wanted then head :: item :: tail else head :: insertAfter wanted item tail

/-- Insert before the first item with a key, at the end if there is none. -/
def insertBefore (wanted : κ) (item : α) : List α → List α
  | [] => [item]
  | head :: tail =>
      if key head = wanted then item :: head :: tail else head :: insertBefore wanted item tail

def delete (wanted : κ) (items : List α) : List α :=
  items.filter fun item => key item ≠ wanted

def find (wanted : κ) (items : List α) : Option α :=
  items.find? fun item => key item = wanted

theorem insertAfter_perm (wanted : κ) (item : α) (items : List α) :
    (insertAfter key wanted item items).Perm (item :: items) := by
  induction items with
  | nil => exact List.Perm.refl _
  | cons head tail ih =>
      by_cases found : key head = wanted
      · simp only [insertAfter, found, if_true]
        exact List.Perm.swap item head tail
      · simp only [insertAfter, found, if_false]
        exact (ih.cons head).trans (List.Perm.swap item head tail)

theorem insertBefore_perm (wanted : κ) (item : α) (items : List α) :
    (insertBefore key wanted item items).Perm (item :: items) := by
  induction items with
  | nil => exact List.Perm.refl _
  | cons head tail ih =>
      by_cases found : key head = wanted
      · simp only [insertBefore, found, if_true]
        exact List.Perm.refl _
      · simp only [insertBefore, found, if_false]
        exact (ih.cons head).trans (List.Perm.swap item head tail)

omit [DecidableEq κ] in
theorem eq_take_cons_drop {items : List α} {position : Nat} {item : α}
    (found : items[position]? = some item) :
    items = items.take position ++ item :: items.drop (position + 1) := by
  obtain ⟨within, here⟩ := List.getElem?_eq_some_iff.mp found
  rw [← here, List.cons_getElem_drop_succ]
  exact (List.take_append_drop position items).symm

omit [DecidableEq κ] in
theorem key_ne_of_later {head neighbour : α} {tail : List α} {position : Nat}
    (new : key head ∉ tail.map key) (later : tail[position]? = some neighbour) :
    key head ≠ key neighbour :=
  fun same => new (same ▸ List.mem_map_of_mem (List.mem_of_getElem? later))

/-- With distinct keys, the place of an insertion is that of the item it is next to. -/
theorem insertAfter_eq {items : List α} (distinct : (items.map key).Nodup) {position : Nat}
    {neighbour : α} (found : items[position]? = some neighbour) (item : α) :
    insertAfter key (key neighbour) item items =
      items.take (position + 1) ++ item :: items.drop (position + 1) := by
  induction items generalizing position with
  | nil => cases found
  | cons head tail ih =>
      obtain ⟨new, others⟩ := List.nodup_cons.mp distinct
      cases position with
      | zero =>
          cases Option.some.inj found
          simp [insertAfter]
      | succ position =>
          have later : tail[position]? = some neighbour := found
          rw [insertAfter, if_neg (key_ne_of_later key new later), ih others later]
          rfl

theorem insertBefore_eq {items : List α} (distinct : (items.map key).Nodup) {position : Nat}
    {neighbour : α} (found : items[position]? = some neighbour) (item : α) :
    insertBefore key (key neighbour) item items =
      items.take position ++ item :: items.drop position := by
  induction items generalizing position with
  | nil => cases found
  | cons head tail ih =>
      obtain ⟨new, others⟩ := List.nodup_cons.mp distinct
      cases position with
      | zero =>
          cases Option.some.inj found
          simp [insertBefore]
      | succ position =>
          have later : tail[position]? = some neighbour := found
          rw [insertBefore, if_neg (key_ne_of_later key new later), ih others later]
          rfl

theorem delete_sublist (wanted : κ) (items : List α) :
    (delete key wanted items).Sublist items :=
  List.filter_sublist

theorem delete_eq_filter [DecidableEq α] {items all : List α} (distinct : (all.map key).Nodup)
    (within : ∀ item ∈ items, item ∈ all) {removed : α} (present : removed ∈ all) :
    delete key (key removed) items = items.filter (· ≠ removed) := by
  refine List.filter_congr fun item member => ?_
  have same : key item = key removed ↔ item = removed :=
    ⟨List.inj_on_of_nodup_map distinct (within item member) present, congrArg key⟩
  simp [same]

omit [DecidableEq κ] in
theorem nodup_map_of_inserted {before after : α → κ} {items inserted : List α} {item : α}
    (perm : inserted.Perm (item :: items)) (kept : ∀ other ∈ items, after other = before other)
    (newKey : after item ∉ items.map before) (distinct : (items.map before).Nodup) :
    (inserted.map after).Nodup := by
  have keys : (inserted.map after).Perm (after item :: items.map before) := by
    have moved := perm.map after
    rw [List.map_cons, List.map_congr_left kept] at moved
    exact moved
  exact keys.nodup_iff.mpr (List.nodup_cons.mpr ⟨newKey, distinct⟩)

theorem find_eq_some {wanted : κ} {items : List α} {item : α}
    (found : find key wanted items = some item) : item ∈ items ∧ key item = wanted := by
  have holds := List.find?_some found
  exact ⟨List.mem_of_find?_eq_some found, of_decide_eq_true holds⟩

theorem find_eq_none {wanted : κ} {items : List α} (absent : find key wanted items = none) :
    wanted ∉ items.map key := by
  intro member
  obtain ⟨item, present, same⟩ := List.mem_map.mp member
  have differs := List.find?_eq_none.mp absent item present
  exact differs (decide_eq_true same)

theorem find_of_nodup {items : List α} (distinct : (items.map key).Nodup) {item : α}
    (present : item ∈ items) : find key (key item) items = some item := by
  cases found : find key (key item) items with
  | none => exact absurd (List.mem_map_of_mem present) (find_eq_none key found)
  | some other =>
      obtain ⟨member, same⟩ := find_eq_some key found
      rw [List.inj_on_of_nodup_map distinct member present same]

theorem find_perm {items others : List α} (perm : items.Perm others)
    (oneItem : ∀ first ∈ items, ∀ second ∈ items, key first = key second → first = second)
    (wanted : κ) : find key wanted items = find key wanted others := by
  cases found : find key wanted items with
  | none =>
      cases again : find key wanted others with
      | none => rfl
      | some item =>
          obtain ⟨present, same⟩ := find_eq_some key again
          have member : key item ∈ items.map key := List.mem_map_of_mem (perm.mem_iff.mpr present)
          exact absurd (same ▸ member) (find_eq_none key found)
  | some item =>
      obtain ⟨present, same⟩ := find_eq_some key found
      cases again : find key wanted others with
      | none =>
          have member : key item ∈ others.map key := List.mem_map_of_mem (perm.mem_iff.mp present)
          exact absurd (same ▸ member) (find_eq_none key again)
      | some other =>
          obtain ⟨otherPresent, otherSame⟩ := find_eq_some key again
          have inItems := perm.mem_iff.mpr otherPresent
          rw [oneItem item present other inItems (same.trans otherSame.symm)]

theorem map_filter_ne [DecidableEq α] {items : List α} (distinct : (items.map key).Nodup)
    {removed : α} (present : removed ∈ items) :
    (items.filter (· ≠ removed)).map key = (items.map key).erase (key removed) := by
  rw [distinct.erase_eq_filter, List.filter_map]
  congr 1
  apply List.filter_congr
  intro item member
  by_cases here : item = removed
  · simp [here]
  · have different : key item ≠ key removed :=
      fun same => here (List.inj_on_of_nodup_map distinct member present same)
    simp [here, different]

theorem findSome?_find_eq [DecidableEq α] {items listed all : List α}
    (distinct : (all.map key).Nodup) (within : ∀ item ∈ items, item ∈ all)
    (listedWithin : ∀ item ∈ listed, item ∈ all) :
    items.findSome? (fun item => find key (key item) listed) = items.find? (· ∈ listed) := by
  induction items with
  | nil => rfl
  | cons head tail ih =>
      have headWithin := within head List.mem_cons_self
      have below := ih fun item member => within item (List.mem_cons_of_mem head member)
      rw [List.findSome?_cons, List.find?_cons]
      cases found : find key (key head) listed with
      | some other =>
          obtain ⟨present, same⟩ := find_eq_some key found
          have equal := List.inj_on_of_nodup_map distinct (listedWithin other present) headWithin same
          rw [decide_eq_true (equal ▸ present), equal]
      | none =>
          have absent : head ∉ listed := fun member =>
            find_eq_none key found (List.mem_map_of_mem member)
          rw [decide_eq_false absent]
          exact below

end Imflib.KeyedList

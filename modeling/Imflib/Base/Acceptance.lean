import Mathlib.Tactic.Common

/-! When a computation with an optional result, or with an error, has a result. Each step is taken
by itself if the rest of the computation has one for every value or for none. -/

namespace Imflib

universe u v

section Option

variable {α β : Type u}

theorem isSome_bind_iff {first : Option α} {next : α → Option β} {holds : Prop}
    (later : ∀ value, (next value).isSome ↔ holds) :
    (first >>= next).isSome ↔ first.isSome ∧ holds := by
  cases first with
  | none => simp
  | some value => simp [later value]

theorem isSome_mapM {read : α → Option β} {items : List α} :
    (items.mapM read).isSome ↔ ∀ item ∈ items, (read item).isSome := by
  induction items with
  | nil => simp
  | cons item rest ih =>
      rw [List.mapM_cons, List.forall_mem_cons, ← ih]
      refine isSome_bind_iff fun value => ?_
      rw [isSome_bind_iff fun values => iff_of_true rfl trivial, and_true]

theorem length_of_mapM {read : α → Option β} {items : List α} {values : List β}
    (made : items.mapM read = some values) : values.length = items.length := by
  induction items generalizing values with
  | nil =>
      cases made
      rfl
  | cons item rest ih =>
      rw [List.mapM_cons] at made
      obtain ⟨value, -, made⟩ := Option.bind_eq_some_iff.mp made
      obtain ⟨others, later, made⟩ := Option.bind_eq_some_iff.mp made
      cases made
      rw [List.length_cons, List.length_cons, ih later]

theorem exists_of_mem_mapM {read : α → Option β} {items : List α} {values : List β}
    (made : items.mapM read = some values) {value : β} (member : value ∈ values) :
    ∃ item ∈ items, read item = some value := by
  induction items generalizing values with
  | nil =>
      cases made
      cases member
  | cons item rest ih =>
      rw [List.mapM_cons] at made
      obtain ⟨first, read, made⟩ := Option.bind_eq_some_iff.mp made
      obtain ⟨others, later, made⟩ := Option.bind_eq_some_iff.mp made
      cases made
      rcases List.mem_cons.mp member with rfl | member
      · exact ⟨item, List.mem_cons_self, read⟩
      · obtain ⟨source, inside, read⟩ := ih later member
        exact ⟨source, List.mem_cons_of_mem item inside, read⟩

end Option

section Except

variable {ε : Type u} {α β : Type v}

theorem succeeds_bind_iff {first : Except ε α} {next : α → Except ε β} {holds : Prop}
    (later : ∀ value, (∃ result, next value = .ok result) ↔ holds) :
    (∃ result, first >>= next = .ok result) ↔ (∃ value, first = .ok value) ∧ holds := by
  cases first with
  | error error => simp [bind, Except.bind]
  | ok value => simpa [bind, Except.bind] using later value

theorem succeeds_mapM {read : α → Except ε β} {items : List α} :
    (∃ values, items.mapM read = .ok values) ↔ ∀ item ∈ items, ∃ value, read item = .ok value := by
  induction items with
  | nil => simp [pure, Except.pure]
  | cons item rest ih =>
      rw [List.mapM_cons, List.forall_mem_cons, ← ih]
      refine succeeds_bind_iff fun value => ?_
      exact (succeeds_bind_iff fun values => iff_of_true ⟨_, rfl⟩ trivial).trans
        (iff_of_eq (and_true _))

theorem map_eq_ok {change : α → β} {attempt : Except ε α} {result : β} :
    attempt.map change = .ok result ↔ ∃ value, attempt = .ok value ∧ change value = result := by
  cases attempt <;> simp [Except.map]

theorem succeeds_map {change : α → β} {attempt : Except ε α} :
    (∃ result, attempt.map change = .ok result) ↔ ∃ value, attempt = .ok value := by
  cases attempt <;> simp [Except.map]

end Except

end Imflib

import Mathlib.Tactic.Common

/-! How a computation fails, up to a classification of its errors: by the first of the checks it
makes that is not passed. -/

namespace Imflib

universe u v w x

def failure {ε : Type u} {α : Type v} {κ : Type w} (classify : ε → κ) : Except ε α → Option κ
  | .ok _ => none
  | .error error => some (classify error)

def firstFailure {κ : Type w} (checks : List (Option κ)) : Option κ := checks.findSome? id

section FirstFailure

variable {κ : Type w}

@[simp] theorem firstFailure_nil : firstFailure ([] : List (Option κ)) = none := rfl

@[simp] theorem firstFailure_cons (check : Option κ) (checks : List (Option κ)) :
    firstFailure (check :: checks) = check.or (firstFailure checks) := by
  cases check <;> rfl

@[simp] theorem firstFailure_append (first second : List (Option κ)) :
    firstFailure (first ++ second) = (firstFailure first).or (firstFailure second) := by
  induction first with
  | nil => rfl
  | cons check first ih => rw [List.cons_append, firstFailure_cons, firstFailure_cons, ih, Option.or_assoc]

theorem firstFailure_eq_none {checks : List (Option κ)} :
    firstFailure checks = none ↔ ∀ check ∈ checks, check = none :=
  List.findSome?_eq_none_iff

theorem firstFailure_eq_none_congr {first second : List (Option κ)} (perm : first.Perm second) :
    firstFailure first = none ↔ firstFailure second = none := by
  rw [firstFailure_eq_none, firstFailure_eq_none]
  exact forall_congr' fun check => imp_congr_left perm.mem_iff

end FirstFailure

section Failure

variable {ε α β : Type u} {κ : Type w} {classify : ε → κ}

@[simp] theorem failure_ok (value : α) : failure classify (Except.ok value) = none := rfl

@[simp] theorem failure_error (error : ε) :
    failure classify (Except.error error : Except ε α) = some (classify error) := rfl

theorem failure_eq_none {attempt : Except ε α} :
    failure classify attempt = none ↔ ∃ value, attempt = .ok value := by
  cases attempt with
  | ok value => exact iff_of_true rfl ⟨value, rfl⟩
  | error error => exact iff_of_false nofun nofun

theorem failure_bind {first : Except ε α} {next : α → Except ε β} {rest : Option κ}
    (later : ∀ value, first = .ok value → failure classify (next value) = rest) :
    failure classify (first >>= next) = (failure classify first).or rest := by
  cases first with
  | ok value => exact later value rfl
  | error error => rfl

theorem failure_bind_ok {first : Except ε α} (change : α → β) :
    failure classify (first >>= fun value => .ok (change value)) = failure classify first := by
  cases first <;> rfl

theorem failure_map {attempt : Except ε α} (change : α → β) :
    failure classify (attempt.map change) = failure classify attempt := by
  cases attempt <;> rfl

/-- A fold fails at the first check of its items that is not passed, as long as the checks
find what the steps find. -/
theorem failure_foldlM {step : β → α → Except ε β} {checks : α → List (Option κ)}
    (invariant : β → Prop)
    (steps : ∀ state item, invariant state →
      failure classify (step state item) = firstFailure (checks item))
    (kept : ∀ state item next, invariant state → step state item = .ok next → invariant next)
    (items : List α) {start : β} (initially : invariant start) :
    failure classify (items.foldlM step start) = firstFailure (items.flatMap checks) := by
  induction items generalizing start with
  | nil => rfl
  | cons item rest ih =>
      rw [List.foldlM_cons, List.flatMap_cons, firstFailure_append, ← steps start item initially]
      exact failure_bind fun next taken => ih (kept start item next initially taken)

theorem failure_foldlM_map {step : β → α → Except ε β} {check : α → Option κ}
    (steps : ∀ state item, failure classify (step state item) = check item)
    (items : List α) (start : β) :
    failure classify (items.foldlM step start) = firstFailure (items.map check) := by
  rw [List.map_eq_flatMap]
  refine failure_foldlM (fun _ => True) (fun state item _ => ?_) (fun _ _ _ _ _ => trivial) items
    trivial
  rw [steps, firstFailure_cons, firstFailure_nil, Option.or_none]

end Failure

end Imflib

import Imflib.Base.FirstFailure

/-! Procedures that may fail. What was done before the failure stays done. -/

namespace Imflib

universe u v w

structure Outcome (σ : Type u) (ε : Type v) where
  state : σ
  error : Option ε

namespace Outcome

variable {σ τ : Type u} {ε : Type v} {α : Type w}

def done (state : σ) : Outcome σ ε := ⟨state, none⟩

def fail (state : σ) (error : ε) : Outcome σ ε := ⟨state, some error⟩

def map (change : σ → τ) (outcome : Outcome σ ε) : Outcome τ ε :=
  ⟨change outcome.state, outcome.error⟩

def mapError (change : ε → ε) (outcome : Outcome σ ε) : Outcome σ ε :=
  ⟨outcome.state, outcome.error.map change⟩

def andThen (first : Outcome σ ε) (next : σ → Outcome σ ε) : Outcome σ ε :=
  match first.error with
  | none => next first.state
  | some error => ⟨first.state, some error⟩

def forEach (step : σ → α → Outcome σ ε) : List α → σ → Outcome σ ε
  | [], state => done state
  | item :: rest, state => (step state item).andThen (forEach step rest)

def traverse {σ : Type u} {α : Type u} (step : σ → α → Outcome (σ × α) ε) :
    List α → σ → Outcome (σ × List α) ε
  | [], state => done (state, [])
  | item :: rest, state =>
      match step state item with
      | ⟨(state, item), some error⟩ => fail (state, item :: rest) error
      | ⟨(state, item), none⟩ =>
          (traverse step rest state).map fun after => (after.1, item :: after.2)

theorem andThen_keeps (invariant : σ → Prop) {first : Outcome σ ε} {next : σ → Outcome σ ε}
    (start : invariant first.state) (step : ∀ state, invariant state → invariant (next state).state) :
    invariant (first.andThen next).state := by
  unfold andThen
  split
  · exact step _ start
  · exact start

theorem andThen_succeeded {first : Outcome σ ε} {next : σ → Outcome σ ε} :
    (first.andThen next).error = none ↔
      first.error = none ∧ (next first.state).error = none := by
  unfold andThen
  split
  · rename_i succeeded
    rw [succeeded]
    exact (and_iff_right rfl).symm
  · rename_i error failed
    rw [failed]
    exact iff_of_false (Option.some_ne_none error) fun both => Option.some_ne_none error both.1

theorem andThen_of_succeeded {first : Outcome σ ε} (next : σ → Outcome σ ε)
    (succeeded : first.error = none) : first.andThen next = next first.state := by
  rw [andThen, succeeded]

theorem error_of_andThen {first : Outcome σ ε} {next : σ → Outcome σ ε} {error : ε}
    (failed : (first.andThen next).error = some error) :
    first.error = some error ∨ (next first.state).error = some error := by
  unfold andThen at failed
  split at failed
  · exact .inr failed
  · rename_i same
    exact .inl (same.trans failed)

theorem andThen_assoc (first : Outcome σ ε) (second third : σ → Outcome σ ε) :
    (first.andThen second).andThen third = first.andThen fun state => (second state).andThen third := by
  rcases first with ⟨state, error⟩
  cases error <;> rfl

theorem mapError_succeeded {change : ε → ε} {outcome : Outcome σ ε} :
    (outcome.mapError change).error = none ↔ outcome.error = none :=
  Option.map_eq_none_iff

section ForEach

variable {step : σ → α → Outcome σ ε} {items : List α} {state : σ}

theorem forEach_keeps (invariant : σ → Prop)
    (steps : ∀ item ∈ items, ∀ state, invariant state → invariant (step state item).state)
    (start : invariant state) : invariant (forEach step items state).state := by
  induction items generalizing state with
  | nil => exact start
  | cons item rest ih =>
      refine andThen_keeps invariant (steps item List.mem_cons_self state start) ?_
      exact fun state holds => ih (fun other member => steps other (List.mem_cons_of_mem _ member)) holds

theorem error_of_forEach {error : ε} (failed : (forEach step items state).error = some error) :
    ∃ item ∈ items, ∃ before, (step before item).error = some error := by
  induction items generalizing state with
  | nil => cases failed
  | cons item rest ih =>
      rcases error_of_andThen failed with own | later
      · exact ⟨item, List.mem_cons_self, state, own⟩
      · rcases ih later with ⟨other, member, found⟩
        exact ⟨other, List.mem_cons_of_mem item member, found⟩

theorem forEach_achieves (invariant : σ → Prop) (goal : α → σ → Prop)
    (steps : ∀ item ∈ items, ∀ state, invariant state → invariant (step state item).state)
    (own : ∀ item ∈ items, ∀ state, invariant state → (step state item).error = none →
      goal item (step state item).state)
    (others : ∀ item ∈ items, ∀ other ∈ items, ∀ state, invariant state → goal item state →
      goal item (step state other).state)
    (start : invariant state) (succeeded : (forEach step items state).error = none) :
    ∀ item ∈ items, goal item (forEach step items state).state := by
  induction items generalizing state with
  | nil => exact fun item member => absurd member List.not_mem_nil
  | cons head rest ih =>
      obtain ⟨first, later⟩ := andThen_succeeded.mp succeeded
      have next := steps head List.mem_cons_self state start
      have below {item : α} (member : item ∈ rest) := List.mem_cons_of_mem head member
      rw [forEach, andThen_of_succeeded _ first]
      intro item member
      rcases List.mem_cons.mp member with rfl | inRest
      · refine (forEach_keeps (fun state => invariant state ∧ goal item state) ?_
          ⟨next, own item List.mem_cons_self state start first⟩).2
        exact fun other inRest state holds => ⟨steps other (below inRest) state holds.1,
          others item List.mem_cons_self other (below inRest) state holds.1 holds.2⟩
      · exact ih (fun item member => steps item (below member))
          (fun item member => own item (below member))
          (fun item member other otherMember => others item (below member) other (below otherMember))
          next later item inRest

end ForEach

section Traverse

variable {σ α : Type u} {ε : Type v} {step : σ → α → Outcome (σ × α) ε}

theorem traverse_cons (step : σ → α → Outcome (σ × α) ε) (item : α) (rest : List α) (state : σ) :
    traverse step (item :: rest) state =
      match (step state item).error with
      | some error =>
          fail ((step state item).state.1, (step state item).state.2 :: rest) error
      | none => (traverse step rest (step state item).state.1).map fun after =>
          (after.1, (step state item).state.2 :: after.2) := by
  rw [traverse]
  rcases step state item with ⟨⟨next, changed⟩, error⟩
  cases error <;> rfl

theorem traverse_cons_of_succeeded {item : α} {state : σ} (rest : List α)
    (succeeded : (step state item).error = none) :
    traverse step (item :: rest) state =
      (traverse step rest (step state item).state.1).map fun after =>
        (after.1, (step state item).state.2 :: after.2) := by
  rw [traverse_cons, succeeded]

theorem traverse_succeeded {item : α} {rest : List α} {state : σ} :
    (traverse step (item :: rest) state).error = none ↔
      (step state item).error = none ∧
        (traverse step rest (step state item).state.1).error = none := by
  rw [traverse_cons]
  split
  · rename_i failed
    rw [failed]
    exact iff_of_false nofun fun both => nomatch both.1
  · rename_i succeeded
    exact (and_iff_right succeeded).symm

theorem traverse_keeps (invariant : σ → List α → Prop)
    (steps : ∀ state before item after, invariant state (before ++ item :: after) →
      invariant (step state item).state.1 (before ++ (step state item).state.2 :: after))
    (before : List α) {items : List α} {state : σ} (start : invariant state (before ++ items)) :
    invariant (traverse step items state).state.1
      (before ++ (traverse step items state).state.2) := by
  induction items generalizing before state with
  | nil => exact start
  | cons item rest ih =>
      have next := steps state before item rest start
      rw [traverse_cons]
      split
      · exact next
      · have later := ih (before ++ [(step state item).state.2]) (by simpa using next)
        simpa [map] using later

theorem traverse_map {β : Type w} (view : α → β)
    (kept : ∀ state item, view (step state item).state.2 = view item) (items : List α) (state : σ) :
    (traverse step items state).state.2.map view = items.map view := by
  induction items generalizing state with
  | nil => rfl
  | cons item rest ih =>
      rw [traverse_cons]
      split
      · simp [fail, kept]
      · simp [map, kept, ih]

theorem traverse_keeps_state (invariant : σ → Prop) {items : List α}
    (steps : ∀ item ∈ items, ∀ state, invariant state → invariant (step state item).state.1)
    {state : σ} (start : invariant state) : invariant (traverse step items state).state.1 := by
  induction items generalizing state with
  | nil => exact start
  | cons item rest ih =>
      have next := steps item List.mem_cons_self state start
      rw [traverse_cons]
      split
      · exact next
      · exact ih (fun other member => steps other (List.mem_cons_of_mem _ member)) next

theorem traverse_achieves (ready goal : σ → Prop) {items : List α} {item : α} (member : item ∈ items)
    (own : ∀ state, ready state → (step state item).error = none → goal (step state item).state.1)
    (waiting : ∀ other ∈ items, ∀ state, ready state → ready (step state other).state.1)
    (others : ∀ other ∈ items, ∀ state, goal state → goal (step state other).state.1)
    {state : σ} (start : ready state) (succeeded : (traverse step items state).error = none) :
    goal (traverse step items state).state.1 := by
  induction items generalizing state with
  | nil => cases member
  | cons head rest ih =>
      obtain ⟨first, later⟩ := traverse_succeeded.mp succeeded
      have below {other : α} (member : other ∈ rest) := List.mem_cons_of_mem head member
      rw [traverse_cons_of_succeeded rest first]
      rcases List.mem_cons.mp member with rfl | inRest
      · exact traverse_keeps_state goal (fun other inRest => others other (below inRest))
          (own state start first)
      · exact ih inRest (fun other member => waiting other (below member))
          (fun other member => others other (below member))
          (waiting head List.mem_cons_self state start) later

end Traverse

section Retry

variable {σ α : Type u} {ε : Type v}

/-- A procedure that does the same as another one wherever that one succeeds. -/
def Relaxes (relaxed step : σ → α → Outcome (σ × α) ε) : Prop :=
  ∀ state item, (step state item).error = none → relaxed state item = step state item

theorem traverse_relaxes {relaxed step : σ → α → Outcome (σ × α) ε} (relaxes : Relaxes relaxed step)
    {items : List α} {state : σ} (succeeded : (traverse step items state).error = none) :
    traverse relaxed items state = traverse step items state := by
  induction items generalizing state with
  | nil => rfl
  | cons item rest ih =>
      obtain ⟨first, later⟩ := traverse_succeeded.mp succeeded
      have same := relaxes state item first
      have alsoFirst : (relaxed state item).error = none := same ▸ first
      rw [traverse_cons_of_succeeded rest first, traverse_cons_of_succeeded rest alsoFirst, same,
        ih later]

/-- Steps that leave their item alone once it is settled, unless they fail. -/
structure Settles (step : σ → α → Outcome (σ × α) ε) (settled : σ → α → Prop) : Prop where
  own : ∀ state item, (step state item).error = none →
    settled (step state item).state.1 (step state item).state.2
  others : ∀ state item other, settled state other → settled (step state item).state.1 other
  idle : ∀ state item, settled state item → (step state item).error = none →
    step state item = done (state, item)

section Settled

variable {step : σ → α → Outcome (σ × α) ε} {settled : σ → α → Prop} (settles : Settles step settled)
include settles

theorem Settles.traverse_idle {items : List α} {state : σ}
    (all : ∀ item ∈ items, settled state item)
    (succeeded : (traverse step items state).error = none) :
    traverse step items state = done (state, items) := by
  induction items with
  | nil => rfl
  | cons item rest ih =>
      obtain ⟨first, later⟩ := traverse_succeeded.mp succeeded
      have same := settles.idle state item (all item List.mem_cons_self) first
      rw [same] at later
      rw [traverse_cons, same]
      simp only [done]
      rw [ih (fun other member => all other (List.mem_cons_of_mem item member)) later]
      rfl

theorem Settles.traverse_settled {items : List α} {state : σ}
    (succeeded : (traverse step items state).error = none) :
    ∀ item ∈ (traverse step items state).state.2,
      settled (traverse step items state).state.1 item := by
  induction items generalizing state with
  | nil => nofun
  | cons item rest ih =>
      obtain ⟨first, later⟩ := traverse_succeeded.mp succeeded
      rw [traverse_cons_of_succeeded rest first]
      intro other member
      rcases List.mem_cons.mp member with rfl | inRest
      · exact traverse_keeps_state (settled · _)
          (fun next _ state holds => settles.others state next _ holds) (settles.own state item first)
      · exact ih later other inRest

end Settled

/-- A run that failed is taken up again: the items that were done are settled, and the others are
done as if nothing had happened. -/
theorem traverse_retry {first second relaxed : σ → α → Outcome (σ × α) ε} {settled : σ → α → Prop}
    (relaxesFirst : Relaxes relaxed first) (relaxesSecond : Relaxes relaxed second)
    (firstSettles : Settles first settled) (secondSettles : Settles second settled)
    (unchanged : ∀ state item, (first state item).error ≠ none →
      (first state item).state = (state, item))
    {items : List α} {state : σ}
    (succeeded : (traverse second (traverse first items state).state.2
      (traverse first items state).state.1).error = none) :
    traverse relaxed items state = traverse second (traverse first items state).state.2
      (traverse first items state).state.1 := by
  induction items generalizing state with
  | nil => rfl
  | cons item rest ih =>
      rw [traverse_cons first] at succeeded ⊢
      cases done : (first state item).error with
      | some error =>
          have same := unchanged state item (done ▸ Option.some_ne_none error)
          rw [done] at succeeded
          simp only [fail, same] at succeeded ⊢
          exact traverse_relaxes relaxesSecond succeeded
      | none =>
          rw [done] at succeeded
          simp only [map] at succeeded ⊢
          have stays : settled (traverse first rest (first state item).state.1).state.1
              (first state item).state.2 :=
            traverse_keeps_state (settled · _)
              (fun next _ state holds => firstSettles.others state next _ holds)
              (firstSettles.own state item done)
          have idle := secondSettles.idle _ _ stays (traverse_succeeded.mp succeeded).1
          rw [traverse_cons second, idle] at succeeded ⊢
          rw [traverse_cons relaxed, relaxesFirst state item done, done]
          simp only [Outcome.done] at succeeded ⊢
          rw [ih succeeded]

end Retry

section Failure

variable {σ : Type u} {ε : Type v} {α : Type w} {κ : Type w} (classify : ε → κ)

def failure (outcome : Outcome σ ε) : Option κ := outcome.error.map classify

variable {classify}

theorem failure_andThen {first : Outcome σ ε} {next : σ → Outcome σ ε} {rest : Option κ}
    (later : first.error = none → (next first.state).failure classify = rest) :
    (first.andThen next).failure classify = (first.failure classify).or rest := by
  cases ended : first.error with
  | none =>
      rw [andThen_of_succeeded next ended, later ended, failure, ended]
      rfl
  | some error =>
      rw [andThen, ended, failure, failure, ended]
      rfl

theorem failure_forEach {step : σ → α → Outcome σ ε} {checks : α → List (Option κ)}
    (invariant : σ → Prop)
    (steps : ∀ state item, invariant state →
      (step state item).failure classify = firstFailure (checks item))
    (kept : ∀ state item, invariant state → invariant (step state item).state)
    (items : List α) {state : σ} (start : invariant state) :
    (forEach step items state).failure classify = firstFailure (items.flatMap checks) := by
  induction items generalizing state with
  | nil => rfl
  | cons item rest ih =>
      rw [forEach, List.flatMap_cons, firstFailure_append, ← steps state item start]
      exact failure_andThen fun _ => ih (kept state item start)

end Failure

end Outcome

end Imflib

import Imflib.View.DragDrop
import Imflib.View.WellFormed

/-! Where a dropped track goes. -/

namespace Imflib.View

open Imflib.Package

/-- It was so at some time, and there has been no break since. At the beginning it may have been so
already. -/
def Latched (wanted held : Bool) (sides : List (Option Bool)) : Prop :=
  (∃ earlier later, sides = earlier ++ some wanted :: later ∧ none ∉ later) ∨
    held = true ∧ none ∉ sides

theorem latched_nil {wanted held : Bool} : Latched wanted held [] ↔ held = true := by
  constructor
  · rintro (⟨earlier, later, empty, -⟩ | ⟨started, -⟩)
    · cases earlier <;> cases empty
    · exact started
  · exact fun started => .inr ⟨started, List.not_mem_nil⟩

theorem not_latched_none {wanted held : Bool} (sides : List (Option Bool)) :
    ¬ Latched wanted held (sides ++ [none]) := by
  rintro (⟨earlier, later, split, unbroken⟩ | ⟨-, unbroken⟩)
  · rcases List.eq_nil_or_concat later with rfl | ⟨front, last, rfl⟩
    · cases (List.append_inj' split rfl).2
    · rw [List.concat_eq_append, ← List.cons_append, ← List.append_assoc] at split
      rw [List.concat_eq_append, ← (List.append_inj' split rfl).2] at unbroken
      exact unbroken (List.mem_append_right front (List.mem_singleton_self none))
  · exact unbroken (List.mem_append_right sides (List.mem_singleton_self none))

theorem latched_some {wanted held side : Bool} (sides : List (Option Bool)) :
    Latched wanted held (sides ++ [some side]) ↔ side = wanted ∨ Latched wanted held sides := by
  have absent (later : List (Option Bool)) : none ∉ later ++ [some side] ↔ none ∉ later := by simp
  constructor
  · rintro (⟨earlier, later, split, unbroken⟩ | ⟨started, unbroken⟩)
    · rcases List.eq_nil_or_concat later with rfl | ⟨front, last, rfl⟩
      · cases (List.append_inj' split rfl).2
        exact .inl rfl
      · rw [List.concat_eq_append, ← List.cons_append, ← List.append_assoc] at split
        obtain ⟨same, last⟩ := List.append_inj' split rfl
        refine .inr (.inl ⟨earlier, front, same, fun member => unbroken ?_⟩)
        rw [List.concat_eq_append]
        exact List.mem_append_left _ member
    · exact .inr (.inr ⟨started, (absent sides).mp unbroken⟩)
  · rintro (rfl | ⟨earlier, later, rfl, unbroken⟩ | ⟨started, unbroken⟩)
    · exact .inl ⟨sides, [], rfl, List.not_mem_nil⟩
    · refine .inl ⟨earlier, later ++ [some side], ?_, (absent later).mpr unbroken⟩
      rw [List.append_assoc, List.cons_append]
    · exact .inr ⟨started, (absent sides).mpr unbroken⟩

namespace RenderRect

/-- The area in which a pointer is, the right one or the left one. -/
def side (control : Bool) (x y : Int) (r : RenderRect) : Option Bool :=
  if r.takes control && r.inRight x y then some true
  else if r.takes control && r.inLeft x y then some false
  else none

variable {control : Bool} {x y : Int} {r : RenderRect}

theorem toSceneItem_moved : (r.moved control x y).toSceneItem = r.toSceneItem := by
  unfold moved
  split_ifs <;> rfl

theorem right_moved : (r.moved control x y).drawAttachAreaRight = true ↔
    r.side control x y = some true ∨
      r.side control x y = some false ∧ r.drawAttachAreaRight = true := by
  unfold moved side
  split_ifs <;> simp [clear]

theorem left_moved : (r.moved control x y).drawAttachAreaLeft = true ↔
    r.side control x y = some false ∨
      r.side control x y = some true ∧ r.drawAttachAreaLeft = true := by
  unfold moved side
  split_ifs <;> simp [clear]

theorem takes_of_side (inside : (r.side control x y).isSome = true) : r.takes control = true := by
  unfold side at inside
  split_ifs at inside with right left
  · exact (Bool.and_eq_true_iff.mp right).1
  · exact (Bool.and_eq_true_iff.mp left).1
  · cases inside

theorem beside_isSome {pointer : Pointer} (own : r.takes pointer.control = true) (track : IMFTrack)
    (made : MadeUUIDs) (append : Bool) : (r.beside pointer track made append).isSome = true := by
  unfold RenderRect.takes at own
  unfold beside
  cases key : r.key with
  | segment segment =>
      rw [key] at own
      simp only [← eq_of_beq own, ItemKey.isSegment, if_true, Option.isSome_some]
  | resource segment sequence resource =>
      rw [key] at own
      simp only [← eq_of_beq own, ItemKey.isSegment, Bool.false_eq_true, if_false,
        Option.isSome_some]

end RenderRect

section Moves

variable (state : DragState) (r : RenderRect)

namespace DragState

def side (pointer : Pointer) : Option Bool :=
  r.side pointer.control (state.sceneX pointer) (state.sceneY pointer)

def movedBy (r : RenderRect) (pointer : Pointer) : RenderRect :=
  r.moved pointer.control (state.sceneX pointer) (state.sceneY pointer)

variable {state r}

theorem side_movedBy (earlier pointer : Pointer) :
    state.side (state.movedBy r earlier) pointer = state.side r pointer := by
  have same : (state.movedBy r earlier).toSceneItem = r.toSceneItem := RenderRect.toSceneItem_moved
  unfold side RenderRect.side RenderRect.takes
  rw [same]

theorem toSceneItem_moves (moves : List Pointer) :
    (moves.foldl state.movedBy r).toSceneItem = r.toSceneItem := by
  induction moves generalizing r with
  | nil => rfl
  | cons first rest ih => exact ih.trans RenderRect.toSceneItem_moved

theorem side_moves (moves : List Pointer) (pointer : Pointer) :
    state.side (moves.foldl state.movedBy r) pointer = state.side r pointer := by
  induction moves generalizing r with
  | nil => rfl
  | cons first rest ih => exact ih.trans (side_movedBy first pointer)

/-- The right area is drawn if the pointer has been in it and in no third place since. -/
theorem right_moves (moves : List Pointer) :
    (moves.foldl state.movedBy r).drawAttachAreaRight = true ↔
      Latched true r.drawAttachAreaRight (moves.map (state.side r)) := by
  induction moves using List.reverseRecOn with
  | nil => exact latched_nil.symm
  | append_singleton earlier pointer ih =>
      rw [List.foldl_append, List.map_append, List.map_singleton, List.foldl_cons, List.foldl_nil]
      have moved : (state.movedBy (earlier.foldl state.movedBy r) pointer).drawAttachAreaRight = true ↔
          state.side (earlier.foldl state.movedBy r) pointer = some true ∨
            state.side (earlier.foldl state.movedBy r) pointer = some false ∧
              (earlier.foldl state.movedBy r).drawAttachAreaRight = true := RenderRect.right_moved
      rw [moved, side_moves, ih]
      cases state.side r pointer with
      | none => exact iff_of_false (by simp) (not_latched_none _)
      | some side =>
          rw [latched_some]
          cases side <;> simp

theorem dragMoves {track : IMFTrack} (dragged : state.dragged = some track) (moves : List Pointer) :
    moves.foldl dragMove state =
      { state with rects := state.rects.map fun r => moves.foldl state.movedBy r } := by
  induction moves generalizing state with
  | nil => simp
  | cons first rest ih =>
      have moved : state.dragMove first =
          { state with rects := state.rects.map fun r => state.movedBy r first } := by
        unfold dragMove
        rw [dragged]
        rfl
      have later := @ih { state with rects := state.rects.map fun r => state.movedBy r first } dragged
      rw [List.foldl_cons, moved, later, List.map_map]
      rfl

theorem attach_moved (pointer : Pointer) (track : IMFTrack) (made : MadeUUIDs) :
    RenderRect.attach pointer track made (state.movedBy r pointer) =
      if (state.side r pointer).isSome then
        r.beside pointer track made (state.movedBy r pointer).drawAttachAreaRight
      else none := by
  have right : (state.movedBy r pointer).drawAttachAreaRight = true ↔
      state.side r pointer = some true ∨
        state.side r pointer = some false ∧ r.drawAttachAreaRight = true := RenderRect.right_moved
  have left : (state.movedBy r pointer).drawAttachAreaLeft = true ↔
      state.side r pointer = some false ∨
        state.side r pointer = some true ∧ r.drawAttachAreaLeft = true := RenderRect.left_moved
  have same (append : Bool) : (state.movedBy r pointer).beside pointer track made append =
      r.beside pointer track made append := by
    unfold RenderRect.beside
    rw [show (state.movedBy r pointer).toSceneItem = r.toSceneItem from RenderRect.toSceneItem_moved]
  rw [RenderRect.attach, same, same]
  cases side : state.side r pointer with
  | none =>
      rw [side] at right left
      rw [if_neg (by simp [right]), if_neg (by simp [left])]
      rfl
  | some side_ =>
      rw [side] at right left
      cases held : (state.movedBy r pointer).drawAttachAreaRight with
      | true => rfl
      | false =>
          rw [held] at right
          have leftSide : side_ = false := by
            cases side_ with
            | false => rfl
            | true => simp at right
          rw [if_neg (by decide), if_pos (left.mpr (.inl (congrArg some leftSide)))]
          rfl

theorem findSome_of_find {α β : Type} {items : List α} {holds : α → Bool} {result : α → Option β}
    (gives : ∀ item, holds item = true → (result item).isSome = true) :
    items.findSome? (fun item => if holds item then result item else none) =
      (items.find? holds).bind result := by
  induction items with
  | nil => rfl
  | cons item rest ih =>
      cases here : holds item with
      | true =>
          have found := gives item here
          rcases Option.isSome_iff_exists.mp found with ⟨value, same⟩
          simp [here, same]
      | false => simp [here, ih]

/-- What a drop does, after a drag over the scene that ends where the track is dropped. The topmost
item decides of those in whose areas the pointer is, and else the segment in which it is. Something
is put behind the item if the pointer has been in its right area and has not left both areas since. -/
theorem drop_goes_to (state : DragState) {track : IMFTrack} (dragged : state.dragged = some track)
    {playlist : IMFCompositionPlaylist} (segments : playlist.segments ≠ []) (moves : List Pointer)
    (pointer : Pointer) (made : MadeUUIDs) :
    ∃ behind : RenderRect → Bool,
      (∀ r, behind r = true ↔
        Latched true r.drawAttachAreaRight ((moves ++ [pointer]).map (state.side r))) ∧
      (((moves ++ [pointer]).foldl dragMove state).drop playlist pointer made =
        ((state.rects.find? fun r => (state.side r pointer).isSome).bind
          fun r => r.beside pointer track made (behind r)).or
          (state.rects.findSome? (RenderRect.addInside pointer (state.sceneX pointer)
            (state.sceneY pointer) track made))) := by
  refine ⟨fun r => ((moves ++ [pointer]).foldl state.movedBy r).drawAttachAreaRight,
    fun r => right_moves _, ?_⟩
  have filled : playlist.segments.isEmpty = false := by
    cases found : playlist.segments with
    | nil => exact absurd found segments
    | cons => rfl
  have attached : RenderRect.attach pointer track made ∘
      (fun r => (moves ++ [pointer]).foldl state.movedBy r) =
      fun r => if (state.side r pointer).isSome then r.beside pointer track made
        ((moves ++ [pointer]).foldl state.movedBy r).drawAttachAreaRight else none := by
    funext r
    have last : (moves ++ [pointer]).foldl state.movedBy r =
        state.movedBy (moves.foldl state.movedBy r) pointer := by
      rw [List.foldl_append, List.foldl_cons, List.foldl_nil]
    rw [Function.comp_apply, last, attach_moved, side_moves, RenderRect.beside, toSceneItem_moves,
      RenderRect.beside]
  have added : RenderRect.addInside pointer (state.sceneX pointer) (state.sceneY pointer) track made ∘
      (fun r => (moves ++ [pointer]).foldl state.movedBy r) =
      RenderRect.addInside pointer (state.sceneX pointer) (state.sceneY pointer) track made := by
    funext r
    simp only [Function.comp_apply, RenderRect.addInside, toSceneItem_moves]
  rw [dragMoves dragged]
  unfold drop
  simp only [dragged, filled, Bool.false_eq_true, if_false, List.findSome?_map, attached]
  rw [findSome_of_find]
  · exact congrArg (Option.or _) (congrArg (List.findSome? · state.rects) added)
  · exact fun r inside => RenderRect.beside_isSome (RenderRect.takes_of_side inside) track made _

section Sample

def overVideo : DragState :=
  ⟨[.painted ⟨.resource 0 0 0, ⟨0, 3, 5, 31⟩⟩, .painted ⟨.segment 0, ⟨0, 0, 6, 256⟩⟩],
    some Package.Sample.audio, 0, 0⟩

/-- From the right edge of the video to the left one in one move: it goes behind the video. -/
theorem drop_goes_to_behind :
    (([Pointer.mk 4 10 false] ++ [Pointer.mk 1 10 false]).foldl dragMove overVideo).drop
        CPLSequenceView.firstView.compositionPlaylist ⟨1, 10, false⟩ ⟨"s2", "q2", "t2", "r2"⟩ =
      some (.insertResource 0 0 0 Package.Sample.audio true ⟨"s2", "q2", "t2", "r2"⟩) := by
  have segments : CPLSequenceView.firstView.compositionPlaylist.segments ≠ [] := by decide
  rcases overVideo.drop_goes_to rfl segments [Pointer.mk 4 10 false] ⟨1, 10, false⟩
    ⟨"s2", "q2", "t2", "r2"⟩ with ⟨behind, latched, goes⟩
  have found : overVideo.rects.find? (fun r => (overVideo.side r ⟨1, 10, false⟩).isSome) =
      some (.painted ⟨.resource 0 0 0, ⟨0, 3, 5, 31⟩⟩) := by
    decide +kernel
  have sides : ([Pointer.mk 4 10 false] ++ [Pointer.mk 1 10 false]).map
      (overVideo.side (.painted ⟨.resource 0 0 0, ⟨0, 3, 5, 31⟩⟩)) = [some true, some false] := by
    decide +kernel
  have last : behind (.painted ⟨.resource 0 0 0, ⟨0, 3, 5, 31⟩⟩) = true := by
    rw [latched, sides]
    exact .inl ⟨[], [some false], rfl, by decide⟩
  rw [goes, found, Option.bind_some, RenderRect.beside, last]
  rfl

end Sample

end DragState

end Moves

end Imflib.View

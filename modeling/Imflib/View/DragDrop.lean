import Imflib.Package.Durations
import Imflib.View.Scene

/-! Dragging a track over the timeline and dropping it. The rectangles remember which of their areas
the pointer was in. -/

namespace Imflib.View

open Imflib.Package

structure RenderRect extends SceneItem where
  drawAttachAreaLeft : Bool
  drawAttachAreaRight : Bool
  deriving DecidableEq, Repr

structure Pointer where
  x : Int
  y : Int
  control : Bool
  deriving DecidableEq, Repr

structure DragState where
  rects : List RenderRect
  dragged : Option IMFTrack
  scrollX : Int
  scrollY : Int

namespace RenderRect

def painted (item : SceneItem) : RenderRect := ⟨item, false, false⟩

def clear (r : RenderRect) : RenderRect :=
  { r with drawAttachAreaLeft := false, drawAttachAreaRight := false }

/-- With the control key segments take the track, without it resources. -/
def takes (r : RenderRect) (control : Bool) : Bool := r.key.isSegment == control

def moved (control : Bool) (x y : Int) (r : RenderRect) : RenderRect :=
  if r.takes control && r.inRight x y then { r with drawAttachAreaRight := true }
  else if r.takes control && r.inLeft x y then { r with drawAttachAreaLeft := true }
  else r.clear

def left (r : RenderRect) : RenderRect := if r.key.isSegment then r else r.clear

/-- The action beside an item, if its kind is the one that the control key asks for. -/
def beside (r : RenderRect) (pointer : Pointer) (track : IMFTrack) (made : MadeUUIDs)
    (append : Bool) : Option Action :=
  match r.key with
  | .segment segment =>
      if pointer.control then some (.insertSegment segment track pointer.y append made) else none
  | .resource segment sequence resource =>
      if pointer.control then none
      else some (.insertResource segment sequence resource track append made)

def attach (pointer : Pointer) (track : IMFTrack) (made : MadeUUIDs) (r : RenderRect) :
    Option Action :=
  if r.drawAttachAreaRight then r.beside pointer track made true
  else if r.drawAttachAreaLeft then r.beside pointer track made false
  else none

def addInside (pointer : Pointer) (x y : Int) (track : IMFTrack) (made : MadeUUIDs)
    (r : RenderRect) : Option Action :=
  match r.key with
  | .segment segment =>
      if r.rect.contains x y then some (.addResource segment track pointer.y made) else none
  | .resource _ _ _ => none

end RenderRect

namespace DragState

variable (state : DragState)

def sceneX (pointer : Pointer) : Int := pointer.x + state.scrollX

def sceneY (pointer : Pointer) : Int := pointer.y + state.scrollY

/-- The track hangs on the pointer as a resource of the playlist, as long as it would play. -/
def draggedLength (editRate : RationalNumber) (track : IMFTrack) : Option Int :=
  (standardResource "" track editRate).getNormalizedSourceDuration.map pixels

def dragEnter (editRate : RationalNumber) (track : IMFTrack) : Option DragState :=
  (draggedLength editRate track).map fun _ => { state with dragged := some track }

def dragLeave : DragState :=
  { state with dragged := none, rects := state.rects.map RenderRect.left }

def dragMove (pointer : Pointer) : DragState :=
  match state.dragged with
  | none => state
  | some _ =>
      { state with
        rects := state.rects.map
          (RenderRect.moved pointer.control (state.sceneX pointer) (state.sceneY pointer)) }

/-- What is done to the playlist by a drop. The first item decides that a track is attached to. -/
def drop (playlist : IMFCompositionPlaylist) (pointer : Pointer) (made : MadeUUIDs) :
    Option Action :=
  match state.dragged with
  | none => none
  | some track =>
      if playlist.segments.isEmpty then some (.createFirstSegment track made)
      else
        (state.rects.findSome? (RenderRect.attach pointer track made)).or
          (state.rects.findSome? (RenderRect.addInside pointer (state.sceneX pointer)
            (state.sceneY pointer) track made))

end DragState

inductive DragEvent where
  | enter (track : IMFTrack)
  | move (pointer : Pointer)
  | leave
  deriving DecidableEq, Repr

def DragState.handle (state : DragState) (editRate : RationalNumber) :
    DragEvent → Option DragState
  | .enter track => state.dragEnter editRate track
  | .move pointer => some (state.dragMove pointer)
  | .leave => some state.dragLeave

end Imflib.View

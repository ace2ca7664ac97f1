import Imflib.Base.BinaryFloat
import Imflib.Base.Placement
import Imflib.View.SequenceView

/-! Where the rectangles of a drawn playlist lie, and the areas in them to which a track can be
attached. -/

namespace Imflib.View

open Imflib.Package BinaryFloat Placement

/-- A rectangle. Its edges belong to it, unless it has no width or no height. -/
structure SceneRect where
  x : Int
  y : Int
  width : Int
  height : Int
  deriving DecidableEq, Repr

/-- One side of `QRectF::contains`. A negative extent goes backwards. -/
def spans (start extent at_ : Int) : Bool :=
  if extent < 0 then decide (start + extent ≤ at_ ∧ at_ ≤ start)
  else decide (extent ≠ 0 ∧ start ≤ at_ ∧ at_ ≤ start + extent)

def SceneRect.contains (rect : SceneRect) (x y : Int) : Bool :=
  spans rect.x rect.width x && spans rect.y rect.height y

def SceneRect.moveBy (rect : SceneRect) (x y : Int) : SceneRect :=
  { rect with x := rect.x + x, y := rect.y + y }

/-- The conversion of a `float` to `int`. -/
def truncate (x : ℚ) : Int := if 0 ≤ x then ⌊x⌋ else ⌈x⌉

def zoomFactor : ℚ := 8

/-- `roundf(duration / _zoomFactor)`. The duration becomes a `float`, of which the zoom factor, a
power of two, takes no digit. -/
def pixels (duration : Int) : Int := roundAway (toNearest 24 duration / zoomFactor)

/-- The part of an item's width from which on, or up to which, a track is attached to it. -/
def intersectWidth : ℚ := 3 / 4

def single (x : ℚ) : Int := truncate (toNearest 24 x)

inductive ItemKey where
  | segment (segment : Nat)
  | resource (segment sequence resource : Nat)
  deriving DecidableEq, Repr

def ItemKey.isSegment : ItemKey → Bool
  | segment _ => true
  | resource _ _ _ => false

structure SceneItem where
  key : ItemKey
  rect : SceneRect
  deriving DecidableEq, Repr

namespace SceneItem

variable (item : SceneItem)

def rightIntersectionRect : SceneRect :=
  { x := single (intersectWidth * item.rect.width)
    y := 0
    width := single ((1 - intersectWidth) * item.rect.width)
    height := single item.rect.height }

def leftIntersectionRect : SceneRect :=
  { x := 0
    y := 0
    width := single ((1 - intersectWidth) * item.rect.width)
    height := single item.rect.height }

/-- `mapRectToScene` -/
def mapToScene (rect : SceneRect) : SceneRect := rect.moveBy item.rect.x item.rect.y

def inRight (x y : Int) : Bool := (item.mapToScene item.rightIntersectionRect).contains x y

def inLeft (x y : Int) : Bool := (item.mapToScene item.leftIntersectionRect).contains x y

end SceneItem

section Paint

variable (segmentDuration : CPLSegmentRect → Int) (resourceDuration : CPLResource → Int)
  (viewHeight : Int)

/-- A shadow takes one pixel of each resource, and the next one starts behind it. -/
def resourceItem (segment sequence : Nat) (x trackIndex : Int) (index : Nat)
    (placed : Int × CPLResource) : SceneItem :=
  { key := .resource segment sequence index
    rect :=
      { x := x + placed.1
        y := trackIndex * heightPerTrack + 3
        width := pixels (resourceDuration placed.2) - 1
        height := heightPerTrack - 5 } }

def sequenceItems (segment : Nat) (x : Int) (sequence : Nat) (sequenceRect : CPLSequenceRect) :
    List SceneItem :=
  (place (fun resource => pixels (resourceDuration resource)) 0 sequenceRect.resources).mapIdx
    (resourceItem resourceDuration segment sequence x sequenceRect.trackIndex)

def segmentItems (segment : Nat) (placed : Int × CPLSegmentRect) : List SceneItem :=
  { key := .segment segment
    rect := ⟨placed.1, 0, pixels (segmentDuration placed.2), viewHeight⟩ } ::
    (placed.2.sequences.mapIdx (sequenceItems resourceDuration segment placed.1)).flatten

/-- What is painted, from the bottom to the top. One pixel is left between two segments. -/
def paintedItems (scene : List CPLSegmentRect) : List SceneItem :=
  ((place (fun segment => pixels (segmentDuration segment) + 1) 0 scene).mapIdx
    (segmentItems segmentDuration resourceDuration viewHeight)).flatten

/-- `scene()->items()`, from the top to the bottom. -/
def sceneItems (scene : List CPLSegmentRect) : List SceneItem :=
  (paintedItems segmentDuration resourceDuration viewHeight scene).reverse

end Paint

end Imflib.View

import ChartNormal.Mark.Primitive
import ChartNormal.Scale

/-!
# Encoding channels

What each channel can carry: the marks that accept it, the roles it can play, and the scales it can be mapped through.
-/

namespace ChartNormal

inductive Channel where
  | row
  | column
  | x
  | y
  | x2
  | y2
  | color
  | opacity
  | size
  | shape
  | detail
  | text
  | tooltip
  | order
deriving DecidableEq, Repr

/-- What a channel's scale maps to; colour takes either, depending on the field. -/
inductive RangeKind where
  | continuous
  | discrete
  | flexible
deriving DecidableEq, Repr

namespace Channel

def all : List Channel :=
  [row, column, x, y, x2, y2, color, opacity, size, shape, detail, text, tooltip, order]

def name : Channel → String
  | row => "row"
  | column => "column"
  | x => "x"
  | y => "y"
  | x2 => "x2"
  | y2 => "y2"
  | color => "color"
  | opacity => "opacity"
  | size => "size"
  | shape => "shape"
  | detail => "detail"
  | text => "text"
  | tooltip => "tooltip"
  | order => "order"

def ofName? (s : String) : Option Channel := all.find? (·.name = s)

theorem ofName?_name (c : Channel) : ofName? c.name = some c := by cases c <;> decide

theorem ofName?_eq_some {s : String} {c : Channel} (h : ofName? s = some c) : c.name = s := by
  simpa using List.find?_some h

/-- The channel splits the view into facets. -/
def isFacet : Channel → Bool
  | row | column => true
  | _ => false

/-- The channel takes a list of field definitions. -/
def acceptsList : Channel → Bool
  | detail | order | tooltip => true
  | _ => false

/-- The channel of the other end of a range. -/
def secondary? : Channel → Option Channel
  | x => some x2
  | y => some y2
  | _ => none

def marks : Channel → List Primitive
  | row | column | x | y | color | opacity | detail | tooltip | order => Primitive.all
  | x2 | y2 => [.area, .bar, .rect, .rule]
  | size => [.bar, .circle, .line, .point, .rule, .square, .text, .tick]
  | shape => [.point]
  | text => [.text]

def supports (c : Channel) (mark : Primitive) : Bool := mark ∈ c.marks

def isDimension : Channel → Bool
  | x2 | y2 | size => false
  | _ => true

def isMeasure : Channel → Bool
  | row | column | shape => false
  | _ => true

def hasScale : Channel → Bool
  | row | column | detail | text | tooltip | order => false
  | _ => true

def supportsScale : Channel → Scale → Bool
  | x, s | y, s | x2, s | y2, s | size, s | opacity, s => s.isContinuous || s = .band || s = .point
  | color, s => s ≠ .band
  | shape, s => s = .ordinal
  | _, _ => false

def range? : Channel → Option RangeKind
  | x | y | x2 | y2 | size | opacity => some .continuous
  | row | column | shape | text | tooltip => some .discrete
  | color => some .flexible
  | detail | order => none

/-- The fields of the channel tell the segments of a stack apart. -/
def isStackGroup : Channel → Bool
  | color | detail => true
  | _ => false

end Channel

end ChartNormal

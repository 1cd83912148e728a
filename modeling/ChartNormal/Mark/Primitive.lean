/-!
# Primitive marks
-/

namespace ChartNormal

inductive Primitive where
  | area
  | bar
  | circle
  | line
  | point
  | rect
  | rule
  | square
  | text
  | tick
deriving DecidableEq, Repr

namespace Primitive

def all : List Primitive := [area, bar, circle, line, point, rect, rule, square, text, tick]

def name : Primitive → String
  | area => "area"
  | bar => "bar"
  | circle => "circle"
  | line => "line"
  | point => "point"
  | rect => "rect"
  | rule => "rule"
  | square => "square"
  | text => "text"
  | tick => "tick"

def ofName? (s : String) : Option Primitive := all.find? (·.name = s)

theorem ofName?_name (m : Primitive) : ofName? m.name = some m := by cases m <;> decide

theorem ofName?_eq_some {s : String} {m : Primitive} (h : ofName? s = some m) : m.name = s := by
  simpa using List.find?_some h

end Primitive

end ChartNormal

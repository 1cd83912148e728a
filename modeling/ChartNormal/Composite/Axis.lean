import ChartNormal.Encoding.Basic
import ChartNormal.Report

/-!
# The continuous axis of a composite mark

A composite mark summarises one of its two position channels. If only one of them is continuous it is that one; of two
the one that is aggregated by the tag of the mark, else the one that the mark's orientation asks for, else `y`.
-/

namespace ChartNormal

namespace Composite

/-- The channels that composite marks accept. -/
def channels : List Channel := [.x, .y, .color, .detail, .opacity, .size]

/-- What to do about an aggregate of the axis that is not the tag of the mark. -/
inductive AggregatePolicy where
  | warn
  | refuse
deriving DecidableEq, Repr

def accepted (e : Encoding) : Encoding := e.only channels

def acceptedWarnings (e : Encoding) (tag : String) : List Warning :=
  (e.channels.filter (· ∉ channels)).map (.incompatibleChannel · tag)

def isContinuous (e : Encoding) (c : Channel) : Bool := (e.field? c).any FieldDef.isContinuous

def aggregate? (e : Encoding) (c : Channel) : Option Aggregate := (e.field? c).bind FieldDef.aggregate

/-- The orientation when both axes are continuous. -/
def chosenOrient (x y : Option Aggregate) (mark : MarkDef) (tag : String) : Except Failure Orient :=
  let own := some (Aggregate.composite tag)
  if x = own ∧ y = own then .error (.invalid (.bothAggregated tag))
  else if x = none ∧ y = own then .ok .vertical
  else if y = none ∧ x = own then .ok .horizontal
  else .ok (mark.orient.getD .vertical)

/-- The orientation when only one axis is continuous, with which the mark must agree. -/
def forcedOrient (orient : Orient) (mark : MarkDef) (tag : String) : Except Failure Orient :=
  match mark.orient with
  | some o => if o = orient then .ok orient else .error (.invalid (.orientConflict o tag))
  | none => .ok orient

def orient (e : Encoding) (mark : MarkDef) (tag : String) : Except Failure Orient :=
  match isContinuous e .x, isContinuous e .y with
  | true, true => chosenOrient (aggregate? e .x) (aggregate? e .y) mark tag
  | true, false => forcedOrient .horizontal mark tag
  | false, true => forcedOrient .vertical mark tag
  | false, false => .error (.invalid (.noContinuousAxis tag))

end Composite

def Orient.continuous : Orient → Channel
  | .vertical => .y
  | .horizontal => .x

def Orient.discrete : Orient → Channel
  | .vertical => .x
  | .horizontal => .y

/-- The channel of the far end of a range along the continuous axis. -/
def Orient.secondary : Orient → Channel
  | .vertical => .y2
  | .horizontal => .x2

/-- The axis that a composite mark summarises. -/
structure Axis where
  orient : Orient
  /-- The definition of the axis, without its aggregate. -/
  definition : FieldDef
  field : String
  /-- There is no data on the other axis. -/
  isSingle : Bool
deriving DecidableEq

namespace Axis

open Composite

def channel (a : Axis) : Channel := a.orient.continuous

/-- Binds the axis to the column that `stem` makes of its field. -/
def partField (a : Axis) (stem : String) : FieldDef :=
  { field := some (Column.derived stem a.field)
    type := a.definition.type
    scale := a.definition.scale
    axis := a.definition.axis
    title := a.definition.titleOrField? }

/-- The same for the far end of a range, which has no title of its own. -/
def endField (a : Axis) (stem : String) : FieldDef :=
  { field := some (Column.derived stem a.field), type := a.definition.type }

/-- An aggregate of the axis other than the tag is refused, or dropped with a warning. -/
def checkAggregate (aggregate : Option Aggregate) (tag : String) (policy : AggregatePolicy) : Report Unit :=
  match aggregate with
  | none => pure ()
  | some a =>
    if a = .composite tag then pure ()
    else match policy with
      | .refuse => .fail (.invalid (.axisAggregate a.name))
      | .warn => .warn (.axisAggregate a.name tag)

def resolve (e : Encoding) (orient : Orient) (tag : String) (policy : AggregatePolicy) : Report Axis :=
  match e.field? orient.continuous with
  | none => .fail (.invalid (.noContinuousAxis tag))
  | some d =>
    match d.field with
    | none => .fail (.invalid (.noContinuousAxis tag))
    | some field => do
      checkAggregate d.aggregate tag policy
      pure { orient, field, definition := { d with aggregate := none }, isSingle := !e.hasField orient.discrete }

end Axis

end ChartNormal

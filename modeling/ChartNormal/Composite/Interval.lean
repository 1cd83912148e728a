import ChartNormal.Composite.Basic

/-!
# Error intervals

Error bars and error bands span an interval around a centre. Its ends are aggregated directly, or lie at the same
distance on both sides of the centre.
-/

namespace ChartNormal

inductive IntervalExtent where
  | stderr
  | stdev
  | ci
  | iqr
deriving DecidableEq, Repr

namespace IntervalExtent

def name : IntervalExtent → String
  | stderr => "stderr"
  | stdev => "stdev"
  | ci => "ci"
  | iqr => "iqr"

def ofExtent? : Extent → Option IntervalExtent
  | .named .stderr => some stderr
  | .named .stdev => some stdev
  | .named .ci => some ci
  | .named .iqr => some iqr
  | .named .minMax | .scalar _ => none

def defaultFor : Center → IntervalExtent
  | .mean => stderr
  | .median => iqr

/-- The ends are aggregated from the data and not computed from the centre. -/
def isDirect : IntervalExtent → Bool
  | ci | iqr => true
  | stderr | stdev => false

end IntervalExtent

structure Interval where
  center : Center
  extent : IntervalExtent
deriving DecidableEq, Repr

namespace Interval

/-- The extent that the mark asks for, or else the configuration. -/
def requested? (mark : MarkDef) (extent : Option Extent) : Option Extent := mark.extent.or extent

/-- A requested extent chooses the centre that goes with it, unless the mark names one. -/
def resolve (mark : MarkDef) (center : Center) (extent : Option Extent) : Interval :=
  let known := (requested? mark extent).bind IntervalExtent.ofExtent?
  let center := match mark.center, known with
    | some c, _ => c
    | none, some .iqr => .median
    | none, some _ => .mean
    | none, none => center
  { center, extent := known.getD (.defaultFor center) }

/-- The centre is not the usual one for the extent. -/
def isMismatch : Interval → Bool
  | ⟨.median, .stderr⟩ | ⟨.median, .stdev⟩ | ⟨.mean, .iqr⟩ => true
  | _ => false

def extentWarnings (mark : MarkDef) (extent : Option Extent) (tag : String) : List Warning :=
  match requested? mark extent with
  | some e => if (IntervalExtent.ofExtent? e).isNone then [.invalidExtent e.text tag] else []
  | none => []

def centerWarnings (mark : MarkDef) (i : Interval) (tag : String) : List Warning :=
  if i.extent.isDirect && mark.center.isSome && mark.extent.isSome then [.centerNotNeeded i.extent.name tag]
  else if i.isMismatch then [.centerMismatch i.center.name i.extent.name tag]
  else []

def warnings (mark : MarkDef) (center : Center) (extent : Option Extent) (tag : String) : List Warning :=
  extentWarnings mark extent tag ++ centerWarnings mark (resolve mark center extent) tag

def centerOp (i : Interval) : AggregateOp :=
  match i.center with
  | .mean => .mean
  | .median => .median

/-- The columns to aggregate; the centre is among them where the ends or a part need it. -/
def columns (i : Interval) (field : String) (needsCenter : Bool) : List AggregateColumn :=
  let column (op : AggregateOp) (stem : String) : AggregateColumn :=
    { op, field := some field, as := Column.derived stem field }
  let center := column i.centerOp "center"
  match i.extent with
  | .stderr => [center, column .stderr "extent"]
  | .stdev => [center, column .stdev "extent"]
  | .ci => (if needsCenter then [center] else []) ++ [column .ci0 "lower", column .ci1 "upper"]
  | .iqr => (if needsCenter then [center] else []) ++ [column .q1 "lower", column .q3 "upper"]

def calculates (i : Interval) (field : String) : List CalculateStage :=
  let center := Column.derivedDatum "center" field
  let extent := Column.derivedDatum "extent" field
  if i.extent.isDirect then []
  else
    [⟨center ++ " + " ++ extent, Column.derived "upper" field⟩,
      ⟨center ++ " - " ++ extent, Column.derived "lower" field⟩]

end Interval

end ChartNormal

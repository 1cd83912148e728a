import ChartNormal.Column
import ChartNormal.Json.Printer
import ChartNormal.Json.Record

/-!
# Field definitions

A field definition binds a channel to a column of the data, which may be binned, cut to a time unit or aggregated. The
column that holds the result is named by `FieldDef.column?`: binning goes before aggregation, and aggregation before
the time unit.
-/

namespace ChartNormal

inductive FieldType where
  | quantitative
  | ordinal
  | temporal
  | nominal
deriving DecidableEq, Repr

namespace FieldType

def name : FieldType → String
  | quantitative => "quantitative"
  | ordinal => "ordinal"
  | temporal => "temporal"
  | nominal => "nominal"

def ofName? (s : String) : Option FieldType := [quantitative, ordinal, temporal, nominal].find? (·.name = s)

end FieldType

/-- A request to bin: yes or no, with parameters, or a column that holds bins already. -/
inductive Bin where
  | flag (on : Bool)
  | binned
  | params (p : Object)
deriving DecidableEq

namespace Bin

def isEnabled : Bin → Bool
  | flag on => on
  | binned | params _ => true

/-- A transform still has to bin the column. -/
def needsTransform : Bin → Bool
  | flag on => on
  | binned => false
  | params _ => true

def paramText : Json → String
  | .str s => s
  | j => j.render

/-- The word for the bins in column names, which spells out the parameters. -/
def word : Bin → String
  | flag _ | binned => "bin"
  | params p => "bin" ++ String.join (p.entries.map fun e => Column.variableName ("_" ++ e.1 ++ "_" ++ paramText e.2))

def ofJson? (j : Json) : Option Bin :=
  (j.bool?.map flag).or <| (j.name? fun s => if s = "binned" then some binned else none).or (j.object?.map params)

def toJson : Bin → Json
  | flag on => .bool on
  | binned => .str "binned"
  | params p => .ofObject p

end Bin

inductive AggregateOp where
  | count
  | valid
  | missing
  | distinct
  | sum
  | mean
  | average
  | variance
  | variancep
  | stdev
  | stdevp
  | stderr
  | median
  | q1
  | q3
  | ci0
  | ci1
  | min
  | max
  | argmin
  | argmax
deriving DecidableEq, Repr

namespace AggregateOp

def all : List AggregateOp :=
  [count, valid, missing, distinct, sum, mean, average, variance, variancep, stdev, stdevp, stderr, median, q1, q3,
    ci0, ci1, min, max, argmin, argmax]

def name : AggregateOp → String
  | count => "count"
  | valid => "valid"
  | missing => "missing"
  | distinct => "distinct"
  | sum => "sum"
  | mean => "mean"
  | average => "average"
  | variance => "variance"
  | variancep => "variancep"
  | stdev => "stdev"
  | stdevp => "stdevp"
  | stderr => "stderr"
  | median => "median"
  | q1 => "q1"
  | q3 => "q3"
  | ci0 => "ci0"
  | ci1 => "ci1"
  | min => "min"
  | max => "max"
  | argmin => "argmin"
  | argmax => "argmax"

def ofName? (s : String) : Option AggregateOp := all.find? (·.name = s)

end AggregateOp

/-- An operation, or the tag of the composite mark that summarises the axis. -/
inductive Aggregate where
  | op (o : AggregateOp)
  | composite (tag : String)
deriving DecidableEq, Repr

namespace Aggregate

def name : Aggregate → String
  | op o => o.name
  | composite tag => tag

def op? : Aggregate → Option AggregateOp
  | op o => some o
  | composite _ => none

def ofJson? (j : Json) : Option Aggregate := ((j.name? AggregateOp.ofName?).map op).or (j.string?.map composite)

def toJson (a : Aggregate) : Json := .str a.name

end Aggregate

/-- How the segments of a stack are laid out; `disabled` leaves them unstacked. -/
inductive StackOffset where
  | zero
  | center
  | normalize
  | disabled
deriving DecidableEq, Repr

namespace StackOffset

def name : StackOffset → String
  | zero => "zero"
  | center => "center"
  | normalize => "normalize"
  | disabled => "none"

def ofName? (s : String) : Option StackOffset := [zero, center, normalize, disabled].find? (·.name = s)

end StackOffset

structure FieldDef where
  field : Option String := none
  type : FieldType
  bin : Option Bin := none
  timeUnit : Option String := none
  aggregate : Option Aggregate := none
  scale : Option Json := none
  axis : Option Json := none
  legend : Option Json := none
  sort : Option Json := none
  title : Option String := none
  stack : Option StackOffset := none
  props : Object := ∅
deriving DecidableEq

/-- The column of a bin that is meant: its bounds, the label of both, or its middle. -/
inductive BinColumn where
  | start
  | stop
  | range
  | mid
deriving DecidableEq, Repr

def BinColumn.word : BinColumn → String
  | start => "start"
  | stop => "end"
  | range => "range"
  | mid => "mid"

namespace FieldDef

def fieldNames : List String :=
  ["field", "type", "bin", "timeUnit", "aggregate", "scale", "axis", "legend", "sort", "title", "stack"]

def ofJson? (j : Json) : Option FieldDef := do
  let members ← j.members?
  let field ← members.optional? "field" Json.string?
  let type ← members.required? "type" (Json.name? FieldType.ofName?)
  let bin ← members.optional? "bin" Bin.ofJson?
  let timeUnit ← members.optional? "timeUnit" Json.string?
  let aggregate ← members.optional? "aggregate" Aggregate.ofJson?
  let scale ← members.optional? "scale" Json.any?
  let axis ← members.optional? "axis" Json.any?
  let legend ← members.optional? "legend" Json.any?
  let sort ← members.optional? "sort" Json.any?
  let title ← members.optional? "title" Json.string?
  let stack ← members.optional? "stack" (Json.name? StackOffset.ofName?)
  let props := members.others fieldNames
  some { field, type, bin, timeUnit, aggregate, scale, axis, legend, sort, title, stack, props }

def toJson (d : FieldDef) : Json :=
  .obj <| Members.ofFields
    [("field", d.field.map .str),
      ("type", some (.str d.type.name)),
      ("bin", d.bin.map Bin.toJson),
      ("timeUnit", d.timeUnit.map .str),
      ("aggregate", d.aggregate.map Aggregate.toJson),
      ("scale", d.scale),
      ("axis", d.axis),
      ("legend", d.legend),
      ("sort", d.sort),
      ("title", d.title.map .str),
      ("stack", d.stack.map fun o => .str o.name)]
    d.props

def isBinned (d : FieldDef) : Bool := d.bin.any Bin.isEnabled

/-- The request to bin that a transform still has to carry out. -/
def pendingBin? (d : FieldDef) : Option Bin := d.bin.filter Bin.needsTransform

def isCount (d : FieldDef) : Bool := d.aggregate = some (.op .count)

def op? (d : FieldDef) : Option AggregateOp := d.aggregate.bind Aggregate.op?

def isContinuous (d : FieldDef) : Bool :=
  match d.type with
  | .quantitative => !d.isBinned
  | .temporal => true
  | .nominal | .ordinal => false

def isDimension (d : FieldDef) : Bool :=
  match d.type with
  | .nominal | .ordinal => true
  | .temporal => d.isBinned || d.timeUnit.isSome
  | .quantitative => d.isBinned

def isMeasure (d : FieldDef) : Bool := !d.isDimension

/-- The definition refers to data at all. -/
def hasField (d : FieldDef) : Bool := d.field.isSome || d.isCount

/-- The name of the column, where `bins` names the column of a pending bin from its stem. -/
def columnBy? (d : FieldDef) (bins : String → String) : Option String :=
  match d.field with
  | none => if d.isCount then some Column.count else none
  | some field =>
    match d.pendingBin?, d.aggregate, d.timeUnit with
    | some bin, _, _ => some (bins (Column.derived bin.word field))
    | none, some aggregate, _ => some (Column.derived aggregate.name field)
    | none, none, some timeUnit => some (Column.derived timeUnit field)
    | none, none, none => some field

/-- The column that holds the values of the definition. -/
def binColumn? (d : FieldDef) (which : BinColumn) : Option String :=
  d.columnBy? (Column.suffixed · which.word)

def column? (d : FieldDef) : Option String := d.binColumn? .start

/-- The column that the transform of the definition writes; of bins it is the stem of their columns. -/
def output? (d : FieldDef) : Option String := d.columnBy? id

def titleOrField? (d : FieldDef) : Option String := d.title.or d.field

end FieldDef

end ChartNormal

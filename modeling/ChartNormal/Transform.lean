import ChartNormal.Field

/-!
# Transforms

The stages of a data pipeline. A stage that reads as none of the known ones is kept as it is.
-/

namespace ChartNormal

structure BinStage where
  bin : Bin
  field : String
  as : String
deriving DecidableEq

structure TimeUnitStage where
  timeUnit : String
  field : String
  as : String
deriving DecidableEq

/-- One column that an aggregate stage computes. -/
structure AggregateColumn where
  op : AggregateOp
  field : Option String
  as : String
deriving DecidableEq

structure CalculateStage where
  calculate : String
  as : String
deriving DecidableEq

inductive Transform where
  | bin (stage : BinStage)
  | timeUnit (stage : TimeUnitStage)
  | aggregate (columns : List AggregateColumn) (groupby : List String)
  | calculate (stage : CalculateStage)
  | stack (groupby : List String) (field : String) (sortby : List String) (start stop : String)
      (offset : Option StackOffset)
  | impute (field key : String) (groupby : List String) (value : Option Json)
  | other (o : Object)
deriving DecidableEq

namespace BinStage

def ofJson? (j : Json) : Option BinStage := do
  let members ← j.fields? ["bin", "field", "as"]
  let bin ← members.required? "bin" Bin.ofJson?
  let field ← members.required? "field" Json.string?
  let as ← members.required? "as" Json.string?
  some { bin, field, as }

def toJson (s : BinStage) : Json :=
  .record [("bin", some s.bin.toJson), ("field", some (.str s.field)), ("as", some (.str s.as))]

end BinStage

namespace TimeUnitStage

def ofJson? (j : Json) : Option TimeUnitStage := do
  let members ← j.fields? ["timeUnit", "field", "as"]
  let timeUnit ← members.required? "timeUnit" Json.string?
  let field ← members.required? "field" Json.string?
  let as ← members.required? "as" Json.string?
  some { timeUnit, field, as }

def toJson (s : TimeUnitStage) : Json :=
  .record [("timeUnit", some (.str s.timeUnit)), ("field", some (.str s.field)), ("as", some (.str s.as))]

end TimeUnitStage

namespace AggregateColumn

def fieldNames : List String := ["op", "field", "as"]

def ofJson? (j : Json) : Option AggregateColumn := do
  let members ← j.fields? fieldNames
  let op ← members.required? "op" (Json.name? AggregateOp.ofName?)
  let field ← members.optional? "field" Json.string?
  let as ← members.required? "as" Json.string?
  some { op, field, as }

def toJson (c : AggregateColumn) : Json :=
  .record [("op", some (.str c.op.name)), ("field", c.field.map .str), ("as", some (.str c.as))]

end AggregateColumn

namespace CalculateStage

def fieldNames : List String := ["calculate", "as"]

def ofJson? (j : Json) : Option CalculateStage := do
  let members ← j.fields? fieldNames
  let calculate ← members.required? "calculate" Json.string?
  let as ← members.required? "as" Json.string?
  some { calculate, as }

def toJson (s : CalculateStage) : Json :=
  .record [("calculate", some (.str s.calculate)), ("as", some (.str s.as))]

end CalculateStage

namespace Transform

def aggregate? (j : Json) : Option Transform := do
  let members ← j.fields? ["aggregate", "groupby"]
  let columns ← members.required? "aggregate" (Json.list? AggregateColumn.ofJson?)
  let groupby ← members.default? "groupby" [] (Json.list? Json.string?)
  some (.aggregate columns groupby)

/-- The two columns that a stack stage writes. -/
def bounds? (j : Json) : Option (String × String) := do
  let members ← j.fields? ["start", "end"]
  let start ← members.required? "start" Json.string?
  let stop ← members.required? "end" Json.string?
  some (start, stop)

def stack? (j : Json) : Option Transform := do
  let members ← j.fields? ["groupby", "field", "sortby", "output", "offset"]
  let groupby ← members.required? "groupby" (Json.list? Json.string?)
  let field ← members.required? "field" Json.string?
  let sortby ← members.required? "sortby" (Json.list? Json.string?)
  let (start, stop) ← members.required? "output" bounds?
  let offset ← members.optional? "offset" (Json.name? StackOffset.ofName?)
  some (.stack groupby field sortby start stop offset)

def impute? (j : Json) : Option Transform := do
  let members ← j.fields? ["impute", "key", "groupby", "value"]
  let field ← members.required? "impute" Json.string?
  let key ← members.required? "key" Json.string?
  let groupby ← members.default? "groupby" [] (Json.list? Json.string?)
  let value ← members.optional? "value" Json.any?
  some (.impute field key groupby value)

/-- The first kind of stage that `j` reads as. -/
def ofJson? (j : Json) : Option Transform :=
  ((BinStage.ofJson? j).map bin).or <|
  ((TimeUnitStage.ofJson? j).map timeUnit).or <|
  (aggregate? j).or <|
  ((CalculateStage.ofJson? j).map calculate).or <|
  (stack? j).or <|
  (impute? j).or <|
  j.object?.map other

def toJson : Transform → Json
  | bin s => s.toJson
  | timeUnit s => s.toJson
  | aggregate columns groupby =>
    .record [("aggregate", some (.arr (columns.map AggregateColumn.toJson))), ("groupby", some (.strings groupby))]
  | calculate s => s.toJson
  | stack groupby field sortby start stop offset =>
    .record
      [("groupby", some (.strings groupby)),
        ("field", some (.str field)),
        ("sortby", some (.strings sortby)),
        ("output", some (.record [("start", some (.str start)), ("end", some (.str stop))])),
        ("offset", offset.map fun o => .str o.name)]
  | impute field key groupby value =>
    .record
      [("impute", some (.str field)),
        ("key", some (.str key)),
        ("groupby", Json.unlessEmpty (groupby.map .str)),
        ("value", value)]
  | other o => .ofObject o

end Transform

end ChartNormal

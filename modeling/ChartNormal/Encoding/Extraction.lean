import ChartNormal.Encoding.Basic
import ChartNormal.Report
import ChartNormal.Transform

/-!
# Transforms behind an encoding

Bins, time units and aggregates of an encoding become stages of a pipeline, and each field is renamed to the column that
its stage writes. Fields without an aggregate operation are what the aggregates are grouped by.
-/

namespace ChartNormal

structure Extraction where
  bins : List BinStage
  timeUnits : List TimeUnitStage
  aggregate : List AggregateColumn
  groupby : List String
  encoding : Encoding
deriving DecidableEq

namespace FieldDef

/-- Drops an aggregate that is no operation. -/
def withoutTag (d : FieldDef) : FieldDef := { d with aggregate := d.op?.map .op }

def outputName (d : FieldDef) : String := d.output?.getD ""

def aggregateColumn? (d : FieldDef) : Option AggregateColumn :=
  d.op?.map fun op => { op, field := d.field, as := d.outputName }

def binStage? (d : FieldDef) : Option BinStage :=
  match d.op?, d.pendingBin?, d.field with
  | none, some bin, some field => some { bin, field, as := d.outputName }
  | _, _, _ => none

def timeUnitStage? (d : FieldDef) : Option TimeUnitStage :=
  match d.op?, d.pendingBin?, d.timeUnit, d.field with
  | none, none, some timeUnit, some field => some { timeUnit, field, as := d.outputName }
  | _, _, _, _ => none

def groupKey? (d : FieldDef) : Option String := if d.op?.isSome then none else some d.outputName

/-- The same field, read from the column that its stage writes. Bins stay bins. -/
def extracted (d : FieldDef) : FieldDef :=
  { d with
    field := some d.outputName
    bin := if d.isBinned then some .binned else none
    timeUnit := none
    aggregate := none }

/-- The warning about an aggregate that is no operation. -/
def tagWarning? (c : Channel) (mark : String) (d : FieldDef) : Option Warning :=
  match d.aggregate with
  | some (.composite tag) => some (.foreignAggregate c tag mark)
  | _ => none

end FieldDef

namespace Encoding

def extract (e : Encoding) : Extraction :=
  let e : Encoding := e.mapValues fun _ d => d.mapFields FieldDef.withoutTag
  let defs := e.entries.flatMap fun b => b.2.fieldDefs
  { bins := defs.filterMap FieldDef.binStage?
    timeUnits := defs.filterMap FieldDef.timeUnitStage?
    aggregate := defs.filterMap FieldDef.aggregateColumn?
    groupby := defs.filterMap FieldDef.groupKey?
    encoding := e.mapValues fun _ d => d.mapFields FieldDef.extracted }

def extractWarnings (e : Encoding) (mark : String) : List Warning :=
  e.entries.flatMap fun b => b.2.fieldDefs.filterMap (FieldDef.tagWarning? b.1 mark)

end Encoding

end ChartNormal

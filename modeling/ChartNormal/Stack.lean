import ChartNormal.Config
import ChartNormal.Encoding.Basic
import ChartNormal.Report
import ChartNormal.Transform

/-!
# Stacking

Aggregated bars and areas stack along their one measure axis if colour or detail splits them into segments.
-/

namespace ChartNormal

/-- The scale of each channel, where it is known. -/
abbrev Scales := Channel → Option Scale

/-- The scales that the single fields of an encoding ask for by name. -/
def Encoding.scales (e : Encoding) : Scales := fun c => do
  let d ← e.field? c
  let scale ← d.scale
  let type ← scale.get? "type"
  type.name? Scale.ofName?

structure Stack where
  /-- The channel whose values have a stack each. -/
  groupby : Option Channel
  /-- The measure channel along which segments are stacked. -/
  field : Channel
  /-- The columns that tell the segments of a stack apart. -/
  segments : List String
  offset : StackOffset
  /-- Segments that are missing are filled in with zero. -/
  impute : Bool
deriving DecidableEq, Repr

namespace Stack

def isMeasure (e : Encoding) (c : Channel) : Bool := (e.field? c).any FieldDef.isMeasure

/-- The measure axis and the other one, if there is exactly one. -/
def axes? (e : Encoding) : Option (Channel × Channel) :=
  match isMeasure e .x, isMeasure e .y with
  | true, false => some (.x, .y)
  | false, true => some (.y, .x)
  | _, _ => none

/-- A binned field on an ordinal scale is told apart by the labels of its bins. -/
def segmentsOf (scales : Scales) (c : Channel) : ChannelDef → List String
  | .field d => (d.binColumn? (if scales c = some .ordinal then .range else .start)).toList
  | .fields defs => defs.filterMap FieldDef.column?
  | .value _ => []

def segmentColumns (e : Encoding) (scales : Scales) : List String :=
  e.entries.flatMap fun b => if b.1.isStackGroup then segmentsOf scales b.1 b.2 else []

def isStackable (mark : Primitive) : Bool := mark = .bar || mark = .area

/-- How a unit would stack, whatever the scale and range of its measure axis. -/
def candidate? (mark : Primitive) (e : Encoding) (scales : Scales) (config : Config) : Option Stack := do
  guard (isStackable mark && e.isAggregate)
  let (field, other) ← axes? e
  let offset := ((e.field? field).bind FieldDef.stack).getD config.stack
  guard (offset ≠ .disabled)
  let segments := segmentColumns e scales
  guard (segments ≠ [])
  some { groupby := if e.hasField other then some other else none, field, segments, offset, impute := mark = .area }

/-- What keeps a candidate from being stacked: a range or a scale that is not linear. -/
def obstacle? (e : Encoding) (scales : Scales) (s : Stack) : Option Warning :=
  if s.field.secondary?.any (e.contains ·) then some (.stackRanged s.field)
  else match scales s.field with
    | some scale => if scale = .linear then none else some (.stackNonLinear scale.name)
    | none => none

def of? (mark : Primitive) (e : Encoding) (scales : Scales) (config : Config) : Option Stack :=
  (candidate? mark e scales config).filter fun s => (obstacle? e scales s).isNone

def warnings (mark : Primitive) (e : Encoding) (scales : Scales) (config : Config) : List Warning :=
  ((candidate? mark e scales config).bind (obstacle? e scales)).toList

/-- The column that is stacked. -/
def column? (s : Stack) (e : Encoding) : Option String := (e.field? s.field).bind FieldDef.column?

/-- The columns of the two ends of a segment. -/
def range? (s : Stack) (e : Encoding) : Option (String × String) :=
  (s.column? e).map fun field => (Column.stackStart field, Column.stackEnd field)

def groupColumns (s : Stack) (e : Encoding) : List String :=
  ((s.groupby.bind e.field?).bind FieldDef.column?).toList

def sortColumn? (d : FieldDef) : Option String :=
  d.column?.map fun field => if d.sort = some (.str "descending") then "-" ++ field else field

/-- By the order channel, else by the segments from the last to the first. -/
def sortColumns (s : Stack) (e : Encoding) : List String :=
  match e.get? .order with
  | some (.field d) => (sortColumn? d).toList
  | some (.fields defs) => defs.filterMap sortColumn?
  | _ => s.segments.map ("-" ++ ·)

/-- The stages that stack, and fill in what is missing. -/
def transforms (s : Stack) (e : Encoding) : List Transform :=
  match s.column? e with
  | none => []
  | some field =>
    let groups := s.groupColumns e
    .stack groups field (s.sortColumns e) (Column.stackStart field) (Column.stackEnd field)
        (if s.offset = .zero then none else some s.offset) ::
      match s.impute, groups with
      | true, key :: _ => [.impute field key s.segments (some (.num (.int 0)))]
      | _, _ => []

end Stack

end ChartNormal

import ChartNormal.Composite.Axis
import ChartNormal.Config
import ChartNormal.Encoding.Extraction
import ChartNormal.Spec.Basic

/-!
# Composite marks

A composite mark becomes a layer of units, one or more for each of its parts that is drawn, over one pipeline that
computes the columns they read.
-/

namespace ChartNormal

/-- A unit with a composite mark, after its axis has been found and its transforms have been extracted. -/
structure Composite where
  mark : MarkDef
  axis : Axis
  extraction : Extraction
deriving DecidableEq

namespace Composite

def tag (p : Composite) : String := p.mark.type

def resolve (u : UnitSpec) (policy : AggregatePolicy) : Report Composite := do
  let mark := u.mark.toDef
  let e := accepted u.encoding
  Report.noted () (acceptedWarnings u.encoding mark.type)
  let orient ← orient e mark mark.type
  let axis ← Axis.resolve e orient mark.type policy
  let rest : Encoding := e.without [axis.channel]
  Report.noted { mark, axis, extraction := rest.extract } (rest.extractWarnings mark.type)

/-- What all parts share: the channels besides the continuous one. -/
def shared (p : Composite) : Encoding := p.extraction.encoding

/-- The pipeline of the layer: the stages of the unit, bins, time units, one aggregate, and what is calculated from
it. -/
def pipeline (p : Composite) (before : List Transform) (columns : List AggregateColumn)
    (calculates : List CalculateStage) : List Transform :=
  before ++ p.extraction.bins.map .bin ++ p.extraction.timeUnits.map .timeUnit ++
    .aggregate (p.extraction.aggregate ++ columns) p.extraction.groupby :: calculates.map .calculate

/-- An explicit setting of the mark decides, else the configuration; a part that neither knows is not drawn. -/
def isDrawn (p : Composite) (config : Config) (part : String) : Bool :=
  match (p.mark.part? part).filter PartSetting.isExplicit with
  | some setting => setting.isEnabled
  | none => (config.part? p.tag part).any PartSetting.isEnabled

/-- Lines and areas get no overlays of their own. -/
def withoutOverlays (d : MarkDef) : MarkDef :=
  let off (keys : List String) : MarkDef :=
    { d with props := keys.foldl (fun o k => if o.contains k then o else o.insert k (.bool false)) d.props }
  match Primitive.ofName? d.type with
  | some .line => off ["point"]
  | some .area => off ["point", "line"]
  | _ => d

/-- The properties of a part, each layer over the ones before: the mark it is made of, the configuration, colour and
opacity of the composite mark, the style, and the part's own setting. Type and orientation stay. -/
def partProps (p : Composite) (config : Config) (part : String) (base : MarkDef) : Object :=
  let put (key : String) (value : Option Json) (o : Object) : Object :=
    match value with
    | some v => o.insert key v
    | none => o
  let settings (s : Option PartSetting) (o : Object) : Object :=
    match s with
    | some s => o.extend s.props
    | none => o
  base.toObject
    |> settings (config.part? p.tag part)
    |> put "color" (p.mark.color.map .str)
    |> put "opacity" (p.mark.opacity.map .ofDouble)
    |> put "style" (some (.str (partStyle p.tag part)))
    |> settings (p.mark.part? part)
    |> put "type" (some (.str base.type))
    |> put "orient" (base.orient.map fun o => .str o.name)

def partMark (p : Composite) (config : Config) (part : String) (base : MarkDef) : Except Failure MarkDef :=
  match MarkDef.ofMembers? (p.partProps config part base).entries with
  | some d => .ok (withoutOverlays d)
  | none => .error (.invalidPart part)

/-- The channels of a part: the column named by `start` on the continuous axis, up to the one named by `stop`, and
then `shared`. -/
def partEncoding (p : Composite) (start : String) (stop : Option String) (shared : Encoding) : Encoding :=
  let e : Encoding := (∅ : Encoding).insert p.axis.channel (.field (p.axis.partField start))
  let e : Encoding := match stop with
    | some stop => e.insert p.axis.orient.secondary (.field (p.axis.endField stop))
    | none => e
  e.extend shared

/-- A unit that draws a part, with the channels that its mark supports. -/
def partUnit (p : Composite) (config : Config) (part : String) (base : MarkDef) (start : String)
    (stop : Option String) (shared : Encoding) : Except Failure UnitSpec := do
  let mark ← p.partMark config part base
  let e := p.partEncoding start stop shared
  let encoding := match Primitive.ofName? mark.type with
    | some primitive => e.supportedBy primitive
    | none => e
  pure { mark := .defined mark, encoding }

/-- What is drawn of a part: the mark, the columns it spans, and the channels it shares. -/
structure Drawing where
  part : String
  base : MarkDef
  start : String
  stop : Option String := none
  shared : Encoding

/-- The layer of those drawings whose part is drawn. -/
def layer (p : Composite) (config : Config) (u : UnitSpec) (drawings : List Drawing)
    (columns : List AggregateColumn) (calculates : List CalculateStage) : Except Failure LayerSpec := do
  let drawn := drawings.filter fun d => p.isDrawn config d.part
  let units ← drawn.mapM fun d => p.partUnit config d.part d.base d.start d.stop d.shared
  pure { transform := p.pipeline u.transform columns calculates, layers := units.map .unit, outer := u.outer }

end Composite

end ChartNormal

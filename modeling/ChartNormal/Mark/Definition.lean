import ChartNormal.Json.Printer
import ChartNormal.Json.Record
import ChartNormal.Mark.Primitive

/-!
# Mark definitions

The mark of a unit is a bare tag or a definition whose `type` is the tag. Tags name primitive marks or registered
composite marks. Of a definition the properties that matter here are typed, and the rest is kept in `props`, where
the settings for the parts of a composite mark are found too.
-/

namespace ChartNormal

/-- Which axis carries the measure: `y` of a vertical mark, `x` of a horizontal one. -/
inductive Orient where
  | vertical
  | horizontal
deriving DecidableEq, Repr

namespace Orient

def name : Orient → String
  | vertical => "vertical"
  | horizontal => "horizontal"

def ofName? (s : String) : Option Orient := [vertical, horizontal].find? (·.name = s)

def flip : Orient → Orient
  | vertical => horizontal
  | horizontal => vertical

end Orient

inductive NamedExtent where
  | minMax
  | ci
  | iqr
  | stderr
  | stdev
deriving DecidableEq, Repr

namespace NamedExtent

def name : NamedExtent → String
  | minMax => "min-max"
  | ci => "ci"
  | iqr => "iqr"
  | stderr => "stderr"
  | stdev => "stdev"

def ofName? (s : String) : Option NamedExtent := [minMax, ci, iqr, stderr, stdev].find? (·.name = s)

end NamedExtent

/-- How far a composite mark reaches: a named statistic, or a multiple of the interquartile range. -/
inductive Extent where
  | scalar (k : Double)
  | named (n : NamedExtent)
deriving DecidableEq, Repr

namespace Extent

/-- In expressions and messages a number never has an exponent, and a whole number has no fraction. -/
def layout : Layout := ⟨.up, fun _ => true, false⟩

def factor (k : Double) : String := String.ofList (layout.write k)

def text : Extent → String
  | scalar k => factor k
  | named n => n.name

def ofJson? (j : Json) : Option Extent :=
  (j.double?.map scalar).or ((j.name? NamedExtent.ofName?).map named)

def toJson : Extent → Json
  | scalar k => .ofDouble k
  | named n => .str n.name

end Extent

inductive Center where
  | mean
  | median
deriving DecidableEq, Repr

namespace Center

def name : Center → String
  | mean => "mean"
  | median => "median"

def ofName? (s : String) : Option Center := [mean, median].find? (·.name = s)

end Center

/-- Whether a part of a composite mark is drawn, or the properties it is drawn with. -/
inductive PartSetting where
  | flag (on : Bool)
  | mark (props : Object)
deriving DecidableEq

namespace PartSetting

/-- The setting decides on its own; an empty object leaves it to the next level of defaults. -/
def isExplicit : PartSetting → Bool
  | flag _ => true
  | mark props => !props.isEmpty

def isEnabled : PartSetting → Bool
  | flag on => on
  | mark props => !props.isEmpty

def props : PartSetting → Object
  | flag _ => ∅
  | mark props => props

def ofJson? (j : Json) : Option PartSetting := (j.bool?.map flag).or (j.object?.map mark)

def toJson : PartSetting → Json
  | flag on => .bool on
  | mark props => .ofObject props

end PartSetting

structure MarkDef where
  type : String
  orient : Option Orient := none
  extent : Option Extent := none
  center : Option Center := none
  color : Option String := none
  opacity : Option Double := none
  filled : Option Bool := none
  style : Option String := none
  interpolate : Option String := none
  tension : Option Double := none
  props : Object := ∅
deriving DecidableEq

namespace MarkDef

def fieldNames : List String :=
  ["type", "orient", "extent", "center", "color", "opacity", "filled", "style", "interpolate", "tension"]

def ofMembers? (members : Members) : Option MarkDef := do
  let type ← members.required? "type" Json.string?
  let orient ← members.optional? "orient" (Json.name? Orient.ofName?)
  let extent ← members.optional? "extent" Extent.ofJson?
  let center ← members.optional? "center" (Json.name? Center.ofName?)
  let color ← members.optional? "color" Json.string?
  let opacity ← members.optional? "opacity" Json.double?
  let filled ← members.optional? "filled" Json.bool?
  let style ← members.optional? "style" Json.string?
  let interpolate ← members.optional? "interpolate" Json.string?
  let tension ← members.optional? "tension" Json.double?
  let props := members.others fieldNames
  some { type, orient, extent, center, color, opacity, filled, style, interpolate, tension, props }

def ofJson? (j : Json) : Option MarkDef := j.members?.bind ofMembers?

def toMembers (d : MarkDef) : Members :=
  .ofFields
    [("type", some (.str d.type)),
      ("orient", d.orient.map fun o => .str o.name),
      ("extent", d.extent.map Extent.toJson),
      ("center", d.center.map fun c => .str c.name),
      ("color", d.color.map .str),
      ("opacity", d.opacity.map .ofDouble),
      ("filled", d.filled.map .bool),
      ("style", d.style.map .str),
      ("interpolate", d.interpolate.map .str),
      ("tension", d.tension.map .ofDouble)]
    d.props

def toJson (d : MarkDef) : Json := .obj d.toMembers

/-- The definition as a free-form object. -/
def toObject (d : MarkDef) : Object := .ofList d.toMembers

def withProp (d : MarkDef) (key : String) (value : Json) : MarkDef := { d with props := d.props.insert key value }

/-- The setting of a part, if its property reads as one. -/
def part? (d : MarkDef) (name : String) : Option PartSetting := (d.props.get? name).bind PartSetting.ofJson?

def flag? (d : MarkDef) (name : String) : Option Bool := (d.props.get? name).bind Json.bool?

/-- Writes `overrides` over the properties, which may leave no valid definition. -/
def override? (d : MarkDef) (overrides : Object) : Option MarkDef :=
  if overrides.isEmpty then some d else ofMembers? (d.toObject.extend overrides).entries

end MarkDef

inductive Mark where
  | tag (name : String)
  | defined (d : MarkDef)
deriving DecidableEq

namespace Mark

def type : Mark → String
  | tag name => name
  | defined d => d.type

def primitive? (m : Mark) : Option Primitive := Primitive.ofName? m.type

def toDef : Mark → MarkDef
  | tag name => { type := name }
  | defined d => d

def def? : Mark → Option MarkDef
  | tag _ => none
  | defined d => some d

def ofJson? (j : Json) : Option Mark := (j.string?.map tag).or ((MarkDef.ofJson? j).map defined)

def toJson : Mark → Json
  | tag name => .str name
  | defined d => d.toJson

end Mark

end ChartNormal

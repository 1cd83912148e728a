import ChartNormal.Json.Merge
import ChartNormal.Mark.Definition
import ChartNormal.Field

/-!
# Configuration

A user's configuration is merged over the defaults before it is read, so a section may give only some of its keys.
Sections that are not known are kept.
-/

namespace ChartNormal

/-- What is drawn along the edge of an area. -/
inductive AreaOverlay where
  | line
  | linePoint
deriving DecidableEq, Repr

namespace AreaOverlay

def name : AreaOverlay → String
  | line => "line"
  | linePoint => "linepoint"

def ofName? (s : String) : Option AreaOverlay := [line, linePoint].find? (·.name = s)

end AreaOverlay

structure OverlayConfig where
  /-- Points on top of lines. -/
  line : Bool := false
  area : Option AreaOverlay := none
deriving DecidableEq

structure BoxConfig where
  size : Double := .ofInt 14
  extent : Extent := .scalar (.ofFraction false 3 2)
  color : Option String := none
  mark : Object := ∅
deriving DecidableEq

structure ErrorBarConfig where
  center : Center := .mean
  extent : Option Extent := none
  rule : PartSetting := .flag true
  ticks : PartSetting := .flag false
  bar : Option PartSetting := none
  line : Option PartSetting := none
  point : Option PartSetting := none
deriving DecidableEq

structure ErrorBandConfig where
  center : Center := .mean
  extent : Option Extent := none
  band : PartSetting := .flag true
  borders : PartSetting := .flag false
  interpolate : Option String := none
  tension : Option Double := none
deriving DecidableEq

structure Config where
  stack : StackOffset := .zero
  overlay : OverlayConfig := {}
  box : BoxConfig := {}
  boxWhisker : PartSetting := .flag true
  boxMid : PartSetting := .mark (.ofList [("color", .str "white")])
  errorbar : ErrorBarConfig := {}
  errorband : ErrorBandConfig := {}
  extra : Object := ∅
deriving DecidableEq

namespace OverlayConfig

def fieldNames : List String := ["line", "area"]

def ofJson? (j : Json) : Option OverlayConfig := do
  let members ← j.fields? fieldNames
  let line ← members.default? "line" false Json.bool?
  let area ← members.optional? "area" (Json.name? AreaOverlay.ofName?)
  some { line, area }

def toJson (c : OverlayConfig) : Json :=
  .record [("line", some (.bool c.line)), ("area", c.area.map fun a => .str a.name)]

end OverlayConfig

namespace BoxConfig

def ofJson? (j : Json) : Option BoxConfig := do
  let members ← j.members?
  let size ← members.required? "size" Json.double?
  let extent ← members.required? "extent" Extent.ofJson?
  let color ← members.optional? "color" Json.string?
  let mark := members.others ["size", "extent", "color"]
  some { size, extent, color, mark }

def toJson (c : BoxConfig) : Json :=
  .obj <| Members.ofFields
    [("size", some (.ofDouble c.size)), ("extent", some c.extent.toJson), ("color", c.color.map .str)] c.mark

end BoxConfig

namespace ErrorBarConfig

def fieldNames : List String := ["center", "extent", "rule", "ticks", "bar", "line", "point"]

def ofJson? (j : Json) : Option ErrorBarConfig := do
  let members ← j.fields? fieldNames
  let center ← members.required? "center" (Json.name? Center.ofName?)
  let extent ← members.optional? "extent" Extent.ofJson?
  let rule ← members.required? "rule" PartSetting.ofJson?
  let ticks ← members.required? "ticks" PartSetting.ofJson?
  let bar ← members.optional? "bar" PartSetting.ofJson?
  let line ← members.optional? "line" PartSetting.ofJson?
  let point ← members.optional? "point" PartSetting.ofJson?
  some { center, extent, rule, ticks, bar, line, point }

def toJson (c : ErrorBarConfig) : Json :=
  .record
    [("center", some (.str c.center.name)),
      ("extent", c.extent.map Extent.toJson),
      ("rule", some c.rule.toJson),
      ("ticks", some c.ticks.toJson),
      ("bar", c.bar.map PartSetting.toJson),
      ("line", c.line.map PartSetting.toJson),
      ("point", c.point.map PartSetting.toJson)]

end ErrorBarConfig

namespace ErrorBandConfig

def fieldNames : List String := ["center", "extent", "band", "borders", "interpolate", "tension"]

def ofJson? (j : Json) : Option ErrorBandConfig := do
  let members ← j.fields? fieldNames
  let center ← members.required? "center" (Json.name? Center.ofName?)
  let extent ← members.optional? "extent" Extent.ofJson?
  let band ← members.required? "band" PartSetting.ofJson?
  let borders ← members.required? "borders" PartSetting.ofJson?
  let interpolate ← members.optional? "interpolate" Json.string?
  let tension ← members.optional? "tension" Json.double?
  some { center, extent, band, borders, interpolate, tension }

def toJson (c : ErrorBandConfig) : Json :=
  .record
    [("center", some (.str c.center.name)),
      ("extent", c.extent.map Extent.toJson),
      ("band", some c.band.toJson),
      ("borders", some c.borders.toJson),
      ("interpolate", c.interpolate.map .str),
      ("tension", c.tension.map .ofDouble)]

end ErrorBandConfig

namespace Config

def defaults : Config := {}

def fieldNames : List String :=
  ["stack", "overlay", "box", "boxWhisker", "boxMid", "errorbar", "errorband"]

/-- A missing section is the default one. -/
def ofJson? (j : Json) : Option Config := do
  let members ← j.members?
  let stack ← members.default? "stack" defaults.stack (Json.name? StackOffset.ofName?)
  let overlay ← members.default? "overlay" defaults.overlay OverlayConfig.ofJson?
  let box ← members.default? "box" defaults.box BoxConfig.ofJson?
  let boxWhisker ← members.default? "boxWhisker" defaults.boxWhisker PartSetting.ofJson?
  let boxMid ← members.default? "boxMid" defaults.boxMid PartSetting.ofJson?
  let errorbar ← members.default? "errorbar" defaults.errorbar ErrorBarConfig.ofJson?
  let errorband ← members.default? "errorband" defaults.errorband ErrorBandConfig.ofJson?
  let extra := members.others fieldNames
  some { stack, overlay, box, boxWhisker, boxMid, errorbar, errorband, extra }

def toJson (c : Config) : Json :=
  .obj <| Members.ofFields
    [("stack", some (.str c.stack.name)),
      ("overlay", some c.overlay.toJson),
      ("box", some c.box.toJson),
      ("boxWhisker", some c.boxWhisker.toJson),
      ("boxMid", some c.boxMid.toJson),
      ("errorbar", some c.errorbar.toJson),
      ("errorband", some c.errorband.toJson)]
    c.extra

/-- The configuration in effect when a user gives `user`. -/
def ofUser? (user : Json) : Option Config := ofJson? (defaults.toJson.merge user)

/-- The default setting of a part. Composite marks without a section of their own have one among the unknown
sections. -/
def part? (c : Config) (composite part : String) : Option PartSetting :=
  match composite, part with
  | "box-plot", "box" => some (if c.box.mark.isEmpty then .flag true else .mark c.box.mark)
  | "box-plot", "boxWhisker" => some c.boxWhisker
  | "box-plot", "boxMid" => some c.boxMid
  | "errorbar", "rule" => some c.errorbar.rule
  | "errorbar", "ticks" => some c.errorbar.ticks
  | "errorbar", "bar" => c.errorbar.bar
  | "errorbar", "line" => c.errorbar.line
  | "errorbar", "point" => c.errorbar.point
  | "errorband", "band" => some c.errorband.band
  | "errorband", "borders" => some c.errorband.borders
  | _, _ => ((c.extra.get? composite).bind (·.get? part)).bind PartSetting.ofJson?

end Config

end ChartNormal

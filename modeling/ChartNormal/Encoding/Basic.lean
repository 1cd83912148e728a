import ChartNormal.Channel
import ChartNormal.Field

/-!
# Encodings

An encoding maps channels to definitions in the order of their declaration, and everything derived from it follows that
order.
-/

namespace ChartNormal

/-- What a channel is bound to: fields in order, one field, or a constant. -/
inductive ChannelDef where
  | fields (defs : List FieldDef)
  | field (d : FieldDef)
  | value (v : Json)
deriving DecidableEq

namespace ChannelDef

def field? : ChannelDef → Option FieldDef
  | field d => some d
  | fields _ | value _ => none

def fieldDefs : ChannelDef → List FieldDef
  | fields defs => defs
  | field d => [d]
  | value _ => []

def isValue : ChannelDef → Bool
  | value _ => true
  | _ => false

def mapFields (f : FieldDef → FieldDef) : ChannelDef → ChannelDef
  | fields defs => fields (defs.map f)
  | field d => field (f d)
  | value v => value v

/-- A constant, as a closed record of its value. -/
def value? (j : Json) : Option Json := do
  let members ← j.fields? ["value"]
  members.required? "value" Json.any?

def ofJson? (j : Json) : Option ChannelDef :=
  ((j.list? FieldDef.ofJson?).map fields).or <| ((FieldDef.ofJson? j).map field).or ((value? j).map value)

def toJson : ChannelDef → Json
  | fields defs => .arr (defs.map FieldDef.toJson)
  | field d => d.toJson
  | value v => .record [("value", some v)]

end ChannelDef

abbrev Encoding := OrderedMap Channel ChannelDef

namespace Encoding

def channels (e : Encoding) : List Channel := e.keys

/-- The single field bound to a channel. -/
def field? (e : Encoding) (c : Channel) : Option FieldDef := (e.get? c).bind ChannelDef.field?

/-- The channel is bound to data. -/
def hasField (e : Encoding) (c : Channel) : Bool := (e.get? c).any fun d => d.fieldDefs.any FieldDef.hasField

/-- Some channel is aggregated by an operation. -/
def isAggregate (e : Encoding) : Bool := e.entries.any fun b => b.2.fieldDefs.any fun d => d.op?.isSome

def without (e : Encoding) (cs : List Channel) : Encoding := e.restrict (· ∉ cs)

def only (e : Encoding) (cs : List Channel) : Encoding := e.restrict (· ∈ cs)

/-- The channels that a primitive mark accepts. -/
def supportedBy (e : Encoding) (mark : Primitive) : Encoding := e.restrict (·.supports mark)

def withValue (e : Encoding) (c : Channel) (v : Json) : Encoding := e.insert c (.value v)

/-- A repeated channel keeps its first place and takes its last definition. -/
def ofJson? (j : Json) : Option Encoding := do
  let members ← j.members?
  let bindings ← members.mapM fun e => do
    let c ← Channel.ofName? e.1
    let d ← ChannelDef.ofJson? e.2
    some (c, d)
  some (.ofList bindings)

def toJson (e : Encoding) : Json := .obj (e.entries.map fun b => (b.1.name, b.2.toJson))

end Encoding

end ChartNormal

import ChartNormal.Spec.Basic

/-!
# Specifications in JSON

A node is read as a facet, else as a layer, else as a unit.
-/

namespace ChartNormal

/-- A list of transforms, which may be missing. -/
def Members.transforms? (members : Members) : Option (List Transform) :=
  members.default? "transform" [] (Json.list? Transform.ofJson?)

def transformsField (ts : List Transform) : String × Option Json :=
  ("transform", Json.unlessEmpty (ts.map Transform.toJson))

namespace UnitSpec

def ofJson? (j : Json) : Option UnitSpec := do
  let members ← j.members?
  let transform ← members.transforms?
  let mark ← members.required? "mark" Mark.ofJson?
  let encoding ← members.default? "encoding" ∅ Encoding.ofJson?
  let outer := members.others ["transform", "mark", "encoding"]
  some { transform, mark, encoding, outer }

def toJson (u : UnitSpec) : Json :=
  .obj <| Members.ofFields
    [transformsField u.transform,
      ("mark", some u.mark.toJson),
      ("encoding", if u.encoding.isEmpty then none else some u.encoding.toJson)]
    u.outer

end UnitSpec

namespace FacetMapping

def fieldNames : List String := ["row", "column"]

def ofJson? (j : Json) : Option FacetMapping := do
  let members ← j.fields? fieldNames
  let row ← members.optional? "row" FieldDef.ofJson?
  let column ← members.optional? "column" FieldDef.ofJson?
  some { row, column }

def toJson (m : FacetMapping) : Json :=
  .record [("row", m.row.map FieldDef.toJson), ("column", m.column.map FieldDef.toJson)]

end FacetMapping

/-- Reads a facet, given what its children under `spec` have been read as. -/
def FacetSpec.ofMembers? (members : Members) (children : List (Option Spec)) : Option FacetSpec := do
  let transform ← members.transforms?
  let mapping ← members.required? "facet" FacetMapping.ofJson?
  let [some child] := children | none
  let outer := members.others ["transform", "facet", "spec"]
  some { transform, mapping, child, outer }

/-- Reads a layer, given what its lists under `layer` have been read as. -/
def LayerSpec.ofMembers? (members : Members) (lists : List (Option (List Spec))) : Option LayerSpec := do
  let transform ← members.transforms?
  let [some layers] := lists | none
  let outer := members.others ["transform", "layer"]
  some { transform, layers, outer }

namespace Spec

mutual

def ofJson? : Json → Option Spec
  | .obj members =>
    ((FacetSpec.ofMembers? members (childrenOf members)).map FacetSpec.toSpec).or <|
    ((LayerSpec.ofMembers? members (listsOf members)).map LayerSpec.toSpec).or <|
    (UnitSpec.ofJson? (.obj members)).map unit
  | _ => none

def ofJsons? : List Json → Option (List Spec)
  | [] => some []
  | j :: rest => do
    let s ← ofJson? j
    let ss ← ofJsons? rest
    some (s :: ss)

/-- What each member named `spec` reads as. -/
def childrenOf : Members → List (Option Spec)
  | [] => []
  | (k, j) :: rest => if k = "spec" then ofJson? j :: childrenOf rest else childrenOf rest

/-- What each member named `layer` reads as. -/
def listsOf : Members → List (Option (List Spec))
  | [] => []
  | (k, .arr items) :: rest => if k = "layer" then ofJsons? items :: listsOf rest else listsOf rest
  | (k, _) :: rest => if k = "layer" then none :: listsOf rest else listsOf rest

end

mutual

def toJson : Spec → Json
  | .unit u => u.toJson
  | .layer transform layers outer =>
    .obj <| Members.ofFields [transformsField transform, ("layer", some (.arr (toJsons layers)))] outer
  | .facet transform mapping child outer =>
    .obj <| Members.ofFields
      [transformsField transform, ("facet", some mapping.toJson), ("spec", some child.toJson)] outer

def toJsons : List Spec → List Json
  | [] => []
  | s :: rest => s.toJson :: toJsons rest

end

end Spec

def LayerSpec.ofJson? (j : Json) : Option LayerSpec := do
  let members ← j.members?
  ofMembers? members (Spec.listsOf members)

def FacetSpec.ofJson? (j : Json) : Option FacetSpec := do
  let members ← j.members?
  ofMembers? members (Spec.childrenOf members)

end ChartNormal

import ChartNormal.Encoding.Basic
import ChartNormal.Mark.Definition
import ChartNormal.Transform

/-!
# Specifications

A specification is a tree of units, layers and facets. Each node keeps the properties that it does not know in
`outer`.
-/

namespace ChartNormal

/-- One mark and one encoding. -/
structure UnitSpec where
  transform : List Transform := []
  mark : Mark
  encoding : Encoding := ∅
  outer : Object := ∅
deriving DecidableEq

/-- The fields whose values make the rows and columns of a facet. -/
structure FacetMapping where
  row : Option FieldDef := none
  column : Option FieldDef := none
deriving DecidableEq

inductive Spec where
  | unit (u : UnitSpec)
  | layer (transform : List Transform) (layers : List Spec) (outer : Object)
  | facet (transform : List Transform) (mapping : FacetMapping) (child : Spec) (outer : Object)

/-- Specifications drawn over each other. -/
structure LayerSpec where
  transform : List Transform := []
  layers : List Spec
  outer : Object := ∅

/-- A specification repeated for each row and column. -/
structure FacetSpec where
  transform : List Transform := []
  mapping : FacetMapping
  child : Spec
  outer : Object := ∅

def LayerSpec.toSpec (l : LayerSpec) : Spec := .layer l.transform l.layers l.outer

def FacetSpec.toSpec (f : FacetSpec) : Spec := .facet f.transform f.mapping f.child f.outer

end ChartNormal

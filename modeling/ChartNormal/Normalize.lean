import ChartNormal.Encoding.Support
import ChartNormal.Registry

/-!
# Normalization

A specification is taken to facets, layers and units with primitive marks. Rows and columns of a unit at the top
become a facet around it, composite marks are expanded, and lines and areas get the overlays they ask for. Facets stand
at the top only.
-/

namespace ChartNormal

/-- Where a node stands: at the top, inside a layer, or directly inside a facet. -/
inductive Scope where
  | top
  | layer
  | facet
deriving DecidableEq, Repr

namespace UnitSpec

/-- The properties that size or project a single cell of a facet. -/
def cellProperties : List String := ["width", "height", "projection"]

def hasFacetChannel (u : UnitSpec) : Bool := u.encoding.channels.any Channel.isFacet

/-- The field that a facet channel splits the view by. -/
def facetField? (u : UnitSpec) (c : Channel) : Option FieldDef :=
  (u.encoding.field? c).filter FieldDef.hasField

def facetMapping (u : UnitSpec) : FacetMapping := { row := u.facetField? .row, column := u.facetField? .column }

/-- The facet channels that do not split the view. -/
def emptyFacets (u : UnitSpec) : List Channel :=
  [.row, .column].filter fun c => u.encoding.contains c && (u.facetField? c).isNone

/-- The facet channels that are there. -/
def facets (u : UnitSpec) : List Channel := [.row, .column].filter (u.encoding.contains ·)

def withoutFacets (u : UnitSpec) : UnitSpec := { u with encoding := u.encoding.without [.row, .column] }

/-- What each cell of the facet around a unit shows. -/
def cell (u : UnitSpec) : UnitSpec :=
  { mark := u.mark
    encoding := u.encoding.without [.row, .column]
    outer := u.outer.restrict (· ∈ cellProperties) }

/-- Whether a line, and whether points, are drawn over the mark. -/
def overlays (u : UnitSpec) (config : Config) (mark : Primitive) : Bool × Bool :=
  let flag? (name : String) : Option Bool := u.mark.def?.bind (·.flag? name)
  match mark with
  | .line => (false, (flag? "point").getD config.overlay.line)
  | .area =>
    ((flag? "line").getD config.overlay.area.isSome,
      (flag? "point").getD (config.overlay.area = some .linePoint))
  | _ => (false, false)

/-- The mark under its overlays, which asks for none any more. -/
def overlaidMark (u : UnitSpec) (mark : Primitive) : MarkDef :=
  let base := u.mark.toDef.withProp "point" (.bool false)
  if mark = .area then base.withProp "line" (.bool false) else base

def lineOverlay (color : Option String) (e : Encoding) : UnitSpec :=
  { mark := .defined { type := "line", color, style := some "lineOverlay", props := .ofList [("point", .bool false)] }
    encoding := e.supportedBy .line }

def pointOverlay (color : Option String) (e : Encoding) : UnitSpec :=
  { mark := .defined { type := "point", color, filled := some true, style := some "pointOverlay" }
    encoding := e.supportedBy .point }

/-- A unit with a primitive mark, and its overlays if it has any. -/
def settle (u : UnitSpec) (config : Config) (mark : Primitive) : Spec :=
  let encoding := (u.encoding.promoteSecondary).settle mark
  let (line, point) := u.overlays config mark
  if !line && !point then .unit { u with encoding }
  else
    let base := u.overlaidMark mark
    .layer u.transform
      ([.unit { mark := .defined base, encoding }] ++
        (if line then [.unit (lineOverlay base.color encoding)] else []) ++
        (if point then [.unit (pointOverlay base.color encoding)] else []))
      u.outer

def settleWarnings (u : UnitSpec) (mark : Primitive) : List Warning :=
  (u.encoding.promoteSecondary).settleWarnings mark

end UnitSpec

structure Normalizer where
  config : Config := .defaults
  registry : Registry := .standard

namespace Normalizer

/-- A unit without facet channels; `expand` replaces one with a registered mark. -/
def flatUnit (n : Normalizer) (expand : UnitSpec → Report Spec) (u : UnitSpec) : Report Spec :=
  if n.registry.contains u.mark.type then expand u
  else match u.mark.primitive? with
    | some mark => .noted (u.settle n.config mark) (u.settleWarnings mark)
    | none => .fail (.unknownMark u.mark.type)

/-- At the top facet channels become a facet; elsewhere they are dropped. -/
def unit (n : Normalizer) (expand : UnitSpec → Report Spec) (scope : Scope) (u : UnitSpec) : Report Spec :=
  if !u.hasFacetChannel then n.flatUnit expand u
  else if scope = .top then do
    Report.noted () (u.emptyFacets.map .facetDropped)
    let child ← n.flatUnit expand u.cell
    pure (.facet u.transform u.facetMapping child (u.outer.restrict (· ∉ UnitSpec.cellProperties)))
  else do
    Report.noted () (u.facets.map .facetDropped)
    n.flatUnit expand u.withoutFacets

mutual

def spec (n : Normalizer) (expand : UnitSpec → Report Spec) (scope : Scope) : Spec → Report Spec
  | .unit u => n.unit expand scope u
  | .layer transform layers outer => do
    let layers ← specs n expand layers
    pure (.layer transform layers outer)
  | .facet transform mapping child outer =>
    match scope with
    | .top => do
      let child ← spec n expand .facet child
      pure (.facet transform mapping child outer)
    | .layer => .fail (.invalid .facetInLayer)
    | .facet => .fail (.invalid .facetInFacet)

/-- The layers of a layer. -/
def specs (n : Normalizer) (expand : UnitSpec → Report Spec) : List Spec → Report (List Spec)
  | [] => pure []
  | s :: rest => do
    let s ← spec n expand .layer s
    let rest ← specs n expand rest
    pure (s :: rest)

end

/-- Expands a composite mark, and the composite marks in its expansion, down to `depth` of them inside each other. -/
def expand (n : Normalizer) : (depth : Nat) → UnitSpec → Report Spec
  | 0, u => .fail (.endlessExpansion u.mark.type)
  | depth + 1, u => do
    let l ← n.registry.dispatch u n.config
    let layers ← n.specs (n.expand depth) l.layers
    pure (.layer l.transform layers l.outer)

/-- A depth that no run reaches, since each level takes up memory and no machine has as many bytes. The standard marks
expand into primitive ones, and need a depth of one. -/
def maxExpansion : Nat := 1 <<< 62

def normalize (n : Normalizer) (s : Spec) : Report Spec := n.spec (n.expand maxExpansion) .top s

end Normalizer

end ChartNormal

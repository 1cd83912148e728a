import ChartNormal.Channel
import ChartNormal.Column
import ChartNormal.Composite.Axis
import ChartNormal.Composite.Basic
import ChartNormal.Composite.BoxPlot
import ChartNormal.Composite.ErrorBand
import ChartNormal.Composite.ErrorBar
import ChartNormal.Composite.Interval
import ChartNormal.Config
import ChartNormal.Document
import ChartNormal.Encoding.Basic
import ChartNormal.Encoding.Extraction
import ChartNormal.Encoding.Support
import ChartNormal.Field
import ChartNormal.Json.Basic
import ChartNormal.Json.Merge
import ChartNormal.Json.Numeral
import ChartNormal.Json.Printer
import ChartNormal.Json.Record
import ChartNormal.Json.Token
import ChartNormal.Json.Written
import ChartNormal.Mark.Definition
import ChartNormal.Mark.Primitive
import ChartNormal.Normalize
import ChartNormal.Number.Double
import ChartNormal.Number.Layout
import ChartNormal.Number.Shortest
import ChartNormal.OrderedMap
import ChartNormal.Proofs.Composite.Columns
import ChartNormal.Proofs.Composite.Parts
import ChartNormal.Proofs.Composite.Recipe
import ChartNormal.Proofs.Composite.Resolution
import ChartNormal.Proofs.Encoding
import ChartNormal.Proofs.Expression
import ChartNormal.Proofs.FixedPoint
import ChartNormal.Proofs.NormalForm
import ChartNormal.Proofs.OrderedMap
import ChartNormal.Proofs.Report
import ChartNormal.Proofs.Standard
import ChartNormal.Proofs.Tree
import ChartNormal.Proofs.Validity
import ChartNormal.Registry
import ChartNormal.Report
import ChartNormal.Scale
import ChartNormal.Spec.Basic
import ChartNormal.Spec.Json
import ChartNormal.Spec.Same
import ChartNormal.Stack
import ChartNormal.Text.Word
import ChartNormal.Transform
import ChartNormal.Proofs.Conservation
import ChartNormal.Proofs.Stability
import ChartNormal.Proofs.Transpose.Axis
import ChartNormal.Proofs.Transpose.Expansion
import ChartNormal.Proofs.Transpose.Runs
import ChartNormal.Proofs.Distinct
import ChartNormal.Proofs.Readback.Mark
import ChartNormal.Proofs.Readback.Encoding
import ChartNormal.Proofs.Readback.Transform
import ChartNormal.Proofs.Readback.Tree
import ChartNormal.Proofs.Readback.Runs
import ChartNormal.Proofs.Termination
import ChartNormal.Proofs.Readback.RoundTrip
import ChartNormal.Proofs.Reorder.Runs
import ChartNormal.Proofs.Composite.Ambiguity
import ChartNormal.Proofs.Sections
import ChartNormal.Proofs.Layering
import ChartNormal.Proofs.Shorthand
import ChartNormal.Proofs.OverlayFlags
import ChartNormal.Proofs.Extraction
import ChartNormal.Proofs.Composite.Grouping
import ChartNormal.Proofs.Composite.Orientation
import ChartNormal.Proofs.Composite.Toggles
import ChartNormal.Proofs.Dropping
import ChartNormal.Proofs.Incompatible
import ChartNormal.Proofs.Composite.Precedence
import ChartNormal.Proofs.Merge
import ChartNormal.Proofs.PartSlots
import ChartNormal.Proofs.Deferral
import ChartNormal.Proofs.Readback.Verbatim
import ChartNormal.Proofs.Stacking
import ChartNormal.Proofs.MergePaths
import ChartNormal.Proofs.Composite.Formulas
import ChartNormal.Proofs.Readback.Config
import ChartNormal.Proofs.Effective
import ChartNormal.Proofs.Registry
import ChartNormal.Proofs.DeclarationOrder
import ChartNormal.Proofs.Overrides

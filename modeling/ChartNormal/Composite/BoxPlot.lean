import ChartNormal.Composite.Basic

/-!
# Box plots

Two whiskers, a box between the quartiles and a tick at the median. Whiskers reach the ends of the data, or a multiple of
the interquartile range beyond the box but no further than the data.
-/

namespace ChartNormal

namespace BoxPlot

def tag : String := "box-plot"

def parts : List String := ["box", "boxWhisker", "boxMid"]

inductive Whisker where
  | minMax
  | iqr (k : Double)
deriving DecidableEq, Repr

def Whisker.ofExtent? : Extent → Option Whisker
  | .named .minMax => some .minMax
  | .scalar k => some (.iqr k)
  | .named _ => none

def requested (mark : MarkDef) (config : Config) : Extent := mark.extent.getD config.box.extent

/-- An extent that box plots do not know gives way to the configured one, and that to 1.5. -/
def whisker (mark : MarkDef) (config : Config) : Whisker :=
  ((Whisker.ofExtent? (requested mark config)).or (Whisker.ofExtent? config.box.extent)).getD
    (.iqr (.ofFraction false 3 2))

def whiskerWarnings (mark : MarkDef) (config : Config) : List Warning :=
  match Whisker.ofExtent? (requested mark config) with
  | some _ => []
  | none => [.invalidExtent (requested mark config).text tag]

def column (field : String) (op : AggregateOp) (stem : String) : AggregateColumn :=
  { op, field := some field, as := Column.derived stem field }

def columns (field : String) (w : Whisker) : List AggregateColumn :=
  let (low, high) := match w with
    | .minMax => ("lowerWhisker", "upperWhisker")
    | .iqr _ => ("min", "max")
  [column field .q1 "lowerBox", column field .q3 "upperBox", column field .median "midBox",
    column field .min low, column field .max high]

def calculates (field : String) : Whisker → List CalculateStage
  | .minMax => []
  | .iqr k =>
    let datum (stem : String) : String := Column.derivedDatum stem field
    let reach := datum "iqrRange" ++ " * " ++ Extent.factor k
    [⟨datum "upperBox" ++ " - " ++ datum "lowerBox", Column.derived "iqrRange" field⟩,
      ⟨"min(" ++ datum "upperBox" ++ " + " ++ reach ++ ", " ++ datum "max" ++ ")",
        Column.derived "upperWhisker" field⟩,
      ⟨"max(" ++ datum "lowerBox" ++ " - " ++ reach ++ ", " ++ datum "min" ++ ")",
        Column.derived "lowerWhisker" field⟩]

/-- The size of box and tick: the one of the unit, or the configured one. -/
def size (shared : Encoding) (config : Config) : ChannelDef :=
  (shared.get? .size).getD (.value (.ofDouble config.box.size))

def boxEncoding (shared : Encoding) (config : Config) : Encoding :=
  let colored : Encoding := match config.box.color with
    | some color => if shared.contains .color then shared else shared.withValue .color (.str color)
    | none => shared
  colored.insert .size (size shared config)

def midColor (config : Config) : Json :=
  ((config.part? tag "boxMid").bind fun s => s.props.get? "color").getD (.str "white")

def midEncoding (shared : Encoding) (config : Config) : Encoding :=
  ((shared.without [.size, .color]).withValue .color (midColor config)).insert .size (size shared config)

def drawings (p : Composite) (config : Config) : List Composite.Drawing :=
  let plain := p.shared.without [.color, .size]
  [{ part := "boxWhisker", base := { type := "rule" }, start := "lowerWhisker", stop := some "lowerBox",
      shared := plain },
    { part := "boxWhisker", base := { type := "rule" }, start := "upperBox", stop := some "upperWhisker",
      shared := plain },
    { part := "box", base := { type := "bar", orient := some p.axis.orient }, start := "lowerBox",
      stop := some "upperBox", shared := boxEncoding p.shared config },
    { part := "boxMid", base := { type := "tick", orient := some p.axis.orient.flip }, start := "midBox",
      shared := midEncoding p.shared config }]

def expand (u : UnitSpec) (config : Config) : Report LayerSpec := do
  let p ← Composite.resolve u .refuse
  let w := whisker p.mark config
  Report.noted () (whiskerWarnings p.mark config)
  p.layer config u (drawings p config) (columns p.axis.field w) (calculates p.axis.field w)

end BoxPlot

end ChartNormal

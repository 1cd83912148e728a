import ChartNormal.Composite.Interval

/-!
# Error bars
-/

namespace ChartNormal

namespace ErrorBar

def tag : String := "errorbar"

def parts : List String := ["bar", "line", "ticks", "rule", "point"]

def drawings (p : Composite) : List Composite.Drawing :=
  let tick : MarkDef := { type := "tick", orient := some p.axis.orient.flip }
  [{ part := "bar", base := { type := "bar", orient := some p.axis.orient }, start := "lower", stop := some "upper",
      shared := p.shared },
    { part := "line", base := { type := "line" }, start := "center", shared := p.shared },
    { part := "ticks", base := tick, start := "lower", shared := p.shared },
    { part := "ticks", base := tick, start := "upper", shared := p.shared },
    { part := "rule", base := { type := "rule" }, start := "lower", stop := some "upper", shared := p.shared },
    { part := "point", base := { type := "point", filled := some true }, start := "center", shared := p.shared }]

/-- Some part shows the centre itself. -/
def drawsCenter (p : Composite) (config : Config) : Bool := p.isDrawn config "line" || p.isDrawn config "point"

def expand (u : UnitSpec) (config : Config) : Report LayerSpec := do
  let p ← Composite.resolve u .warn
  let { center, extent, .. } := config.errorbar
  let interval := Interval.resolve p.mark center extent
  Report.noted () (Interval.warnings p.mark center extent tag)
  p.layer config u (drawings p) (interval.columns p.axis.field (drawsCenter p config))
    (interval.calculates p.axis.field)

end ErrorBar

end ChartNormal

import ChartNormal.Composite.Interval

/-!
# Error bands

An area with lines along its borders; without data on the other axis a rectangle and rules, which cannot be
interpolated.
-/

namespace ChartNormal

namespace ErrorBand

def tag : String := "errorband"

def parts : List String := ["band", "borders"]

/-- The properties that shape the curve, of the mark or else of the configuration. -/
def interpolation (mark : MarkDef) (config : Config) : List (String × Json) :=
  ((mark.interpolate.or config.errorband.interpolate).map fun s => ("interpolate", Json.str s)).toList ++
    ((mark.tension.or config.errorband.tension).map fun x => ("tension", Json.ofDouble x)).toList

def interpolationWarnings (p : Composite) (config : Config) : List Warning :=
  if p.axis.isSingle then (interpolation p.mark config).map fun e => .flatBand e.1 else []

/-- A curve with its interpolation, or `flat` in its place. -/
def base (p : Composite) (config : Config) (curve flat : String) : MarkDef :=
  if p.axis.isSingle then { type := flat }
  else
    { type := curve
      orient := some p.axis.orient
      props := .ofList (interpolation p.mark config) }

def drawings (p : Composite) (config : Config) : List Composite.Drawing :=
  let border := base p config "line" "rule"
  [{ part := "band", base := base p config "area" "rect", start := "lower", stop := some "upper",
      shared := p.shared },
    { part := "borders", base := border, start := "lower", shared := p.shared },
    { part := "borders", base := border, start := "upper", shared := p.shared }]

def expand (u : UnitSpec) (config : Config) : Report LayerSpec := do
  let p ← Composite.resolve u .warn
  let { center, extent, .. } := config.errorband
  let interval := Interval.resolve p.mark center extent
  Report.noted () (Interval.warnings p.mark center extent tag ++ interpolationWarnings p config)
  p.layer config u (drawings p config) (interval.columns p.axis.field false) (interval.calculates p.axis.field)

end ErrorBand

end ChartNormal

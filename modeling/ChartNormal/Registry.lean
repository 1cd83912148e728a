import ChartNormal.Composite.BoxPlot
import ChartNormal.Composite.ErrorBand
import ChartNormal.Composite.ErrorBar

/-!
# The registry of composite marks

The registry lists composite marks by their tags, in ascending order.
-/

namespace ChartNormal

/-- How a composite mark is expanded, and the parts it has. -/
structure CompositeMark where
  expand : UnitSpec → Config → Report LayerSpec
  parts : List String

structure Registry where
  entries : List (String × CompositeMark)

namespace Registry

def empty : Registry := ⟨[]⟩

def insertInto (tag : String) (mark : CompositeMark) : List (String × CompositeMark) → List (String × CompositeMark)
  | [] => [(tag, mark)]
  | (t, m) :: rest =>
    if tag < t then (tag, mark) :: (t, m) :: rest
    else if tag = t then (tag, mark) :: rest
    else (t, m) :: insertInto tag mark rest

def register (r : Registry) (tag : String) (mark : CompositeMark) : Registry := ⟨insertInto tag mark r.entries⟩

def unregister (r : Registry) (tag : String) : Registry := ⟨r.entries.filter (·.1 ≠ tag)⟩

/-- Unregisters a mark, and says whether there was one to take away. -/
def remove (r : Registry) (tag : String) : Bool × Registry :=
  let kept := r.unregister tag
  (kept.entries.length < r.entries.length, kept)

def get? (r : Registry) (tag : String) : Option CompositeMark := r.entries.lookup tag

def contains (r : Registry) (tag : String) : Bool := (r.get? tag).isSome

def tags (r : Registry) : List String := r.entries.map Prod.fst

/-- Expands a unit once, by the mark registered for its type. -/
def dispatch (r : Registry) (u : UnitSpec) (config : Config) : Report LayerSpec :=
  match r.get? u.mark.type with
  | some mark => mark.expand u config
  | none => .fail (.unknownMark u.mark.type)

def partsOf (r : Registry) (tag : String) : Except Failure (List String) :=
  match r.get? tag with
  | some mark => .ok mark.parts
  | none => .error (.unregisteredMark tag)

def standard : Registry :=
  empty
    |>.register BoxPlot.tag ⟨BoxPlot.expand, BoxPlot.parts⟩
    |>.register ErrorBar.tag ⟨ErrorBar.expand, ErrorBar.parts⟩
    |>.register ErrorBand.tag ⟨ErrorBand.expand, ErrorBand.parts⟩

end Registry

end ChartNormal

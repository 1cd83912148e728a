import ChartNormal.Text.Word

/-!
# Names of columns

Derived columns are named by joining words with an underscore. Expressions refer to a column by a quoted name.
-/

namespace ChartNormal

namespace Column

/-- The column that `stem` makes of `field`. -/
def derived (stem field : String) : String := stem ++ "_" ++ field

def suffixed (field ending : String) : String := field ++ "_" ++ ending

def stackStart (field : String) : String := suffixed field "start"

def stackEnd (field : String) : String := suffixed field "end"

/-- Every character that is no word character becomes an underscore. -/
def variableName (s : String) : String := s.map fun c => if isWordChar c then c else '_'

def escape (c : Char) : List Char := if c = '"' ∨ c = '\\' then ['\\', c] else [c]

/-- The expression that reads `field` of a row. -/
def datum (field : String) : String :=
  "datum[\"" ++ String.ofList (field.toList.flatMap escape) ++ "\"]"

def derivedDatum (stem field : String) : String := datum (derived stem field)

/-- The count of rows, which has no column to derive from. -/
def count : String := "count_*"

end Column

/-- The style name of a part of a composite mark. -/
def partStyle (mark part : String) : String := mark ++ "-" ++ part

end ChartNormal

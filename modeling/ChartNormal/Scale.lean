/-!
# Scale types
-/

namespace ChartNormal

inductive Scale where
  | linear
  | log
  | pow
  | sqrt
  | time
  | utc
  | sequential
  | ordinal
  | point
  | band
  | binLinear
  | binOrdinal
deriving DecidableEq, Repr

namespace Scale

def all : List Scale :=
  [linear, log, pow, sqrt, time, utc, sequential, ordinal, point, band, binLinear, binOrdinal]

def name : Scale → String
  | linear => "linear"
  | log => "log"
  | pow => "pow"
  | sqrt => "sqrt"
  | time => "time"
  | utc => "utc"
  | sequential => "sequential"
  | ordinal => "ordinal"
  | point => "point"
  | band => "band"
  | binLinear => "bin-linear"
  | binOrdinal => "bin-ordinal"

def ofName? (s : String) : Option Scale := all.find? (·.name = s)

/-- From a continuous domain to a continuous range. -/
def isContinuous : Scale → Bool
  | linear | binLinear | log | pow | sqrt | time | utc => true
  | _ => false

/-- The domain is discrete. -/
def isDiscrete : Scale → Bool
  | ordinal | point | band | binOrdinal => true
  | _ => false

end Scale

end ChartNormal

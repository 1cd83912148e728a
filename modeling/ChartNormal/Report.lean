import ChartNormal.Channel
import ChartNormal.Mark.Definition

/-!
# Warnings and failures

A `Report` is a failure, or a value with the warnings noted on the way to it, in order. A failure keeps no warnings.
-/

namespace ChartNormal

inductive Warning where
  | incompatibleChannel (channel : Channel) (mark : String)
  | emptyField (channel : Channel)
  | listNotSupported (channel : Channel)
  | facetDropped (channel : Channel)
  | axisAggregate (aggregate mark : String)
  | foreignAggregate (channel : Channel) (aggregate mark : String)
  | centerMismatch (center extent mark : String)
  | centerNotNeeded (extent mark : String)
  | invalidExtent (extent mark : String)
  | flatBand (property : String)
  | stackNonLinear (scale : String)
  | stackRanged (channel : Channel)
deriving DecidableEq, Repr

def Warning.message : Warning → String
  | incompatibleChannel c mark => c.name ++ " dropped as it is incompatible with \"" ++ mark ++ "\"."
  | emptyField c =>
    "Dropping field definition from channel \"" ++ c.name ++ "\" since it does not contain any data field."
  | listNotSupported c => "Channel \"" ++ c.name ++ "\" does not accept a list of field definitions; dropped."
  | facetDropped c => c.name ++ " dropped as facets cannot be nested inside this specification."
  | axisAggregate aggregate mark =>
    "Continuous axis should not have customized aggregation function " ++ aggregate ++ "; " ++ mark ++
      " already aggregates the axis."
  | foreignAggregate c aggregate mark =>
    "Aggregate \"" ++ aggregate ++ "\" on channel " ++ c.name ++ " is not an aggregate operation for " ++ mark ++
      "; treated as a grouping field."
  | centerMismatch center extent mark => center ++ " is not usually used with " ++ extent ++ " for " ++ mark ++ "."
  | centerNotNeeded extent mark =>
    "Center is not needed to be specified in " ++ mark ++ " when extent is " ++ extent ++ "."
  | invalidExtent extent mark => "Invalid extent " ++ extent ++ " for " ++ mark ++ "; using the default."
  | flatBand property => "1D error band does not support " ++ property ++ "."
  | stackNonLinear scale => "Cannot stack non-linear scale (" ++ scale ++ ")."
  | stackRanged c => "Cannot stack \"" ++ c.name ++ "\" if there is already \"" ++ c.name ++ "2\"."

/-- Why a specification is not valid. -/
inductive Invalid where
  | facetInFacet
  | facetInLayer
  | noContinuousAxis (composite : String)
  | bothAggregated (composite : String)
  | orientConflict (orient : Orient) (composite : String)
  | axisAggregate (aggregate : String)
deriving DecidableEq, Repr

def Invalid.reason : Invalid → String
  | facetInFacet => "Facet specifications cannot be nested directly inside a facet"
  | facetInLayer => "Layer specifications cannot contain facet specifications"
  | noContinuousAxis composite => "Need a valid continuous axis for " ++ composite ++ "s"
  | bothAggregated composite => "Both x and y cannot have aggregate " ++ composite
  | orientConflict orient composite =>
    "Orient \"" ++ orient.name ++ "\" conflicts with the continuous axis of " ++ composite
  | axisAggregate aggregate => "Continuous axis should not have customized aggregation function " ++ aggregate

inductive Failure where
  /-- A text that does not read as what it should be. -/
  | unreadable
  /-- A configuration that is none after its merge with the defaults. -/
  | unreadableConfig
  /-- Properties that make no mark of a part. -/
  | invalidPart (part : String)
  | invalid (why : Invalid)
  | unknownMark (tag : String)
  | unregisteredMark (tag : String)
  /-- Composite marks that go on expanding into composite marks. -/
  | endlessExpansion (tag : String)
  | warned (w : Warning)
deriving DecidableEq, Repr

def Failure.message : Failure → String
  | unreadable => "Parse error"
  | unreadableConfig => "Config error"
  | invalidPart part => "Config error: Invalid " ++ part ++ " mark"
  | invalid why => "Validation error: " ++ why.reason
  | unknownMark tag => "Invalid mark type \"" ++ tag ++ "\""
  | unregisteredMark tag => "Unregistered composite mark \"" ++ tag ++ "\""
  | endlessExpansion tag => "Endless expansion of mark type \"" ++ tag ++ "\""
  | warned w => "Warning treated as error: " ++ w.message

def Report (α : Type) : Type := Except Failure (α × List Warning)

namespace Report

variable {α β : Type}

def fail (f : Failure) : Report α := .error f

/-- A value with its warnings. -/
def noted (value : α) (warnings : List Warning) : Report α := .ok (value, warnings)

def warn (w : Warning) : Report Unit := noted () [w]

def bind (r : Report α) (f : α → Report β) : Report β :=
  match r with
  | .error e => .error e
  | .ok (a, ws) =>
    match f a with
    | .error e => .error e
    | .ok (b, ws') => .ok (b, ws ++ ws')

instance : Monad Report where
  pure a := noted a []
  bind := bind

instance : MonadLift (Except Failure) Report where
  monadLift
    | .error e => fail e
    | .ok a => noted a []

/-- Only a value without warnings will do. -/
def strict : Report α → Except Failure α
  | .error e => .error e
  | .ok (a, []) => .ok a
  | .ok (_, w :: _) => .error (.warned w)

end Report

end ChartNormal

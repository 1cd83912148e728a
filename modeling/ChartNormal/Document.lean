import ChartNormal.Json.Written
import ChartNormal.Normalize
import ChartNormal.Spec.Json

/-!
# Documents

Specifications, configurations and their parts as JSON text. A record that is read straight from its text skips the
members it does not know without interpreting them.
-/

namespace ChartNormal

open Written (Interest)

variable {α : Type}

def Json.readFor? (interest : Interest) (read : Json → Option α) (text : String) : Option α :=
  (Json.parseFor? interest text).bind read

def Json.read? (read : Json → Option α) (text : String) : Option α := Json.readFor? .whole read text

def Spec.ofText? (text : String) : Option Spec := Json.read? Spec.ofJson? text

namespace FacetMapping

def interest : Interest := .only fieldNames

def ofText? (text : String) : Option FacetMapping := Json.readFor? interest ofJson? text

end FacetMapping

def FacetSpec.ofText? (text : String) : Option FacetSpec :=
  Json.readFor? (.members [("facet", FacetMapping.interest)] true) FacetSpec.ofJson? text

def AggregateColumn.listOfText? (text : String) : Option (List AggregateColumn) :=
  Json.readFor? (.items (.only fieldNames)) (Json.list? ofJson?) text

def CalculateStage.listOfText? (text : String) : Option (List CalculateStage) :=
  Json.readFor? (.items (.only fieldNames)) (Json.list? ofJson?) text

namespace Config

def interest : Interest :=
  .members
    [("overlay", .only OverlayConfig.fieldNames),
      ("errorbar", .only ErrorBarConfig.fieldNames),
      ("errorband", .only ErrorBandConfig.fieldNames)]
    true

def ofText? (text : String) : Option Config := Json.readFor? interest ofJson? text

/-- The configuration in effect when a user gives `text`, or nothing. -/
def inEffect : Option String → Except Failure Config
  | none => .ok defaults
  | some text =>
    match Json.read? Json.any? text with
    | none => .error .unreadable
    | some user =>
      match ofUser? user with
      | none => .error .unreadableConfig
      | some config => .ok config

end Config

/-- Normalizes a specification under a user's configuration. The specification is read first. -/
def normalizeText (spec : String) (config : Option String) : Report String :=
  match Spec.ofText? spec with
  | none => .fail .unreadable
  | some s => do
    let config ← Config.inEffect config
    let s ← Normalizer.normalize { config } s
    pure s.toJson.render

end ChartNormal

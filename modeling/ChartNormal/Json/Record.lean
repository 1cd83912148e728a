import ChartNormal.Json.Basic

/-!
# Records in JSON

A record gives each of its fields at most once. An optional field may be missing or `null`; a field with a default may
be missing only. An open record is an object and keeps the members it does not know; a closed record drops them, and may
also be written as the array of its fields in order.
-/

namespace ChartNormal

namespace Members

/-- The value of a field, or `none` inside if it is missing; no answer if it is given twice. -/
def field? (members : Members) (key : String) : Option (Option Json) :=
  match members.filter (·.1 = key) with
  | [] => some none
  | [e] => some (some e.2)
  | _ => none

variable {α : Type}

def required? (members : Members) (key : String) (read : Json → Option α) : Option α :=
  match field? members key with
  | some (some j) => read j
  | _ => none

def optional? (members : Members) (key : String) (read : Json → Option α) : Option (Option α) :=
  match field? members key with
  | none => none
  | some none | some (some .null) => some none
  | some (some j) => (read j).map some

def default? (members : Members) (key : String) (default : α) (read : Json → Option α) : Option α :=
  match field? members key with
  | none => none
  | some none => some default
  | some (some j) => read j

/-- The members under other keys, as a free-form object. -/
def others (members : Members) (known : List String) : Object :=
  OrderedMap.ofList ((members.filter fun e => e.1 ∉ known).map fun e => (e.1, e.2.settle))

/-- The fields that are present, and then `rest`. -/
def ofFields (fields : List (String × Option Json)) (rest : Object) : Members :=
  fields.filterMap (fun e => e.2.map (e.1, ·)) ++ rest.entries

end Members

namespace Json

variable {α : Type}

/-- The members of an open record. -/
def members? : Json → Option Members
  | .obj members => some members
  | _ => none

/-- The fields of a closed record, also from the array of them, in which the last ones may be left off. -/
def fields? (names : List String) : Json → Option Members
  | .obj members => some members
  | .arr items => if items.length ≤ names.length then some (names.zip items) else none
  | _ => none

/-- A name out of a closed list, written as a string or as the only key of an object over `null`. -/
def name? (read : String → Option α) : Json → Option α
  | .str s => read s
  | .obj [(s, .null)] => read s
  | _ => none

def string? : Json → Option String
  | .str s => some s
  | _ => none

def bool? : Json → Option Bool
  | .bool b => some b
  | _ => none

def double? : Json → Option Double
  | .num (.int n) => some (.ofInt n)
  | .num (.float x) => some x
  | _ => none

def list? (read : Json → Option α) : Json → Option (List α)
  | .arr items => items.mapM read
  | _ => none

/-- A free-form object. -/
def object? : Json → Option Object
  | .obj members => some (Members.others members [])
  | _ => none

/-- Any value. -/
def any? (j : Json) : Option Json := some j.settle

/-- A record without further members. -/
def record (fields : List (String × Option Json)) : Json := .obj (Members.ofFields fields ∅)

/-- A list that is left out when it is empty. -/
def unlessEmpty (items : List Json) : Option Json := if items.isEmpty then none else some (.arr items)

def ofObject (o : Object) : Json := .obj o.entries

def ofDouble (x : Double) : Json := .num (.float x)

def strings (l : List String) : Json := .arr (l.map .str)

end Json

end ChartNormal

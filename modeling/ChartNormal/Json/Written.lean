import ChartNormal.Json.Token

/-!
# JSON as written

Tokens make a tree in which strings and numbers are still uninterpreted. Interpreting it checks what the grammar does
not: surrogates come in pairs, numbers are in range, and nesting stays within bounds. A reader that knows which members
of a record it will look at skips the others without interpreting them.
-/

namespace ChartNormal

inductive Written where
  | null
  | bool (b : Bool)
  | number (n : Numeral)
  | string (points : List Nat)
  | array (items : List Written)
  | object (members : List (List Nat × Written))

namespace Written

/-- An array or object whose next value is being read. What is complete stands in reverse order. -/
inductive Frame where
  | array (done : List Written)
  | object (done : List (List Nat × Written)) (key : List Nat)

inductive Progress where
  /-- A value must follow. -/
  | value (stack : List Frame)
  /-- An array has been opened. -/
  | firstItem (stack : List Frame)
  /-- An object has been opened. -/
  | firstKey (stack : List Frame)
  /-- A further member must follow. -/
  | nextKey (done : List (List Nat × Written)) (stack : List Frame)
  /-- A key has been read. -/
  | colon (done : List (List Nat × Written)) (key : List Nat) (stack : List Frame)
  /-- A value is complete. -/
  | filled (value : Written) (stack : List Frame)

def begin? (stack : List Frame) : Token → Option Progress
  | .null => some (.filled .null stack)
  | .bool b => some (.filled (.bool b) stack)
  | .number n => some (.filled (.number n) stack)
  | .string s => some (.filled (.string s) stack)
  | .beginArray => some (.firstItem stack)
  | .beginObject => some (.firstKey stack)
  | _ => none

def step? : Progress → Token → Option Progress
  | .value stack, t => begin? stack t
  | .firstItem stack, .endArray => some (.filled (.array []) stack)
  | .firstItem stack, t => begin? (.array [] :: stack) t
  | .firstKey stack, .endObject => some (.filled (.object []) stack)
  | .firstKey stack, .string key => some (.colon [] key stack)
  | .nextKey done stack, .string key => some (.colon done key stack)
  | .colon done key stack, .colon => some (.value (.object done key :: stack))
  | .filled v (.array done :: stack), .comma => some (.value (.array (v :: done) :: stack))
  | .filled v (.array done :: stack), .endArray => some (.filled (.array (v :: done).reverse) stack)
  | .filled v (.object done key :: stack), .comma => some (.nextKey ((key, v) :: done) stack)
  | .filled v (.object done key :: stack), .endObject => some (.filled (.object ((key, v) :: done).reverse) stack)
  | _, _ => none

def ofTokens? (ts : List Token) : Option Written :=
  match ts.foldlM step? (.value []) with
  | some (.filled w []) => some w
  | _ => none

def isHigh (u : Nat) : Bool := 0xD800 ≤ u && u < 0xDC00

def isLow (u : Nat) : Bool := 0xDC00 ≤ u && u < 0xE000

/-- The characters meant by code points in which surrogates come in pairs. -/
def chars? : List Nat → Option (List Char)
  | [] => some []
  | [u] => if isHigh u || isLow u then none else some [Char.ofNat u]
  | u :: v :: rest =>
    if isHigh u then
      if isLow v then (chars? rest).map (Char.ofNat (0x10000 + (u - 0xD800) * 0x400 + (v - 0xDC00)) :: ·) else none
    else if isLow u then none
    else (chars? (v :: rest)).map (Char.ofNat u :: ·)

def text? (points : List Nat) : Option String := (chars? points).map String.ofList

/-- What a reader looks at: everything; of an object the named members, and the others if `rest`; of an array every
item in the same way. -/
inductive Interest where
  | whole
  | members (known : List (String × Interest)) (rest : Bool)
  | items (each : Interest)

namespace Interest

/-- An object of which nothing but the named members is looked at. -/
def only (names : List String) : Interest := .members (names.map (·, .whole)) false

def item : Interest → Interest
  | .items each => each
  | _ => .whole

/-- How the member `key` is looked at, or nothing if it is skipped. -/
def member? : Interest → String → Option Interest
  | .members known rest, key => (known.lookup key).or (if rest then some .whole else none)
  | _, _ => some .whole

end Interest

/-- How many arrays and objects may stand inside each other. -/
def maxNesting : Nat := 127

mutual

def value? (interest : Interest) (room : Nat) : Written → Option Json
  | .null => some .null
  | .bool b => some (.bool b)
  | .number n => n.value?.map .num
  | .string s => (text? s).map .str
  | .array items => if room = 0 then none else (items? interest.item (room - 1) items).map .arr
  | .object members => if room = 0 then none else (members? interest (room - 1) members).map .obj

def items? (interest : Interest) (room : Nat) : List Written → Option (List Json)
  | [] => some []
  | w :: rest => do
    let j ← value? interest room w
    let js ← items? interest room rest
    some (j :: js)

def members? (interest : Interest) (room : Nat) : List (List Nat × Written) → Option Members
  | [] => some []
  | (k, w) :: rest => do
    let key ← text? k
    let js ← members? interest room rest
    match interest.member? key with
    | none => some js
    | some interest => do
      let j ← value? interest room w
      some ((key, j) :: js)

end

end Written

namespace Json

/-- Reads a text of which only some members matter. -/
def parseFor? (interest : Written.Interest) (text : String) : Option Json := do
  let tokens ← Token.ofChars? text.toList
  let written ← Written.ofTokens? tokens
  written.value? interest Written.maxNesting

end Json

end ChartNormal

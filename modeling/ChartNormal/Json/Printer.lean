import ChartNormal.Json.Basic
import ChartNormal.Number.Layout

/-!
# JSON as text

The text is compact. A string escapes its quotes, its backslashes and the control characters below the blank, and
nothing else.
-/

namespace ChartNormal

namespace Json

/-- Exponents from -5 to 15 are written positionally, always with a fraction; a half goes to the even digit. -/
def layout : Layout := ⟨.even, fun e => -5 ≤ e && e < 16, true⟩

def escape (c : Char) : List Char :=
  match c with
  | '"' => ['\\', '"']
  | '\\' => ['\\', '\\']
  | '\x08' => ['\\', 'b']
  | '\x0c' => ['\\', 'f']
  | '\n' => ['\\', 'n']
  | '\r' => ['\\', 'r']
  | '\t' => ['\\', 't']
  | c =>
    if c.toNat < 0x20 then
      ['\\', 'u', '0', '0', Nat.digitChar (c.toNat / 16), Nat.digitChar (c.toNat % 16)]
    else [c]

/-- A quoted string in front of `rest`. -/
def quote (s : String) (rest : List Char) : List Char :=
  '"' :: s.toList.foldr (fun c cs => escape c ++ cs) ('"' :: rest)

end Json

def Number.chars : Number → List Char
  | .int n => if n < 0 then '-' :: Nat.toDigits 10 n.natAbs else Nat.toDigits 10 n.natAbs
  | .float x => Json.layout.write x

namespace Json

mutual

/-- A value in front of `rest`, so that no text is copied once for each value around it. -/
def write : Json → List Char → List Char
  | .null, rest => "null".toList ++ rest
  | .bool true, rest => "true".toList ++ rest
  | .bool false, rest => "false".toList ++ rest
  | .num n, rest => n.chars ++ rest
  | .str s, rest => quote s rest
  | .arr items, rest => '[' :: writeItems items (']' :: rest)
  | .obj members, rest => '\x7b' :: writeMembers members ('\x7d' :: rest)

def writeItems : List Json → List Char → List Char
  | [], rest => rest
  | [j], rest => j.write rest
  | j :: items, rest => j.write (',' :: writeItems items rest)

def writeMembers : Members → List Char → List Char
  | [], rest => rest
  | [(k, j)], rest => quote k (':' :: j.write rest)
  | (k, j) :: members, rest => quote k (':' :: j.write (',' :: writeMembers members rest))

end

def render (j : Json) : String := String.ofList (j.write [])

end Json

end ChartNormal

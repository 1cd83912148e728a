import ChartNormal.Json.Numeral

/-!
# From characters to tokens

The lexer is a fold over the characters. Strings are kept as code points, in which an escaped half of a surrogate pair
stands for itself, and numbers as numerals: neither is interpreted here.
-/

namespace ChartNormal

inductive Token where
  | beginObject
  | endObject
  | beginArray
  | endArray
  | colon
  | comma
  | null
  | bool (b : Bool)
  | number (n : Numeral)
  | string (points : List Nat)
deriving DecidableEq, Repr

namespace Token

/-- What the lexer stands in, with the characters seen of it, the last one first. -/
inductive Mode where
  | between
  | word (seen : List Char)
  | numeral (seen : List Char)
  | string (seen : List Nat)
  | escape (seen : List Nat)
  | hex (seen : List Nat) (value : Nat) (missing : Nat)

structure Lexer where
  mode : Mode
  tokens : List Token

/-- The token that `mode` has come to, if it may end here. -/
def Lexer.finish? (lexer : Lexer) : Option (List Token) :=
  match lexer.mode with
  | .between => some lexer.tokens
  | .word seen =>
    if seen.reverse = "null".toList then some (.null :: lexer.tokens)
    else if seen.reverse = "true".toList then some (.bool true :: lexer.tokens)
    else if seen.reverse = "false".toList then some (.bool false :: lexer.tokens)
    else none
  | .numeral seen => (Numeral.ofChars? seen.reverse).map fun n => .number n :: lexer.tokens
  | .string _ | .escape _ | .hex _ _ _ => none

def isBlank (c : Char) : Bool := c = ' ' || c = '\t' || c = '\n' || c = '\r'

/-- Enters the token that begins with `c`. -/
def Lexer.begin? (tokens : List Token) (c : Char) : Option Lexer :=
  if isBlank c then some ⟨.between, tokens⟩
  else if c.isDigit || c = '-' then some ⟨.numeral [c], tokens⟩
  else if c.isLower then some ⟨.word [c], tokens⟩
  else match c with
    | '"' => some ⟨.string [], tokens⟩
    | '\x7b' => some ⟨.between, .beginObject :: tokens⟩
    | '\x7d' => some ⟨.between, .endObject :: tokens⟩
    | '[' => some ⟨.between, .beginArray :: tokens⟩
    | ']' => some ⟨.between, .endArray :: tokens⟩
    | ':' => some ⟨.between, .colon :: tokens⟩
    | ',' => some ⟨.between, .comma :: tokens⟩
    | _ => none

def hexDigit? (c : Char) : Option Nat :=
  if c.isDigit then some (c.toNat - '0'.toNat)
  else if 'a' ≤ c ∧ c ≤ 'f' then some (c.toNat - 'a'.toNat + 10)
  else if 'A' ≤ c ∧ c ≤ 'F' then some (c.toNat - 'A'.toNat + 10)
  else none

def escaped? : Char → Option Char
  | '"' => some '"'
  | '\\' => some '\\'
  | '/' => some '/'
  | 'b' => some '\x08'
  | 'f' => some '\x0c'
  | 'n' => some '\n'
  | 'r' => some '\r'
  | 't' => some '\t'
  | _ => none

def isNumeralChar (c : Char) : Bool :=
  c.isDigit || c = '-' || c = '+' || c = '.' || c = 'e' || c = 'E'

def Lexer.step? (lexer : Lexer) (c : Char) : Option Lexer :=
  let next (mode : Mode) : Option Lexer := some ⟨mode, lexer.tokens⟩
  match lexer.mode with
  | .between => Lexer.begin? lexer.tokens c
  | .word seen => if c.isLower then next (.word (c :: seen)) else lexer.finish?.bind (Lexer.begin? · c)
  | .numeral seen =>
    if isNumeralChar c then next (.numeral (c :: seen)) else lexer.finish?.bind (Lexer.begin? · c)
  | .string seen =>
    if c = '"' then some ⟨.between, .string seen.reverse :: lexer.tokens⟩
    else if c = '\\' then next (.escape seen)
    else if c.toNat < 0x20 then none
    else next (.string (c.toNat :: seen))
  | .escape seen =>
    if c = 'u' then next (.hex seen 0 4) else (escaped? c).bind fun c => next (.string (c.toNat :: seen))
  | .hex seen value missing =>
    (hexDigit? c).bind fun d =>
      let value := 16 * value + d
      if missing = 1 then next (.string (value :: seen)) else next (.hex seen value (missing - 1))

def ofChars? (cs : List Char) : Option (List Token) :=
  ((cs.foldlM Lexer.step? ⟨.between, []⟩).bind Lexer.finish?).map List.reverse

end Token

end ChartNormal

import ChartNormal.Json.Basic

/-!
# Numbers as written

A numeral is read digit by digit into a significand of at most 64 bits and a power of ten. Integers that fit a signed or
an unsigned word stay integers; everything else is a `Double`.
-/

namespace ChartNormal

structure Numeral where
  negative : Bool
  whole : List Nat
  fraction : Option (List Nat)
  exponent : Option Int
deriving DecidableEq, Repr

namespace Numeral

def digits (cs : List Char) : List Nat := cs.map fun c => c.toNat - '0'.toNat

def ofDigits (ds : List Nat) : Nat := ds.foldl (fun n d => 10 * n + d) 0

/-- The fraction and what follows it; a point needs a digit after it. -/
def fraction? : List Char → Option (Option (List Nat) × List Char)
  | '.' :: cs =>
    match cs.span Char.isDigit with
    | ([], _) => none
    | (ds, rest) => some (some (digits ds), rest)
  | cs => some (none, cs)

/-- The exponent, which must end the numeral. -/
def exponent? : List Char → Option (Option Int)
  | [] => some none
  | e :: cs =>
    if e = 'e' ∨ e = 'E' then
      let (negative, ds) := match cs with
        | '-' :: ds => (true, ds)
        | '+' :: ds => (false, ds)
        | ds => (false, ds)
      if ds ≠ [] ∧ ds.all Char.isDigit then
        let n : Int := ofDigits (digits ds)
        some (some (if negative then -n else n))
      else none
    else none

/-- A zero stands alone before the point. -/
def ofChars? (cs : List Char) : Option Numeral := do
  let (negative, cs) := match cs with
    | '-' :: cs => (true, cs)
    | cs => (false, cs)
  let (ds, rest) := cs.span Char.isDigit
  guard (ds = ['0'] ∨ ds.head?.any (· ≠ '0'))
  let (fraction, rest) ← fraction? rest
  let exponent ← exponent? rest
  some ⟨negative, digits ds, fraction, exponent⟩

def wordSize : Nat := 1 <<< 64

/-- The digits before the point: as many as fit the significand, and how many more there are. -/
def takeWhole (ds : List Nat) : Nat × Nat :=
  ds.foldl (fun (n, more) d =>
    if more = 0 ∧ 10 * n + d < wordSize then (10 * n + d, 0) else (n, more + 1)) (0, 0)

/-- The digits after the point that still fit the significand `n`, and how many they are. -/
def takeFraction (n : Nat) : List Nat → Nat × Nat
  | [] => (n, 0)
  | d :: ds =>
    if 10 * n + d < wordSize then
      let (m, places) := takeFraction (10 * n + d) ds
      (m, places + 1)
    else (n, 0)

/-- The number meant, or nothing when it is out of range. -/
def value? (t : Numeral) : Option Number :=
  let (n, more) := takeWhole t.whole
  if t.fraction = none ∧ t.exponent = none ∧ more = 0 then
    if ¬ t.negative then some (.int n)
    else if 0 < n ∧ n ≤ wordSize / 2 then some (.int (-n))
    else (Double.round? true n 1).map .float
  else
    let (m, places) := takeFraction n (t.fraction.getD [])
    (Double.ofDecimal? t.negative m (more - places + t.exponent.getD 0)).map .float

end Numeral

end ChartNormal

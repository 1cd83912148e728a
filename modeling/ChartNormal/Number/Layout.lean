import ChartNormal.Number.Shortest

/-!
# Numbers as text

A `Layout` holds the choices that two writers of the same digits make differently.
-/

namespace ChartNormal

structure Layout where
  tie : Tie
  /-- Whether a number whose leading digit has this exponent is written without one. -/
  positional : Int → Bool
  /-- Whether a whole number keeps a fraction. -/
  fraction : Bool

namespace Layout

/-- Digits and a decimal point, for `digits * 10 ^ exponent`. -/
def point (style : Layout) (digits : List Char) (exponent : Int) : List Char :=
  if 0 ≤ exponent then
    digits ++ List.replicate exponent.toNat '0' ++ (if style.fraction then ['.', '0'] else [])
  else
    let places := (-exponent).toNat
    let padded := List.replicate (places + 1 - digits.length) '0' ++ digits
    padded.take (padded.length - places) ++ '.' :: padded.drop (padded.length - places)

/-- One digit before the point, and the exponent with its sign. -/
def scientific (digits : List Char) (leading : Int) : List Char :=
  digits.take 1 ++ (if digits.length ≤ 1 then [] else '.' :: digits.drop 1) ++
    'e' :: (if leading < 0 then '-' else '+') :: Nat.toDigits 10 leading.natAbs

def magnitude (style : Layout) (x : Double) : List Char :=
  if x.significand = 0 then style.point ['0'] 0
  else
    let d := x.shortest style.tie
    let digits := Nat.toDigits 10 d.digits
    let leading := d.exponent + digits.length - 1
    if style.positional leading then style.point digits d.exponent else scientific digits leading

def write (style : Layout) (x : Double) : List Char :=
  if x.negative then '-' :: style.magnitude x else style.magnitude x

end Layout

end ChartNormal

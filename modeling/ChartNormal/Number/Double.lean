/-!
# Finite numbers of double precision

A `Double` is a sign, a significand below `2 ^ 53` and a power of two. `Double.round?` takes a fraction to the nearest
one, a half going to the even significand; products, quotients and the reading of decimals are each defined by
rounding an exact fraction.
-/

namespace ChartNormal

structure Double where
  negative : Bool
  significand : Nat
  exponent : Int
deriving DecidableEq, Repr

namespace Double

/-- Below this power of two the significand loses bits instead of the exponent falling further. -/
def minExponent : Int := -1074

def maxExponent : Int := 971

/-- The least significand of 53 bits, `2 ^ 52`. -/
def leastFull : Nat := 1 <<< 52

def zero (negative : Bool) : Double := ⟨negative, 0, minExponent⟩

instance : Inhabited Double := ⟨zero false⟩

/-- The integer nearest to `num / den`, a half going to the even neighbour. -/
def nearest (num den : Nat) : Nat :=
  let q := num / den
  let r := num % den
  if 2 * r < den then q
  else if den < 2 * r then q + 1
  else if q % 2 = 0 then q else q + 1

/-- The exponent that gives `num / den` a significand of 53 bits. -/
def fullExponent (num den : Nat) : Int :=
  let e : Int := (num.log2 : Int) - den.log2 - 52
  if num <<< (-e).toNat < (den * leastFull) <<< e.toNat then e - 1 else e

/-- The number nearest to `num / den`, or nothing when it is too large. -/
def round? (negative : Bool) (num den : Nat) : Option Double :=
  if num = 0 then some (zero negative)
  else
    let e := max (fullExponent num den) minExponent
    let m := nearest (num <<< (-e).toNat) (den <<< e.toNat)
    let (m, e) := if m = 2 * leastFull then (leastFull, e + 1) else (m, e)
    if maxExponent < e then none else some ⟨negative, m, e⟩

def mul? (x y : Double) : Option Double :=
  let e := x.exponent + y.exponent
  round? (x.negative != y.negative) ((x.significand * y.significand) <<< e.toNat) (1 <<< (-e).toNat)

def div? (x y : Double) : Option Double :=
  let e := x.exponent - y.exponent
  round? (x.negative != y.negative) (x.significand <<< e.toNat) (y.significand <<< (-e).toNat)

/-- The number nearest to a fraction in range. -/
def ofFraction (negative : Bool) (num den : Nat) : Double := (round? negative num den).getD (zero negative)

def ofInt (n : Int) : Double := ofFraction (n < 0) n.natAbs 1

def powTen (n : Nat) : Double := ofFraction false (Nat.pow 10 n) 1

/-- The largest power of ten in range. -/
def maxPowTen : Nat := 308

/-- Reads `significand * 10 ^ exponent` by one product or quotient with a power of ten, each rounded. A quotient by
more than `10 ^ 308` takes two steps, and past two steps nothing is left of a significand of 64 bits. -/
def ofDecimal? (negative : Bool) (significand : Nat) (exponent : Int) : Option Double := do
  let x ← round? negative significand 1
  if significand = 0 then some x
  else if 0 ≤ exponent then
    if exponent ≤ maxPowTen then x.mul? (powTen exponent.toNat) else none
  else
    let n := (-exponent).toNat
    if n ≤ maxPowTen then x.div? (powTen n)
    else if n ≤ 2 * maxPowTen then do
      let y ← x.div? (powTen maxPowTen)
      y.div? (powTen (n - maxPowTen))
    else some (zero negative)

/-- Equality of numbers: the two zeros are the same. -/
def same (x y : Double) : Bool := x = y || (x.significand = 0 && y.significand = 0)

end Double

end ChartNormal

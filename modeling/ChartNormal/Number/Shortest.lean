import ChartNormal.Number.Double

/-!
# The fewest digits that read back

The numbers that round to a given `Double` form an interval around it. Its shortest decimal is the point of the coarsest
decimal grid that meets the interval; of two such points the nearer one.
-/

namespace ChartNormal

/-- `digits * 10 ^ exponent`. -/
structure Decimal where
  digits : Nat
  exponent : Int
deriving DecidableEq, Repr

/-- Where an exact half goes. -/
inductive Tie where
  | up
  | even
deriving DecidableEq, Repr

namespace Double

/-- The ends of the rounding interval, in quarters of a unit of the last place. The lower neighbour of a power of two
is only half as far away. -/
def interval (x : Double) : Nat × Nat :=
  let m := 4 * x.significand
  (if x.significand = leastFull ∧ minExponent < x.exponent then m - 1 else m - 2, m + 2)

/-- One step of the grid `10 ^ g`, where a quarter of a unit of the last place is `scale`. -/
def step (x : Double) (g : Int) : Nat := Nat.pow 10 g.toNat <<< (-(x.exponent - 2)).toNat

def scale (x : Double) (g : Int) : Nat := Nat.pow 10 (-g).toNat <<< (x.exponent - 2).toNat

/-- Whether `c * 10 ^ g` rounds to the positive part of `x`. The ends round to an even significand. -/
def inside (x : Double) (g : Int) (c : Nat) : Bool :=
  let (low, high) := (x.interval.1 * x.scale g, x.interval.2 * x.scale g)
  let point := c * x.step g
  if x.significand % 2 = 0 then low ≤ point && point ≤ high else low < point && point < high

/-- The last point of the grid `10 ^ g` that is not above `x`, in its positive part. -/
def below (x : Double) (g : Int) : Nat := 4 * x.significand * x.scale g / x.step g

/-- A point of the grid `10 ^ g` that rounds to `x`, in its positive part. -/
def onGrid? (tie : Tie) (x : Double) (g : Int) : Option Nat :=
  let unit := x.step g
  let below := x.below g
  let rest := 2 * (4 * x.significand * x.scale g % unit)
  match x.inside g below, x.inside g (below + 1) with
  | true, true =>
    if rest < unit then some below
    else if unit < rest then some (below + 1)
    else match tie with
      | .up => some (below + 1)
      | .even => some (if below % 2 = 0 then below else below + 1)
  | true, false => some below
  | false, true => some (below + 1)
  | false, false => none

/-- A power of ten above `x`, and no more than three places too high. -/
def topPlace (x : Double) : Int := (x.significand.log2 + 1 + x.exponent) * 30103 / 100000 + 2

def shortest (tie : Tie) (x : Double) : Decimal :=
  ((List.range 24).findSome? fun (i : Nat) =>
    let g := x.topPlace - (i : Int)
    (x.onGrid? tie g).map (⟨·, g⟩)).getD ⟨x.significand, 0⟩

end Double

end ChartNormal

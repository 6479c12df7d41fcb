import Stencil.Number.Binary64

/-! Decimal digits for a positive binary number: the fewest that read back as it, or a fixed count of
significant ones. A decimal is a pair `(digits, place)` that stands for `digits * 10 ^ place`. -/
namespace Stencil.Decimal

def tenTo (i : Int) : Rat := if 0 ≤ i then Nat.pow 10 i.toNat else mkRat 1 (Nat.pow 10 (-i).toNat)

def twoTo (i : Int) : Rat := if 0 ≤ i then Nat.pow 2 i.toNat else mkRat 1 (Nat.pow 2 (-i).toNat)

def pointOf (v : Rat) : Int :=
  let guess := (Binary64.quotientLog v.num.natAbs v.den) * 30103 / 100000
  (([guess - 1, guess, guess + 1].find? (fun k => v < tenTo k))).getD (guess + 2)

/- The reals that round to `mantissa * 2 ^ exponent`: two ends, which belong to it if the mantissa is
even. The gap below a power of two is half as wide. -/
structure Interval where
  low : Rat
  high : Rat
  closed : Bool

def roundingInterval (mantissa : Nat) (exponent : Int) : Interval where
  low :=
    if mantissa = Nat.pow 2 52 && Binary64.leastExponent < exponent then
      (4 * mantissa - 1 : Rat) * twoTo (exponent - 2)
    else (2 * mantissa - 1 : Rat) * twoTo (exponent - 1)
  high := (2 * mantissa + 1 : Rat) * twoTo (exponent - 1)
  closed := mantissa % 2 == 0

def Interval.holds (i : Interval) (v : Rat) : Bool :=
  if i.closed then i.low ≤ v && v ≤ i.high else i.low < v && v < i.high

/- Of the two neighbours of `v` on the grid of multiples of `10 ^ place`, the one that lies in the
interval; of two, the nearer; of two as near, the even one. -/
def onGrid? (i : Interval) (v : Rat) (place : Int) : Option Nat :=
  let scaled := v * tenTo (-place)
  let below := scaled.floor.toNat
  let fits (c : Nat) := i.holds (c * tenTo place)
  let gap := scaled - below
  let takeBelow := gap < mkRat 1 2 || (gap == mkRat 1 2 && below % 2 == 0)
  match fits below, fits (below + 1) with
  | true, true => some (if takeBelow then below else below + 1)
  | true, false => some below
  | false, true => some (below + 1)
  | false, false => none

/- The fewest digits that read back, and of those the nearest. Seventeen are always enough. -/
def shortest (mantissa : Nat) (exponent : Int) : Nat × Int :=
  let i := roundingInterval mantissa exponent
  let v := mantissa * twoTo exponent
  let k := pointOf v
  let places := (List.range 17).map (fun n => k - (n + 1 : Nat))
  (places.findSome? fun place => (onGrid? i v place).map (·, place)).getD (0, 0)

def significant (count : Nat) (mantissa : Nat) (exponent : Int) : Nat × Int :=
  let v := mantissa * twoTo exponent
  let place := pointOf v - count
  let scaled := v * tenTo (-place)
  (Binary64.roundDiv scaled.num.natAbs scaled.den, place)

end Stencil.Decimal

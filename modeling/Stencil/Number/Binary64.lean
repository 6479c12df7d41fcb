/-! Binary floating point of 64 bits, exactly: a finite number is `± mantissa * 2 ^ exponent`, and an
operation is carried out on rationals and rounded once, to the nearest number, a tie going to the
even mantissa. -/
namespace Stencil

/- A NaN carries a payload, by which one NaN is told from another. -/
inductive Binary64 where
  | nan (payload : Nat)
  | infinite (negative : Bool)
  | finite (negative : Bool) (mantissa : Nat) (exponent : Int)
  deriving DecidableEq, Repr, Inhabited

namespace Binary64

def leastExponent : Int := -1074

def greatestExponent : Int := 971

def roundDiv (n d : Nat) : Nat :=
  let q := n / d
  let r := n % d
  if 2 * r < d || (2 * r == d && q % 2 == 0) then q else q + 1

def scaleDown (n d : Nat) (e : Int) : Nat × Nat :=
  if 0 ≤ e then (n, d * Nat.pow 2 e.toNat) else (n * Nat.pow 2 (-e).toNat, d)

/- The greatest `k` with `2 ^ k ≤ n / d`. -/
def quotientLog (n d : Nat) : Int :=
  let k : Int := n.log2 - d.log2
  let (a, b) := scaleDown n d k
  if b ≤ a then k else k - 1

def ofRatio (negative : Bool) (n d : Nat) : Binary64 :=
  if n = 0 then .finite negative 0 leastExponent
  else
    let e := max (quotientLog n d - 52) leastExponent
    let (a, b) := scaleDown n d e
    let m := roundDiv a b
    let (m, e) := if m = Nat.pow 2 53 then (Nat.pow 2 52, e + 1) else (m, e)
    if e > greatestExponent then .infinite negative else .finite negative m e

def zero : Binary64 := .finite false 0 leastExponent

/- The number nearest to a rational; `negative` is the sign that a zero gets. -/
def ofRat (negative : Bool) (q : Rat) : Binary64 :=
  ofRatio (if q.num = 0 then negative else q.num < 0) q.num.natAbs q.den

def magnitude (mantissa : Nat) (exponent : Int) : Nat × Nat := scaleDown mantissa 1 (-exponent)

def toRat? : Binary64 → Option Rat
  | .finite negative m e =>
    let (n, d) := magnitude m e
    some (mkRat (if negative then -n else n) d)
  | _ => none

def isNan (x : Binary64) : Bool := x matches .nan _

def isNegative : Binary64 → Bool
  | .nan _ => false
  | .infinite s | .finite s _ _ => s

def compare? (x y : Binary64) : Option Ordering :=
  match x, y with
  | .nan _, _ | _, .nan _ => none
  | .infinite s, .infinite t => some (if s = t then .eq else if s then .lt else .gt)
  | .infinite s, _ => some (if s then .lt else .gt)
  | _, .infinite t => some (if t then .gt else .lt)
  | x, y =>
    let a := x.toRat?.getD 0
    let b := y.toRat?.getD 0
    some (if a < b then .lt else if a = b then .eq else .gt)

def lt (x y : Binary64) : Bool := x.compare? y == some .lt

def le (x y : Binary64) : Bool := x.lt y || x.compare? y == some .eq

/- Equality of values: the two zeros are equal, and a NaN equals nothing. -/
def same (x y : Binary64) : Bool := x.compare? y == some .eq

/- Sameness of parts: like `same`, but a NaN is the same as itself. -/
def alike (x y : Binary64) : Bool := x = y || x.same y

theorem alike_self (x : Binary64) : x.alike x = true := by simp [alike]

theorem same_nan (p : Nat) (x : Binary64) : same (.nan p) x = false := by simp [same, compare?]

def ofInt? (n : Int) : Option Binary64 :=
  match ofRatio (n < 0) n.natAbs 1 with
  | .infinite _ => none
  | x => some x

def sameInt (n : Int) (x : Binary64) : Bool := x.toRat? == some (n : Rat)

def truncate? : Binary64 → Option Int
  | .finite negative m e =>
    let (n, d) := magnitude m e
    some (if negative then -(n / d : Nat) else (n / d : Nat))
  | _ => none

def isInteger : Binary64 → Bool
  | .finite _ m e => let (n, d) := magnitude m e; n % d == 0
  | _ => false

def neg : Binary64 → Binary64
  | .nan p => .nan p
  | .infinite s => .infinite !s
  | .finite s m e => .finite (!s) m e

def add (x y : Binary64) : Binary64 :=
  match x, y with
  | .nan p, _ | _, .nan p => .nan p
  | .infinite s, .infinite t => if s = t then .infinite s else .nan 0
  | .infinite s, _ => .infinite s
  | _, .infinite t => .infinite t
  | x, y => ofRat (x.isNegative && y.isNegative) (x.toRat?.getD 0 + y.toRat?.getD 0)

def sub (x y : Binary64) : Binary64 := add x (neg y)

def isZero : Binary64 → Bool
  | .finite _ m _ => m == 0
  | _ => false

def mul (x y : Binary64) : Binary64 :=
  let sign := x.isNegative != y.isNegative
  match x, y with
  | .nan p, _ | _, .nan p => .nan p
  | .infinite _, y => if y.isZero then .nan 0 else .infinite sign
  | x, .infinite _ => if x.isZero then .nan 0 else .infinite sign
  | x, y => ofRat sign (x.toRat?.getD 0 * y.toRat?.getD 0)

def divNat (x : Binary64) (d : Nat) : Binary64 :=
  match x with
  | .finite s m e => let (n, k) := magnitude m e; ofRatio s n (k * d)
  | x => x

/- The number nearest to a quotient of integers, unless it is beyond the greatest one. -/
def ofQuotient? (n : Int) (d : Nat) : Option Binary64 :=
  match ofRatio (n < 0) n.natAbs d with
  | .infinite _ => none
  | x => some x

end Binary64
end Stencil

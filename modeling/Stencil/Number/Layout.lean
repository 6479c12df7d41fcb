import Stencil.Number.Shortest

/-! How a decimal is laid out: positionally or with an exponent. -/
namespace Stencil.Decimal

structure Layout where
  /- Positional notation needs the point to stand after this place … -/
  above : Int
  /- … and not after this one. -/
  upTo : Int
  /- A whole number is written with a point and a zero. -/
  pointZero : Bool

/- Numbers in output: positional from `0.0001` up to sixteen digits, whole numbers with `.0`. -/
def Layout.exact : Layout := ⟨-4, 16, true⟩

def Layout.brief : Layout := ⟨-4, 6, false⟩

def writeExponent (e : Int) : List Char :=
  let digits := Nat.toDigits 10 e.natAbs
  (if e < 0 then '-' else '+') :: (if digits.length < 2 then '0' :: digits else digits)

/- The digits without trailing zeros, and where the point stands in them. -/
def normal (d : Nat × Int) : List Char × Int :=
  let digits := Nat.toDigits 10 d.1
  ((digits.reverse.dropWhile (· == '0')).reverse, digits.length + d.2)

def Layout.write (l : Layout) (digits : List Char) (point : Int) : List Char :=
  if l.above < point && point ≤ l.upTo then
    if point ≤ 0 then '0' :: '.' :: List.replicate (-point).toNat '0' ++ digits
    else if digits.length ≤ point.toNat then
      digits ++ List.replicate (point.toNat - digits.length) '0' ++
        (if l.pointZero then ['.', '0'] else [])
    else digits.take point.toNat ++ '.' :: digits.drop point.toNat
  else
    (match digits with
      | d :: r :: rest => d :: '.' :: r :: rest
      | short => short) ++ 'e' :: writeExponent (point - 1)

end Stencil.Decimal

namespace Stencil

namespace Binary64

def write (l : Decimal.Layout) (digits : Nat → Int → Nat × Int) : Binary64 → List Char
  | .nan _ => ['n', 'a', 'n']
  | .infinite s => (if s then ['-'] else []) ++ ['i', 'n', 'f']
  | .finite s m e =>
    (if s then ['-'] else []) ++
      if m = 0 then (if l.pointZero then ['0', '.', '0'] else ['0'])
      else let (ds, point) := Decimal.normal (digits m e); l.write ds point

def text (x : Binary64) : String := String.ofList (x.write .exact Decimal.shortest)

def brief (x : Binary64) : String := String.ofList (x.write .brief (Decimal.significant 6))

end Binary64
end Stencil

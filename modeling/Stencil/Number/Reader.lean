import Stencil.Number.Binary64
import Stencil.Text.Blank
import Stencil.Text.Digit
import Stencil.Text.Split

/-! Reading numbers from text: digits of any script, single low lines between digits, blanks around. -/
namespace Stencil.Reader

open Text

/- Blanks that may surround a number: all but the information separators. -/
def isMargin (c : Char) : Bool := isBlank c && !(28 ≤ c.toNat && c.toNat ≤ 31)

def trimMargin (s : List Char) : List Char :=
  (((s.dropWhile isMargin).reverse).dropWhile isMargin).reverse

def asciiDigit (c : Char) : Char :=
  match decimalValue? c with
  | some v => Char.ofNat (48 + v)
  | none => c

/- Removes each low line that stands between two digits; refuses any other. `before` tells whether a
digit was just read. -/
def joinDigits (before : Bool) : List Char → Option (List Char)
  | [] => some []
  | '_' :: c :: rest =>
    if before && c.isDigit then (joinDigits true rest).map (c :: ·) else none
  | c :: rest => if c = '_' then none else (joinDigits c.isDigit rest).map (c :: ·)

def sign : List Char → Bool × List Char
  | '-' :: rest => (true, rest)
  | '+' :: rest => (false, rest)
  | rest => (false, rest)

def natOf (digits : List Char) : Nat :=
  digits.foldl (fun n c => 10 * n + (c.toNat - 48)) 0

inductive Integer where
  | number (n : Int)
  /- Digits in front of whatever follows, more than `limit`; how many is counted. -/
  | tooLong (count : Nat)
  | notNumeric
  deriving DecidableEq, Repr

/- Reads an integer of at most `limit` digits. The digits are counted before the rest is looked at. -/
def integer (limit : Nat) (s : String) : Integer :=
  let (negative, body) := sign ((trimMargin s.toList).map asciiDigit)
  let isGrouped (c : Char) : Bool := c.isDigit || c = '_'
  match joinDigits false (body.takeWhile isGrouped) with
  | none | some [] => .notNumeric
  | some digits =>
    if limit < digits.length then .tooLong digits.length
    else if body.all isGrouped then
      .number (if negative then -(natOf digits : Int) else natOf digits)
    else .notNumeric

def exponent? : List Char → Option Int
  | [] => some 0
  | c :: rest =>
    let (negative, digits) := sign rest
    if (c = 'e' || c = 'E') && !digits.isEmpty && digits.all Char.isDigit then
      some (if negative then -(natOf digits) else natOf digits)
    else none

/- The number nearest to `± digits * 10 ^ place`. A decimal far outside the range is not computed. -/
def decimal (negative : Bool) (digits : Nat) (place : Int) : Binary64 :=
  let size : Int := (Nat.toDigits 10 digits).length + place
  if digits = 0 || size < -400 then .ofRatio negative 0 1
  else if size > 400 then .infinite negative
  else if 0 ≤ place then .ofRatio negative (digits * Nat.pow 10 place.toNat) 1
  else .ofRatio negative digits (Nat.pow 10 (-place).toNat)

def lowerAscii (s : List Char) : List Char := s.map Char.toLower

def real? (s : String) : Option Binary64 := do
  let chars ← joinDigits false ((trimMargin s.toList).map asciiDigit)
  let (negative, body) := sign chars
  let word := String.ofList (lowerAscii body)
  if word == "inf" || word == "infinity" then some (.infinite negative)
  else if word == "nan" then some (.nan 0)
  else
    let whole := body.takeWhile Char.isDigit
    let afterWhole := body.dropWhile Char.isDigit
    let (part, rest) := match afterWhole with
      | '.' :: tail => (tail.takeWhile Char.isDigit, tail.dropWhile Char.isDigit)
      | other => ([], other)
    if whole.isEmpty && part.isEmpty then none
    else
      let e ← exponent? rest
      some (decimal negative (natOf (whole ++ part)) (e - part.length))

end Stencil.Reader

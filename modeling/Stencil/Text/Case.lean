import Stencil.Text.CaseTable

/-! Full case mappings of Unicode, with the final form of sigma, and comparison that ignores case. -/
namespace Stencil.Text

def shifted (runs : List CaseRun) (c : Char) : Option Char :=
  (runs.find? (·.covers c.toNat)).map (fun r => Char.ofNat ((c.toNat : Int) + r.shift).toNat)

/- The lower case of one character on its own, which is longer for the dotted capital I only. -/
def lowerChar (c : Char) : List Char :=
  if c.toNat < 128 then [c.toLower]
  else if c.toNat = 304 then ['i', Char.ofNat 775]
  else [(shifted lowerRuns c).getD c]

def upperChar (c : Char) : List Char :=
  if c.toNat < 128 then [c.toUpper]
  else match longUpper.lookup c.toNat with
    | some image => image.map Char.ofNat
    | none => [(shifted upperRuns c).getD c]

def lowerPoint (c : Char) : Char := (lowerChar c).headD c

def isCaseIgnorable (c : Char) : Bool := within caseIgnorableBounds c.toNat

def isCased (c : Char) : Bool := within casedBounds c.toNat

/- The nearest character that is not ignorable is cased. -/
def meetsCased (s : List Char) : Bool :=
  match s.dropWhile isCaseIgnorable with
  | [] => false
  | c :: _ => isCased c

/- Lower case of `s`, where `before` holds the characters already read, the nearest first. A
capital sigma that ends a word becomes a final sigma. -/
def lowerAfter (before : List Char) : List Char → List Char
  | [] => []
  | c :: rest =>
    (if c = 'Σ' then (if meetsCased before && !meetsCased rest then ['ς'] else ['σ'])
      else lowerChar c) ++ lowerAfter (c :: before) rest

def lower (s : List Char) : List Char := lowerAfter [] s

def upper (s : List Char) : List Char := s.flatMap upperChar

def lowerText (s : String) : String := String.ofList (lower s.toList)

def upperText (s : String) : String := String.ofList (upper s.toList)

/- `c` is read as `p` when case is ignored. A character without case variants stands for itself
alone. -/
def sameIgnoringCase (p c : Char) : Bool :=
  if within caseVariantBounds p.toNat then
    lowerPoint c == lowerPoint p ||
      ((caseSiblings.lookup (lowerPoint p).toNat).getD []).contains (lowerPoint c).toNat
  else c == p

end Stencil.Text

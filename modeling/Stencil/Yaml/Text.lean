import Stencil.Value.Fault

/-! The characters of YAML documents: which are allowed, which part lines and words, and where they
stand. -/
namespace Stencil.Yaml

inductive Fault where
  | malformed
  /- The document is well formed, but a scalar or a key in it stands for no value. -/
  | value (fault : ValueFault)
  deriving DecidableEq, Repr

def isAllowed (c : Char) : Bool :=
  let n := c.toNat
  n = 9 || n = 10 || n = 13 || n = 0x85 || (0x20 ≤ n && n ≤ 0x7e) || (0xa0 ≤ n && n ≤ 0xfffd) ||
    0x10000 ≤ n

def byteOrderMark : Char := '\ufeff'

def isBreak (c : Char) : Bool := c = '\n' || c = '\u0085' || c = '\u2028' || c = '\u2029'

def isBlank (c : Char) : Bool := c = ' ' || c = '\t'

/- A blank, a line break or the end. -/
def isGap (c? : Option Char) : Bool := c?.all (fun c => isBlank c || isBreak c)

/- A space, a line break or the end. -/
def isSpace (c? : Option Char) : Bool := isGap c? && c? != some '\t'

def isBracket (c : Char) : Bool := c = ',' || c = '[' || c = ']' || c = '\x7b' || c = '\x7d'

def isWordChar (c : Char) : Bool := c.isAlphanum || c = '-' || c = '_'

structure Spot where
  index : Nat
  line : Nat
  column : Nat
  deriving DecidableEq, Repr

namespace Spot

def start : Spot := ⟨0, 0, 0⟩

def advance (p : Spot) (c : Char) : Spot :=
  if isBreak c then ⟨p.index + 1, p.line + 1, 0⟩
  else ⟨p.index + 1, p.line, if c = byteOrderMark then p.column else p.column + 1⟩

def behind (p : Spot) (s : List Char) : Spot := s.foldl advance p

theorem behind_append (p : Spot) (s t : List Char) :
    p.behind (s ++ t) = (p.behind s).behind t := by
  simp [behind]

theorem index_advance (p : Spot) (c : Char) : (p.advance c).index = p.index + 1 := by
  unfold advance; split <;> rfl

theorem index_behind (p : Spot) (s : List Char) : (p.behind s).index = p.index + s.length := by
  induction s generalizing p with
  | nil => rfl
  | cons c s ih =>
    have := ih (p.advance c)
    simp only [behind, List.foldl_cons, List.length_cons] at *
    rw [this, index_advance]; omega

end Spot

def isTriple (c : Char) (s : List Char) : Bool := [c, c, c].isPrefixOf s && isGap (s[3]?)

/- A mark that begins or ends a document, if it stands at the beginning of a line. -/
def isDocumentMark (s : List Char) : Bool := isTriple '-' s || isTriple '.' s

def newline (c : Char) : Char := if c = '\u0085' then '\n' else c

structure Gap where
  breaks : List Char
  count : Nat
  column : Nat
  /- A document mark stopped them behind a break. -/
  marked : Bool
  deriving DecidableEq, Repr

/- The gap at the front of a text. Tabulators are blanks if `tabs` is set. `fresh` tells whether the text
begins a line. -/
def gap (tabs fresh : Bool) (column : Nat) : List Char → Gap
  | [] => ⟨[], 0, column, false⟩
  | c :: rest =>
    if fresh && isDocumentMark (c :: rest) then ⟨[], 0, column, true⟩
    else if isBreak c then
      let g := gap tabs true 0 rest
      { g with breaks := newline c :: g.breaks, count := g.count + 1 }
    else if c = ' ' || (tabs && c = '\t') then
      let g := gap tabs false (column + 1) rest
      { g with count := g.count + 1 }
    else ⟨[], 0, column, false⟩

/- What is read for the breaks in a scalar: a lone line feed becomes a space, and of several the first
one is dropped. -/
def folded : List Char → List Char
  | [] => []
  | c :: more => if c != '\n' then c :: more else if more.isEmpty then [' '] else more

def Gap.text (g : Gap) (s : List Char) : List Char :=
  if g.breaks.isEmpty then s.take g.count else folded g.breaks

end Stencil.Yaml

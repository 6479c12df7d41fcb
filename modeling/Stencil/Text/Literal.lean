/-! Text between quotes in templates, where a backslash takes the next character literally. -/
namespace Stencil.Text

def isQuote (c : Char) : Bool := c = '\'' || c = '"'

def closingQuote? (quote : Char) : List Char → Option Nat
  | [] => none
  | '\\' :: _ :: rest => (closingQuote? quote rest).map (· + 2)
  | c :: rest => if c = quote then some 0 else (closingQuote? quote rest).map (· + 1)

def escaped (c : Char) : Char :=
  if c = 'n' then '\n' else if c = 't' then '\t' else if c = 'r' then '\r' else c

/- The text that the characters between the quotes stand for. A backslash at the end stands for
itself. -/
def unescape : List Char → List Char
  | [] => []
  | '\\' :: c :: rest => escaped c :: unescape rest
  | c :: rest => c :: unescape rest

/- For each character, whether it stands outside quotes and parentheses; the quotes and parentheses
themselves do not. -/
def outside (depth : Nat) : Option Char → List Char → List Bool
  | _, [] => []
  | some quote, '\\' :: _ :: rest => false :: false :: outside depth (some quote) rest
  | some quote, c :: rest => false :: outside depth (if c = quote then none else some quote) rest
  | none, c :: rest =>
    if isQuote c then false :: outside depth (some c) rest
    else if c = '(' then false :: outside (depth + 1) none rest
    else if c = ')' then false :: outside (depth - 1) none rest
    else (depth == 0) :: outside depth none rest

theorem length_outside (depth : Nat) (quote : Option Char) (s : List Char) :
    (outside depth quote s).length = s.length := by
  fun_induction outside depth quote s <;> simp_all

def topLevel (s : List Char) : List Nat :=
  ((outside 0 none s).zipIdx.filter (·.1)).map (·.2)

def marked (s : List Char) : List (Char × Bool) := s.zip (outside 0 none s)

def lengthen (cs : List Char) : List (List Char) → List (List Char)
  | [] => [cs]
  | p :: ps => (cs ++ p) :: ps

/- Cuts at every `separator` that stands outside. A doubled bar is not a separator. -/
def splitMarked (separator : Char) : List (Char × Bool) → List (List Char)
  | [] => [[]]
  | (c, top) :: rest =>
    if top && c = separator then
      match separator, rest with
      | '|', ('|', _) :: rest => lengthen ['|', '|'] (splitMarked separator rest)
      | _, rest => [] :: splitMarked separator rest
    else lengthen [c] (splitMarked separator rest)

/- Each piece with the position where it begins; a separator is one character long. -/
def placed (start : Nat) : List (List Char) → List (List Char × Nat)
  | [] => []
  | p :: ps => (p, start) :: placed (start + p.length + 1) ps

def splitOutside (separator : Char) (s : List Char) : List (List Char × Nat) :=
  placed 0 (splitMarked separator (marked s))

end Stencil.Text

import Stencil.Yaml.Text

/-! Scalars of YAML, plain, quoted and in blocks: what is written, with its line breaks folded, and how
much of the document it takes. -/
namespace Stencil.Yaml

structure Cut where
  text : List Char
  count : Nat
  deriving DecidableEq, Repr

def Cut.after (read : List Char) (taken : Nat) (x : Cut) : Cut := ⟨read ++ x.text, taken + x.count⟩

/-! ## Plain scalars -/

/- How many characters of a plain scalar stand up to the next gap. A colon before a gap is no part of it,
and between brackets neither is a character that parts them. -/
def plainLength (inFlow : Bool) : List Char → Nat
  | [] => 0
  | c :: rest =>
    if isGap (some c) || (c = ':' && isGap rest.head?) || (inFlow && isBracket c) then 0
    else plainLength inFlow rest + 1

structure Plain extends Cut where
  closed : Bool
  deriving DecidableEq, Repr

/- Reads a plain scalar over several lines. It ends before a comment, before a document mark and, in a
block, before a line that does not reach the column `indent`. -/
def plain (inFlow : Bool) (indent : Nat) (s : List Char) : Plain :=
  let n := plainLength inFlow s
  if _h : n = 0 then ⟨⟨[], 0⟩, false⟩
  else
    let g := gap false false 0 (s.drop n)
    let taken := n + g.count
    let last : Plain := ⟨⟨s.take n, taken⟩, !g.breaks.isEmpty⟩
    let rest := s.drop taken
    if g.count = 0 || g.marked || rest.head? = some '#' ||
        (!inFlow && !g.breaks.isEmpty && g.column < indent) then last
    else
      let more := plain inFlow indent rest
      if more.count = 0 then last
      else ⟨more.after (s.take n ++ g.text (s.drop n)) taken, more.closed⟩
termination_by s.length
decreasing_by
  cases s with
  | nil => exact absurd rfl _h
  | cons => simp only [List.length_drop, List.length_cons]; omega

/-! ## Quoted scalars -/

/- Reads up to the closing quote of a text between single quotes; a doubled quote stands for one. -/
def single (s : List Char) : Except Fault Cut :=
  match s with
  | [] => .error .malformed
  | '\'' :: '\'' :: rest => (single rest).map (·.after ['\''] 2)
  | c :: rest =>
    if c = '\'' then .ok ⟨[], 1⟩
    else if isGap (some c) then
      let g := gap true false 0 (c :: rest)
      if g.marked then .error .malformed
      else (single (rest.drop (g.count - 1))).map (·.after (g.text (c :: rest)) g.count)
    else (single rest).map (·.after [c] 1)
termination_by s.length

def escape? (c : Char) : Option Char :=
  [('0', '\x00'), ('a', '\x07'), ('b', '\x08'), ('t', '\t'), ('\t', '\t'), ('n', '\n'), ('v', '\x0b'),
    ('f', '\x0c'), ('r', '\r'), ('e', '\x1b'), (' ', ' '), ('"', '"'), ('/', '/'), ('\\', '\\'),
    ('N', '\u0085'), ('_', '\u00a0'), ('L', '\u2028'), ('P', '\u2029')].lookup c

def codeLength? (c : Char) : Option Nat := [('x', 2), ('u', 4), ('U', 8)].lookup c

def digitsValue? (base : Nat) (s : List Char) : Option Nat :=
  let value (c : Char) : Option Nat :=
    let n := c.toLower.toNat
    let v := if c.isDigit then n - 48 else n - 87
    if (c.isDigit || ('a' ≤ c.toLower && c.toLower ≤ 'f')) && v < base then some v else none
  if s.isEmpty then none else s.foldlM (fun n c => (value c).map (base * n + ·)) 0

def hexNumber? (count : Nat) (s : List Char) : Option Nat :=
  if s.length < count then none else digitsValue? 16 (s.take count)

def secondHalf? : List Char → Option Nat
  | '\\' :: 'u' :: rest => (hexNumber? 4 rest).filter (fun n => 0xdc00 ≤ n && n < 0xe000)
  | _ => none

def joinHalves (first second : Nat) : Nat :=
  0x10000 + 0x400 * (first - 0xd800) + (second - 0xdc00)

/- The character that hexadecimal digits name, and how much is taken for it. The first half of a
character needs the second half behind it. -/
def code (count : Nat) (s : List Char) : Except Fault (Char × Nat) :=
  match hexNumber? count s with
  | none => .error .malformed
  | some n =>
    if n.isValidChar then .ok (Char.ofNat n, count)
    else if 0x110000 ≤ n then .error (.value (.noCharacter n))
    else match if n < 0xdc00 then secondHalf? (s.drop count) else none with
      | none => .error .malformed
      | some m => .ok (Char.ofNat (joinHalves n m), count + 6)

/- Reads up to the closing quote of a text between double quotes. A backslash before a line break takes
the break away, and the blanks around it. -/
def double (s : List Char) : Except Fault Cut :=
  match s with
  | [] => .error .malformed
  | '\\' :: c :: rest =>
    if isBreak c then
      let g := gap true true 0 rest
      if g.marked then .error .malformed
      else (double (rest.drop g.count)).map (·.after g.breaks (g.count + 2))
    else
      match escape? c, codeLength? c with
      | some d, _ => (double rest).map (·.after [d] 2)
      | none, some count =>
        match code count rest with
        | .ok (d, taken) => (double (rest.drop taken)).map (·.after [d] (taken + 2))
        | .error f => .error f
      | none, none => .error .malformed
  | c :: rest =>
    if c = '"' then .ok ⟨[], 1⟩
    else if isGap (some c) then
      let g := gap true false 0 (c :: rest)
      if g.marked then .error .malformed
      else (double (rest.drop (g.count - 1))).map (·.after (g.text (c :: rest)) g.count)
    else (double rest).map (·.after [c] 1)
termination_by s.length
decreasing_by all_goals (simp only [List.length_cons, List.length_drop]; omega)

/-! ## Block scalars -/

inductive Chomp where
  | clip
  | strip
  | keep
  deriving DecidableEq, Repr

def chomp? : List Char → Option Chomp × List Char
  | '+' :: rest => (some .keep, rest)
  | '-' :: rest => (some .strip, rest)
  | rest => (none, rest)

/- The rest of a line behind spaces and a comment, if there is nothing else. The line break is taken
too. -/
def blankLine? (s : List Char) : Option (List Char) :=
  let s := s.dropWhile (· = ' ')
  let s := if s.head? = some '#' then s.dropWhile (!isBreak ·) else s
  match s with
  | [] => some []
  | c :: rest => if isBreak c then some rest else none

/- The line that begins a block scalar: how its end is treated, by how many columns it is indented if
that is told, and what follows. -/
def header? (s : List Char) : Option (Chomp × Option Nat × List Char) := do
  let (first, s) := chomp? s
  let (increment, s) ← match s with
    | c :: rest =>
      if c = '0' then none
      else if c.isDigit then some (some (c.toNat - 48), rest)
      else some (none, c :: rest)
    | [] => some (none, [])
  let (chomp, s) := if first.isSome then (first, s) else chomp? s
  if !isSpace s.head? then none
  else some (chomp.getD .clip, increment, ← blankLine? s)

structure Lead where
  breaks : List Char
  first : Option Nat
  deepest : Nat
  column : Nat
  rest : List Char

def lead (column : Nat) : List Char → Lead
  | [] => ⟨[], none, column, column, []⟩
  | c :: rest =>
    if isBreak c then
      let l := lead 0 rest
      { l with breaks := newline c :: l.breaks, first := some column, deepest := max column l.deepest }
    else if c = ' ' then
      lead (column + 1) rest
    else ⟨[], none, column, column, c :: rest⟩

/- Line breaks, and up to `indent` spaces before each of them and behind the last. -/
structure Margin where
  breaks : List Char
  column : Nat
  rest : List Char

def margin (indent column : Nat) : List Char → Margin
  | [] => ⟨[], column, []⟩
  | c :: rest =>
    if c = ' ' && column < indent then margin indent (column + 1) rest
    else if isBreak c then
      let m := margin indent 0 rest
      { m with breaks := newline c :: m.breaks }
    else ⟨[], column, c :: rest⟩

theorem margin_rest_le (indent column : Nat) (s : List Char) :
    (margin indent column s).rest.length ≤ s.length := by
  induction s generalizing column with
  | nil => exact Nat.le_refl _
  | cons c s ih =>
    simp only [margin, List.length_cons]
    split
    · exact Nat.le_succ_of_le (ih _)
    · split
      · exact Nat.le_succ_of_le (ih _)
      · exact Nat.le_refl _

structure BlockStyle where
  folds : Bool
  chomp : Chomp
  indent : Nat
  outermost : Bool

def Chomp.ending (chomp : Chomp) (last breaks : List Char) : List Char :=
  match chomp with
  | .clip => last
  | .strip => []
  | .keep => last ++ breaks

/- What stands between two lines. Lines that begin with a blank are not joined. -/
def BlockStyle.joint (o : BlockStyle) (line : List Char) (last : Char) (m : Margin) : List Char :=
  if o.folds && last == '\n' && !line.head?.any isBlank && !m.rest.head?.any isBlank then
    (if m.breaks.isEmpty then [' '] else [])
  else [last]

def blockLines (o : BlockStyle) (m : Margin) : List Char × List Char :=
  if m.rest.isEmpty || m.column != o.indent then (o.chomp.ending [] m.breaks, m.rest)
  else
    let line := m.rest.takeWhile (!isBreak ·)
    match _h : m.rest.dropWhile (!isBreak ·) with
    | [] => (m.breaks ++ line, [])
    | c :: rest =>
      let next := margin o.indent 0 rest
      if next.rest.isEmpty || next.column != o.indent || (o.outermost && isDocumentMark next.rest) then
        (m.breaks ++ line ++ o.chomp.ending [newline c] next.breaks, next.rest)
      else
        let (text, behind) := blockLines o next
        (m.breaks ++ line ++ o.joint line (newline c) next ++ text, behind)
termination_by m.rest.length
decreasing_by
  have shorter := (List.dropWhile_suffix (fun c => !isBreak c) (l := m.rest)).length_le
  have := margin_rest_le o.indent 0 rest
  rw [_h] at shorter
  simp only [List.length_cons] at shorter
  omega

/- Reads a block scalar behind its first character. `least` is the column that its lines have at
least. -/
def block? (folds : Bool) (least : Nat) (s : List Char) : Option Cut := do
  let (chomp, increment, body) ← header? s
  let (text, rest) ← match increment with
    | none =>
      let l := lead 0 body
      if l.first.any (fun first => 0 < first && first < l.deepest) then none
      else some (blockLines ⟨folds, chomp, max least l.deepest, least == 0⟩ ⟨l.breaks, l.column, l.rest⟩)
    | some n =>
      let indent := max least 1 + n - 1
      some (blockLines ⟨folds, chomp, indent, false⟩ (margin indent 0 body))
  some ⟨text, s.length - rest.length⟩

end Stencil.Yaml

import Stencil.Yaml.Scalar

/-! Tokens of a YAML document. Blocks have no closing characters, and the beginning of a key is only known
once its colon is read: the scanner keeps the columns of the open blocks, and for each depth of brackets
the token that may still turn out to begin a key. -/
namespace Stencil.Yaml

inductive Directive where
  | version (major : Nat)
  | handle (name stem : String)
  | other
  deriving DecidableEq, Repr

inductive Token where
  | directive (d : Directive)
  | documentStart | documentEnd
  | blockList | blockMap | blockEnd
  | openList | closeList | openMap | closeMap
  | dash | comma | key | value
  | anchor (name : String)
  | reference (name : String)
  | tag (handle : Option String) (suffix : String)
  | scalar (text : String) (plain : Bool)
  deriving DecidableEq, Repr

/- What may begin a key: the token, and whether a key has to begin there since an entry of a block
does. -/
structure Candidate where
  token : Nat
  required : Bool
  spot : Spot
  deriving DecidableEq, Repr

inductive Bracket where
  | list | map
  deriving DecidableEq, Repr

structure Scan where
  spot : Spot
  brackets : List Bracket
  indents : List Nat
  keyAllowed : Bool
  /- The candidates, with the depth of brackets at which they stand. -/
  candidates : List (Nat × Candidate)
  tokens : Array Token

namespace Scan

def start : Scan := ⟨.start, [], [], true, [], #[]⟩

def depth (st : Scan) : Nat := st.brackets.length

def inFlow (st : Scan) : Bool := !st.brackets.isEmpty

def push (st : Scan) (t : Token) : Scan := { st with tokens := st.tokens.push t }

def allowKey (st : Scan) (allowed : Bool) : Scan := { st with keyAllowed := allowed }

/- The column from which the text of a scalar may be continued. -/
def least (st : Scan) : Nat := (st.indents.head?.map (· + 1)).getD 0

def candidate? (st : Scan) : Option Candidate := st.candidates.lookup st.depth

def others (st : Scan) : List (Nat × Candidate) :=
  let depth := st.depth
  st.candidates.filter (·.1 != depth)

def forget (st : Scan) : Except Fault Scan :=
  if st.candidate?.any (·.required) then .error .malformed
  else .ok { st with candidates := st.others }

def maxKey : Nat := 1024

def expire (st : Scan) : Except Fault Scan :=
  let live (c : Candidate) : Bool :=
    c.spot.line == st.spot.line && st.spot.index - c.spot.index ≤ maxKey
  if st.candidates.any (fun c => c.2.required && !live c.2) then .error .malformed
  else .ok { st with candidates := st.candidates.filter (live ·.2) }

def nominate (st : Scan) : Except Fault Scan :=
  if st.keyAllowed then do
    let required := !st.inFlow && st.indents.head? == some st.spot.column
    let st ← st.forget
    return { st with
      candidates := (st.depth, ⟨st.tokens.size, required, st.spot⟩) :: st.candidates }
  else .ok st

/- Closes the blocks that begin behind a column, or all of them. Brackets keep them open. -/
def leave (st : Scan) (column : Option Nat) : Scan :=
  if st.inFlow then st
  else
    let kept := st.indents.dropWhile (fun i => column.all (· < i))
    let closed := List.replicate (st.indents.length - kept.length) Token.blockEnd
    { st with indents := kept, tokens := st.tokens ++ closed.toArray }

/- Opens a block in a column, if it stands behind the innermost one. `place` is where its token goes. -/
def enter (st : Scan) (column place : Nat) (t : Token) : Scan :=
  if !st.inFlow && st.indents.head?.all (· < column) then
    { st with indents := column :: st.indents, tokens := st.tokens.insertIdxIfInBounds place t }
  else st

def enterHere (st : Scan) (t : Token) : Scan := st.enter st.spot.column st.tokens.size t

def mark (st : Scan) (t : Token) : Except Fault Scan :=
  return ((← (st.leave none).forget).allowKey false).push t

/- An opening bracket may begin a key, and a key may follow it. -/
def opening (st : Scan) (b : Bracket) (t : Token) : Except Fault Scan :=
  return { (← st.nominate).allowKey true with brackets := b :: st.brackets }.push t

def closing (st : Scan) (t : Token) : Except Fault Scan :=
  match st.brackets with
  | [] => .error .malformed
  | _ :: outer => return { (← st.forget).allowKey false with brackets := outer }.push t

def comma (st : Scan) : Except Fault Scan := return ((← st.forget).allowKey true).push .comma

def dash (st : Scan) : Except Fault Scan :=
  if !st.inFlow && !st.keyAllowed then .error .malformed
  else return ((← (st.enterHere .blockList).forget).allowKey true).push .dash

def explicitKey (st : Scan) : Except Fault Scan :=
  if !st.inFlow && !st.keyAllowed then .error .malformed
  else return ((← (st.enterHere .blockMap).forget).allowKey !st.inFlow).push .key

/- A colon makes the candidate a key; otherwise it belongs to an explicit key, or to none. -/
def colon (st : Scan) : Except Fault Scan :=
  match st.candidate? with
  | some c =>
    let st := { st with
      candidates := st.others
      tokens := st.tokens.insertIdxIfInBounds c.token .key }
    return ((st.enter c.spot.column c.token .blockMap).allowKey false).push .value
  | none =>
    if !st.inFlow && !st.keyAllowed then .error .malformed
    else return ((st.enterHere .blockMap).allowKey !st.inFlow).push .value

def leaf (st : Scan) (t : Token) : Except Fault Scan := return ((← st.nominate).allowKey false).push t

end Scan

/-! ## Properties and directives -/

def isNameChar (c : Char) : Bool :=
  !isBracket c && c != byteOrderMark && (('!' ≤ c && c ≤ '~') || 0xa0 ≤ c.toNat)

def anchorName? (s : List Char) : Option (List Char) :=
  let name := s.takeWhile isNameChar
  let next := s[name.length]?
  if name.isEmpty || !(isGap next || next.any isBracket) then none else some name

def isTagChar (c : Char) : Bool := isWordChar c || ";/?:@&=+$,.!~*'()[]#".toList.contains c

/- A handle of tags at the front: an exclamation mark, or a word between two. -/
def handle? (s : List Char) : Option (List Char × List Char) :=
  match s with
  | '!' :: rest =>
    let word := rest.takeWhile isWordChar
    match rest.drop word.length with
    | '!' :: rest => some ('!' :: word ++ ['!'], rest)
    | rest => if word.isEmpty && rest.head? = some ' ' then some (['!'], rest) else none
  | _ => none

def tagSuffix? (s : List Char) : Option (String × List Char) :=
  let suffix := s.takeWhile isTagChar
  if suffix.isEmpty then none else some (String.ofList suffix, s.drop suffix.length)

def tag? (s : List Char) : Option (Token × Nat) := do
  let (t, rest) ← match s with
    | '<' :: rest => do
      let (name, rest) ← tagSuffix? rest
      if rest.head? = some '>' then some (Token.tag none name, rest.drop 1) else none
    | s =>
      if isGap s.head? then some (.tag none "!", s)
      else if (s.takeWhile (fun c => !isSpace (some c))).contains '!' then do
        let (handle, rest) ← handle? ('!' :: s)
        let (suffix, rest) ← tagSuffix? rest
        some (.tag (some (String.ofList handle)) suffix, rest)
      else (tagSuffix? s).map (fun p => (.tag (some "!") p.1, p.2))
  if isSpace rest.head? then some (t, s.length - rest.length) else none

def number? (s : List Char) : Option (Nat × List Char) := do
  let digits := s.takeWhile Char.isDigit
  some (← digitsValue? 10 digits, s.drop digits.length)

def directive? (s : List Char) : Option (Directive × Nat) := do
  let name := s.takeWhile isWordChar
  let rest := s.drop name.length
  if name.isEmpty || !isSpace rest.head? then none
  let value := rest.dropWhile (· = ' ')
  let (d, rest) ←
    if name = "YAML".toList then do
      let (major, rest) ← number? value
      if rest.head? != some '.' then none
      let (_, rest) ← number? (rest.drop 1)
      some (.version major, rest)
    else if name = "TAG".toList then do
      let (handle, rest) ← handle? value
      if rest.head? != some ' ' then none
      let (stem, rest) ← tagSuffix? (rest.dropWhile (· = ' '))
      some (Directive.handle (String.ofList handle) stem, rest)
    else some (.other, rest.dropWhile (!isBreak ·))
  if !isSpace rest.head? then none
  some (d, s.length - (← blankLine? rest).length)

/-! ## Scanning -/

/- Spaces, line breaks and comments at the front: how many characters, and whether there is a break.
Between brackets tabulators are spaces too. -/
def layout (inFlow comment : Bool) : List Char → Nat × Bool
  | [] => (0, false)
  | c :: rest =>
    if isBreak c then ((layout inFlow false rest).1 + 1, true)
    else if comment || c = ' ' || (inFlow && c = '\t') then
      let (n, broken) := layout inFlow comment rest
      (n + 1, broken)
    else if c = '#' then
      let (n, broken) := layout inFlow true rest
      (n + 1, broken)
    else (0, false)

/- Whether a colon stands for itself. In a mapping between brackets any does, but behind a value that
waits for its key to be told it needs a gap after it, as it does everywhere else. -/
def isColon (waiting : Bool) (st : Scan) (rest : List Char) : Bool :=
  isGap rest.head? || match st.brackets with
    | .map :: _ => !(waiting && st.tokens.back? == some .value)
    | _ => false

def beginsPlain (c : Char) (rest : List Char) : Bool :=
  if c = '-' || c = '?' || c = ':' then !isGap rest.head?
  else !isGap (some c) && !isBracket c && !("#&*!|>'\"%@\x60".toList.contains c)

/- The state with the token that begins with `c`, and how many of the characters after `c` it takes. -/
def fetch (waiting : Bool) (st : Scan) (c : Char) (rest : List Char) : Except Fault (Scan × Nat) :=
  let alone (next : Except Fault Scan) : Except Fault (Scan × Nat) := return (← next, 0)
  let quoted (cut : Except Fault Cut) : Except Fault (Scan × Nat) := do
    let x ← cut
    return (← st.leaf (.scalar (String.ofList x.text) false), x.count)
  let block (folds : Bool) : Except Fault (Scan × Nat) := do
    match block? folds st.least rest with
    | none => throw .malformed
    | some x =>
      return (((← st.forget).allowKey true).push (.scalar (String.ofList x.text) false), x.count)
  let named (t : String → Token) : Except Fault (Scan × Nat) := do
    match anchorName? rest with
    | none => throw .malformed
    | some name => return (← st.leaf (t (String.ofList name)), name.length)
  if c = '%' && st.spot.column = 0 then do
    match directive? rest with
    | none => throw .malformed
    | some (d, n) => return (← st.mark (.directive d), n)
  else if st.spot.column = 0 && isTriple '-' (c :: rest) then return (← st.mark .documentStart, 2)
  else if st.spot.column = 0 && isTriple '.' (c :: rest) then return (← st.mark .documentEnd, 2)
  else if c = '[' then alone (st.opening .list .openList)
  else if c = '\x7b' then alone (st.opening .map .openMap)
  else if c = ']' then alone (st.closing .closeList)
  else if c = '\x7d' then alone (st.closing .closeMap)
  else if c = ',' then alone st.comma
  else if c = '-' && isGap rest.head? then alone st.dash
  else if c = '?' && (st.inFlow || isGap rest.head?) then alone st.explicitKey
  else if c = ':' && isColon waiting st rest then alone st.colon
  else if c = '*' then named .reference
  else if c = '&' then named .anchor
  else if c = '!' then do
    match tag? rest with
    | none => throw .malformed
    | some (t, n) => return (← st.leaf t, n)
  else if c = '|' && !st.inFlow then block false
  else if c = '>' && !st.inFlow then block true
  else if c = '\'' then quoted (single rest)
  else if c = '"' then quoted (double rest)
  else if beginsPlain c rest then do
    let x := plain st.inFlow st.least (c :: rest)
    let st ← st.leaf (.scalar (String.ofList x.text) true)
    return (st.allowKey x.closed, x.count - 1)
  else throw .malformed

def scanFrom (st : Scan) (s : List Char) : Except Fault (List Token) := do
  let st ← st.expire
  let waiting := !st.candidates.isEmpty
  let (n, broken) := layout st.inFlow false s
  let st ← { st with
    spot := st.spot.behind (s.take n)
    keyAllowed := st.keyAllowed || (broken && !st.inFlow) }.expire
  match _h : s.drop n with
  | [] => return (← (st.leave none).forget).tokens.toList
  | c :: rest =>
    let (next, taken) ← fetch waiting (st.leave (some st.spot.column)) c rest
    scanFrom { next with spot := st.spot.behind (c :: rest.take taken) } (rest.drop taken)
termination_by s.length
decreasing_by
  have := congrArg List.length _h
  simp only [List.length_drop, List.length_cons] at this ⊢
  omega

def scan (text : String) : Except Fault (List Token) :=
  if text.toList.all isAllowed then
    scanFrom .start (match text.toList with
      | c :: rest => if c = byteOrderMark then rest else c :: rest
      | [] => [])
  else .error .malformed

end Stencil.Yaml

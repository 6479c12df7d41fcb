import Stencil.Position
import Stencil.Tally

/-! The pieces of a template, and a first check that its blocks are closed. -/
namespace Stencil

inductive TokenKind where
  | text | output
  | conditionalStart | conditionalElse | conditionalEnd
  | loopStart | loopEnd
  | inclusion | comment | eof
  deriving DecidableEq, Repr

namespace TokenKind

def word : TokenKind → String
  | text => "text"
  | output => "variable"
  | conditionalStart => "conditional_start"
  | conditionalElse => "conditional_else"
  | conditionalEnd => "conditional_end"
  | loopStart => "loop_start"
  | loopEnd => "loop_end"
  | inclusion => "include"
  | comment => "comment"
  | eof => "eof"

def all : List TokenKind :=
  [text, output, conditionalStart, conditionalElse, conditionalEnd, loopStart, loopEnd, inclusion,
    comment, eof]

def ofWord? (w : String) : Option TokenKind := all.find? (·.word == w)

end TokenKind

/- `stop` is the offset just behind the token. -/
structure Token where
  kind : TokenKind
  value : String
  position : Position
  stop : Nat
  deriving DecidableEq, Repr

namespace Token

def counts (ts : List Token) : List (String × Nat) := tally (ts.map (·.kind.word))

structure Balance where
  conditionals : Nat
  loops : Nat
  errors : List String
  deriving DecidableEq, Repr

def Balance.start : Balance := ⟨0, 0, []⟩

def Balance.unmatched (b : Balance) (what : String) (p : Position) : Balance :=
  { b with errors := b.errors ++
      ["Unmatched " ++ what ++ " at line " ++ toString p.line ++ ", column " ++ toString p.column] }

def Balance.step (b : Balance) (t : Token) : Balance :=
  match t.kind with
  | .conditionalStart => { b with conditionals := b.conditionals + 1 }
  | .conditionalElse => if b.conditionals = 0 then b.unmatched "else" t.position else b
  | .conditionalEnd =>
    if b.conditionals = 0 then b.unmatched "conditional end" t.position
    else { b with conditionals := b.conditionals - 1 }
  | .loopStart => { b with loops := b.loops + 1 }
  | .loopEnd =>
    if b.loops = 0 then b.unmatched "loop end" t.position else { b with loops := b.loops - 1 }
  | _ => b

def Balance.report (b : Balance) : List String :=
  b.errors ++
    (if b.conditionals = 0 then []
      else ["Unclosed conditional blocks: " ++ toString b.conditionals]) ++
    (if b.loops = 0 then [] else ["Unclosed loop blocks: " ++ toString b.loops])

/- The errors in the balance of blocks. Conditionals and loops are counted apart. -/
def balanceErrors (ts : List Token) : List String := (ts.foldl Balance.step .start).report

end Token
end Stencil

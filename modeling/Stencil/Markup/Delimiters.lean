import Stencil.Text.Case
import Stencil.Text.Letter

/-! The delimiters of directives. -/
namespace Stencil

structure Delimiters where
  variableStart : String
  variableEnd : String
  conditionalStart : String
  conditionalElse : String
  conditionalEnd : String
  loopStart : String
  loopEnd : String
  includeStart : String
  commentStart : String
  commentEnd : String
  ignoreCase : Bool
  deriving DecidableEq, Repr

namespace Delimiters

def standard : Delimiters where
  variableStart := "$\x7b"
  variableEnd := "\x7d"
  conditionalStart := "$\x7b#if"
  conditionalElse := "$\x7belse\x7d"
  conditionalEnd := "$\x7b/if\x7d"
  loopStart := "$\x7b#each"
  loopEnd := "$\x7b/each\x7d"
  includeStart := "$\x7binclude"
  commentStart := "$\x7b!--"
  commentEnd := "--\x7d"
  ignoreCase := false

def named (d : Delimiters) : List (String × String) := [
  ("variable_start", d.variableStart), ("variable_end", d.variableEnd),
  ("conditional_start", d.conditionalStart), ("conditional_else", d.conditionalElse),
  ("conditional_end", d.conditionalEnd), ("loop_start", d.loopStart), ("loop_end", d.loopEnd),
  ("include", d.includeStart), ("comment_start", d.commentStart), ("comment_end", d.commentEnd)]

def fold (d : Delimiters) (s : List Char) : List Char := if d.ignoreCase then Text.lower s else s

def reads (d : Delimiters) (p c : Char) : Bool :=
  if d.ignoreCase then Text.sameIgnoringCase p c else p == c

def readsAt (d : Delimiters) : List Char → List Char → Bool
  | [], _ => true
  | _ :: _, [] => false
  | p :: needle, c :: s => d.reads p c && readsAt d needle s

theorem readsAt_eq_isPrefixOf {d : Delimiters} (h : d.ignoreCase = false) (needle s : List Char) :
    d.readsAt needle s = needle.isPrefixOf s := by
  induction needle generalizing s with
  | nil => cases s <;> rfl
  | cons p needle ih =>
    cases s with
    | nil => rfl
    | cons c s => simp [readsAt, reads, h, ih, List.isPrefixOf]

end Delimiters
end Stencil

import Stencil.Number.Reader
import Stencil.Value.Equal
import Stencil.Value.Fault

/-! Comparison of values in conditions. -/
namespace Stencil

inductive Relation where
  | equal | notEqual | same | notSame | greater | less | atLeast | atMost
  | unknown (symbol : String)
  deriving DecidableEq, Repr

namespace Relation

def symbol : Relation → String
  | equal => "=="
  | notEqual => "!="
  | same => "==="
  | notSame => "!=="
  | greater => ">"
  | less => "<"
  | atLeast => ">="
  | atMost => "<="
  | unknown s => s

def all : List Relation :=
  [same, notSame, equal, notEqual, atLeast, atMost, greater, less]

def ofSymbol? (s : String) : Option Relation := all.find? (·.symbol == s)

def ofSymbol (s : String) : Relation := (ofSymbol? s).getD (.unknown s)

theorem ofSymbol?_symbol (r : Relation) (h : r ∈ all) : ofSymbol? r.symbol = some r := by
  simp only [all, List.mem_cons, List.not_mem_nil, or_false] at h
  rcases h with h | h | h | h | h | h | h | h <;> subst h <;> decide

end Relation

namespace Value

def real? : Value → Except ValueFault (Option Binary64)
  | .int n => (match Binary64.ofInt? n with
    | some x => .ok (some x)
    | none => .error .tooLarge)
  | .float x => .ok (some x)
  | .str s => .ok (Reader.real? (Text.trim s))
  | _ => .ok none

def reals? (a b : Value) : Except ValueFault (Option (Binary64 × Binary64)) := do
  let x ← a.real?
  let y ← b.real?
  return match x, y with
    | some x, some y => some (x, y)
    | _, _ => none

def isNan : Value → Bool
  | .float x => x.isNan
  | _ => false

/- Equality of operands: a NaN equals nothing, and inside a collection itself. -/
def equalOperands (a b : Value) : Bool := !a.isNan && a.equal b

/- A number equals a text that reads as it; a missing value equals null. -/
def looselyEqual (a b : Value) : Except ValueFault Bool :=
  if a.kind == .null || b.kind == .null then .ok (a.kind == b.kind)
  else if a.kind == b.kind then .ok (equalOperands a b)
  else match a.kind, b.kind with
    | .number, .string | .string, .number => do
      return ((← reals? a b).map (fun p => p.1.same p.2)).getD false
    | _, _ => .ok false

def strictlyEqual (a b : Value) : Bool :=
  a.kind == b.kind && (a.kind == .null || equalOperands a b)

def order? (a b : Value) : Except ValueFault (Option Ordering) :=
  match a, b with
  | .str s, .str t => .ok (some (if s < t then .lt else if s = t then .eq else .gt))
  | .int _, _ | .float _, _ | .str _, _ => (match b with
    | .int _ | .float _ | .str _ => do
      return (← reals? a b).bind (fun p => p.1.compare? p.2)
    | _ => .ok none)
  | _, _ => .ok none

def compare (r : Relation) (a b : Value) : Except ValueFault Bool :=
  match r with
  | .equal => looselyEqual a b
  | .notEqual => (looselyEqual a b).map (!·)
  | .same => .ok (strictlyEqual a b)
  | .notSame => .ok (!strictlyEqual a b)
  | r => do
    let o ← order? a b
    match r with
    | .greater => return o == some .gt
    | .less => return o == some .lt
    | .atLeast => return o == some .gt || o == some .eq
    | .atMost => return o == some .lt || o == some .eq
    | r => throw (.unknownRelation r.symbol)

end Value
end Stencil

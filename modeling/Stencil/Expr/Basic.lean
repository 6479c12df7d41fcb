import Stencil.Value.Compare

/-! Expressions of conditions, loop headers and output directives. -/
namespace Stencil

inductive Expr where
  | literal (value : Value)
  | path (path : String)
  | call (name : String) (args : List Expr)
  | group (e : Expr)
  | not (e : Expr)
  | and (left right : Expr)
  | or (left right : Expr)
  | compare (relation : Relation) (left right : Expr)
  deriving Repr, Inhabited

namespace Expr

mutual

def paths (e : Expr) : List String :=
  match e with
  | .literal _ => []
  | .path p => [p]
  | .call _ args => pathsOf args
  | .group e | .not e => paths e
  | .and l r | .or l r | .compare _ l r => paths l ++ paths r
termination_by structural e

def pathsOf (es : List Expr) : List String :=
  match es with
  | [] => []
  | e :: es => paths e ++ pathsOf es
termination_by structural es

end

mutual

/- The names of called functions; a call comes before the calls in its arguments. -/
def functions (e : Expr) : List String :=
  match e with
  | .literal _ | .path _ => []
  | .call name args => name :: functionsOf args
  | .group e | .not e => functions e
  | .and l r | .or l r | .compare _ l r => functions l ++ functions r
termination_by structural e

def functionsOf (es : List Expr) : List String :=
  match es with
  | [] => []
  | e :: es => functions e ++ functionsOf es
termination_by structural es

end
end Expr
end Stencil

import Stencil.Procedure.Compiler

/-! What can be said about the expressions of a template without compiling it. -/
namespace Stencil.Procedure

/- Errors keep a template from being compiled in any registry; warnings name what this registry does not
have. -/
structure Issues where
  errors : List String
  warnings : List String
  deriving DecidableEq, Repr

namespace Issues

def empty : Issues := ⟨[], []⟩

def append (a b : Issues) : Issues := ⟨a.errors ++ b.errors, a.warnings ++ b.warnings⟩

def unknown (env : Registry) (role : Role) (place : String) (names : List String) : List String :=
  (names.filter (fun name => (env.get? role name).isNone)).map
    (fun name => "Unknown " ++ role.word ++ ": " ++ name ++ " at " ++ place)

def unreadable (text place : String) (f : SyntaxFault) : Except ValueFault Issues :=
  match f.value? with
  | some fault => .error fault
  | none => .ok ⟨["Invalid expression '" ++ text ++ "' at " ++ place ++ ": " ++ f.problem.message], []⟩

def ofExpr (env : Registry) (place text : String) : Except ValueFault Issues :=
  match Expr.parse text with
  | .ok e => .ok ⟨[], unknown env .function place e.functions⟩
  | .error f => unreadable text place f

def ofOutput (env : Registry) (place text : String) : Except ValueFault Issues :=
  match Output.parse text with
  | .ok o => .ok ⟨[], unknown env .function place o.expression.functions ++
      unknown env .filter place (o.filters.map (·.name))⟩
  | .error f => unreadable text place f

/- The issues of a node alone. Blank expressions are passed over. -/
def ofNode (env : Registry) (n : Node) : Except ValueFault Issues :=
  match n with
  | .output p text => if Text.allBlank text then .ok .empty else ofOutput env p.text text
  | .conditional p text _ _ => if Text.allBlank text then .ok .empty else ofExpr env p.text text
  | .loop p _ text _ => if Text.allBlank text then .ok .empty else ofExpr env p.text text
  | _ => .ok .empty

end Issues

/- The issues of all nodes, in the order of the document. A number that is too long for a value is no
issue but ends the search. -/
def issues (env : Registry) (n : Node) : Except ValueFault Issues := do
  return (← n.all.mapM (Issues.ofNode env)).foldl Issues.append .empty

end Stencil.Procedure

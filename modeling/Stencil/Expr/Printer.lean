import Stencil.Expr.Basic
import Stencil.Value.Json

/-! Expressions as text. Groups are explicit in the tree, so that no parentheses are added. -/
namespace Stencil.Expr

/- A literal as JSON; a key that JSON cannot write leaves the text empty. -/
def literalText (v : Value) : String := (v.json .spaced).toOption.getD ""

mutual

def text (e : Expr) : String :=
  match e with
  | .literal v => literalText v
  | .path p => p
  | .call name args => name ++ "(" ++ String.intercalate ", " (textOf args) ++ ")"
  | .group e => "(" ++ text e ++ ")"
  | .not e => "!" ++ text e
  | .and l r => text l ++ " && " ++ text r
  | .or l r => text l ++ " || " ++ text r
  | .compare relation l r => text l ++ " " ++ relation.symbol ++ " " ++ text r
termination_by structural e

def textOf (es : List Expr) : List String :=
  match es with
  | [] => []
  | e :: es => text e :: textOf es
termination_by structural es

end
end Stencil.Expr

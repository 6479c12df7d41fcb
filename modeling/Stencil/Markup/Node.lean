import Stencil.Position
import Stencil.Tally
import Stencil.Text.Blank
import Stencil.Text.Letter
import Stencil.Value

/-! Templates as trees. A tree that was read has one root, on top; a tree that was made by hand may hold
nodes that no directive stands for. -/
namespace Stencil

inductive Node where
  | text (position : Position) (text : String)
  | output (position : Position) (expression : String)
  | conditional (position : Position) (condition : String) (children otherwise : List Node)
  | loop (position : Position) (name collection : String) (children : List Node)
  | inclusion (position : Position) (name : String)
  | root (position : Position) (children : List Node)
  | foreign (position : Position) (kind className : String)
  deriving Repr, Inhabited

namespace Node

def position : Node → Position
  | .text p _ | .output p _ | .conditional p _ _ _ | .loop p _ _ _ | .inclusion p _ | .root p _
  | .foreign p _ _ => p

def kind : Node → String
  | .text .. => "text"
  | .output .. => "variable"
  | .conditional .. => "conditional"
  | .loop .. => "loop"
  | .inclusion .. => "include"
  | .root .. => "root"
  | .foreign _ kind _ => kind

mutual

def all (n : Node) : List Node :=
  n :: match n with
    | .conditional _ _ children otherwise => allOf children ++ allOf otherwise
    | .loop _ _ _ children | .root _ children => allOf children
    | _ => []
termination_by structural n

def allOf (ns : List Node) : List Node :=
  match ns with
  | [] => []
  | n :: ns => all n ++ allOf ns
termination_by structural ns

end

mutual

def height (n : Node) : Nat :=
  match n with
  | .conditional _ _ children otherwise => max (heightOf children) (heightOf otherwise)
  | .loop _ _ _ children | .root _ children => heightOf children
  | _ => 0
termination_by structural n

def heightOf (ns : List Node) : Nat :=
  match ns with
  | [] => 0
  | n :: ns => max (height n + 1) (heightOf ns)
termination_by structural ns

end

def counts (n : Node) : List (String × Nat) := tally (n.all.map kind)

def place (kind : String) (p : Position) : Entries :=
  [(.str "type", .str kind), (.str "line", .int p.line), (.str "column", .int p.column)]

mutual

def toValue (n : Node) : Value :=
  .map (match n with
    | .text p s => place "text" p ++ [(.str "text", .str s)]
    | .output p expression => place "variable" p ++ [(.str "expression", .str expression)]
    | .conditional p condition children otherwise =>
      place "conditional" p ++ [(.str "condition", .str condition),
        (.str "children", .list (toValues children)),
        (.str "elseChildren", .list (toValues otherwise))]
    | .loop p name collection children =>
      place "loop" p ++ [(.str "variable", .str name), (.str "collection", .str collection),
        (.str "children", .list (toValues children))]
    | .inclusion p name => place "include" p ++ [(.str "name", .str name)]
    | .root p children => place "root" p ++ [(.str "children", .list (toValues children))]
    | .foreign p kind _ => place kind p)
termination_by structural n

def toValues (ns : List Node) : List Value :=
  match ns with
  | [] => []
  | n :: ns => toValue n :: toValues ns
termination_by structural ns

end

/- A name that a loop may bind; a line break at its end is overlooked. -/
def isLoopName (name : String) : Bool := Text.isAsciiName (Text.chompLine name.toList)

mutual

/- What is wrong with the tree, at `depth` steps from its top. Nothing is said about nodes below one
that is too deep. -/
def errorsAt (limit : Int) (depth : Nat) (n : Node) : List String :=
  let place := " at position " ++ n.position.text
  if limit < depth then ["AST nesting depth exceeds " ++ toString limit ++ place]
  else match n with
    | .conditional _ condition children otherwise =>
      (if Text.allBlank condition then ["Conditional node missing condition" ++ place] else []) ++
        errorsOf limit (depth + 1) children ++ errorsOf limit (depth + 1) otherwise
    | .loop _ name collection children =>
      (if Text.allBlank collection then ["Loop node missing collection" ++ place]
        else if isLoopName name then []
        else ["Invalid loop variable '" ++ name ++ "'" ++ place]) ++
        errorsOf limit (depth + 1) children
    | .inclusion _ name =>
      if Text.allBlank name then ["Include node missing template name" ++ place] else []
    | .root _ children => errorsOf limit (depth + 1) children
    | .foreign _ _ className => ["Unknown node type '" ++ className ++ "'" ++ place]
    | .text .. | .output .. => []
termination_by structural n

def errorsOf (limit : Int) (depth : Nat) (ns : List Node) : List String :=
  match ns with
  | [] => []
  | n :: ns => errorsAt limit depth n ++ errorsOf limit depth ns
termination_by structural ns

end

def defaultDepth : Int := 100

def errors (limit : Int) (n : Node) : List String := errorsAt limit 0 n

end Node
end Stencil

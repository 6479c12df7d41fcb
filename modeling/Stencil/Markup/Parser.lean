import Stencil.Markup.Loop
import Stencil.Markup.Token

/-! Trees from tokens. The blocks that are open form a stack, innermost first; its height is the nesting
depth. -/
namespace Stencil

structure Limits where
  depth : Int
  allowEmpty : Bool
  deriving DecidableEq, Repr

def Limits.standard : Limits := ⟨100, false⟩

namespace Node

inductive Part where
  | thenPart (start : Token)
  /- `children` are the nodes of the part before. -/
  | elsePart (start : Token) (children : List Node)
  | loopBody (start : Token) (name collection : String)
  deriving Repr

/- An open block and the nodes that stand before it, the last one first. -/
structure Open where
  part : Part
  before : List Node
  deriving Repr

def Part.start : Part → Token
  | thenPart t | elsePart t _ | loopBody t _ _ => t

def Part.block : Part → BlockKind
  | thenPart _ | elsePart .. => .conditional
  | loopBody .. => .loop

def trimmed (t : Token) : String := Text.trim t.value

def wrong (t : Token) (reason : Reason) : TemplateError := .located t.position reason

def misplaced (t : Token) : List Open → TemplateError
  | [] => wrong t (.unexpectedToken t.kind.word)
  | o :: _ => wrong t (.misplacedToken t.kind.word o.part.block o.part.start.position)

def leaf (limits : Limits) (t : Token) : Except TemplateError Node :=
  match t.kind with
  | .text => .ok (.text t.position t.value)
  | .output =>
    if Text.allBlank t.value && !limits.allowEmpty then .error (wrong t .emptyVariable)
    else .ok (.output t.position (trimmed t))
  | .inclusion =>
    if Text.allBlank t.value then .error (wrong t .emptyInclude)
    else .ok (.inclusion t.position (trimmed t))
  | kind => .error (wrong t (.unexpectedToken kind.word))

def opened (limits : Limits) (t : Token) (blocks : List Open) : Except TemplateError Part :=
  if limits.depth ≤ blocks.length then .error (wrong t (.tooDeep limits.depth))
  else if t.kind = .loopStart then
    match Loop.header t.value with
    | .ok (name, collection) => .ok (.loopBody t name collection)
    | .error reason => .error (wrong t reason)
  else .ok (.thenPart t)

/- Reads tokens; `done` holds the nodes of the innermost part, the last one first. -/
def read (limits : Limits) (done : List Node) (blocks : List Open) :
    List Token → Except TemplateError (List Node)
  | [] => .error (.of .noEnd)
  | t :: rest =>
    match t.kind with
    | .eof =>
      match blocks with
      | [] => .ok done.reverse
      | o :: _ => .error (wrong o.part.start (.unclosedBlock o.part.block))
    | .conditionalStart | .loopStart =>
      match opened limits t blocks with
      | .ok part => read limits [] (⟨part, done⟩ :: blocks) rest
      | .error e => .error e
    | .conditionalElse =>
      match blocks with
      | ⟨.thenPart start, before⟩ :: outer =>
        read limits [] (⟨.elsePart start done.reverse, before⟩ :: outer) rest
      | ⟨.elsePart start _, _⟩ :: _ => .error (wrong t (.repeatedElse start.position))
      | blocks => .error (misplaced t blocks)
    | .conditionalEnd =>
      match blocks with
      | ⟨.thenPart start, before⟩ :: outer =>
        read limits (.conditional start.position (trimmed start) done.reverse [] :: before) outer rest
      | ⟨.elsePart start children, before⟩ :: outer =>
        read limits
          (.conditional start.position (trimmed start) children done.reverse :: before) outer rest
      | blocks => .error (misplaced t blocks)
    | .loopEnd =>
      match blocks with
      | ⟨.loopBody start name collection, before⟩ :: outer =>
        read limits (.loop start.position name collection done.reverse :: before) outer rest
      | blocks => .error (misplaced t blocks)
    | .text | .output | .inclusion | .comment =>
      match leaf limits t with
      | .ok node => read limits (node :: done) blocks rest
      | .error e => .error e

def ofTokens (limits : Limits) (ts : List Token) : Except TemplateError Node :=
  if (ts.getLast?.map (·.kind)) = some .eof then
    match read limits [] [] ts with
    | .ok nodes => .ok (.root .start nodes)
    | .error e => .error e
  else .error (.of .noEnd)

end Node
end Stencil

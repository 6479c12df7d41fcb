import Stencil.Digest.Sha1
import Stencil.Markup.Lexer
import Stencil.Procedure.Issues
import Stencil.Render.Result
import Stencil.Settings.Basic

/-! The engine: from the text of a template to its result. Compiled templates are kept by the digest of
their text, and are used again as long as the registry has not changed. -/
namespace Stencil

def version : String := "0.3.0"

abbrev Loader := String → Except CallFault (Option String)

structure Engine where
  settings : Settings
  registry : Registry
  loader : Option Loader
  host : Host

/- A template and how it was come by. A template from the cache has no counts. -/
structure Processed where
  template : Template
  tokens : Nat
  nodes : Nat
  cached : Bool
  deriving Repr

/- What can be said about a template without compiling it. Tokens and tree are there as far as they
could be made. -/
structure Report where
  errors : List String
  warnings : List String
  tokens : Option (List Token)
  tree : Option Node
  deriving Repr

def Report.valid (r : Report) : Bool := r.errors.isEmpty

namespace Engine

def build (e : Engine) (text : String) : Except TemplateError Processed := do
  let tokens ← Token.scan e.settings.delimiters text
  let tree ← Node.ofTokens e.settings.limits tokens
  let compiled ← (Procedure.compile e.registry tree).mapError Failure.toError
  let template := ⟨Digest.sha1 text, tree, compiled.procedure, compiled.dependencies⟩
  return ⟨template, tokens.length, tree.all.length, false⟩

/- The template of a text, from the cache if it is there and `useCache` is set. -/
def process (e : Engine) (text : String) (useCache : Bool) (cache : Cache Template) :
    Except TemplateError Processed × Cache Template :=
  let key := Digest.sha1 text
  let (found, cache) := if useCache then cache.get key (some e.registry.revision) else (none, cache)
  match found with
  | some entry => (.ok ⟨entry.item, 0, 0, true⟩, cache)
  | none =>
    match e.build text with
    | .error fault => (.error fault, cache)
    | .ok p =>
      (.ok p, if useCache then cache.put ⟨key, e.registry.revision, p.template⟩ else cache)

def load (e : Engine) (text : String) : Run Template := do
  let result ← modifyGet (fun s : RunState =>
    let (result, cache) := e.process text true s.world.cache
    (result, { s with world := { s.world with cache := cache } }))
  match result with
  | .ok p => return p.template
  | .error fault => throw (.template fault)

def source (e : Engine) (name : String) : Except TemplateError String :=
  match e.loader with
  | none => .error (.of (.noLoader name))
  | some loader =>
    match loader name with
    | .ok (some text) => .ok text
    | .ok none => .error (.of (.includeNotFound name))
    | .error (.template fault) => .error fault
    | .error fault => .error (.of (.loaderFailed name fault.text))

/- Runs an included template in the present frame. `remaining` more includes may be opened. -/
def inclusion (e : Engine) : Nat → String → Run Unit
  | 0, name => throw (.template (.of (.tooManyIncludes e.settings.includeDepth name)))
  | remaining + 1, name => do
    match e.source name with
    | .error fault => throw (.template fault)
    | .ok text =>
      let t ← e.load text
      Run.execute e.host (some (e.inclusion remaining)) t

def includer (e : Engine) : Includer := some (e.inclusion e.settings.includeDepth.toNat)

/- Compiles a text and renders it. A text that does not compile makes a failed result. -/
def render (e : Engine) (text : String) (vars : Value) (options : RenderOptions) (w : World) :
    Except ValueFault RenderResult × World :=
  match e.process text true w.cache with
  | (.error fault, cache) => (.ok (.notStarted fault), { w with cache := cache })
  | (.ok p, cache) =>
    p.template.render e.host e.includer vars options { w with cache := cache }

def includeWarnings (n : Node) : List String :=
  n.all.filterMap fun
    | .inclusion p name => some ("Include '" ++ name ++ "' at " ++ p.text ++
        " cannot be resolved: no include loader configured")
    | _ => none

def validate (e : Engine) (text : String) : Except ValueFault Report :=
  match Token.scan e.settings.delimiters text with
  | .error fault => .ok ⟨[fault.text], [], none, none⟩
  | .ok tokens =>
    let balance := Token.balanceErrors tokens
    match Node.ofTokens e.settings.limits tokens with
    | .error fault => .ok ⟨balance ++ [fault.text], [], some tokens, none⟩
    | .ok tree => do
      let issues ← Procedure.issues e.registry tree
      return ⟨balance ++ tree.errors e.settings.limits.depth ++ issues.errors,
        issues.warnings ++ (if e.loader.isNone then includeWarnings tree else []),
        some tokens, some tree⟩

end Engine
end Stencil

import Stencil.Position
import Stencil.Value.Equal
import Stencil.Value.Fault

/-! What can go wrong with a template: the reason, its code, its wording and its details. -/
namespace Stencil

inductive ErrorCode where
  | general | invalid | render | timeout | undefined
  deriving DecidableEq, Repr

def ErrorCode.text : ErrorCode → String
  | general => "TEMPLATE_ERROR"
  | invalid => "INVALID_TEMPLATE"
  | render => "RENDER_ERROR"
  | timeout => "RENDER_TIMEOUT"
  | undefined => "UNDEFINED_VARIABLE"

inductive BlockKind where
  | conditional | loop
  deriving DecidableEq, Repr

def BlockKind.word : BlockKind → String
  | conditional => "conditional"
  | loop => "loop"

inductive Reason where
  -- Reading directives.
  | unclosedComment (closer : String)
  | unclosedDirective (directive closer : String)
  -- Reading blocks.
  | noEnd
  | unexpectedToken (kind : String)
  | misplacedToken (kind : String) (block : BlockKind) (opened : Position)
  | tooDeep (limit : Int)
  | emptyVariable
  | repeatedElse (opened : Position)
  | unclosedBlock (block : BlockKind)
  | badLoopHeader (header : String)
  | emptyInclude
  -- Compiling.
  | unknownRoot (kind : String)
  | unknownNode (kind : String)
  | unknownFilter (name : String)
  | unknownFunction (name : String)
  | emptyCondition
  | badExpression (text problem : String) (place : Nat)
  -- Rendering.
  | unknownInstruction (kind : String)
  | evaluation (problem expression : String)
  | filterFailed (name problem : String)
  | handlerFailed (path problem : String)
  | undefined (path : String) (more : Entries)
  | timeout (shown : String) (limit : Value)
  | noLoader (name : String)
  | tooManyIncludes (limit : Int) (name : String)
  | loaderFailed (name problem : String)
  | includeNotFound (name : String)
  | streamFailed (message code : String)
  | processingFailed (problem : String)
  | reported (code : ErrorCode) (message : String) (details : Entries)
  deriving Repr

namespace Reason

def code : Reason → ErrorCode
  | unclosedComment _ | unclosedDirective .. | noEnd | unexpectedToken _ | misplacedToken ..
  | tooDeep _ | emptyVariable | repeatedElse _ | unclosedBlock _ | badLoopHeader _ | emptyInclude
  | emptyCondition | badExpression .. => .invalid
  | unknownRoot _ | unknownNode _ | unknownFilter _ | unknownFunction _ | unknownInstruction _
  | evaluation .. | filterFailed .. | handlerFailed .. | noLoader _ | tooManyIncludes ..
  | loaderFailed .. | includeNotFound _ | streamFailed .. | processingFailed _ => .render
  | undefined .. => .undefined
  | timeout .. => .timeout
  | reported code .. => code

def message : Reason → String
  | unclosedComment closer => "Unclosed comment, expected '" ++ closer ++ "'"
  | unclosedDirective directive closer =>
    "Unclosed " ++ directive ++ ", expected '" ++ closer ++ "'"
  | noEnd => "Token stream must end with EOF"
  | unexpectedToken kind => "Unexpected " ++ kind ++ " token"
  | misplacedToken kind block _ =>
    "Unexpected " ++ kind ++ " token inside " ++ block.word ++ " block"
  | tooDeep limit => "Maximum nesting depth (" ++ toString limit ++ ") exceeded"
  | emptyVariable => "Empty variable"
  | repeatedElse _ => "Multiple else blocks in conditional"
  | unclosedBlock block => "Unclosed " ++ block.word ++ " block"
  | badLoopHeader header => "Invalid loop expression: '" ++ header ++ "'"
  | emptyInclude => "Empty include directive"
  | unknownRoot kind | unknownNode kind => "Unknown node type: " ++ kind
  | unknownFilter name => "Unknown filter: " ++ name
  | unknownFunction name => "Unknown function: " ++ name
  | emptyCondition => "Empty condition in conditional block"
  | badExpression text problem _ => "Invalid expression '" ++ text ++ "': " ++ problem
  | unknownInstruction kind => "Unknown instruction: " ++ kind
  | evaluation problem _ => problem
  | filterFailed name problem => "Filter '" ++ name ++ "' failed: " ++ problem
  | handlerFailed path problem => "Variable handler error for '" ++ path ++ "': " ++ problem
  | undefined path _ => "Undefined variable: " ++ path
  | timeout shown _ => "Template rendering timeout (" ++ shown ++ "ms)"
  | noLoader name => "Cannot include '" ++ name ++ "': no include loader configured"
  | tooManyIncludes limit name =>
    "Maximum include depth (" ++ toString limit ++ ") exceeded while including '" ++ name ++ "'"
  | loaderFailed name problem => "Failed to load included template '" ++ name ++ "': " ++ problem
  | includeNotFound name => "Included template not found: " ++ name
  | streamFailed message _ => message
  | processingFailed problem => "Template processing failed: " ++ problem
  | reported _ message _ => message

def details : Reason → Entries
  | misplacedToken _ _ opened | repeatedElse opened =>
    .ofTexts [("blockLine", .int opened.line), ("blockColumn", .int opened.column)]
  | unknownNode kind => .ofTexts [("nodeType", .str kind)]
  | unknownFilter name | filterFailed name _ => .ofTexts [("filter", .str name)]
  | unknownFunction name => .ofTexts [("function", .str name)]
  | badExpression text _ place => .ofTexts [("expression", .str text), ("position", .int place)]
  | evaluation _ expression => .ofTexts [("expression", .str expression)]
  | handlerFailed path _ => .ofTexts [("variable", .str path)]
  | undefined path more => more.put (.str "variable") (.str path)
  | timeout _ limit => .ofTexts [("timeoutMs", limit)]
  | noLoader name | tooManyIncludes _ name | loaderFailed name _ | includeNotFound name =>
    .ofTexts [("template", .str name)]
  | streamFailed _ code => .ofTexts [("code", .str code)]
  | reported _ _ details => details
  | _ => []

end Reason

structure TemplateError where
  reason : Reason
  line : Option Int
  column : Option Int
  deriving Repr

namespace TemplateError

def of (reason : Reason) : TemplateError := ⟨reason, none, none⟩

def located (p : Position) (reason : Reason) : TemplateError := ⟨reason, some p.line, some p.column⟩

def code (e : TemplateError) : ErrorCode := e.reason.code

/- The message, followed by the place if both parts of it are known. -/
def text (e : TemplateError) : String :=
  match e.line, e.column with
  | some l, some c => e.reason.message ++ " at " ++ toString l ++ ":" ++ toString c
  | _, _ => e.reason.message

end TemplateError

/- A failure that is nobody's own: an error of templates, or a fault of values that nobody handles. -/
inductive Failure where
  | template (e : TemplateError)
  | value (f : ValueFault)
  deriving Repr

def Failure.toError : Failure → TemplateError
  | template e => e
  | value f => .of (.processingFailed f.message)

inductive CallFault where
  | value (f : ValueFault)
  | template (e : TemplateError)
  | other (message : String)
  deriving Repr

def CallFault.text : CallFault → String
  | value f => f.message
  | template e => e.text
  | other message => message

end Stencil

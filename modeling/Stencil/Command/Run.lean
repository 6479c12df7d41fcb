import Stencil.Command.Line
import Stencil.Command.Report
import Stencil.Files.Includes
import Stencil.Settings.File

/-! Commands: from what was asked for to what is printed. -/
namespace Stencil.Command

inductive Fault where
  | templateNotFound (path : String)
  | file (fault : FileFault)
  | badVariables (path : String)
  | badAssignment (text : String)
  | badPath (path : String)
  | template (e : TemplateError)
  | value (fault : ValueFault)
  deriving Repr

def Fault.message : Fault → String
  | templateNotFound path => "Template file not found: " ++ path
  | file fault => fault.message
  | badVariables path => "Variables file must contain a mapping: " ++ path
  | badAssignment text => "Invalid assignment '" ++ text ++ "'. Expected 'PATH=VALUE'"
  | badPath path => "Invalid variable path '" ++ path ++ "'"
  | template e => e.text
  | value fault => fault.message

/- The fault as it is printed. The account of a file that is no YAML is left open. -/
def Fault.text : Fault → String
  | file (.notYaml path) => (FileFault.notYaml path).message
  | fault => fault.message ++ "\n"

def Fault.unexpected? : Fault → Option ValueFault
  | value f | file (.value f) | file (.settings (.value f)) =>
    if f.family = .value then none else some f
  | _ => none

structure Desk where
  files : Files
  input : String
  host : Host

namespace Request

def isInput (r : Request) : Bool := r.template == "-"

def source (r : Request) (d : Desk) : Except Fault (String × Place) :=
  if r.isInput then .ok (String.ofList (Text.unifyLines d.input.toList), d.files.here)
  else match d.files.read r.template with
    | .ok text => .ok (text, (d.files.here.resolve r.template).dropLast)
    | .error .missing => .error (.templateNotFound (Place.pathText r.template))
    | .error .tooLong => .error (.file (.nameTooLong (Place.pathText r.template)))

/- The settings that are asked for, or those that are found. An empty name asks for none. -/
def settings (r : Request) (d : Desk) : Except FileFault Settings :=
  match r.config with
  | some path => Settings.load d.files (if path == "" then Settings.find? d.files "" else some path)
  | none => Settings.load d.files (Settings.find? d.files "")

/- Includes come from the directory of the template unless the settings name another. -/
def includes (settings : Settings) (d : Desk) (directory : Place) : IncludeDirectory :=
  let base := if settings.includes.dir == "" then directory
    else d.files.here.resolve settings.includes.dir
  ⟨base, settings.includes.suffix⟩

def engine (r : Request) (d : Desk) (directory : Place) : Except FileFault Engine := do
  let settings ← r.settings d
  return ⟨settings, .builtins, some ((includes settings d directory).loader d.files), d.host⟩

def variablesIn (files : Files) (path : String) : Except Fault Entries := do
  match ← (files.yaml path).mapError .file with
  | .null => return []
  | .map es => return es
  | _ => throw (.badVariables path)

/- A path, and what is assigned to it. -/
def assignment (text : String) : Except Fault (String × Value) :=
  match Text.cut '=' text.toList with
  | (_, none) => .error (.badAssignment text)
  | (path, some raw) => match Output.argument raw with
    | .error fault => .error (.value fault)
    | .ok v => .ok (String.ofList (Text.strip path), v)

/- A tree of variables that is changed in one step after the other. -/
abbrev Edit := EStateM Fault Entries

/- Puts a value at the end of a dotted path. A path with an empty part is refused. -/
def assign (path : String) (value : Value) : Edit Unit := do
  let keys := Text.pieces '.' path.toList
  if keys.any (·.isEmpty) then throw (.badPath path)
  modify (fun tree => Path.assign tree (keys.map String.ofList) value)

/- All variables: those of the file, and what is assigned over them. -/
def variableTree (r : Request) (d : Desk) : Except Fault Entries := do
  let start ← match r.vars with
    | some path => if path == "" then pure [] else variablesIn d.files path
    | none => pure []
  let edits : Edit Unit := r.assignments.forM fun text => do
    let (path, value) ← MonadExcept.ofExcept (assignment text)
    assign path value
  match edits.run start with
  | .ok _ tree => return tree
  | .error fault _ => throw fault

/- What the command gives in place of the options of the settings. A switch can only be turned on. -/
def options (r : Request) : Entries :=
  let switch (on : Bool) : Value := if on then .bool true else .null
  Entries.ofTexts [("strict", switch r.strict), ("timeout_ms", r.timeout.getD .null),
    ("auto_escape", switch r.escape)]

def rendered (r : Request) (e : Engine) (text : String) (vars : Entries)
    (cache : Cache Template) : Except Fault RenderResult := do
  let options ← (e.settings.render.overridden r.options).mapError .value
  (e.render text (.map vars) options ⟨0, [], cache⟩).1.mapError .value

def run (r : Request) (d : Desk) : Except Fault Printout := do
  let (text, directory) ← r.source d
  let e ← (r.engine d directory).mapError .file
  let cache : Cache Template := .start none e.settings.cache.enabled e.settings.cache.limit
  match r.verb with
  | .render =>
    let result ← r.rendered e text (← r.variableTree d) cache
    match result.failure with
    | some fault => throw (.template fault)
    | none => return .text result.output
  | .report =>
    let vars ← r.variableTree d
    let (processed, cache) := e.process text true cache
    return .run ⟨processed.toOption, r.encoder, ← r.rendered e text vars cache⟩
  | .validate => return .checked (← (e.validate text).mapError .value)
  | .inspect =>
    let tokens ← (Token.scan e.settings.delimiters text).mapError .template
    let (processed, _) := e.process text true cache
    return .inspected ⟨(← processed.mapError .template).template, tokens⟩

end Request
end Stencil.Command

import Stencil.Expr.Output
import Stencil.Host
import Stencil.Settings.Basic
import Stencil.Value.Order
import Stencil.Value.Writable

/-! Settings from values, as they come from a file. Numbers and truth values may be given as texts, and
an absent section or field has its standard value. -/
namespace Stencil.Settings

abbrev Reader (α : Type) := List String → Value → Except SettingsFault α

def expected (what : String) (path : List String) (v : Value) : Except SettingsFault α :=
  .error (.at path (.expected what v.typeWord))

def bool : Reader Bool := fun path v =>
  match v with
  | .bool b => .ok b
  | .str s =>
    let word := Text.lowerText (Text.trim s)
    if ["true", "yes", "on", "1"].contains word then .ok true
    else if ["false", "no", "off", "0"].contains word then .ok false
    else expected "bool" path v
  | _ => expected "bool" path v

def int : Reader Int := fun path v =>
  match v.toInteger with
  | .ok n => .ok n
  | .error _ => expected "int" path v

def real : Reader Binary64 := fun path v =>
  let x? := match v with
    | .float x => some x
    | .str s => Stencil.Reader.real? s
    | v => v.integer?.bind Binary64.ofInt?
  match x? with
  | some x => .ok x
  | none => expected "float" path v

/- Anything that can be written can be read as a text. -/
def text : Reader String := fun path v =>
  if v.isWritable then .ok v.shown else expected "str" path v

def callable : Reader Callable := fun path v =>
  match v with
  | .callable c => .ok c
  | _ => expected "callable" path v

def entries (read : Reader α) (path : List String) :
    List (Value × Value) → Except SettingsFault (List (String × α))
  | [] => .ok []
  | (k, v) :: rest => do
    let name ← text (path ++ ["<key>"]) k
    let x ← read (path ++ [name]) v
    let others ← entries read path rest
    return (name, x) :: others

/- Puts a value under a key: in the place of the key, or at the end. -/
def putText (pairs : List (String × α)) (key : String) (x : α) : List (String × α) :=
  if pairs.any (·.1 == key) then pairs.map (fun p => if p.1 == key then (key, x) else p)
  else pairs ++ [(key, x)]

/- Reads a mapping. Keys become texts; of two keys with one text the later counts. -/
def mapping (read : Reader α) : Reader (List (String × α)) := fun path v =>
  match v with
  | .map es => do
    let pairs ← entries read path es
    return pairs.foldl (fun ps p => putText ps p.1 p.2) []
  | _ => expected "dict" path v

def anything : Reader Value := fun _ v => .ok v

def unknownKeys (names : List String) (es : Entries) : List Value :=
  (es.map (·.1)).filter (fun k => !names.any (fun n => k.isText n))

/- Keys as a message lists them: in their order, if they have one, and written out, if they can be. -/
def listed (keys : List Value) : Except ValueFault (List Value) :=
  match Value.sortKeys keys with
  | .ok sorted => if Value.areWritable sorted then .ok sorted else .error .unwritable
  | .error fault => .error fault

def section? (title : String) (names : List String) : Reader Entries := fun path v =>
  match v with
  | .null => .ok []
  | .map es =>
    if (unknownKeys names es).isEmpty then .ok es
    else match listed (unknownKeys names es) with
      | .ok keys => .error (.at path (.unexpectedKeys keys))
      | .error fault => .error (.value fault)
  | v => .error (.at path (.expectedSection title v.typeWord))

def field (es : Entries) (path : List String) (name : String) (read : Reader α) (standard : α) :
    Except SettingsFault α :=
  match es.get? name with
  | some v => read (path ++ [name]) v
  | none => .ok standard

/- A section that its own check refuses is reported at its path. -/
def accept (path : List String) : Except SettingsProblem α → Except SettingsFault α
  | .ok x => .ok x
  | .error problem => .error (.at path problem)

end Stencil.Settings

namespace Stencil

open Settings

def Delimiters.read : Reader Delimiters := fun path v => do
  let standard := Delimiters.standard
  let es ← section? "LexerConfig" (standard.named.map (·.1) ++ ["ignore_case"]) path v
  let word (name standard : String) := field es path name text standard
  let d : Delimiters := {
    variableStart := ← word "variable_start" standard.variableStart
    variableEnd := ← word "variable_end" standard.variableEnd
    conditionalStart := ← word "conditional_start" standard.conditionalStart
    conditionalElse := ← word "conditional_else" standard.conditionalElse
    conditionalEnd := ← word "conditional_end" standard.conditionalEnd
    loopStart := ← word "loop_start" standard.loopStart
    loopEnd := ← word "loop_end" standard.loopEnd
    includeStart := ← word "include" standard.includeStart
    commentStart := ← word "comment_start" standard.commentStart
    commentEnd := ← word "comment_end" standard.commentEnd
    ignoreCase := ← field es path "ignore_case" bool false }
  accept path d.checked

def Limits.read : Reader Limits := fun path v => do
  let es ← section? "ParserConfig" ["max_depth", "allow_empty_variables"] path v
  let depth ← field es path "max_depth" int Limits.standard.depth
  let allowEmpty ← field es path "allow_empty_variables" bool Limits.standard.allowEmpty
  accept path (Limits.checked ⟨depth, allowEmpty⟩)

def RenderOptions.read : Reader RenderOptions := fun path v => do
  let standard := RenderOptions.standard
  let es ← section? "RenderOptions" RenderOptions.names path v
  let switch : Reader Switch := fun p v => return .ofBool (← bool p v)
  let strict ← field es path "strict" switch standard.strict
  let timeout ← field es path "timeout_ms" (fun p v => return .real (← real p v)) standard.timeout
  let escape ← field es path "auto_escape" switch standard.escape
  let defaults ← field es path "default_values" (mapping anything) []
  let handlers ← field es path "variable_handlers" (mapping callable) []
  accept path ((RenderOptions.checked ⟨strict, timeout, escape, .map (Entries.ofTexts defaults),
    .map (Entries.ofTexts (handlers.map (fun h => (h.1, .callable h.2))))⟩).mapError .refused)

def CacheSettings.read : Reader CacheSettings := fun path v => do
  let es ← section? "CacheConfig" ["enabled", "max_entries"] path v
  let enabled ← field es path "enabled" bool CacheSettings.standard.enabled
  let limit ← field es path "max_entries" int CacheSettings.standard.limit
  accept path (CacheSettings.checked ⟨enabled, limit⟩)

def IncludeSettings.read : Reader IncludeSettings := fun path v => do
  let es ← section? "IncludesConfig" ["dir", "suffix"] path v
  let dir ← field es path "dir" text IncludeSettings.standard.dir
  let suffix ← field es path "suffix" text IncludeSettings.standard.suffix
  return ⟨dir, suffix⟩

/- A filter call as a section; its arguments cannot be given. -/
def FilterCall.read : Reader FilterCall := fun path v => do
  let es ← section? "FilterCall" ["name", "args", "position"] path v
  let name ← match es.get? "name" with
    | some v => Settings.text (path ++ ["name"]) v
    | none => throw (.at (path ++ ["name"]) .missingField)
  if (es.get? "args").isSome then
    throw (.at (path ++ ["args"]) (.unsupported "typing.Tuple[typing.Any, ...]"))
  let position ← field es path "position" int 0
  return ⟨name, [], position⟩

def Settings.read (v : Value) : Except SettingsFault Settings := do
  let names := ["lexer", "parser", "render", "cache", "includes", "max_include_depth"]
  let es ← section? "EngineConfig" names [] v
  let delimiters ← field es [] "lexer" Delimiters.read .standard
  let limits ← field es [] "parser" Limits.read .standard
  let render ← field es [] "render" RenderOptions.read .standard
  let cache ← field es [] "cache" CacheSettings.read .standard
  let includes ← field es [] "includes" IncludeSettings.read .standard
  let includeDepth ← field es [] "max_include_depth" int Settings.standard.includeDepth
  return ⟨delimiters, limits, render, cache, includes, includeDepth⟩

end Stencil

import Stencil.Markup.Delimiters
import Stencil.Markup.Parser
import Stencil.Settings.Render
import Stencil.Value.Json

/-! All settings of an engine, and what a section of them has to satisfy. -/
namespace Stencil

/- Whether compiled templates are kept, and how many; zero means all of them. -/
structure CacheSettings where
  enabled : Bool
  limit : Int
  deriving DecidableEq, Repr

def CacheSettings.standard : CacheSettings := ⟨true, 0⟩

structure IncludeSettings where
  dir : String
  suffix : String
  deriving DecidableEq, Repr

def IncludeSettings.standard : IncludeSettings := ⟨"", ".tpl"⟩

structure Settings where
  delimiters : Delimiters
  limits : Limits
  render : RenderOptions
  cache : CacheSettings
  includes : IncludeSettings
  includeDepth : Int
  deriving Repr

def Settings.standard : Settings := ⟨.standard, .standard, .standard, .standard, .standard, 10⟩

inductive SettingsProblem where
  | expectedSection (title typeWord : String)
  | unexpectedKeys (keys : List Value)
  | expected (what typeWord : String)
  | missingField
  | unsupported (type : String)
  | emptyDelimiter (name : String)
  | depthNotPositive (depth : Int)
  | negativeLimit (limit : Int)
  | refused (fault : ValueFault)
  deriving Repr

def SettingsProblem.message : SettingsProblem → String
  | expectedSection title typeWord => "expected mapping for " ++ title ++ ", got " ++ typeWord
  | unexpectedKeys keys => "unexpected keys: " ++ (Value.list keys).literal
  | expected what typeWord => "expected " ++ what ++ ", got " ++ typeWord
  | missingField => "required field missing"
  | unsupported type => "unsupported config type " ++ type
  | emptyDelimiter name => "Lexer delimiter '" ++ name ++ "' cannot be empty"
  | depthNotPositive depth => "max_depth must be positive, got " ++ toString depth
  | negativeLimit limit => "max_entries cannot be negative, got " ++ toString limit
  | refused fault => fault.message

/- A problem and the keys that lead to it, or keys that have no order in which to list them. -/
inductive SettingsFault where
  | at (path : List String) (problem : SettingsProblem)
  | value (fault : ValueFault)
  deriving Repr

def SettingsFault.message : SettingsFault → String
  | .at [] problem => problem.message
  | .at path problem => String.intercalate "." path ++ ": " ++ problem.message
  | .value fault => fault.message

def Delimiters.checked (d : Delimiters) : Except SettingsProblem Delimiters :=
  match d.named.find? (·.2 == "") with
  | some (name, _) => .error (.emptyDelimiter name)
  | none => .ok d

/- A problem whose message shows an integer, if the integer can be written. -/
def SettingsProblem.showing (problem : Int → SettingsProblem) (n : Int) : SettingsProblem :=
  match Value.decimal n with
  | .ok _ => problem n
  | .error fault => .refused fault

def Limits.checked (l : Limits) : Except SettingsProblem Limits :=
  if l.depth < 1 then .error (.showing .depthNotPositive l.depth) else .ok l

def CacheSettings.checked (c : CacheSettings) : Except SettingsProblem CacheSettings :=
  if c.limit < 0 then .error (.showing .negativeLimit c.limit) else .ok c

end Stencil

import Stencil.Files
import Stencil.Settings.Reader
import Stencil.Yaml.Reader

/-! Settings from a file. -/
namespace Stencil

inductive FileFault where
  | notFound (path : String)
  | nameTooLong (path : String)
  | notYaml (path : String)
  | notMapping (name : String)
  | value (fault : ValueFault)
  | settings (fault : SettingsFault)
  deriving Repr

def FileFault.message : FileFault → String
  | notFound path => "File not found: " ++ path
  | nameTooLong path => "[Errno 36] File name too long: " ++ Text.quoted path
  | notYaml path => "Invalid YAML in " ++ path ++ ": ..."
  | notMapping name => name ++ " must be a mapping"
  | value fault => fault.message
  | settings fault => fault.message

namespace Files

def yaml (f : Files) (path : String) : Except FileFault Value :=
  match f.read path with
  | .error .missing => .error (.notFound (Place.pathText path))
  | .error .tooLong => .error (.nameTooLong (Place.pathText path))
  | .ok text => (Yaml.read text).mapError fun
    | .malformed => .notYaml (Place.pathText path)
    | .value fault => .value fault

end Files

namespace Settings

def fileName : String := "ptpl.yaml"

def find? (f : Files) (directory : String) : Option String :=
  let p := f.here.resolve directory ++ [fileName]
  if (f.textAt? p).isSome then some (f.shown p) else none

/- Documents that hold nothing, and so no settings either. -/
def isVoid : Value → Bool
  | .null | .bool false | .int 0 | .str "" | .list [] | .set [] => true
  | .float x => x.isZero
  | _ => false

def load (f : Files) : Option String → Except FileFault Settings
  | none => .ok .standard
  | some path => do
    match ← f.yaml path with
    | .map es => (Settings.read (.map es)).mapError .settings
    | v =>
      if isVoid v then (Settings.read (.map [])).mapError .settings
      else throw (.notMapping ((Place.names path).getLastD ""))

end Settings
end Stencil

import Stencil.Engine
import Stencil.Files
import Stencil.Text.Quoted

/-! Included templates from a directory. A name is a path from the directory, without the ending that
all file names have; names that lead out of the directory are refused. -/
namespace Stencil

structure IncludeDirectory where
  base : Place
  suffix : String
  deriving DecidableEq, Repr

namespace IncludeDirectory

inductive Fault where
  | nullCharacter
  | rootName
  | badFileName (name : String)
  deriving DecidableEq, Repr

def Fault.message : Fault → String
  | nullCharacter => "embedded null byte"
  | rootName => "PosixPath('/') has an empty name"
  | badFileName name => "Invalid name " ++ Text.quoted name

def isFileName (name : String) : Bool :=
  (Place.names name).length == 1 && !Place.isRooted name && name.toList.getLast? != some '/'

/- The place with the ending behind its last name, which may have it already. -/
def withSuffix (suffix : String) (p : Place) : Except Fault Place :=
  match p.getLast? with
  | none => if suffix == "" then .ok p else .error .rootName
  | some last =>
    if suffix.toList.isSuffixOf last.toList then .ok p
    else if isFileName (last ++ suffix) then .ok (p.dropLast ++ [last ++ suffix])
    else .error (.badFileName (last ++ suffix))

def place? (d : IncludeDirectory) (name : String) : Except Fault (Option Place) := do
  if name.toList.contains '\x00' then throw .nullCharacter
  let p ← withSuffix d.suffix (d.base.resolve name)
  return (d.base.below? p).map (fun _ => p)

def loader (d : IncludeDirectory) (files : Files) : Loader := fun name =>
  match d.place? name with
  | .ok p => .ok (p.bind files.textAt?)
  | .error fault => .error (.other fault.message)

end IncludeDirectory
end Stencil

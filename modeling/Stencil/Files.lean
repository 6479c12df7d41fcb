import Stencil.Text.Lines
import Stencil.Text.Split

/-! A tree of files, as far as a program looks at it. There are no links, so a path can be followed by
its names alone. -/
namespace Stencil

abbrev Place := List String

namespace Place

def names (path : String) : List String :=
  ((Text.pieces '/' path.toList).map String.ofList).filter (fun n => n != "" && n != ".")

def isRooted (path : String) : Bool := path.toList.head? == some '/'

/- Two dots lead up, any other name leads down. The root is above itself. -/
def step (p : Place) (name : String) : Place := if name = ".." then p.dropLast else p ++ [name]

def origin (p : Place) (path : String) : Place := if isRooted path then [] else p

def resolve (p : Place) (path : String) : Place := (names path).foldl step (p.origin path)

def below? (base p : Place) : Option (List String) :=
  if base.isPrefixOf p then some (p.drop base.length) else none

def wayText (names : List String) : String :=
  if names.isEmpty then "." else String.intercalate "/" names

def pathText (path : String) : String :=
  let root := match path.toList with
    | '/' :: '/' :: '/' :: _ => "/"
    | '/' :: '/' :: _ => "//"
    | '/' :: _ => "/"
    | _ => ""
  let way := String.intercalate "/" (names path)
  if root == "" && way == "" then "." else root ++ way

theorem resolve_rooted (p q : Place) {path : String} (h : isRooted path = true) :
    p.resolve path = q.resolve path := by
  simp [resolve, origin, h]

theorem below?_self (p : Place) : below? p p = some [] := by
  simp [below?]

theorem below?_append (p names : Place) : below? p (p ++ names) = some names := by
  simp [below?]

end Place

/- The files that are known, the directories that are known although none of the files is in them, and
the place from which relative paths are followed. -/
structure Files where
  here : Place
  texts : List (Place × String)
  directories : List Place
  deriving Repr

namespace Files

def ofPaths (here : Place) (files : List (String × String)) : Files :=
  ⟨here, files.map (fun f => (here.resolve f.1, f.2)), []⟩

def isDirectory (f : Files) (p : Place) : Bool :=
  p.isPrefixOf f.here || f.directories.contains p ||
    f.texts.any (fun t => p.isPrefixOf t.1 && p != t.1)

def textAt? (f : Files) (p : Place) : Option String :=
  (f.texts.lookup p).map (fun s => String.ofList (Text.unifyLines s.toList))

def follow? (f : Files) (path : String) : Option Place :=
  (Place.names path).foldlM (fun p name => if f.isDirectory p then some (p.step name) else none)
    (f.here.origin path)

def maxName : Nat := 255

def maxPath : Nat := 4095

inductive Absence where
  | missing
  | tooLong
  deriving DecidableEq, Repr

def meetsLongName (f : Files) (p : Place) : List String → Bool
  | [] => false
  | name :: rest =>
    f.isDirectory p && (maxName < name.utf8ByteSize || f.meetsLongName (p.step name) rest)

def read (f : Files) (path : String) : Except Absence String :=
  if maxPath < (Place.pathText path).utf8ByteSize ||
      f.meetsLongName (f.here.origin path) (Place.names path) then .error .tooLong
  else match (f.follow? path).bind f.textAt? with
    | some text => .ok text
    | none => .error .missing

/- The same files and one more. Its path was followed, so what it leads through are directories. -/
def add (f : Files) (path text : String) : Files :=
  let names := Place.names path
  let places := (List.range names.length).map
    (fun n => (names.take n).foldl Place.step (f.here.origin path))
  { f with texts := (f.here.resolve path, text) :: f.texts, directories := places ++ f.directories }

def shown (f : Files) (p : Place) : String :=
  match f.here.below? p with
  | some names => Place.wayText names
  | none => "/" ++ String.intercalate "/" p

end Files
end Stencil

import Stencil.Host
import Stencil.Text.Letter
import Stencil.Value.Literal

/-! The filters and functions that templates may name, in the order in which they were added. Every
actual change raises the revision. -/
namespace Stencil

abbrev Bindings := List (String × Callable)

namespace Bindings

/- Binds a name: in its old place, or at the end. -/
def insert (bs : Bindings) (name : String) (c : Callable) : Bindings :=
  if (bs.lookup name).isSome then bs.map (fun b => if b.1 == name then (name, c) else b)
  else bs ++ [(name, c)]

def erase (bs : Bindings) (name : String) : Bindings := bs.filter (·.1 != name)

end Bindings

inductive Role where
  | filter | function
  deriving DecidableEq, Repr

def Role.word : Role → String
  | filter => "filter"
  | function => "function"

def Role.title : Role → String
  | filter => "Filter"
  | function => "Function"

structure Registry where
  filters : Bindings
  functions : Bindings
  revision : Nat
  deriving Repr

namespace Registry

def empty : Registry := ⟨[], [], 0⟩

def builtins : Registry :=
  ⟨Builtin.filters.map (fun b => (b.name, .builtin b)),
    Builtin.functions.map (fun b => (b.name, .builtin b)), 0⟩

def bindings (r : Registry) : Role → Bindings
  | .filter => r.filters
  | .function => r.functions

def withBindings (r : Registry) (role : Role) (bs : Bindings) : Registry :=
  match role with
  | .filter => { r with filters := bs, revision := r.revision + 1 }
  | .function => { r with functions := bs, revision := r.revision + 1 }

def get? (r : Registry) (role : Role) (name : String) : Option Callable := (r.bindings role).lookup name

/- A name that callables may have. A line break at its end is overlooked. -/
def isName (name : String) : Bool := Text.isWordName (Text.chompLine name.toList)

def insert (r : Registry) (role : Role) (name callable : Value) : Except ValueFault Registry :=
  match name with
  | .str s =>
    if isName s then
      match callable with
      | .callable c => .ok (r.withBindings role ((r.bindings role).insert s c))
      | _ => .error (.notCallable role.title s)
    else .error (.badName role.word name.literal)
  | name => .error (.badName role.word name.literal)

def erase (r : Registry) (role : Role) (name : String) : Bool × Registry :=
  if (r.get? role name).isSome then (true, r.withBindings role ((r.bindings role).erase name))
  else (false, r)

theorem revision_erase_of_absent {r : Registry} {role : Role} {name : String}
    (h : r.get? role name = none) : r.erase role name = (false, r) := by
  simp [erase, h]

end Registry
end Stencil

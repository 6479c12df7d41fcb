import Stencil.Value.Fault
import Stencil.Value.Literal
import Stencil.Value.Path

/-! How a template is rendered: what a caller may choose. -/
namespace Stencil

structure Switch where
  given : Value
  deriving Repr

namespace Switch

def ofBool (b : Bool) : Switch := ⟨.bool b⟩

/- A switch is off for nothing, false, zero and what is empty; NaN turns it on. -/
def isOn (s : Switch) : Bool :=
  match s.given with
  | .float x => !x.isZero
  | .map es => !es.isEmpty
  | .set xs => !xs.isEmpty
  | v => v.isTruthy

theorem isOn_ofBool (b : Bool) : (ofBool b).isOn = b := rfl

end Switch

/- A limit in milliseconds: a whole number, a binary one, or a truth value, which counts as 0 or 1. -/
inductive Timeout where
  | whole (n : Int)
  | real (x : Binary64)
  | truth (b : Bool)
  deriving DecidableEq, Repr

namespace Timeout

def ofValue : Value → Except ValueFault Timeout
  | .int n => .ok (.whole n)
  | .float x => .ok (.real x)
  | .bool b => .ok (.truth b)
  | v => .error (.unordered v.fullTypeWord (Value.int 0).fullTypeWord)

def toValue : Timeout → Value
  | whole n => .int n
  | real x => .float x
  | truth b => .bool b

theorem ofValue_toValue (t : Timeout) : ofValue t.toValue = .ok t := by
  cases t <;> rfl

def isNegative : Timeout → Bool
  | whole n => n < 0
  | real x => x.lt .zero
  | truth _ => false

/- There is a limit. NaN and zero are none. -/
def isPositive : Timeout → Bool
  | whole n => 0 < n
  | real x => Binary64.zero.lt x
  | truth b => b

def real? : Timeout → Option Binary64
  | whole n => Binary64.ofInt? n
  | real x => some x
  | truth b => Binary64.ofInt? (if b then 1 else 0)

def seconds (t : Timeout) : Except ValueFault Binary64 :=
  match t.real? with
  | some x => .ok (x.divNat 1000)
  | none => .error .tooLarge

def brief (t : Timeout) : String := (t.real?.getD (.infinite t.isNegative)).brief

end Timeout

/- `strict` makes a missing variable an error. `defaults` serves paths that the variables do not have,
by the whole path as a key or along the path. `handlers` change the values of single paths. -/
structure RenderOptions where
  strict : Switch
  timeout : Timeout
  escape : Switch
  defaults : Value
  handlers : Value
  deriving Repr

namespace RenderOptions

def standard : RenderOptions :=
  ⟨.ofBool false, .real (.ofRatio false 5000 1), .ofBool false, .map [], .map []⟩

/- Options with a negative limit are refused. -/
def checked (o : RenderOptions) : Except ValueFault RenderOptions :=
  if o.timeout.isNegative then .error (.negativeTimeout o.timeout.toValue.shown) else .ok o

/- Options in place of others; what is absent stays. -/
structure Changes where
  strict : Option Switch
  timeout : Option Timeout
  escape : Option Switch
  defaults : Option Value
  handlers : Option Value
  deriving Repr

def Changes.empty : Changes := ⟨.none, .none, .none, .none, .none⟩

def Changes.isEmpty (c : Changes) : Bool :=
  c.strict.isNone && c.timeout.isNone && c.escape.isNone && c.defaults.isNone && c.handlers.isNone

def names : List String :=
  ["strict", "timeout_ms", "auto_escape", "default_values", "variable_handlers"]

def Changes.ofEntries (es : Entries) : Except ValueFault Changes :=
  match es.find? (fun e => !names.any (fun name => e.1.isText name)) with
  | some (key, _) => .error (.unknownField "RenderOptions" key.shown)
  | none => do
    let timeout ← (es.get? "timeout_ms").mapM Timeout.ofValue
    return ⟨(es.get? "strict").map Switch.mk, timeout, (es.get? "auto_escape").map Switch.mk,
      es.get? "default_values", es.get? "variable_handlers"⟩

def changed (o : RenderOptions) (c : Changes) : Except ValueFault RenderOptions :=
  if c.isEmpty then .ok o
  else checked ⟨c.strict.getD o.strict, c.timeout.getD o.timeout, c.escape.getD o.escape,
    c.defaults.getD o.defaults, c.handlers.getD o.handlers⟩

theorem changed_empty (o : RenderOptions) : o.changed .empty = .ok o := rfl

/- The options that are given by name in place of others. Null stands for no change. -/
def overridden (o : RenderOptions) (es : Entries) : Except ValueFault RenderOptions := do
  o.changed (← Changes.ofEntries (es.filter (fun e => !(e.2 matches .null))))

end RenderOptions
end Stencil

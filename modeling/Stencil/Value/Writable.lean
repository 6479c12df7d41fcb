import Stencil.Value.Json

/-! Values that can be written out: no integer in them has too many digits. -/
namespace Stencil.Value

mutual

def isWritable (v : Value) : Bool :=
  match v with
  | .int n => n.natAbs < leastUnwritable
  | .list xs | .tuple xs | .set xs => areWritable xs
  | .map es => entriesWritable es
  | _ => true
termination_by structural v

def areWritable (xs : List Value) : Bool :=
  match xs with
  | [] => true
  | x :: xs => isWritable x && areWritable xs
termination_by structural xs

def entriesWritable (es : List (Value × Value)) : Bool :=
  match es with
  | [] => true
  | (k, v) :: es => isWritable k && isWritable v && entriesWritable es
termination_by structural es

end

end Stencil.Value

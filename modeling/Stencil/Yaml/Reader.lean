import Stencil.Value.Equal
import Stencil.Yaml.Node

/-! Values from YAML documents. If several parts of a document stand for no value, the fault of the
outermost counts, and of equally deep ones the first. -/
namespace Stencil.Yaml

/- A value, and the first fault at each depth, from this one downwards. With a fault the value means
nothing. -/
structure Built where
  value : Value
  faults : List (Option Fault)
  deriving Repr

namespace Built

def ofExcept : Except Fault Value → Built
  | .ok v => ⟨v, []⟩
  | .error f => ⟨.null, [some f]⟩

/- Puts two accounts of faults together. What stands first counts at equal depths. -/
def both : List (Option Fault) → List (Option Fault) → List (Option Fault)
  | a :: as, b :: bs => a.or b :: both as bs
  | as, [] => as
  | [], bs => bs

/- The faults of what a collection holds. They are one step deeper, except in a key. -/
def inside (inKey : Bool) (faults : List (Option Fault)) : List (Option Fault) :=
  if inKey then faults else none :: faults

def result (b : Built) : Except Fault Value :=
  match b.faults.findSome? id with
  | some f => .error f
  | none => .ok b.value

end Built

structure Pair where
  key : Built
  value : Built

/- The key that a value can be: a list becomes a tuple. -/
def keyOf : Value → Except Fault Value
  | .list xs => .ok (.tuple xs)
  | .map _ | .set _ => .error .malformed
  | v => .ok v

structure Table where
  entries : Entries
  faults : List (Option Fault)

/- Puts an entry behind the others. A key stands once, if `single` is set. -/
def Table.put (single : Bool) (t : Table) (p : Pair) : Table :=
  let key := Built.ofExcept (keyOf p.key.value)
  let refused : Option Fault :=
    match key.value.changeable? with
    | some word => some (.value (.unhashable word))
    | none => if single && t.entries.any (fun e => e.1.equal key.value) then some .malformed else none
  ⟨t.entries.put key.value p.value.value,
    [p.key.faults, key.faults, p.value.faults, [refused]].foldl Built.both t.faults⟩

structure Pairs where
  merged : List Pair
  own : List Pair

def Pairs.all (ps : Pairs) : List Pair := ps.merged ++ ps.own

/- Its own entries come behind those that are taken over, and in place of them. Only a mapping that
takes over nothing has to have each key once. -/
def Pairs.table (ps : Pairs) : Table := ps.all.foldl (Table.put ps.merged.isEmpty) ⟨[], []⟩

mutual

/- The value of a node. In a key all faults are equally deep. -/
def build (inKey : Bool) (n : Node) : Built :=
  match n with
  | .scalar tag text =>
    if tag matches .seq | .map | .set then ⟨.null, Built.inside inKey [some .malformed]⟩
    else .ofExcept (tag.scalar text)
  | .sequence tag items =>
    match tag with
    | .seq =>
      let (values, faults) := buildItems inKey items
      ⟨.list values, Built.inside inKey faults⟩
    | .map | .set => ⟨.null, Built.inside inKey [some .malformed]⟩
    | _ => ⟨.null, [some .malformed]⟩
  | .mapping tag entries =>
    match tag with
    | .map | .set =>
      match pairs inKey ⟨[], []⟩ entries with
      | none => ⟨.null, Built.inside inKey [some .malformed]⟩
      | some ps =>
        let t := ps.table
        ⟨if tag = .set then .set (t.entries.map (·.1)) else .map t.entries,
          Built.inside inKey t.faults⟩
    | .seq => ⟨.null, Built.inside inKey [some .malformed]⟩
    | _ => ⟨.null, [some .malformed]⟩
termination_by structural n

def buildItems (inKey : Bool) (items : List Node) : List Value × List (Option Fault) :=
  match items with
  | [] => ([], [])
  | n :: rest =>
    let b := build inKey n
    let (values, faults) := buildItems inKey rest
    (b.value :: values, Built.both b.faults faults)
termination_by structural items

/- The entries of a mapping, put behind those that are given. -/
def pairs (inKey : Bool) (done : Pairs) (entries : List (Node × Node)) : Option Pairs :=
  match entries with
  | [] => some done
  | (key, value) :: rest =>
    if key.isMerge then
      if done.merged.isEmpty then do
        pairs inKey { done with merged := ← taken inKey value } rest
      else none
    else
      let key := match key with
        | .scalar .equals text => ⟨.str text, []⟩
        | key => build true key
      pairs inKey { done with own := done.own ++ [⟨key, build inKey value⟩] } rest
termination_by structural entries

/- What a mapping takes over from another one, or from a list of others, in which the first one comes
last. -/
def taken (inKey : Bool) (n : Node) : Option (List Pair) :=
  match n with
  | .mapping _ entries => (pairs inKey ⟨[], []⟩ entries).map Pairs.all
  | .sequence _ items => takenFrom inKey items
  | .scalar .. => none
termination_by structural n

def takenFrom (inKey : Bool) (items : List Node) : Option (List Pair) :=
  match items with
  | [] => some []
  | n :: rest =>
    match n with
    | .mapping .. => do
      let first ← taken inKey n
      return (← takenFrom inKey rest) ++ first
    | _ => none
termination_by structural items

end

def read (text : String) : Except Fault Value := do
  match ← Node.ofTokens (← scan text) with
  | none => return .null
  | some n => (build false n).result

end Stencil.Yaml

import Stencil.Yaml.Schema
import Stencil.Yaml.Token

/-! Documents as trees: tokens grouped to scalars, sequences and mappings, each with its tag, and
references replaced by what they refer to. -/
namespace Stencil.Yaml

inductive Node where
  | scalar (tag : Tag) (text : String)
  | sequence (tag : Tag) (items : List Node)
  | mapping (tag : Tag) (entries : List (Node × Node))
  deriving Repr

namespace Node

def empty : Node := scalar .null ""

def isMerge : Node → Bool
  | scalar .merge _ => true
  | _ => false

structure Reading where
  tokens : List Token
  anchors : List (String × Node)
  handles : List (String × String)

abbrev Parser := StateT Reading Option

namespace Parser

def next? : Parser (Option Token) := return (← get).tokens.head?

def skip : Parser Unit := modify fun r => { r with tokens := r.tokens.drop 1 }

def isNext (ts : List Token) : Parser Bool := return (← next?).any ts.contains

def accept (t : Token) : Parser Bool := do
  if (← next?) = some t then
    skip
    return true
  else return false

def expect (t : Token) : Parser Unit := do
  if !(← accept t) then failure

/- The name that a tag stands for; an exclamation mark alone leaves the tag to the schema. -/
def tagName (handle : Option String) (suffix : String) : Parser String :=
  match handle with
  | none => return suffix
  | some h => do
    match (← get).handles.lookup h with
    | some stem => return stem ++ suffix
    | none => failure

/- An anchor and a tag in front of a node, in any order. -/
def properties : Parser (Option String × Option String) := do
  let anchor? : Parser (Option String) := do
    match ← next? with
    | some (.anchor name) => skip; return some name
    | _ => return none
  let tag? : Parser (Option String) := do
    match ← next? with
    | some (.tag handle suffix) => skip; return some (← tagName handle suffix)
    | _ => return none
  match ← anchor? with
  | some name => return (some name, ← tag?)
  | none =>
    match ← tag? with
    | some tag => return (← anchor?, some tag)
    | none => return (none, none)

def collectionTag (name : Option String) (standard : Tag) : Tag :=
  match name with
  | none | some "!" => standard
  | some name => .ofName name

/- A scalar with the tag that is written, or else with that of the schema: a text if it is not plain. -/
def tagged (name : Option String) (text : String) (plain : Bool) : Node :=
  match name with
  | some "!" => scalar (.ofPlain text) text
  | some name => scalar (.ofName name) text
  | none => scalar (if plain then .ofPlain text else .str) text

def orEmpty (ends : List Token) (p : Parser Node) : Parser Node := do
  if ← isNext ends then return empty else p

mutual

/- A node. Blocks are read only if `block` is set, and items in the column of the key before them only
if `level` is set. -/
def node (block level : Bool) : Nat → Parser Node
  | 0 => failure
  | fuel + 1 => do
    match ← next? with
    | some (.reference name) =>
      skip
      match (← get).anchors.lookup name with
      | some n => return n
      | none => failure
    | _ =>
      let (anchor, tag) ← properties
      let n ← content block level anchor.isSome tag fuel
      match anchor with
      | some name => modify fun r => { r with anchors := (name, n) :: r.anchors }
      | none => pure ()
      return n

def content (block level named : Bool) (tag : Option String) : Nat → Parser Node
  | 0 => failure
  | fuel + 1 => do
    let list := sequence (collectionTag tag .seq)
    let map := mapping (collectionTag tag .map)
    match ← next?, block, level with
    | some .dash, _, true => return list (← levelItems fuel)
    | some (.scalar text plain), _, _ => skip; return tagged tag text plain
    | some .openList, _, _ => skip; return list (← flowItems true fuel)
    | some .openMap, _, _ => skip; return map (← flowEntries true fuel)
    | some .blockList, true, _ => skip; return list (← blockItems fuel)
    | some .blockMap, true, _ => skip; return map (← blockEntries fuel)
    | _, _, _ => if named || tag.isSome then return tagged tag "" true else failure

def blockItems : Nat → Parser (List Node)
  | 0 => failure
  | fuel + 1 => do
    if ← accept .dash then
      let item ← orEmpty [.dash, .blockEnd] (node true false fuel)
      return item :: (← blockItems fuel)
    else
      expect .blockEnd
      return []

/- Items in the column of the key before them. They have no end of their own. -/
def levelItems : Nat → Parser (List Node)
  | 0 => failure
  | fuel + 1 => do
    if ← accept .dash then
      let item ← orEmpty [.dash, .key, .value, .blockEnd] (node true false fuel)
      return item :: (← levelItems fuel)
    else return []

/- The entries of a block, and its end. Key and value may both be left out. -/
def blockEntries : Nat → Parser (List (Node × Node))
  | 0 => failure
  | fuel + 1 => do
    let ends := [Token.key, .value, .blockEnd]
    let hasKey ← accept .key
    if hasKey || (← isNext [.value]) then
      let key ← if hasKey then orEmpty ends (node true true fuel) else pure empty
      let value ← if ← accept .value then orEmpty ends (node true true fuel) else pure empty
      return (key, value) :: (← blockEntries fuel)
    else
      expect .blockEnd
      return []

/- The items of a list between brackets, and its end. Behind the last one may stand a comma. A key makes
an item that is a mapping of one entry. -/
def flowItems (first : Bool) : Nat → Parser (List Node)
  | 0 => failure
  | fuel + 1 => do
    if ← accept .closeList then return []
    if !first then expect .comma
    if ← accept .closeList then return []
    let item ← if ← accept .key then do
        let key ← orEmpty [.value, .comma, .closeList] (node false false fuel)
        let value ← if ← accept .value then orEmpty [.comma, .closeList] (node false false fuel)
          else pure empty
        pure (mapping .map [(key, value)])
      else node false false fuel
    return item :: (← flowItems false fuel)

/- The entries of a mapping between brackets, and its end. A node that is no key to anything stands for
an entry without a value. -/
def flowEntries (first : Bool) : Nat → Parser (List (Node × Node))
  | 0 => failure
  | fuel + 1 => do
    if ← accept .closeMap then return []
    if !first then expect .comma
    if ← accept .closeMap then return []
    let hasKey ← accept .key
    let entry ← if hasKey || (← isNext [.value]) then do
        let key ← orEmpty [.value, .comma, .closeMap] (node false false fuel)
        let value ← if ← accept .value then orEmpty [.comma, .closeMap] (node false false fuel)
          else pure empty
        pure (key, value)
      else do
        let key ← node false false fuel
        pure (key, empty)
    return entry :: (← flowEntries false fuel)

end

/- The directives of a document. The version is told once, and has the first number one; every handle
stands for one thing. -/
def directives (told : Bool) : Nat → Parser Unit
  | 0 => failure
  | fuel + 1 => do
    match ← next? with
    | some (.directive d) =>
      skip
      match d with
      | .version major =>
        if told || major != 1 then failure
        directives true fuel
      | .handle name stem =>
        let r ← get
        if (r.handles.lookup name).isSome then failure
        set { r with handles := (name, stem) :: r.handles }
        directives told fuel
      | .other => directives told fuel
    | _ => return

/- The handles that every document has unless it uses them for something else. -/
def standardHandles : List (String × String) := [("!", "!"), ("!!", Tag.stem)]

def document (fuel : Nat) : Parser (Option Node) := do
  if (← next?).isNone then return none
  let announced := (← next?) matches some (.directive _)
  directives false fuel
  modify fun r => { r with handles := r.handles ++ standardHandles }
  let n ← if ← accept .documentStart then
      if (← next?).isNone then pure empty
      else orEmpty [.documentStart, .documentEnd] (node true false fuel)
    else if announced then failure
    else node true false fuel
  let _ ← accept .documentEnd
  if (← next?).isSome then failure
  return some n

end Parser

def ofTokens (ts : List Token) : Except Fault (Option Node) :=
  match (Parser.document (4 * ts.length + 4)).run ⟨ts, [], []⟩ with
  | some (n, _) => .ok n
  | none => .error .malformed

end Node
end Stencil.Yaml

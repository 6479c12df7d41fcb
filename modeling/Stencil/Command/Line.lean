import Stencil.Number.Reader
import Stencil.Text.Letter
import Stencil.Value

/-! The command line: which command is to run, with which options. Options may stand before and behind
the template, long ones may be shortened as long as they stay unambiguous, and behind two hyphens
nothing is an option. -/
namespace Stencil.Command

inductive Verb where
  | render | report | validate | inspect
  deriving DecidableEq, Repr

def Verb.word : Verb → String
  | render => "render"
  | report => "report"
  | validate => "validate"
  | inspect => "inspect"

def Verb.ofWord? (s : String) : Option Verb :=
  [Verb.render, .report, .validate, .inspect].find? (·.word == s)

inductive Flag where
  | help | version | config | vars | set | strict | timeout | escape | encoder
  deriving DecidableEq, Repr

namespace Flag

def takesValue : Flag → Bool
  | help | version | strict | escape => false
  | config | vars | set | timeout | encoder => true

def long : Flag → String
  | help => "--help"
  | version => "--version"
  | config => "--config"
  | vars => "--vars"
  | set => "--set"
  | strict => "--strict"
  | timeout => "--timeout"
  | escape => "--auto-escape"
  | encoder => "--encoder"

def letter? : Flag → Option Char
  | help => some 'h'
  | version => some 'v'
  | _ => none

end Flag

def globalFlags : List Flag := [.help, .version]

def Verb.flags : Verb → List Flag
  | render => [.help, .config, .vars, .set, .strict, .timeout, .escape]
  | report => [.help, .config, .vars, .set, .strict, .timeout, .escape, .encoder]
  | validate | inspect => [.help, .config]

/- What is written in one word with an option: a value behind an equals sign, or letters, before which
an equals sign may stand too. -/
inductive Attached where
  | nothing
  | value (s : String)
  | letters (s : List Char)
  deriving DecidableEq, Repr

inductive Word where
  | plain (s : String)
  | divider
  | flag (f : Flag) (attached : Attached)
  | unknown
  deriving DecidableEq, Repr

namespace Word

open Text

/- A negative number is no option. -/
def isNegativeNumber (s : List Char) : Bool :=
  match chompLine s with
  | '-' :: rest =>
    match cut '.' rest with
    | (whole, none) => !whole.isEmpty && whole.all isDecimal
    | (whole, some part) => whole.all isDecimal && !part.isEmpty && part.all isDecimal
  | _ => false

def meanings (flags : List Flag) (s : List Char) : List (Flag × Attached) :=
  let (name, value) := cut '=' s
  let attached : Attached := match value with
    | some v => .value (String.ofList v)
    | none => .nothing
  let isLetter (f : Flag) := f.letter?.any (fun c => ['-', c] == name)
  match flags.find? (fun f => f.long.toList == name || isLetter f) with
  | some f => [(f, match value with
      | some (c :: rest) => if isLetter f then .letters (c :: rest) else attached
      | _ => attached)]
  | none =>
    match s with
    | '-' :: '-' :: _ =>
      (flags.filter (fun f => name.isPrefixOf f.long.toList)).map (fun f => (f, attached))
    | '-' :: c :: rest =>
      (flags.filter (fun f => f.letter? == some c)).map (fun f => (f, .letters rest))
    | _ => []

def read? (flags : List Flag) (s : String) : Option Word :=
  match s.toList with
  | '-' :: c :: rest =>
    match meanings flags ('-' :: c :: rest) with
    | [] => some (if isNegativeNumber s.toList || s.toList.contains ' ' then .plain s else .unknown)
    | [(f, attached)] => some (.flag f attached)
    | _ => none
  | _ => some (.plain s)

/- All words. Behind the divider every word is plain. -/
def readAll? (flags : List Flag) : List String → Option (List Word)
  | [] => some []
  | s :: rest =>
    if s == "--" then some (.divider :: rest.map .plain)
    else do
      let w ← read? flags s
      let ws ← readAll? flags rest
      some (w :: ws)

end Word

structure Request where
  verb : Verb
  template : String
  config : Option String
  vars : Option String
  assignments : List String
  strict : Bool
  timeout : Option Value
  escape : Bool
  encoder : String
  deriving Repr

inductive Reading where
  | request (r : Request)
  | help
  | version
  | rejected
  deriving Repr

structure Draft where
  request : Request
  hasTemplate : Bool
  hasExtras : Bool
  deriving Repr

namespace Draft

def start (verb : Verb) : Draft :=
  ⟨⟨verb, "", none, none, [], false, none, false, "cl100k_base"⟩, false, false⟩

def setTemplate (d : Draft) (s : String) : Draft :=
  { d with request := { d.request with template := s }, hasTemplate := true }

def switch (d : Draft) (f : Flag) : Draft :=
  match f with
  | .strict => { d with request := { d.request with strict := true } }
  | .escape => { d with request := { d.request with escape := true } }
  | _ => d

def give? (d : Draft) (f : Flag) (v : String) : Option Draft :=
  let r := d.request
  let change (r : Request) : Option Draft := some { d with request := r }
  match f with
  | .config => change { r with config := some v }
  | .vars => change { r with vars := some v }
  | .set => change { r with assignments := r.assignments ++ [v] }
  | .timeout => (Reader.real? v).bind (fun x => change { r with timeout := some (.float x) })
  | .encoder => change { r with encoder := v }
  | _ => none

/- Takes an option behind whose equals sign stands a divider. A divider is never a value, so what is
given is the empty list: no file, an assignment of that text, and a limit that is no number. -/
def giveEmpty (d : Draft) (f : Flag) : Draft :=
  let r := d.request
  match f with
  | .config => { d with request := { r with config := none } }
  | .vars => { d with request := { r with vars := none } }
  | .set => { d with request := { r with assignments := r.assignments ++ ["[]"] } }
  | .timeout => { d with request := { r with timeout := some (.list []) } }
  | _ => d

def extra (d : Draft) : Draft := { d with hasExtras := true }

end Draft

def isBare (flags : List Flag) : Attached → Bool
  | .nothing => true
  | .letters s => s.all (fun c => flags.any (fun f => f.letter? == some c))
  | .value _ => false

def readCommand (flags : List Flag) (d : Draft) : List Word → Reading
  | [] => if d.hasTemplate && !d.hasExtras then .request d.request else .rejected
  | .unknown :: rest => readCommand flags d.extra rest
  | .plain s :: rest =>
    if d.hasTemplate then readCommand flags d.extra rest
    else match rest with
      | .divider :: rest => readCommand flags (d.setTemplate s) rest
      | rest => readCommand flags (d.setTemplate s) rest
  | .divider :: rest =>
    if d.hasTemplate then readCommand flags d.extra rest
    else match rest with
      | .plain s :: rest => readCommand flags (d.setTemplate s) rest
      | _ => .rejected
  | .flag f attached :: rest =>
    if f.takesValue then
      match attached, rest with
      | .value "--", rest => readCommand flags (d.giveEmpty f) rest
      | .value v, rest => (match d.give? f v with
        | some d => readCommand flags d rest
        | none => .rejected)
      | .nothing, .plain v :: rest => (match d.give? f v with
        | some d => readCommand flags d rest
        | none => .rejected)
      | _, _ => .rejected
    else if !isBare flags attached then .rejected
    else if f = .help then .help
    else if f = .version then .version
    else readCommand flags (d.switch f) rest

/- Reads the words before a command and then the command. An unknown option among them is found wrong
only at the end. -/
def readGlobal (hasExtras : Bool) : List (Word × String) → Reading
  | [] => .rejected
  | (.unknown, _) :: rest => readGlobal true rest
  | (.divider, _) :: _ => .rejected
  | (.flag f attached, _) :: _ =>
    if !isBare globalFlags attached then .rejected
    else if f = .help then .help
    else .version
  | (.plain s, _) :: rest =>
    match Verb.ofWord? s with
    | none => .rejected
    | some verb =>
      match Word.readAll? verb.flags (rest.map (·.2)) with
      | none => .rejected
      | some words =>
        match readCommand verb.flags (.start verb) words with
        | .request r => if hasExtras then .rejected else .request r
        | other => other

def read (args : List String) : Reading :=
  match Word.readAll? globalFlags args with
  | none => .rejected
  | some words => readGlobal false (words.zip args)

end Stencil.Command

import Stencil.Engine
import Stencil.Markup.Statistics
import Stencil.Tally

/-! What the commands print: rendered text, or a report as one line of JSON. -/
namespace Stencil.Command

structure RunReport where
  processed : Option Processed
  encoder : String
  result : RenderResult
  deriving Repr

structure Inspection where
  template : Template
  tokens : List Token
  deriving Repr

inductive Printout where
  | text (s : String)
  | run (r : RunReport)
  | checked (r : Report)
  | inspected (i : Inspection)
  deriving Repr

def formatVersion : Int := 1

def versionText : String := "ptpl " ++ version ++ "\n"

def record (fields : List (String × Value)) : Value := .map (Entries.ofTexts fields)

def textsValue (xs : List String) : Value := .list (xs.map .str)

def textOrNull (s : Option String) : Value := (s.map Value.str).getD .null

def countOrNull (n : Option Nat) : Value := (n.map (fun n => Value.int n)).getD .null

def countsValue (counts : List (String × Nat)) : Value :=
  record (counts.map (fun c => (c.1, .int c.2)))

/- The number of words, which stands for the number of tokens in every encoding. -/
def wordCount (s : String) : Nat := (Text.words s.toList).length

/- The steps before the render are not timed. -/
def noTime : Value := .float .zero

def processedValue (p : Processed) : Value :=
  record [("lexTimeMs", noTime), ("parseTimeMs", noTime), ("compileTimeMs", noTime),
    ("totalTimeMs", noTime), ("tokenCount", .int p.tokens), ("nodeCount", .int p.nodes),
    ("dependencyCount", .int p.template.dependencies.length), ("cached", .bool p.cached)]

def resultValue (r : RenderResult) : Value :=
  record [("output", .str r.output), ("renderTimeMs", .float r.time),
    ("usedVariables", textsValue r.used), ("missingVariables", textsValue r.missing),
    ("error", textOrNull (r.failure.map (·.text))),
    ("errorCode", textOrNull (r.failure.map (·.code.text)))]

def RunReport.value (r : RunReport) : Value :=
  record [("formatVersion", .int formatVersion), ("toolVersion", .str version),
    ("templateId", textOrNull (r.processed.map (·.template.id))),
    ("dependencies", textsValue ((r.processed.map (·.template.dependencies)).getD [])),
    ("encoder", .str r.encoder), ("promptTokens", .int (wordCount r.result.output)),
    ("render", resultValue r.result),
    ("process", (r.processed.map processedValue).getD .null)]

def checkedValue (r : Report) : Value :=
  record [("valid", .bool r.valid), ("errors", textsValue r.errors),
    ("warnings", textsValue r.warnings), ("tokenCount", countOrNull (r.tokens.map (·.length))),
    ("nodeCount", countOrNull (r.tree.map (·.statistics.total)))]

def Inspection.value (i : Inspection) : Value :=
  let tree := i.template.tree
  let met := tree.statistics
  record [("formatVersion", .int formatVersion), ("templateId", .str i.template.id),
    ("tokens", record [("totalTokens", .int i.tokens.length),
      ("tokenCounts", countsValue (Token.counts i.tokens))]),
    ("ast", record [("totalNodes", .int met.total), ("nodeCounts", countsValue met.counts),
      ("maxDepth", .int met.depth)]),
    ("dependencies", textsValue i.template.dependencies), ("tree", tree.toValue)]

namespace Printout

def toText : Printout → Except ValueFault String
  | text s => .ok s
  | run r => r.value.json .spaced
  | checked r => (checkedValue r).json .spaced
  | inspected i => i.value.json .spaced

def untimed : Printout → Printout
  | run r => run { r with result := { r.result with time := .zero } }
  | p => p

def code : Printout → Nat
  | checked r => if r.valid then 0 else 1
  | _ => 0

end Printout
end Stencil.Command

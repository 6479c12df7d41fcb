import Mathlib
import Stencil.Proofs.Searching
import Stencil.Proofs.Steps

/-! Reports and compilation. A report without errors tells whether a text can be compiled, and a text that can be
compiled has one, up to a level of depth. -/
namespace Stencil

namespace Report

def isUnknown (warning : String) : Bool :=
  "Unknown filter: ".toList.isPrefixOf warning.toList || "Unknown function: ".toList.isPrefixOf warning.toList

/- What a report warns of because the registry does not have it. -/
def unknown (r : Report) : List String := r.warnings.filter isUnknown

theorem roleUnknown (role : Role) (rest : String) :
    isUnknown ("Unknown " ++ role.word ++ ": " ++ rest) = true := by
  cases role with
  | filter =>
    have words : "Unknown " ++ Role.filter.word ++ ": " = "Unknown filter: " := by decide
    simp [isUnknown, words]
  | function =>
    have words : "Unknown " ++ Role.function.word ++ ": " = "Unknown function: " := by decide
    simp [isUnknown, words]

theorem namesUnknown (env : Registry) (role : Role) (place : String) (names : List String) :
    (Procedure.Issues.unknown env role place names).filter isUnknown =
      Procedure.Issues.unknown env role place names := by
  rw [List.filter_eq_self, Procedure.Issues.unknown]
  intro warning member
  obtain ⟨name, -, rfl⟩ := List.mem_map.mp member
  rw [String.append_assoc, String.append_assoc]
  exact roleUnknown role _

theorem warnedUnknown {env : Registry} {n : Node} (readable : n.Readable) :
    (Procedure.warned env n).filter isUnknown = Procedure.warned env n := by
  cases readable with
  | text | inclusion => rfl
  | output parsed =>
    simp only [Procedure.warned, Procedure.issuesOutput parsed, List.filter_append, namesUnknown]
  | conditional parsed => simp only [Procedure.warned, Procedure.issuesConditional parsed, namesUnknown]
  | loop parsed => simp only [Procedure.warned, Procedure.issuesLoop parsed, namesUnknown]

theorem includesKnown (n : Node) : (Engine.includeWarnings n).filter isUnknown = [] := by
  rw [List.filter_eq_nil_iff, Engine.includeWarnings]
  intro warning member
  obtain ⟨m, -, said⟩ := List.mem_filterMap.mp member
  split at said
  · cases said
    simp [isUnknown]
  · cases said

end Report

namespace Engine

open Node Procedure

variable {e : Engine} {text : String} {tokens : List Token} {nodes : List Node}

/- What the report of a text says that was read into nodes that can be read. -/
theorem validates (scanned : Token.scan e.settings.delimiters text = .ok tokens)
    (read : ofTokens e.settings.limits tokens = .ok (.root .start nodes))
    (readable : ∀ m ∈ allOf nodes, m.Readable) :
    ∃ r, e.validate text = .ok r ∧ r.errors = errors e.settings.limits.depth (.root .start nodes) ∧
      r.unknown = (allOf nodes).flatMap (warned e.registry) ∧ r.tree = some (.root .start nodes) := by
  have made : e.validate text = .ok ⟨errors e.settings.limits.depth (.root .start nodes),
      (allOf nodes).flatMap (warned e.registry) ++
        (if e.loader.isNone then includeWarnings (.root .start nodes) else []),
      some tokens, some (.root .start nodes)⟩ := by
    simp only [validate, scanned, read, treeIssues readable, Token.scanBalanced scanned read, bind, Except.bind,
      pure, Except.pure, List.nil_append, List.append_nil]
  have warns : ((allOf nodes).flatMap (warned e.registry)).filter Report.isUnknown =
      (allOf nodes).flatMap (warned e.registry) := by
    rw [List.filter_flatMap]
    exact List.flatMap_congr fun m member => Report.warnedUnknown (readable m member)
  have others : (if e.loader.isNone then includeWarnings (.root .start nodes) else []).filter
      Report.isUnknown = [] := by
    split
    · exact Report.includesKnown _
    · rfl
  refine ⟨_, made, rfl, ?_, rfl⟩
  simp only [Report.unknown, List.filter_append, warns, others, List.append_nil]

theorem buildAnswers (scanned : Token.scan e.settings.delimiters text = .ok tokens)
    (read : ofTokens e.settings.limits tokens = .ok (.root .start nodes))
    (readable : ∀ m ∈ allOf nodes, m.Readable) :
    match (allOf nodes).flatMap (warned e.registry) with
    | [] => ∃ p, e.build text = .ok p
    | warning :: _ => ∃ fault, e.build text = .error fault ∧ fault.code = .render ∧ fault.text = warning := by
  have answers : Answers ((allOf nodes).flatMap (warned e.registry)) (compile e.registry (.root .start nodes)) :=
    (compileAllAnswers readable).map
  split
  · rename_i none
    rw [none] at answers
    obtain ⟨c, compiled⟩ := answers
    exact ⟨_, buildOk.mpr ⟨tokens, _, c, scanned, read, compiled, rfl⟩⟩
  · rename_i warning others some
    rw [some] at answers
    obtain ⟨fault, failed, code, said⟩ := answers
    refine ⟨fault, ?_, code, said⟩
    simp only [build, scanned, read, failed, bind, Except.bind, Except.mapError, Failure.toError]

/- A text with a report that has no errors was read, and so were the expressions in it. -/
theorem validRead (refused : e.settings.limits.allowEmpty = false) {r : Report}
    (ok : e.validate text = .ok r) (valid : r.valid = true) :
    ∃ tokens nodes, Token.scan e.settings.delimiters text = .ok tokens ∧
      ofTokens e.settings.limits tokens = .ok (.root .start nodes) ∧ ∀ m ∈ allOf nodes, m.Readable := by
  rw [validate] at ok
  split at ok
  · cases ok
    cases valid
  · rename_i tokens scanned
    dsimp only at ok
    split at ok
    · cases ok
      simp [Report.valid] at valid
    · rename_i tree read
      obtain ⟨nodes, rfl, made⟩ := treeRead read
      obtain ⟨issues, found, ok⟩ := boundOk ok
      cases ok
      simp only [Report.valid, List.isEmpty_iff, List.append_eq_nil_iff, errors] at valid
      obtain ⟨⟨-, tree⟩, faultless⟩ := valid
      have conditioned := faultlessConditioned tree
      have proper := readProper made properNone (by simp)
      refine ⟨tokens, nodes, scanned, read, treeReadable (fun m member => ?_) refused found faultless⟩
      exact ⟨proper m member, conditioned m (by simp [all, member])⟩

end Engine

/- A report without errors tells whether the text can be compiled: it can unless the report warns of a name
that the registry does not have, and then the first of these is what the compiler fails at. -/
theorem validationSound {e : Engine} {text : String} {r : Report} (cache : Cache Template)
    (refused : e.settings.limits.allowEmpty = false) (ok : e.validate text = .ok r) (valid : r.valid = true) :
    match r.unknown with
    | [] => ∃ p, e.process text false cache = (.ok p, cache)
    | warning :: _ => ∃ fault, e.process text false cache = (.error fault, cache) ∧
        fault.code = .render ∧ fault.text = warning := by
  obtain ⟨tokens, nodes, scanned, read, readable⟩ := Engine.validRead refused ok valid
  obtain ⟨r', ok', -, unknown, -⟩ := Engine.validates scanned read readable
  have same : r = r' := by
    rw [ok] at ok'
    exact Except.ok.inj ok'
  have answers := Engine.buildAnswers scanned read readable
  rw [same, unknown]
  simp only [Engine.processUncached]
  split at answers
  · rename_i none
    obtain ⟨p, built⟩ := answers
    exact ⟨p, by rw [built]⟩
  · obtain ⟨fault, failed, code, said⟩ := answers
    exact ⟨fault, by rw [failed], code, said⟩

def sampleStrange : Engine := ⟨.standard, .empty, none, .still⟩

set_option maxRecDepth 4000 in
theorem validationSoundUnknown : ∃ r fault, sampleStrange.validate "$\x7ba|b\x7d" = .ok r ∧ r.valid = true ∧
    sampleStrange.process "$\x7ba|b\x7d" false World.fresh.cache = (.error fault, World.fresh.cache) ∧
    fault.code = .render ∧ fault.text = "Unknown filter: b at 1:1" := by
  have tokens : Token.scan .standard "$\x7ba|b\x7d" =
      .ok [⟨.output, "a|b", ⟨1, 1, 0⟩, 6⟩, ⟨.eof, "", ⟨1, 7, 6⟩, 6⟩] := by cbv
  have item : Output.parse "a|b" = .ok ⟨"a", .path "a", [⟨"b", [], 2⟩]⟩ := by cbv
  have read : Node.ofTokens .standard [⟨.output, "a|b", ⟨1, 1, 0⟩, 6⟩, ⟨.eof, "", ⟨1, 7, 6⟩, 6⟩] =
      .ok (.root .start [.output ⟨1, 1, 0⟩ "a|b"]) := by cbv
  obtain ⟨r, ok, faultless, unknown, -⟩ := @Engine.validates sampleStrange _ _ _ tokens read
    (by simpa [Node.allOf, Node.all] using .output item)
  have valid : r.valid = true := by
    rw [Report.valid, faultless]
    rfl
  have first : r.unknown = ["Unknown filter: b at 1:1"] := by
    rw [unknown]
    simp only [Node.allOf, Node.all, List.append_nil, List.flatMap_singleton, Procedure.warned,
      Procedure.issuesOutput item]
    rfl
  have sound := validationSound World.fresh.cache rfl ok valid
  rw [first] at sound
  obtain ⟨fault, failed, code, said⟩ := sound
  exact ⟨r, fault, ok, valid, failed, code, said⟩

namespace Engine

/- With or without the cache, what was compiled is what the text is compiled to. -/
theorem Honest.processed {e : Engine} {text : String} {cache : Cache Template} {useCache : Bool}
    {p : Processed} (honest : e.Honest text cache) (ok : (e.process text useCache cache).1 = .ok p) :
    ∃ q, e.build text = .ok q ∧ q.template = p.template := by
  cases useCache with
  | false =>
    rw [processUncached] at ok
    exact ⟨p, ok, rfl⟩
  | true =>
    have transparent := honest.transparent
    rw [ok] at transparent
    cases built : e.build text with
    | error fault => simp [built, Except.map] at transparent
    | ok q =>
      rw [built] at transparent
      exact ⟨q, rfl, (Except.ok.inj transparent).symm⟩

end Engine

/- A text that can be compiled has a report that warns of no unknown name. All that the report may find wrong
is that the tree is too deep, by a level: the limit of the parser counts blocks, that of the report the
nodes in them, too. -/
theorem processedReported {e : Engine} {text : String} {cache : Cache Template} {useCache : Bool} {p : Processed}
    (honest : e.Honest text cache) (ok : (e.process text useCache cache).1 = .ok p) :
    ∃ r, e.validate text = .ok r ∧ r.unknown = [] ∧ r.tree = some p.template.tree ∧
      (∀ error ∈ r.errors, ∃ m ∈ p.template.tree.all, error = m.tooDeep e.settings.limits.depth) ∧
      (r.valid = true ↔ p.template.tree.height ≤ e.settings.limits.depth) ∧
      p.template.tree.height ≤ e.settings.limits.depth.toNat + 1 := by
  obtain ⟨q, built, same⟩ := honest.processed ok
  obtain ⟨tokens, tree, c, scanned, read, compiled, rfl⟩ := Engine.buildOk.mp built
  rw [← same]
  obtain ⟨nodes, rfl, made⟩ := Node.treeRead read
  obtain ⟨place, children, k, whole, -, -, translates⟩ := Procedure.compiled compiled
  cases whole
  have proper := Node.readProper made Node.properNone (by simp)
  have readable := Procedure.translatesAllReadable translates proper
  have sound : ∀ m ∈ Node.allOf nodes, m.Sound e.settings.limits := fun m member =>
    ⟨proper m member, Procedure.readableConditioned (readable m member)⟩
  obtain ⟨r, valid, errors, unknown, shown⟩ := Engine.validates scanned read readable
  have answers := Engine.buildAnswers scanned read readable
  refine ⟨r, valid, ?_, shown, ?_, ?_, Node.readShallow made (Nat.zero_le _)⟩
  · rw [unknown]
    split at answers
    · assumption
    · obtain ⟨fault, failed, -⟩ := answers
      rw [built] at failed
      cases failed
  · rw [errors, Node.errors, Node.errorsAt]
    split
    · intro error member
      exact ⟨_, Node.memSelf _, List.mem_singleton.mp member⟩
    · intro error member
      obtain ⟨m, inside, deep⟩ := Node.errorsAllDeep sound error member
      exact ⟨m, by simp [Node.all, inside], deep⟩
  · rw [Report.valid, List.isEmpty_iff, errors, Node.errors, Node.errorsAt]
    split
    · simp only [reduceCtorEq, false_iff, Node.height]
      omega
    · rename_i above
      have levels := @Node.faultlessAll _ e.settings.limits.depth 0 _ sound (by omega)
      simpa [Node.height] using levels

/- A block with a text in it. -/
def sampleBlock : String := "$\x7b#if a\x7dx$\x7b/if\x7d"

def sampleBlockTokens : List Token := [⟨.conditionalStart, "a", .start, 8⟩, ⟨.text, "x", ⟨1, 9, 8⟩, 9⟩,
  ⟨.conditionalEnd, "", ⟨1, 10, 9⟩, 15⟩, ⟨.eof, "", ⟨1, 16, 15⟩, 15⟩]

def sampleBlockNodes : List Node := [.conditional .start "a" [.text ⟨1, 9, 8⟩ "x"] []]

def sampleLimited (depth : Int) : Engine :=
  ⟨{ Settings.standard with limits := ⟨depth, false⟩ }, .empty, none, .still⟩

theorem sampleBlockScanned : Token.scan .standard sampleBlock = .ok sampleBlockTokens := by cbv

theorem sampleBlockReadable : ∀ m ∈ Node.allOf sampleBlockNodes, m.Readable := by
  have condition : Expr.parse "a" = .ok (.path "a") := by cbv
  simp only [sampleBlockNodes, Node.allOf, Node.all, List.append_nil, List.forall_mem_cons]
  exact ⟨.conditional condition, .text, by simp⟩

theorem sampleBlockProcessed {depth : Int} (read : Node.ofTokens ⟨depth, false⟩ sampleBlockTokens =
    .ok (.root .start sampleBlockNodes)) :
    ∃ p, ((sampleLimited depth).process sampleBlock true (.empty true 0)).1 = .ok p ∧
      p.template.tree = .root .start sampleBlockNodes := by
  have condition : Expr.parse "a" = .ok (.path "a") := by cbv
  obtain ⟨c, compiled⟩ : ∃ c, Procedure.compile .empty (.root .start sampleBlockNodes) = .ok c := by
    simp only [sampleBlockNodes, Procedure.compile, Procedure.compileNodes, Procedure.compileNode,
      Procedure.compileExpr, condition]
    exact ⟨_, rfl⟩
  obtain ⟨p, built, tree⟩ : ∃ p, (sampleLimited depth).build sampleBlock = .ok p ∧
      p.template.tree = .root .start sampleBlockNodes :=
    ⟨_, Engine.buildOk.mpr ⟨_, _, c, sampleBlockScanned, read, compiled, rfl⟩, rfl⟩
  exact ⟨p, by simp [Engine.process, Cache.get, Cache.empty, Cache.find?, built], tree⟩

/- At a limit of two the block and the text in it are fine for both, -/
theorem processedReportedBlock : ∃ p r,
    ((sampleLimited 2).process sampleBlock true (.empty true 0)).1 = .ok p ∧
    (sampleLimited 2).validate sampleBlock = .ok r ∧ r.valid = true := by
  have read : Node.ofTokens ⟨2, false⟩ sampleBlockTokens = .ok (.root .start sampleBlockNodes) := by cbv
  obtain ⟨p, ok, tree⟩ := sampleBlockProcessed read
  have honest : (sampleLimited 2).Honest sampleBlock (.empty true 0) := by simp [Engine.Honest, Cache.empty]
  obtain ⟨r, report, -, -, -, valid, -⟩ := processedReported honest ok
  refine ⟨p, r, ok, report, valid.mpr ?_⟩
  rw [tree]
  decide

/- and at a limit of one, only for the parser. -/
theorem parserDeeper : ∃ p r,
    ((sampleLimited 1).process sampleBlock true (.empty true 0)).1 = .ok p ∧
    (sampleLimited 1).validate sampleBlock = .ok r ∧
    r.errors = ["AST nesting depth exceeds 1 at position 1:9"] ∧ r.valid = false := by
  have read : Node.ofTokens ⟨1, false⟩ sampleBlockTokens = .ok (.root .start sampleBlockNodes) := by cbv
  obtain ⟨p, ok, -⟩ := sampleBlockProcessed read
  obtain ⟨r, report, errors, -, -⟩ := @Engine.validates (sampleLimited 1) sampleBlock _ _
    sampleBlockScanned read sampleBlockReadable
  have deep : r.errors = ["AST nesting depth exceeds 1 at position 1:9"] := by
    rw [errors]
    decide
  refine ⟨p, r, ok, report, deep, ?_⟩
  rw [Report.valid, deep]
  rfl

end Stencil

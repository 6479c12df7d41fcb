import Mathlib
import Stencil.Proofs.Caching
import Stencil.Proofs.Checking
import Stencil.Proofs.Directives

/-! What the search for issues finds in the expressions of a tree, and where the compiler fails. Both look at the
same expressions in the same order: of a tree in which every expression can be read, the compiler fails at the
first name that the search finds unknown, and only there. -/
namespace Stencil

/- A node whose expression can be read and whose name can be bound. -/
inductive Node.Readable : Node → Prop where
  | text {p s} : Readable (.text p s)
  | output {p text o} (parsed : Output.parse text = .ok o) : Readable (.output p text)
  | conditional {p text children otherwise e} (parsed : Expr.parse text = .ok e) :
      Readable (.conditional p text children otherwise)
  | loop {p name text children e} (parsed : Expr.parse text = .ok e)
      (named : Text.isIdentifier name.toList = true) : Readable (.loop p name text children)
  | inclusion {p name} : Readable (.inclusion p name)

theorem Output.parseBlank {text : String} (blank : Text.allBlank text = true) :
    Output.parse text = .error ⟨.emptyExpression, 0⟩ := by
  have plain : Plain text.toList := Plain.ofOrdinary fun c member =>
    Plain.blankOrdinary (List.all_eq_true.mp blank c member)
  have source : text.toList.all Text.isBlank = true := blank
  simp [Output.parse, plain.splitOutside, source, throw, throwThe, MonadExceptOf.throw]

theorem Output.parseSolid {text : String} {o : Output} (ok : Output.parse text = .ok o) :
    Text.allBlank text = false := by
  rw [Bool.eq_false_iff]
  intro blank
  rw [Output.parseBlank blank] at ok
  cases ok

namespace Procedure

open Node

/- The names in a node that the registry does not have, as the report words them. -/
def warned (env : Registry) (n : Node) : List String :=
  match Issues.ofNode env n with
  | .ok issues => issues.warnings
  | .error _ => []

variable {env : Registry} {limits : Limits} {p : Position} {bound : List String} {g : Gathered}

theorem issuesOutput {text : String} {o : Output} (parsed : Output.parse text = .ok o) :
    Issues.ofNode env (.output p text) = .ok ⟨[], Issues.unknown env .function p.text o.expression.functions ++
      Issues.unknown env .filter p.text (o.filters.map (·.name))⟩ := by
  simp [Issues.ofNode, Output.parseSolid parsed, Issues.ofOutput, parsed]

theorem issuesConditional {text : String} {e : Expr} (parsed : Expr.parse text = .ok e)
    (children otherwise : List Node) : Issues.ofNode env (.conditional p text children otherwise) =
      .ok ⟨[], Issues.unknown env .function p.text e.functions⟩ := by
  simp [Issues.ofNode, parseSolid parsed, Issues.ofExpr, parsed]

theorem issuesLoop {text : String} {e : Expr} (parsed : Expr.parse text = .ok e) (name : String)
    (children : List Node) : Issues.ofNode env (.loop p name text children) =
      .ok ⟨[], Issues.unknown env .function p.text e.functions⟩ := by
  simp [Issues.ofNode, parseSolid parsed, Issues.ofExpr, parsed]

theorem issuesReadable {n : Node} (readable : n.Readable) :
    Issues.ofNode env n = .ok ⟨[], warned env n⟩ := by
  cases readable with
  | text | inclusion => rfl
  | output parsed => simp [warned, issuesOutput parsed]
  | conditional parsed => simp [warned, issuesConditional parsed]
  | loop parsed => simp [warned, issuesLoop parsed]

/- Where blank outputs are refused, a node without issues can be read. -/
theorem readableOf {n : Node} (sound : n.Sound limits) (refused : limits.allowEmpty = false) {i : Issues}
    (ok : Issues.ofNode env n = .ok i) (none : i.errors = []) : n.Readable := by
  have faulty {text place : String} {f : SyntaxFault} : Issues.unreadable text place f ≠ .ok i := by
    intro made
    rw [Issues.unreadable] at made
    split at made
    · cases made
    · cases made
      cases none
  obtain ⟨proper, conditioned⟩ := sound
  cases n with
  | text => exact .text
  | inclusion => exact .inclusion
  | root | foreign => exact proper.elim
  | output p text =>
    have solid : Text.allBlank text = false := proper refused
    simp only [Issues.ofNode, solid, Bool.false_eq_true, if_false, Issues.ofOutput] at ok
    cases parsed : Output.parse text with
    | ok o => exact .output parsed
    | error f =>
      rw [parsed] at ok
      exact absurd ok faulty
  | conditional p text children otherwise =>
    have solid : Text.allBlank text = false := conditioned
    simp only [Issues.ofNode, solid, Bool.false_eq_true, if_false, Issues.ofExpr] at ok
    cases parsed : Expr.parse text with
    | ok e => exact .conditional parsed
    | error f =>
      rw [parsed] at ok
      exact absurd ok faulty
  | loop p name text children =>
    obtain ⟨solid, ascii⟩ := proper
    simp only [Issues.ofNode, solid, Bool.false_eq_true, if_false, Issues.ofExpr] at ok
    cases parsed : Expr.parse text with
    | ok e => exact .loop parsed (Text.asciiIdentifier ascii)
    | error f =>
      rw [parsed] at ok
      exact absurd ok faulty

theorem gathered {ns : List Node} {is : List Issues} (ok : ns.mapM (Issues.ofNode env) = .ok is) :
    ∀ n ∈ ns, ∃ i ∈ is, Issues.ofNode env n = .ok i := by
  induction ns generalizing is with
  | nil => simp
  | cons n ns ih =>
    rw [List.mapM_cons] at ok
    obtain ⟨i, first, ok⟩ := boundOk ok
    obtain ⟨others, rest, ok⟩ := boundOk ok
    cases ok
    refine List.forall_mem_cons.mpr ⟨⟨i, List.mem_cons_self, first⟩, fun m member => ?_⟩
    obtain ⟨j, inside, here⟩ := ih rest m member
    exact ⟨j, List.mem_cons_of_mem _ inside, here⟩

theorem gatheredReadable {ns : List Node} (readable : ∀ n ∈ ns, n.Readable) :
    ns.mapM (Issues.ofNode env) = .ok (ns.map fun n => ⟨[], warned env n⟩) := by
  induction ns with
  | nil => rfl
  | cons n ns ih =>
    obtain ⟨first, others⟩ := List.forall_mem_cons.mp readable
    rw [List.mapM_cons, issuesReadable first, ih others]
    rfl

theorem appended (is : List Issues) (acc : Issues) : is.foldl Issues.append acc =
    ⟨acc.errors ++ is.flatMap (·.errors), acc.warnings ++ is.flatMap (·.warnings)⟩ := by
  induction is generalizing acc with
  | nil => simp
  | cons i is ih => simp [ih, Issues.append]

/- The first of the warnings, if there is one, is the failure. -/
def Answers (warnings : List String) (x : Except Failure α) : Prop :=
  match warnings with
  | [] => ∃ a, x = .ok a
  | w :: _ => ∃ fault, x = .error (.template fault) ∧ fault.code = .render ∧ fault.text = w

namespace Answers

variable {x : Except Failure α} {f : α → Except Failure β} {ws ws' : List String}

theorem bind (first : Answers ws x) (next : ∀ a, x = .ok a → Answers ws' (f a)) :
    Answers (ws ++ ws') (x >>= f) := by
  cases ws with
  | nil =>
    obtain ⟨a, ok⟩ := first
    rw [ok]
    exact next a ok
  | cons w ws =>
    obtain ⟨fault, failed, code, text⟩ := first
    exact ⟨fault, by rw [failed]; rfl, code, text⟩

theorem map {h : α → β} (first : Answers ws x) : Answers ws (x >>= fun a => Except.ok (h a)) := by
  rw [← List.append_nil ws]
  exact first.bind fun a _ => ⟨h a, rfl⟩

end Answers

theorem locatedText (p : Position) (reason : Reason) :
    (TemplateError.located p reason).text = reason.message ++ " at " ++ p.text := by
  simp only [TemplateError.text, TemplateError.located, Position.text, String.append_assoc]

theorem unknownCons (env : Registry) (role : Role) (place name : String) (names : List String) :
    Issues.unknown env role place (name :: names) =
      match env.get? role name with
      | none => ("Unknown " ++ role.word ++ ": " ++ name ++ " at " ++ place) :: Issues.unknown env role place names
      | some _ => Issues.unknown env role place names := by
  cases known : env.get? role name <;> simp [Issues.unknown, known]

theorem functionsAnswer (names : List String) (g : Gathered) :
    Answers (Issues.unknown env .function p.text names) (bindFunctions env p g names) := by
  induction names generalizing g with
  | nil => exact ⟨g, rfl⟩
  | cons name names ih =>
    rw [unknownCons, bindFunctions]
    cases known : env.get? .function name with
    | none => exact ⟨.located p (.unknownFunction name), rfl, rfl, locatedText p _⟩
    | some c => exact ih _

theorem filtersAnswer (filters : List FilterCall) :
    Answers (Issues.unknown env .filter p.text (filters.map (·.name))) (bindFilters env p filters) := by
  induction filters with
  | nil => exact ⟨[], rfl⟩
  | cons f filters ih =>
    rw [List.map_cons, unknownCons, bindFilters]
    cases known : env.get? .filter f.name with
    | none => exact ⟨.located p (.unknownFilter f.name), rfl, rfl, locatedText p _⟩
    | some c => exact ih.map

theorem exprAnswers {text : String} {e : Expr} (parsed : Expr.parse text = .ok e) :
    Answers (Issues.unknown env .function p.text e.functions) (compileExpr env bound p g text) := by
  rw [compileExpr, parsed]
  exact (functionsAnswer e.functions _).map

mutual

/- The compiler fails at the first name that the search finds unknown. -/
theorem compileAnswers {bound : List String} {g : Gathered} {n : Node} (readable : ∀ m ∈ n.all, m.Readable) :
    Answers (n.all.flatMap (warned env)) (compileNode env bound g n) := by
  cases n with
  | text p s => exact ⟨_, rfl⟩
  | inclusion p name => exact ⟨_, rfl⟩
  | output p text =>
    simp only [all, List.forall_mem_singleton] at readable
    cases readable with
    | output parsed =>
      simp only [all, List.flatMap_singleton, warned, issuesOutput parsed, compileNode, parsed]
      exact (functionsAnswer _ _).bind fun _ _ => (filtersAnswer _).map
  | conditional p text children otherwise =>
    simp only [all, List.forall_mem_cons, List.forall_mem_append] at readable
    obtain ⟨here, first, second⟩ := readable
    cases here with
    | conditional parsed =>
      simp only [all, List.flatMap_cons, List.flatMap_append, warned, issuesConditional parsed, compileNode,
        parseSolid parsed, Bool.false_eq_true, if_false]
      exact (exprAnswers parsed).bind fun _ _ => (compileAllAnswers first).bind fun _ _ =>
        (compileAllAnswers second).map
  | loop p name text children =>
    simp only [all, List.forall_mem_cons] at readable
    obtain ⟨here, inner⟩ := readable
    cases here with
    | loop parsed named =>
      simp only [all, List.flatMap_cons, warned, issuesLoop parsed, compileNode, parseSolid parsed, named,
        Bool.not_true, Bool.or_self, Bool.false_eq_true, if_false]
      exact (exprAnswers parsed).bind fun _ _ => (compileAllAnswers inner).map
  | root | foreign => cases readable _ (memSelf _)

theorem compileAllAnswers {bound : List String} {g : Gathered} {ns : List Node}
    (readable : ∀ m ∈ allOf ns, m.Readable) :
    Answers ((allOf ns).flatMap (warned env)) (compileNodes env bound g ns) := by
  cases ns with
  | nil => exact ⟨_, rfl⟩
  | cons n ns =>
    simp only [allOf, List.forall_mem_append] at readable
    simp only [allOf, List.flatMap_append, compileNodes]
    exact (compileAnswers readable.1).bind fun _ _ => (compileAllAnswers readable.2).map

end

mutual

/- What was compiled can be read. -/
theorem translatesReadable {k : Gathered} {bound : List String} {n : Node} {i : Instruction}
    (translates : Translates env k bound n i) (proper : ∀ m ∈ n.all, m.Proper limits) :
    ∀ m ∈ n.all, m.Readable := by
  cases translates with
  | text =>
    simp only [all, List.forall_mem_singleton]
    exact .text
  | inclusion =>
    simp only [all, List.forall_mem_singleton]
    exact .inclusion
  | output parsed =>
    simp only [all, List.forall_mem_singleton]
    exact .output parsed
  | conditional parsed _ first second =>
    simp only [all, List.forall_mem_cons, List.forall_mem_append] at proper ⊢
    obtain ⟨-, proper, proper'⟩ := proper
    exact ⟨.conditional parsed, translatesAllReadable first proper, translatesAllReadable second proper'⟩
  | loop parsed _ inner =>
    simp only [all, List.forall_mem_cons] at proper ⊢
    obtain ⟨⟨-, ascii⟩, proper⟩ := proper
    exact ⟨.loop parsed (Text.asciiIdentifier ascii), translatesAllReadable inner proper⟩

theorem translatesAllReadable {k : Gathered} {bound : List String} {ns : List Node} {is : List Instruction}
    (translates : TranslatesAll env k bound ns is) (proper : ∀ m ∈ allOf ns, m.Proper limits) :
    ∀ m ∈ allOf ns, m.Readable := by
  cases translates with
  | nil => simp [allOf]
  | cons first others =>
    simp only [allOf, List.forall_mem_append] at proper ⊢
    exact ⟨translatesReadable first proper.1, translatesAllReadable others proper.2⟩

end

theorem readableConditioned {n : Node} (readable : n.Readable) : n.Conditioned := by
  cases readable with
  | conditional parsed => exact parseSolid parsed
  | text | output | loop | inclusion => trivial

theorem treeIssues {ns : List Node} (readable : ∀ m ∈ allOf ns, m.Readable) :
    issues env (.root p ns) = .ok ⟨[], (allOf ns).flatMap (warned env)⟩ := by
  rw [issues, all, List.mapM_cons, gatheredReadable readable]
  simp only [Issues.ofNode, pure, Except.pure, bind, Except.bind, appended]
  simp [Issues.empty, List.flatMap_map]

theorem treeReadable {ns : List Node} (sound : ∀ m ∈ allOf ns, m.Sound limits)
    (refused : limits.allowEmpty = false) {i : Issues} (ok : issues env (.root p ns) = .ok i)
    (none : i.errors = []) : ∀ m ∈ allOf ns, m.Readable := by
  obtain ⟨is, gathers, ok⟩ := boundOk ok
  cases ok
  rw [appended] at none
  have faultless := List.flatMap_eq_nil_iff.mp (List.append_eq_nil_iff.mp none).2
  intro m member
  obtain ⟨i, inside, here⟩ := gathered gathers m (by simp [all, member])
  exact readableOf (sound m member) refused here (faultless i inside)

end Procedure

end Stencil

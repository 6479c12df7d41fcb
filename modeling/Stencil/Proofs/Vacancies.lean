import Stencil.Proofs.Searching

/-! Outputs in which nothing stands. The reader lets them pass where its limits allow them, and the search for issues
passes them over; the compiler does not. It fails at the first fault in the order of the document, and such an output
is a fault. -/
namespace Stencil

namespace Node

def isVacant : Node → Bool
  | .output _ source => Text.allBlank source
  | _ => false

mutual

/- A node without the vacant outputs inside it, at any depth. -/
def filled (n : Node) : Node :=
  match n with
  | .conditional p condition children otherwise => .conditional p condition (filledOf children) (filledOf otherwise)
  | .loop p name collection children => .loop p name collection (filledOf children)
  | .root p children => .root p (filledOf children)
  | n => n
termination_by structural n

def filledOf (ns : List Node) : List Node :=
  match ns with
  | [] => []
  | n :: ns => if n.isVacant then filledOf ns else filled n :: filledOf ns
termination_by structural ns

end

mutual

/- Without vacant outputs there is nothing to leave out. -/
theorem filledSame (n : Node) (solid : ∀ m ∈ n.all, m.isVacant = false) : n.filled = n := by
  cases n with
  | text | output | inclusion | foreign => rfl
  | conditional p condition children otherwise =>
    simp only [all, List.forall_mem_cons, List.forall_mem_append] at solid
    rw [filled, filledAllSame children solid.2.1, filledAllSame otherwise solid.2.2]
  | loop p name collection children =>
    simp only [all, List.forall_mem_cons] at solid
    rw [filled, filledAllSame children solid.2]
  | root p children =>
    simp only [all, List.forall_mem_cons] at solid
    rw [filled, filledAllSame children solid.2]

theorem filledAllSame (ns : List Node) (solid : ∀ m ∈ allOf ns, m.isVacant = false) : filledOf ns = ns := by
  cases ns with
  | nil => rfl
  | cons n ns =>
    simp only [allOf, List.forall_mem_append] at solid
    rw [filledOf, solid.1 n (memSelf n), filledSame n solid.1, filledAllSame ns solid.2]
    rfl

end

end Node

namespace Procedure

open Node

variable {env : Registry} {p : Position} {bound : List String} {g : Gathered}

/- The first of some names that the registry does not have. -/
def unknown? (env : Registry) (p : Position) (role : Role) (reason : String → Reason) (names : List String) :
    Option Failure :=
  (names.find? fun name => (env.get? role name).isNone).map fun name => wrong p (reason name)

def exprFault? (env : Registry) (p : Position) (text : String) : Option Failure :=
  match Expr.parse text with
  | .error f => some (unreadable p text f)
  | .ok e => unknown? env p .function .unknownFunction e.functions

def outputFault? (env : Registry) (p : Position) (text : String) : Option Failure :=
  match Output.parse text with
  | .error f => some (unreadable p text f)
  | .ok o => (unknown? env p .function .unknownFunction o.expression.functions).or
      (unknown? env p .filter .unknownFilter (o.filters.map (·.name)))

/- What is wrong with a node by itself. -/
def fault? (env : Registry) : Node → Option Failure
  | .text _ _ | .inclusion _ _ => none
  | .output p source => outputFault? env p source
  | .conditional p condition _ _ =>
    if Text.allBlank condition then some (wrong p .emptyCondition) else exprFault? env p condition
  | .loop p name collection _ =>
    if Text.allBlank collection || !Text.isIdentifier name.toList then
      some (wrong p (.badLoopHeader (name ++ " in " ++ collection)))
    else exprFault? env p collection
  | .root p _ => some (wrong p (.unknownNode "root"))
  | .foreign p kind _ => some (wrong p (.unknownNode kind))

/- Fails with the fault, if there is one. -/
def Fails (fault : Option Failure) (x : Except Failure α) : Prop :=
  match fault with
  | none => ∃ a, x = .ok a
  | some f => x = .error f

namespace Fails

variable {fault fault' : Option Failure} {x : Except Failure α} {f : α → Except Failure β}

theorem bind (first : Fails fault x) (next : ∀ a, x = .ok a → Fails fault' (f a)) :
    Fails (fault.or fault') (x >>= f) := by
  cases fault with
  | none =>
    obtain ⟨a, ok⟩ := first
    rw [ok]
    exact next a ok
  | some fault =>
    have failed : x = .error fault := first
    rw [failed]
    rfl

theorem map {h : α → β} (first : Fails fault x) : Fails fault (x >>= fun a => Except.ok (h a)) := by
  have done (a : α) (_ : x = .ok a) : Fails none (Except.ok (h a)) := ⟨h a, rfl⟩
  have mapped := first.bind done
  rwa [Option.or_none] at mapped

/- What fails with the same fault fails alike. -/
theorem error (fails : Fails fault x) (f : Failure) : x = .error f ↔ fault = some f := by
  cases fault with
  | none =>
    obtain ⟨a, ok⟩ := fails
    simp [ok]
  | some g =>
    have failed : x = .error g := fails
    simp [failed]

end Fails

theorem functionsFail (names : List String) (g : Gathered) :
    Fails (unknown? env p .function .unknownFunction names) (bindFunctions env p g names) := by
  induction names generalizing g with
  | nil => exact ⟨g, rfl⟩
  | cons name names ih =>
    rw [bindFunctions]
    cases known : env.get? .function name with
    | none => simp [unknown?, known, Fails]
    | some c => simpa [unknown?, known] using ih (g.addFunction name c)

theorem filtersFail (filters : List FilterCall) :
    Fails (unknown? env p .filter .unknownFilter (filters.map (·.name))) (bindFilters env p filters) := by
  induction filters with
  | nil => exact ⟨[], rfl⟩
  | cons f filters ih =>
    rw [bindFilters]
    cases known : env.get? .filter f.name with
    | none => simp [unknown?, known, Fails]
    | some c =>
      have rest : unknown? env p .filter .unknownFilter (f.name :: filters.map (·.name)) =
          unknown? env p .filter .unknownFilter (filters.map (·.name)) := by simp [unknown?, known]
      rw [List.map_cons, rest]
      exact ih.map

theorem exprFails (text : String) : Fails (exprFault? env p text) (compileExpr env bound p g text) := by
  rw [compileExpr, exprFault?]
  cases Expr.parse text with
  | error f => rfl
  | ok e => exact (functionsFail e.functions _).map

theorem outputFails (text : String) :
    Fails (outputFault? env p text) (compileNode env bound g (.output p text)) := by
  rw [outputFault?, compileNode]
  cases Output.parse text with
  | error f => rfl
  | ok o => exact (functionsFail _ _).bind fun _ _ => (filtersFail _).map

theorem faultsCons (n : Node) (ns : List Node) (fault : Node → Option Failure) :
    (n :: ns).findSome? fault = (fault n).or (ns.findSome? fault) := by
  rw [List.findSome?_cons]
  cases fault n <;> rfl

mutual

/- The compiler fails at the first node of the document that has a fault. -/
theorem compileFails {bound : List String} {g : Gathered} (n : Node) :
    Fails (n.all.findSome? (fault? env)) (compileNode env bound g n) := by
  cases n with
  | text | inclusion =>
    simp only [all, faultsCons, fault?, compileNode]
    exact ⟨_, rfl⟩
  | root | foreign =>
    simp only [all, faultsCons, fault?, compileNode]
    rfl
  | output p text =>
    simp only [all, List.findSome?_singleton]
    exact outputFails text
  | conditional p condition children otherwise =>
    simp only [all, faultsCons, List.findSome?_append, fault?, compileNode]
    split
    · rfl
    · exact (exprFails condition).bind fun _ _ => (compileAllFails children).bind fun _ _ =>
        (compileAllFails otherwise).map
  | loop p name collection children =>
    simp only [all, faultsCons, fault?, compileNode]
    split
    · rfl
    · exact (exprFails collection).bind fun _ _ => (compileAllFails children).map

theorem compileAllFails {bound : List String} {g : Gathered} (ns : List Node) :
    Fails ((allOf ns).findSome? (fault? env)) (compileNodes env bound g ns) := by
  cases ns with
  | nil => exact ⟨_, rfl⟩
  | cons n ns =>
    simp only [allOf, List.findSome?_append, compileNodes]
    exact (compileFails n).bind fun _ _ => (compileAllFails ns).map

end

theorem treeFails (ns : List Node) :
    Fails ((allOf ns).findSome? (fault? env)) (compile env (.root p ns)) :=
  (compileAllFails ns).map

/- The fault of a vacant output. -/
def refusal (p : Position) (source : String) : Failure :=
  wrong p (.badExpression source SyntaxProblem.emptyExpression.message 0)

theorem vacantFault {source : String} (blank : Text.allBlank source = true) :
    fault? env (.output p source) = some (refusal p source) := by
  simp only [fault?, outputFault?, Output.parseBlank blank]
  rfl

theorem unreadableText {q : Position} {text source : String} {f : SyntaxFault}
    (same : unreadable p text f = refusal q source) : text = source := by
  unfold unreadable at same
  split at same
  · cases same
  · simp only [refusal, wrong, TemplateError.located, Failure.template.injEq, TemplateError.mk.injEq,
      Reason.badExpression.injEq] at same
    exact same.1.1

theorem unknownNamed {role : Role} {reason : String → Reason} {names : List String} {f : Failure}
    (found : unknown? env p role reason names = some f) : ∃ name, f = wrong p (reason name) := by
  obtain ⟨name, -, rfl⟩ := Option.map_eq_some_iff.mp found
  exact ⟨name, rfl⟩

theorem exprFaultText {q : Position} {text source : String}
    (found : exprFault? env p text = some (refusal q source)) : text = source := by
  unfold exprFault? at found
  split at found
  · exact unreadableText (Option.some.inj found)
  · obtain ⟨name, same⟩ := unknownNamed found
    cases same

theorem outputFaultText {q : Position} {text source : String}
    (found : outputFault? env p text = some (refusal q source)) : text = source := by
  unfold outputFault? at found
  split at found
  · exact unreadableText (Option.some.inj found)
  · rcases Option.or_eq_some_iff.mp found with first | ⟨-, second⟩
    · obtain ⟨name, same⟩ := unknownNamed first
      cases same
    · obtain ⟨name, same⟩ := unknownNamed second
      cases same

/- No other node has such a fault. -/
theorem refusalVacant {q : Position} {source : String} {n : Node} (blank : Text.allBlank source = true)
    (found : fault? env n = some (refusal q source)) : n.isVacant = true := by
  cases n with
  | text | inclusion => cases found
  | root | foreign => cases found
  | output p text =>
    obtain rfl := outputFaultText found
    exact blank
  | conditional p condition children otherwise =>
    simp only [fault?] at found
    split at found
    · cases found
    · rename_i solid
      obtain rfl := exprFaultText found
      exact absurd blank solid
  | loop p name collection children =>
    simp only [fault?] at found
    split at found
    · cases found
    · rename_i solid
      obtain rfl := exprFaultText found
      simp [blank] at solid

/- What is wrong with a node that is not vacant. -/
def passing? (env : Registry) (n : Node) : Option Failure := if n.isVacant then none else fault? env n

mutual

theorem filledFaults (n : Node) (solid : n.isVacant = false) :
    n.filled.all.findSome? (fault? env) = n.all.findSome? (passing? env) := by
  have here : passing? env n = fault? env n := by simp [passing?, solid]
  cases n with
  | text | inclusion | foreign | output =>
    simp only [filled, all, faultsCons, here]
    rfl
  | conditional p condition children otherwise =>
    simp only [filled, all, faultsCons, List.findSome?_append, here, filledAllFaults children,
      filledAllFaults otherwise]
    rfl
  | loop p name collection children =>
    simp only [filled, all, faultsCons, here, filledAllFaults children]
    rfl
  | root p children =>
    simp only [filled, all, faultsCons, here, filledAllFaults children]
    rfl

theorem filledAllFaults (ns : List Node) :
    (allOf (filledOf ns)).findSome? (fault? env) = (allOf ns).findSome? (passing? env) := by
  cases ns with
  | nil => rfl
  | cons n ns =>
    rw [filledOf, allOf, List.findSome?_append, ← filledAllFaults ns]
    cases vacant : n.isVacant with
    | true =>
      have nothing : n.all.findSome? (passing? env) = none := by
        cases n with
        | output => simp [all, passing?, vacant]
        | text | conditional | loop | inclusion | root | foreign => cases vacant
      rw [nothing]
      rfl
    | false =>
      rw [← filledFaults n vacant, ← List.findSome?_append]
      rfl

end

theorem vacantRefused {n : Node} (vacant : n.isVacant = true) :
    ∃ q source, Text.allBlank source = true ∧ fault? env n = some (refusal q source) := by
  cases n with
  | output q source => exact ⟨q, source, vacant, vacantFault vacant⟩
  | text | conditional | loop | inclusion | root | foreign => cases vacant

/- Among nodes without a fault none is vacant. -/
theorem faultlessSolid {ns : List Node} (clean : ns.findSome? (fault? env) = none) :
    ∀ m ∈ ns, m.isVacant = false := by
  intro m member
  rw [Bool.eq_false_iff]
  intro vacant
  obtain ⟨q, source, -, fault⟩ := vacantRefused vacant
  rw [List.findSome?_eq_none_iff.mp clean m member] at fault
  cases fault

theorem passingSolid {ns : List Node} (solid : ∀ m ∈ ns, m.isVacant = false) :
    ns.findSome? (passing? env) = ns.findSome? (fault? env) := by
  induction ns with
  | nil => rfl
  | cons n ns ih =>
    obtain ⟨first, others⟩ := List.forall_mem_cons.mp solid
    have here : passing? env n = fault? env n := by simp [passing?, first]
    rw [faultsCons, faultsCons, here, ih others]

/- The first fault is that of a vacant output where nothing else in front of one has a fault. -/
theorem firstRefused {before : List Node} {n : Node} (vacant : n.isVacant = true)
    (clean : ∀ m ∈ before, m.isVacant = false → fault? env m = none) :
    ∃ q source, Text.allBlank source = true ∧
      ∀ after, (before ++ n :: after).findSome? (fault? env) = some (refusal q source) := by
  simp only [List.findSome?_append, faultsCons]
  cases found : before.findSome? (fault? env) with
  | none =>
    obtain ⟨q, source, blank, fault⟩ := vacantRefused vacant
    exact ⟨q, source, blank, fun after => by rw [fault]; rfl⟩
  | some f =>
    obtain ⟨m, member, fault⟩ := List.exists_of_findSome?_eq_some found
    cases solid : m.isVacant with
    | true =>
      obtain ⟨q, source, blank, fault'⟩ := vacantRefused solid
      rw [fault] at fault'
      exact ⟨q, source, blank, fun after => fault'⟩
    | false =>
      rw [clean m member solid] at fault
      cases fault

/- Both searches find the same where another fault stands in front of the first vacant output. -/
theorem firstShared {ns : List Node} (faulty : ∀ before n after, ns = before ++ n :: after → n.isVacant = true →
    ∃ m ∈ before, m.isVacant = false ∧ fault? env m ≠ none) :
    ns.findSome? (passing? env) = ns.findSome? (fault? env) := by
  cases first : ns.find? isVacant with
  | none =>
    have solid : ∀ m ∈ ns, m.isVacant = false := by simpa using List.find?_eq_none.mp first
    exact passingSolid solid
  | some n =>
    obtain ⟨vacant, before, after, rfl, solid⟩ := List.find?_eq_some_iff_append.mp first
    obtain ⟨m, member, -, fault⟩ := faulty before n after rfl vacant
    have found : before.findSome? (fault? env) ≠ none := fun clean =>
      fault (List.findSome?_eq_none_iff.mp clean m member)
    obtain ⟨f, found⟩ := Option.ne_none_iff_exists'.mp found
    have shared : before.findSome? (passing? env) = before.findSome? (fault? env) :=
      passingSolid (by simpa using solid)
    rw [List.findSome?_append, List.findSome?_append, shared, found]
    rfl

/- A tree and the same tree without its vacant outputs compile with the same outcome if and only if in front of every
vacant output there is a node, not itself vacant, that has a fault. Where the tree compiles it has none, and it is the
same tree without them. Where nothing in front of a vacant output has a fault, the compiler fails at that output. For
every registry and every tree, whatever limits it was read with. -/
theorem vacanciesRefused (env : Registry) (p : Position) (ns : List Node) :
    (∀ c, compile env (.root p ns) = .ok c → (Node.root p ns).filled = .root p ns) ∧
    (compile env (.root p ns) = compile env (Node.root p ns).filled ↔
      ∀ before n after, allOf ns = before ++ n :: after → n.isVacant = true →
        ∃ m ∈ before, m.isVacant = false ∧ fault? env m ≠ none) ∧
    ∀ before q source after, allOf ns = before ++ .output q source :: after → Text.allBlank source = true →
      (∀ m ∈ before, fault? env m = none) → compile env (.root p ns) = .error (refusal q source) := by
  have whole : Fails ((allOf ns).findSome? (fault? env)) (compile env (.root p ns)) := treeFails ns
  have rest : Fails ((allOf ns).findSome? (passing? env)) (compile env (Node.root p ns).filled) := by
    rw [← filledAllFaults]
    exact treeFails (filledOf ns)
  have same (clean : (allOf ns).findSome? (fault? env) = none) : (Node.root p ns).filled = .root p ns := by
    rw [filled, filledAllSame ns (faultlessSolid clean)]
  refine ⟨fun c ok => ?_, ⟨fun equal before n after split vacant => ?_, fun faulty => ?_⟩, ?_⟩
  · cases found : (allOf ns).findSome? (fault? env) with
    | none => exact same found
    | some f =>
      rw [(whole.error f).mpr found] at ok
      cases ok
  · by_contra none
    push Not at none
    -- The first fault is that of a vacant output, and no other node has such a fault.
    obtain ⟨q, source, blank, first⟩ := firstRefused vacant none
    have refused := (whole.error _).mpr (split ▸ first after)
    rw [equal, rest.error] at refused
    obtain ⟨m, -, passes⟩ := List.exists_of_findSome?_eq_some refused
    unfold passing? at passes
    split at passes
    · cases passes
    · rename_i solid
      exact solid (refusalVacant blank passes)
  · have shared := firstShared faulty
    cases found : (allOf ns).findSome? (fault? env) with
    | none => rw [same found]
    | some f => rw [(whole.error f).mpr found, (rest.error f).mpr (shared.trans found)]
  · intro before q source after split blank clean
    refine (whole.error _).mpr ?_
    rw [split, List.findSome?_append, List.findSome?_eq_none_iff.mpr clean, faultsCons, vacantFault blank]
    rfl

set_option maxRecDepth 4000 in
/- Of a text that was read where vacant outputs are allowed, the tree does not compile, though it does without the one
that is in it. -/
theorem vacancyStops : ¬ ∀ (env : Registry) (limits : Limits) (text : String) (tokens : List Token) (tree : Node),
    limits.allowEmpty = true → Token.scan .standard text = .ok tokens → Node.ofTokens limits tokens = .ok tree →
    compile env tree = compile env tree.filled := by
  intro always
  have tokens : Token.scan .standard "a$\x7b\x7db" = .ok [⟨.text, "a", ⟨1, 1, 0⟩, 1⟩, ⟨.output, "", ⟨1, 2, 1⟩, 4⟩,
      ⟨.text, "b", ⟨1, 5, 4⟩, 5⟩, ⟨.eof, "", ⟨1, 6, 5⟩, 5⟩] := by cbv
  have read : Node.ofTokens ⟨100, true⟩ [⟨.text, "a", ⟨1, 1, 0⟩, 1⟩, ⟨.output, "", ⟨1, 2, 1⟩, 4⟩,
      ⟨.text, "b", ⟨1, 5, 4⟩, 5⟩, ⟨.eof, "", ⟨1, 6, 5⟩, 5⟩] =
      .ok (.root .start [.text ⟨1, 1, 0⟩ "a", .output ⟨1, 2, 1⟩ "", .text ⟨1, 5, 4⟩ "b"]) := by cbv
  have same := always .empty ⟨100, true⟩ _ _ _ rfl tokens read
  have blank : Output.parse "" = .error ⟨.emptyExpression, 0⟩ := Output.parseBlank rfl
  have refused : compile .empty (.root .start [.text ⟨1, 1, 0⟩ "a", .output ⟨1, 2, 1⟩ "", .text ⟨1, 5, 4⟩ "b"]) =
      .error (refusal ⟨1, 2, 1⟩ "") := by
    simp only [compile, compileNodes, compileNode, blank]
    rfl
  rw [refused] at same
  cases same

end Procedure
end Stencil

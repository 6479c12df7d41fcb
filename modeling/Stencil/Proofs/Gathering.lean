import Stencil.Procedure.Workbench
import Stencil.Proofs.Translation

/-! The dependencies of a template: the paths that its expressions read and that no loop around them binds, each of
them where it stands first. A compiler that was used before gathers the same. -/
namespace Stencil

theorem appendedNew [BEq α] [LawfulBEq α] (ys xs : List α) :
    ys.foldl (fun zs y => appendNew y zs) xs = xs ++ (ys.filter (!xs.contains ·)).eraseDups := by
  induction ys generalizing xs with
  | nil => simp
  | cons y ys ih =>
    rw [List.foldl_cons, ih, appendNew]
    by_cases known : xs.contains y = true
    · rw [if_pos known, List.filter_cons_of_neg (by simpa using known)]
    · rw [if_neg known, List.filter_cons_of_pos (by simpa using known), List.eraseDups_cons, List.filter_filter,
        List.append_assoc]
      have both : ∀ z, (!z == y && !xs.contains z) = !(xs ++ [y]).contains z := by
        intro z
        rw [List.contains_append, Bool.not_or, Bool.and_comm, List.contains_cons, List.contains_nil, Bool.or_false]
      simp only [both, List.singleton_append]

namespace Expr

/- The names of a text that are read and not called, from left to right. -/
def namesRead : List Lexeme → List String
  | [] => []
  | .name word :: ls => if ls.head? = some .opening then namesRead ls else word :: namesRead ls
  | _ :: ls => namesRead ls

/- What a text reads, as it is written. -/
def reads (text : String) : List String :=
  match scan text with
  | .ok ts => namesRead (lexemes ts)
  | .error _ => []

theorem joinPlain {l : Level} {x : Lexeme} {join : Expr → Expr → Expr} (joins : l.join? x = some join)
    (ls : List Lexeme) : namesRead (x :: ls) = namesRead ls := by
  cases l <;> simp only [Level.join?] at joins <;> split at joins <;> cases joins <;> rfl

/- The paths of what was read, and then the names in what is left. -/
theorem readsInOrder {phase : Phase} {ls rest : List Lexeme} {es : List Expr} (reads : Reads phase ls es rest) :
    phase.carried ++ namesRead ls = pathsOf es ++ namesRead rest := by
  induction reads with
  | disjunction _ ih | conjunction _ ih | comparison _ ih | unary _ ih => exact ih
  | binary _ _ first others =>
    simp only [Phase.carried, List.nil_append, pathsOf, List.append_nil] at first others ⊢
    rw [first, others]
  | stop => simp [pathsOf, Phase.carried]
  | step joins _ _ next others =>
    simp only [Phase.carried, List.nil_append, pathsOf, List.append_nil, joinPaths joins,
      List.append_assoc] at next others ⊢
    rw [joinPlain joins, next, others]
  | not _ ih => simpa [namesRead, Phase.carried, pathsOf, paths] using ih
  | text | number | keyword => simp [namesRead, Phase.carried, pathsOf, paths]
  | group _ ih => simpa [namesRead, Phase.carried, pathsOf, paths] using ih
  | path alone => simp [namesRead, Phase.carried, pathsOf, paths, alone]
  | nullary => simp [namesRead, Phase.carried, pathsOf, paths]
  | call _ _ ih => simpa [namesRead, Phase.carried, pathsOf, paths] using ih
  | last _ ih => simpa [namesRead, Phase.carried, pathsOf, paths] using ih
  | more _ _ first others =>
    simp only [Phase.carried, List.nil_append, pathsOf, List.append_nil, namesRead,
      List.append_assoc] at first others ⊢
    rw [first, others]

theorem parseInOrder {text : String} {e : Expr} (ok : parse text = .ok e) : reads text = e.paths := by
  simp only [parse] at ok
  split at ok
  · cases ok
  · rename_i ts scanned
    have order := readsInOrder (ofTokensReads.mp ok)
    simpa [reads, scanned, Phase.carried, pathsOf, namesRead] using order

end Expr

namespace Node

/- Those of some paths whose first part is not bound. -/
def unbound (bound paths : List String) : List String :=
  paths.filter fun path => !(Path.segments path).head?.any bound.contains

/- The source of an output ends where its filters begin. -/
def outputSource (source : String) : String :=
  String.ofList (((Text.splitOutside '|' source.toList).head?.map (·.1)).getD [])

mutual

/- The paths that a node reads and that no loop binds, in the order in which they are written. A loop binds
its names in its body alone. -/
def freePaths (bound : List String) (n : Node) : List String :=
  match n with
  | .output _ source => unbound bound (Expr.reads (outputSource source))
  | .conditional _ condition children otherwise =>
    unbound bound (Expr.reads condition) ++ freePathsOf bound children ++ freePathsOf bound otherwise
  | .loop _ name collection children =>
    unbound bound (Expr.reads collection) ++ freePathsOf (loopNames name ++ bound) children
  | .root _ children => freePathsOf bound children
  | .text .. | .inclusion .. | .foreign .. => []
termination_by structural n

def freePathsOf (bound : List String) (ns : List Node) : List String :=
  match ns with
  | [] => []
  | n :: ns => freePaths bound n ++ freePathsOf bound ns
termination_by structural ns

end
end Node

namespace Procedure

variable {env : Registry} {bound : List String} {p : Position} {g g' : Gathered}

theorem bindsPaths {names : List String} (ok : bindFunctions env p g names = .ok g') : g'.paths = g.paths := by
  induction names generalizing g with
  | nil =>
    cases ok
    rfl
  | cons name names ih =>
    rw [bindFunctions] at ok
    split at ok
    · cases ok
    · rename_i c _
      have later : g'.paths = (g.addFunction name c).paths := ih ok
      exact later

theorem addsUnbound {paths : List String} (rooted : ∀ path ∈ paths, Expr.Rooted path) :
    (paths.foldl (Gathered.addPath bound) g).paths =
      (Node.unbound bound paths).foldl (fun zs y => appendNew y zs) g.paths := by
  induction paths generalizing g with
  | nil => rfl
  | cons path paths ih =>
    obtain ⟨⟨rest, first⟩, rooted⟩ := List.forall_mem_cons.mp rooted
    rw [List.foldl_cons, ih rooted, Gathered.addPath]
    simp only [Node.unbound, List.filter_cons, first, List.head?_cons, Option.any_some]
    cases bound.contains (Path.root path) <;> rfl

theorem registersPaths {e : Expr} (rooted : ∀ path ∈ e.paths, Expr.Rooted path)
    (ok : register env bound p g e = .ok g') :
    g'.paths = (Node.unbound bound e.paths).foldl (fun zs y => appendNew y zs) g.paths := by
  rw [bindsPaths ok, addsUnbound rooted]

theorem gathersRead {text : String} {e : Expr} (ok : compileExpr env bound p g text = .ok (e, g')) :
    g'.paths = (Node.unbound bound (Expr.reads text)).foldl (fun zs y => appendNew y zs) g.paths := by
  obtain ⟨e', parsed, ok⟩ := boundOk ok
  obtain ⟨h, registered, ok⟩ := boundOk ok
  cases ok
  have parsed := mappedOk parsed
  rw [registersPaths (fun path => Expr.parseRooted parsed) registered, Expr.parseInOrder parsed]

theorem outputReads {text : String} {o : Output} (ok : Output.parse text = .ok o) :
    Expr.parse (Node.outputSource text) = .ok o.expression := by
  rw [Output.parse] at ok
  split at ok
  · cases ok
  · rename_i source _ segments pieces
    split at ok
    · cases ok
    · obtain ⟨e, parsed, ok⟩ := boundOk ok
      obtain ⟨filters, _, ok⟩ := boundOk ok
      cases ok
      simpa [Node.outputSource, pieces] using parsed

mutual

theorem gathersFree {bound : List String} {g g' : Gathered} {n : Node} {i : Instruction}
    (ok : compileNode env bound g n = .ok (i, g')) :
    g'.paths = (n.freePaths bound).foldl (fun zs y => appendNew y zs) g.paths := by
  cases n with
  | text p s =>
    cases ok
    rfl
  | output p text =>
    obtain ⟨o, parsed, ok⟩ := boundOk ok
    obtain ⟨h, registered, ok⟩ := boundOk ok
    obtain ⟨filters, _, ok⟩ := boundOk ok
    cases ok
    have source := outputReads (mappedOk parsed)
    rw [registersPaths (fun path => Expr.parseRooted source) registered, Node.freePaths, Expr.parseInOrder source]
  | conditional p condition children otherwise =>
    rw [compileNode] at ok
    split at ok
    · cases ok
    · obtain ⟨⟨e, g₁⟩, read, ok⟩ := boundOk ok
      obtain ⟨⟨thenPart, g₂⟩, first, ok⟩ := boundOk ok
      obtain ⟨⟨elsePart, g₃⟩, second, ok⟩ := boundOk ok
      cases ok
      rw [gathersAllFree second, gathersAllFree first, gathersRead read, Node.freePaths, List.foldl_append,
        List.foldl_append]
  | loop p name collection children =>
    rw [compileNode] at ok
    split at ok
    · cases ok
    · obtain ⟨⟨e, g₁⟩, read, ok⟩ := boundOk ok
      obtain ⟨⟨body, g₂⟩, inner, ok⟩ := boundOk ok
      cases ok
      rw [gathersAllFree inner, gathersRead read, Node.freePaths, List.foldl_append]
  | inclusion p name =>
    cases ok
    rfl
  | root p children => cases ok
  | foreign p kind className => cases ok

theorem gathersAllFree {bound : List String} {g g' : Gathered} {ns : List Node} {is : List Instruction}
    (ok : compileNodes env bound g ns = .ok (is, g')) :
    g'.paths = (Node.freePathsOf bound ns).foldl (fun zs y => appendNew y zs) g.paths := by
  cases ns with
  | nil =>
    cases ok
    rfl
  | cons n ns =>
    obtain ⟨⟨i, g₁⟩, one, ok⟩ := boundOk ok
    obtain ⟨⟨is, g₂⟩, all, ok⟩ := boundOk ok
    cases ok
    rw [gathersAllFree all, gathersFree one, Node.freePathsOf, List.foldl_append]

end

theorem compiledFree {tree : Node} {c : Compiled} (ok : compile env tree = .ok c) :
    c.dependencies = (tree.freePaths []).eraseDups := by
  cases tree with
  | root p children =>
    obtain ⟨⟨is, k⟩, all, ok⟩ := boundOk ok
    cases ok
    simpa [appendedNew, Gathered.nothing, Node.freePaths] using gathersAllFree all
  | text | output | conditional | loop | inclusion | foreign => cases ok

end Procedure

namespace Workbench

/- A step from a compiler that keeps its books against one that is handed them: what was gathered is the same in the
end, and whatever happens, the open scopes are the same as before. -/
inductive Agrees (b : Workbench) : Except Failure (α × Gathered) → EStateM.Result Failure Workbench α → Prop where
  | ok (a : α) (g : Gathered) : Agrees b (.ok (a, g)) (.ok a { b with gathered := g })
  | error {f : Failure} {b' : Workbench} (registry : b'.registry = b.registry) (scopes : b'.bound = b.bound) :
      Agrees b (.error f) (.error f b')

namespace Agrees

variable {b : Workbench}

theorem bind {x : Except Failure (α × Gathered)} {m : Work α} {k : α × Gathered → Except Failure (β × Gathered)}
    {l : α → Work β} (first : Agrees b x (m b))
    (next : ∀ a g, Agrees { b with gathered := g } (k (a, g)) (l a { b with gathered := g })) :
    Agrees b (x >>= k) ((m >>= l) b) := by
  simp only [Bind.bind, Except.bind, EStateM.bind]
  generalize m b = result at first ⊢
  cases first with
  | ok a g =>
    have after := next a g
    dsimp only
    generalize k (a, g) = y at after ⊢
    generalize l a { b with gathered := g } = result at after ⊢
    cases after with
    | ok c h => exact .ok c h
    | error registry scopes => exact .error registry scopes
  | error registry scopes => exact .error registry scopes

/- What does not touch the books goes before a step on either side. -/
theorem lifted {x : Except Failure γ} {k : γ → Except Failure (α × Gathered)} {l : γ → Work α}
    (next : ∀ c, Agrees b (k c) (l c b)) : Agrees b (x >>= k) ((lift x >>= l) b) := by
  cases x with
  | ok c => exact next c
  | error f => exact .error rfl rfl

end Agrees

theorem bindsFlat (b : Workbench) (path : String) : b.binds path = b.bound.flatten.contains (Path.root path) := by
  simp only [binds, List.contains_eq_any_beq, List.any_flatten]

theorem notesPaths (paths : List String) (b : Workbench) :
    paths.forM notePath b =
      .ok ⟨⟩ { b with gathered := paths.foldl (Gathered.addPath b.bound.flatten) b.gathered } := by
  induction paths generalizing b with
  | nil => rfl
  | cons path paths ih =>
    have noted : notePath path b =
        .ok ⟨⟩ { b with gathered := b.gathered.addPath b.bound.flatten path } := by
      simp only [notePath, modify, modifyGet, MonadStateOf.modifyGet, EStateM.modifyGet, bindsFlat, Gathered.addPath]
      split <;> rfl
    simp only [List.forM, Bind.bind, EStateM.bind, noted, ih, List.foldl_cons]

/- The functions of an expression, one after the other; an unknown one ends the work. -/
theorem noteFunctionsAgree (p : Position) (names : List String) (b : Workbench) :
    Agrees b ((Procedure.bindFunctions b.registry p b.gathered names).map ((), ·))
      (names.forM (noteFunction p) b) := by
  induction names generalizing b with
  | nil => exact .ok () b.gathered
  | cons name names ih =>
    simp only [List.forM, Bind.bind, EStateM.bind, noteFunction, Procedure.bindFunctions, get, getThe,
      MonadStateOf.get, EStateM.get]
    cases found : b.registry.get? .function name with
    | none => exact .error rfl rfl
    | some c =>
      have later := ih { b with gathered := b.gathered.addFunction name c }
      dsimp only [modify, modifyGet, MonadStateOf.modifyGet, EStateM.modifyGet] at later ⊢
      generalize (Procedure.bindFunctions _ _ _ _).map ((), ·) = x at later ⊢
      generalize names.forM (noteFunction p) _ = y at later ⊢
      cases later with
      | ok a g => exact .ok a g
      | error registry scopes => exact .error registry scopes

theorem registerAgrees (p : Position) (e : Expr) (b : Workbench) :
    Agrees b ((Procedure.register b.registry b.bound.flatten p b.gathered e).map ((), ·)) (register p e b) := by
  have functions := noteFunctionsAgree p e.functions
    { b with gathered := e.paths.foldl (Gathered.addPath b.bound.flatten) b.gathered }
  simp only [register, Procedure.register, Bind.bind, EStateM.bind, notesPaths]
  generalize (Procedure.bindFunctions _ _ _ _).map ((), ·) = x at functions ⊢
  generalize e.functions.forM (noteFunction p) _ = y at functions ⊢
  cases functions with
  | ok a g => exact .ok a g
  | error registry scopes => exact .error registry scopes

theorem Agrees.registered {b : Workbench} {p : Position} {e : Expr} {k : Gathered → Except Failure (α × Gathered)}
    {l : Work α} (next : ∀ g, Agrees { b with gathered := g } (k g) (l { b with gathered := g })) :
    Agrees b (Procedure.register b.registry b.bound.flatten p b.gathered e >>= k)
      ((register p e >>= fun _ => l) b) := by
  have same : (Procedure.register b.registry b.bound.flatten p b.gathered e >>= k) =
      (Procedure.register b.registry b.bound.flatten p b.gathered e).map ((), ·) >>= fun r => k r.2 := by
    cases Procedure.register b.registry b.bound.flatten p b.gathered e <;> rfl
  rw [same]
  exact (registerAgrees p e b).bind fun _ g => next g

theorem expressionAgrees (p : Position) (text : String) (b : Workbench) :
    Agrees b (Procedure.compileExpr b.registry b.bound.flatten p b.gathered text) (expression p text b) := by
  rw [Procedure.compileExpr, expression]
  exact .lifted fun e => .registered fun g => .ok e g

/- Inside a loop its names are bound too, and afterwards they are not, even if the body fails. -/
theorem bindingAgrees {names : List String} {body : Work α} {b : Workbench} {x : Except Failure (α × Gathered)}
    (inner : Agrees { b with bound := names :: b.bound } x (body { b with bound := names :: b.bound })) :
    Agrees b x (binding names body b) := by
  simp only [binding, Bind.bind, EStateM.bind, modify, modifyGet, MonadStateOf.modifyGet, EStateM.modifyGet,
    tryFinally, tryFinally', MonadFinally.tryFinally', Functor.map, EStateM.map]
  generalize body { b with bound := names :: b.bound } = y at inner ⊢
  cases inner with
  | ok a g => exact .ok a g
  | error registry scopes => exact .error registry (congrArg List.tail scopes)

mutual

theorem nodeAgrees (n : Node) (b : Workbench) :
    Agrees b (Procedure.compileNode b.registry b.bound.flatten b.gathered n) (node n b) := by
  cases n with
  | text p s => exact .ok _ _
  | output p text =>
    rw [Procedure.compileNode, node]
    refine .lifted fun o => .registered fun g => ?_
    exact .lifted fun filters => .ok _ g
  | conditional p condition children otherwise =>
    rw [Procedure.compileNode, node]
    split
    · exact .error rfl rfl
    · exact (expressionAgrees p condition b).bind fun e g₁ => (nodesAgree children _).bind fun thenPart g₂ =>
        (nodesAgree otherwise _).bind fun elsePart g₃ => .ok _ g₃
  | loop p name collection children =>
    rw [Procedure.compileNode, node]
    split
    · exact .error rfl rfl
    · exact (expressionAgrees p collection b).bind fun e g₁ =>
        (bindingAgrees (nodesAgree children _)).bind fun body g₂ => .ok _ g₂
  | inclusion p name => exact .ok _ _
  | root p children => exact .error rfl rfl
  | foreign p kind className => exact .error rfl rfl

theorem nodesAgree (ns : List Node) (b : Workbench) :
    Agrees b (Procedure.compileNodes b.registry b.bound.flatten b.gathered ns) (nodes ns b) := by
  cases ns with
  | nil => exact .ok _ _
  | cons n ns =>
    rw [Procedure.compileNodes, nodes]
    exact (nodeAgrees n b).bind fun i g₁ => (nodesAgree ns _).bind fun is g₂ => .ok _ g₂

end

/- However a compiler was used before, it compiles a tree as if it had just been made, and its registry stays. -/
theorem compiles (b : Workbench) (tree : Node) :
    b.outcome tree = Procedure.compile b.registry tree ∧ (b.used tree).registry = b.registry := by
  cases tree with
  | root p children =>
    have agrees := nodesAgree children { b with gathered := .nothing, bound := [] }
    simp only [outcome, used, compile, Procedure.compile, Bind.bind, EStateM.bind, Except.bind, modify, modifyGet,
      MonadStateOf.modifyGet, EStateM.modifyGet]
    simp only [List.flatten_nil] at agrees
    generalize Procedure.compileNodes b.registry [] .nothing children = x at agrees ⊢
    generalize nodes children { b with gathered := .nothing, bound := [] } = y at agrees ⊢
    cases agrees with
    | ok a g => exact ⟨rfl, rfl⟩
    | error registry scopes => exact ⟨rfl, registry⟩
  | text | output | conditional | loop | inclusion | foreign => exact ⟨rfl, rfl⟩

theorem afterRegistry (b : Workbench) (trees : List Node) : (b.after trees).registry = b.registry := by
  induction trees generalizing b with
  | nil => rfl
  | cons tree trees ih => rw [after, List.foldl_cons, ← after, ih, (b.compiles tree).2]

end Workbench

/- The dependencies are the paths that no enclosing loop binds, in the order in which they are written, each of them
once. A compiler that has been used gives them as a new one does, however many templates it failed to compile. -/
theorem dependenciesFree (env : Registry) (earlier : List Node) (tree : Node) :
    ((Workbench.fresh env).after earlier).outcome tree = Procedure.compile env tree ∧
      ∀ c, ((Workbench.fresh env).after earlier).outcome tree = .ok c →
        c.dependencies = (tree.freePaths []).eraseDups := by
  have same : ((Workbench.fresh env).after earlier).outcome tree = Procedure.compile env tree := by
    rw [(Workbench.compiles _ tree).1, Workbench.afterRegistry, Workbench.fresh]
  exact ⟨same, fun c ok => Procedure.compiledFree (same.symm.trans ok)⟩

/- A loop in a loop of the same name, over what the outer one binds. -/
def sampleRebound : Node := .root .start
  [.loop .start "x" "x.rows" [.loop .start "x" "x" [.output .start "y"], .output .start "x"], .output .start "x_index"]

def sampleBroken : Node := .root .start [.loop .start "y" "xs" [.output .start "nobody()"]]

set_option maxRecDepth 4000 in
/- The template before it could not be compiled and ended in the body of a loop. -/
theorem dependenciesFreeRebound : ∃ c, ((Workbench.fresh .empty).after [sampleBroken]).outcome sampleRebound = .ok c ∧
    c.dependencies = ["x.rows", "y", "x_index"] := by
  obtain ⟨same, free⟩ := dependenciesFree .empty [sampleBroken] sampleRebound
  have rows : Expr.parse "x.rows" = .ok (.path "x.rows") := by cbv
  have row : Expr.parse "x" = .ok (.path "x") := by cbv
  have other : Output.parse "y" = .ok ⟨"y", .path "y", []⟩ := by cbv
  have item : Output.parse "x" = .ok ⟨"x", .path "x", []⟩ := by cbv
  have index : Output.parse "x_index" = .ok ⟨"x_index", .path "x_index", []⟩ := by cbv
  have outer : (Text.allBlank "x.rows" || !Text.isIdentifier "x".toList) = false := by cbv
  have inner : (Text.allBlank "x" || !Text.isIdentifier "x".toList) = false := by cbv
  obtain ⟨c, compiled⟩ : ∃ c, Procedure.compile .empty sampleRebound = .ok c := by
    simp only [sampleRebound, Procedure.compile, Procedure.compileNodes, Procedure.compileNode, Procedure.compileExpr,
      rows, row, other, item, index, outer, inner]
    exact ⟨_, rfl⟩
  have order : (sampleRebound.freePaths []).eraseDups = ["x.rows", "y", "x_index"] := by cbv
  exact ⟨c, same.trans compiled, (free c (same.trans compiled)).trans order⟩

end Stencil

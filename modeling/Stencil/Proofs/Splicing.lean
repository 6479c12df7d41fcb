import Stencil.Proofs.Indexing
import Stencil.Proofs.Searching

/-! Trees in which every include has given way to the nodes of what it includes, to any depth. They compile if all
the templates on the way do, and read nothing that these do not read. -/
namespace Stencil

namespace Node

/- The nodes under the top of a tree. -/
def body : Node → List Node
  | .root _ children => children
  | n => [n]

mutual

/- What stands in the place of a node; `inner` are the nodes that a name includes. An include that leads nowhere
stays. -/
def splice (inner : String → Option (List Node)) (n : Node) : List Node :=
  match n with
  | .conditional p condition children otherwise =>
    [.conditional p condition (spliceAll inner children) (spliceAll inner otherwise)]
  | .loop p name collection children => [.loop p name collection (spliceAll inner children)]
  | .root p children => [.root p (spliceAll inner children)]
  | .inclusion p name => (inner name).getD [.inclusion p name]
  | n => [n]
termination_by structural n

def spliceAll (inner : String → Option (List Node)) (ns : List Node) : List Node :=
  match ns with
  | [] => []
  | n :: ns => splice inner n ++ spliceAll inner ns
termination_by structural ns

end

/- The paths in the expression of a node, if it has one that can be read. -/
def reads (n : Node) : List String :=
  match n with
  | .output _ source =>
    match Output.parse source with
    | .ok o => o.expression.paths
    | .error _ => []
  | .conditional _ source _ _ | .loop _ _ source _ =>
    match Expr.parse source with
    | .ok e => e.paths
    | .error _ => []
  | _ => []

theorem readsNamed {n : Node} {path : String} (member : path ∈ n.reads) : Expr.Named path := by
  unfold reads at member
  split at member
  · split at member
    · rename_i o parsed
      obtain ⟨source, parsed⟩ := Output.parseSource parsed
      exact Expr.parseNamed parsed member
    · cases member
  · split at member
    · rename_i e parsed
      exact Expr.parseNamed parsed member
    · cases member
  · split at member
    · rename_i e parsed
      exact Expr.parseNamed parsed member
    · cases member
  · cases member

theorem allOfAppend (ns ms : List Node) : allOf (ns ++ ms) = allOf ns ++ allOf ms := by
  induction ns with
  | nil => rfl
  | cons n ns ih => simp [allOf, ih]

theorem bodyMember {n m : Node} (member : m ∈ allOf n.body) : m ∈ n.all := by
  cases n with
  | root p children => simpa [all, body] using .inr member
  | text | output | conditional | loop | inclusion | foreign => simpa [body, allOf] using member

/- A property of nodes that what they hold does not matter for. -/
structure Outward (P : Node → Prop) : Prop where
  conditional : ∀ {p condition children otherwise} children' otherwise',
    P (.conditional p condition children otherwise) → P (.conditional p condition children' otherwise')
  loop : ∀ {p name collection children} children',
    P (.loop p name collection children) → P (.loop p name collection children')
  root : ∀ {p children} children', P (.root p children) → P (.root p children')

/- Not an include that gives way to other nodes. -/
def Stays (inner : String → Option (List Node)) (n : Node) : Prop := ∀ p name, n = .inclusion p name → inner name = none

/- What the nodes give way to has the property. -/
def Supplied (P : Node → Prop) (inner : String → Option (List Node)) (ns : List Node) : Prop :=
  ∀ p name ms, .inclusion p name ∈ ns → inner name = some ms → ∀ m ∈ allOf ms, P m

variable {P : Node → Prop} {inner : String → Option (List Node)}

theorem Supplied.fewer {ns ns' : List Node} (supplied : Supplied P inner ns) (fewer : ns' ⊆ ns) :
    Supplied P inner ns' :=
  fun p name ms member => supplied p name ms (fewer member)

mutual

/- A spliced tree has nodes of the tree, but for what they hold, and nodes of what is included. -/
theorem spliceHolds (outward : Outward P) {n : Node} (holds : ∀ m ∈ n.all, Stays inner m → P m)
    (supplied : Supplied P inner n.all) : ∀ m ∈ allOf (splice inner n), P m := by
  cases n with
  | text | output | foreign => simpa [splice, allOf, Stays, all] using holds
  | conditional p condition children otherwise =>
    simp only [all, List.forall_mem_cons, List.forall_mem_append] at holds
    obtain ⟨here, first, second⟩ := holds
    have thenPart := spliceAllHolds outward first (supplied.fewer (by simp [all]))
    have elsePart := spliceAllHolds outward second (supplied.fewer (by simp [all]))
    simp only [splice, allOf, all, List.append_nil, List.forall_mem_cons, List.forall_mem_append]
    exact ⟨outward.conditional _ _ (here (by simp [Stays])), thenPart, elsePart⟩
  | loop p name collection children =>
    simp only [all, List.forall_mem_cons] at holds
    obtain ⟨here, inside⟩ := holds
    have body := spliceAllHolds outward inside (supplied.fewer (by simp [all]))
    simp only [splice, allOf, all, List.append_nil, List.forall_mem_cons]
    exact ⟨outward.loop _ (here (by simp [Stays])), body⟩
  | root p children =>
    simp only [all, List.forall_mem_cons] at holds
    obtain ⟨here, inside⟩ := holds
    have body := spliceAllHolds outward inside (supplied.fewer (by simp [all]))
    simp only [splice, allOf, all, List.append_nil, List.forall_mem_cons]
    exact ⟨outward.root _ (here (by simp [Stays])), body⟩
  | inclusion p name =>
    rw [splice]
    cases found : inner name with
    | none => simpa [allOf, Stays, all, found] using holds
    | some ns => exact supplied p name ns (by simp [all]) found

theorem spliceAllHolds (outward : Outward P) {ns : List Node} (holds : ∀ m ∈ allOf ns, Stays inner m → P m)
    (supplied : Supplied P inner (allOf ns)) : ∀ m ∈ allOf (spliceAll inner ns), P m := by
  cases ns with
  | nil => simp [spliceAll, allOf]
  | cons n ns =>
    simp only [allOf, List.forall_mem_append] at holds
    simp only [spliceAll, allOfAppend, List.forall_mem_append]
    exact ⟨spliceHolds outward holds.1 (supplied.fewer (by simp [allOf])),
      spliceAllHolds outward holds.2 (supplied.fewer (by simp [allOf]))⟩

end

/- A node that can be compiled, and whose paths lead somewhere. -/
structure Fine (env : Registry) (n : Node) : Prop where
  readable : n.Readable
  known : Procedure.warned env n = []
  numbered : ∀ path ∈ n.reads, Path.Numbered path

theorem fineOutward (env : Registry) : Outward (Fine env) where
  conditional := by
    rintro p condition children otherwise children' otherwise' ⟨readable, known, numbered⟩
    cases readable with
    | conditional parsed => exact ⟨.conditional parsed, known, numbered⟩
  loop := by
    rintro p name collection children children' ⟨readable, known, numbered⟩
    cases readable with
    | loop parsed named => exact ⟨.loop parsed named, known, numbered⟩
  root := by
    rintro p children children' ⟨readable, -, -⟩
    cases readable

end Node

namespace Procedure

open Node

variable {env : Registry} {p : Position}

theorem registerReads {bound : List String} {g g' : Gathered} {e : Expr}
    (ok : register env bound p g e = .ok g') : ∀ path ∈ g'.paths, path ∈ g.paths ∨ path ∈ e.paths := by
  have known : ∀ name ∈ e.functions, ∃ c, env.get? .function name = some c := by
    intro name member
    obtain ⟨c, known, -⟩ := (bindsFunctions ok).2 name member
    exact ⟨c, known⟩
  obtain ⟨g'', ok', added⟩ := registersKnown bound p g known
  rw [ok] at ok'
  cases ok'
  exact added

theorem exprReads {bound : List String} {g g' : Gathered} {text : String} {e : Expr}
    (ok : compileExpr env bound p g text = .ok (e, g')) :
    Expr.parse text = .ok e ∧ ∀ path ∈ g'.paths, path ∈ g.paths ∨ path ∈ e.paths := by
  obtain ⟨e', parsed, ok⟩ := boundOk ok
  obtain ⟨h, registered, ok⟩ := boundOk ok
  cases ok
  exact ⟨mappedOk parsed, registerReads registered⟩

mutual

/- What is gathered of a node is read in it. -/
theorem compileReads {bound : List String} {g g' : Gathered} {n : Node} {i : Instruction}
    (ok : compileNode env bound g n = .ok (i, g')) :
    ∀ path ∈ g'.paths, path ∈ g.paths ∨ ∃ m ∈ n.all, path ∈ m.reads := by
  cases n with
  | text p s =>
    cases ok
    exact fun path member => .inl member
  | inclusion p name =>
    cases ok
    exact fun path member => .inl member
  | output p text =>
    obtain ⟨o, parsed, ok⟩ := boundOk ok
    obtain ⟨h, registered, ok⟩ := boundOk ok
    obtain ⟨filters, binds, ok⟩ := boundOk ok
    cases ok
    intro path member
    refine (registerReads registered path member).imp_right fun here => ⟨_, memSelf _, ?_⟩
    simpa only [reads, mappedOk parsed] using here
  | conditional p condition children otherwise =>
    rw [compileNode] at ok
    split at ok
    · simp at ok
    · obtain ⟨⟨e, g₁⟩, read, ok⟩ := boundOk ok
      obtain ⟨⟨thenPart, g₂⟩, first, ok⟩ := boundOk ok
      obtain ⟨⟨elsePart, g₃⟩, second, ok⟩ := boundOk ok
      cases ok
      obtain ⟨parsed, added⟩ := exprReads read
      intro path member
      rcases compileAllReads second path member with member | ⟨m, inside, here⟩
      · rcases compileAllReads first path member with member | ⟨m, inside, here⟩
        · refine (added path member).imp_right fun here => ⟨_, memSelf _, ?_⟩
          simpa only [reads, parsed] using here
        · exact .inr ⟨m, by simp [all, inside], here⟩
      · exact .inr ⟨m, by simp [all, inside], here⟩
  | loop p name collection children =>
    rw [compileNode] at ok
    split at ok
    · simp at ok
    · obtain ⟨⟨e, g₁⟩, read, ok⟩ := boundOk ok
      obtain ⟨⟨body, g₂⟩, inner, ok⟩ := boundOk ok
      cases ok
      obtain ⟨parsed, added⟩ := exprReads read
      intro path member
      rcases compileAllReads inner path member with member | ⟨m, inside, here⟩
      · refine (added path member).imp_right fun here => ⟨_, memSelf _, ?_⟩
        simpa only [reads, parsed] using here
      · exact .inr ⟨m, by simp [all, inside], here⟩
  | root p children => cases ok
  | foreign p kind className => cases ok

theorem compileAllReads {bound : List String} {g g' : Gathered} {ns : List Node} {is : List Instruction}
    (ok : compileNodes env bound g ns = .ok (is, g')) :
    ∀ path ∈ g'.paths, path ∈ g.paths ∨ ∃ m ∈ allOf ns, path ∈ m.reads := by
  cases ns with
  | nil =>
    cases ok
    exact fun path member => .inl member
  | cons n ns =>
    obtain ⟨⟨i, g₁⟩, one, ok⟩ := boundOk ok
    obtain ⟨⟨is, g₂⟩, others, ok⟩ := boundOk ok
    cases ok
    intro path member
    rcases compileAllReads others path member with member | ⟨m, inside, here⟩
    · refine (compileReads one path member).imp_right ?_
      rintro ⟨m, inside, here⟩
      exact ⟨m, by simp [allOf, inside], here⟩
    · exact .inr ⟨m, by simp [allOf, inside], here⟩

end

/- Fine nodes make a procedure, and all that it looks up leads somewhere. -/
theorem compileFine {ns : List Node} (fine : ∀ m ∈ allOf ns, Fine env m) :
    ∃ c, compile env (.root p ns) = .ok c ∧ ∀ path ∈ c.dependencies, Path.Numbered path := by
  have nothing : (allOf ns).flatMap (warned env) = [] :=
    List.flatMap_eq_nil_iff.mpr fun m member => (fine m member).known
  have answers : Answers ((allOf ns).flatMap (warned env)) (compileNodes env [] .nothing ns) :=
    compileAllAnswers fun m member => (fine m member).readable
  rw [nothing] at answers
  obtain ⟨⟨is, g⟩, made⟩ := answers
  refine ⟨⟨⟨is, g.functions, env.revision⟩, g.paths⟩, by rw [compile, made]; rfl, fun path member => ?_⟩
  rcases compileAllReads made path member with none | ⟨m, inside, here⟩
  · cases none
  · exact (fine m inside).numbered path here

theorem compiledKnown {ns : List Node} {c : Compiled} (readable : ∀ m ∈ allOf ns, m.Readable)
    (ok : compile env (.root p ns) = .ok c) : ∀ m ∈ allOf ns, warned env m = [] := by
  have answers : Answers ((allOf ns).flatMap (warned env)) (compile env (.root p ns)) :=
    (compileAllAnswers readable).map
  rw [ok] at answers
  cases all : (allOf ns).flatMap (warned env) with
  | nil => exact List.flatMap_eq_nil_iff.mp all
  | cons w ws =>
    rw [all] at answers
    obtain ⟨fault, failed, -⟩ := answers
    cases failed

end Procedure

namespace Engine

open Node

/- The nodes of what a name includes, with the next includes replaced in them, down to a depth. -/
def included (e : Engine) : Nat → String → Option (List Node)
  | 0, _ => none
  | remaining + 1, name =>
    match e.source name with
    | .error _ => none
    | .ok other =>
      match e.build other with
      | .error _ => none
      | .ok p => some (spliceAll (e.included remaining) p.template.tree.body)

/- A tree with all that it includes in its place. -/
def inlined (e : Engine) : Node → Node
  | .root p children => .root p (spliceAll (e.included e.settings.includeDepth.toNat) children)
  | n => n

/- Not an include, or one that leads nowhere. -/
def Spent (e : Engine) (n : Node) : Prop := ∀ p name, n = .inclusion p name → ∃ fault, e.source name = .error fault

/- The text itself, and the texts that a chain of includes leads to, with the length of the chain. -/
inductive Reaches (e : Engine) (text : String) : Nat → String → Prop where
  | self : Reaches e text 0 text
  | through {k other p q name next} (outer : Reaches e text k other) (built : e.build other = .ok p)
      (member : .inclusion q name ∈ p.template.tree.all) (found : e.source name = .ok next) :
      Reaches e text (k + 1) next

def reached (e : Engine) (text : String) : Set String := {other | ∃ k, e.Reaches text k other}

/- All that a text leads to compiles and reads only such paths, and no chain of includes is longer than it may be. -/
structure Inlinable (e : Engine) (paths : String → Prop) (text : String) : Prop where
  builds : ∀ {k other}, e.Reaches text k other → ∃ p, e.build other = .ok p
  shallow : ∀ {k other p q name}, e.Reaches text k other → e.build other = .ok p →
    .inclusion q name ∈ p.template.tree.all → k < e.settings.includeDepth.toNat
  reads : ∀ {k other p n path}, e.Reaches text k other → e.build other = .ok p → n ∈ p.template.tree.all →
    path ∈ n.reads → paths path

variable {e : Engine} {text other : String} {k : Nat} {p : Processed}

theorem builtTree (built : e.build other = .ok p) : ∃ nodes c, p.template.tree = .root .start nodes ∧
    Procedure.compile e.registry (.root .start nodes) = .ok c ∧ p.template.procedure = c.procedure ∧
    p.template.dependencies = c.dependencies ∧ ∀ m ∈ allOf nodes, m.Readable := by
  obtain ⟨tokens, tree, c, -, read, compiled, rfl⟩ := buildOk.mp built
  obtain ⟨nodes, rfl, made⟩ := treeRead read
  have proper := readProper made properNone (by simp)
  obtain ⟨_, children, k, same, -, -, translates⟩ := Procedure.compiled compiled
  cases same
  exact ⟨nodes, c, rfl, compiled, rfl, rfl, Procedure.translatesAllReadable translates proper⟩

namespace Inlinable

section

variable {paths : String → Prop}

/- What every text on the way gives to the spliced tree decides about the tree. -/
theorem includedHolds (inlinable : e.Inlinable paths text) {P : Node → Prop} (outward : Outward P)
    (holds : ∀ {k remaining other p}, e.Reaches text k other → e.build other = .ok p →
      k + remaining = e.settings.includeDepth.toNat →
      ∀ m ∈ allOf p.template.tree.body, Stays (e.included remaining) m → P m)
    {remaining : Nat} (deep : k + remaining = e.settings.includeDepth.toNat) (reached : e.Reaches text k other)
    (built : e.build other = .ok p) : ∀ m ∈ allOf (spliceAll (e.included remaining) p.template.tree.body), P m := by
  induction remaining generalizing k other p with
  | zero =>
    refine spliceAllHolds outward (holds reached built deep) ?_
    rintro q name ns member ⟨⟩
  | succ remaining ih =>
    refine spliceAllHolds outward (holds reached built deep) fun q name ns member found => ?_
    rw [included] at found
    split at found
    · cases found
    · rename_i next source
      have reached' := Reaches.through reached built (bodyMember member) source
      obtain ⟨p', built'⟩ := inlinable.builds reached'
      rw [built'] at found
      cases found
      exact ih (by omega) reached' built'

/- Only the includes are left that lead nowhere. -/
theorem left (inlinable : e.Inlinable paths text) (built : e.build text = .ok p) :
    ∀ m ∈ (e.inlined p.template.tree).all, e.Spent m := by
  have outward : Outward e.Spent := ⟨by simp [Spent], by simp [Spent], by simp [Spent]⟩
  have spent := inlinable.includedHolds outward ?_ (Nat.zero_add _) .self built
  · obtain ⟨nodes, c, tree, -⟩ := builtTree built
    rw [tree] at spent ⊢
    simp only [inlined, all, List.forall_mem_cons]
    exact ⟨by simp [Spent], spent⟩
  · rintro k remaining other p reached built deep m member stays q name rfl
    have shallow := inlinable.shallow reached built (bodyMember member)
    have nothing := stays q name rfl
    obtain ⟨depth, rfl⟩ : ∃ depth, remaining = depth + 1 := Nat.exists_eq_succ_of_ne_zero (by omega)
    rw [included] at nothing
    split at nothing
    · exact ⟨_, ‹_›⟩
    · rename_i next source
      obtain ⟨p', built'⟩ := inlinable.builds (.through reached built (bodyMember member) source)
      rw [built'] at nothing
      cases nothing

end

theorem fine (inlinable : e.Inlinable Path.Plain text) (reached : e.Reaches text k other)
    (built : e.build other = .ok p) :
    ∀ m ∈ allOf p.template.tree.body, Fine e.registry m := by
  obtain ⟨nodes, c, tree, compiled, -, -, readable⟩ := builtTree built
  have known := Procedure.compiledKnown readable compiled
  intro m member
  have inside : m ∈ allOf nodes := by simpa only [tree, body] using member
  refine ⟨readable m inside, known m inside, fun path here => ?_⟩
  have plain := inlinable.reads reached built (bodyMember member) here
  exact Path.plainNumbered plain (Expr.namedUnsigned (readsNamed here))

theorem numbered (inlinable : e.Inlinable Path.Plain text) (reached : e.Reaches text k other)
    (built : e.build other = .ok p) :
    ∀ path ∈ p.template.dependencies, Path.Numbered path := by
  have fine := inlinable.fine reached built
  obtain ⟨nodes, c, tree, compiled, -, dependencies, -⟩ := builtTree built
  rw [tree] at fine
  obtain ⟨c', compiled', numbered⟩ := Procedure.compileFine fine
  rw [body, compiled] at compiled'
  cases compiled'
  rwa [dependencies]

theorem compiles (inlinable : e.Inlinable Path.Plain text) (built : e.build text = .ok p) :
    ∃ c, Procedure.compile e.registry (e.inlined p.template.tree) = .ok c ∧
      ∀ path ∈ c.dependencies, Path.Numbered path := by
  have fine := inlinable.includedHolds (fineOutward e.registry)
    (fun reached built _ m member _ => inlinable.fine reached built m member) (Nat.zero_add _) .self built
  obtain ⟨nodes, c, tree, -⟩ := builtTree built
  rw [tree] at fine ⊢
  exact Procedure.compileFine fine

end Inlinable

end Engine
end Stencil

import Stencil.Procedure.Compiler
import Stencil.Proofs.Lexemes

/-! What the compiler makes of a tree, node by node: every instruction stands for its node, every name is
bound to what the registry has under it, and every path that no loop binds is a dependency. -/
namespace Stencil

theorem boundOk {x : Except ε α} {f : α → Except ε β} {b : β} (ok : (x >>= f) = .ok b) :
    ∃ a, x = .ok a ∧ f a = .ok b := by
  cases x with
  | error e => simp [bind, Except.bind] at ok
  | ok a => exact ⟨a, rfl, ok⟩

theorem mappedOk {x : Except ε α} {f : ε → ε'} {a : α} (ok : x.mapError f = .ok a) : x = .ok a := by
  cases x with
  | error e => simp [Except.mapError] at ok
  | ok b => simpa [Except.mapError] using ok

theorem Output.parseSource {text : String} {o : Output} (ok : Output.parse text = .ok o) :
    ∃ source, Expr.parse source = .ok o.expression := by
  rw [Output.parse] at ok
  split at ok
  · cases ok
  · split at ok
    · cases ok
    · obtain ⟨e, parsed, ok⟩ := boundOk ok
      obtain ⟨filters, _, ok⟩ := boundOk ok
      cases ok
      exact ⟨_, parsed⟩

theorem Output.parseRooted {text : String} {o : Output} (ok : Output.parse text = .ok o) {path : String}
    (member : path ∈ o.expression.paths) : Expr.Rooted path := by
  obtain ⟨source, parsed⟩ := Output.parseSource ok
  exact Expr.parseRooted parsed member

namespace Bindings

theorem lookupReplaced (bs : Bindings) (name other : String) (c : Callable) :
    (bs.map fun b => if b.1 == name then (name, c) else b).lookup other =
      if other = name then (bs.lookup name).map (fun _ => c) else bs.lookup other := by
  induction bs with
  | nil => simp
  | cons b bs ih =>
    obtain ⟨key, old⟩ := b
    simp only [List.map_cons, List.lookup_cons]
    grind

theorem lookupInsert (bs : Bindings) (name other : String) (c : Callable) :
    (bs.insert name c).lookup other = if other = name then some c else bs.lookup other := by
  rw [insert]
  split
  · rename_i present
    obtain ⟨old, present⟩ := Option.isSome_iff_exists.mp present
    rw [lookupReplaced, present, Option.map_some]
  · rename_i absent
    have absent : bs.lookup name = none := by rwa [Option.not_isSome_iff_eq_none] at absent
    rw [List.lookup_append, List.lookup_cons, List.lookup_nil]
    by_cases same : other = name
    · simp [same, absent]
    · simp [same, beq_false_of_ne same]

end Bindings

namespace Gathered

/- What `g` knows, `k` knows too, as far as it agrees with the registry. -/
structure Grows (env : Registry) (g k : Gathered) : Prop where
  paths : g.paths ⊆ k.paths
  functions : ∀ {name c}, env.get? .function name = some c → g.functions.lookup name = some c →
    k.functions.lookup name = some c

variable {env : Registry} {bound : List String} {p : Position} {g h k : Gathered}

theorem Grows.refl : Grows env g g := ⟨List.Subset.refl _, fun _ here => here⟩

theorem Grows.trans (first : Grows env g h) (second : Grows env h k) : Grows env g k :=
  ⟨List.Subset.trans first.paths second.paths,
    fun known here => second.functions known (first.functions known here)⟩

theorem growsPath (path : String) : Grows env g (g.addPath bound path) := by
  rw [addPath]
  split
  · exact .refl
  · exact ⟨fun q member => mem_appendNew.mpr (.inr member), fun _ here => here⟩

theorem growsPaths (env : Registry) (paths : List String) : Grows env g (paths.foldl (addPath bound) g) := by
  induction paths generalizing g with
  | nil => exact .refl
  | cons path paths ih => exact (growsPath path).trans ih

theorem growsFunction {name : String} {c : Callable} (known : env.get? .function name = some c) :
    Grows env g (g.addFunction name c) := by
  refine ⟨List.Subset.refl _, ?_⟩
  intro other d known' here
  rw [addFunction, Bindings.lookupInsert]
  split
  · rename_i same
    subst same
    rw [← known, known']
  · exact here

/- All that a compiled expression needs is known. -/
structure Notes (env : Registry) (bound : List String) (k : Gathered) (e : Expr) : Prop where
  paths : ∀ path ∈ e.paths, Path.root path ∈ bound ∨ path ∈ k.paths
  functions : ∀ name ∈ e.functions, ∃ c, env.get? .function name = some c ∧
    k.functions.lookup name = some c

theorem Notes.grow {e : Expr} (notes : Notes env bound g e) (grows : Grows env g k) :
    Notes env bound k e := by
  refine ⟨fun path member => (notes.paths path member).imp_right (@grows.paths path), ?_⟩
  intro name member
  obtain ⟨c, known, here⟩ := notes.functions name member
  exact ⟨c, known, grows.functions known here⟩

end Gathered

namespace Procedure

open Gathered

mutual

inductive Translates (env : Registry) (k : Gathered) : List String → Node → Instruction → Prop where
  | text {bound p s} : Translates env k bound (.text p s) (.text s)
  | output {bound p text o filters} (parsed : Output.parse text = .ok o)
      (notes : Notes env bound k o.expression) (binds : bindFilters env p o.filters = .ok filters) :
      Translates env k bound (.output p text) (.emit p o.source o.expression filters)
  | conditional {bound p condition children otherwise e thenPart elsePart}
      (parsed : Expr.parse condition = .ok e) (notes : Notes env bound k e)
      (first : TranslatesAll env k bound children thenPart)
      (second : TranslatesAll env k bound otherwise elsePart) :
      Translates env k bound (.conditional p condition children otherwise)
        (.branch p e thenPart elsePart)
  | loop {bound p name collection children e body} (parsed : Expr.parse collection = .ok e)
      (notes : Notes env bound k e)
      (inner : TranslatesAll env k (loopNames name ++ bound) children body) :
      Translates env k bound (.loop p name collection children) (.iterate p name e body)
  | inclusion {bound p name} : Translates env k bound (.inclusion p name) (.inclusion p name)

inductive TranslatesAll (env : Registry) (k : Gathered) :
    List String → List Node → List Instruction → Prop where
  | nil {bound} : TranslatesAll env k bound [] []
  | cons {bound n ns i is} (first : Translates env k bound n i)
      (others : TranslatesAll env k bound ns is) : TranslatesAll env k bound (n :: ns) (i :: is)

end

variable {env : Registry} {bound : List String} {p : Position} {g g' k : Gathered}

theorem bindsFunctions {names : List String} (ok : bindFunctions env p g names = .ok g') :
    Grows env g g' ∧ ∀ name ∈ names, ∃ c, env.get? .function name = some c ∧
      g'.functions.lookup name = some c := by
  induction names generalizing g with
  | nil =>
    cases ok
    exact ⟨.refl, by simp⟩
  | cons name names ih =>
    rw [bindFunctions] at ok
    split at ok
    · simp at ok
    · rename_i c known
      obtain ⟨grows, others⟩ := ih ok
      refine ⟨(growsFunction known).trans grows, ?_⟩
      intro word member
      rcases List.mem_cons.mp member with rfl | later
      · exact ⟨c, known, grows.functions known (by simp [addFunction, Bindings.lookupInsert])⟩
      · exact others word later

theorem notesPaths (env : Registry) {paths : List String} : ∀ path ∈ paths,
    Path.root path ∈ bound ∨ path ∈ (paths.foldl (addPath bound) g).paths := by
  induction paths generalizing g with
  | nil => simp
  | cons first paths ih =>
    intro path member
    rcases List.mem_cons.mp member with rfl | later
    · by_cases inside : Path.root path ∈ bound
      · exact .inl inside
      · have here : path ∈ (g.addPath bound path).paths := by
          simp [addPath, inside, mem_appendNew]
        exact .inr ((growsPaths env paths).paths here)
    · exact ih path later

theorem addedPath (g : Gathered) (path : String) : ∀ other ∈ (g.addPath bound path).paths,
    other ∈ g.paths ∨ other = path := by
  intro other member
  rw [addPath] at member
  split at member
  · exact .inl member
  · exact (mem_appendNew.mp member).symm

theorem addedPaths (g : Gathered) (paths : List String) :
    ∀ path ∈ (paths.foldl (addPath bound) g).paths, path ∈ g.paths ∨ path ∈ paths := by
  induction paths generalizing g with
  | nil => simp
  | cons first paths ih =>
    intro path member
    rcases ih _ path member with here | later
    · rcases addedPath g first path here with old | rfl
      · exact .inl old
      · exact .inr (by simp)
    · exact .inr (List.mem_cons_of_mem _ later)

theorem bindsKnown {names : List String} (p : Position) (g : Gathered)
    (known : ∀ name ∈ names, ∃ c, env.get? .function name = some c) :
    ∃ g', bindFunctions env p g names = .ok g' ∧ g'.paths = g.paths := by
  induction names generalizing g with
  | nil => exact ⟨g, rfl, rfl⟩
  | cons name names ih =>
    obtain ⟨c, here⟩ := known name (by simp)
    obtain ⟨g', ok, same⟩ := ih (g.addFunction name c) fun other member =>
      known other (List.mem_cons_of_mem _ member)
    exact ⟨g', by simpa only [bindFunctions, here] using ok, same⟩

/- Where all its functions are registered, an expression can be compiled. -/
theorem registersKnown {e : Expr} (bound : List String) (p : Position) (g : Gathered)
    (known : ∀ name ∈ e.functions, ∃ c, env.get? .function name = some c) :
    ∃ g', register env bound p g e = .ok g' ∧ ∀ path ∈ g'.paths, path ∈ g.paths ∨ path ∈ e.paths := by
  obtain ⟨g', ok, same⟩ := bindsKnown p (e.paths.foldl (addPath bound) g) known
  exact ⟨g', ok, by rw [same]; exact addedPaths g e.paths⟩

theorem registers {e : Expr} (ok : register env bound p g e = .ok g') :
    Grows env g g' ∧ Notes env bound g' e := by
  obtain ⟨grows, functions⟩ := bindsFunctions ok
  refine ⟨(growsPaths env e.paths).trans grows, fun path member => ?_, functions⟩
  exact (notesPaths env path member).imp_right (@grows.paths path)

theorem compilesExpr {text : String} {e : Expr} (ok : compileExpr env bound p g text = .ok (e, g')) :
    Expr.parse text = .ok e ∧ Grows env g g' ∧ Notes env bound g' e := by
  obtain ⟨e', parsed, ok⟩ := boundOk ok
  obtain ⟨h, registered, ok⟩ := boundOk ok
  cases ok
  exact ⟨mappedOk parsed, registers registered⟩

mutual

theorem compileTranslates {bound : List String} {g g' : Gathered} {n : Node} {i : Instruction}
    (ok : compileNode env bound g n = .ok (i, g')) :
    Grows env g g' ∧ ∀ k, Grows env g' k → Translates env k bound n i := by
  cases n with
  | text p s =>
    cases ok
    exact ⟨.refl, fun _ _ => .text⟩
  | output p text =>
    obtain ⟨o, parsed, ok⟩ := boundOk ok
    obtain ⟨h, registered, ok⟩ := boundOk ok
    obtain ⟨filters, binds, ok⟩ := boundOk ok
    cases ok
    obtain ⟨grows, notes⟩ := registers registered
    exact ⟨grows, fun k more => .output (mappedOk parsed) (notes.grow more) binds⟩
  | conditional p condition children otherwise =>
    rw [compileNode] at ok
    split at ok
    · simp at ok
    · obtain ⟨⟨e, g₁⟩, read, ok⟩ := boundOk ok
      obtain ⟨⟨thenPart, g₂⟩, first, ok⟩ := boundOk ok
      obtain ⟨⟨elsePart, g₃⟩, second, ok⟩ := boundOk ok
      cases ok
      obtain ⟨parsed, grows₁, notes⟩ := compilesExpr read
      -- What the branches add later leaves the notes of the condition as they are.
      obtain ⟨grows₂, first⟩ := compileAllTranslates first
      obtain ⟨grows₃, second⟩ := compileAllTranslates second
      refine ⟨grows₁.trans (grows₂.trans grows₃), fun k more => ?_⟩
      have more₂ := grows₃.trans more
      exact .conditional parsed (notes.grow (grows₂.trans more₂)) (first k more₂) (second k more)
  | loop p name collection children =>
    rw [compileNode] at ok
    split at ok
    · simp at ok
    · obtain ⟨⟨e, g₁⟩, read, ok⟩ := boundOk ok
      obtain ⟨⟨body, g₂⟩, inner, ok⟩ := boundOk ok
      cases ok
      obtain ⟨parsed, grows₁, notes⟩ := compilesExpr read
      obtain ⟨grows₂, inner⟩ := compileAllTranslates inner
      refine ⟨grows₁.trans grows₂, fun k more => ?_⟩
      exact .loop parsed (notes.grow (grows₂.trans more)) (inner k more)
  | inclusion p name =>
    cases ok
    exact ⟨.refl, fun _ _ => .inclusion⟩
  | root p children => cases ok
  | foreign p kind className => cases ok

theorem compileAllTranslates {bound : List String} {g g' : Gathered} {ns : List Node}
    {is : List Instruction} (ok : compileNodes env bound g ns = .ok (is, g')) :
    Grows env g g' ∧ ∀ k, Grows env g' k → TranslatesAll env k bound ns is := by
  cases ns with
  | nil =>
    cases ok
    exact ⟨.refl, fun _ _ => .nil⟩
  | cons n ns =>
    obtain ⟨⟨i, g₁⟩, one, ok⟩ := boundOk ok
    obtain ⟨⟨is, g₂⟩, all, ok⟩ := boundOk ok
    cases ok
    obtain ⟨grows₁, first⟩ := compileTranslates one
    obtain ⟨grows₂, others⟩ := compileAllTranslates all
    exact ⟨grows₁.trans grows₂, fun k more => .cons (first k (grows₂.trans more)) (others k more)⟩

end

/- What is known of a compiled tree in the end; it fixes what the procedure may refer to. -/
theorem compiled {env : Registry} {tree : Node} {c : Compiled} (ok : compile env tree = .ok c) :
    ∃ p children k, tree = .root p children ∧ k.paths = c.dependencies ∧
      k.functions = c.procedure.functions ∧
      TranslatesAll env k [] children c.procedure.instructions := by
  cases tree with
  | root p children =>
    obtain ⟨⟨is, k⟩, all, ok⟩ := boundOk ok
    cases ok
    exact ⟨p, children, k, rfl, rfl, rfl, (compileAllTranslates all).2 k .refl⟩
  | text | output | conditional | loop | inclusion | foreign => cases ok

end Procedure
end Stencil

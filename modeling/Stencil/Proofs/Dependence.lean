import Stencil.Proofs.Caching
import Stencil.Proofs.Inclusion
import Stencil.Proofs.Settled
import Stencil.Proofs.Translation

/-! A render depends on its variables only through the dependencies that were declared for its template and
for the templates that it includes. There is no time limit; strict mode and failing handlers are allowed. -/
namespace Stencil

open Stencil.Expr (Rooted)

namespace Template

/- A template that the compiler made, with whatever callables there were then. -/
def Compiled (t : Template) : Prop :=
  ∃ registry tree c, Procedure.compile registry tree = .ok c ∧ t.procedure = c.procedure ∧
    t.dependencies = c.dependencies

end Template

namespace Procedure

variable {declared : String → Prop} {env : Registry} {k : Gathered}

theorem notesReadable (known : ∀ path ∈ k.paths, declared path) {bound : List String} {e : Expr}
    (notes : k.Notes env bound e) (rooted : ∀ path ∈ e.paths, Rooted path) :
    ∀ path ∈ e.paths, Readable declared bound path := by
  intro path member
  obtain ⟨rest, parts⟩ := rooted path member
  rcases notes.paths path member with inside | listed
  · exact .inr ⟨_, rest, parts, inside⟩
  · exact .inl (known path listed)

mutual

theorem translatesScoped (known : ∀ path ∈ k.paths, declared path) {bound : List String} {n : Node}
    {i : Instruction} (translates : Translates env k bound n i) : i.Scoped declared bound := by
  cases translates with
  | text | inclusion => trivial
  | output parsed notes _ => exact notesReadable known notes fun path => Output.parseRooted parsed
  | conditional parsed notes first second =>
    exact ⟨notesReadable known notes fun path => Expr.parseRooted parsed, translatesAllScoped known first,
      translatesAllScoped known second⟩
  | loop parsed notes inner =>
    exact ⟨notesReadable known notes fun path => Expr.parseRooted parsed, translatesAllScoped known inner⟩

theorem translatesAllScoped (known : ∀ path ∈ k.paths, declared path) {bound : List String}
    {ns : List Node} {is : List Instruction} (translates : TranslatesAll env k bound ns is) :
    Instruction.ScopedAll declared bound is := by
  cases translates with
  | nil => trivial
  | cons first others => exact ⟨translatesScoped known first, translatesAllScoped known others⟩

end

end Procedure

/- What no enclosing loop binds is a dependency. -/
theorem Template.Compiled.wellScoped {t : Template} (made : t.Compiled) {declared : String → Prop}
    (known : ∀ path ∈ t.dependencies, declared path) :
    Instruction.ScopedAll declared [] t.procedure.instructions := by
  obtain ⟨registry, tree, c, ok, procedure, dependencies⟩ := made
  obtain ⟨p, children, k, -, paths, -, translates⟩ := Procedure.compiled ok
  rw [procedure]
  refine Procedure.translatesAllScoped (fun path member => known path ?_) translates
  rw [dependencies, ← paths]
  exact member

theorem Engine.buildCompiled {e : Engine} {text : String} {p : Processed} (ok : e.build text = .ok p) :
    p.template.Compiled := by
  obtain ⟨tokens, tree, c, -, -, compiled, rfl⟩ := Engine.buildOk.mp ok
  exact ⟨e.registry, tree, c, compiled, rfl, rfl⟩

/- The template itself and those that includes lead to, be they compiled anew or found in the cache. -/
inductive Reachable (e : Engine) (cache : Cache Template) (t : Template) : Template → Prop where
  | self : Reachable e cache t t
  | built {u name text p} (outer : Reachable e cache t u)
      (member : name ∈ Instruction.inclusionsOf u.procedure.instructions)
      (found : e.source name = .ok text) (ok : e.build text = .ok p) : Reachable e cache t p.template
  | kept {u name text entry} (outer : Reachable e cache t u)
      (member : name ∈ Instruction.inclusionsOf u.procedure.instructions)
      (found : e.source name = .ok text) (held : entry ∈ cache.entries)
      (key : entry.key = Digest.sha1 text) (current : entry.revision = e.registry.revision) :
      Reachable e cache t entry.item

theorem Reachable.compiled {e : Engine} {cache : Cache Template} {t u : Template}
    (reachable : Reachable e cache t u) (made : t.Compiled)
    (kept : ∀ entry ∈ cache.entries, entry.item.Compiled) : u.Compiled := by
  cases reachable with
  | self => exact made
  | built _ _ _ ok => exact Engine.buildCompiled ok
  | kept _ _ _ held => exact kept _ held

/- Two renders that differ in their variables alone, and in these only where nothing is declared. -/
structure Alike (e : Engine) (cache : Cache Template) (t : Template) (other : Value)
    (declared : String → Prop) (scopes : List Scope) (s s' : RunState) : Prop where
  same : s' = { s with frame := { s.frame with vars := other } }
  scopes : s.frame.scopes = scopes
  unlimited : s.frame.deadline = none
  agree : ∀ path, declared path → rawValue s.frame.vars s.frame.options.defaults path =
    rawValue other s.frame.options.defaults path
  cached : ∀ entry ∈ s.world.cache.entries, entry ∈ cache.entries ∨ Reachable e cache t entry.item

namespace Alike

variable {e : Engine} {cache : Cache Template} {t : Template} {other : Value} {declared : String → Prop}

theorem callCoupled (scopes : List Scope) (c : Callable) (args : List Value) :
    Coupled (Alike e cache t other declared scopes) (Run.call e.host c args) (Run.call e.host c args) := by
  rintro s s' ⟨rfl, shut, unlimited, agree, cached⟩
  exact .ok _ ⟨rfl, shut, unlimited, agree, cached⟩

theorem stepwise : Stepwise e.host declared (Alike e cache t other declared) where
  scopes := by
    rintro scopes s s' ⟨rfl, shut, _, _, _⟩
    exact ⟨shut, shut⟩
  options := by
    rintro scopes s s' ⟨rfl, _, _, _, _⟩
    rfl
  entering := by
    rintro scopes s s' scope ⟨rfl, shut, unlimited, agree, cached⟩
    exact ⟨rfl, by rw [← shut]; rfl, unlimited, agree, cached⟩
  leaving := by
    rintro scope scopes s s' ⟨rfl, shut, unlimited, agree, cached⟩
    exact ⟨rfl, by simp [RunState.leaving, shut], unlimited, agree, cached⟩
  writing := by
    rintro scopes s s' text ⟨rfl, shut, unlimited, agree, cached⟩
    exact ⟨rfl, shut, unlimited, agree, cached⟩
  finding := by
    rintro scopes s s' path ⟨rfl, shut, unlimited, agree, cached⟩
    exact ⟨rfl, shut, unlimited, agree, cached⟩
  lacking := by
    rintro scopes s s' path ⟨rfl, shut, unlimited, agree, cached⟩
    exact ⟨rfl, shut, unlimited, agree, cached⟩
  deadline := by
    intro scopes s s' alike
    have unlimited : s'.frame.deadline = none := by rw [alike.same]; exact alike.unlimited
    rw [Run.checkDeadlineUnlimited e.host alike.unlimited, Run.checkDeadlineUnlimited e.host unlimited]
    exact .ok () alike
  lookup scopes path known := by
    refine Run.lookupCoupled ?_ (callCoupled scopes) ?_
    · rintro s s' ⟨rfl, _, _, agree, _⟩
      exact ⟨agree path known, rfl, rfl, rfl⟩
    · rintro s s' v ⟨rfl, shut, unlimited, agree, cached⟩
      exact ⟨rfl, shut, unlimited, agree, cached⟩
  call scopes c args := callCoupled scopes c args

theorem loadCoupled (scopes : List Scope) {u : Template} {name text : String}
    (reachable : Reachable e cache t u)
    (member : name ∈ Instruction.inclusionsOf u.procedure.instructions)
    (found : e.source name = .ok text) :
    Coupled (Alike e cache t other declared scopes) (e.load text) (e.load text) := by
  rintro s s' ⟨rfl, shut, unlimited, agree, cached⟩
  obtain ⟨adds, -⟩ := e.processEnds text s.world.cache
  have cached' : ∀ entry ∈ (e.process text true s.world.cache).2.entries,
      entry ∈ cache.entries ∨ Reachable e cache t entry.item := by
    intro entry inside
    rcases adds entry inside with old | ⟨p, built, rfl⟩
    · exact cached entry old
    · exact .inr (.built reachable member found built)
  rw [Engine.loadEnds, Engine.loadEnds]
  cases (e.process text true s.world.cache).1 with
  | ok p => exact .ok _ ⟨rfl, shut, unlimited, agree, cached'⟩
  | error fault => exact .error _ ⟨rfl, shut, unlimited, agree, cached'⟩

theorem loadGives {scopes : List Scope} {u v : Template} {name text : String} {s s' s'' : RunState}
    (reachable : Reachable e cache t u)
    (member : name ∈ Instruction.inclusionsOf u.procedure.instructions)
    (found : e.source name = .ok text) (alike : Alike e cache t other declared scopes s s')
    (ok : e.load text s = .ok v s'') : Reachable e cache t v := by
  rw [Engine.loadEnds] at ok
  obtain ⟨-, result⟩ := e.processEnds text s.world.cache
  rcases result with fresh | ⟨entry, inside, key, current, hit⟩
  · cases built : e.build text with
    | error fault => simp [fresh, built] at ok
    | ok p =>
      simp only [fresh, built] at ok
      cases ok
      exact .built reachable member found built
  · simp only [hit] at ok
    cases ok
    rcases alike.cached entry inside with held | earlier
    · exact .kept reachable member found held key current
    · exact earlier

theorem including (made : t.Compiled) (kept : ∀ entry ∈ cache.entries, entry.item.Compiled)
    (known : ∀ u, Reachable e cache t u → ∀ path ∈ u.dependencies, declared path) :
    Including e declared (Alike e cache t other declared) (Reachable e cache t) where
  steps := stepwise
  known reachable := known _ reachable
  wellScoped reachable := (reachable.compiled made kept).wellScoped (known _ reachable)
  loads scopes reachable member found := loadCoupled scopes reachable member found
  gives reachable member found alike ok := loadGives reachable member found alike ok

end Alike

theorem dependenciesSuffice {e : Engine} {t : Template} {vars vars' : Value} {options : RenderOptions}
    {w : World} (unlimited : options.timeout.isPositive = false) (made : t.Compiled)
    (kept : ∀ entry ∈ w.cache.entries, entry.item.Compiled)
    (agree : ∀ u, Reachable e w.cache t u → ∀ path ∈ u.dependencies,
      rawValue (givenVars vars) options.defaults path = rawValue (givenVars vars') options.defaults path) :
    t.render e.host e.includer vars options w = t.render e.host e.includer vars' options w := by
  simp only [Template.render, Template.begin, Frame.startUnlimited unlimited, Except.map]
  generalize (w.tick e.host).1 = now
  generalize world : (w.tick e.host).2 = after
  have alike : Alike e w.cache t (givenVars vars') (fun path =>
      rawValue (givenVars vars) options.defaults path = rawValue (givenVars vars') options.defaults path) []
      ⟨⟨givenVars vars, options, "", [], [], [], [], now, none⟩, after⟩
      ⟨⟨givenVars vars', options, "", [], [], [], [], now, none⟩, after⟩ := by
    subst world
    exact ⟨rfl, rfl, rfl, fun _ same => same, fun entry member => .inl member⟩
  obtain ⟨same, ⟨after', -, -, -, -⟩⟩ := (Alike.including made kept agree).runCoupled
    (by rintro s s' ⟨rfl, _, _, _, _⟩; rfl) .self alike
  generalize t.run e.host e.includer ⟨⟨givenVars vars, options, "", [], [], [], [], now, none⟩, after⟩ = ran
    at same after' ⊢
  generalize t.run e.host e.includer ⟨⟨givenVars vars', options, "", [], [], [], [], now, none⟩, after⟩ =
    ran' at same after' ⊢
  obtain ⟨result, s⟩ := ran
  obtain ⟨result', s'⟩ := ran'
  obtain rfl : result = result' := same
  obtain rfl : s' = _ := after'
  cases result with
  | ok output => rfl
  | error fault => cases fault <;> rfl

def sampleInclude : Engine := ⟨.standard, .empty, some fun _ => .ok (some "$\x7b b \x7d"), .still⟩

def sampleOuter : Template := ⟨"", .root .start [], ⟨[.inclusion .start "part"], [], 0⟩, []⟩

set_option maxRecDepth 4000 in
theorem dependenciesSufficeIncluded : ∃ p, sampleInclude.build "$\x7b b \x7d" = .ok p ∧
    Reachable sampleInclude World.fresh.cache sampleOuter p.template ∧
    sampleOuter.render .still sampleInclude.includer (.map [(.str "b", .int 1), (.str "c", .int 2)])
        .unlimited .fresh =
      sampleOuter.render .still sampleInclude.includer (.map [(.str "b", .int 1), (.str "c", .int 3)])
        .unlimited .fresh := by
  have tokens : Token.scan .standard "$\x7b b \x7d" =
      .ok [⟨.output, "b", ⟨1, 1, 0⟩, 6⟩, ⟨.eof, "", ⟨1, 7, 6⟩, 6⟩] := by cbv
  have item : Output.parse "b" = .ok ⟨"b", .path "b", []⟩ := by cbv
  have read : Node.ofTokens .standard [⟨.output, "b", ⟨1, 1, 0⟩, 6⟩, ⟨.eof, "", ⟨1, 7, 6⟩, 6⟩] =
      .ok (.root .start [.output ⟨1, 1, 0⟩ "b"]) := by cbv
  obtain ⟨c, compiled, paths, plain⟩ : ∃ c,
      Procedure.compile .empty (.root .start [.output ⟨1, 1, 0⟩ "b"]) = .ok c ∧
      c.dependencies = ["b"] ∧ Instruction.inclusionsOf c.procedure.instructions = [] := by
    simp only [Procedure.compile, Procedure.compileNodes, Procedure.compileNode, item]
    exact ⟨_, rfl, rfl, rfl⟩
  obtain ⟨p, built, template⟩ : ∃ p, sampleInclude.build "$\x7b b \x7d" = .ok p ∧ p.template =
      ⟨Digest.sha1 "$\x7b b \x7d", .root .start [.output ⟨1, 1, 0⟩ "b"], c.procedure, c.dependencies⟩ :=
    ⟨_, Engine.buildOk.mpr ⟨_, _, c, tokens, read, compiled, rfl⟩, rfl⟩
  have outer : sampleOuter.Compiled := ⟨.empty, .root .start [.inclusion .start "part"], _, rfl, rfl, rfl⟩
  have only : ∀ u, Reachable sampleInclude World.fresh.cache sampleOuter u →
      u = sampleOuter ∨ u = p.template := by
    intro u reachable
    induction reachable with
    | self => exact .inl rfl
    | built _ member found ok ih =>
      rcases ih with rfl | rfl
      · cases found
        rw [built] at ok
        cases ok
        exact .inr rfl
      · simp [template, plain] at member
    | kept _ _ _ held => simp [World.fresh, Cache.empty] at held
  refine ⟨p, built, .built .self (List.mem_singleton.mpr rfl) rfl built, ?_⟩
  refine @dependenciesSuffice sampleInclude _ _ _ _ _ (by decide) outer
    (by simp [World.fresh, Cache.empty]) ?_
  intro u reachable path member
  rcases only u reachable with rfl | rfl
  · cases member
  · rw [template, paths] at member
    rw [List.mem_singleton.mp member]
    rfl
end Stencil

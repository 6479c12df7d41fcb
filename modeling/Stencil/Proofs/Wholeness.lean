import Stencil.Proofs.Escapes
import Stencil.Proofs.Judging
import Stencil.Proofs.Watchful

/-! The mark of what is missing stays inside. Where nothing that is given has it anywhere in it, nothing that is called
is given it: what an operand leads to may be missing, but it is replaced before it goes into a call. -/
namespace Stencil

namespace Value

mutual

/- Whether nothing is missing in a value, at any depth. -/
def isWhole (v : Value) : Bool :=
  match v with
  | .missing => false
  | .list xs | .tuple xs | .set xs => areWhole xs
  | .map es => entriesWhole es
  | _ => true
termination_by structural v

def areWhole (xs : List Value) : Bool :=
  match xs with
  | [] => true
  | x :: xs => isWhole x && areWhole xs
termination_by structural xs

def entriesWhole (es : List (Value × Value)) : Bool :=
  match es with
  | [] => true
  | (k, v) :: es => isWhole k && isWhole v && entriesWhole es
termination_by structural es

end

abbrev Whole (v : Value) : Prop := v.isWhole = true

theorem areWholeEach {xs : List Value} : areWhole xs = true ↔ ∀ x ∈ xs, x.Whole := by
  induction xs with
  | nil => simp [areWhole]
  | cons x xs ih => simp [areWhole, ih, Whole]

theorem entriesWholeEach {es : Entries} : entriesWhole es = true ↔ ∀ e ∈ es, e.1.Whole ∧ e.2.Whole := by
  induction es with
  | nil => simp [entriesWhole]
  | cons e es ih => simp [entriesWhole, ih, Whole, and_assoc]

theorem wholeItems {v : Value} {items : List Value} (whole : v.Whole) (same : v.items? = some items) :
    ∀ item ∈ items, item.Whole := by
  cases v with
  | list xs | tuple xs =>
    cases same
    exact areWholeEach.mp whole
  | _ => cases same

/- Whatever holds of all items and of what stands for an absent one holds of what is got. -/
theorem gotAny {P : Value → Prop} {items : List Value} {absent : Value} (other : P absent)
    (each : ∀ item ∈ items, P item) (i : Nat) : P (items.getD i absent) := by
  rw [List.getD_eq_getElem?_getD]
  cases found : items[i]? with
  | none => exact other
  | some v => exact each v (List.mem_of_getElem? found)

end Value

namespace Path

variable {v u : Value}

theorem entryWhole {es : Entries} (whole : (Value.map es).Whole) (key : String) :
    Flows Value.Whole ((Entries.get? es key).getD .missing) := by
  cases found : Entries.get? es key with
  | none => exact .inl rfl
  | some u =>
    obtain ⟨e, here, rfl⟩ := Option.map_eq_some_iff.mp found
    exact .inr (Value.entriesWholeEach.mp whole e (List.mem_of_find?_eq_some here)).2

theorem elementWhole {items : List Value} (whole : ∀ item ∈ items, item.Whole) (index : Int) :
    Flows Value.Whole (element items index) := by
  simp only [element]
  generalize (if index < 0 then index + items.length else index) = position
  split
  · exact .inl rfl
  · exact Value.gotAny (.inl rfl) (fun item member => .inr (whole item member)) _

theorem stepWhole {segment : String} (flows : Flows Value.Whole v) (stepped : step v segment = .ok u) :
    Flows Value.Whole u := by
  rcases flows with rfl | whole
  · cases stepped
    exact .inl rfl
  · cases v with
    | map es =>
      cases stepped
      exact entryWhole whole segment
    | list items | tuple items =>
      rw [step] at stepped
      split at stepped
      · cases read : readInteger segment with
        | error f =>
          rw [read] at stepped
          cases stepped
        | ok index =>
          rw [read] at stepped
          cases stepped
          exact elementWhole (Value.wholeItems whole rfl) index
      · cases stepped
        exact .inl rfl
    | _ =>
      cases stepped
      exact .inl rfl

theorem walkWhole {parts : List String} (flows : Flows Value.Whole v) (walked : walk v parts = .ok u) :
    Flows Value.Whole u := by
  induction parts generalizing v with
  | nil =>
    cases walked
    exact flows
  | cons s parts ih =>
    obtain ⟨next, stepped, walked⟩ := boundOk walked
    exact ih (stepWhole flows stepped) walked

theorem resolveWhole {path : String} (whole : v.Whole) (resolved : resolve v path = .ok u) :
    Flows Value.Whole u := by
  rw [resolve] at resolved
  split at resolved
  · cases resolved
    exact .inl rfl
  · exact walkWhole (.inr whole) resolved

theorem underWhole {key : String} (whole : v.Whole) (found : under v key = .ok u) : Flows Value.Whole u := by
  cases v with
  | map es =>
    cases found
    exact entryWhole whole key
  | _ => cases found

end Path

theorem rawWhole {vars defaults v : Value} {path : String} (given : vars.Whole) (served : defaults.Whole)
    (raw : rawValue vars defaults path = .ok v) : Flows Value.Whole v := by
  obtain ⟨u, first, raw⟩ := boundOk raw
  split at raw
  · obtain ⟨held, -, raw⟩ := boundOk raw
    split at raw
    · exact Path.underWhole served raw
    · exact Path.resolveWhole served raw
  · cases raw
    exact Path.resolveWhole given first

theorem passableWhole : Passable Value.Whole where
  null := rfl
  bool _ := rfl
  int _ := rfl
  items := Value.wholeItems
  walks whole walked := Path.walkWhole (.inr whole) walked

/- Callables of a host that make whole values of whole ones. -/
def Host.ReturnsWhole (host : Host) : Prop :=
  ∀ name args v, (∀ arg ∈ args, arg.Whole) → host.call name args = .ok v → v.Whole

/- Most built-in callables make a text, a number or a moment. One gives back what it was given. -/
theorem Builtin.runWhole {host : Host} {b : Builtin} {args : List Value} {v : Value}
    (whole : ∀ arg ∈ args, arg.Whole) (ok : b.run host args = .ok v) : v.Whole := by
  have given (i : Nat) {absent : Value} (other : absent.Whole) : (args.getD i absent).Whole :=
    Value.gotAny other whole i
  cases b with
  | upper | lower | capitalize | json =>
    obtain ⟨_, -, ok⟩ := boundOk ok
    cases ok
    rfl
  | truncate | random =>
    obtain ⟨_, -, ok⟩ := boundOk ok
    obtain ⟨_, -, ok⟩ := boundOk ok
    cases ok
    rfl
  | date =>
    simp only [run] at ok
    split at ok
    · obtain ⟨_, -, ok⟩ := boundOk ok
      cases ok
      rfl
    · obtain ⟨_, -, ok⟩ := boundOk ok
      cases ok
      rfl
  | now | uuid =>
    cases ok
    rfl
  | default =>
    simp only [run] at ok
    split at ok
    · cases ok
      exact given 1 rfl
    · cases ok
      exact given 1 rfl
    · cases ok
      exact given 1 rfl
    · cases ok
      exact given 0 rfl

theorem Host.ReturnsWhole.applied {host : Host} (returns : host.ReturnsWhole) {c : Callable} {args : List Value}
    {v : Value} (whole : ∀ arg ∈ args, arg.Whole) (ok : host.apply c args = .ok v) : v.Whole := by
  cases c with
  | host name => exact returns name args v whole ok
  | builtin b =>
    have ran := mappedOk ok
    simp only [Builtin.apply] at ran
    split at ran
    · cases ran
    · split at ran
      · cases ran
      · exact Builtin.runWhole whole ran

/- What stands in a text as a value is a text, a number or one of the keywords. -/
theorem Keyword.valueWhole (k : Keyword) : k.value.Whole := by
  cases k <;> rfl

theorem Expr.Numeric.whole {v : Value} (numeric : Numeric v) : v.Whole := by
  cases numeric <;> rfl

theorem Expr.literalsWhole {text : String} {e : Expr} (parsed : parse text = .ok e) : ∀ v ∈ e.literals, v.Whole := by
  intro v stands
  obtain ⟨-, x, -, -, origin⟩ := parseOrigin parsed stands
  cases origin with
  | text => rfl
  | number numeric => exact numeric.whole
  | @keyword k _ same => exact same ▸ k.valueWhole

namespace Output

theorem argumentWhole {raw : List Char} {v : Value} (read : argument raw = .ok v) : v.Whole := by
  simp only [argument] at read
  split at read
  · cases read
    rfl
  · split at read
    · exact (Expr.numberNumeric read).whole
    · split at read
      · cases read
        exact Keyword.valueWhole _
      · cases read
        rfl

theorem partsWhole {parts : List (List Char × Nat)} {values : List Value}
    (read : parts.mapM (fun part => argument part.1) = .ok values) : ∀ v ∈ values, v.Whole := by
  induction parts generalizing values with
  | nil =>
    cases read
    simp
  | cons part parts ih =>
    rw [List.mapM_cons] at read
    obtain ⟨v, first, read⟩ := boundOk read
    obtain ⟨others, rest, read⟩ := boundOk read
    cases read
    exact List.forall_mem_cons.mpr ⟨argumentWhole first, ih rest⟩

theorem argumentsWhole {args : Option (List Char)} {values : List Value} (read : arguments args = .ok values) :
    ∀ v ∈ values, v.Whole := by
  cases args with
  | none =>
    cases read
    simp
  | some s =>
    rw [arguments] at read
    split at read
    · cases read
      simp
    · exact partsWhole read

theorem callsWhole {segments : List (List Char × Nat)} {filters : List FilterCall} (read : calls segments = .ok filters) :
    ∀ f ∈ filters, ∀ v ∈ f.args, v.Whole := by
  induction segments generalizing filters with
  | nil =>
    cases read
    simp
  | cons segment segments ih =>
    obtain ⟨first, one, read⟩ := boundOk read
    obtain ⟨others, rest, read⟩ := boundOk read
    cases read
    refine List.forall_mem_cons.mpr ⟨?_, ih rest⟩
    simp only [filter] at one
    split at one
    · cases one
    · split at one
      · split at one
        · rename_i args arguments
          cases one
          exact argumentsWhole arguments
        · cases one
      · cases one

theorem parseWhole {text : String} {o : Output} (parsed : parse text = .ok o) :
    (∀ v ∈ o.expression.literals, v.Whole) ∧ ∀ f ∈ o.filters, ∀ v ∈ f.args, v.Whole := by
  rw [parse] at parsed
  split at parsed
  · cases parsed
  · split at parsed
    · cases parsed
    · obtain ⟨e, expression, parsed⟩ := boundOk parsed
      obtain ⟨filters, read, parsed⟩ := boundOk parsed
      cases parsed
      exact ⟨Expr.literalsWhole expression, callsWhole read⟩

end Output

namespace Procedure

variable {env : Registry} {k : Gathered}

theorem filtersWhole {p : Position} {calls : List FilterCall} {filters : List BoundFilter}
    (whole : ∀ f ∈ calls, ∀ v ∈ f.args, v.Whole) (binds : bindFilters env p calls = .ok filters) :
    ∀ f ∈ filters, ∀ v ∈ f.args, v.Whole := by
  induction calls generalizing filters with
  | nil =>
    cases binds
    simp
  | cons g calls ih =>
    obtain ⟨first, others⟩ := List.forall_mem_cons.mp whole
    rw [bindFilters] at binds
    split at binds
    · cases binds
    · obtain ⟨rest, bound, binds⟩ := boundOk binds
      cases binds
      exact List.forall_mem_cons.mpr ⟨first, ih others bound⟩

mutual

theorem translatesWhole {bound : List String} {n : Node} {i : Instruction} (translates : Translates env k bound n i) :
    ∀ j ∈ i.all, j.Holds Value.Whole := by
  cases translates with
  | text | inclusion => simp [Instruction.all, Instruction.Holds]
  | output parsed notes binds =>
    obtain ⟨literals, filters⟩ := Output.parseWhole parsed
    simp only [Instruction.all, List.mem_singleton, forall_eq]
    exact ⟨literals, filtersWhole filters binds⟩
  | conditional parsed notes first second =>
    refine List.forall_mem_cons.mpr ⟨Expr.literalsWhole parsed, List.forall_mem_append.mpr ⟨?_, ?_⟩⟩
    · exact translatesAllWhole first
    · exact translatesAllWhole second
  | loop parsed notes inner =>
    exact List.forall_mem_cons.mpr ⟨Expr.literalsWhole parsed, translatesAllWhole inner⟩

theorem translatesAllWhole {bound : List String} {ns : List Node} {is : List Instruction}
    (translates : TranslatesAll env k bound ns is) : ∀ j ∈ Instruction.allOf is, j.Holds Value.Whole := by
  cases translates with
  | nil => simp [Instruction.allOf]
  | cons first others =>
    exact List.forall_mem_append.mpr ⟨translatesWhole first, translatesAllWhole others⟩

end
end Procedure

/- Nothing is missing in the values that a compiled template has in itself. -/
theorem Engine.buildWhole {e : Engine} {text : String} {p : Processed} (built : e.build text = .ok p) :
    p.template.Holds Value.Whole := by
  obtain ⟨tokens, tree, c, -, -, compiled, rfl⟩ := buildOk.mp built
  obtain ⟨-, children, k, -, -, -, translates⟩ := Procedure.compiled compiled
  exact Procedure.translatesAllWhole translates

/- All that was called since was given whole values. -/
def CalledWhole (earlier calls : List (Callable × List Value)) : Prop :=
  ∃ made, calls = made ++ earlier ∧ ∀ call ∈ made, ∀ v ∈ call.2, v.Whole

theorem CalledWhole.more {earlier calls : List (Callable × List Value)} (called : CalledWhole earlier calls)
    {c : Callable} {args : List Value} (whole : ∀ v ∈ args, v.Whole) : CalledWhole earlier ((c, args) :: calls) := by
  obtain ⟨made, rfl, all⟩ := called
  exact ⟨(c, args) :: made, rfl, List.forall_mem_cons.mpr ⟨whole, all⟩⟩

/- A cache of templates with nothing missing in them. -/
def Cache.Whole (cache : Cache Template) : Prop := ∀ entry ∈ cache.entries, entry.item.Holds Value.Whole

theorem Engine.processWhole (e : Engine) (text : String) {cache : Cache Template} (whole : cache.Whole) :
    (e.process text true cache).2.Whole ∧
      ∀ p, (e.process text true cache).1 = .ok p → p.template.Holds Value.Whole := by
  obtain ⟨adds, result⟩ := e.processEnds text cache
  constructor
  · intro entry inside
    rcases adds entry inside with old | ⟨p, built, rfl⟩
    · exact whole entry old
    · exact buildWhole built
  · intro p ended
    rcases result with fresh | ⟨entry, inside, -, -, hit⟩
    · exact buildWhole (fresh.symm.trans ended)
    · cases hit.symm.trans ended
      exact whole entry inside

/- A state of a render in which nothing is missing inside of anything. -/
structure Intact (earlier : List (Callable × List Value)) (scopes : List Scope) (w : Watched) : Prop where
  opened : w.run.frame.scopes = scopes
  vars : w.run.frame.vars.Whole
  defaults : w.run.frame.options.defaults.Whole
  handled : ∀ path v, w.run.frame.handled.lookup path = some v → v.Whole
  calls : CalledWhole earlier w.run.world.calls
  cache : w.run.world.cache.Whole

namespace Intact

variable {host : Host} {earlier : List (Callable × List Value)} {scopes : List Scope} {w : Watched}

theorem moves (intact : Intact earlier scopes w) {s : RunState} (like : w.run.Like s) :
    Intact earlier s.frame.scopes (w.moved s) := by
  refine ⟨rfl, ?_, ?_, ?_, ?_, ?_⟩
  · exact like.vars ▸ intact.vars
  · exact like.options ▸ intact.defaults
  · exact like.handled ▸ intact.handled
  · exact like.calls ▸ intact.calls
  · exact like.cache ▸ intact.cache

theorem seeing (intact : Intact earlier scopes w) (x : Sight) : Intact earlier scopes (w.seeing x) :=
  ⟨intact.opened, intact.vars, intact.defaults, intact.handled, intact.calls, intact.cache⟩

theorem noting (intact : Intact earlier scopes w) (path : String) {v : Value} (whole : v.Whole) :
    Intact earlier scopes (w.noting path v) := by
  refine ⟨intact.opened, intact.vars, intact.defaults, fun other u found => ?_, intact.calls, intact.cache⟩
  rw [Watched.noting, Watched.moved, RunState.handling] at found
  rcases lookupAppended found with old | ⟨-, rfl⟩
  · exact intact.handled other u old
  · exact whole

theorem handling (intact : Intact earlier scopes w) (path : String) (c : Callable) {v : Value} (whole : v.Whole) :
    Intact earlier scopes (w.handling host path c v) :=
  ⟨intact.opened, intact.vars, intact.defaults, intact.handled, intact.calls.more (by simpa using whole),
    intact.cache⟩

theorem lookup (returns : host.ReturnsWhole) (path : String) :
    Mirrors (Intact earlier scopes) (Intact earlier scopes) (Flows Value.Whole) (Watched.lookup host path)
      (Run.lookup host path) := by
  have found {w : Watched} {v : Value} (intact : Intact earlier scopes w) (there : v.isMissing = false)
      (raw : rawValue w.run.frame.vars w.run.frame.options.defaults path = .ok v) : v.Whole := by
    rcases rawWhole intact.vars intact.defaults raw with rfl | whole
    · cases there
    · exact whole
  refine Watched.lookupMirrors (fun _ intact => intact) ?plain ?again ?called ?uncalled
  case plain => exact fun w v intact raw _ => ⟨rawWhole intact.vars intact.defaults raw, intact.seeing _⟩
  case again => exact fun w u intact noted => ⟨.inr (intact.handled path u noted), intact.seeing _⟩
  case called =>
    intro w v c intact raw there _ _
    have whole := found intact there raw
    have after : Intact earlier scopes (w.handling host path c v) := intact.handling path c whole
    have made : (Sight.kept v (host.apply c [v])).Whole := by
      cases answer : host.apply c [v] with
      | ok u => exact returns.applied (by simpa using whole) answer
      | error fault => exact whole
    exact ⟨after, .inr made, (after.noting path made).seeing _⟩
  case uncalled =>
    intro w v intact raw there _ _
    have whole := found intact there raw
    exact ⟨.inr whole, (intact.noting path whole).seeing _⟩

theorem loads (e : Engine) (scopes : List Scope) (text : String) :
    Mirrors (Intact earlier scopes) (Intact earlier scopes) (Template.Holds Value.Whole)
      (Watched.carry (e.load text)) (e.load text) := by
  intro w before
  obtain ⟨cached, compiled⟩ := e.processWhole text before.cache
  have after : Intact earlier scopes (w.moved { w.run with
      world := { w.run.world with cache := (e.process text true w.run.world.cache).2 } }) :=
    ⟨before.opened, before.vars, before.defaults, before.handled, before.calls, cached⟩
  simp only [Watched.carry, Engine.loadEnds]
  cases result : (e.process text true w.run.world.cache).1 with
  | ok p => exact .ok (compiled p result) after
  | error fault => exact .error after

end Intact

/- Rendering keeps whole what is whole. -/
theorem preserving {host : Host} (returns : host.ReturnsWhole) (earlier : List (Callable × List Value)) :
    Watchful host Value.Whole (Intact earlier) (Intact earlier) where
  toPassable := passableWhole
  scopes intact := intact.opened
  left intact := intact.opened
  fails intact := intact
  moves intact like := intact.moves like
  leaves intact like := intact.moves like
  call scopes c args whole := by
    intro w before
    refine .ok (fun v answer => returns.applied whole answer) ?_
    exact ⟨before.opened, before.vars, before.defaults, before.handled, before.calls.more whole, before.cache⟩
  lookup _ := Intact.lookup returns _

theorem Template.calledWhole {host : Host} (returns : host.ReturnsWhole) {t : Template} (holds : t.Holds Value.Whole)
    {hook : Watched.Hook} {includer : Includer} {vars : Value} {options : RenderOptions} {w : World}
    {earlier : List (Callable × List Value)} (same : w.calls = earlier)
    (hooked : Watchful.Hooked (Intact earlier) (Intact earlier) Value.Whole hook includer)
    (given : vars.Whole) (served : options.defaults.Whole) (cached : w.cache.Whole) :
    t.Watches host hook vars options w includer fun _ calls => CalledWhole earlier calls := by
  have none : CalledWhole earlier w.calls := ⟨[], same, by simp⟩
  refine (preserving returns earlier).render hooked holds ?_ none fun v intact => intact.calls
  intro f begun
  obtain ⟨deadline, rfl⟩ := Frame.startEmpty begun
  have vars' : (givenVars vars).Whole := by
    rw [givenVars]
    split
    · exact given
    · rfl
  exact ⟨rfl, vars', served, by simp, none, cached⟩

theorem Engine.hooksWhole {e : Engine} (returns : e.host.ReturnsWhole) (earlier : List (Callable × List Value)) :
    Watchful.Hooked (Intact earlier) (Intact earlier) Value.Whole (Watched.hook e) e.includer :=
  .some ((preserving returns earlier).inclusion (Intact.loads e) _)

/- Where the vars, the defaults and what callables of the host return have nothing missing in them, no filter, function
or handler is ever given anything that is missing or has it inside: in the render of a text, with all that it includes,
and of a template that is already compiled. -/
theorem Engine.missingStaysInside (e : Engine) (vars : Value) (options : RenderOptions) (w : World) (given : vars.Whole)
    (served : options.defaults.Whole) (returns : e.host.ReturnsWhole) (cached : w.cache.Whole) :
    (∀ text, CalledWhole w.calls (e.render text vars options w).2.calls) ∧
      ∀ t : Template, t.Holds Value.Whole → ∀ includer, includer = none ∨ includer = e.includer →
        CalledWhole w.calls (t.render e.host includer vars options w).2.calls ∧
        CalledWhole w.calls (t.renderStrictly e.host includer vars options w).2.calls := by
  constructor
  · intro text
    have watches : e.Watches text vars options w fun _ calls => CalledWhole w.calls calls := by
      refine watches ⟨[], rfl, by simp⟩ fun p cache processed => ?_
      obtain ⟨recached, compiled⟩ := e.processWhole text cached
      rw [processed] at recached compiled
      exact Template.calledWhole returns (compiled p rfl) rfl (hooksWhole returns _) given served recached
    exact watches.seen
  · intro t holds includer known
    rcases known with rfl | rfl
    · have watches := Template.calledWhole returns holds rfl .none given served cached
      exact ⟨watches.seen, watches.seenStrictly⟩
    · have watches := Template.calledWhole returns holds rfl (hooksWhole returns _) given served cached
      exact ⟨watches.seen, watches.seenStrictly⟩

/- A path with a handler, and two that lead nowhere: the one an operand that settles a conjunction, the other the
argument of an inner call. -/
def sampleOperands : Template :=
  ⟨"", .root .start [.output .start "f(x && y, g(z)) | h:1"],
    ⟨[.emit .start "f(x && y, g(z))" (.call "f" [.and (.path "x") (.path "y"), .call "g" [.path "z"]])
        [⟨"h", .host "h", [.int 1]⟩]], [("f", .host "f"), ("g", .host "g")], 0⟩, ["x", "y", "z"]⟩

def sampleHandler : RenderOptions :=
  { RenderOptions.unlimited with handlers := .map [(.str "x", .callable (.host "k"))] }

theorem Host.stillWhole : Host.still.ReturnsWhole := by
  intro name args v whole ok
  cases ok
  cases args with
  | nil => rfl
  | cons arg args => exact whole arg (by simp)

set_option maxRecDepth 4000 in
theorem operandsReplaced :
    let calls := (sampleOperands.render .still none (.map [(.str "x", .str "a")]) sampleHandler .fresh).2.calls
    CalledWhole [] calls ∧ calls = [(.host "h", [.null, .int 1]), (.host "f", [.null, .null]), (.host "g", [.null]),
      (.host "k", [.str "a"])] := by
  have holds : sampleOperands.Holds Value.Whole := by
    intro i inside
    cases List.mem_singleton.mp inside
    simp [Instruction.Holds, Expr.literals, Expr.literalsOf, Value.Whole, Value.isWhole]
  have stays := samplePlain.missingStaysInside (.map [(.str "x", .str "a")]) sampleHandler .fresh rfl rfl
    Host.stillWhole (by simp [Cache.Whole, World.fresh, Cache.empty])
  exact ⟨(stays.2 sampleOperands holds none (.inl rfl)).1, rfl⟩

end Stencil

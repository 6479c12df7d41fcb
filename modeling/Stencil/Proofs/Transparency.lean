import Stencil.Engine.Fleet
import Stencil.Proofs.Caching
import Stencil.Proofs.Inclusion
import Stencil.Proofs.Settled

/-! Compiled templates that are kept are never told from fresh ones. Engines share a registry that is changed
through them or behind their backs; every change raises its revision, so that an entry for the present
revision is what would be compiled now. Two texts with one digest are not considered. -/
namespace Stencil

/- An entry for the present revision comes of a text that now compiles to it; none is for a later one. -/
def Trusted (texts : Set String) (e : Engine) (cache : Cache Template) : Prop :=
  ∀ entry ∈ cache.entries, entry.revision ≤ e.registry.revision ∧
    (entry.revision = e.registry.revision → ∃ text ∈ texts, entry.key = Digest.sha1 text ∧
      ∃ p, e.build text = .ok p ∧ p.template = entry.item)

namespace Trusted

variable {texts : Set String} {e : Engine} {cache : Cache Template} {text : String}

theorem fewer {after : Cache Template} (trusted : Trusted texts e cache)
    (kept : after.entries ⊆ cache.entries) : Trusted texts e after :=
  fun entry member => trusted entry (kept member)

theorem adds {after : Cache Template} (trusted : Trusted texts e cache) (known : text ∈ texts)
    (adds : e.Adds text cache after) : Trusted texts e after := by
  intro entry member
  rcases adds entry member with old | ⟨p, built, rfl⟩
  · exact trusted entry old
  · exact ⟨Int.le_refl _, fun _ => ⟨text, known, rfl, p, built, rfl⟩⟩

theorem process (trusted : Trusted texts e cache) (known : text ∈ texts) (useCache : Bool) :
    Trusted texts e (e.process text useCache cache).2 := by
  cases useCache with
  | false => rwa [e.processUncached]
  | true => exact trusted.adds known (e.processEnds text cache).1

theorem honest (trusted : Trusted texts e cache) (distinct : texts.InjOn Digest.sha1)
    (known : text ∈ texts) : e.Honest text cache := by
  intro entry member key current
  obtain ⟨other, known', key', p, built, same⟩ := (trusted entry member).2 current
  obtain rfl : text = other := distinct known known' (key.symm.trans key')
  exact ⟨p, built, same⟩

/- After a change of the registry no entry counts. -/
theorem outdated {registry : Registry} (trusted : Trusted texts e cache)
    (later : e.registry.revision < registry.revision) :
    Trusted texts { e with registry := registry } cache := by
  intro entry member
  have before := (trusted entry member).1
  have late : (e.registry.revision : Int) < registry.revision := by exact_mod_cast later
  refine ⟨by dsimp only; omega, fun current => ?_⟩
  dsimp only at current
  omega

end Trusted

/- A render beside itself, with a cache that is trusted. -/
structure Keeps (texts : Set String) (e : Engine) (scopes : List Scope) (s s' : RunState) : Prop where
  same : s' = s
  scopes : s.frame.scopes = scopes
  trusted : Trusted texts e s.world.cache

namespace Keeps

variable {texts : Set String} {e : Engine}

theorem callCoupled (scopes : List Scope) (c : Callable) (args : List Value) :
    Coupled (Keeps texts e scopes) (Run.call e.host c args) (Run.call e.host c args) := by
  rintro s s' ⟨rfl, shut, trusted⟩
  exact .ok _ ⟨rfl, shut, trusted⟩

theorem stepwise : Stepwise e.host (fun _ => True) (Keeps texts e) where
  scopes := by
    rintro scopes s s' ⟨rfl, shut, _⟩
    exact ⟨shut, shut⟩
  options := by
    rintro scopes s s' ⟨rfl, _, _⟩
    rfl
  entering := by
    rintro scopes s s' scope ⟨rfl, shut, trusted⟩
    exact ⟨rfl, by rw [← shut]; rfl, trusted⟩
  leaving := by
    rintro scope scopes s s' ⟨rfl, shut, trusted⟩
    exact ⟨rfl, by simp [RunState.leaving, shut], trusted⟩
  writing := by
    rintro scopes s s' text ⟨rfl, shut, trusted⟩
    exact ⟨rfl, shut, trusted⟩
  finding := by
    rintro scopes s s' path ⟨rfl, shut, trusted⟩
    exact ⟨rfl, shut, trusted⟩
  lacking := by
    rintro scopes s s' path ⟨rfl, shut, trusted⟩
    exact ⟨rfl, shut, trusted⟩
  deadline := by
    rintro scopes s s' ⟨rfl, shut, trusted⟩
    obtain ⟨reads, passed | ⟨fault, late⟩⟩ := Run.checkDeadlineEnds e.host s'
    · rw [passed]
      exact .ok () ⟨rfl, shut, trusted⟩
    · rw [late]
      exact .error fault ⟨rfl, shut, trusted⟩
  lookup scopes path _ := by
    refine Run.lookupCoupled ?_ (callCoupled scopes) ?_
    · rintro s s' ⟨rfl, _, _⟩
      exact ⟨rfl, rfl, rfl, rfl⟩
    · rintro s s' v ⟨rfl, shut, trusted⟩
      exact ⟨rfl, shut, trusted⟩
  call scopes c args := callCoupled scopes c args

theorem loadCoupled (scopes : List Scope) {text : String} (known : text ∈ texts) :
    Coupled (Keeps texts e scopes) (e.load text) (e.load text) := by
  rintro s s' ⟨rfl, shut, trusted⟩
  have after := trusted.process known true
  rw [Engine.loadEnds]
  cases (e.process text true s'.world.cache).1 with
  | ok p => exact .ok _ ⟨rfl, shut, after⟩
  | error fault => exact .error _ ⟨rfl, shut, after⟩

theorem including (sources : ∀ name text, e.source name = .ok text → text ∈ texts) :
    Including e (fun _ => True) (Keeps texts e) fun _ => True where
  steps := stepwise
  known _ _ _ := trivial
  wellScoped {u} _ := Instruction.scopedAllFreely u.procedure.instructions
  loads scopes _ _ found := loadCoupled scopes (sources _ _ found)
  gives _ _ _ _ _ := trivial

theorem templateRender (sources : ∀ name text, e.source name = .ok text → text ∈ texts) (t : Template)
    (vars : Value) (options : RenderOptions) {w : World} (trusted : Trusted texts e w.cache) :
    Trusted texts e (t.render e.host e.includer vars options w).2.cache := by
  simp only [Template.render, Template.begin]
  cases begun : Frame.start vars options (w.tick e.host).1 with
  | error fault => exact trusted
  | ok f =>
    have keeps : Keeps texts e [] ⟨f, (w.tick e.host).2⟩ ⟨f, (w.tick e.host).2⟩ := by
      rw [Frame.start] at begun
      split at begun
      · obtain ⟨deadline, -, started⟩ := boundOk begun
        cases started
        exact ⟨rfl, rfl, trusted⟩
      · cases begun
        exact ⟨rfl, rfl, trusted⟩
    obtain ⟨-, after⟩ := (including sources).runCoupled (fun related => by rw [related.same])
      (t := t) trivial keeps
    have trusted' := after.trusted
    simp only [Except.map]
    generalize t.run e.host e.includer ⟨f, (w.tick e.host).2⟩ = ran at trusted'
    obtain ⟨result, s⟩ := ran
    cases result with
    | ok output => exact trusted'
    | error fault => cases fault <;> exact trusted'

theorem render (sources : ∀ name text, e.source name = .ok text → text ∈ texts) {text : String}
    (known : text ∈ texts) (vars : Value) (options : RenderOptions) {w : World}
    (trusted : Trusted texts e w.cache) : Trusted texts e (e.render text vars options w).2.cache := by
  have after := trusted.process known true
  rw [Engine.render]
  split
  · rename_i fault cache same
    rw [same] at after
    exact after
  · rename_i p cache same
    rw [same] at after
    exact templateRender sources p.template vars options after

end Keeps

namespace Fleet

/- What can be done with engines that share a registry; `through` no engine, the registry is changed behind
their backs. To compile a text is to process it. -/
inductive Action where
  | process (i : Nat) (loader : Option Loader) (host : Host) (text : String) (useCache : Bool)
  | render (i : Nat) (loader : Option Loader) (host : Host) (text : String) (vars : Value)
      (options : RenderOptions) (w : World)
  | clear (i : Nat)
  | insert (through : Option Nat) (role : Role) (name callable : Value)
  | erase (through : Option Nat) (role : Role) (name : String)

/- The texts that an action compiles are among these. -/
def Action.Within (texts : Set String) : Action → Prop
  | .process _ _ _ text _ => text ∈ texts
  | .render _ loader _ text _ _ _ =>
    text ∈ texts ∧ ∀ load, loader = some load → ∀ name other, load name = .ok (some other) → other ∈ texts
  | _ => True

/- A render works with the cache of its engine. -/
def act (f : Fleet) : Action → Fleet
  | .process i loader host text useCache => (f.process i loader host text useCache).2
  | .render i loader host text vars options w =>
    f.withCache i
      ((f.engine i loader host).render text vars options { w with cache := (f.station i).cache }).2.cache
  | .clear i => (f.clear i).2
  | .insert through role name callable =>
    match f.insert through role name callable with
    | .ok g => g
    | .error _ => f
  | .erase through role name => (f.erase through role name).2

def run (f : Fleet) (actions : List Action) : Fleet := actions.foldl act f

def Sound (texts : Set String) (f : Fleet) : Prop :=
  ∀ i loader host, Trusted texts (f.engine i loader host) (f.station i).cache

variable {texts : Set String} {f : Fleet}

theorem stationWithCache (f : Fleet) (i j : Nat) (cache : Cache Template) :
    (f.withCache i cache).station j = f.station j ∨
      j = i ∧ (f.withCache i cache).station j = { f.station i with cache := cache } := by
  simp only [withCache, station, List.getD_eq_getElem?_getD, List.getElem?_modify]
  cases held : f.stations[j]? with
  | none => exact .inl (by simp)
  | some s =>
    by_cases here : i = j
    · subst here
      exact .inr ⟨rfl, by simp [held]⟩
    · exact .inl (by simp [here])

theorem soundWithCache (sound : f.Sound texts) {i : Nat} {cache : Cache Template}
    (trusted : ∀ loader host, Trusted texts (f.engine i loader host) cache) :
    (f.withCache i cache).Sound texts := by
  intro j loader host
  rw [engine]
  -- The other engines keep their caches, and no registry has changed.
  rcases f.stationWithCache i j cache with same | ⟨rfl, same⟩
  · rw [same]
    exact sound j loader host
  · rw [same]
    exact trusted loader host

theorem soundClear (sound : f.Sound texts) (i : Nat) : (f.clear i).2.Sound texts :=
  soundWithCache sound fun loader host => (sound i loader host).fewer (List.nil_subset _)

/- Whether or not a cache was emptied at once, no entry survives the change of revision. -/
theorem soundSettle (sound : f.Sound texts) (through : Option Nat) {registry : Registry}
    (later : f.registry.revision < registry.revision) : (f.settle through registry).Sound texts := by
  have behind : Sound texts { f with registry := registry } :=
    fun i loader host => (sound i loader host).outdated later
  cases through with
  | none => exact behind
  | some i => exact soundClear behind i

theorem changeLater (registry : Registry) (role : Role) (bs : Bindings) :
    registry.revision < (registry.withBindings role bs).revision := by
  cases role <;> exact Nat.lt_succ_self _

theorem insertLater {registry changed : Registry} {role : Role} {name callable : Value}
    (ok : registry.insert role name callable = .ok changed) : registry.revision < changed.revision := by
  rw [Registry.insert.eq_def] at ok
  split at ok
  · split at ok
    · split at ok
      · cases ok
        exact changeLater _ _ _
      · cases ok
    · cases ok
  · cases ok

theorem eraseLater {registry changed : Registry} {role : Role} {name : String}
    (ok : registry.erase role name = (true, changed)) : registry.revision < changed.revision := by
  rw [Registry.erase] at ok
  split at ok
  · cases ok
    exact changeLater _ _ _
  · cases ok

theorem soundAct (sound : f.Sound texts) {a : Action} (used : a.Within texts) : (f.act a).Sound texts := by
  cases a with
  | process i loader host text useCache =>
    exact soundWithCache sound fun loader' host' => (sound i loader host).process used useCache
  | render i loader host text vars options w =>
    obtain ⟨known, sources⟩ := used
    have loaded : ∀ name other, (f.engine i loader host).source name = .ok other → other ∈ texts := by
      intro name other found
      rw [Engine.source] at found
      split at found
      · cases found
      · rename_i load present
        split at found
        · rename_i here
          cases found
          exact sources load present name other here
        all_goals cases found
    exact soundWithCache sound fun loader' host' =>
      Keeps.render loaded known vars options (sound i loader host)
  | clear i => exact soundClear sound i
  | insert through role name callable =>
    rw [act]
    cases added : f.insert through role name callable with
    | error fault => exact sound
    | ok g =>
      rw [insert] at added
      cases changed : f.registry.insert role name callable with
      | error fault => simp [changed, Except.map] at added
      | ok registry =>
        simp only [changed, Except.map] at added
        cases added
        exact soundSettle sound through (insertLater changed)
  | erase through role name =>
    rw [act, erase]
    split
    · rename_i registry changed
      exact soundSettle sound through (eraseLater changed)
    · exact sound

theorem soundRun (sound : f.Sound texts) {actions : List Action} (used : ∀ a ∈ actions, a.Within texts) :
    (f.run actions).Sound texts := by
  induction actions generalizing f with
  | nil => exact sound
  | cons a actions ih =>
    exact ih (soundAct sound (used a (by simp))) fun b member => used b (List.mem_cons_of_mem _ member)

/- A text that does not compile leaves nothing behind. -/
theorem failedKept {i : Nat} {loader : Option Loader} {host : Host} {text : String} {useCache : Bool}
    {fault : TemplateError} (failed : (f.process i loader host text useCache).1 = .error fault) (j : Nat) :
    ((f.process i loader host text useCache).2.station j).cache.entries ⊆ (f.station j).cache.entries := by
  have kept : ((f.engine i loader host).process text useCache (f.station i).cache).2.entries ⊆
      (f.station i).cache.entries := by
    cases useCache with
    | false =>
      rw [Engine.processUncached]
      exact List.Subset.refl _
    | true =>
      obtain ⟨adds, fresh | ⟨entry, -, -, -, hit⟩⟩ :=
        (f.engine i loader host).processEnds text (f.station i).cache
      · intro entry member
        rcases adds entry member with old | ⟨p, built, -⟩
        · exact old
        · rw [built] at fresh
          cases fresh.symm.trans failed
      · cases hit.symm.trans failed
  rcases f.stationWithCache i j ((f.engine i loader host).process text useCache (f.station i).cache).2 with
    same | ⟨rfl, same⟩
  · rw [process, same]
    exact List.Subset.refl _
  · rw [process, same]
    exact kept

theorem soundStart (registry : Registry) (switch : Option String) (settings : List Settings) :
    (start registry switch settings).Sound texts := by
  intro i loader host entry member
  have nothing : ((start registry switch settings).station i).cache.entries = [] := by
    simp only [station, start, List.getD_eq_getElem?_getD, List.getElem?_map]
    cases settings[i]? <;> rfl
  rw [nothing] at member
  cases member

/- Whatever was done before: a text that is compiled with the cache gives what it gives without; what
fails, a text or a registration, leaves nothing behind. -/
theorem cacheTransparent (distinct : texts.InjOn Digest.sha1) {registry : Registry}
    {switch : Option String} {settings : List Settings} {actions : List Action}
    (used : ∀ a ∈ actions, a.Within texts) {text : String} (known : text ∈ texts) (i : Nat)
    (loader : Option Loader) (host : Host) :
    let f := (start registry switch settings).run actions
    (f.process i loader host text true).1.map (·.template) =
        (f.process i loader host text false).1.map (·.template) ∧
      (∀ useCache fault, (f.process i loader host text useCache).1 = .error fault → ∀ j,
        ((f.process i loader host text useCache).2.station j).cache.entries ⊆
          (f.station j).cache.entries) ∧
      ∀ through role name callable fault, f.insert through role name callable = .error fault →
        f.act (.insert through role name callable) = f := by
  intro f
  have sound : f.Sound texts := soundRun (soundStart registry switch settings) used
  refine ⟨?_, ?_, ?_⟩
  · have same := ((sound i loader host).honest distinct known).transparent
    simp only [process, Engine.processUncached]
    exact same
  · exact fun useCache fault failed j => failedKept failed j
  · intro through role name callable fault refused
    rw [act, refused]

/- Two engines; a filter is added through the first one, so that the cache of the second one is stale. -/
def sampleActions : List Action := [
  .process 0 none .still "a" true, .process 1 none .still "a" true,
  .insert (some 0) .filter (.str "same") (.callable (.host "same")),
  .render 1 none .still "b" .null .unlimited .fresh]

set_option maxRecDepth 4000 in
theorem cacheTransparentShared :
    let f := (start .empty none [.standard, .standard]).run sampleActions
    (f.process 1 none .still "a" true).1.map (·.template) =
      (f.process 1 none .still "a" false).1.map (·.template) := by
  have first : Digest.sha1 "a" = "86f7e437faa5a7fce15d1ddcb9eaeaea377667b8" := by cbv
  have second : Digest.sha1 "b" = "e9d71f5ee7c92d6dc9e92ffdad17b8bd49418f98" := by cbv
  have distinct : Set.InjOn Digest.sha1 {text | text ∈ ["a", "b"]} := by
    intro x inside y inside' same
    simp only [Set.mem_ofPred_eq, List.mem_cons, List.not_mem_nil, or_false] at inside inside'
    rcases inside with rfl | rfl <;> rcases inside' with rfl | rfl <;> simp_all
  have used : ∀ a ∈ sampleActions, a.Within {text | text ∈ ["a", "b"]} := by
    simp [sampleActions, Action.Within]
  exact (cacheTransparent distinct used (by simp) 1 none .still).1

end Fleet
end Stencil
